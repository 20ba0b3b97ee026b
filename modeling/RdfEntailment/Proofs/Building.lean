-- The law of building. A rule that is built from clauses has the antecedents and the
-- consequents of the clauses, in order, and of the clauses for its name and of those for the
-- constraint on one placeholder it has the last. So it does not matter whether all clauses
-- are given at once, or a rule is built from some of them and then extended by the others.
import Mathlib.Data.List.Induction
import RdfEntailment.Proofs.Writes
import RdfEntailment.Rule

namespace RdfEntailment

/-! ## What a clause says -/

namespace Clause

def name? : Clause → Option String
  | .name text => some text
  | _ => none

def antecedent? : Clause → Option Triple
  | .antecedent triple => some triple
  | _ => none

def consequent? : Clause → Option Triple
  | .consequent triple => some triple
  | _ => none

def constraint? : Clause → Option (Name × TermKind)
  | .constraint n kind => some (n, kind)
  | _ => none

end Clause

namespace Rule

/-! ## What clauses make of a rule -/

/-- The rule is the base with these clauses added to it. Its lists are those of the base and
then those of the clauses. The last clause for its name counts, and the last one for each
constraint, and where there is none it has what the base has. -/
structure Extends (r base : Rule) (clauses : List Clause) : Prop where
  name : r.name = (clauses.filterMap Clause.name?).getLast?.or base.name
  antecedents : r.antecedents = base.antecedents ++ clauses.filterMap Clause.antecedent?
  consequents : r.consequents = base.consequents ++ clauses.filterMap Clause.consequent?
  constraints : ∀ n, r.constraints.get? n =
    (Writes.latest? (clauses.filterMap Clause.constraint?) n).or (base.constraints.get? n)

variable {r r' base : Rule} {clauses : List Clause}

theorem Extends.refl (r : Rule) : r.Extends r [] where
  name := rfl
  antecedents := (List.append_nil _).symm
  consequents := (List.append_nil _).symm
  constraints _ := rfl

theorem Extends.eq (h : r.Extends base clauses) (h' : r'.Extends base clauses) : r = r' := by
  have hconstraints : r.constraints = r'.constraints :=
    NameMap.ext_get? fun n => (h.constraints n).trans (h'.constraints n).symm
  have hname := h.name.trans h'.name.symm
  have hantecedents := h.antecedents.trans h'.antecedents.symm
  have hconsequents := h.consequents.trans h'.consequents.symm
  cases r
  cases r'
  rw [Rule.mk.injEq]
  exact ⟨hname, hantecedents, hconsequents, hconstraints⟩

variable {b : RuleBuilder}

/-- One clause more goes to the end of what it adds to, and leaves all else as it is. -/
theorem Extends.add (h : b.build.Extends base clauses) (c : Clause) :
    (b.add c).build.Extends base (clauses ++ [c]) where
  name := by
    rw [List.filterMap_append, List.getLast?_append, Option.or_assoc, ← h.name]
    cases c <;> rfl
  antecedents := by
    rw [List.filterMap_append, ← List.append_assoc, ← h.antecedents]
    cases c with
    | antecedent triple => rfl
    | _ => exact (List.append_nil _).symm
  consequents := by
    rw [List.filterMap_append, ← List.append_assoc, ← h.consequents]
    cases c with
    | consequent triple => rfl
    | _ => exact (List.append_nil _).symm
  constraints n := by
    rw [List.filterMap_append, Writes.latest?_append, Option.or_assoc, ← h.constraints]
    cases c with
    | constraint k kind => exact NameMap.get?_foldl_insert [(k, kind)] b.constraints n
    | _ => rfl

end Rule

/-! ## Builders -/

namespace RuleBuilder

/-- A rule that is built loses nothing: a builder that goes on from it is the one it came from. -/
@[simp] theorem ofRule_build (b : RuleBuilder) : ofRule b.build = b := rfl

@[simp] theorem build_ofRule (r : Rule) : (ofRule r).build = r := rfl

theorem addAll_append (b : RuleBuilder) (xs ys : List Clause) :
    b.addAll (xs ++ ys) = (b.addAll xs).addAll ys := List.foldl_append

/-- By induction on the clauses, the last one at the end. -/
theorem extends_addAll (b : RuleBuilder) (clauses : List Clause) :
    (b.addAll clauses).build.Extends b.build clauses := by
  induction clauses using List.reverseRecOn with
  | nil => exact Rule.Extends.refl b.build
  | append_singleton clauses c ih =>
    rw [addAll_append]
    exact ih.add c

/-- To stop half-way, and to go on from the rule that is built by then, changes nothing. -/
theorem build_addAll_append (b : RuleBuilder) (xs ys : List Clause) :
    (b.addAll (xs ++ ys)).build = ((b.addAll xs).build.toBuilder.addAll ys).build := by
  rw [addAll_append, Rule.toBuilder, ofRule_build]

theorem eq_build_addAll_iff (b : RuleBuilder) (clauses : List Clause) (r : Rule) :
    r = (b.addAll clauses).build ↔ r.Extends b.build clauses := by
  constructor
  · rintro rfl
    exact extends_addAll b clauses
  · exact fun h => h.eq (extends_addAll b clauses)

end RuleBuilder

theorem Rule.extends_extend (base : Rule) (clauses : List Clause) :
    (base.extend clauses).Extends base clauses := RuleBuilder.extends_addAll (.ofRule base) clauses

/-! ## The law -/

/-- To build a rule in stages is to build it at once, from any base, and to go on from a rule
with no clause leaves it as it is. What is built is the one rule that the clauses describe: each
list in the order of the clauses, duplicates kept, and the last clause for its name and for each
constraint. -/
theorem building_in_stages_is_building_at_once (first later : List Clause) :
    (Rule.builder.addAll (first ++ later)).build =
      ((Rule.builder.addAll first).build.toBuilder.addAll later).build ∧
    (∀ r, r = (Rule.builder.addAll first).build ↔ r.Extends ⟨none, [], [], ∅⟩ first) ∧
    ∀ base : Rule, base.toBuilder.build = base ∧
      (base.toBuilder.addAll (first ++ later)).build =
        ((base.toBuilder.addAll first).build.toBuilder.addAll later).build ∧
      ∀ r, r = (base.toBuilder.addAll first).build ↔ r.Extends base first :=
  ⟨Rule.builder.build_addAll_append first later, Rule.builder.eq_build_addAll_iff first,
    fun base => ⟨RuleBuilder.build_ofRule base, base.toBuilder.build_addAll_append first later,
      base.toBuilder.eq_build_addAll_iff first⟩⟩

end RdfEntailment
