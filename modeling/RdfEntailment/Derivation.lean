-- Derivation: what a rule makes of some statements, and the record that it
-- leaves. A rule with two antecedents tries the statements in the order
-- given and then the other way round. The consequents are derived all
-- together or not at all.
import RdfEntailment.Rule
import RdfEntailment.Trace

namespace RdfEntailment

/-! ## Consequents -/

/-- The triple after substitution, if no placeholder is left in it. -/
def Triple.instantiate (t : Triple) (b : Bindings) : Except MatchError Triple :=
  match (t.subst b).firstName? with
  | some n => .error (.underdetermined n)
  | none => .ok (t.subst b)

/-- All the triples after substitution, or the first one's fault. -/
def Triple.instantiateAll (ts : List Triple) (b : Bindings) : Except MatchError (List Triple) :=
  ts.mapM (·.instantiate b)

/-! ## Antecedents -/

/-- Reads one statement through one antecedent. -/
def Triple.unifyTraced (a s : Triple) : Traced Bindings :=
  match a.unify s with
  | .ok b => ⟨[], .ok b⟩
  | .error fault => ⟨fault.events ++ [.unmatched fault.error], .error fault.error⟩

/-- Reads two statements through two antecedents, in the order given and
then the other way round. -/
def Triple.unifyEitherWay (a₁ a₂ s₁ s₂ : Triple) : Traced Bindings :=
  match a₁.unifyPair a₂ s₁ s₂ with
  | .ok b => ⟨[], .ok b⟩
  | .error first =>
    let events := first.events ++ [.firstOrderingFailed first.error]
    match a₁.unifyPair a₂ s₂ s₁ with
    | .ok b => ⟨events, .ok b⟩
    | .error second =>
      ⟨events ++ second.events ++ [.secondOrderingFailed second.error], .error .noOrdering⟩

namespace Rule

/-- Matches the antecedents, in the order `ranked`, with the statements. -/
def matchRanked (r : Rule) (ranked statements : List Triple) : Traced Bindings :=
  if r.antecedents.length = statements.length then
    match ranked, statements with
    | [a], [s] => a.unifyTraced s
    | [a₁, a₂], [s₁, s₂] => a₁.unifyEitherWay a₂ s₁ s₂
    | _, _ => .refuse (.unsupportedRule r.antecedents.length)
  else
    .refuse (.arity r.antecedents.length statements.length)

def solveTraced (r : Rule) (statements : List Triple) : Traced Bindings :=
  r.matchRanked r.ranked statements

/-- Derives the consequents under bindings of the antecedents. -/
def conclude (r : Rule) (b : Bindings) : Traced (List Triple) :=
  match Triple.instantiateAll r.consequents b with
  | .ok triples => ⟨[.derived triples], .ok triples⟩
  | .error e => ⟨[.unfinished e], .error e⟩

def applyTraced (r : Rule) (statements : List Triple) : Traced (List Triple) :=
  (r.solveTraced statements).andThen r.conclude

/-- What the statements bind the names of the antecedents to. -/
def solve (r : Rule) (statements : List Triple) : Except MatchError Bindings :=
  (r.solveTraced statements).result

/-- The triples that the rule derives from the statements. -/
def apply (r : Rule) (statements : List Triple) : Except MatchError (List Triple) :=
  (r.applyTraced statements).result

def events (r : Rule) (statements : List Triple) : List Event :=
  (r.applyTraced statements).events

/-- Statements may come from any graphs: a rule looks at the triples only. -/
def applyQuads (r : Rule) (statements : List Quad) : Except MatchError (List Triple) :=
  r.apply (statements.map (·.triple))

theorem solve_of_length_ne {r : Rule} {statements : List Triple}
    (h : r.antecedents.length ≠ statements.length) :
    r.solve statements = .error (.arity r.antecedents.length statements.length) := by
  simp [solve, solveTraced, matchRanked, h]

theorem solve_of_unsupported {r : Rule} {statements : List Triple}
    (h : r.antecedents.length = statements.length) (hone : r.antecedents.length ≠ 1)
    (htwo : r.antecedents.length ≠ 2) :
    r.solve statements = .error (.unsupportedRule r.antecedents.length) := by
  unfold solve solveTraced matchRanked
  rw [if_pos h]
  split
  · exact absurd h hone
  · exact absurd h htwo
  · rfl

theorem solve_one {r : Rule} {a : Triple} (h : r.antecedents.length = 1) (hr : r.ranked = [a])
    (s : Triple) : r.solve [s] = (a.unify s).mapError SlotFault.error := by
  simp only [solve, solveTraced, matchRanked, h, List.length_singleton, if_true, hr,
    Triple.unifyTraced]
  cases a.unify s <;> rfl

/-- With two antecedents, the order given comes first, and the other one
counts only where that fails. -/
theorem solve_two {r : Rule} {a₁ a₂ : Triple} (h : r.antecedents.length = 2)
    (hr : r.ranked = [a₁, a₂]) (s₁ s₂ : Triple) :
    r.solve [s₁, s₂] =
      match a₁.unifyPair a₂ s₁ s₂, a₁.unifyPair a₂ s₂ s₁ with
      | .ok b, _ => .ok b
      | .error _, .ok b => .ok b
      | .error _, .error _ => .error .noOrdering := by
  simp only [solve, solveTraced, matchRanked, h, List.length_cons, List.length_nil, if_true, hr,
    Triple.unifyEitherWay]
  cases a₁.unifyPair a₂ s₁ s₂ <;> cases a₁.unifyPair a₂ s₂ s₁ <;> rfl

theorem apply_eq_bind (r : Rule) (statements : List Triple) :
    r.apply statements = (r.solve statements).bind (Triple.instantiateAll r.consequents) := by
  simp only [apply, applyTraced, Traced.result_andThen, solve]
  congr 1
  funext b
  unfold conclude
  cases Triple.instantiateAll r.consequents b <;> rfl

/-- What a rule derives depends on its bindings and its consequents only. -/
theorem apply_of_solve_eq {r r' : Rule} {statements statements' : List Triple}
    (hc : r.consequents = r'.consequents) (hs : r.solve statements = r'.solve statements') :
    r.apply statements = r'.apply statements' := by
  rw [apply_eq_bind, apply_eq_bind, hc, hs]

end Rule

end RdfEntailment
