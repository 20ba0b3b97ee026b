-- Triples. The premises and conclusions of a rule and the statements it is
-- read against are all triples; what sets a pattern apart is only that
-- some of its slots hold placeholders.
import RdfEntailment.Placeholder

namespace RdfEntailment

/-- A slot of a triple. -/
inductive Position where
  | subject
  | predicate
  | object
deriving DecidableEq

/-- The slots in order. -/
def Position.all : List Position := [.subject, .predicate, .object]

theorem Position.mem_all (p : Position) : p ∈ all := by cases p <;> decide

def Position.text : Position → String
  | .subject => "subject"
  | .predicate => "predicate"
  | .object => "object"

structure Triple where
  subject : Term
  predicate : Term
  object : Term
deriving DecidableEq

/-- A triple in a named graph, or in the default graph. -/
structure Quad where
  triple : Triple
  graph : Option Term
deriving DecidableEq

namespace Triple

/-- The term of one slot. -/
def term (t : Triple) : Position → Term
  | .subject => t.subject
  | .predicate => t.predicate
  | .object => t.object

/-- The terms of the slots in order. -/
def terms (t : Triple) : List Term := [t.subject, t.predicate, t.object]

/-- Every slot changed by `f`. -/
def map (f : Term → Term) (t : Triple) : Triple := ⟨f t.subject, f t.predicate, f t.object⟩

@[simp] theorem term_map (f : Term → Term) (t : Triple) (p : Position) :
    (t.map f).term p = f (t.term p) := by cases p <;> rfl

@[simp] theorem terms_map (f : Term → Term) (t : Triple) : (t.map f).terms = t.terms.map f := rfl

/-- A triple is known by its slots. -/
theorem ext_term {t u : Triple} (h : ∀ p, t.term p = u.term p) : t = u := by
  obtain ⟨s, p, o⟩ := t
  obtain ⟨s', p', o'⟩ := u
  obtain rfl : s = s' := h .subject
  obtain rfl : p = p' := h .predicate
  obtain rfl : o = o' := h .object
  rfl

/-! ## Equal triples -/

def canonical (t : Triple) : Triple := t.map Term.canonical

/-- Two triples are equal when they are slot by slot. -/
instance setoid : Setoid Triple where
  r t u := t.canonical = u.canonical
  iseqv := ⟨fun _ => rfl, fun h => h.symm, fun h k => h.trans k⟩

instance decidableEquiv (t u : Triple) : Decidable (t ≈ u) :=
  inferInstanceAs (Decidable (t.canonical = u.canonical))

theorem equiv_iff_canonical {t u : Triple} : t ≈ u ↔ t.canonical = u.canonical := Iff.rfl

theorem equiv_iff {t u : Triple} : t ≈ u ↔ ∀ p, t.term p ≈ u.term p := by
  rw [equiv_iff_canonical]
  constructor
  · intro h p
    simpa [canonical, Term.equiv_iff] using congrArg (·.term p) h
  · intro h
    exact ext_term fun p => by simpa [canonical] using Term.equiv_iff.1 (h p)

/-! ## Placeholders in a triple -/

/-- How many slots hold a placeholder. -/
def generality (t : Triple) : Nat := t.terms.countP Term.isPlaceholder

/-- The first triple is at most as general as the second. -/
def generalityLE (t u : Triple) : Bool := t.generality ≤ u.generality

/-- How many slots hold no placeholder. -/
def specificity (t : Triple) : Nat := 3 - t.generality

def hasPlaceholder (t : Triple) : Bool := t.terms.any Term.isPlaceholder

/-- The first name in the triple. -/
def firstName? (t : Triple) : Option Name := t.terms.findSome? Term.name?

/-- The names in the triple, slot by slot. -/
def names (t : Triple) : List Name := t.terms.filterMap Term.name?

theorem generalityLE_iff {t u : Triple} : t.generalityLE u ↔ t.generality ≤ u.generality :=
  decide_eq_true_iff

theorem generalityLE_trans (t u v : Triple) (h : t.generalityLE u) (k : u.generalityLE v) :
    t.generalityLE v :=
  generalityLE_iff.2 (Nat.le_trans (generalityLE_iff.1 h) (generalityLE_iff.1 k))

theorem generalityLE_total (t u : Triple) : t.generalityLE u || u.generalityLE t := by
  rw [Bool.or_eq_true, generalityLE_iff, generalityLE_iff]
  exact Nat.le_total _ _

theorem generality_le (t : Triple) : t.generality ≤ 3 := List.countP_le_length

theorem generality_add_specificity (t : Triple) : t.generality + t.specificity = 3 := by
  have := t.generality_le
  unfold specificity
  omega

theorem hasPlaceholder_iff {t : Triple} : t.hasPlaceholder ↔ 0 < t.generality := by
  rw [hasPlaceholder, List.any_eq_true, generality, List.countP_pos_iff]

theorem isSome_firstName? (t : Triple) : t.firstName?.isSome = t.hasPlaceholder := by
  rw [firstName?, List.isSome_findSome?, hasPlaceholder]
  simp only [Term.isSome_name?]

end Triple

end RdfEntailment
