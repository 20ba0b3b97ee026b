-- Bindings: the terms that names are bound to. Substitution puts them in
-- the place of placeholders, once: a placeholder that comes in as a value
-- stays as it is.
import RdfEntailment.NameMap
import RdfEntailment.Triple

namespace RdfEntailment

abbrev Bindings := NameMap Term

/-! ## Equal bindings -/

def Bindings.canonical (b : Bindings) : Bindings := b.map Term.canonical

/-- Two bindings are equal when they bind the same names to equal terms. -/
instance Bindings.setoid : Setoid Bindings where
  r b c := b.canonical = c.canonical
  iseqv := ⟨fun _ => rfl, fun h => h.symm, fun h k => h.trans k⟩

instance Bindings.decidableEquiv (b c : Bindings) : Decidable (b ≈ c) :=
  inferInstanceAs (Decidable (b.canonical = c.canonical))

theorem Bindings.equiv_iff {b c : Bindings} :
    b ≈ c ↔ ∀ n, (b.get? n).map Term.canonical = (c.get? n).map Term.canonical := by
  constructor
  · intro h n
    simpa [Bindings.canonical] using congrArg (·.get? n) (show b.canonical = c.canonical from h)
  · intro h
    exact NameMap.ext_get? fun n => by simpa [Bindings.canonical] using h n

/-! ## Substitution -/

/-- The value of a bound placeholder; any other term as it is. -/
def Term.subst (t : Term) (b : Bindings) : Term := (t.name?.bind b.get?).getD t

theorem Term.subst_of_bound {t v : Term} {n : Name} {b : Bindings} (ht : t.name? = some n)
    (hb : b.get? n = some v) : t.subst b = v := by
  simp [Term.subst, ht, hb]

theorem Term.subst_of_unbound {t : Term} {n : Name} {b : Bindings} (ht : t.name? = some n)
    (hb : b.get? n = none) : t.subst b = t := by
  simp [Term.subst, ht, hb]

theorem Term.subst_of_ground {t : Term} {b : Bindings} (ht : t.name? = none) : t.subst b = t := by
  simp [Term.subst, ht]

/-- Every slot after substitution. -/
def Triple.subst (t : Triple) (b : Bindings) : Triple := t.map (·.subst b)

@[simp] theorem Triple.term_subst (t : Triple) (b : Bindings) (p : Position) :
    (t.subst b).term p = (t.term p).subst b := t.term_map _ p

end RdfEntailment
