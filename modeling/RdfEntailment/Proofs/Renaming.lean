-- The law of renaming. The names of placeholders are bound variables: a permutation
-- of the nine names, made in a rule and in its statements alike, is made in what
-- they bind and in what they fail with, and the rule derives the same triples.
import RdfEntailment.Proofs.Simulation

namespace RdfEntailment

/-! ## Other names -/

/-- The placeholder of another name, in its own flavor. -/
def Placeholder.rename (f : Name → Name) (ph : Placeholder) : Placeholder := ⟨f ph.name, ph.flavor⟩

/-- A placeholder under its other name; any other term as it is. -/
def Term.rename (f : Name → Name) (t : Term) : Term :=
  (t.placeholder?.map fun ph => (ph.rename f).toTerm).getD t

def Triple.rename (f : Name → Name) (t : Triple) : Triple := t.map (Term.rename f)

/-- The map whose values are under other names. -/
def NameMap.permute {α : Type} (m : NameMap α) (π : Equiv.Perm Name) : NameMap α :=
  NameMap.ofFn fun n => m.get? (π.symm n)

def Bindings.rename (π : Equiv.Perm Name) (b : Bindings) : Bindings :=
  (NameMap.permute b π).map (Term.rename π)

/-- The rule with other names in its antecedents, its consequents and its
constraints. -/
def Rule.rename (π : Equiv.Perm Name) (r : Rule) : Rule where
  name := r.name
  antecedents := r.antecedents.map (Triple.rename π)
  consequents := r.consequents.map (Triple.rename π)
  constraints := r.constraints.permute π

@[simp] theorem NameMap.get?_permute {α : Type} (m : NameMap α) (π : Equiv.Perm Name) (n : Name) :
    (m.permute π).get? (π n) = m.get? n := by
  rw [permute, get?_ofFn, Equiv.symm_apply_apply]

@[simp] theorem Bindings.get?_rename (π : Equiv.Perm Name) (b : Bindings) (n : Name) :
    (b.rename π).get? (π n) = (b.get? n).map (Term.rename π) := by
  rw [rename, NameMap.get?_map, NameMap.get?_permute]

section Terms

variable {f : Name → Name} {t : Term}

theorem Term.rename_of_ground (h : t.name? = none) : t.rename f = t := by
  rw [Term.name?, Option.map_eq_none_iff] at h
  simp [Term.rename, h]

@[simp] theorem Term.placeholder?_rename :
    (t.rename f).placeholder? = t.placeholder?.map (Placeholder.rename f) := by
  unfold Term.rename
  cases h : t.placeholder? with
  | none => exact h
  | some ph => exact (ph.rename f).placeholder?_toTerm

theorem Term.name?_rename : (t.rename f).name? = t.name?.map f := by
  simp only [Term.name?, Term.placeholder?_rename, Option.map_map]
  rfl

@[simp] theorem Triple.term_rename (t : Triple) (p : Position) :
    (t.rename f).term p = (t.term p).rename f := t.term_map _ p

theorem Triple.rename_of_ground {t : Triple} (h : t.Ground) : t.rename f = t := by
  apply Triple.ext_term
  intro p
  rw [Triple.term_rename, Term.rename_of_ground (Triple.ground_iff.1 h p)]

end Terms

variable {π : Equiv.Perm Name}

theorem Placeholder.rename_injective : Function.Injective (Placeholder.rename π) := by
  rintro ⟨n, flavor⟩ ⟨n', flavor'⟩ h
  simp only [Placeholder.rename, Placeholder.mk.injEq, EmbeddingLike.apply_eq_iff_eq] at h
  rw [h.1, h.2]

theorem Term.ground_equiv_rename_iff {f : Name → Name} {t u : Term} (ht : t.name? = none) :
    t ≈ u.rename f ↔ t ≈ u := by
  rw [Term.name?, Option.map_eq_none_iff] at ht
  cases hu : u.placeholder? with
  | none => rw [Term.rename_of_ground (by simp [Term.name?, hu])]
  | some ph =>
    have hrename : (u.rename f).placeholder? = some (ph.rename f) := by simp [hu]
    exact iff_of_false (Term.not_equiv_placeholder ht hrename) (Term.not_equiv_placeholder ht hu)

/-- Other names leave equal terms equal, and different ones different. -/
theorem Term.rename_equiv_rename_iff {t u : Term} : t.rename π ≈ u.rename π ↔ t ≈ u := by
  cases ht : t.placeholder? with
  | some ph =>
    have hrename : (t.rename π).placeholder? = some (ph.rename π) := by simp [ht]
    rw [Term.equiv_iff_placeholder? ht, Term.equiv_iff_placeholder? hrename,
      Term.placeholder?_rename, ← Option.map_some,
      (Option.map_injective Placeholder.rename_injective).eq_iff]
  | none =>
    have hground : t.name? = none := by simp [Term.name?, ht]
    rw [Term.rename_of_ground hground, Term.ground_equiv_rename_iff hground]

/-! ## Two runs under different names -/

/-- Two runs, the second one under other names. -/
def Simulation.underOtherNames (π : Equiv.Perm Name) : Simulation where
  rename := π
  slot t t' := t' = t.rename π
  value t t' := t' = t.rename π
  slot_of_value h := h
  name_eq := by
    rintro t _ rfl
    exact Term.name?_rename
  ground_iff := by
    rintro t _ v _ rfl ht rfl
    rw [Term.rename_of_ground ht, Term.ground_equiv_rename_iff ht]
  value_iff := by
    rintro v _ w _ rfl rfl
    exact Term.rename_equiv_rename_iff.symm

namespace Simulation

theorem otherNames_triples (ts : List Triple) :
    List.Forall₂ (underOtherNames π).Pattern ts (ts.map (Triple.rename π)) :=
  pattern_images (fun _ => rfl) ts

theorem otherNames_rules (r : Rule) : (underOtherNames π).Rules r (r.rename π) :=
  ⟨otherNames_triples r.antecedents, otherNames_triples r.consequents⟩

theorem otherNames_bound {b b' : Bindings} (h : (underOtherNames π).Bound b b') :
    b' = b.rename π := by
  apply NameMap.ext_get?
  intro n
  obtain ⟨m, rfl⟩ := π.surjective n
  rw [Bindings.get?_rename]
  exact get?_of_bound (fun _ _ => id) h m

/-- Conclusions are ground, so they have no names to change. -/
theorem otherNames_conclusion {t t' : Triple} (h : (underOtherNames π).Conclusion t t') :
    t' = t := by
  rw [← Triple.rename_of_ground (f := π) h.1]
  exact eq_map_of_conclusion (fun _ _ => id) h

theorem otherNames_conclusions {ts ts' : List Triple}
    (h : List.Forall₂ (underOtherNames π).Conclusion ts ts') : ts' = ts := by
  rw [← List.forall₂_eq_eq_eq]
  exact h.flip.imp fun _ _ => otherNames_conclusion

end Simulation

/-! ## The law -/

/-- Under other names, a rule binds and fails as before, with the other names in
what it binds and in what it fails with, and it derives the very same triples. -/
theorem names_are_bound_variables (π : Equiv.Perm Name) (r : Rule) (ss : List Triple) :
    (r.rename π).solve (ss.map (Triple.rename π)) =
      ((r.solve ss).map (Bindings.rename π)).mapError (MatchError.rename π) ∧
    (r.rename π).apply (ss.map (Triple.rename π)) =
      (r.apply ss).mapError (MatchError.rename π) := by
  have hrules := Simulation.otherNames_rules (π := π) r
  have hstatements := Simulation.otherNames_triples (π := π) ss
  constructor
  · have hrun := Simulation.solveTraced_related hrules hstatements
    exact (hrun.result.imp (fun _ _ => id) fun _ _ => Simulation.otherNames_bound).eq_map
  · have hrel := Simulation.apply_related hrules hstatements
    have hsame := (hrel.imp (fun _ _ => id) fun _ _ => Simulation.otherNames_conclusions).eq_map
      (g := id)
    rw [hsame]
    cases r.apply ss <;> rfl

end RdfEntailment
