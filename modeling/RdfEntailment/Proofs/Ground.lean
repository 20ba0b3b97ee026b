-- The laws of ground triples and ground bindings. Bindings whose values are
-- no placeholders take their names out of a pattern for good, and what an
-- assignment makes of the rest stays the same.
import RdfEntailment.Proofs.Reading

namespace RdfEntailment

/-! ## Ground triples -/

/-- No slot holds a placeholder. What a quoted triple holds inside does not
count. -/
def Triple.Ground (t : Triple) : Prop := t.hasPlaceholder = false

instance (t : Triple) : Decidable t.Ground := inferInstanceAs (Decidable (_ = _))

theorem Triple.mem_terms {t : Triple} {u : Term} : u ∈ t.terms ↔ ∃ p, t.term p = u := by
  simp only [terms, List.mem_cons, List.not_mem_nil, or_false]
  constructor
  · rintro (rfl | rfl | rfl)
    · exact ⟨.subject, rfl⟩
    · exact ⟨.predicate, rfl⟩
    · exact ⟨.object, rfl⟩
  · rintro ⟨p, rfl⟩
    cases p <;> simp [term]

theorem Triple.ground_iff {t : Triple} : t.Ground ↔ ∀ p, (t.term p).name? = none := by
  unfold Ground hasPlaceholder
  rw [List.any_eq_false]
  constructor
  · intro h p
    have hp := h (t.term p) (Triple.mem_terms.2 ⟨p, rfl⟩)
    rw [Term.isPlaceholder_iff, not_exists] at hp
    exact Option.eq_none_iff_forall_ne_some.2 hp
  · intro h u hu
    obtain ⟨p, rfl⟩ := Triple.mem_terms.1 hu
    rw [Term.isPlaceholder_iff, h p]
    rintro ⟨n, hn⟩
    cases hn

theorem Triple.subst_of_ground {t : Triple} {b : Bindings} (h : t.Ground) : t.subst b = t := by
  apply Triple.ext_term
  intro p
  rw [Triple.term_subst, Term.subst_of_ground (Triple.ground_iff.1 h p)]

theorem Triple.assign_of_ground {t : Triple} {σ : Assignment} (h : t.Ground) : t.assign σ = t := by
  apply Triple.ext_term
  intro p
  rw [Triple.term_assign, Term.assign_of_ground (Triple.ground_iff.1 h p)]

/-! ## Names after substitution -/

theorem Triple.ground_iff_names {t : Triple} : t.Ground ↔ ∀ n, n ∉ t.names := by
  rw [Triple.ground_iff]
  constructor
  · intro h n hn
    obtain ⟨p, hp⟩ := Triple.mem_names.1 hn
    rw [h p] at hp
    cases hp
  · intro h p
    rw [Option.eq_none_iff_forall_ne_some]
    exact fun n hp => h n (Triple.mem_names.2 ⟨p, hp⟩)

/-- Substitution leaves a name that is not bound, and brings in a name that a
value is. -/
theorem Term.name?_subst_eq_some_iff {t : Term} {b : Bindings} {n : Name} :
    (t.subst b).name? = some n ↔
      (t.name? = some n ∧ b.get? n = none) ∨
      ∃ m v, t.name? = some m ∧ b.get? m = some v ∧ v.name? = some n := by
  cases ht : t.name? with
  | none =>
    rw [Term.subst_of_ground ht, ht]
    simp
  | some k =>
    cases hk : b.get? k with
    | none =>
      rw [Term.subst_of_unbound ht hk, ht]
      constructor
      · rintro ⟨⟩
        exact Or.inl ⟨rfl, hk⟩
      · rintro (⟨h, _⟩ | ⟨m, v, ⟨⟩, hm, _⟩)
        · exact h
        · rw [hk] at hm
          cases hm
    | some w =>
      rw [Term.subst_of_bound ht hk]
      constructor
      · exact fun h => Or.inr ⟨k, w, rfl, hk, h⟩
      · rintro (⟨⟨⟩, hn⟩ | ⟨m, v, ⟨⟩, hm, hv⟩)
        · rw [hk] at hn
          cases hn
        · rw [hk] at hm
          cases hm
          exact hv

theorem Triple.mem_names_subst {t : Triple} {b : Bindings} {n : Name} :
    n ∈ (t.subst b).names ↔
      (n ∈ t.names ∧ b.get? n = none) ∨
      ∃ m v, m ∈ t.names ∧ b.get? m = some v ∧ v.name? = some n := by
  simp only [Triple.mem_names, Triple.term_subst, Term.name?_subst_eq_some_iff]
  constructor
  · rintro ⟨p, ⟨hp, hn⟩ | ⟨m, v, hp, hm, hv⟩⟩
    · exact Or.inl ⟨⟨p, hp⟩, hn⟩
    · exact Or.inr ⟨m, v, ⟨p, hp⟩, hm, hv⟩
  · rintro (⟨⟨p, hp⟩, hn⟩ | ⟨m, v, ⟨p, hp⟩, hm, hv⟩)
    · exact ⟨p, Or.inl ⟨hp, hn⟩⟩
    · exact ⟨p, Or.inr ⟨m, v, hp, hm, hv⟩⟩

/-- No placeholder is left exactly when each name has a value that is none. -/
theorem Triple.ground_subst_iff_values {t : Triple} {b : Bindings} :
    (t.subst b).Ground ↔ ∀ n ∈ t.names, ∃ v, b.get? n = some v ∧ v.name? = none := by
  rw [Triple.ground_iff_names]
  constructor
  · intro h n hn
    cases hb : b.get? n with
    | none => exact absurd (Triple.mem_names_subst.2 (Or.inl ⟨hn, hb⟩)) (h n)
    | some v =>
      refine ⟨v, rfl, Option.eq_none_iff_forall_ne_some.2 fun m hm => h m ?_⟩
      exact Triple.mem_names_subst.2 (Or.inr ⟨n, v, hn, hb, hm⟩)
  · intro h n hn
    rcases Triple.mem_names_subst.1 hn with ⟨hmem, hnone⟩ | ⟨m, v, hmem, hm, hv⟩
    · obtain ⟨v, hv, _⟩ := h n hmem
      rw [hnone] at hv
      cases hv
    · obtain ⟨w, hw, hground⟩ := h m hmem
      rw [hm] at hw
      cases hw
      rw [hground] at hv
      cases hv

/-! ## Ground bindings -/

/-- No value is a placeholder. -/
def Bindings.Ground (b : Bindings) : Prop := ∀ n v, b.get? n = some v → v.name? = none

theorem Triple.ground_unify {a s : Triple} {b : Bindings} (hs : s.Ground)
    (h : a.unify s = .ok b) : b.Ground := by
  intro n v hv
  rw [Triple.get?_unify h] at hv
  obtain ⟨p, _, rfl⟩ := Triple.captured?_eq_some hv
  exact Triple.ground_iff.1 hs p

theorem Term.name?_subst {b : Bindings} (hb : b.Ground) {t : Term} {n : Name} :
    (t.subst b).name? = some n ↔ t.name? = some n ∧ b.get? n = none := by
  rw [Term.name?_subst_eq_some_iff]
  refine or_iff_left ?_
  rintro ⟨m, v, -, hm, hv⟩
  rw [hb m v hm] at hv
  cases hv

/-- An assignment that fits the bindings makes the same of a term before and
after substitution. -/
theorem Term.assign_subst {b : Bindings} {σ : Assignment} (hb : b.Ground) (hf : b.Fits σ)
    (t : Term) : (t.subst b).assign σ ≈ t.assign σ := by
  cases ht : t.name? with
  | none => exact Term.equiv_iff.2 (by rw [Term.subst_of_ground ht])
  | some n =>
    cases hn : b.get? n with
    | none => exact Term.equiv_iff.2 (by rw [Term.subst_of_unbound ht hn])
    | some v =>
      rw [Term.subst_of_bound ht hn, Term.assign_of_ground (hb n v hn), Term.assign_of_name ht]
      exact hf n v hn

theorem Triple.assign_subst {b : Bindings} {σ : Assignment} (hb : b.Ground) (hf : b.Fits σ)
    (t : Triple) : (t.subst b).assign σ ≈ t.assign σ := by
  rw [Triple.assign_equiv_iff]
  intro p
  rw [Triple.term_subst, Triple.term_assign]
  exact Term.assign_subst hb hf _

/-- What a name that is not bound captures does not change. -/
theorem Triple.captured?_subst {b : Bindings} (hb : b.Ground) {n : Name} (hn : b.get? n = none)
    (a s : Triple) : (a.subst b).captured? s n = a.captured? s n := by
  unfold captured? capturedAt?
  congr 2
  funext p
  rw [Triple.term_subst, decide_eq_decide, Term.name?_subst hb]
  exact and_iff_left hn

end RdfEntailment
