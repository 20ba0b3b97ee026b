-- The laws of provenance. A rule puts no term into its conclusions that was not
-- there before: each slot of what it derives is a slot of one of the statements,
-- spelling included, or a slot of a consequent that holds no placeholder.
import RdfEntailment.Proofs.Instances

namespace RdfEntailment

/-! ## Substituted slots -/

theorem Term.subst_eq_or_bound (t : Term) (b : Bindings) :
    t.subst b = t ∨ ∃ n, b.get? n = some (t.subst b) := by
  cases ht : t.name? with
  | none => exact Or.inl (Term.subst_of_ground ht)
  | some n =>
    cases hn : b.get? n with
    | none => exact Or.inl (Term.subst_of_unbound ht hn)
    | some v =>
      rw [Term.subst_of_bound ht hn]
      exact Or.inr ⟨n, hn⟩

theorem Triple.mem_terms_subst {t : Triple} {b : Bindings} {x : Term}
    (h : x ∈ (t.subst b).terms) : x ∈ t.terms ∨ ∃ n, b.get? n = some x := by
  obtain ⟨p, rfl⟩ := Triple.mem_terms.1 h
  rw [Triple.term_subst]
  rcases (t.term p).subst_eq_or_bound b with heq | hbound
  · rw [heq]
    exact Or.inl (Triple.mem_terms.2 ⟨p, rfl⟩)
  · exact Or.inr hbound

/-! ## Where bindings come from -/

/-- Each value stands in a slot of one of the statements, spelled as it is
there. -/
def Bindings.From (b : Bindings) (statements : List Triple) : Prop :=
  ∀ n v, b.get? n = some v → ∃ s ∈ statements, v ∈ s.terms

variable {a a₁ a₂ s s₁ s₂ : Triple} {b b₁ b₂ : Bindings} {statements : List Triple}

theorem Bindings.From.merge (h₁ : b₁.From statements) (h₂ : b₂.From statements) :
    Bindings.From (b₁.merge b₂) statements := by
  intro n v hv
  rw [NameMap.get?_merge, Option.or_eq_some_iff] at hv
  rcases hv with hv | ⟨_, hv⟩
  · exact h₂ n v hv
  · exact h₁ n v hv

theorem Bindings.From.mono {more : List Triple} (h : b.From statements)
    (hsub : ∀ t ∈ statements, t ∈ more) : b.From more := by
  intro n v hv
  obtain ⟨t, ht, hvt⟩ := h n v hv
  exact ⟨t, hsub t ht, hvt⟩

theorem Triple.from_unify (h : a.unify s = .ok b) : b.From [s] := by
  intro n v hv
  rw [Triple.get?_unify h] at hv
  obtain ⟨p, _, rfl⟩ := Triple.captured?_eq_some hv
  exact ⟨s, by simp, Triple.mem_terms.2 ⟨p, rfl⟩⟩

-- The second statement is read after substitution, so what it gives may come
-- from the first one.
theorem Triple.from_unifyPair (h : a₁.unifyPair a₂ s₁ s₂ = .ok b) : b.From [s₁, s₂] := by
  obtain ⟨b₁, b₂, hu₁, hu₂, rfl⟩ := Triple.unifyPair_eq_ok_iff.1 h
  have hb₁ : b₁.From [s₁, s₂] := (Triple.from_unify hu₁).mono (by simp)
  have hb₂ : b₂.From [s₁, s₂] := by
    intro n v hv
    obtain ⟨t, ht, hvt⟩ := Triple.from_unify hu₂ n v hv
    rw [List.mem_singleton] at ht
    subst t
    rcases Triple.mem_terms_subst hvt with hmem | ⟨m, hm⟩
    · exact ⟨s₂, by simp, hmem⟩
    · exact hb₁ m v hm
  exact hb₂.merge hb₁

theorem Rule.from_solve {r : Rule} (h : r.solve statements = .ok b) : b.From statements := by
  rcases Rule.solve_eq_ok h with ⟨a, s, _, rfl, hu⟩ | ⟨a₁, a₂, s₁, s₂, _, rfl, hu | ⟨_, hu⟩⟩
  · exact Triple.from_unify hu
  · exact Triple.from_unifyPair hu
  · exact (Triple.from_unifyPair hu).mono (by simp)

/-! ## Where conclusions come from -/

/-- The terms of the consequents that are no placeholders. -/
def Rule.constants (r : Rule) : List Term :=
  r.consequents.flatMap fun c => c.terms.filter fun t => !t.isPlaceholder

theorem Rule.mem_constants {r : Rule} {x : Term} :
    x ∈ r.constants ↔ ∃ c ∈ r.consequents, x ∈ c.terms ∧ x.isPlaceholder = false := by
  simp [Rule.constants]

theorem Triple.Ground.isPlaceholder {t : Triple} (h : t.Ground) {x : Term} (hx : x ∈ t.terms) :
    x.isPlaceholder = false := by
  have hnone := List.any_eq_false.1 h x hx
  simpa using hnone

/-- A rule derives no term that stands neither in the statements nor in its own
consequents. -/
theorem Rule.mem_terms_of_apply {r : Rule} {ts : List Triple} (h : r.apply statements = .ok ts)
    {t : Triple} (ht : t ∈ ts) {x : Term} (hx : x ∈ t.terms) :
    (∃ s ∈ statements, x ∈ s.terms) ∨ x ∈ r.constants := by
  obtain ⟨b, hb, hground, rfl⟩ := Rule.apply_eq_ok_iff.1 h
  obtain ⟨c, hc, rfl⟩ := List.mem_map.1 ht
  rcases Triple.mem_terms_subst hx with hmem | ⟨n, hn⟩
  · exact Or.inr (Rule.mem_constants.2 ⟨c, hc, hmem, (hground c hc).isPlaceholder hx⟩)
  · exact Or.inl (Rule.from_solve hb n x hn)

end RdfEntailment
