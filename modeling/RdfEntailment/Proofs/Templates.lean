-- The law of templated statements. A statement with placeholders of its own can
-- bind a name to a placeholder, and the second reading of a pair can then bind a
-- name that the first one has bound already. What the first reading binds is kept
-- all the same, and what the second one binds only completes it.
import RdfEntailment.Proofs.Composition
import RdfEntailment.Proofs.Instances

namespace RdfEntailment

/-! ## One reading after the other -/

/-- The bindings are those of two readings, the second one of what the first
leaves of the second pattern and makes of the second statement. They are what
the first reading binds, and what the second one binds beside it. -/
structure Bindings.ReadsInTurn (b b₁ b₂ : Bindings) (a₁ a₂ t₁ t₂ : Triple) : Prop where
  first : a₁.unify t₁ = .ok b₁
  second : (a₂.subst b₁).unify (t₂.subst b₁) = .ok b₂
  names : ∀ n, b.contains n ↔ b₁.contains n ∨ b₂.contains n
  kept : ∀ n ∈ a₁.names, b.get? n = b₁.get? n
  added : ∀ n, b₁.get? n = none → b.get? n = b₂.get? n
  first_equiv : a₁.subst b ≈ t₁
  second_equiv : t₁.Ground → a₂.subst b ≈ t₂.subst b₁

variable {a₁ a₂ t₁ t₂ : Triple} {b b₁ b₂ : Bindings}

theorem Triple.get?_merge_of_mem_names (h : a₁.unify t₁ = .ok b₁) (b₂ : Bindings) {n : Name}
    (hn : n ∈ a₁.names) : (b₂.merge b₁).get? n = b₁.get? n := by
  obtain ⟨v, hv⟩ := (Triple.bound_unify_iff h).2 hn
  rw [NameMap.get?_merge, hv, Option.some_or]

theorem Bindings.readsInTurn_merge (h₁ : a₁.unify t₁ = .ok b₁)
    (h₂ : (a₂.subst b₁).unify (t₂.subst b₁) = .ok b₂) :
    Bindings.ReadsInTurn (b₂.merge b₁) b₁ b₂ a₁ a₂ t₁ t₂ where
  first := h₁
  second := h₂
  names n := by
    rw [NameMap.contains, NameMap.get?_merge, Option.isSome_or, Bool.or_eq_true, NameMap.contains,
      NameMap.contains]
  kept _ hn := Triple.get?_merge_of_mem_names h₁ b₂ hn
  added n hn := by rw [NameMap.get?_merge, hn, Option.none_or]
  first_equiv := by
    rw [Triple.subst_congr fun _ hn => Triple.get?_merge_of_mem_names h₁ b₂ hn]
    exact Triple.subst_unify h₁
  -- A ground statement binds no name to a placeholder, so the second reading
  -- goes on where the first one has stopped.
  second_equiv hground := by
    rw [← (Triple.ground_unify hground h₁).subst_subst]
    exact Triple.subst_unify h₂

/-- Bindings that are read in turn are the bindings of the pair: each name is
bound by the first reading, and kept, or it is added by the second one. -/
theorem Bindings.ReadsInTurn.unifyPair (h : b.ReadsInTurn b₁ b₂ a₁ a₂ t₁ t₂) :
    a₁.unifyPair a₂ t₁ t₂ = .ok b := by
  refine Triple.unifyPair_eq_ok_iff.2 ⟨b₁, b₂, h.first, h.second, NameMap.ext_get? fun n => ?_⟩
  rw [NameMap.get?_merge]
  cases hn : b₁.get? n with
  | none => rw [h.added n hn, Option.none_or]
  | some v =>
    have hmem : n ∈ a₁.names := (Triple.bound_unify_iff h.first).1 ⟨v, hn⟩
    rw [h.kept n hmem, hn, Option.some_or]

theorem Triple.unifyPair_eq_ok_iff_readsInTurn :
    a₁.unifyPair a₂ t₁ t₂ = .ok b ↔ ∃ b₁ b₂, b.ReadsInTurn b₁ b₂ a₁ a₂ t₁ t₂ := by
  constructor
  · intro h
    obtain ⟨b₁, b₂, h₁, h₂, rfl⟩ := Triple.unifyPair_eq_ok_iff.1 h
    exact ⟨b₁, b₂, Bindings.readsInTurn_merge h₁ h₂⟩
  · rintro ⟨b₁, b₂, h⟩
    exact h.unifyPair

/-! ## A rule with two antecedents -/

/-- The order in which two statements are solved: the one given where the pair
is read in it, and the other one where it is not. -/
def Triple.inOrder (a₁ a₂ s₁ s₂ : Triple) : Triple × Triple :=
  match a₁.unifyPair a₂ s₁ s₂ with
  | .ok _ => (s₁, s₂)
  | .error _ => (s₂, s₁)

theorem Rule.solve_eq_ok_iff_inOrder {r : Rule} (hr : r.ranked = [a₁, a₂]) {s₁ s₂ : Triple} :
    r.solve [s₁, s₂] = .ok b ↔
      a₁.unifyPair a₂ (a₁.inOrder a₂ s₁ s₂).1 (a₁.inOrder a₂ s₁ s₂).2 = .ok b := by
  rw [Rule.solve_two (Rule.length_of_ranked_eq_two hr) hr, Triple.inOrder]
  cases hgiven : a₁.unifyPair a₂ s₁ s₂ with
  | ok c => simp only [hgiven, Except.ok.injEq]
  | error e =>
    cases a₁.unifyPair a₂ s₂ s₁ with
    | ok c => simp only [Except.ok.injEq]
    | error e' => exact iff_of_false nofun nofun

/-- Two statements that solve a rule, templated or not, are read in turn in
their order. The first reading is kept whatever the second one binds, and so it
turns the first antecedent into its statement. -/
theorem statements_are_read_in_turn {r : Rule} {s₁ s₂ : Triple} {b : Bindings} :
    r.solve [s₁, s₂] = .ok b ↔
      ∃ a₁ a₂ t₁ t₂ b₁ b₂, r.ranked = [a₁, a₂] ∧ a₁.inOrder a₂ s₁ s₂ = (t₁, t₂) ∧
        b.ReadsInTurn b₁ b₂ a₁ a₂ t₁ t₂ := by
  constructor
  · intro h
    obtain ⟨a₁, a₂, hranked⟩ := Rule.ranked_eq_two (Rule.length_of_solve_eq_ok h)
    rw [Rule.solve_eq_ok_iff_inOrder hranked] at h
    obtain ⟨b₁, b₂, hread⟩ := Triple.unifyPair_eq_ok_iff_readsInTurn.1 h
    exact ⟨a₁, a₂, _, _, b₁, b₂, hranked, rfl, hread⟩
  · rintro ⟨a₁, a₂, t₁, t₂, b₁, b₂, hranked, horder, hread⟩
    rw [Rule.solve_eq_ok_iff_inOrder hranked, horder]
    exact hread.unifyPair

/-- The first statement binds a name to the placeholder of another name, and the
second statement binds that other name. The placeholder stays: what the rule
binds does not turn the second antecedent into the second statement. -/
theorem a_placeholder_stays_bound :
    ∃ (s₁ s₂ : Triple) (b : Bindings),
      s₁ = ⟨Name.xxx.var, Rdfs.subPropertyOf, Name.uuu.toTerm .literal⟩ ∧
      s₂ = ⟨.iri "x:likes", Rdfs.subPropertyOf, .iri "x:knows"⟩ ∧
      Catalog.rdfs5.solve [s₁, s₂] = .ok b ∧
      b.get? .uuu = some Name.xxx.var ∧
      ∃ a₁ a₂ b₁ b₂, Catalog.rdfs5.ranked = [a₁, a₂] ∧ b.ReadsInTurn b₁ b₂ a₁ a₂ s₁ s₂ ∧
        b₂.get? .uuu = some (.iri "x:likes") ∧ ¬ a₂.subst b ≈ s₂.subst b₁ := by
  let s₁ : Triple := ⟨Name.xxx.var, Rdfs.subPropertyOf, Name.uuu.toTerm .literal⟩
  let s₂ : Triple := ⟨.iri "x:likes", Rdfs.subPropertyOf, .iri "x:knows"⟩
  have hsolve := Catalog.rdfs5.solve_of_declared (by decide) [s₁, s₂]
  obtain ⟨b, hb⟩ : ∃ b, Catalog.rdfs5.solve [s₁, s₂] = .ok b := ⟨_, hsolve⟩
  obtain ⟨a₁, a₂, t₁, t₂, b₁, b₂, hranked, horder, hread⟩ := statements_are_read_in_turn.1 hb
  refine ⟨s₁, s₂, b, rfl, rfl, hb, ?_, a₁, a₂, b₁, b₂, hranked, ?_⟩
  · cases hb.symm.trans hsolve
    rfl
  · cases hranked.symm.trans (Rule.ranked_of_pairwise_le (by decide))
    cases horder
    have hfirst := hread.first
    cases hfirst
    have hsecond := hread.second
    cases hsecond
    cases hb.symm.trans hsolve
    exact ⟨hread, rfl, by decide⟩

end RdfEntailment
