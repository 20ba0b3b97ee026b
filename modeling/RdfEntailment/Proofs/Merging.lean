-- The law of merging. To put maps into one is associative, and it matters which map counts
-- over which only where both bind a name to unequal terms. The two readings of a pair bind a
-- name both only where the first one binds a name to a placeholder, and a ground statement
-- gives it none. So only for templated statements it matters that the first reading counts.
import RdfEntailment.Catalog
import RdfEntailment.Proofs.Join

namespace RdfEntailment

/-! ## Two maps -/

theorem Bindings.merge_equiv_iff {b c : Bindings} : b.merge c ≈ c.merge b ↔ b.Agree c := by
  constructor
  · intro h n v w hv hw
    have hn := Bindings.equiv_iff.1 h n
    rw [NameMap.get?_merge, NameMap.get?_merge, hv, hw, Option.some_or, Option.some_or] at hn
    exact Term.equiv_iff.2 (Option.some.inj hn).symm
  · exact fun h => h.symm.merge_equiv

/-! ## The two readings of a pair -/

variable {a₁ a₂ s₁ s₂ : Triple} {b₁ b₂ : Bindings} {n : Name}

/-- The second reading binds a name of the first one exactly where that one has brought it
into the second pattern, as the value of another name. -/
theorem Triple.bound_twice_iff (h₁ : a₁.unify s₁ = .ok b₁)
    (h₂ : (a₂.subst b₁).unify s₂ = .ok b₂) :
    b₁.contains n ∧ b₂.contains n ↔
      n ∈ a₁.names ∧ ∃ m v, m ∈ a₂.names ∧ b₁.get? m = some v ∧ v.name? = some n := by
  have hfirst := (Triple.reads_unify h₁).names n
  rw [(Triple.reads_unify h₂).names, Triple.mem_names_subst, hfirst]
  refine and_congr_right fun hn => or_iff_right ?_
  rintro ⟨-, hnone⟩
  rw [NameMap.contains, hnone] at hfirst
  exact Bool.false_ne_true (hfirst.2 hn)

theorem Triple.not_bound_twice (hground : s₁.Ground) (h₁ : a₁.unify s₁ = .ok b₁)
    (h₂ : (a₂.subst b₁).unify s₂ = .ok b₂) (n : Name) : ¬ (b₁.contains n ∧ b₂.contains n) := by
  rw [Triple.bound_twice_iff h₁ h₂]
  rintro ⟨-, m, v, -, hm, hv⟩
  rw [Triple.ground_unify hground h₁ m v hm] at hv
  cases hv

/-! ## The law -/

/-- Merging is associative and idempotent, and the empty map is its unit. Two maps give equal
maps in both orders exactly when they agree on the names that both bind. Of the two readings
of a pair the first one counts, whatever the second statement is. Where the first statement is
ground, they bind no name both, and it would be the same map if the second one counted. -/
theorem merging_depends_on_its_order_only_where_maps_disagree :
    (∀ b c d : Bindings, (b.merge c).merge d = b.merge (c.merge d)) ∧
    (∀ b : Bindings, b.merge b = b ∧ b.merge ∅ = b ∧ NameMap.merge ∅ b = b) ∧
    (∀ b c : Bindings, b.merge c ≈ c.merge b ↔ b.Agree c) ∧
    ∀ (a₁ a₂ s₁ s₂ : Triple) (b₁ b₂ : Bindings), a₁.unify s₁ = .ok b₁ →
      (a₂.subst b₁).unify (s₂.subst b₁) = .ok b₂ →
      a₁.unifyPair a₂ s₁ s₂ = .ok (b₂.merge b₁) ∧
      (∀ n, b₁.contains n ∧ b₂.contains n ↔
        n ∈ a₁.names ∧ ∃ m v, m ∈ a₂.names ∧ b₁.get? m = some v ∧ v.name? = some n) ∧
      (s₁.Ground →
        (∀ n, ¬ (b₁.contains n ∧ b₂.contains n)) ∧ b₂.merge b₁ = b₁.merge b₂) := by
  refine ⟨NameMap.merge_assoc, fun b => ⟨b.merge_self, b.merge_empty, b.empty_merge⟩,
    fun _ _ => Bindings.merge_equiv_iff, fun a₁ a₂ s₁ s₂ b₁ b₂ h₁ h₂ => ⟨?_, ?_, fun hground => ?_⟩⟩
  · exact Triple.unifyPair_eq_ok_iff.2 ⟨b₁, b₂, h₁, h₂, rfl⟩
  · exact fun _ => Triple.bound_twice_iff h₁ h₂
  · have hapart := Triple.not_bound_twice hground h₁ h₂
    exact ⟨hapart, (NameMap.merge_comm_of_disjoint hapart).symm⟩

/-- From a ground property and a templated super-property of it, the two readings share no name.
From a templated property they share one, and they disagree on it: if the second reading
counted, the name would be bound to another term. -/
theorem a_templated_property_is_bound_twice :
    ∃ (a₁ a₂ s₁ t₁ s₂ : Triple) (b₁ b₂ c₁ c₂ : Bindings),
      Catalog.rdfs5.ranked = [a₁, a₂] ∧
      s₁ = ⟨.iri "x:likes", Rdfs.subPropertyOf, .iri "x:knows"⟩ ∧
      t₁ = ⟨Name.xxx.var, Rdfs.subPropertyOf, Name.uuu.toTerm .literal⟩ ∧
      s₂ = ⟨Name.vvv.toTerm .blankNode, Rdfs.subPropertyOf, Name.uuu.var⟩ ∧
      s₁.Ground ∧ ¬ t₁.Ground ∧ ¬ s₂.Ground ∧
      a₁.unify s₁ = .ok b₁ ∧ (a₂.subst b₁).unify (s₂.subst b₁) = .ok b₂ ∧
      a₁.unifyPair a₂ s₁ s₂ = .ok (b₂.merge b₁) ∧
      (∀ n, ¬ (b₁.contains n ∧ b₂.contains n)) ∧ b₂.merge b₁ = b₁.merge b₂ ∧
      a₁.unify t₁ = .ok c₁ ∧ (a₂.subst c₁).unify (s₂.subst c₁) = .ok c₂ ∧
      c₁.contains .uuu ∧ c₂.contains .uuu ∧ ¬ c₂.Agree c₁ ∧ ¬ c₂.merge c₁ ≈ c₁.merge c₂ := by
  let a₁ : Triple := ⟨Name.uuu.var, Rdfs.subPropertyOf, Name.vvv.var⟩
  let a₂ : Triple := ⟨Name.vvv.var, Rdfs.subPropertyOf, Name.xxx.var⟩
  let s₁ : Triple := ⟨.iri "x:likes", Rdfs.subPropertyOf, .iri "x:knows"⟩
  let t₁ : Triple := ⟨Name.xxx.var, Rdfs.subPropertyOf, Name.uuu.toTerm .literal⟩
  let s₂ : Triple := ⟨Name.vvv.toTerm .blankNode, Rdfs.subPropertyOf, Name.uuu.var⟩
  let b₁ : Bindings := NameMap.ofList [(.uuu, .iri "x:likes"), (.vvv, .iri "x:knows")]
  let b₂ : Bindings := NameMap.ofList [(.xxx, .iri "x:likes")]
  let c₁ : Bindings := NameMap.ofList [(.uuu, Name.xxx.var), (.vvv, Name.uuu.toTerm .literal)]
  let c₂ : Bindings := NameMap.ofList [(.uuu, Name.uuu.toTerm .literal), (.xxx, Name.xxx.var)]
  have hground : s₁.Ground := by decide
  have hb₁ : a₁.unify s₁ = .ok b₁ := rfl
  have hb₂ : (a₂.subst b₁).unify (s₂.subst b₁) = .ok b₂ := rfl
  have hc₁ : a₁.unify t₁ = .ok c₁ := rfl
  have hc₂ : (a₂.subst c₁).unify (s₂.subst c₁) = .ok c₂ := rfl
  obtain ⟨-, -, horder, hpair⟩ := merging_depends_on_its_order_only_where_maps_disagree
  obtain ⟨hmerged, -, hapart⟩ := hpair a₁ a₂ s₁ s₂ b₁ b₂ hb₁ hb₂
  obtain ⟨-, htwice, -⟩ := hpair a₁ a₂ t₁ s₂ c₁ c₂ hc₁ hc₂
  obtain ⟨hin₁, hin₂⟩ :=
    (htwice .uuu).2 ⟨by decide, .vvv, Name.uuu.toTerm .literal, by decide, rfl, rfl⟩
  have hdisagree : ¬ c₂.Agree c₁ := fun h =>
    absurd (h .uuu (Name.uuu.toTerm .literal) Name.xxx.var rfl rfl) (by decide)
  exact ⟨a₁, a₂, s₁, t₁, s₂, b₁, b₂, c₁, c₂, Rule.ranked_of_pairwise_le (by decide), rfl, rfl, rfl, hground, by decide,
    by decide, hb₁, hb₂, hmerged, (hapart hground).1, (hapart hground).2, hc₁, hc₂, hin₁, hin₂, hdisagree,
    fun h => hdisagree ((horder c₂ c₁).1 h)⟩

end RdfEntailment
