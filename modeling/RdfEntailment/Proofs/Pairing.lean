-- The laws of reading a pair of ground statements. Reading them one after the
-- other, with what the first reading binds put into the second pattern, finds
-- what makes both patterns equal to both statements at once. A rule with two
-- antecedents tries the pairing of the order given first.
import RdfEntailment.Catalog
import RdfEntailment.Derivation
import RdfEntailment.Proofs.Ground
import RdfEntailment.Proofs.Ranking

namespace RdfEntailment

/-! ## Pairings -/

/-- The assignment makes both patterns equal to their statements. -/
def Assignment.Pairs (σ : Assignment) (a₁ a₂ s₁ s₂ : Triple) : Prop :=
  a₁.assign σ ≈ s₁ ∧ a₂.assign σ ≈ s₂

def Triple.Pairable (a₁ a₂ s₁ s₂ : Triple) : Prop := ∃ σ : Assignment, σ.Pairs a₁ a₂ s₁ s₂

/-- The bindings are the pairing of the patterns with the statements: there
is no other, up to equal terms, and each term is spelled as it is first met. -/
structure Bindings.Solves (b : Bindings) (a₁ a₂ s₁ s₂ : Triple) : Prop where
  names : ∀ n, b.contains n ↔ n ∈ a₁.names ∨ n ∈ a₂.names
  pairs : Assignment.Pairs (Bindings.toAssignment b) a₁ a₂ s₁ s₂
  unique : ∀ σ : Assignment, σ.Pairs a₁ a₂ s₁ s₂ → b.Fits σ
  spelling : ∀ n, b.get? n = (a₁.captured? s₁ n).or (a₂.captured? s₂ n)

/-! ## Bindings that agree -/

/-- A name that both bind is bound to equal terms. -/
def Bindings.Agree (b c : Bindings) : Prop :=
  ∀ n v w, b.get? n = some v → c.get? n = some w → v ≈ w

theorem Bindings.agree_of_disjoint {b c : Bindings}
    (h : ∀ n v, c.get? n = some v → b.get? n = none) : b.Agree c := by
  intro n v w hv hw
  rw [h n w hw] at hv
  cases hv

theorem Bindings.Fits.agree {b c : Bindings} {σ : Assignment} (hb : b.Fits σ) (hc : c.Fits σ) :
    b.Agree c :=
  fun n v w hv hw => Setoid.trans (hb n v hv) (Setoid.symm (hc n w hw))

/-- Of bindings that agree, the one map fits what both of them fit. -/
theorem Bindings.Agree.fits_merge {b c : Bindings} {σ : Assignment} (h : b.Agree c) :
    Bindings.Fits (c.merge b) σ ↔ b.Fits σ ∧ c.Fits σ := by
  constructor
  · intro hf
    have hb : b.Fits σ := fun n v hv => hf n v (by rw [NameMap.get?_merge, hv, Option.some_or])
    refine ⟨hb, fun n w hw => ?_⟩
    cases hn : b.get? n with
    | none => exact hf n w (by rw [NameMap.get?_merge, hn, Option.none_or, hw])
    | some v => exact Setoid.trans (Setoid.symm (h n v w hn hw)) (hb n v hn)
  · rintro ⟨hb, hc⟩ n v hv
    rw [NameMap.get?_merge, Option.or_eq_some_iff] at hv
    rcases hv with hv | ⟨_, hv⟩
    · exact hb n v hv
    · exact hc n v hv

/-! ## Two readings in one -/

/-- The second reading binds no name of the first. -/
theorem Triple.get?_eq_none_of_unify_subst {a s : Triple} {b₁ b₂ : Bindings} (hb : b₁.Ground)
    (h : (a.subst b₁).unify s = .ok b₂) {n : Name} {v : Term} (hn : b₂.get? n = some v) :
    b₁.get? n = none := by
  rw [Triple.get?_unify h] at hn
  obtain ⟨p, hp, _⟩ := Triple.captured?_eq_some hn
  rw [Triple.term_subst] at hp
  exact ((Term.name?_subst hb).1 hp).2

theorem Bindings.fits_merge {b₁ b₂ : Bindings} {σ : Assignment}
    (hd : ∀ n v, b₂.get? n = some v → b₁.get? n = none) :
    Bindings.Fits (b₂.merge b₁) σ ↔ b₁.Fits σ ∧ b₂.Fits σ :=
  Bindings.Agree.fits_merge (Bindings.agree_of_disjoint hd)

variable {a₁ a₂ s₁ s₂ : Triple}

/-- A pair is read, and fits an assignment, exactly when the assignment pairs
the patterns with the statements. -/
theorem Triple.unifyPair_fits_iff (h₁ : s₁.Ground) (h₂ : s₂.Ground) {σ : Assignment} :
    (∃ b, a₁.unifyPair a₂ s₁ s₂ = .ok b ∧ b.Fits σ) ↔ σ.Pairs a₁ a₂ s₁ s₂ := by
  simp only [Triple.unifyPair_eq_ok_iff, Triple.subst_of_ground h₂]
  constructor
  · rintro ⟨b, ⟨b₁, b₂, hu₁, hu₂, rfl⟩, hf⟩
    have hb₁ := Triple.ground_unify h₁ hu₁
    have hd := fun n v => Triple.get?_eq_none_of_unify_subst hb₁ hu₂ (n := n) (v := v)
    obtain ⟨hf₁, hf₂⟩ := (Bindings.fits_merge hd).1 hf
    refine ⟨Triple.unify_fits_iff.1 ⟨b₁, hu₁, hf₁⟩, ?_⟩
    have hs₂ := Triple.unify_fits_iff.1 ⟨b₂, hu₂, hf₂⟩
    exact Setoid.trans (Setoid.symm (Triple.assign_subst hb₁ hf₁ a₂)) hs₂
  · rintro ⟨hs₁, hs₂⟩
    obtain ⟨b₁, hu₁, hf₁⟩ := Triple.unify_fits_iff.2 hs₁
    have hb₁ := Triple.ground_unify h₁ hu₁
    have hs₂' := Setoid.trans (Triple.assign_subst hb₁ hf₁ a₂) hs₂
    obtain ⟨b₂, hu₂, hf₂⟩ := Triple.unify_fits_iff.2 hs₂'
    have hd := fun n v => Triple.get?_eq_none_of_unify_subst hb₁ hu₂ (n := n) (v := v)
    exact ⟨_, ⟨b₁, b₂, hu₁, hu₂, rfl⟩, (Bindings.fits_merge hd).2 ⟨hf₁, hf₂⟩⟩

/-- The bindings of a pair are what the two patterns capture, the first one
before the second. -/
theorem Triple.get?_unifyPair (h₁ : s₁.Ground) (h₂ : s₂.Ground) {b : Bindings}
    (h : a₁.unifyPair a₂ s₁ s₂ = .ok b) (n : Name) :
    b.get? n = (a₁.captured? s₁ n).or (a₂.captured? s₂ n) := by
  obtain ⟨b₁, b₂, hu₁, hu₂, rfl⟩ := Triple.unifyPair_eq_ok_iff.1 h
  have hb₁ := Triple.ground_unify h₁ hu₁
  rw [Triple.subst_of_ground h₂] at hu₂
  rw [NameMap.get?_merge, ← Triple.get?_unify hu₁]
  cases hn : b₁.get? n with
  | some v => rfl
  | none =>
    rw [Option.none_or, Option.none_or, Triple.get?_unify hu₂, Triple.captured?_subst hb₁ hn]

theorem Triple.unifyPair_isOk_iff (h₁ : s₁.Ground) (h₂ : s₂.Ground) :
    (∃ b, a₁.unifyPair a₂ s₁ s₂ = .ok b) ↔ a₁.Pairable a₂ s₁ s₂ := by
  constructor
  · rintro ⟨b, h⟩
    exact ⟨_, (Triple.unifyPair_fits_iff h₁ h₂).1 ⟨b, h, b.fits_toAssignment⟩⟩
  · rintro ⟨σ, h⟩
    obtain ⟨b, hb, _⟩ := (Triple.unifyPair_fits_iff h₁ h₂).2 h
    exact ⟨b, hb⟩

theorem Triple.unifyPair_eq_error (h₁ : s₁.Ground) (h₂ : s₂.Ground)
    (hn : ¬ a₁.Pairable a₂ s₁ s₂) : ∃ e, a₁.unifyPair a₂ s₁ s₂ = .error e := by
  rw [← Triple.unifyPair_isOk_iff h₁ h₂] at hn
  cases hu : a₁.unifyPair a₂ s₁ s₂ with
  | ok b => exact absurd ⟨b, hu⟩ hn
  | error e => exact ⟨e, rfl⟩

theorem Triple.solves_unifyPair (h₁ : s₁.Ground) (h₂ : s₂.Ground) {b : Bindings}
    (h : a₁.unifyPair a₂ s₁ s₂ = .ok b) : b.Solves a₁ a₂ s₁ s₂ where
  names n := by
    rw [NameMap.contains, Triple.get?_unifyPair h₁ h₂ h, Option.isSome_or, Bool.or_eq_true,
      Triple.captured?_isSome_iff, Triple.captured?_isSome_iff]
  pairs := (Triple.unifyPair_fits_iff h₁ h₂).1 ⟨b, h, b.fits_toAssignment⟩
  unique σ hσ := by
    obtain ⟨b', hb', hf⟩ := (Triple.unifyPair_fits_iff h₁ h₂).2 hσ
    rw [h] at hb'
    cases hb'
    exact hf
  spelling := Triple.get?_unifyPair h₁ h₂ h

theorem Bindings.Solves.ground {b : Bindings} (h : b.Solves a₁ a₂ s₁ s₂) (h₁ : s₁.Ground)
    (h₂ : s₂.Ground) : b.Ground := by
  intro n v hv
  rw [h.spelling n, Option.or_eq_some_iff] at hv
  rcases hv with hv | ⟨_, hv⟩
  · obtain ⟨p, _, rfl⟩ := Triple.captured?_eq_some hv
    exact Triple.ground_iff.1 h₁ p
  · obtain ⟨p, _, rfl⟩ := Triple.captured?_eq_some hv
    exact Triple.ground_iff.1 h₂ p

/-! ## A rule with two antecedents -/

theorem Rule.solve_pairable {r : Rule} (hr : r.ranked = [a₁, a₂]) (h₁ : s₁.Ground)
    (h₂ : s₂.Ground) (hp : a₁.Pairable a₂ s₁ s₂) :
    ∃ b, r.solve [s₁, s₂] = .ok b ∧ b.Solves a₁ a₂ s₁ s₂ := by
  obtain ⟨b, hb⟩ := (Triple.unifyPair_isOk_iff h₁ h₂).2 hp
  rw [Rule.solve_two (Rule.length_of_ranked_eq_two hr) hr, hb]
  exact ⟨b, rfl, Triple.solves_unifyPair h₁ h₂ hb⟩

/-- The other pairing counts where there is none of the order given. -/
theorem Rule.solve_pairable_swapped {r : Rule} (hr : r.ranked = [a₁, a₂]) (h₁ : s₁.Ground)
    (h₂ : s₂.Ground) (hn : ¬ a₁.Pairable a₂ s₁ s₂) (hp : a₁.Pairable a₂ s₂ s₁) :
    ∃ b, r.solve [s₁, s₂] = .ok b ∧ b.Solves a₁ a₂ s₂ s₁ := by
  obtain ⟨e, he⟩ := Triple.unifyPair_eq_error h₁ h₂ hn
  obtain ⟨b, hb⟩ := (Triple.unifyPair_isOk_iff h₂ h₁).2 hp
  rw [Rule.solve_two (Rule.length_of_ranked_eq_two hr) hr, he, hb]
  exact ⟨b, rfl, Triple.solves_unifyPair h₂ h₁ hb⟩

theorem Rule.solve_unpairable {r : Rule} (hr : r.ranked = [a₁, a₂]) (h₁ : s₁.Ground)
    (h₂ : s₂.Ground) (hn : ¬ a₁.Pairable a₂ s₁ s₂) (hn' : ¬ a₁.Pairable a₂ s₂ s₁) :
    r.solve [s₁, s₂] = .error .noOrdering := by
  obtain ⟨e, he⟩ := Triple.unifyPair_eq_error h₁ h₂ hn
  obtain ⟨e', he'⟩ := Triple.unifyPair_eq_error h₂ h₁ hn'
  rw [Rule.solve_two (Rule.length_of_ranked_eq_two hr) hr, he, he']

/-- A rule with two antecedents solves two ground statements exactly when they
can be paired with the ranked antecedents in one order or the other. It finds
the pairing of the order given, and the other one only where there is none. -/
theorem solving_a_pair_finds_the_first_pairing {r : Rule} (hr : r.antecedents.length = 2)
    (h₁ : s₁.Ground) (h₂ : s₂.Ground) :
    ∃ a₁ a₂, r.ranked = [a₁, a₂] ∧
      ((∃ b, r.solve [s₁, s₂] = .ok b) ↔ a₁.Pairable a₂ s₁ s₂ ∨ a₁.Pairable a₂ s₂ s₁) ∧
      (¬ (a₁.Pairable a₂ s₁ s₂ ∨ a₁.Pairable a₂ s₂ s₁) →
        r.solve [s₁, s₂] = .error .noOrdering) ∧
      ∀ b, r.solve [s₁, s₂] = .ok b →
        (a₁.Pairable a₂ s₁ s₂ → b.Solves a₁ a₂ s₁ s₂) ∧
        (¬ a₁.Pairable a₂ s₁ s₂ → b.Solves a₁ a₂ s₂ s₁) := by
  obtain ⟨a₁, a₂, hranked⟩ := Rule.ranked_eq_two hr
  refine ⟨a₁, a₂, hranked, ?_⟩
  by_cases hp : a₁.Pairable a₂ s₁ s₂
  · obtain ⟨b, hb, hs⟩ := Rule.solve_pairable hranked h₁ h₂ hp
    rw [hb]
    refine ⟨⟨fun _ => Or.inl hp, fun _ => ⟨b, rfl⟩⟩, fun h => absurd (Or.inl hp) h, ?_⟩
    intro b' hb'
    cases hb'
    exact ⟨fun _ => hs, fun h => absurd hp h⟩
  · by_cases hp' : a₁.Pairable a₂ s₂ s₁
    · obtain ⟨b, hb, hs⟩ := Rule.solve_pairable_swapped hranked h₁ h₂ hp hp'
      rw [hb]
      refine ⟨⟨fun _ => Or.inr hp', fun _ => ⟨b, rfl⟩⟩, fun h => absurd (Or.inr hp') h, ?_⟩
      intro b' hb'
      cases hb'
      exact ⟨fun h => absurd h hp, fun _ => hs⟩
    · rw [Rule.solve_unpairable hranked h₁ h₂ hp hp']
      refine ⟨⟨?_, fun h => absurd h (not_or.2 ⟨hp, hp'⟩)⟩, fun _ => rfl, ?_⟩
      · rintro ⟨b, hb⟩
        cases hb
      · intro b hb
        cases hb

theorem a_type_is_paired_with_its_subclass :
    Catalog.rdfs9.antecedents.length = 2 ∧
    Triple.Ground ⟨.iri "x:tom", Rdf.type, .literal "cat" (.language "EN")⟩ ∧
    Triple.Ground ⟨.literal "cat" (.language "en"), Rdfs.subClassOf, .iri "x:Animal"⟩ ∧
    ∃ a₁ a₂ b, Catalog.rdfs9.ranked = [a₁, a₂] ∧
      Catalog.rdfs9.solve [⟨.iri "x:tom", Rdf.type, .literal "cat" (.language "EN")⟩,
        ⟨.literal "cat" (.language "en"), Rdfs.subClassOf, .iri "x:Animal"⟩] = .ok b ∧
      b.get? .uuu = some (.literal "cat" (.language "en")) ∧
      b.Solves a₁ a₂ ⟨.literal "cat" (.language "en"), Rdfs.subClassOf, .iri "x:Animal"⟩
        ⟨.iri "x:tom", Rdf.type, .literal "cat" (.language "EN")⟩ := by
  have hr : Catalog.rdfs9.antecedents.length = 2 := rfl
  have h₁ : Triple.Ground ⟨.iri "x:tom", Rdf.type, .literal "cat" (.language "EN")⟩ := by decide
  have h₂ : Triple.Ground ⟨.literal "cat" (.language "en"), Rdfs.subClassOf, .iri "x:Animal"⟩ := by
    decide
  obtain ⟨a₁, a₂, hranked, -, -, hs⟩ := solving_a_pair_finds_the_first_pairing hr h₁ h₂
  have hdeclared : Catalog.rdfs9.ranked = Catalog.rdfs9.antecedents :=
    Rule.ranked_of_pairwise_le (by decide)
  have hsolve := Rule.solve_of_declared (r := Catalog.rdfs9) (by decide)
    [⟨.iri "x:tom", Rdf.type, .literal "cat" (.language "EN")⟩,
      ⟨.literal "cat" (.language "en"), Rdfs.subClassOf, .iri "x:Animal"⟩]
  refine ⟨hr, h₁, h₂, a₁, a₂, _, hranked, hsolve, rfl, (hs _ hsolve).2 ?_⟩
  rintro ⟨σ, hσ, -⟩
  cases hdeclared.symm.trans hranked
  have hpred : Rdfs.subClassOf ≈ Rdf.type := Triple.equiv_iff.1 hσ .predicate
  exact absurd hpred (by decide)

end RdfEntailment
