-- The laws of derivation from ground triples. One call hides the second
-- pairing of its statements when the first one is there, but that pairing is
-- the first one of the swapped call: all calls together derive every instance
-- of the consequents, and nothing else.
import RdfEntailment.Proofs.Pairing
import RdfEntailment.Store

namespace RdfEntailment

/-! ## Consequents -/

theorem Triple.firstName?_eq_none_iff {t : Triple} : t.firstName? = none ↔ t.Ground := by
  rw [Triple.Ground, ← t.isSome_firstName?, Option.isSome_eq_false_iff, Option.isNone_iff_eq_none]

theorem Triple.instantiate_eq_ok_iff {c u : Triple} {b : Bindings} :
    c.instantiate b = .ok u ↔ (c.subst b).Ground ∧ u = c.subst b := by
  unfold instantiate
  rw [← Triple.firstName?_eq_none_iff]
  cases h : (c.subst b).firstName? with
  | none => simp [eq_comm]
  | some n => simp

theorem Triple.instantiateAll_eq_ok_iff {cs us : List Triple} {b : Bindings} :
    instantiateAll cs b = .ok us ↔
      (∀ c ∈ cs, (c.subst b).Ground) ∧ us = cs.map (·.subst b) := by
  induction cs generalizing us with
  | nil =>
    simp only [instantiateAll, List.mapM_nil, List.not_mem_nil, false_implies, implies_true,
      List.map_nil, true_and]
    constructor
    · intro h
      cases h
      rfl
    · rintro rfl
      rfl
  | cons c cs ih =>
    unfold instantiateAll at ih ⊢
    rw [List.mapM_cons, bind_eq_ok_iff]
    simp only [bind_eq_ok_iff, Triple.instantiate_eq_ok_iff, ih, List.forall_mem_cons,
      List.map_cons]
    constructor
    · rintro ⟨u, ⟨hc, rfl⟩, us', ⟨hcs, rfl⟩, h⟩
      cases h
      exact ⟨⟨hc, hcs⟩, rfl⟩
    · rintro ⟨⟨hc, hcs⟩, rfl⟩
      exact ⟨_, ⟨hc, rfl⟩, _, ⟨hcs, rfl⟩, rfl⟩

theorem Triple.ground_subst_iff {c : Triple} {b : Bindings} (hb : b.Ground) :
    (c.subst b).Ground ↔ ∀ n ∈ c.names, b.contains n := by
  rw [Triple.ground_subst_iff_values]
  refine forall₂_congr fun n _ => ?_
  rw [NameMap.contains, Option.isSome_iff_exists]
  exact exists_congr fun v => and_iff_left_of_imp (hb n v)

theorem Triple.subst_equiv_assign {c : Triple} {b : Bindings} {σ : Assignment} (hb : b.Ground)
    (hf : b.Fits σ) (hc : (c.subst b).Ground) : c.subst b ≈ c.assign σ := by
  rw [← Triple.assign_of_ground (σ := σ) hc]
  exact Triple.assign_subst hb hf c

/-! ## Solved statements -/

theorem Rule.length_of_solve_eq_ok {r : Rule} {statements : List Triple} {b : Bindings}
    (h : r.solve statements = .ok b) : r.antecedents.length = statements.length := by
  by_contra hne
  rw [Rule.solve_of_length_ne hne] at h
  cases h

theorem Rule.solve_of_ranked_eq {r r' : Rule} (h : r.ranked = r'.ranked) (ss : List Triple) :
    r.solve ss = r'.solve ss := by
  have hlen : r.antecedents.length = r'.antecedents.length := by
    rw [← r.ranked_perm.length_eq, h, r'.ranked_perm.length_eq]
  unfold Rule.solve Rule.solveTraced Rule.matchRanked
  rw [h, hlen]

/-- The ways to solve statements: one reading, or a pair read in the order
given, or the other way round where that fails. -/
theorem Rule.solve_eq_ok {r : Rule} {statements : List Triple} {b : Bindings}
    (h : r.solve statements = .ok b) :
    (∃ a s, r.ranked = [a] ∧ statements = [s] ∧ a.unify s = .ok b) ∨
    ∃ a₁ a₂ s₁ s₂, r.ranked = [a₁, a₂] ∧ statements = [s₁, s₂] ∧
      (a₁.unifyPair a₂ s₁ s₂ = .ok b ∨
        (∃ e, a₁.unifyPair a₂ s₁ s₂ = .error e) ∧ a₁.unifyPair a₂ s₂ s₁ = .ok b) := by
  unfold Rule.solve Rule.solveTraced Rule.matchRanked at h
  split at h
  · split at h
    · rename_i a s hr _
      refine Or.inl ⟨a, s, hr, rfl, ?_⟩
      unfold Triple.unifyTraced at h
      split at h
      · cases h
        assumption
      · cases h
    · rename_i a₁ a₂ s₁ s₂ hr _
      refine Or.inr ⟨a₁, a₂, s₁, s₂, hr, rfl, ?_⟩
      unfold Triple.unifyEitherWay at h
      split at h
      · cases h
        exact Or.inl ‹_›
      · rename_i first hfirst
        split at h
        · cases h
          exact Or.inr ⟨⟨first, hfirst⟩, ‹_›⟩
        · cases h
    · cases h
  · cases h

/-- The ways to fail: another number of statements than antecedents, a rule that is
too small or too large, a reading with a slot at fault, or a pair that cannot be
read in either order. -/
theorem Rule.solve_eq_error {r : Rule} {statements : List Triple} {e : MatchError}
    (h : r.solve statements = .error e) :
    (r.antecedents.length ≠ statements.length ∧
      e = .arity r.antecedents.length statements.length) ∨
    (r.antecedents.length ≠ 1 ∧ r.antecedents.length ≠ 2 ∧
      e = .unsupportedRule r.antecedents.length) ∨
    (∃ a s fault, r.ranked = [a] ∧ statements = [s] ∧ a.unify s = .error fault ∧
      e = fault.error) ∨
    ∃ a₁ a₂ s₁ s₂, r.ranked = [a₁, a₂] ∧ statements = [s₁, s₂] ∧
      (∃ f, a₁.unifyPair a₂ s₁ s₂ = .error f) ∧ (∃ f, a₁.unifyPair a₂ s₂ s₁ = .error f) ∧
      e = .noOrdering := by
  by_cases hlen : r.antecedents.length = statements.length
  · by_cases hone : r.antecedents.length = 1
    · obtain ⟨a, hr⟩ := Rule.ranked_eq_one hone
      obtain ⟨s, rfl⟩ := List.length_eq_one_iff.1 (hlen.symm.trans hone)
      rw [Rule.solve_one hone hr] at h
      cases hu : a.unify s with
      | ok b =>
        rw [hu] at h
        cases h
      | error fault =>
        rw [hu] at h
        cases h
        exact Or.inr (Or.inr (Or.inl ⟨a, s, fault, hr, rfl, hu, rfl⟩))
    · by_cases htwo : r.antecedents.length = 2
      · obtain ⟨a₁, a₂, hr⟩ := Rule.ranked_eq_two htwo
        obtain ⟨s₁, s₂, rfl⟩ := List.length_eq_two.1 (hlen.symm.trans htwo)
        rw [Rule.solve_two htwo hr] at h
        split at h
        · cases h
        · cases h
        · rename_i f f' hgiven hswapped
          cases h
          exact Or.inr (Or.inr (Or.inr
            ⟨a₁, a₂, s₁, s₂, hr, rfl, ⟨f, hgiven⟩, ⟨f', hswapped⟩, rfl⟩))
      · rw [Rule.solve_of_unsupported hlen hone htwo] at h
        cases h
        exact Or.inr (Or.inl ⟨hone, htwo, rfl⟩)
  · rw [Rule.solve_of_length_ne hlen] at h
    cases h
    exact Or.inl ⟨hlen, rfl⟩

/-- Bindings that solve ground statements are ground, bind the names of the
antecedents, and make each antecedent equal to one of the statements. -/
theorem Rule.solve_ground_sound {r : Rule} {statements : List Triple} {b : Bindings}
    (hs : ∀ s ∈ statements, s.Ground) (h : r.solve statements = .ok b) :
    b.Ground ∧ (∀ n, b.contains n ↔ ∃ a ∈ r.antecedents, n ∈ a.names) ∧
      ∀ a ∈ r.antecedents, ∃ s ∈ statements, a.assign (Bindings.toAssignment b) ≈ s := by
  simp only [← Rule.mem_ranked]
  rcases Rule.solve_eq_ok h with ⟨a, s, hr, rfl, hu⟩ | ⟨a₁, a₂, s₁, s₂, hr, rfl, hu⟩
  · rw [hr]
    refine ⟨Triple.ground_unify (hs s (by simp)) hu, fun n => ?_, fun a' ha' => ?_⟩
    · rw [NameMap.contains, Triple.get?_unify hu, Triple.captured?_isSome_iff]
      simp
    · rw [List.mem_singleton] at ha'
      subst a'
      exact ⟨s, by simp, Triple.assign_unify hu⟩
  · have h₁ := hs s₁ (by simp)
    have h₂ := hs s₂ (by simp)
    rw [hr]
    obtain ⟨t₁, t₂, ht₁, ht₂, hg₁, hg₂, hsol⟩ : ∃ t₁ t₂, t₁ ∈ [s₁, s₂] ∧ t₂ ∈ [s₁, s₂] ∧
        t₁.Ground ∧ t₂.Ground ∧ b.Solves a₁ a₂ t₁ t₂ := by
      rcases hu with hu | ⟨_, hu⟩
      · exact ⟨s₁, s₂, by simp, by simp, h₁, h₂, Triple.solves_unifyPair h₁ h₂ hu⟩
      · exact ⟨s₂, s₁, by simp, by simp, h₂, h₁, Triple.solves_unifyPair h₂ h₁ hu⟩
    refine ⟨hsol.ground hg₁ hg₂, fun n => ?_, fun a' ha' => ?_⟩
    · rw [hsol.names n]
      simp
    · rw [List.mem_cons, List.mem_singleton] at ha'
      rcases ha' with rfl | rfl
      · exact ⟨t₁, ht₁, hsol.pairs.1⟩
      · exact ⟨t₂, ht₂, hsol.pairs.2⟩

/-- Where an assignment makes each antecedent equal to a triple of the store,
there are statements to solve, and the bindings fit the assignment. -/
theorem Rule.solve_ground_complete {r : Rule}
    (hr : r.antecedents.length = 1 ∨ r.antecedents.length = 2) {s : Store}
    (hs : ∀ t ∈ s, t.Ground) {σ : Assignment} (hσ : ∀ a ∈ r.antecedents, s.Holds (a.assign σ)) :
    ∃ premises b, premises.length = r.antecedents.length ∧ (∀ t ∈ premises, t ∈ s) ∧
      r.solve premises = .ok b ∧ b.Fits σ := by
  simp only [← Rule.mem_ranked] at hσ
  rcases hr with hlen | hlen
  · obtain ⟨a, hranked⟩ := Rule.ranked_eq_one hlen
    rw [hranked] at hσ
    obtain ⟨t, ht, heq⟩ := hσ a (by simp)
    obtain ⟨b, hu, hf⟩ := Triple.unify_fits_iff.2 (Setoid.symm heq)
    refine ⟨[t], b, hlen.symm, by simpa using ht, ?_, hf⟩
    rw [Rule.solve_one hlen hranked, hu]
    rfl
  · obtain ⟨a₁, a₂, hranked⟩ := Rule.ranked_eq_two hlen
    rw [hranked] at hσ
    obtain ⟨t₁, ht₁, heq₁⟩ := hσ a₁ (by simp)
    obtain ⟨t₂, ht₂, heq₂⟩ := hσ a₂ (by simp)
    obtain ⟨b, hu, hf⟩ := (Triple.unifyPair_fits_iff (hs t₁ ht₁) (hs t₂ ht₂)).2
      ⟨Setoid.symm heq₁, Setoid.symm heq₂⟩
    refine ⟨[t₁, t₂], b, hlen.symm, ?_, ?_, hf⟩
    · rintro t ht
      rw [List.mem_cons, List.mem_singleton] at ht
      rcases ht with rfl | rfl
      · exact ht₁
      · exact ht₂
    · rw [Rule.solve_two hlen hranked, hu]

theorem Rule.apply_eq_ok_iff {r : Rule} {statements ts : List Triple} :
    r.apply statements = .ok ts ↔ ∃ b, r.solve statements = .ok b ∧
      (∀ c ∈ r.consequents, (c.subst b).Ground) ∧ ts = r.consequents.map (·.subst b) := by
  rw [Rule.apply_eq_bind]
  refine bind_eq_ok_iff.trans ?_
  simp only [Triple.instantiateAll_eq_ok_iff]

/-! ## What a rule concludes -/

/-- A consequent holds a name that no antecedent holds. -/
def Rule.Underdetermined (r : Rule) : Prop :=
  ∃ c ∈ r.consequents, ∃ n ∈ c.names, ∀ a ∈ r.antecedents, n ∉ a.names

instance (r : Rule) : Decidable r.Underdetermined :=
  inferInstanceAs (Decidable (∃ c ∈ r.consequents, ∃ n ∈ c.names, ∀ a ∈ r.antecedents, n ∉ a.names))

def Rule.Concludes (r : Rule) (σ : Assignment) (t : Triple) : Prop :=
  ∃ c ∈ r.consequents, c.assign σ ≈ t

theorem Rule.holds_instances_iff {r : Rule} {b : Bindings} {σ : Assignment} (hb : b.Ground)
    (hf : b.Fits σ) (hc : ∀ c ∈ r.consequents, (c.subst b).Ground) (t : Triple) :
    Store.Holds (r.consequents.map (·.subst b)) t ↔ r.Concludes σ t := by
  constructor
  · rintro ⟨u, hu, hut⟩
    obtain ⟨c, hmem, rfl⟩ := List.mem_map.1 hu
    have hinst := Triple.subst_equiv_assign hb hf (hc c hmem)
    exact ⟨c, hmem, Setoid.trans (Setoid.symm hinst) hut⟩
  · rintro ⟨c, hmem, hct⟩
    have hinst := Triple.subst_equiv_assign hb hf (hc c hmem)
    exact ⟨c.subst b, List.mem_map_of_mem hmem, Setoid.trans hinst hct⟩

/-- Whether a solved rule derives is a matter of the rule alone. What it
derives are its conclusions under any assignment that fits the bindings. -/
theorem Rule.apply_ground {r : Rule} {statements : List Triple} {b : Bindings}
    (hs : ∀ s ∈ statements, s.Ground) (h : r.solve statements = .ok b) :
    (r.Underdetermined ∧ ∃ e, r.apply statements = .error e) ∨
    (¬ r.Underdetermined ∧ ∃ ts, r.apply statements = .ok ts ∧
      ∀ σ, b.Fits σ → ∀ t, Store.Holds ts t ↔ r.Concludes σ t) := by
  obtain ⟨hb, hnames, -⟩ := Rule.solve_ground_sound hs h
  by_cases hu : r.Underdetermined
  · refine Or.inl ⟨hu, ?_⟩
    cases ha : r.apply statements with
    | error e => exact ⟨e, rfl⟩
    | ok ts =>
      obtain ⟨c, hc, n, hn, hnot⟩ := hu
      obtain ⟨b', hb', hground, -⟩ := Rule.apply_eq_ok_iff.1 ha
      rw [h] at hb'
      cases hb'
      obtain ⟨a, ha, hna⟩ := (hnames n).1 ((Triple.ground_subst_iff hb).1 (hground c hc) n hn)
      exact absurd hna (hnot a ha)
  · have hground : ∀ c ∈ r.consequents, (c.subst b).Ground := by
      intro c hc
      rw [Triple.ground_subst_iff hb]
      intro n hn
      rw [hnames]
      by_contra hnot
      exact hu ⟨c, hc, n, hn, fun a ha hna => hnot ⟨a, ha, hna⟩⟩
    exact Or.inr ⟨hu, _, Rule.apply_eq_ok_iff.2 ⟨b, h, hground, rfl⟩,
      fun σ hf t => Rule.holds_instances_iff hb hf hground t⟩

/-! ## All tuples of a store -/

namespace Store

/-- Some call of the rule on triples of the store derives an equal triple. -/
def Derives (s : Store) (r : Rule) (t : Triple) : Prop :=
  ∃ premises ts, premises.length = r.antecedents.length ∧ (∀ p ∈ premises, p ∈ s) ∧
    r.apply premises = .ok ts ∧ Holds ts t

/-- The rule concludes the triple under an assignment that makes each
antecedent equal to a triple of the store. -/
def Entails (s : Store) (r : Rule) (t : Triple) : Prop :=
  ∃ σ : Assignment, (∀ a ∈ r.antecedents, s.Holds (a.assign σ)) ∧ r.Concludes σ t

end Store

/-- All calls together derive exactly what the rule entails. -/
theorem trying_every_tuple_derives_every_instance {r : Rule}
    (hr : r.antecedents.length = 1 ∨ r.antecedents.length = 2) (hu : ¬ r.Underdetermined)
    {s : Store} (hs : ∀ t ∈ s, t.Ground) (t : Triple) : s.Derives r t ↔ s.Entails r t := by
  constructor
  · rintro ⟨premises, ts, -, hp, ha, hts⟩
    have hground : ∀ p ∈ premises, p.Ground := fun p hmem => hs p (hp p hmem)
    obtain ⟨b, hsolve, -⟩ := Rule.apply_eq_ok_iff.1 ha
    obtain ⟨-, -, hsound⟩ := Rule.solve_ground_sound hground hsolve
    rcases Rule.apply_ground hground hsolve with ⟨hu', -⟩ | ⟨-, ts', ha', hts'⟩
    · exact absurd hu' hu
    · rw [ha] at ha'
      cases ha'
      refine ⟨Bindings.toAssignment b, fun a hmem => ?_, (hts' _ b.fits_toAssignment t).1 hts⟩
      obtain ⟨u, hu, heq⟩ := hsound a hmem
      exact ⟨u, hp u hu, Setoid.symm heq⟩
  -- The assignment says which statement belongs to which antecedent. The call
  -- on the statements in that order cannot prefer another pairing.
  · rintro ⟨σ, hσ, hct⟩
    obtain ⟨premises, b, hlen, hp, hsolve, hf⟩ := Rule.solve_ground_complete hr hs hσ
    have hground : ∀ p ∈ premises, p.Ground := fun p hmem => hs p (hp p hmem)
    rcases Rule.apply_ground hground hsolve with ⟨hu', -⟩ | ⟨-, ts, ha, hts⟩
    · exact absurd hu' hu
    · exact ⟨premises, ts, hlen, hp, ha, (hts σ hf t).2 hct⟩

/-- A cycle of two subclasses entails that the second is a subclass of itself:
the call on the swapped pair derives it. -/
theorem a_subclass_cycle_entails_the_second_loop :
    (Catalog.rdfs11.antecedents.length = 1 ∨ Catalog.rdfs11.antecedents.length = 2) ∧
    ¬ Catalog.rdfs11.Underdetermined ∧
    (∀ t ∈ ([⟨.iri "x:a", Rdfs.subClassOf, .iri "x:b"⟩,
      ⟨.iri "x:b", Rdfs.subClassOf, .iri "x:a"⟩] : Store), t.Ground) ∧
    Store.Entails [⟨.iri "x:a", Rdfs.subClassOf, .iri "x:b"⟩,
      ⟨.iri "x:b", Rdfs.subClassOf, .iri "x:a"⟩] Catalog.rdfs11
      ⟨.iri "x:b", Rdfs.subClassOf, .iri "x:b"⟩ := by
  have hr : Catalog.rdfs11.antecedents.length = 1 ∨ Catalog.rdfs11.antecedents.length = 2 :=
    Or.inr rfl
  have hu : ¬ Catalog.rdfs11.Underdetermined := by decide
  have hs : ∀ t ∈ ([⟨.iri "x:a", Rdfs.subClassOf, .iri "x:b"⟩,
      ⟨.iri "x:b", Rdfs.subClassOf, .iri "x:a"⟩] : Store), t.Ground := by decide
  refine ⟨hr, hu, hs, (trying_every_tuple_derives_every_instance hr hu hs _).1 ?_⟩
  exact ⟨[⟨.iri "x:b", Rdfs.subClassOf, .iri "x:a"⟩, ⟨.iri "x:a", Rdfs.subClassOf, .iri "x:b"⟩],
    [⟨.iri "x:b", Rdfs.subClassOf, .iri "x:b"⟩], rfl, by decide,
    Rule.apply_of_declared (by decide) _, Store.holds_of_mem (by decide)⟩

end RdfEntailment
