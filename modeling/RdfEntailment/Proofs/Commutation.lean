-- The law of the order of two ground statements. Both orders are solved, or
-- neither is. They can still derive different triples: where both pairings
-- are there, each order finds its own. Antecedents that clash in a slot leave
-- only one of the pairings, so for them the order does not matter.
import RdfEntailment.Proofs.Instances

namespace RdfEntailment

/-- Both fail, or both derive the same triples, in any order and up to
equality. -/
def SameOutcome : Except MatchError (List Triple) → Except MatchError (List Triple) → Prop
  | .ok ts, .ok us => ∀ t, Store.Holds ts t ↔ Store.Holds us t
  | .error _, .error _ => True
  | _, _ => False

theorem SameOutcome.refl (x : Except MatchError (List Triple)) : SameOutcome x x := by
  cases x with
  | ok ts => exact fun t => Iff.rfl
  | error e => trivial

variable {a₁ a₂ s₁ s₂ : Triple}

/-- A pairing is one map, spelling included. -/
theorem Bindings.Solves.eq {b b' : Bindings} (h : b.Solves a₁ a₂ s₁ s₂)
    (h' : b'.Solves a₁ a₂ s₁ s₂) : b = b' :=
  NameMap.ext_get? fun n => (h.spelling n).trans (h'.spelling n).symm

/-- Where only one of the pairings is there, the order does not matter at all. -/
theorem Rule.solve_swap {r : Rule} (hr : r.ranked = [a₁, a₂]) (h₁ : s₁.Ground) (h₂ : s₂.Ground)
    (hone : ¬ (a₁.Pairable a₂ s₁ s₂ ∧ a₁.Pairable a₂ s₂ s₁)) :
    r.solve [s₁, s₂] = r.solve [s₂, s₁] := by
  by_cases hp : a₁.Pairable a₂ s₁ s₂
  · have hn : ¬ a₁.Pairable a₂ s₂ s₁ := fun h => hone ⟨hp, h⟩
    obtain ⟨b, hb, hs⟩ := Rule.solve_pairable hr h₁ h₂ hp
    obtain ⟨b', hb', hs'⟩ := Rule.solve_pairable_swapped hr h₂ h₁ hn hp
    rw [hb, hb', hs.eq hs']
  · by_cases hp' : a₁.Pairable a₂ s₂ s₁
    · obtain ⟨b, hb, hs⟩ := Rule.solve_pairable_swapped hr h₁ h₂ hp hp'
      obtain ⟨b', hb', hs'⟩ := Rule.solve_pairable hr h₂ h₁ hp'
      rw [hb, hb', hs.eq hs']
    · rw [Rule.solve_unpairable hr h₁ h₂ hp hp', Rule.solve_unpairable hr h₂ h₁ hp' hp]

/-- Two orders of the same ground statements have the same outcome exactly
when the rule derives nothing at all, or any two pairings, one for each order,
have the same conclusions. -/
theorem the_order_matters_only_between_two_pairings {r : Rule} (hr : r.antecedents.length = 2)
    (h₁ : s₁.Ground) (h₂ : s₂.Ground) :
    ∃ a₁ a₂, r.ranked = [a₁, a₂] ∧
      (SameOutcome (r.apply [s₁, s₂]) (r.apply [s₂, s₁]) ↔
        r.Underdetermined ∨
        ∀ σ τ : Assignment, σ.Pairs a₁ a₂ s₁ s₂ → τ.Pairs a₁ a₂ s₂ s₁ →
          ∀ t, r.Concludes σ t ↔ r.Concludes τ t) := by
  obtain ⟨a₁, a₂, hranked⟩ := Rule.ranked_eq_two hr
  refine ⟨a₁, a₂, hranked, ?_⟩
  by_cases hboth : a₁.Pairable a₂ s₁ s₂ ∧ a₁.Pairable a₂ s₂ s₁
  · obtain ⟨hp, hp'⟩ := hboth
    obtain ⟨b, hb, hs⟩ := Rule.solve_pairable hranked h₁ h₂ hp
    obtain ⟨b', hb', hs'⟩ := Rule.solve_pairable hranked h₂ h₁ hp'
    have hg : ∀ s ∈ [s₁, s₂], s.Ground := by simp [h₁, h₂]
    have hg' : ∀ s ∈ [s₂, s₁], s.Ground := by simp [h₁, h₂]
    rcases Rule.apply_ground hg hb with ⟨hu, e, he⟩ | ⟨hu, ts, hts, hc⟩
    · rcases Rule.apply_ground hg' hb' with ⟨-, e', he'⟩ | ⟨hu', -⟩
      · rw [he, he']
        exact ⟨fun _ => Or.inl hu, fun _ => trivial⟩
      · exact absurd hu hu'
    · rcases Rule.apply_ground hg' hb' with ⟨hu', -⟩ | ⟨-, us, hus, hc'⟩
      · exact absurd hu' hu
      · rw [hts, hus]
        constructor
        · intro h
          refine Or.inr fun σ τ hσ hτ t => ?_
          rw [← hc σ (hs.unique σ hσ) t, ← hc' τ (hs'.unique τ hτ) t]
          exact h t
        · rintro (h | h)
          · exact absurd h hu
          · intro t
            rw [hc _ b.fits_toAssignment t, hc' _ b'.fits_toAssignment t]
            exact h _ _ hs.pairs hs'.pairs t
  · have hsame : r.apply [s₁, s₂] = r.apply [s₂, s₁] := by
      rw [Rule.apply_eq_bind, Rule.apply_eq_bind, Rule.solve_swap hranked h₁ h₂ hboth]
    rw [hsame]
    refine ⟨fun _ => Or.inr fun σ τ hσ hτ => ?_, fun _ => SameOutcome.refl _⟩
    exact absurd ⟨⟨σ, hσ⟩, ⟨τ, hτ⟩⟩ hboth

/-- The domain of a property is derived in both orders: the other pairing
would make a use of the property a statement of its domain. -/
theorem a_domain_and_its_use_commute :
    Catalog.rdfs2.antecedents.length = 2 ∧
    Triple.Ground ⟨.iri "x:likes", Rdfs.domain, .iri "x:Person"⟩ ∧
    Triple.Ground ⟨.iri "x:tom", .iri "x:likes", .iri "x:jerry"⟩ ∧
    SameOutcome
      (Catalog.rdfs2.apply [⟨.iri "x:likes", Rdfs.domain, .iri "x:Person"⟩,
        ⟨.iri "x:tom", .iri "x:likes", .iri "x:jerry"⟩])
      (Catalog.rdfs2.apply [⟨.iri "x:tom", .iri "x:likes", .iri "x:jerry"⟩,
        ⟨.iri "x:likes", Rdfs.domain, .iri "x:Person"⟩]) := by
  have hr : Catalog.rdfs2.antecedents.length = 2 := rfl
  have h₁ : Triple.Ground ⟨.iri "x:likes", Rdfs.domain, .iri "x:Person"⟩ := by decide
  have h₂ : Triple.Ground ⟨.iri "x:tom", .iri "x:likes", .iri "x:jerry"⟩ := by decide
  obtain ⟨a₁, a₂, hranked, hiff⟩ := the_order_matters_only_between_two_pairings hr h₁ h₂
  refine ⟨hr, h₁, h₂, hiff.2 (Or.inr fun σ τ _ hτ => ?_)⟩
  cases hranked.symm.trans (Rule.ranked_of_pairwise_le (by decide))
  have hpred : Rdfs.domain ≈ .iri "x:likes" := Triple.equiv_iff.1 hτ.1 .predicate
  exact absurd hpred (by decide)

/-- Of a cycle of two subclasses, each order derives the loop at its own
start. -/
theorem a_subclass_cycle_does_not_commute :
    Catalog.rdfs11.antecedents.length = 2 ∧
    Triple.Ground ⟨.iri "x:a", Rdfs.subClassOf, .iri "x:b"⟩ ∧
    Triple.Ground ⟨.iri "x:b", Rdfs.subClassOf, .iri "x:a"⟩ ∧
    ¬ SameOutcome
      (Catalog.rdfs11.apply [⟨.iri "x:a", Rdfs.subClassOf, .iri "x:b"⟩,
        ⟨.iri "x:b", Rdfs.subClassOf, .iri "x:a"⟩])
      (Catalog.rdfs11.apply [⟨.iri "x:b", Rdfs.subClassOf, .iri "x:a"⟩,
        ⟨.iri "x:a", Rdfs.subClassOf, .iri "x:b"⟩]) := by
  refine ⟨rfl, by decide, by decide, ?_⟩
  have hgiven : Catalog.rdfs11.apply [⟨.iri "x:a", Rdfs.subClassOf, .iri "x:b"⟩,
      ⟨.iri "x:b", Rdfs.subClassOf, .iri "x:a"⟩] =
      .ok [⟨.iri "x:a", Rdfs.subClassOf, .iri "x:a"⟩] :=
    Rule.apply_of_declared (by decide) _
  have hswapped : Catalog.rdfs11.apply [⟨.iri "x:b", Rdfs.subClassOf, .iri "x:a"⟩,
      ⟨.iri "x:a", Rdfs.subClassOf, .iri "x:b"⟩] =
      .ok [⟨.iri "x:b", Rdfs.subClassOf, .iri "x:b"⟩] :=
    Rule.apply_of_declared (by decide) _
  rw [hgiven, hswapped]
  intro hsame
  have hloop := (hsame ⟨.iri "x:a", Rdfs.subClassOf, .iri "x:a"⟩).1 (by decide)
  exact absurd hloop (by decide)

/-! ## Antecedents that clash -/

/-- Some slot holds unequal terms in the two triples, and neither of the terms is a
placeholder. -/
def Triple.Clashes (a a' : Triple) : Prop :=
  ∃ p, (a.term p).name? = none ∧ (a'.term p).name? = none ∧ ¬ a.term p ≈ a'.term p

instance (a a' : Triple) : Decidable (a.Clashes a') :=
  decidable_of_iff (∃ p ∈ Position.all, (a.term p).name? = none ∧ (a'.term p).name? = none ∧
    ¬ a.term p ≈ a'.term p) (by simp [Triple.Clashes, Position.mem_all])

theorem Triple.Clashes.symm (h : a₁.Clashes a₂) : a₂.Clashes a₁ := by
  obtain ⟨p, h₁, h₂, hne⟩ := h
  exact ⟨p, h₂, h₁, fun heq => hne (Setoid.symm heq)⟩

theorem Triple.Clashes.not_instance (h : a₁.Clashes a₂) {s : Triple} {σ τ : Assignment}
    (hσ : a₁.assign σ ≈ s) : ¬ a₂.assign τ ≈ s := by
  intro hτ
  obtain ⟨p, h₁, h₂, hne⟩ := h
  have hp₁ := Triple.assign_equiv_iff.1 hσ p
  have hp₂ := Triple.assign_equiv_iff.1 hτ p
  rw [Term.assign_of_ground h₁] at hp₁
  rw [Term.assign_of_ground h₂] at hp₂
  exact hne (Setoid.trans hp₁ (Setoid.symm hp₂))

theorem Triple.Clashes.not_pairable (h : a₁.Clashes a₂) :
    ¬ (a₁.Pairable a₂ s₁ s₂ ∧ a₁.Pairable a₂ s₂ s₁) := by
  rintro ⟨⟨σ, hσ, -⟩, ⟨τ, -, hτ⟩⟩
  exact h.not_instance hσ hτ

theorem Rule.ranked_clash {r : Rule} {p q : Triple} (hr : r.antecedents = [p, q])
    (hc : p.Clashes q) : ∃ a₁ a₂, r.ranked = [a₁, a₂] ∧ a₁.Clashes a₂ := by
  obtain ⟨a₁, a₂, hranked⟩ := Rule.ranked_eq_two (r := r) (by rw [hr]; rfl)
  have hpairs : r.ranked.Pairwise Triple.Clashes ↔ r.antecedents.Pairwise Triple.Clashes :=
    r.ranked_perm.pairwise_iff Triple.Clashes.symm
  rw [hranked, hr, List.pairwise_pair, List.pairwise_pair] at hpairs
  exact ⟨a₁, a₂, hranked, hpairs.2 hc⟩

/-- Where the antecedents of a rule clash, two ground statements match them in one order
at most, and the rule finds it whichever order it is given: it binds and derives the
same in both, spelling included, or it fails with the same error. -/
theorem antecedents_that_clash_take_either_order {r : Rule} {p q : Triple}
    (hr : r.antecedents = [p, q]) (hc : p.Clashes q) (h₁ : s₁.Ground) (h₂ : s₂.Ground) :
    ∃ a₁ a₂, r.ranked = [a₁, a₂] ∧
      ¬ ((∃ b, a₁.unifyPair a₂ s₁ s₂ = .ok b) ∧ ∃ b, a₁.unifyPair a₂ s₂ s₁ = .ok b) ∧
      r.solve [s₁, s₂] = r.solve [s₂, s₁] ∧ r.apply [s₁, s₂] = r.apply [s₂, s₁] := by
  obtain ⟨a₁, a₂, hranked, hclash⟩ := Rule.ranked_clash hr hc
  have hone : ¬ (a₁.Pairable a₂ s₁ s₂ ∧ a₁.Pairable a₂ s₂ s₁) := hclash.not_pairable
  have hsolve := Rule.solve_swap hranked h₁ h₂ hone
  refine ⟨a₁, a₂, hranked, ?_, hsolve, Rule.apply_of_solve_eq rfl hsolve⟩
  rw [Triple.unifyPair_isOk_iff h₁ h₂, Triple.unifyPair_isOk_iff h₂ h₁]
  exact hone

/-- A type and its subclass spell the class in two ways. Both orders find the pairing
that there is, and keep the spelling of the subclass. -/
theorem a_type_and_its_subclass_take_either_order :
    ∃ p q s₁ s₂ : Triple,
      s₁ = ⟨.literal "cat" (.language "en"), Rdfs.subClassOf, .iri "x:Animal"⟩ ∧
      s₂ = ⟨.iri "x:tom", Rdf.type, .literal "cat" (.language "EN")⟩ ∧
      Catalog.rdfs9.antecedents = [p, q] ∧ p.Clashes q ∧ s₁.Ground ∧ s₂.Ground ∧
      Catalog.rdfs9.apply [s₁, s₂] = .ok [⟨.iri "x:tom", Rdf.type, .iri "x:Animal"⟩] ∧
      Catalog.rdfs9.solve [s₁, s₂] = Catalog.rdfs9.solve [s₂, s₁] ∧
      Catalog.rdfs9.apply [s₁, s₂] = Catalog.rdfs9.apply [s₂, s₁] := by
  let p : Triple := ⟨Name.uuu.var, Rdfs.subClassOf, Name.xxx.var⟩
  let q : Triple := ⟨Name.vvv.var, Rdf.type, Name.uuu.var⟩
  let s₁ : Triple := ⟨.literal "cat" (.language "en"), Rdfs.subClassOf, .iri "x:Animal"⟩
  let s₂ : Triple := ⟨.iri "x:tom", Rdf.type, .literal "cat" (.language "EN")⟩
  have hr : Catalog.rdfs9.antecedents = [p, q] := rfl
  have hc : p.Clashes q := by decide
  have h₁ : s₁.Ground := by decide
  have h₂ : s₂.Ground := by decide
  have hderived : Catalog.rdfs9.apply [s₁, s₂] =
      .ok [⟨.iri "x:tom", Rdf.type, .iri "x:Animal"⟩] := Rule.apply_of_declared (by decide) _
  obtain ⟨-, -, -, -, hsolve, happly⟩ := antecedents_that_clash_take_either_order hr hc h₁ h₂
  exact ⟨p, q, s₁, s₂, rfl, rfl, hr, hc, h₁, h₂, hderived, hsolve, happly⟩

end RdfEntailment
