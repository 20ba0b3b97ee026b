-- The law of missing names: the names of consequents that no antecedent holds. A
-- statement that holds such a name as a placeholder can lend it to a name that
-- both antecedents share: the first reading binds the shared name to that
-- placeholder, substitution puts it into the second antecedent, and the second
-- reading binds it. A rule fails on all statements exactly when it misses more
-- names than can be lent to it.
import Mathlib.Data.Fintype.EquivFin
import RdfEntailment.Catalog
import RdfEntailment.Proofs.Provenance

namespace RdfEntailment

instance : Fintype Name where
  elems := Name.all.toFinset
  complete n := List.mem_toFinset.2 n.mem_all

/-! ## Missing names and lenders -/

namespace Rule

variable {r : Rule} {n : Name}

/-- The names of consequents that no antecedent holds. -/
def missing (r : Rule) : Finset Name :=
  Finset.univ.filter fun n =>
    (∃ c ∈ r.consequents, n ∈ c.names) ∧ ∀ a ∈ r.antecedents, n ∉ a.names

/-- The names that more than one antecedent holds, and no consequent. -/
def lenders (r : Rule) : Finset Name :=
  Finset.univ.filter fun n =>
    1 < r.antecedents.countP (fun a => n ∈ a.names) ∧ ∀ c ∈ r.consequents, n ∉ c.names

theorem mem_missing :
    n ∈ r.missing ↔ (∃ c ∈ r.consequents, n ∈ c.names) ∧ ∀ a ∈ r.antecedents, n ∉ a.names := by
  simp [missing]

theorem underdetermined_iff : r.Underdetermined ↔ r.missing.Nonempty := by
  constructor
  · rintro ⟨c, hc, n, hn, hnot⟩
    exact ⟨n, mem_missing.2 ⟨⟨c, hc, hn⟩, hnot⟩⟩
  · rintro ⟨n, hn⟩
    obtain ⟨⟨c, hc, hmem⟩, hnot⟩ := mem_missing.1 hn
    exact ⟨c, hc, n, hmem, hnot⟩

theorem lenders_eq_empty (h : r.antecedents.length = 1) : r.lenders = ∅ := by
  rw [lenders, Finset.filter_eq_empty_iff]
  rintro n - ⟨hcount, -⟩
  have hle : r.antecedents.countP (fun a => n ∈ a.names) ≤ r.antecedents.length :=
    List.countP_le_length
  omega

theorem mem_lenders {a₁ a₂ : Triple} (h : r.ranked = [a₁, a₂]) :
    n ∈ r.lenders ↔ (n ∈ a₁.names ∧ n ∈ a₂.names) ∧ ∀ c ∈ r.consequents, n ∉ c.names := by
  have hcount : 1 < r.antecedents.countP (fun a => n ∈ a.names) ↔ n ∈ a₁.names ∧ n ∈ a₂.names := by
    rw [← r.ranked_perm.countP_eq, h]
    by_cases h₁ : n ∈ a₁.names <;> by_cases h₂ : n ∈ a₂.names <;> simp [h₁, h₂]
  rw [lenders, Finset.mem_filter, hcount]
  simp

end Rule

/-! ## What is bound has been lent -/

/-- A pair binds a name that neither pattern holds only through a name that both
hold: the first statement has the one in the place of the other. -/
theorem Triple.lent_of_unifyPair {a₁ a₂ s₁ s₂ : Triple} {b : Bindings}
    (h : a₁.unifyPair a₂ s₁ s₂ = .ok b) {n : Name} (hn : ∃ v, b.get? n = some v)
    (h₁ : n ∉ a₁.names) (h₂ : n ∉ a₂.names) :
    ∃ m v, (m ∈ a₁.names ∧ m ∈ a₂.names) ∧ b.get? m = some v ∧ v.name? = some n := by
  obtain ⟨b₁, b₂, hu₁, hu₂, rfl⟩ := Triple.unifyPair_eq_ok_iff.1 h
  rw [NameMap.get?_merge, Triple.unbound_unify hu₁ h₁, Option.none_or] at hn
  rcases Triple.mem_names_subst.1 ((Triple.bound_unify_iff hu₂).1 hn) with
    ⟨hmem, -⟩ | ⟨m, v, hm, hv, hvn⟩
  · exact absurd hmem h₂
  · have hm₁ := (Triple.bound_unify_iff hu₁).1 ⟨v, hv⟩
    refine ⟨m, v, ⟨hm₁, hm⟩, ?_, hvn⟩
    rw [NameMap.get?_merge, hv, Option.some_or]

namespace Rule

variable {r : Rule} {n : Name}

theorem exists_lender {ss : List Triple} {b : Bindings} (h : r.solve ss = .ok b)
    (hground : ∀ c ∈ r.consequents, (c.subst b).Ground) (hn : n ∈ r.missing) :
    ∃ m ∈ r.lenders, ∃ v, b.get? m = some v ∧ v.name? = some n := by
  obtain ⟨⟨c, hc, hnc⟩, hnot⟩ := mem_missing.1 hn
  simp only [← Rule.mem_ranked] at hnot
  obtain ⟨w, hw, -⟩ := Triple.ground_subst_iff_values.1 (hground c hc) n hnc
  have hbound : ∃ w, b.get? n = some w := ⟨w, hw⟩
  -- A name whose value is a placeholder cannot stand in a consequent.
  have hunused : ∀ m v, b.get? m = some v → v.name? = some n →
      ∀ c ∈ r.consequents, m ∉ c.names := by
    intro m v hm hv c hc hmc
    obtain ⟨u, hu, hnone⟩ := Triple.ground_subst_iff_values.1 (hground c hc) m hmc
    rw [hm] at hu
    cases hu
    rw [hnone] at hv
    cases hv
  rcases Rule.solve_eq_ok h with ⟨a, s, hr, rfl, hu⟩ | ⟨a₁, a₂, s₁, s₂, hr, rfl, hu⟩
  · exact absurd ((Triple.bound_unify_iff hu).1 hbound) (hnot a (by simp [hr]))
  · have h₁ : n ∉ a₁.names := hnot a₁ (by simp [hr])
    have h₂ : n ∉ a₂.names := hnot a₂ (by simp [hr])
    obtain ⟨m, v, hshared, hm, hv⟩ :
        ∃ m v, (m ∈ a₁.names ∧ m ∈ a₂.names) ∧ b.get? m = some v ∧ v.name? = some n := by
      rcases hu with hu | ⟨-, hu⟩
      · exact Triple.lent_of_unifyPair hu hbound h₁ h₂
      · exact Triple.lent_of_unifyPair hu hbound h₁ h₂
    exact ⟨m, (mem_lenders hr).2 ⟨hshared, hunused m v hm hv⟩, v, hm, hv⟩

theorem mem_names_of_apply {ss ts : List Triple} (h : r.apply ss = .ok ts) (hn : n ∈ r.missing) :
    ∃ s ∈ ss, n ∈ s.names := by
  obtain ⟨b, hb, hground, -⟩ := Rule.apply_eq_ok_iff.1 h
  obtain ⟨m, -, v, hm, hv⟩ := exists_lender hb hground hn
  obtain ⟨s, hs, hvs⟩ := Rule.from_solve hb m v hm
  exact ⟨s, hs, List.mem_filterMap.2 ⟨v, hvs, hv⟩⟩

-- A lender has one value, so it lends one name.
theorem card_missing_le {ss ts : List Triple} (h : r.apply ss = .ok ts) :
    r.missing.card ≤ r.lenders.card := by
  obtain ⟨b, hb, hground, -⟩ := Rule.apply_eq_ok_iff.1 h
  have hsub : r.missing ⊆ r.lenders.image fun m => ((b.get? m).bind Term.name?).getD m := by
    intro n hn
    obtain ⟨m, hm, v, hv, hvn⟩ := exists_lender hb hground hn
    exact Finset.mem_image.2 ⟨m, hm, by simp [hv, hvn]⟩
  exact (Finset.card_le_card hsub).trans Finset.card_image_le

end Rule

/-! ## Statements that lend -/

theorem exists_loan {missing lenders : Finset Name} (h : missing.card ≤ lenders.card) :
    ∃ loan : Name → Option Name, (∀ m n, loan m = some n → m ∈ lenders) ∧
      ∀ n ∈ missing, ∃ m, loan m = some n := by
  obtain ⟨chosen, hsub, hcard⟩ := Finset.exists_subset_card_eq h
  let e : chosen ≃ missing := Finset.equivOfCardEq hcard
  refine ⟨fun m => if hm : m ∈ chosen then some (e ⟨m, hm⟩) else none, ?_, ?_⟩
  · intro m n hmn
    by_cases hm : m ∈ chosen
    · exact hsub hm
    · simp [hm] at hmn
  · intro n hn
    refine ⟨e.symm ⟨n, hn⟩, ?_⟩
    simp

/-- An IRI for the names whose term does not matter. -/
def anything : Term := .iri "x:anything"

def Assignment.indifferent : Assignment := fun _ => anything

/-- A name that lends stands for the name that it lends to, and any other name
for the IRI. -/
def Assignment.ofLoan (loan : Name → Option Name) : Assignment :=
  fun m => ((loan m).map Name.var).getD anything

theorem Triple.ground_assign_indifferent (t : Triple) :
    (t.assign Assignment.indifferent).Ground := by
  rw [Triple.ground_iff]
  intro p
  rw [Triple.term_assign, Term.assign]
  cases ht : (t.term p).name? with
  | none => exact ht
  | some n => rfl

/-- Where bindings fit an assignment, a name's value and its assigned term are
placeholders of one name, or neither is a placeholder. -/
theorem Bindings.Fits.name? {b : Bindings} {σ : Assignment} (hf : b.Fits σ) {n : Name} {v : Term}
    (h : b.get? n = some v) : v.name? = (σ n).name? :=
  Term.name?_congr (hf n v h)

/-- A pair of statements that lends: the first is the first pattern with the
lent names in it, and the second is what the first reading leaves of the second
pattern, with an IRI for each placeholder. -/
theorem Triple.exists_lending_pair {a₁ a₂ : Triple} {loan : Name → Option Name}
    (hloan : ∀ m n, loan m = some n → m ∈ a₁.names ∧ m ∈ a₂.names) :
    ∃ s₁ s₂ b, a₁.unifyPair a₂ s₁ s₂ = .ok b ∧
      (∀ n ∈ a₁.names, loan n = none → ∃ v, b.get? n = some v ∧ v.name? = none) ∧
      ∀ n, n ∉ a₁.names → (n ∈ a₂.names ∨ ∃ m, loan m = some n) →
        ∃ v, b.get? n = some v ∧ v.name? = none := by
  obtain ⟨b₁, hu₁, hf₁⟩ := Triple.unify_fits_iff.2
    (Setoid.refl (a₁.assign (Assignment.ofLoan loan)))
  let s₂ := (a₂.subst b₁).assign Assignment.indifferent
  obtain ⟨b₂, hu₂, hf₂⟩ := Triple.unify_fits_iff.2 (Setoid.refl s₂)
  have hs₂ : s₂.subst b₁ = s₂ := Triple.subst_of_ground (Triple.ground_assign_indifferent _)
  refine ⟨a₁.assign (Assignment.ofLoan loan), s₂, b₂.merge b₁,
    Triple.unifyPair_eq_ok_iff.2 ⟨b₁, b₂, hu₁, by rw [hs₂]; exact hu₂, rfl⟩, ?_, ?_⟩
  · intro n hn hkept
    obtain ⟨v, hv⟩ := (Triple.bound_unify_iff hu₁).2 hn
    refine ⟨v, by rw [NameMap.get?_merge, hv, Option.some_or], ?_⟩
    rw [hf₁.name? hv, Assignment.ofLoan, hkept]
    rfl
  · intro n hn₁ hlent
    have hnone : b₁.get? n = none := Triple.unbound_unify hu₁ hn₁
    have hleft : n ∈ (a₂.subst b₁).names := by
      rw [Triple.mem_names_subst]
      rcases hlent with hn₂ | ⟨m, hm⟩
      · exact Or.inl ⟨hn₂, hnone⟩
      · obtain ⟨hm₁, hm₂⟩ := hloan m n hm
        obtain ⟨v, hv⟩ := (Triple.bound_unify_iff hu₁).2 hm₁
        refine Or.inr ⟨m, v, hm₂, hv, ?_⟩
        rw [hf₁.name? hv, Assignment.ofLoan, hm]
        exact n.name?_toTerm .var
    obtain ⟨v, hv⟩ := (Triple.bound_unify_iff hu₂).2 hleft
    exact ⟨v, by rw [NameMap.get?_merge, hnone, Option.none_or, hv], hf₂.name? hv⟩

namespace Rule

theorem exists_apply_of_two {r : Rule} {a₁ a₂ : Triple} (hr : r.ranked = [a₁, a₂])
    (hcard : r.missing.card ≤ r.lenders.card) : ∃ ss ts, r.apply ss = .ok ts := by
  obtain ⟨loan, hlender, hlent⟩ := exists_loan hcard
  obtain ⟨s₁, s₂, b, hu, hfirst, hrest⟩ := Triple.exists_lending_pair fun m n hm =>
    ((mem_lenders hr).1 (hlender m n hm)).1
  have hsolve : r.solve [s₁, s₂] = .ok b := by
    rw [Rule.solve_two (Rule.length_of_ranked_eq_two hr) hr, hu]
  refine ⟨[s₁, s₂], _, Rule.apply_eq_ok_iff.2 ⟨b, hsolve, fun c hc => ?_, rfl⟩⟩
  refine Triple.ground_subst_iff_values.2 fun n hn => ?_
  by_cases h₁ : n ∈ a₁.names
  · refine hfirst n h₁ (Option.eq_none_iff_forall_ne_some.2 fun k hk => ?_)
    exact ((mem_lenders hr).1 (hlender n k hk)).2 c hc hn
  · refine hrest n h₁ ?_
    by_cases h₂ : n ∈ a₂.names
    · exact Or.inl h₂
    · refine Or.inr (hlent n (mem_missing.2 ⟨⟨c, hc, hn⟩, fun a ha => ?_⟩))
      rw [← Rule.mem_ranked, hr] at ha
      simp only [List.mem_cons, List.not_mem_nil, or_false] at ha
      rcases ha with rfl | rfl
      · exact h₁
      · exact h₂

/-- One antecedent with all names in it derives from what it is itself, with an
IRI for each placeholder. -/
theorem exists_apply_of_one {r : Rule} (hr : r.antecedents.length = 1)
    (hu : ¬ r.Underdetermined) : ∃ ss ts, r.apply ss = .ok ts := by
  obtain ⟨a, hranked⟩ := Rule.ranked_eq_one hr
  obtain ⟨b, hb, -⟩ := Triple.unify_fits_iff.2 (Setoid.refl (a.assign Assignment.indifferent))
  have hsolve : r.solve [a.assign Assignment.indifferent] = .ok b := by
    rw [Rule.solve_one hr hranked, hb]
    rfl
  have hs : ∀ s ∈ [a.assign Assignment.indifferent], s.Ground := by
    simp [Triple.ground_assign_indifferent]
  rcases Rule.apply_ground hs hsolve with ⟨hu', -⟩ | ⟨-, ts, hts, -⟩
  · exact absurd hu' hu
  · exact ⟨_, ts, hts⟩

theorem exists_apply_of_card_le {r : Rule}
    (hr : r.antecedents.length = 1 ∨ r.antecedents.length = 2)
    (hcard : r.missing.card ≤ r.lenders.card) : ∃ ss ts, r.apply ss = .ok ts := by
  rcases hr with hone | htwo
  · refine exists_apply_of_one hone fun hu => ?_
    rw [lenders_eq_empty hone, Finset.card_empty, Nat.le_zero, Finset.card_eq_zero] at hcard
    exact (underdetermined_iff.1 hu).ne_empty hcard
  · obtain ⟨a₁, a₂, hranked⟩ := Rule.ranked_eq_two htwo
    exact exists_apply_of_two hranked hcard

theorem exists_error_of_forall_ne {ss : List Triple} {r : Rule}
    (h : ∀ ts, r.apply ss ≠ .ok ts) : ∃ e, r.apply ss = .error e := by
  cases ha : r.apply ss with
  | error e => exact ⟨e, rfl⟩
  | ok ts => exact absurd ha (h ts)

end Rule

/-! ## The law -/

/-- A rule fails on all statements exactly when it misses more names than there
are names that can lend. With one antecedent nothing can lend, so one missing
name is enough. Whatever it can be lent, a rule fails where no statement holds
one of the names that it misses. -/
theorem missing_names_fail_unless_they_are_lent {r : Rule}
    (hr : r.antecedents.length = 1 ∨ r.antecedents.length = 2) :
    ((∀ ss, ∃ e, r.apply ss = .error e) ↔ r.lenders.card < r.missing.card) ∧
    (r.antecedents.length = 1 → r.Underdetermined → ∀ ss, ∃ e, r.apply ss = .error e) ∧
    ∀ n ∈ r.missing, ∀ ss : List Triple, (∀ s ∈ ss, n ∉ s.names) →
      ∃ e, r.apply ss = .error e := by
  have hfails : (∀ ss, ∃ e, r.apply ss = .error e) ↔ r.lenders.card < r.missing.card := by
    constructor
    · intro hall
      by_contra hle
      rw [not_lt] at hle
      obtain ⟨ss, ts, hts⟩ := Rule.exists_apply_of_card_le hr hle
      obtain ⟨e, he⟩ := hall ss
      rw [hts] at he
      cases he
    · intro hcard ss
      exact Rule.exists_error_of_forall_ne fun ts hts =>
        absurd (Rule.card_missing_le hts) (by omega)
  refine ⟨hfails, fun hone hu => hfails.2 ?_, fun n hn ss hnot => ?_⟩
  · rw [Rule.lenders_eq_empty hone, Finset.card_empty, Finset.card_pos]
    exact Rule.underdetermined_iff.1 hu
  · refine Rule.exists_error_of_forall_ne fun ts hts => ?_
    obtain ⟨s, hs, hns⟩ := Rule.mem_names_of_apply hts hn
    exact hnot s hs hns

/-- One more consequent, which gives a name the class that is bound to `xxx`. -/
def Rule.withStray (r : Rule) (n : Name) : Rule :=
  r.extend [.consequent ⟨n.toTerm .blankNode, Rdf.type, Name.xxx.var⟩]

/-- The domain rule with a missing name. -/
def strayDomain : Rule := Catalog.rdfs2.withStray .zzz

/-- The property is the one name of the domain rule that can lend, so with two
missing names the rule always fails. With one it does not, but it fails on the
ground statements of a domain and its use. The rule of resources has one
antecedent, so it always fails with one missing name. -/
theorem one_property_lends_one_name :
    (strayDomain.lenders = {.aaa} ∧ strayDomain.missing = {.zzz}) ∧
    ((strayDomain.withStray .vvv).lenders = {.aaa} ∧
      (strayDomain.withStray .vvv).missing = {.vvv, .zzz}) ∧
    (strayDomain.withStray .vvv).antecedents.length = 2 ∧
    (∀ ss, ∃ e, (strayDomain.withStray .vvv).apply ss = .error e) ∧
    (¬ ∀ ss, ∃ e, strayDomain.apply ss = .error e) ∧
    (∃ e, strayDomain.apply [⟨.iri "x:likes", Rdfs.domain, .iri "x:Person"⟩,
      ⟨.iri "x:tom", .iri "x:likes", .iri "x:jerry"⟩] = .error e) ∧
    (Catalog.rdfs4a.withStray .zzz).antecedents.length = 1 ∧
    (Catalog.rdfs4a.withStray .zzz).Underdetermined ∧
    ∀ ss, ∃ e, (Catalog.rdfs4a.withStray .zzz).apply ss = .error e := by
  have hstray : strayDomain.lenders = {.aaa} ∧ strayDomain.missing = {.zzz} := by decide
  have hstrays : (strayDomain.withStray .vvv).lenders = {.aaa} ∧
      (strayDomain.withStray .vvv).missing = {.vvv, .zzz} := by decide
  have hu : (Catalog.rdfs4a.withStray .zzz).Underdetermined := by decide
  have hlength : strayDomain.antecedents.length = 2 := rfl
  have hlength' : (strayDomain.withStray .vvv).antecedents.length = 2 := rfl
  have hlength'' : (Catalog.rdfs4a.withStray .zzz).antecedents.length = 1 := rfl
  obtain ⟨hiff, -, habsent⟩ := missing_names_fail_unless_they_are_lent (Or.inr hlength)
  obtain ⟨hiff', -, -⟩ := missing_names_fail_unless_they_are_lent (Or.inr hlength')
  obtain ⟨-, hone, -⟩ := missing_names_fail_unless_they_are_lent (Or.inl hlength'')
  refine ⟨hstray, hstrays, hlength', ?_, ?_, ?_, hlength'', hu, hone hlength'' hu⟩
  · rw [hiff', hstrays.1, hstrays.2]
    decide
  · rw [hiff, hstray.1, hstray.2]
    decide
  · exact habsent .zzz (by rw [hstray.2]; decide) _ (by decide)

/-- A domain of a placeholder lends its name to the property, and the use of
the property binds it: the consequent that nothing should bind is derived. -/
theorem a_domain_of_a_placeholder_binds_a_missing_name :
    strayDomain.antecedents.length = 2 ∧ strayDomain.Underdetermined ∧
    strayDomain.apply [⟨Name.zzz.var, Rdfs.domain, .iri "x:Person"⟩,
      ⟨.iri "x:tom", .iri "x:likes", .iri "x:jerry"⟩] =
      .ok [⟨.iri "x:tom", Rdf.type, .iri "x:Person"⟩,
        ⟨.iri "x:likes", Rdf.type, .iri "x:Person"⟩] :=
  ⟨rfl, by decide, Rule.apply_of_declared (by decide) _⟩

end RdfEntailment
