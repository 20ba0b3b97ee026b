-- The law of the catalog. Its rules are the entailment patterns of RDF and RDFS:
-- from ground statements a rule derives the one conclusion of its pattern, where
-- they are the premises in the order given, or in the other one where they are not.
import Mathlib.Data.List.Forall2
import RdfEntailment.Proofs.Determination

namespace RdfEntailment

/-! ## Statements in the order of the antecedents -/

/-- The assignment makes each antecedent equal to the statement in its place. -/
def Rule.Matches (r : Rule) (σ : Assignment) (ss : List Triple) : Prop :=
  List.Forall₂ (fun a s => a.assign σ ≈ s) r.antecedents ss

namespace Rule

variable {r : Rule} {ss : List Triple} {σ : Assignment} {a a₁ a₂ s s₁ s₂ : Triple}

theorem matches_one (h : r.antecedents = [a]) : r.Matches σ [s] ↔ a.assign σ ≈ s := by
  simp [Matches, h]

theorem matches_two (h : r.antecedents = [a₁, a₂]) :
    r.Matches σ [s₁, s₂] ↔ σ.Pairs a₁ a₂ s₁ s₂ := by
  simp [Matches, h, Assignment.Pairs]

theorem antecedents_and_statements (hr : r.antecedents.length = 1 ∨ r.antecedents.length = 2)
    (hlen : ss.length = r.antecedents.length) :
    (∃ a s, r.antecedents = [a] ∧ ss = [s]) ∨
    ∃ a₁ a₂ s₁ s₂, r.antecedents = [a₁, a₂] ∧ ss = [s₁, s₂] := by
  rcases hr with hone | htwo
  · obtain ⟨a, ha⟩ := List.length_eq_one_iff.1 hone
    obtain ⟨s, hs⟩ := List.length_eq_one_iff.1 (hlen.trans hone)
    exact Or.inl ⟨a, s, ha, hs⟩
  · obtain ⟨a₁, a₂, ha⟩ := List.length_eq_two.1 htwo
    obtain ⟨s₁, s₂, hs⟩ := List.length_eq_two.1 (hlen.trans htwo)
    exact Or.inr ⟨a₁, a₂, s₁, s₂, ha, hs⟩

section InOrder

variable (hr : r.antecedents.length = 1 ∨ r.antecedents.length = 2)
  (hranked : r.ranked = r.antecedents) (hs : ∀ s ∈ ss, s.Ground)
  (hlen : ss.length = r.antecedents.length)

include hr hranked hs hlen

theorem solve_of_matches (h : r.Matches σ ss) :
    ∃ b, r.solve ss = .ok b ∧ ∀ τ, r.Matches τ ss → b.Fits τ := by
  rcases antecedents_and_statements hr hlen with ⟨a, s, ha, rfl⟩ | ⟨a₁, a₂, s₁, s₂, ha, rfl⟩
  · simp only [matches_one ha] at h ⊢
    obtain ⟨b, hb, -⟩ := Triple.unify_fits_iff.2 h
    refine ⟨b, ?_, fun τ hτ => ?_⟩
    · rw [solve_one (by simp [ha]) (hranked.trans ha), hb]
      rfl
    · obtain ⟨b', hb', hfits⟩ := Triple.unify_fits_iff.2 hτ
      rw [hb] at hb'
      cases hb'
      exact hfits
  · simp only [matches_two ha] at h ⊢
    obtain ⟨b, hb, hsolves⟩ := solve_pairable (hranked.trans ha) (hs s₁ (by simp))
      (hs s₂ (by simp)) ⟨σ, h⟩
    exact ⟨b, hb, hsolves.unique⟩

theorem solve_of_matches_reverse (hn : ∀ τ, ¬ r.Matches τ ss) (h : r.Matches σ ss.reverse) :
    ∃ b, r.solve ss = .ok b ∧ ∀ τ, r.Matches τ ss.reverse → b.Fits τ := by
  rcases antecedents_and_statements hr hlen with ⟨a, s, ha, rfl⟩ | ⟨a₁, a₂, s₁, s₂, ha, rfl⟩
  · exact absurd h (hn σ)
  · have hswap : [s₁, s₂].reverse = [s₂, s₁] := rfl
    rw [hswap] at h ⊢
    simp only [matches_two ha] at h hn ⊢
    obtain ⟨b, hb, hsolves⟩ := solve_pairable_swapped (hranked.trans ha) (hs s₁ (by simp))
      (hs s₂ (by simp)) (fun ⟨τ, hτ⟩ => hn τ hτ) ⟨σ, h⟩
    exact ⟨b, hb, hsolves.unique⟩

/-- Statements that match in neither order are not solved: one statement has a
slot at fault, and two have no ordering. -/
theorem solve_of_not_matches (hn : ∀ τ, ¬ r.Matches τ ss) (hn' : ∀ τ, ¬ r.Matches τ ss.reverse) :
    ∃ e, r.solve ss = .error e ∧
      if ss.length = 2 then e = .noOrdering else ∃ fault : SlotFault, e = fault.error := by
  rcases antecedents_and_statements hr hlen with ⟨a, s, ha, rfl⟩ | ⟨a₁, a₂, s₁, s₂, ha, rfl⟩
  · simp only [matches_one ha] at hn
    rw [solve_one (by simp [ha]) (hranked.trans ha)]
    cases hu : a.unify s with
    | ok b => exact absurd (Triple.assign_unify hu) (hn _)
    | error fault => exact ⟨_, rfl, fault, rfl⟩
  · have hswap : [s₁, s₂].reverse = [s₂, s₁] := rfl
    rw [hswap] at hn'
    simp only [matches_two ha] at hn hn'
    refine ⟨_, ?_, rfl⟩
    exact solve_unpairable (hranked.trans ha) (hs s₁ (by simp)) (hs s₂ (by simp))
      (fun ⟨τ, hτ⟩ => hn τ hτ) (fun ⟨τ, hτ⟩ => hn' τ hτ)

end InOrder

/-- A rule that misses no name derives its consequents one by one, each equal to
its instance under any assignment that fits the bindings. -/
theorem apply_instances {b : Bindings} (hs : ∀ s ∈ ss, s.Ground) (h : r.solve ss = .ok b)
    (hu : ¬ r.Underdetermined) :
    ∃ ts, r.apply ss = .ok ts ∧
      ∀ σ, b.Fits σ → List.Forall₂ (· ≈ ·) ts (r.consequents.map (·.assign σ)) := by
  obtain ⟨hb, -, -⟩ := solve_ground_sound hs h
  rcases apply_ground hs h with ⟨hu', -⟩ | ⟨-, ts, hts, -⟩
  · exact absurd hu' hu
  · refine ⟨ts, hts, fun σ hfits => ?_⟩
    obtain ⟨b', hb', hground, rfl⟩ := apply_eq_ok_iff.1 hts
    rw [h] at hb'
    cases hb'
    rw [List.forall₂_map_left_iff, List.forall₂_map_right_iff, List.forall₂_same]
    exact fun c hc => Triple.subst_equiv_assign hb hfits (hground c hc)

end Rule

namespace Catalog

open Name

/-! ## The patterns of the standards -/

/-- The entailment patterns as the standards write them down: whatever terms the
letters stand for, the premises entail the conclusion. -/
inductive Pattern : Rule → List Triple → Triple → Prop
  | rdf1 (u a y : Term) : Pattern rdf1 [⟨u, a, y⟩] ⟨a, Rdf.type, Rdf.Property⟩
  | rdfs2 (a x u y : Term) :
      Pattern rdfs2 [⟨a, Rdfs.domain, x⟩, ⟨u, a, y⟩] ⟨u, Rdf.type, x⟩
  | rdfs3 (a x u v : Term) :
      Pattern rdfs3 [⟨a, Rdfs.range, x⟩, ⟨u, a, v⟩] ⟨v, Rdf.type, x⟩
  | rdfs4a (u a x : Term) : Pattern rdfs4a [⟨u, a, x⟩] ⟨u, Rdf.type, Rdfs.Resource⟩
  | rdfs4b (u a v : Term) : Pattern rdfs4b [⟨u, a, v⟩] ⟨v, Rdf.type, Rdfs.Resource⟩
  | rdfs5 (u v x : Term) :
      Pattern rdfs5 [⟨u, Rdfs.subPropertyOf, v⟩, ⟨v, Rdfs.subPropertyOf, x⟩]
        ⟨u, Rdfs.subPropertyOf, x⟩
  | rdfs6 (u : Term) : Pattern rdfs6 [⟨u, Rdf.type, Rdf.Property⟩] ⟨u, Rdfs.subPropertyOf, u⟩
  | rdfs7 (a b u y : Term) :
      Pattern rdfs7 [⟨a, Rdfs.subPropertyOf, b⟩, ⟨u, a, y⟩] ⟨u, b, y⟩
  | rdfs8 (u : Term) : Pattern rdfs8 [⟨u, Rdf.type, Rdfs.Class⟩] ⟨u, Rdfs.subClassOf, Rdfs.Resource⟩
  | rdfs9 (u x v : Term) :
      Pattern rdfs9 [⟨u, Rdfs.subClassOf, x⟩, ⟨v, Rdf.type, u⟩] ⟨v, Rdf.type, x⟩
  | rdfs10 (u : Term) : Pattern rdfs10 [⟨u, Rdf.type, Rdfs.Class⟩] ⟨u, Rdfs.subClassOf, u⟩
  | rdfs11 (u v x : Term) :
      Pattern rdfs11 [⟨u, Rdfs.subClassOf, v⟩, ⟨v, Rdfs.subClassOf, x⟩] ⟨u, Rdfs.subClassOf, x⟩
  | rdfs12 (u : Term) :
      Pattern rdfs12 [⟨u, Rdf.type, Rdfs.ContainerMembershipProperty⟩]
        ⟨u, Rdfs.subPropertyOf, Rdfs.member⟩
  | rdfs13 (u : Term) :
      Pattern rdfs13 [⟨u, Rdf.type, Rdfs.Datatype⟩] ⟨u, Rdfs.subClassOf, Rdfs.Literal⟩

/-- The names stand for the terms that the pairs give them. -/
def letters (pairs : List (Name × Term)) : Assignment :=
  Bindings.toAssignment (NameMap.ofList pairs)

/-- A pattern is an instance of its rule. -/
theorem Pattern.exists_assignment {r : Rule} {ps : List Triple} {c : Triple} (h : Pattern r ps c) :
    ∃ σ : Assignment,
      ps = r.antecedents.map (·.assign σ) ∧ [c] = r.consequents.map (·.assign σ) := by
  cases h with
  | rdf1 u a y => exact ⟨letters [(uuu, u), (aaa, a), (yyy, y)], rfl, rfl⟩
  | rdfs2 a x u y => exact ⟨letters [(aaa, a), (xxx, x), (uuu, u), (yyy, y)], rfl, rfl⟩
  | rdfs3 a x u v => exact ⟨letters [(aaa, a), (xxx, x), (uuu, u), (vvv, v)], rfl, rfl⟩
  | rdfs4a u a x => exact ⟨letters [(uuu, u), (aaa, a), (xxx, x)], rfl, rfl⟩
  | rdfs4b u a v => exact ⟨letters [(uuu, u), (aaa, a), (vvv, v)], rfl, rfl⟩
  | rdfs5 u v x => exact ⟨letters [(uuu, u), (vvv, v), (xxx, x)], rfl, rfl⟩
  | rdfs6 u => exact ⟨letters [(uuu, u)], rfl, rfl⟩
  | rdfs7 a b u y => exact ⟨letters [(aaa, a), (bbb, b), (uuu, u), (yyy, y)], rfl, rfl⟩
  | rdfs8 u => exact ⟨letters [(uuu, u)], rfl, rfl⟩
  | rdfs9 u x v => exact ⟨letters [(uuu, u), (xxx, x), (vvv, v)], rfl, rfl⟩
  | rdfs10 u => exact ⟨letters [(uuu, u)], rfl, rfl⟩
  | rdfs11 u v x => exact ⟨letters [(uuu, u), (vvv, v), (xxx, x)], rfl, rfl⟩
  | rdfs12 u => exact ⟨letters [(uuu, u)], rfl, rfl⟩
  | rdfs13 u => exact ⟨letters [(uuu, u)], rfl, rfl⟩

/-- An instance of a rule of the catalog is its pattern. -/
theorem pattern_assign {r : Rule} (hr : r ∈ all) (σ : Assignment) :
    ∃ c, [c] = r.consequents.map (·.assign σ) ∧ Pattern r (r.antecedents.map (·.assign σ)) c := by
  simp only [all, List.mem_cons, List.not_mem_nil, or_false] at hr
  rcases hr with rfl | rfl | rfl | rfl | rfl | rfl | rfl | rfl | rfl | rfl | rfl | rfl | rfl | rfl
  · exact ⟨_, rfl, .rdf1 (σ uuu) (σ aaa) (σ yyy)⟩
  · exact ⟨_, rfl, .rdfs2 (σ aaa) (σ xxx) (σ uuu) (σ yyy)⟩
  · exact ⟨_, rfl, .rdfs3 (σ aaa) (σ xxx) (σ uuu) (σ vvv)⟩
  · exact ⟨_, rfl, .rdfs4a (σ uuu) (σ aaa) (σ xxx)⟩
  · exact ⟨_, rfl, .rdfs4b (σ uuu) (σ aaa) (σ vvv)⟩
  · exact ⟨_, rfl, .rdfs5 (σ uuu) (σ vvv) (σ xxx)⟩
  · exact ⟨_, rfl, .rdfs6 (σ uuu)⟩
  · exact ⟨_, rfl, .rdfs7 (σ aaa) (σ bbb) (σ uuu) (σ yyy)⟩
  · exact ⟨_, rfl, .rdfs8 (σ uuu)⟩
  · exact ⟨_, rfl, .rdfs9 (σ uuu) (σ xxx) (σ vvv)⟩
  · exact ⟨_, rfl, .rdfs10 (σ uuu)⟩
  · exact ⟨_, rfl, .rdfs11 (σ uuu) (σ vvv) (σ xxx)⟩
  · exact ⟨_, rfl, .rdfs12 (σ uuu)⟩
  · exact ⟨_, rfl, .rdfs13 (σ uuu)⟩

/-! ## The rules of the catalog -/

/-- The statements equal the premises of the rule's pattern, in this order, and
the triple equals its conclusion. -/
def Documents (r : Rule) (ss : List Triple) (t : Triple) : Prop :=
  ∃ ps c, Pattern r ps c ∧ List.Forall₂ (· ≈ ·) ps ss ∧ c ≈ t

theorem documents_iff {r : Rule} (hr : r ∈ all) {ss : List Triple} {t : Triple} :
    Documents r ss t ↔
      ∃ σ, r.Matches σ ss ∧ ∃ c, [c] = r.consequents.map (·.assign σ) ∧ c ≈ t := by
  constructor
  · rintro ⟨ps, c, hpattern, hps, hct⟩
    obtain ⟨σ, rfl, hc⟩ := hpattern.exists_assignment
    exact ⟨σ, List.forall₂_map_left_iff.1 hps, c, hc, hct⟩
  · rintro ⟨σ, hmatches, c, hc, hct⟩
    obtain ⟨c', hc', hpattern⟩ := pattern_assign hr σ
    obtain rfl : c = c' := by simpa using hc.trans hc'.symm
    exact ⟨_, c, hpattern, List.forall₂_map_left_iff.2 hmatches, hct⟩

theorem matches_of_documents {r : Rule} (hr : r ∈ all) {ss : List Triple} :
    (∃ t, Documents r ss t) ↔ ∃ σ, r.Matches σ ss := by
  simp only [documents_iff hr]
  constructor
  · rintro ⟨t, σ, hmatches, -⟩
    exact ⟨σ, hmatches⟩
  · rintro ⟨σ, hmatches⟩
    obtain ⟨c, hc, -⟩ := pattern_assign hr σ
    exact ⟨c, σ, hmatches, c, hc, Setoid.refl c⟩

theorem length_antecedents : ∀ r ∈ all, r.antecedents.length = 1 ∨ r.antecedents.length = 2 := by
  decide

theorem not_underdetermined : ∀ r ∈ all, ¬ r.Underdetermined := by decide

theorem apply_ne_underdetermined {r : Rule} (hr : r ∈ all) {ss : List Triple}
    (hs : ∀ s ∈ ss, s.Ground) (n : Name) : r.apply ss ≠ .error (.underdetermined n) := by
  intro h
  cases hsolve : r.solve ss with
  | error e =>
    rw [Rule.apply_of_solve_error hsolve] at h
    cases h
    exact Rule.solve_ne_underdetermined hsolve
  | ok b =>
    obtain ⟨ts, hts, -⟩ := Rule.apply_instances hs hsolve (not_underdetermined r hr)
    rw [h] at hts
    cases hts

/-- Bindings that fit all that matches these statements, in one order or the
other, give the documented conclusion and nothing else. -/
theorem apply_of_fits {r : Rule} (hr : r ∈ all) {ss ss' : List Triple} {b : Bindings}
    (hs : ∀ s ∈ ss, s.Ground) (h : r.solve ss = .ok b) (hfits : ∀ σ, r.Matches σ ss' → b.Fits σ)
    {t : Triple} (ht : Documents r ss' t) : ∃ t', r.apply ss = .ok [t'] ∧ t' ≈ t := by
  obtain ⟨σ, hmatches, c, hc, hct⟩ := (documents_iff hr).1 ht
  obtain ⟨ts, hts, hinstances⟩ := Rule.apply_instances hs h (not_underdetermined r hr)
  have hinstance := hinstances σ (hfits σ hmatches)
  rw [← hc] at hinstance
  obtain ⟨t', rfl, htc⟩ : ∃ t', ts = [t'] ∧ t' ≈ c := by
    cases hinstance with
    | cons htc hnil =>
      cases hnil
      exact ⟨_, rfl, htc⟩
  exact ⟨t', hts, Setoid.trans htc hct⟩

/-- Every ground triple makes its predicate a property, of whatever kind it is. -/
theorem rdf1_apply {s : Triple} (hs : s.Ground) :
    rdf1.apply [s] = .ok [⟨s.predicate, Rdf.type, Rdf.Property⟩] := by
  refine Rule.apply_eq_ok_iff.2 ⟨_, Rule.solve_of_declared (by decide) _, ?_, rfl⟩
  rw [show rdf1.consequents = [⟨aaa.var, Rdf.type, Rdf.Property⟩] from rfl,
    List.forall_mem_singleton, Triple.ground_iff]
  rintro (_ | _ | _)
  · exact Triple.ground_iff.1 hs .predicate
  · rfl
  · rfl

end Catalog

/-! ## The law -/

/-- A rule of the catalog, on as many ground statements as it has premises,
derives one triple, the documented conclusion, if the statements are its premises
in the order given; if not, then likewise for the other order; and if they are its
premises in neither order, it fails with the slot at fault, or for two premises
because there is no ordering. It never misses a name, and a predicate of any kind
is a property. -/
theorem the_catalog_derives_what_is_documented {r : Rule} (hr : r ∈ Catalog.all)
    {ss : List Triple} (hs : ∀ s ∈ ss, s.Ground) :
    (∀ n, r.apply ss ≠ .error (.underdetermined n)) ∧
    (ss.length = r.antecedents.length →
      (∀ t, Catalog.Documents r ss t → ∃ t', r.apply ss = .ok [t'] ∧ t' ≈ t) ∧
      ((¬ ∃ t, Catalog.Documents r ss t) →
        (∀ t, Catalog.Documents r ss.reverse t → ∃ t', r.apply ss = .ok [t'] ∧ t' ≈ t) ∧
        ((¬ ∃ t, Catalog.Documents r ss.reverse t) → ∃ e, r.apply ss = .error e ∧
          if ss.length = 2 then e = .noOrdering else ∃ fault : SlotFault, e = fault.error))) ∧
    ∀ s, s.Ground → Catalog.rdf1.apply [s] = .ok [⟨s.predicate, Rdf.type, Rdf.Property⟩] := by
  refine ⟨Catalog.apply_ne_underdetermined hr hs, fun hlen => ⟨fun t ht => ?_, fun hn => ?_⟩,
    fun s => Catalog.rdf1_apply⟩
  · obtain ⟨σ, hmatches⟩ := (Catalog.matches_of_documents hr).1 ⟨t, ht⟩
    obtain ⟨b, hb, hfits⟩ := Rule.solve_of_matches (Catalog.length_antecedents r hr)
      (Rule.ranked_of_pairwise_le (Catalog.antecedents_pairwise_le r hr)) hs hlen hmatches
    exact Catalog.apply_of_fits hr hs hb hfits ht
  · rw [Catalog.matches_of_documents hr, not_exists] at hn
    refine ⟨fun t ht => ?_, fun hn' => ?_⟩
    · obtain ⟨σ, hmatches⟩ := (Catalog.matches_of_documents hr).1 ⟨t, ht⟩
      obtain ⟨b, hb, hfits⟩ := Rule.solve_of_matches_reverse (Catalog.length_antecedents r hr)
        (Rule.ranked_of_pairwise_le (Catalog.antecedents_pairwise_le r hr)) hs hlen hn hmatches
      exact Catalog.apply_of_fits hr hs hb hfits ht
    · rw [Catalog.matches_of_documents hr, not_exists] at hn'
      obtain ⟨e, he, hclass⟩ := Rule.solve_of_not_matches (Catalog.length_antecedents r hr)
        (Rule.ranked_of_pairwise_le (Catalog.antecedents_pairwise_le r hr)) hs hlen hn hn'
      exact ⟨e, Rule.apply_of_solve_error he, hclass⟩

/-- Two domains of `rdfs:domain` itself are premises of `rdfs2` in both orders, and
the order given counts. A type and its subclass, which spell the class in two ways,
are premises of `rdfs9` in the other order only. Two subclasses that do not meet are
premises of `rdfs11` in neither. -/
theorem a_domain_of_domain_is_read_in_the_order_given :
    ∃ domain₁ domain₂ type subclass apart : Triple,
      domain₁ = ⟨Rdfs.domain, Rdfs.domain, .iri "x:A"⟩ ∧
      domain₂ = ⟨Rdfs.domain, Rdfs.domain, .iri "x:B"⟩ ∧
      type = ⟨.iri "x:tom", Rdf.type, .literal "cat" (.language "EN")⟩ ∧
      subclass = ⟨.literal "cat" (.language "en"), Rdfs.subClassOf, .iri "x:Animal"⟩ ∧
      apart = ⟨.iri "x:c", Rdfs.subClassOf, .iri "x:d"⟩ ∧
      (∀ s ∈ [domain₁, domain₂, type, subclass, apart], s.Ground) ∧
      Catalog.Documents Catalog.rdfs2 [domain₁, domain₂] ⟨Rdfs.domain, Rdf.type, .iri "x:A"⟩ ∧
      Catalog.Documents Catalog.rdfs2 [domain₂, domain₁] ⟨Rdfs.domain, Rdf.type, .iri "x:B"⟩ ∧
      (∃ t, Catalog.rdfs2.apply [domain₁, domain₂] = .ok [t] ∧
        t ≈ ⟨Rdfs.domain, Rdf.type, .iri "x:A"⟩) ∧
      (¬ ∃ t, Catalog.Documents Catalog.rdfs9 [type, subclass] t) ∧
      (∃ t, Catalog.rdfs9.apply [type, subclass] = .ok [t] ∧
        t ≈ ⟨.iri "x:tom", Rdf.type, .iri "x:Animal"⟩) ∧
      (∃ e, Catalog.rdfs11.apply [subclass, apart] = .error e ∧ e = .noOrdering) := by
  let domain₁ : Triple := ⟨Rdfs.domain, Rdfs.domain, .iri "x:A"⟩
  let domain₂ : Triple := ⟨Rdfs.domain, Rdfs.domain, .iri "x:B"⟩
  let type : Triple := ⟨.iri "x:tom", Rdf.type, .literal "cat" (.language "EN")⟩
  let subclass : Triple := ⟨.literal "cat" (.language "en"), Rdfs.subClassOf, .iri "x:Animal"⟩
  let apart : Triple := ⟨.iri "x:c", Rdfs.subClassOf, .iri "x:d"⟩
  have hground : ∀ s ∈ [domain₁, domain₂, type, subclass, apart], s.Ground := by decide
  have hground₂ : ∀ s ∈ [domain₁, domain₂], s.Ground := by decide
  have hground₉ : ∀ s ∈ [type, subclass], s.Ground := by decide
  have hground₁₁ : ∀ s ∈ [subclass, apart], s.Ground := by decide
  have hdomains := (the_catalog_derives_what_is_documented (r := Catalog.rdfs2) (by decide)
    hground₂).2.1 rfl
  have htype := (the_catalog_derives_what_is_documented (r := Catalog.rdfs9) (by decide)
    hground₉).2.1 rfl
  have hapart := (the_catalog_derives_what_is_documented (r := Catalog.rdfs11) (by decide)
    hground₁₁).2.1 rfl
  have hgiven : Catalog.Documents Catalog.rdfs2 [domain₁, domain₂]
      ⟨Rdfs.domain, Rdf.type, .iri "x:A"⟩ :=
    ⟨_, _, .rdfs2 _ (.iri "x:A") Rdfs.domain (.iri "x:B"),
      .cons (Setoid.refl _) (.cons (Setoid.refl _) .nil), Setoid.refl _⟩
  have hother : Catalog.Documents Catalog.rdfs2 [domain₂, domain₁]
      ⟨Rdfs.domain, Rdf.type, .iri "x:B"⟩ :=
    ⟨_, _, .rdfs2 _ (.iri "x:B") Rdfs.domain (.iri "x:A"),
      .cons (Setoid.refl _) (.cons (Setoid.refl _) .nil), Setoid.refl _⟩
  have hnot : ¬ ∃ t, Catalog.Documents Catalog.rdfs9 [type, subclass] t := by
    rw [Catalog.matches_of_documents (by decide)]
    rintro ⟨σ, hmatches⟩
    obtain ⟨hsub, -⟩ := (Rule.matches_two rfl).1 hmatches
    have hpred : Rdfs.subClassOf ≈ Rdf.type := Triple.equiv_iff.1 hsub .predicate
    exact absurd hpred (by decide)
  have hswapped : Catalog.Documents Catalog.rdfs9 [subclass, type]
      ⟨.iri "x:tom", Rdf.type, .iri "x:Animal"⟩ :=
    ⟨_, _, .rdfs9 (.literal "cat" (.language "en")) (.iri "x:Animal") (.iri "x:tom"),
      .cons (by decide) (.cons (by decide) .nil), Setoid.refl _⟩
  have hneither : ∀ s s' : Triple, ¬ s.object ≈ s'.subject →
      ¬ ∃ t, Catalog.Documents Catalog.rdfs11 [s, s'] t := by
    intro s s' hapart
    rw [Catalog.matches_of_documents (by decide)]
    rintro ⟨σ, hmatches⟩
    obtain ⟨hs, hs'⟩ := (Rule.matches_two rfl).1 hmatches
    have hend : σ .vvv ≈ s.object := Triple.equiv_iff.1 hs .object
    have hstart : σ .vvv ≈ s'.subject := Triple.equiv_iff.1 hs' .subject
    exact hapart (Setoid.trans (Setoid.symm hend) hstart)
  exact ⟨domain₁, domain₂, type, subclass, apart, rfl, rfl, rfl, rfl, rfl, hground, hgiven, hother,
    hdomains.1 _ hgiven, hnot, (htype.2 hnot).1 _ hswapped,
    (hapart.2 (hneither _ _ (by decide))).2 (hneither _ _ (by decide))⟩

end RdfEntailment
