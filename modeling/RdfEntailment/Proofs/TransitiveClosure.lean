-- The law of transitivity. Calls of `rdfs11`, one after the other on what is there
-- and on what they derive, join two terms by the subclass relation exactly when a
-- chain of triples of the initial store leads from one to the other, and so for
-- `rdfs5` and the sub-property relation.
import Mathlib.Logic.Relation
import RdfEntailment.Proofs.Instances

namespace RdfEntailment

open Relation

theorem Name.subst_var (n : Name) (b : Bindings) : n.var.subst b = Bindings.toAssignment b n := by
  simp [Name.var, Term.subst, Bindings.toAssignment]

/-! ## Links and chains -/

namespace Store

/-- A triple of the store leads from one term to the other, by this property. -/
def Links (s : Store) (p x z : Term) : Prop := s.Holds ⟨x, p, z⟩

/-- What calls of a rule on two triples make of a store. What a call derives goes to
the end of the store, held already or not. -/
inductive Calls (r : Rule) (s : Store) : Store → Prop where
  | start : Calls r s s
  | call {u : Store} {t₁ t₂ : Triple} {ts : List Triple} (h : Calls r s u) (h₁ : t₁ ∈ u)
      (h₂ : t₂ ∈ u) (ha : r.apply [t₁, t₂] = .ok ts) : Calls r s (u ++ ts)

variable {s : Store} {p x x' y z z' : Term}

theorem Links.congr (h : s.Links p x z) (hx : x ≈ x') (hz : z ≈ z') : s.Links p x' z' := by
  refine Holds.congr h (Triple.equiv_iff.2 ?_)
  rintro (_ | _ | _)
  · exact hx
  · exact Setoid.refl p
  · exact hz

theorem chain_congr (h : TransGen (s.Links p) x z) (hx : x ≈ x') (hz : z ≈ z') :
    TransGen (s.Links p) x' z' := by
  obtain ⟨y, hxy, hyz⟩ := TransGen.head'_iff.1 h
  have hleft : TransGen (s.Links p) x' z :=
    TransGen.head'_iff.2 ⟨y, hxy.congr hx (Setoid.refl y), hyz⟩
  obtain ⟨w, hxw, hwz⟩ := TransGen.tail'_iff.1 hleft
  exact TransGen.tail'_iff.2 ⟨w, hxw, hwz.congr (Setoid.refl w) hz⟩

end Store

/-! ## One call -/

/-- The rule says of a property that it is transitive. -/
structure Rule.Transitive (r : Rule) (p : Term) : Prop where
  antecedents : r.antecedents = [⟨Name.uuu.var, p, Name.vvv.var⟩, ⟨Name.vvv.var, p, Name.xxx.var⟩]
  consequents : r.consequents = [⟨Name.uuu.var, p, Name.xxx.var⟩]
  constant : p.name? = none

theorem Catalog.rdfs11_transitive : rdfs11.Transitive Rdfs.subClassOf := ⟨rfl, rfl, rfl⟩

theorem Catalog.rdfs5_transitive : rdfs5.Transitive Rdfs.subPropertyOf := ⟨rfl, rfl, rfl⟩

namespace Rule.Transitive

variable {r : Rule} {p x y z : Term}

theorem holds_antecedents_iff (h : r.Transitive p) {s : Store} {σ : Assignment} :
    (∀ a ∈ r.antecedents, s.Holds (a.assign σ)) ↔
      s.Links p (σ .uuu) (σ .vvv) ∧ s.Links p (σ .vvv) (σ .xxx) := by
  rw [h.antecedents, List.forall_mem_cons, List.forall_mem_singleton]
  simp only [Triple.assign, Triple.map, Term.assign_of_ground h.constant]
  rfl

theorem concludes_iff (h : r.Transitive p) {σ : Assignment} {t : Triple} :
    r.Concludes σ t ↔ ⟨σ .uuu, p, σ .xxx⟩ ≈ t := by
  have hc : Triple.assign ⟨Name.uuu.var, p, Name.xxx.var⟩ σ = ⟨σ .uuu, p, σ .xxx⟩ := by
    simp only [Triple.assign, Triple.map, Term.assign_of_ground h.constant]
    rfl
  simp [Rule.Concludes, h.consequents, hc]

theorem not_underdetermined (h : r.Transitive p) : ¬ r.Underdetermined := by
  simp [Rule.Underdetermined, h.antecedents, h.consequents, Triple.names, Triple.terms, h.constant,
    Name.var]

/-- Two links that meet are joined by a call on the two triples they come from. -/
theorem exists_apply (h : r.Transitive p) {s : Store} (hs : ∀ t ∈ s, t.Ground)
    (hxy : s.Links p x y) (hyz : s.Links p y z) :
    ∃ t₁ ∈ s, ∃ t₂ ∈ s, ∃ ts, r.apply [t₁, t₂] = .ok ts ∧ Store.Holds ts ⟨x, p, z⟩ := by
  have htwo : r.antecedents.length = 2 := by simp [h.antecedents]
  let σ : Assignment
    | .uuu => x
    | .vvv => y
    | _ => z
  obtain ⟨premises, b, hlen, hp, hsolve, hfits⟩ := Rule.solve_ground_complete (Or.inr htwo) hs
    ((h.holds_antecedents_iff (σ := σ)).2 ⟨hxy, hyz⟩)
  obtain ⟨t₁, t₂, rfl⟩ := List.length_eq_two.1 (hlen.trans htwo)
  rcases Rule.apply_ground (fun t ht => hs t (hp t ht)) hsolve with ⟨hu, -⟩ | ⟨-, ts, hts, hinst⟩
  · exact absurd hu h.not_underdetermined
  · refine ⟨t₁, hp t₁ (by simp), t₂, hp t₂ (by simp), ts, hts, ?_⟩
    exact (hinst σ hfits _).2 (h.concludes_iff.2 (Setoid.refl _))

/-- What a call derives is a ground triple of the property, which joins two links
that meet. -/
theorem links_of_apply (h : r.Transitive p) {t₁ t₂ t : Triple} {ts : List Triple}
    (hs : ∀ t ∈ [t₁, t₂], t.Ground) (ha : r.apply [t₁, t₂] = .ok ts) (ht : t ∈ ts) :
    t.Ground ∧ t.predicate = p ∧
      ∃ y, Store.Links [t₁, t₂] p t.subject y ∧ Store.Links [t₁, t₂] p y t.object := by
  obtain ⟨b, hb, hground, rfl⟩ := Rule.apply_eq_ok_iff.1 ha
  obtain ⟨-, -, hsound⟩ := Rule.solve_ground_sound hs hb
  have hlinks := h.holds_antecedents_iff.1 fun a ha => by
    obtain ⟨s, hmem, heq⟩ := hsound a ha
    exact ⟨s, hmem, Setoid.symm heq⟩
  obtain ⟨c, hc, rfl⟩ := List.mem_map.1 ht
  refine ⟨hground c hc, ?_⟩
  rw [h.consequents, List.mem_singleton] at hc
  subst c
  refine ⟨Term.subst_of_ground h.constant, Bindings.toAssignment b .vvv, ?_⟩
  simp only [Triple.subst, Triple.map, Name.subst_var]
  exact hlinks

end Rule.Transitive

/-! ## Any number of calls -/

namespace Store

variable {r : Rule} {p x z : Term} {s u : Store}

/-- What calls have added: ground triples of the property, each along a chain of the
store. -/
structure Joined (p : Term) (s : Store) (t : Triple) : Prop where
  ground : t.Ground
  predicate : t.predicate = p
  chain : TransGen (s.Links p) t.subject t.object

/-- A link of the grown store is a chain of the store at the start. -/
theorem chain_of_links {ts : List Triple} (hts : ∀ t ∈ ts, Joined p s t)
    (h : Links (s ++ ts) p x z) : TransGen (s.Links p) x z := by
  obtain ⟨t, ht, heq⟩ := h
  rcases List.mem_append.1 ht with ht | ht
  · exact .single ⟨t, ht, heq⟩
  · have hends := Triple.equiv_iff.1 heq
    exact chain_congr (hts t ht).chain (hends .subject) (hends .object)

theorem ground_append {ts : List Triple} (hs : ∀ t ∈ s, t.Ground) (hts : ∀ t ∈ ts, Joined p s t) :
    ∀ t ∈ s ++ ts, t.Ground :=
  List.forall_mem_append.2 ⟨hs, fun t ht => (hts t ht).ground⟩

-- By induction on the calls. A call joins two links of the grown store, and each of
-- them is a chain already.
theorem Calls.joined (hr : r.Transitive p) (hs : ∀ t ∈ s, t.Ground) (h : Calls r s u) :
    ∃ ts, u = s ++ ts ∧ ∀ t ∈ ts, Joined p s t := by
  induction h with
  | start => exact ⟨[], by simp, by simp⟩
  | @call u t₁ t₂ derived _ h₁ h₂ ha ih =>
    obtain ⟨ts, rfl, hts⟩ := ih
    have hpremise : ∀ t ∈ [t₁, t₂], t ∈ s ++ ts :=
      List.forall_mem_cons.2 ⟨h₁, List.forall_mem_singleton.2 h₂⟩
    have hground : ∀ t ∈ [t₁, t₂], t.Ground := fun t ht => ground_append hs hts t (hpremise t ht)
    have hchain : ∀ {x z}, Links [t₁, t₂] p x z → TransGen (s.Links p) x z := by
      rintro x z ⟨t, ht, heq⟩
      exact chain_of_links hts ⟨t, hpremise t ht, heq⟩
    refine ⟨ts ++ derived, List.append_assoc .., fun t ht => ?_⟩
    rcases List.mem_append.1 ht with ht | ht
    · exact hts t ht
    · obtain ⟨hg, hpred, y, hxy, hyz⟩ := hr.links_of_apply hground ha ht
      exact ⟨hg, hpred, (hchain hxy).trans (hchain hyz)⟩

theorem Calls.ground (hr : r.Transitive p) (hs : ∀ t ∈ s, t.Ground) (h : Calls r s u) :
    ∀ t ∈ u, t.Ground := by
  obtain ⟨ts, rfl, hts⟩ := h.joined hr hs
  exact ground_append hs hts

-- By induction on the chain. What joins all its links but the last is there after
-- some calls, and one call more joins the last one to it.
theorem exists_calls_of_chain (hr : r.Transitive p) (hs : ∀ t ∈ s, t.Ground)
    (h : TransGen (s.Links p) x z) : ∃ u, Calls r s u ∧ u.Links p x z := by
  induction h with
  | single hxz => exact ⟨s, .start, hxz⟩
  | tail _ hyz ih =>
    obtain ⟨u, hcalls, hxy⟩ := ih
    obtain ⟨ts, rfl, -⟩ := hcalls.joined hr hs
    obtain ⟨t₁, h₁, t₂, h₂, derived, ha, hxz⟩ :=
      hr.exists_apply (hcalls.ground hr hs) hxy (hyz.append ts)
    obtain ⟨t, ht, heq⟩ := hxz
    exact ⟨_, hcalls.call h₁ h₂ ha, t, List.mem_append_right _ ht, heq⟩

end Store

open Store

/-- Calls of `rdfs11` on pairs of triples, and on what they derive, join two terms
exactly when a chain of subclass triples of the store leads from one to the other,
and derive triples of no other property. So do calls of `rdfs5` for sub-properties. -/
theorem calls_join_what_chains_join {r : Rule} {p : Term}
    (hrp : r = Catalog.rdfs11 ∧ p = Rdfs.subClassOf ∨ r = Catalog.rdfs5 ∧ p = Rdfs.subPropertyOf)
    {s : Store} (hs : ∀ t ∈ s, t.Ground) :
    (∀ x z, (∃ u, Calls r s u ∧ u.Holds ⟨x, p, z⟩) ↔ TransGen (s.Links p) x z) ∧
    ∀ u, Calls r s u → ∃ ts, u = s ++ ts ∧ ∀ t ∈ ts, t.predicate = p := by
  have hr : r.Transitive p := by
    rcases hrp with ⟨rfl, rfl⟩ | ⟨rfl, rfl⟩
    · exact Catalog.rdfs11_transitive
    · exact Catalog.rdfs5_transitive
  refine ⟨fun x z => ⟨?_, exists_calls_of_chain hr hs⟩, fun u h => ?_⟩
  · rintro ⟨u, h, hxz⟩
    obtain ⟨ts, rfl, hts⟩ := h.joined hr hs
    exact chain_of_links hts hxz
  · obtain ⟨ts, rfl, hts⟩ := h.joined hr hs
    exact ⟨ts, rfl, fun t ht => (hts t ht).predicate⟩

/-- A cycle of two subclasses, one of them spelled in three ways, and a third class
above them. The other class of the cycle is joined to itself and to the third one,
which is not joined to it. -/
theorem a_cycle_of_spellings_is_joined_to_the_class_above :
    ∃ s : Store,
      s = [⟨.literal "cat" (.language "en"), Rdfs.subClassOf, .iri "x:Pet"⟩,
        ⟨.iri "x:Pet", Rdfs.subClassOf, .literal "cat" (.language "EN")⟩,
        ⟨.literal "cat" (.language "eN"), Rdfs.subClassOf, .iri "x:Animal"⟩] ∧
      (∀ t ∈ s, t.Ground) ∧
      (∃ u, Calls Catalog.rdfs11 s u ∧ u.Holds ⟨.iri "x:Pet", Rdfs.subClassOf, .iri "x:Animal"⟩) ∧
      (∃ u, Calls Catalog.rdfs11 s u ∧ u.Holds ⟨.iri "x:Pet", Rdfs.subClassOf, .iri "x:Pet"⟩) ∧
      (¬ ∃ u, Calls Catalog.rdfs11 s u ∧
        u.Holds ⟨.iri "x:Animal", Rdfs.subClassOf, .iri "x:Pet"⟩) ∧
      ∀ u, Calls Catalog.rdfs11 s u → ∃ ts, u = s ++ ts ∧
        ∀ t ∈ ts, t.predicate = Rdfs.subClassOf := by
  let s : Store := [⟨.literal "cat" (.language "en"), Rdfs.subClassOf, .iri "x:Pet"⟩,
    ⟨.iri "x:Pet", Rdfs.subClassOf, .literal "cat" (.language "EN")⟩,
    ⟨.literal "cat" (.language "eN"), Rdfs.subClassOf, .iri "x:Animal"⟩]
  have hs : ∀ t ∈ s, t.Ground := by decide
  obtain ⟨hjoins, hpredicate⟩ := calls_join_what_chains_join (Or.inl ⟨rfl, rfl⟩) hs
  have hpet : s.Links Rdfs.subClassOf (.iri "x:Pet") (.literal "cat" (.language "en")) := by
    unfold Links
    decide
  have hcat : s.Links Rdfs.subClassOf (.literal "cat" (.language "en")) (.iri "x:Pet") := by
    unfold Links
    decide
  have hanimal : s.Links Rdfs.subClassOf (.literal "cat" (.language "en")) (.iri "x:Animal") := by
    unfold Links
    decide
  refine ⟨s, rfl, hs, (hjoins _ _).2 (.tail (.single hpet) hanimal),
    (hjoins _ _).2 (.tail (.single hpet) hcat), ?_, hpredicate⟩
  rw [hjoins, TransGen.head'_iff]
  rintro ⟨y, ⟨t, ht, heq⟩, -⟩
  have hstart : ∀ t ∈ s, ¬ t.subject ≈ .iri "x:Animal" := by decide
  exact hstart t ht (Triple.equiv_iff.1 heq .subject)

end RdfEntailment
