-- The law of termination. Every triple that a run adds is made of terms that
-- the initial store and the consequents of the rules hold, and no two of them
-- are equal. There are only so many such triples: a run adds no more of them
-- than that, and it can always go on to a saturated store.
import Mathlib.Data.Finset.Prod
import Mathlib.Tactic.Ring
import RdfEntailment.Catalog
import RdfEntailment.Chaining
import RdfEntailment.Proofs.Provenance

namespace RdfEntailment

/-! ## Counting up to equality -/

/-- The classes of equal terms in a list. -/
def Term.classes (terms : List Term) : Finset (Quotient Term.setoid) :=
  (terms.map (Quotient.mk Term.setoid)).toFinset

theorem Term.mk_mem_classes {terms : List Term} {x : Term} (h : x ∈ terms) :
    Quotient.mk Term.setoid x ∈ Term.classes terms :=
  List.mem_toFinset.2 (List.mem_map_of_mem h)

/-- The classes of the three slots. -/
def Triple.classes (t : Triple) :
    Quotient Term.setoid × Quotient Term.setoid × Quotient Term.setoid :=
  (.mk _ t.subject, .mk _ t.predicate, .mk _ t.object)

theorem Triple.equiv_of_classes_eq {t u : Triple} (h : t.classes = u.classes) : t ≈ u := by
  simp only [Triple.classes, Prod.mk.injEq, Quotient.eq] at h
  rw [Triple.equiv_iff]
  intro p
  cases p
  · exact h.1
  · exact h.2.1
  · exact h.2.2

/-- Of `k` different terms, at most `k ^ 3` different triples can be made. -/
theorem Triple.length_le_of_distinct {terms : List Term} {ts : List Triple}
    (hdistinct : ts.Pairwise fun t u => ¬ t ≈ u) (hterms : ∀ t ∈ ts, ∀ x ∈ t.terms, x ∈ terms) :
    ts.length ≤ (Term.classes terms).card ^ 3 := by
  have hnodup : (ts.map Triple.classes).Nodup := by
    rw [List.Nodup, List.pairwise_map]
    exact hdistinct.imp fun hne heq => hne (Triple.equiv_of_classes_eq heq)
  have hsub : (ts.map Triple.classes).toFinset ⊆
      Term.classes terms ×ˢ Term.classes terms ×ˢ Term.classes terms := by
    intro c hc
    obtain ⟨t, ht, rfl⟩ := List.mem_map.1 (List.mem_toFinset.1 hc)
    have hslot : ∀ x ∈ t.terms, Quotient.mk Term.setoid x ∈ Term.classes terms :=
      fun x hx => Term.mk_mem_classes (hterms t ht x hx)
    simp only [Finset.mem_product, Triple.classes]
    exact ⟨hslot _ (by simp [Triple.terms]), hslot _ (by simp [Triple.terms]),
      hslot _ (by simp [Triple.terms])⟩
  calc ts.length = (ts.map Triple.classes).toFinset.card := by
        rw [List.toFinset_card_of_nodup hnodup, List.length_map]
    _ ≤ (Term.classes terms ×ˢ Term.classes terms ×ˢ Term.classes terms).card :=
        Finset.card_le_card hsub
    _ = (Term.classes terms).card ^ 3 := by
        rw [Finset.card_product, Finset.card_product]
        ring

namespace Store

variable {rules : List Rule} {s u : Store} {ts : List Triple}

/-! ## What is fresh -/

theorem not_holds_of_mem_fresh {t : Triple} (h : t ∈ s.fresh ts) : ¬ s.Holds t := by
  induction ts generalizing s with
  | nil => cases h
  | cons v ts ih =>
    unfold fresh at h
    split at h
    · exact ih h
    · rename_i hv
      rcases List.mem_cons.1 h with rfl | h
      · exact hv
      · exact fun hs => ih h (hs.append [v])

theorem fresh_pairwise (s : Store) (ts : List Triple) :
    (s.fresh ts).Pairwise fun t u => ¬ t ≈ u := by
  induction ts generalizing s with
  | nil => exact .nil
  | cons t ts ih =>
    unfold fresh
    split
    · exact ih s
    · refine .cons (fun u hu heq => ?_) (ih _)
      exact not_holds_of_mem_fresh hu ⟨t, by simp, heq⟩

/-! ## What a run has added -/

/-- The terms that a run can use: the slots of the triples at the start, and
the slots of consequents that hold no placeholder. -/
def sources (rules : List Rule) (s : Store) : List Term :=
  s.flatMap Triple.terms ++ rules.flatMap Rule.constants

/-- The invariant of what has been added to the store: it is made of the
sources, and no two of its triples are equal. -/
structure Grown (rules : List Rule) (s : Store) (ts : List Triple) : Prop where
  known : ∀ t ∈ ts, ∀ x ∈ t.terms, x ∈ sources rules s
  distinct : ts.Pairwise fun t u => ¬ t ≈ u

theorem Grown.mem_sources (h : Grown rules s ts) {t : Triple} (ht : t ∈ s ++ ts) {x : Term}
    (hx : x ∈ t.terms) : x ∈ sources rules s := by
  rcases List.mem_append.1 ht with ht | ht
  · exact List.mem_append_left _ (List.mem_flatMap.2 ⟨t, ht, hx⟩)
  · exact h.known t ht x hx

theorem Grown.step (h : Grown rules s ts) (hs : Step rules (s ++ ts) u) :
    ∃ us, u = s ++ us ∧ Grown rules s us := by
  obtain @⟨r, premises, derived, hr, hp, ha⟩ := hs
  refine ⟨ts ++ fresh (s ++ ts) derived, List.append_assoc .., ?_, ?_⟩
  · intro t ht x hx
    rcases List.mem_append.1 ht with ht | ht
    · exact h.known t ht x hx
    · have hderived := (fresh_sublist _ _).mem ht
      rcases Rule.mem_terms_of_apply ha hderived hx with ⟨p, hmem, hxp⟩ | hconst
      · exact h.mem_sources (hp p hmem) hxp
      · exact List.mem_append_right _ (List.mem_flatMap.2 ⟨r, hr, hconst⟩)
  · refine List.pairwise_append.2 ⟨h.distinct, fresh_pairwise _ _, fun t ht v hv heq => ?_⟩
    exact not_holds_of_mem_fresh hv ⟨t, List.mem_append_right _ ht, heq⟩

theorem Reaches.grown (h : Reaches rules s u) : ∃ ts, u = s ++ ts ∧ Grown rules s ts := by
  induction h with
  | refl => exact ⟨[], (List.append_nil s).symm, by simp, .nil⟩
  | tail _ hs ih =>
    obtain ⟨ts, rfl, hgrown⟩ := ih
    exact hgrown.step hs

theorem Grown.length_le (h : Grown rules s ts) :
    ts.length ≤ (Term.classes (sources rules s)).card ^ 3 :=
  Triple.length_le_of_distinct h.distinct h.known

/-! ## Runs end -/

theorem Grown.exists_longer (h : Grown rules s ts) (hsat : ¬ Saturated rules (s ++ ts)) :
    ∃ us, ts.length < us.length ∧ Step rules (s ++ ts) (s ++ us) ∧ Grown rules s us := by
  simp only [Saturated, not_forall] at hsat
  obtain ⟨r, hr, premises, hp, derived, ha, t, ht, hnot⟩ := hsat
  have hstep : Step rules (s ++ ts) (s ++ ts ++ fresh (s ++ ts) derived) := .fire hr hp ha
  obtain ⟨us, heq, hgrown⟩ := h.step hstep
  rw [heq] at hstep
  refine ⟨us, ?_, hstep, hgrown⟩
  have hne : fresh (s ++ ts) derived ≠ [] := by
    intro hnil
    have hheld := holds_append_fresh (s ++ ts) derived t ht
    rw [hnil, List.append_nil] at hheld
    exact hnot hheld
  have hlen := congrArg List.length heq
  simp only [List.length_append] at hlen
  have hpos := List.length_pos_iff.2 hne
  omega

-- By induction on how many triples can still be added. A step that adds some
-- leaves room for fewer.
theorem Grown.exists_saturated (h : Grown rules s ts) (hu : Reaches rules u (s ++ ts)) :
    ∃ v, Reaches rules u v ∧ Saturated rules v := by
  induction hroom : (Term.classes (sources rules s)).card ^ 3 - ts.length
    using Nat.strong_induction_on generalizing ts with
  | _ room ih =>
    by_cases hsat : Saturated rules (s ++ ts)
    · exact ⟨_, hu, hsat⟩
    · obtain ⟨us, hlt, hstep, hgrown⟩ := h.exists_longer hsat
      have hle := hgrown.length_le
      exact ih _ (by omega) hgrown (hu.tail hstep) rfl

end Store

open Store

/-- A run adds triples of terms that the initial store and the consequents of
the rules hold, each spelled as it is there. It adds at most `k ^ 3` of them,
where `k` of these terms are pairwise different, and it can go on to a saturated
store. -/
theorem a_run_invents_no_term_and_ends {rules : List Rule} {s u : Store}
    (h : Reaches rules s u) :
    (∃ ts, u = s ++ ts ∧ (∀ t ∈ ts, ∀ p, t.term p ∈ sources rules s) ∧
      ts.length ≤ (Term.classes (sources rules s)).card ^ 3) ∧
    ∃ v, Reaches rules u v ∧ Saturated rules v := by
  obtain ⟨ts, rfl, hgrown⟩ := h.grown
  refine ⟨⟨ts, rfl, fun t ht p => ?_, hgrown.length_le⟩, hgrown.exists_saturated .refl⟩
  exact hgrown.known t ht _ (Triple.mem_terms.2 ⟨p, rfl⟩)

/-- A use of a property that is known only as a placeholder is stored in two
spellings. The domain of the property makes the subject a person, and then a
resource: two triples, where eight of the terms are pairwise different. -/
theorem an_unnamed_use_adds_a_person_and_a_resource :
    ∃ s u : Store,
      s = [⟨.iri "x:likes", Rdfs.domain, .iri "x:Person"⟩,
        ⟨.iri "x:tom", Name.aaa.var, .literal "Jerry" (.language "en")⟩,
        ⟨.iri "x:tom", Name.aaa.var, .literal "Jerry" (.language "EN")⟩] ∧
      u = s ++ [⟨.iri "x:tom", Rdf.type, .iri "x:Person"⟩,
        ⟨.iri "x:tom", Rdf.type, Rdfs.Resource⟩] ∧
      Reaches [Catalog.rdfs2, Catalog.rdfs4a] s u ∧
      (Term.classes (sources [Catalog.rdfs2, Catalog.rdfs4a] s)).card = 8 ∧
      (∃ ts, u = s ++ ts ∧ (∀ t ∈ ts, ∀ p, t.term p ∈ sources [Catalog.rdfs2, Catalog.rdfs4a] s) ∧
        ts.length ≤ 8 ^ 3) ∧
      ∃ v, Reaches [Catalog.rdfs2, Catalog.rdfs4a] u v ∧
        Saturated [Catalog.rdfs2, Catalog.rdfs4a] v := by
  let s : Store := [⟨.iri "x:likes", Rdfs.domain, .iri "x:Person"⟩,
    ⟨.iri "x:tom", Name.aaa.var, .literal "Jerry" (.language "en")⟩,
    ⟨.iri "x:tom", Name.aaa.var, .literal "Jerry" (.language "EN")⟩]
  let u : Store := s ++ [⟨.iri "x:tom", Rdf.type, .iri "x:Person"⟩,
    ⟨.iri "x:tom", Rdf.type, Rdfs.Resource⟩]
  have hperson : Catalog.rdfs2.apply [⟨.iri "x:likes", Rdfs.domain, .iri "x:Person"⟩,
      ⟨.iri "x:tom", Name.aaa.var, .literal "Jerry" (.language "EN")⟩] =
      .ok [⟨.iri "x:tom", Rdf.type, .iri "x:Person"⟩] := Rule.apply_of_declared (by decide) _
  have hresource : Catalog.rdfs4a.apply [⟨.iri "x:tom", Rdf.type, .iri "x:Person"⟩] =
      .ok [⟨.iri "x:tom", Rdf.type, Rdfs.Resource⟩] := Rule.apply_of_declared (by decide) _
  have hsu : Reaches [Catalog.rdfs2, Catalog.rdfs4a] s u :=
    (Reaches.refl.tail (.fire (by simp) (by decide) hperson)).tail
      (.fire (by simp) (by decide) hresource)
  have hcard : (Term.classes (sources [Catalog.rdfs2, Catalog.rdfs4a] s)).card = 8 := by decide
  have hends := a_run_invents_no_term_and_ends hsu
  rw [hcard] at hends
  exact ⟨s, u, rfl, rfl, hsu, hcard, hends⟩

end RdfEntailment
