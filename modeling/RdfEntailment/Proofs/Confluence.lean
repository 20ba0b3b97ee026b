-- The law of confluence. The rules cannot tell equal triples apart, so what
-- one run derives another run derives in its own spelling. A saturated store
-- therefore holds whatever any run from the same start holds.
import RdfEntailment.Catalog
import RdfEntailment.Proofs.Congruence
import RdfEntailment.Proofs.Saturation

namespace RdfEntailment

/-! ## Rules and equal triples -/

theorem Rule.apply_equiv {r : Rule} {ss ss' ts : List Triple} (hs : List.Forall₂ (· ≈ ·) ss ss')
    (h : r.apply ss = .ok ts) : ∃ ts', r.apply ss' = .ok ts' ∧ List.Forall₂ (· ≈ ·) ts ts' := by
  have hrel := Rule.apply_congr (r := r) (List.forall₂_same.2 fun _ _ => Setoid.refl _)
    (List.forall₂_same.2 fun _ _ => Setoid.refl _) hs
  rw [h] at hrel
  generalize r.apply ss' = y at hrel
  cases hrel with
  | ok hts => exact ⟨_, rfl, hts⟩

namespace Store

variable {rules : List Rule} {s u v : Store}

/-! ## What a saturated store holds -/

/-- Premises that a store holds are equal to premises in it. -/
theorem exists_premises {premises : List Triple} (h : ∀ t ∈ premises, s.Holds t) :
    ∃ premises', (∀ t ∈ premises', t ∈ s) ∧ List.Forall₂ (· ≈ ·) premises premises' := by
  induction premises with
  | nil => exact ⟨[], by simp, .nil⟩
  | cons t ts ih =>
    rw [List.forall_mem_cons] at h
    obtain ⟨⟨t', ht', heq⟩, hts⟩ := h
    obtain ⟨ts', hts', hall⟩ := ih hts
    exact ⟨t' :: ts', List.forall_mem_cons.2 ⟨ht', hts'⟩, .cons (Setoid.symm heq) hall⟩

theorem Saturated.holds_of_apply {r : Rule} {premises ts : List Triple} (hv : Saturated rules v)
    (hr : r ∈ rules) (hp : ∀ t ∈ premises, v.Holds t) (ha : r.apply premises = .ok ts) :
    ∀ t ∈ ts, v.Holds t := by
  obtain ⟨premises', hp', hall⟩ := exists_premises hp
  obtain ⟨ts', ha', hts⟩ := Rule.apply_equiv hall ha
  have hheld := hv r hr premises' hp' ts' ha'
  clear ha ha'
  induction hts with
  | nil => simp
  | @cons t t' ts ts' heq hts ih =>
    rw [List.forall_mem_cons] at hheld ⊢
    exact ⟨hheld.1.congr (Setoid.symm heq), ih hheld.2⟩

theorem Saturated.holds_of_step (hv : Saturated rules v) (hs : ∀ t ∈ s, v.Holds t)
    (h : Step rules s u) : ∀ t ∈ u, v.Holds t := by
  obtain ⟨hr, hp, ha⟩ := h
  have hts := hv.holds_of_apply hr (fun t ht => hs t (hp t ht)) ha
  intro t ht
  rw [List.mem_append] at ht
  rcases ht with ht | ht
  · exact hs t ht
  · exact hts t ((fresh_sublist ..).mem ht)

-- By induction on the run. The saturated store stays as it is.
theorem Saturated.holds_of_reaches (hv : Saturated rules v) (hs : ∀ t ∈ s, v.Holds t)
    (h : Reaches rules s u) : ∀ t ∈ u, v.Holds t := by
  induction h with
  | refl => exact hs
  | tail _ hstep ih => exact hv.holds_of_step ih hstep

/-- A saturated run holds all that another run from the same store holds. -/
theorem Saturated.holds_of_runs (hv : Saturated rules v) (hsv : Reaches rules s v)
    (hsu : Reaches rules s u) {t : Triple} (ht : u.Holds t) : v.Holds t := by
  have hs : ∀ t ∈ s, v.Holds t := by
    obtain ⟨ts, rfl⟩ := hsv.append
    exact fun t ht => holds_of_mem (List.mem_append_left _ ht)
  obtain ⟨t', ht', heq⟩ := ht
  exact (hv.holds_of_reaches hs hsu t' ht').congr heq

end Store

open Store

/-- Two runs from one store that both end saturated hold the same triples, up
to equality, whatever they did in whatever order. -/
theorem saturated_runs_agree {rules : List Rule} {s u v : Store} (hsu : Reaches rules s u)
    (hu : Saturated rules u) (hsv : Reaches rules s v) (hv : Saturated rules v) (t : Triple) :
    u.Holds t ↔ v.Holds t :=
  ⟨hv.holds_of_runs hsv hsu, hu.holds_of_runs hsu hsv⟩

/-- A greeting is spelled twice. Each run carries another spelling of it over
to the super-property: the two stores differ, but hold the same triples. -/
theorem two_spellings_of_a_greeting_agree :
    ∃ u v : Store, u ≠ v ∧
      Reaches [Catalog.rdfs7] [⟨.iri "x:greets", Rdfs.subPropertyOf, .iri "x:says"⟩,
        ⟨.iri "x:tom", .iri "x:greets", .literal "hi" (.language "en")⟩,
        ⟨.iri "x:tom", .iri "x:greets", .literal "hi" (.language "EN")⟩] u ∧
      Saturated [Catalog.rdfs7] u ∧
      Reaches [Catalog.rdfs7] [⟨.iri "x:greets", Rdfs.subPropertyOf, .iri "x:says"⟩,
        ⟨.iri "x:tom", .iri "x:greets", .literal "hi" (.language "en")⟩,
        ⟨.iri "x:tom", .iri "x:greets", .literal "hi" (.language "EN")⟩] v ∧
      Saturated [Catalog.rdfs7] v ∧
      ∀ t, u.Holds t ↔ v.Holds t := by
  have hlower : Catalog.rdfs7.apply [⟨.iri "x:greets", Rdfs.subPropertyOf, .iri "x:says"⟩,
      ⟨.iri "x:tom", .iri "x:greets", .literal "hi" (.language "en")⟩] =
      .ok [⟨.iri "x:tom", .iri "x:says", .literal "hi" (.language "en")⟩] :=
    Rule.apply_of_declared (by decide) _
  have hupper : Catalog.rdfs7.apply [⟨.iri "x:greets", Rdfs.subPropertyOf, .iri "x:says"⟩,
      ⟨.iri "x:tom", .iri "x:greets", .literal "hi" (.language "EN")⟩] =
      .ok [⟨.iri "x:tom", .iri "x:says", .literal "hi" (.language "EN")⟩] :=
    Rule.apply_of_declared (by decide) _
  let s : Store := [⟨.iri "x:greets", Rdfs.subPropertyOf, .iri "x:says"⟩,
    ⟨.iri "x:tom", .iri "x:greets", .literal "hi" (.language "en")⟩,
    ⟨.iri "x:tom", .iri "x:greets", .literal "hi" (.language "EN")⟩]
  let u : Store := s ++ [⟨.iri "x:tom", .iri "x:says", .literal "hi" (.language "en")⟩]
  let v : Store := s ++ [⟨.iri "x:tom", .iri "x:says", .literal "hi" (.language "EN")⟩]
  have hsu : Reaches [Catalog.rdfs7] s u :=
    Reaches.refl.tail (.fire (List.mem_singleton_self _) (by decide) hlower)
  have hsv : Reaches [Catalog.rdfs7] s v :=
    Reaches.refl.tail (.fire (List.mem_singleton_self _) (by decide) hupper)
  have happly : Catalog.rdfs7.apply = _ := funext (Rule.apply_of_declared (by decide))
  have hends : ∀ w ∈ [u, v], Saturated [Catalog.rdfs7] w := by
    simp only [saturated_iff_sweeps_add_nothing, List.forall_mem_singleton]
    unfold sweep sweepTuple
    rw [happly]
    decide
  have hu := hends u (by simp)
  have hv := hends v (by simp)
  exact ⟨u, v, by decide, hsu, hu, hsv, hv, saturated_runs_agree hsu hu hsv hv⟩

end RdfEntailment
