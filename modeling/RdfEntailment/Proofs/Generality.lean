-- The law of generality. A triple is as general as it has slots with a placeholder, and of
-- these slots substitution leaves open those whose name has no value, or a placeholder as its
-- value. So no triple becomes more general, and no statement is more general than a pattern
-- that it is read through.
import Mathlib
import RdfEntailment.Proofs.Ground

namespace RdfEntailment

/-! ## Slots that stay open -/

/-- The term holds a name that has no value, or has a placeholder as its value. -/
def Term.OpenUnder (t : Term) (b : Bindings) : Prop :=
  ∃ n ∈ t.name?, ∀ v ∈ b.get? n, v.isPlaceholder

/-- The term holds a name that has a value. -/
def Term.BoundIn (t : Term) (b : Bindings) : Prop := ∃ n ∈ t.name?, b.contains n

instance (t : Term) (b : Bindings) : Decidable (t.OpenUnder b) :=
  inferInstanceAs (Decidable (∃ n ∈ t.name?, ∀ v ∈ b.get? n, v.isPlaceholder))

instance (t : Term) (b : Bindings) : Decidable (t.BoundIn b) :=
  inferInstanceAs (Decidable (∃ n ∈ t.name?, b.contains n))

variable {t : Term} {p s : Triple} {b : Bindings}

theorem Term.isPlaceholder_subst_iff : (t.subst b).isPlaceholder ↔ t.OpenUnder b := by
  unfold OpenUnder
  cases ht : t.name? with
  | none =>
    rw [subst_of_ground ht, ← isSome_name?, ht]
    simp
  | some n =>
    cases hn : b.get? n with
    | none =>
      rw [subst_of_unbound ht hn, ← isSome_name?, ht]
      simp [hn]
    | some v =>
      rw [subst_of_bound ht hn]
      simp [hn]

theorem Term.OpenUnder.isPlaceholder (h : t.OpenUnder b) : t.isPlaceholder := by
  obtain ⟨n, hn, -⟩ := h
  exact isPlaceholder_iff.2 ⟨n, hn⟩

/-- Ground bindings close exactly the slots whose names they bind. -/
theorem Term.boundIn_iff_not_openUnder (hb : b.Ground) :
    t.BoundIn b ↔ t.isPlaceholder ∧ ¬ t.OpenUnder b := by
  unfold BoundIn OpenUnder NameMap.contains
  rw [← isSome_name?]
  cases ht : t.name? with
  | none => simp
  | some n =>
    cases hn : b.get? n with
    | none => simp [hn]
    | some v =>
      have hv : v.isPlaceholder = false := by rw [← isSome_name?, hb n v hn, Option.isSome_none]
      simp [hn, hv]

/-! ## Counting them -/

theorem Triple.generality_subst (p : Triple) (b : Bindings) :
    (p.subst b).generality = p.terms.countP fun t => t.OpenUnder b := by
  rw [generality, subst, terms_map, List.countP_map]
  refine List.countP_congr fun t _ => ?_
  rw [Function.comp_apply, Term.isPlaceholder_subst_iff, decide_eq_true_iff]

theorem Triple.generality_subst_le (p : Triple) (b : Bindings) :
    (p.subst b).generality ≤ p.generality := by
  rw [generality_subst]
  exact List.countP_mono_left fun t _ h => Term.OpenUnder.isPlaceholder (of_decide_eq_true h)

/-- What ground bindings do not close stays open. -/
theorem Triple.generality_subst_add (hb : b.Ground) (p : Triple) :
    (p.subst b).generality + p.terms.countP (fun t => t.BoundIn b) = p.generality := by
  have hopen : p.terms.countP (fun t => t.isPlaceholder && t.OpenUnder b) =
      p.terms.countP fun t => t.OpenUnder b :=
    List.countP_congr fun t _ => by
      simpa using Term.OpenUnder.isPlaceholder
  have hclosed : p.terms.countP (fun t => t.isPlaceholder && !t.OpenUnder b) =
      p.terms.countP fun t => t.BoundIn b :=
    List.countP_congr fun t _ => by
      simp [Term.boundIn_iff_not_openUnder hb]
  rw [generality_subst, generality,
    List.countP_eq_countP_filter_add p.terms Term.isPlaceholder fun t => t.OpenUnder b,
    List.countP_filter, List.countP_filter, hopen, hclosed]

/-! ## Equal triples -/

@[simp] theorem foldCase_foldCase (text : String) : foldCase (foldCase text) = foldCase text := by
  simp [foldCase, Function.comp_def, Char.toLower_toLower_eq_toLower]

@[simp] theorem LiteralType.canonical_canonical (t : LiteralType) :
    t.canonical.canonical = t.canonical := by
  cases t <;> simp [LiteralType.canonical]

@[simp] theorem Term.canonical_canonical (t : Term) : t.canonical.canonical = t.canonical := by
  induction t <;> simp_all [Term.canonical]

theorem Term.canonical_equiv (t : Term) : t.canonical ≈ t := t.canonical_canonical

theorem Triple.generality_canonical (p : Triple) : p.canonical.generality = p.generality := by
  rw [generality, canonical, terms_map, List.countP_map, generality]
  congr 1
  funext t
  rw [Function.comp_apply, Term.isPlaceholder, Term.placeholder?_congr t.canonical_equiv,
    Term.isPlaceholder]

theorem Triple.generality_congr (h : p ≈ s) : p.generality = s.generality := by
  rw [← p.generality_canonical, Triple.equiv_iff_canonical.1 h, s.generality_canonical]

/-! ## The law -/

/-- The slots that are open after substitution are those that hold a name with no value or with
a placeholder as its value, so a triple never becomes more general. Ground bindings close the
slots whose names they bind. Generality and specificity share out the three slots, and all three
ways to look for a placeholder agree whether there is one. A pattern that has read a statement
becomes as general as the statement, which is no more general than the pattern. -/
theorem substitution_never_generalizes (p : Triple) (b : Bindings) :
    ((p.subst b).generality = p.terms.countP fun t => t.OpenUnder b) ∧
    (p.subst b).generality ≤ p.generality ∧
    (b.Ground →
      (p.subst b).generality + p.terms.countP (fun t => t.BoundIn b) = p.generality) ∧
    (p.generality ≤ 3 ∧ p.generality + p.specificity = 3) ∧
    ((p.hasPlaceholder ↔ 0 < p.generality) ∧ (p.firstName?.isSome ↔ 0 < p.generality)) ∧
    ∀ s, p.unify s = .ok b →
      (p.subst b).generality = s.generality ∧ s.generality ≤ p.generality := by
  refine ⟨p.generality_subst b, p.generality_subst_le b, fun hb => Triple.generality_subst_add hb p,
    ⟨p.generality_le, p.generality_add_specificity⟩,
    ⟨Triple.hasPlaceholder_iff, by rw [p.isSome_firstName?, Triple.hasPlaceholder_iff]⟩,
    fun s hs => ?_⟩
  have hsame : (p.subst b).generality = s.generality :=
    Triple.generality_congr (Triple.subst_unify hs)
  exact ⟨hsame, hsame ▸ p.generality_subst_le b⟩

/-- Ground bindings close the two slots of the name that they bind, and do nothing for a name
that the pattern does not hold. A statement that is still templated closes one slot only, since
the placeholder that it has for a name stays open in both slots of that name. -/
theorem a_templated_statement_leaves_its_slots_open :
    ∃ (p s : Triple) (g b : Bindings),
      p = ⟨Name.uuu.var, Name.aaa.toTerm .literal, Name.uuu.toTerm .blankNode⟩ ∧
      s = ⟨Name.xxx.var, .iri "x:likes", Name.xxx.var⟩ ∧
      g = NameMap.ofList [(.uuu, .iri "x:tom"), (.zzz, .iri "x:jerry")] ∧
      p.generality = 3 ∧ g.Ground ∧ (p.subst g).generality = 1 ∧
      p.terms.countP (fun t => t.BoundIn g) = 2 ∧
      (p.subst g).generality + p.terms.countP (fun t => t.BoundIn g) = p.generality ∧
      p.unify s = .ok b ∧ ¬ b.Ground ∧ (p.subst b).generality = s.generality ∧
      s.generality = 2 ∧ s.generality ≤ p.generality := by
  let p : Triple := ⟨Name.uuu.var, Name.aaa.toTerm .literal, Name.uuu.toTerm .blankNode⟩
  let s : Triple := ⟨Name.xxx.var, .iri "x:likes", Name.xxx.var⟩
  let g : Bindings := NameMap.ofList [(.uuu, .iri "x:tom"), (.zzz, .iri "x:jerry")]
  let b : Bindings := NameMap.ofList [(.uuu, Name.xxx.var), (.aaa, .iri "x:likes")]
  have hg : g.Ground := by
    intro n v h
    cases n <;> cases h <;> rfl
  have hb : p.unify s = .ok b := rfl
  have hopen : ¬ b.Ground := fun h => nomatch h .uuu Name.xxx.var rfl
  obtain ⟨-, -, hclosed, -⟩ := substitution_never_generalizes p g
  obtain ⟨-, -, -, -, -, hread⟩ := substitution_never_generalizes p b
  obtain ⟨hsame, hle⟩ := hread s hb
  exact ⟨p, s, g, b, rfl, rfl, rfl, rfl, hg, rfl, rfl, hclosed hg, hb, hopen, hsame, rfl, hle⟩

end RdfEntailment
