-- The law of determination. Whether a rule that is solved by ground statements
-- derives is a matter of its own names: it fails exactly when a consequent holds
-- a name that no antecedent holds, and then it always names the first of them,
-- whatever the statements are and whichever pairing solves them.
import RdfEntailment.Proofs.Instances

namespace RdfEntailment

/-! ## Names that are left over -/

theorem Triple.firstName?_eq_head? (t : Triple) : t.firstName? = t.names.head? :=
  List.head?_filterMap.symm

/-- Consequents fail with the first name that substitution leaves in them, or
brings into them. -/
theorem Triple.instantiateAll_of_head? {cs : List Triple} {b : Bindings} {n : Name}
    (h : (cs.flatMap fun c => (c.subst b).names).head? = some n) :
    instantiateAll cs b = .error (.underdetermined n) := by
  induction cs with
  | nil => cases h
  | cons c cs ih =>
    unfold instantiateAll at ih ⊢
    rw [List.mapM_cons]
    rw [List.flatMap_cons, List.head?_append, ← Triple.firstName?_eq_head?] at h
    cases hc : (c.subst b).firstName? with
    | some m =>
      rw [hc, Option.some_or] at h
      cases h
      have hfails : c.instantiate b = .error (.underdetermined n) := by simp only [instantiate, hc]
      rw [hfails]
      rfl
    | none =>
      rw [hc, Option.none_or] at h
      have hderives : c.instantiate b = .ok (c.subst b) := by simp only [instantiate, hc]
      rw [hderives, ih h]
      rfl

theorem Triple.names_subst {b : Bindings} (hb : b.Ground) (t : Triple) :
    (t.subst b).names = t.names.filter fun n => b.get? n = none := by
  unfold names subst
  rw [terms_map, List.filterMap_map, List.filter_filterMap]
  congr 1
  funext u
  apply Option.ext
  intro n
  rw [Function.comp_apply, Option.filter_eq_some_iff, Term.name?_subst hb, decide_eq_true_iff]

/-! ## The first missing name -/

/-- The first name of the consequents, slot by slot, that no antecedent holds. -/
def Rule.firstMissing? (r : Rule) : Option Name :=
  (r.consequents.flatMap Triple.names).find? fun n => ∀ a ∈ r.antecedents, n ∉ a.names

theorem Rule.firstMissing?_isSome_iff {r : Rule} : r.firstMissing?.isSome ↔ r.Underdetermined := by
  unfold firstMissing? Underdetermined
  simp only [List.find?_isSome, List.mem_flatMap, decide_eq_true_iff]
  constructor
  · rintro ⟨n, ⟨c, hc, hn⟩, hnot⟩
    exact ⟨c, hc, n, hn, hnot⟩
  · rintro ⟨c, hc, n, hn, hnot⟩
    exact ⟨n, ⟨c, hc, hn⟩, hnot⟩

/-- What ground statements leave over is what the antecedents do not hold. -/
theorem Rule.head?_leftover {r : Rule} {ss : List Triple} {b : Bindings}
    (hs : ∀ s ∈ ss, s.Ground) (h : r.solve ss = .ok b) :
    (r.consequents.flatMap fun c => (c.subst b).names).head? = r.firstMissing? := by
  obtain ⟨hb, hnames, -⟩ := Rule.solve_ground_sound hs h
  have hunbound : ∀ n, b.get? n = none ↔ ∀ a ∈ r.antecedents, n ∉ a.names := by
    intro n
    rw [← Option.not_isSome_iff_eq_none, ← NameMap.contains, hnames]
    simp
  simp only [Triple.names_subst hb, hunbound]
  rw [← List.filter_flatMap, List.head?_filter]
  rfl

/-! ## The law -/

theorem Rule.apply_of_solve_error {r : Rule} {ss : List Triple} {e : MatchError}
    (h : r.solve ss = .error e) : r.apply ss = .error e := by
  rw [Rule.apply_eq_bind, h]
  rfl

theorem SlotFault.error_ne_underdetermined (fault : SlotFault) (n : Name) :
    fault.error ≠ .underdetermined n := by
  cases fault <;> simp [SlotFault.error]

theorem Rule.solve_ne_underdetermined {r : Rule} {ss : List Triple} {n : Name} :
    r.solve ss ≠ .error (.underdetermined n) := by
  intro h
  rcases Rule.solve_eq_error h with ⟨-, he⟩ | ⟨-, -, he⟩ | ⟨a, s, fault, -, -, -, he⟩ |
    ⟨a₁, a₂, s₁, s₂, -, -, -, -, he⟩
  · cases he
  · cases he
  · exact SlotFault.error_ne_underdetermined fault n he.symm
  · cases he

/-- Solved by ground statements, a rule with missing names fails with the first
of them. -/
theorem Rule.apply_of_firstMissing? {r : Rule} {ss : List Triple} {b : Bindings} {n : Name}
    (hs : ∀ s ∈ ss, s.Ground) (h : r.solve ss = .ok b) (hn : r.firstMissing? = some n) :
    r.apply ss = .error (.underdetermined n) := by
  rw [Rule.apply_eq_bind, h]
  exact Triple.instantiateAll_of_head? ((Rule.head?_leftover hs h).trans hn)

/-- A rule that ground statements do not solve fails as they do. A rule that they
solve derives exactly when each name of its consequents is held by an antecedent,
and fails with the first one that is not, which is the rule's own: the statements
and the pairing have no say in it. -/
theorem ground_statements_leave_it_to_the_rule {r : Rule} {ss : List Triple}
    (hs : ∀ s ∈ ss, s.Ground) :
    (∀ e, r.solve ss = .error e → r.apply ss = .error e) ∧
    ∀ b, r.solve ss = .ok b →
      ((∃ ts, r.apply ss = .ok ts) ↔
        ∀ c ∈ r.consequents, ∀ n ∈ c.names, ∃ a ∈ r.antecedents, n ∈ a.names) ∧
      ((¬ ∀ c ∈ r.consequents, ∀ n ∈ c.names, ∃ a ∈ r.antecedents, n ∈ a.names) →
        ∃ n, r.firstMissing? = some n ∧ r.apply ss = .error (.underdetermined n)) := by
  refine ⟨fun e => Rule.apply_of_solve_error, fun b h => ?_⟩
  have hheld : (∀ c ∈ r.consequents, ∀ n ∈ c.names, ∃ a ∈ r.antecedents, n ∈ a.names) ↔
      ¬ r.Underdetermined := by
    simp [Rule.Underdetermined]
  rw [hheld, not_not]
  rcases Rule.apply_ground hs h with ⟨hu, e, he⟩ | ⟨hu, ts, hts, -⟩
  · obtain ⟨n, hn⟩ := Option.isSome_iff_exists.1 (Rule.firstMissing?_isSome_iff.2 hu)
    have happly := Rule.apply_of_firstMissing? hs h hn
    refine ⟨⟨?_, fun hu' => absurd hu hu'⟩, fun _ => ⟨n, hn, happly⟩⟩
    rintro ⟨ts, hts⟩
    rw [he] at hts
    cases hts
  · exact ⟨⟨fun _ => hu, fun _ => ⟨ts, hts⟩⟩, fun hu' => absurd hu' hu⟩

/-- The transitivity of subclasses, with two consequents more: the second one
misses `zzz` and then `yyy`, and the third misses `bbb`. -/
def looseChain : Rule :=
  Catalog.rdfs11.extend
    [.consequent ⟨Name.zzz.toTerm .blankNode, Rdf.type, Name.yyy.toTerm .literal⟩,
      .consequent ⟨Name.bbb.var, Rdf.type, Name.vvv.var⟩]

/-- A cycle of two subclasses solves the loose chain in both orders, by two
pairings, and both fail with the name that is first in the consequents and last in
the order of names. The chain of the catalog derives from the same statements. Two
subclasses that do not meet solve neither. -/
theorem a_subclass_cycle_names_the_first_missing_name :
    ∃ s₁ s₂ s₃ : Triple, ∃ b b' : Bindings,
      s₁ = ⟨.iri "x:a", Rdfs.subClassOf, .iri "x:b"⟩ ∧
      s₂ = ⟨.iri "x:b", Rdfs.subClassOf, .iri "x:a"⟩ ∧
      s₃ = ⟨.iri "x:c", Rdfs.subClassOf, .iri "x:d"⟩ ∧
      (∀ s ∈ [s₁, s₂, s₃], s.Ground) ∧
      looseChain.solve [s₁, s₂] = .ok b ∧ looseChain.solve [s₂, s₁] = .ok b' ∧ b ≠ b' ∧
      looseChain.firstMissing? = some .zzz ∧
      looseChain.apply [s₁, s₂] = .error (.underdetermined .zzz) ∧
      looseChain.apply [s₂, s₁] = .error (.underdetermined .zzz) ∧
      (∃ ts, Catalog.rdfs11.apply [s₁, s₂] = .ok ts) ∧
      looseChain.apply [s₁, s₃] = .error .noOrdering := by
  let s₁ : Triple := ⟨.iri "x:a", Rdfs.subClassOf, .iri "x:b"⟩
  let s₂ : Triple := ⟨.iri "x:b", Rdfs.subClassOf, .iri "x:a"⟩
  let s₃ : Triple := ⟨.iri "x:c", Rdfs.subClassOf, .iri "x:d"⟩
  have hground : ∀ s ∈ [s₁, s₂, s₃], s.Ground := by decide
  have hgiven : ∀ s ∈ [s₁, s₂], s.Ground := by decide
  have hswapped : ∀ s ∈ [s₂, s₁], s.Ground := by decide
  have hapart : ∀ s ∈ [s₁, s₃], s.Ground := by decide
  have hmissing : ¬ ∀ c ∈ looseChain.consequents, ∀ n ∈ c.names,
      ∃ a ∈ looseChain.antecedents, n ∈ a.names := by decide
  have hheld : ∀ c ∈ Catalog.rdfs11.consequents, ∀ n ∈ c.names,
      ∃ a ∈ Catalog.rdfs11.antecedents, n ∈ a.names := by decide
  have hfirst : looseChain.firstMissing? = some .zzz := by decide
  have hsolve := looseChain.solve_of_declared (by decide) [s₁, s₂]
  have hsolve' := looseChain.solve_of_declared (by decide) [s₂, s₁]
  have hchain := Catalog.rdfs11.solve_of_declared (by decide) [s₁, s₂]
  have hneither := looseChain.solve_of_declared (by decide) [s₁, s₃]
  have hlaw := (ground_statements_leave_it_to_the_rule hgiven).2 _ hsolve
  have hlaw' := (ground_statements_leave_it_to_the_rule hswapped).2 _ hsolve'
  have hlaw₁₁ := (ground_statements_leave_it_to_the_rule hgiven).2 _ hchain
  have hunsolved := (ground_statements_leave_it_to_the_rule hapart).1 _ hneither
  obtain ⟨n, hn, happly⟩ := hlaw.2 hmissing
  obtain ⟨n', hn', happly'⟩ := hlaw'.2 hmissing
  rw [hfirst] at hn hn'
  cases hn
  cases hn'
  exact ⟨s₁, s₂, s₃, _, _, rfl, rfl, rfl, hground, hsolve, hsolve', by decide, hfirst, happly,
    happly', hlaw₁₁.1.2 hheld, hunsolved⟩

end RdfEntailment
