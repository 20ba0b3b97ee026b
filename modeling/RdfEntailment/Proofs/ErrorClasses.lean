-- The law of error classes. Each error that a rule can fail with has a cause of its own, and
-- the causes exclude one another: another number of statements than antecedents, a rule that
-- is too small or too large, a slot at fault in the one reading, a pair that is read in
-- neither order, or, where the antecedents match, a consequent that keeps a placeholder.
import RdfEntailment.Proofs.Conclusions

namespace RdfEntailment

variable {r : Rule} {ss : List Triple}

/-! ## Antecedents -/

theorem Rule.solve_eq_arity_iff {k n : Nat} : r.solve ss = .error (.arity k n) ↔
    r.antecedents.length ≠ ss.length ∧ k = r.antecedents.length ∧ n = ss.length := by
  constructor
  · intro h
    rcases Rule.solve_eq_error h with ⟨hlen, he⟩ | ⟨-, -, he⟩ | ⟨-, -, fault, -, -, -, he⟩ |
      ⟨-, -, -, -, -, -, -, -, he⟩
    · cases he
      exact ⟨hlen, rfl, rfl⟩
    · cases he
    · cases fault <;> cases he
    · cases he
  · rintro ⟨hlen, rfl, rfl⟩
    exact Rule.solve_of_length_ne hlen

theorem Rule.solve_eq_unsupportedRule_iff {k : Nat} : r.solve ss = .error (.unsupportedRule k) ↔
    (r.antecedents.length = ss.length ∧ r.antecedents.length ≠ 1 ∧ r.antecedents.length ≠ 2) ∧
      k = r.antecedents.length := by
  constructor
  · intro h
    have hlen : r.antecedents.length = ss.length := by
      by_contra hne
      rw [Rule.solve_of_length_ne hne] at h
      cases h
    rcases Rule.solve_eq_error h with ⟨-, he⟩ | ⟨hone, htwo, he⟩ | ⟨-, -, fault, -, -, -, he⟩ |
      ⟨-, -, -, -, -, -, -, -, he⟩
    · cases he
    · cases he
      exact ⟨⟨hlen, hone, htwo⟩, rfl⟩
    · cases fault <;> cases he
    · cases he
  · rintro ⟨⟨hlen, hone, htwo⟩, rfl⟩
    exact Rule.solve_of_unsupported hlen hone htwo

/-- What is at fault in a pair is not told: it has no ordering. -/
theorem Rule.solve_two_eq_error_iff {a₁ a₂ : Triple} (hr : r.ranked = [a₁, a₂]) {s₁ s₂ : Triple}
    {e : MatchError} : r.solve [s₁, s₂] = .error e ↔
      ((∃ f, a₁.unifyPair a₂ s₁ s₂ = .error f) ∧ ∃ f, a₁.unifyPair a₂ s₂ s₁ = .error f) ∧
        e = .noOrdering := by
  rw [Rule.solve_two (Rule.length_of_ranked_eq_two hr) hr]
  cases a₁.unifyPair a₂ s₁ s₂ <;> cases a₁.unifyPair a₂ s₂ s₁ <;> simp [eq_comm]

/-- The errors of the antecedents, class by class. -/
structure Rule.SolveErrors (r : Rule) (ss : List Triple) : Prop where
  arity : ∀ k n, r.solve ss = .error (.arity k n) ↔
    r.antecedents.length ≠ ss.length ∧ k = r.antecedents.length ∧ n = ss.length
  unsupported : ∀ k, r.solve ss = .error (.unsupportedRule k) ↔
    (r.antecedents.length = ss.length ∧ r.antecedents.length ≠ 1 ∧ r.antecedents.length ≠ 2) ∧
      k = r.antecedents.length
  one : ∀ a s, r.antecedents = [a] → ss = [s] → r.solve ss = (a.unify s).mapError SlotFault.error
  two : r.antecedents.length = 2 → ∃ a₁ a₂, r.ranked = [a₁, a₂] ∧
    ∀ s₁ s₂, ss = [s₁, s₂] → ∀ e, r.solve ss = .error e ↔
      ((∃ f, a₁.unifyPair a₂ s₁ s₂ = .error f) ∧ ∃ f, a₁.unifyPair a₂ s₂ s₁ = .error f) ∧
        e = .noOrdering
  determined : ∀ n, r.solve ss ≠ .error (.underdetermined n)

theorem Rule.solveErrors (r : Rule) (ss : List Triple) : r.SolveErrors ss where
  arity _ _ := Rule.solve_eq_arity_iff
  unsupported _ := Rule.solve_eq_unsupportedRule_iff
  one a s hr hs := by
    rw [hs, Rule.solve_one (by simp [hr]) (Rule.ranked_singleton hr)]
  two hlen := by
    obtain ⟨a₁, a₂, hranked⟩ := Rule.ranked_eq_two hlen
    refine ⟨a₁, a₂, hranked, ?_⟩
    rintro s₁ s₂ rfl e
    exact Rule.solve_two_eq_error_iff hranked
  determined _ := Rule.solve_ne_underdetermined

/-! ## Consequents -/

theorem Rule.underdetermined_of_apply_error {b : Bindings} {e : MatchError}
    (hb : r.solve ss = .ok b) (h : r.apply ss = .error e) : ∃ n, e = .underdetermined n := by
  rw [Rule.apply_eq_bind, hb] at h
  obtain ⟨n, he, -⟩ := Triple.instantiateAll_eq_error_iff.1 h
  exact ⟨n, he⟩

/-! ## The law -/

/-- Each error of the antecedents has a cause of its own. A rule passes it on, and has one
error more, for a placeholder that is left when they match. Which graphs the statements are
from makes no difference. -/
theorem each_error_has_its_own_cause (r : Rule) (ss : List Triple) :
    r.SolveErrors ss ∧
      (∀ quads : List Quad, quads.map (·.triple) = ss → r.applyQuads quads = r.apply ss) ∧
      (∀ e, r.solve ss = .error e → r.apply ss = .error e) ∧
      ∀ b, r.solve ss = .ok b → ∀ e, r.apply ss = .error e → ∃ n, e = .underdetermined n := by
  refine ⟨r.solveErrors ss, ?_, fun e => Rule.apply_of_solve_error,
    fun b hb e => Rule.underdetermined_of_apply_error hb⟩
  rintro quads rfl
  rfl

/-- A statement about a class whose name is a placeholder, and one that is not about classes.
Two statements are too few for three antecedents, and three antecedents are too many for a
rule. The pair has no ordering, whatever graphs it is from. A slot at fault is told where there
is one antecedent, and a placeholder that is left where that one matches. -/
theorem a_templated_class_fails_in_every_way :
    ∃ (long : Rule) (a s₁ s₂ : Triple) (quads : List Quad),
      s₁ = ⟨Name.uuu.toTerm .blankNode, Rdf.type, Rdfs.Class⟩ ∧
      s₂ = ⟨.iri "x:tom", .iri "x:likes", .iri "x:jerry"⟩ ∧
      long = Catalog.rdfs11.extend [.antecedent a] ∧ Catalog.rdfs10.antecedents = [a] ∧
      quads = [⟨s₁, some (.iri "x:g")⟩, ⟨s₂, none⟩] ∧
      long.solve [s₁, s₂] = .error (.arity 3 2) ∧
      long.solve [s₁, s₂, s₁] = .error (.unsupportedRule 3) ∧
      Catalog.rdfs10.solve [s₂] = (a.unify s₂).mapError SlotFault.error ∧
      Catalog.rdfs10.solve [s₂] = .error (.groundMismatch .predicate) ∧
      Catalog.rdfs11.solve [s₁, s₂] = .error .noOrdering ∧
      Catalog.rdfs11.applyQuads quads = .error .noOrdering ∧
      ∃ b e n, Catalog.rdfs10.solve [s₁] = .ok b ∧ Catalog.rdfs10.apply [s₁] = .error e ∧
        e = .underdetermined n := by
  let a : Triple := ⟨Name.uuu.var, Rdf.type, Rdfs.Class⟩
  let s₁ : Triple := ⟨Name.uuu.toTerm .blankNode, Rdf.type, Rdfs.Class⟩
  let s₂ : Triple := ⟨.iri "x:tom", .iri "x:likes", .iri "x:jerry"⟩
  let long := Catalog.rdfs11.extend [.antecedent a]
  let quads : List Quad := [⟨s₁, some (.iri "x:g")⟩, ⟨s₂, none⟩]
  obtain ⟨hfew, -⟩ := each_error_has_its_own_cause long [s₁, s₂]
  obtain ⟨hmany, -⟩ := each_error_has_its_own_cause long [s₁, s₂, s₁]
  obtain ⟨hfault, -⟩ := each_error_has_its_own_cause Catalog.rdfs10 [s₂]
  obtain ⟨hpair, hquads, hpassed, -⟩ := each_error_has_its_own_cause Catalog.rdfs11 [s₁, s₂]
  obtain ⟨-, -, -, hleft⟩ := each_error_has_its_own_cause Catalog.rdfs10 [s₁]
  have hone : Catalog.rdfs10.solve [s₂] = (a.unify s₂).mapError SlotFault.error :=
    hfault.one a s₂ rfl rfl
  have hneither : Catalog.rdfs11.solve [s₁, s₂] = .error .noOrdering := by
    obtain ⟨a₁, a₂, hranked, htwo⟩ := hpair.two rfl
    cases hranked.symm.trans (Rule.ranked_of_pairwise_le (by decide))
    exact (htwo s₁ s₂ rfl _).2 ⟨⟨⟨_, rfl⟩, ⟨_, rfl⟩⟩, rfl⟩
  have hsolve := Catalog.rdfs10.solve_of_declared (by decide) [s₁]
  have happly := Catalog.rdfs10.apply_of_declared (by decide) [s₁]
  obtain ⟨n, hn⟩ := hleft _ hsolve _ happly
  exact ⟨long, a, s₁, s₂, quads, rfl, rfl, rfl, rfl, rfl, (hfew.arity 3 2).2 (by decide),
    (hmany.unsupported 3).2 (by decide), hone, hone, hneither,
    (hquads quads rfl).trans (hpassed _ hneither), _, _, n, hsolve, happly, hn⟩

end RdfEntailment
