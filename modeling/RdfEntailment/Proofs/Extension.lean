-- The law of extension. A rule that is extended by consequents, constraints and names
-- matches as before. It derives all that it derived before, and after that what the new
-- consequents say under the same bindings. Where the old consequents fail, their error
-- stays, and where only the new ones do, nothing is derived any more.
import RdfEntailment.Catalog
import RdfEntailment.Proofs.Building
import RdfEntailment.Proofs.Conclusions

namespace RdfEntailment

variable {r r' : Rule} {clauses : List Clause}

/-! ## Matching -/

theorem Rule.solve_of_antecedents_eq (h : r.antecedents = r'.antecedents) (ss : List Triple) :
    r.solve ss = r'.solve ss :=
  Rule.solve_of_ranked_eq (Rule.ranked_congr h) ss

theorem Rule.antecedents_extend (h : ∀ c ∈ clauses, c.antecedent? = none) :
    (r.extend clauses).antecedents = r.antecedents := by
  rw [(Rule.extends_extend r clauses).antecedents, List.filterMap_eq_nil_iff.2 h, List.append_nil]

theorem Rule.solve_extend (h : ∀ c ∈ clauses, c.antecedent? = none) (ss : List Triple) :
    (r.extend clauses).solve ss = r.solve ss :=
  Rule.solve_of_antecedents_eq (Rule.antecedents_extend h) ss

/-! ## Deriving -/

/-- Consequents are derived one list after the other, and the first list at fault ends it. -/
theorem Triple.instantiateAll_append (cs ds : List Triple) (b : Bindings) :
    instantiateAll (cs ++ ds) b = do
      let ts ← instantiateAll cs b
      let us ← instantiateAll ds b
      return ts ++ us := List.mapM_append

/-- The consequents that are added are derived after the others, from the same bindings. -/
theorem Rule.apply_extend (h : ∀ c ∈ clauses, c.antecedent? = none) (ss : List Triple) :
    (r.extend clauses).apply ss = do
      let ts ← r.apply ss
      let b ← r.solve ss
      let us ← Triple.instantiateAll (clauses.filterMap Clause.consequent?) b
      return ts ++ us := by
  rw [Rule.apply_eq_bind, Rule.apply_eq_bind, Rule.solve_extend h,
    (Rule.extends_extend r clauses).consequents]
  cases r.solve ss with
  | error e => rfl
  | ok b => exact Triple.instantiateAll_append _ _ b

/-! ## The law -/

/-- Clauses that are no antecedents leave the bindings as they are. An error stays, and what
is derived stays in front of what the new consequents derive from the bindings, unless they
leave a placeholder. Names and constraints alone change nothing. -/
theorem an_extension_only_adds_conclusions (h : ∀ c ∈ clauses, c.antecedent? = none)
    (ss : List Triple) :
    (r.extend clauses).solve ss = r.solve ss ∧
    (∀ e, r.apply ss = .error e → (r.extend clauses).apply ss = .error e) ∧
    (∀ ts, r.apply ss = .ok ts → ∃ b, r.solve ss = .ok b ∧
      (∀ e, Triple.instantiateAll (clauses.filterMap Clause.consequent?) b = .error e →
        (∃ n, e = .underdetermined n) ∧ (r.extend clauses).apply ss = .error e) ∧
      ∀ us, Triple.instantiateAll (clauses.filterMap Clause.consequent?) b = .ok us →
        (r.extend clauses).apply ss = .ok (ts ++ us)) ∧
    ((∀ c ∈ clauses, c.consequent? = none) → (r.extend clauses).apply ss = r.apply ss) := by
  have happly := Rule.apply_extend (r := r) h ss
  refine ⟨Rule.solve_extend h ss, fun e he => ?_, fun ts hts => ?_, fun hnone => ?_⟩
  · rw [happly, he]
    rfl
  · obtain ⟨b, hb, -⟩ := Rule.apply_eq_ok_iff.1 hts
    rw [hts, hb] at happly
    refine ⟨b, hb, fun e he => ⟨?_, ?_⟩, fun us hus => ?_⟩
    · obtain ⟨n, hn, -⟩ := Triple.instantiateAll_eq_error_iff.1 he
      exact ⟨n, hn⟩
    · rw [happly]
      simp only [bind, Except.bind, he]
    · rw [happly]
      simp only [bind, Except.bind, hus]
      rfl
  · have hconsequents : (r.extend clauses).consequents = r.consequents := by
      rw [(Rule.extends_extend r clauses).consequents, List.filterMap_eq_nil_iff.2 hnone,
        List.append_nil]
    exact Rule.apply_of_solve_eq hconsequents (Rule.solve_extend h ss)

/-- An instance of a subclass is derived to be one of the class above. With one more
consequent, the subclass is derived to be a class, after that. With one more that misses
`zzz`, nothing is derived. A name and a constraint that no value meets change nothing, and
two statements that do not match are refused as before. -/
theorem a_subclass_is_derived_to_be_a_class :
    ∃ (quiet told stray : List Clause) (s₁ s₂ t : Triple),
      quiet = [.name "subclasses", .constraint .xxx .literal] ∧
      told = quiet ++ [.consequent ⟨Name.uuu.toTerm .literal, Rdf.type, Rdfs.Class⟩] ∧
      stray = told ++ [.consequent ⟨Name.zzz.var, Rdf.type, Rdfs.Class⟩] ∧
      s₁ = ⟨.iri "x:Cat", Rdfs.subClassOf, .iri "x:Animal"⟩ ∧
      s₂ = ⟨.iri "x:tom", Rdf.type, .iri "x:Cat"⟩ ∧
      t = ⟨.iri "x:tom", Rdf.type, .iri "x:Animal"⟩ ∧
      (∀ c ∈ stray, c.antecedent? = none) ∧
      Catalog.rdfs9.apply [s₁, s₂] = .ok [t] ∧
      (Catalog.rdfs9.extend stray).solve [s₁, s₂] = Catalog.rdfs9.solve [s₁, s₂] ∧
      (Catalog.rdfs9.extend quiet).apply [s₁, s₂] = .ok [t] ∧
      (Catalog.rdfs9.extend told).apply [s₁, s₂] =
        .ok [t, ⟨.iri "x:Cat", Rdf.type, Rdfs.Class⟩] ∧
      (Catalog.rdfs9.extend stray).apply [s₁, s₂] = .error (.underdetermined .zzz) ∧
      (Catalog.rdfs9.extend told).apply [s₁, s₁] = .error .noOrdering := by
  let quiet : List Clause := [.name "subclasses", .constraint .xxx .literal]
  let told := quiet ++ [.consequent ⟨Name.uuu.toTerm .literal, Rdf.type, Rdfs.Class⟩]
  let stray := told ++ [.consequent ⟨Name.zzz.var, Rdf.type, Rdfs.Class⟩]
  let s₁ : Triple := ⟨.iri "x:Cat", Rdfs.subClassOf, .iri "x:Animal"⟩
  let s₂ : Triple := ⟨.iri "x:tom", Rdf.type, .iri "x:Cat"⟩
  let t : Triple := ⟨.iri "x:tom", Rdf.type, .iri "x:Animal"⟩
  have hquiet : ∀ c ∈ quiet, c.antecedent? = none := by decide
  have htold : ∀ c ∈ told, c.antecedent? = none := by decide
  have hstray : ∀ c ∈ stray, c.antecedent? = none := by decide
  have hrule : Catalog.rdfs9.apply [s₁, s₂] = .ok [t] := Rule.apply_of_declared (by decide) _
  have hrefused : Catalog.rdfs9.apply [s₁, s₁] = .error .noOrdering :=
    Rule.apply_of_declared (by decide) _
  obtain ⟨-, -, -, hsame⟩ :=
    an_extension_only_adds_conclusions (r := Catalog.rdfs9) hquiet [s₁, s₂]
  obtain ⟨-, -, hmore, -⟩ :=
    an_extension_only_adds_conclusions (r := Catalog.rdfs9) htold [s₁, s₂]
  obtain ⟨hsolve, -, hless, -⟩ :=
    an_extension_only_adds_conclusions (r := Catalog.rdfs9) hstray [s₁, s₂]
  obtain ⟨-, herror, -, -⟩ :=
    an_extension_only_adds_conclusions (r := Catalog.rdfs9) htold [s₁, s₁]
  obtain ⟨b, hb, -, hadded⟩ := hmore _ hrule
  obtain ⟨c, hc, hfails, -⟩ := hless _ hrule
  have hbound := Catalog.rdfs9.solve_of_declared (by decide) [s₁, s₂]
  cases hb.symm.trans hbound
  cases hc.symm.trans hbound
  exact ⟨quiet, told, stray, s₁, s₂, t, rfl, rfl, rfl, rfl, rfl, rfl, hstray, hrule, hsolve,
    (hsame (by decide)).trans hrule, hadded _ rfl, (hfails _ rfl).2, herror _ hrefused⟩

end RdfEntailment
