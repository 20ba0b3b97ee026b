-- The law of specialisation. Once the more specific antecedent of a rule has read its
-- statement, what is left is a rule with one antecedent: what is bound is put into
-- the other antecedent and into the consequents. Where that rule matches the second
-- statement, it derives what the whole rule derives from both.
import RdfEntailment.Proofs.Composition
import RdfEntailment.Proofs.Instances

namespace RdfEntailment

variable {a₁ a₂ s₁ s₂ : Triple} {b₁ b₂ : Bindings} {r r₁ : Rule}

/-! ## A pair after its first reading -/

theorem Triple.unifyPair_of_unify (hu : a₁.unify s₁ = .ok b₁) (h₂ : s₂.Ground) :
    a₁.unifyPair a₂ s₁ s₂ = ((a₂.subst b₁).unify s₂).map (·.merge b₁) := by
  unfold Triple.unifyPair
  rw [hu]
  simp only [bind, Except.bind, pure, Except.pure, Triple.subst_of_ground h₂]
  cases (a₂.subst b₁).unify s₂ <;> rfl

/-! ## Consequents in two steps -/

/-- A consequent that is filled in two steps has the same outcome as in one: it is
the same triple, or it lacks the same name. -/
theorem Triple.instantiate_subst (hb : b₁.Ground) (c : Triple) (b₂ : Bindings) :
    (c.subst b₁).instantiate b₂ = c.instantiate (b₂.merge b₁) := by
  unfold instantiate
  rw [hb.subst_subst]

theorem Triple.instantiateAll_map_subst (hb : b₁.Ground) (cs : List Triple) (b₂ : Bindings) :
    instantiateAll (cs.map (·.subst b₁)) b₂ = instantiateAll cs (b₂.merge b₁) := by
  unfold instantiateAll
  rw [List.mapM_map]
  congr 1
  funext c
  exact Triple.instantiate_subst hb c b₂

/-! ## What is left of a rule -/

/-- The rule has one antecedent: it is what is left of a rule with two when the first
one is read. Its name and its constraints may be any. -/
structure Rule.Specializes (r₁ r : Rule) (a₂ : Triple) (b₁ : Bindings) : Prop where
  antecedents : r₁.antecedents = [a₂.subst b₁]
  consequents : r₁.consequents = r.consequents.map (·.subst b₁)

theorem Rule.Specializes.solve_eq (h : r₁.Specializes r a₂ b₁) (s : Triple) :
    r₁.solve [s] = ((a₂.subst b₁).unify s).mapError SlotFault.error :=
  Rule.solve_one (by simp [h.antecedents]) (Rule.ranked_singleton h.antecedents) s

/-- What is left of the rule matches the second statement exactly where the pair is
read in the order given, and it lacks only what the first reading binds. -/
theorem Rule.Specializes.solve_cases (h : r₁.Specializes r a₂ b₁) (hu : a₁.unify s₁ = .ok b₁)
    (h₂ : s₂.Ground) :
    (∃ b, r₁.solve [s₂] = .ok b ∧ a₁.unifyPair a₂ s₁ s₂ = .ok (b.merge b₁)) ∨
    ∃ e fault, r₁.solve [s₂] = .error e ∧ a₁.unifyPair a₂ s₁ s₂ = .error fault := by
  rw [h.solve_eq, Triple.unifyPair_of_unify hu h₂]
  cases (a₂.subst b₁).unify s₂ with
  | ok b => exact Or.inl ⟨b, rfl, rfl⟩
  | error fault => exact Or.inr ⟨_, fault, rfl, rfl⟩

/-- What is left concludes from its own bindings what the whole rule concludes from
these and the first ones. -/
theorem Rule.Specializes.instantiateAll (h : r₁.Specializes r a₂ b₁) (hb : b₁.Ground)
    (b₂ : Bindings) : Triple.instantiateAll r₁.consequents b₂ =
      Triple.instantiateAll r.consequents (b₂.merge b₁) := by
  rw [h.consequents, Triple.instantiateAll_map_subst hb]

/-- A rule whose first antecedent has read its statement goes on as the rule that is
left. Where that one matches the second statement, both derive the same, or fail with
the same name. Where it does not, only the other order of the statements counts. -/
theorem a_statement_that_is_read_specializes_the_rule (hr : r.ranked = [a₁, a₂])
    (h₁ : s₁.Ground) (h₂ : s₂.Ground) (hu : a₁.unify s₁ = .ok b₁)
    (hr₁ : r₁.Specializes r a₂ b₁) :
    (∀ b, r₁.solve [s₂] = .ok b →
      r.solve [s₁, s₂] = .ok (b.merge b₁) ∧ r.apply [s₁, s₂] = r₁.apply [s₂]) ∧
    ∀ e, r₁.solve [s₂] = .error e →
      r.solve [s₁, s₂] = (a₁.unifyPair a₂ s₂ s₁).mapError fun _ => .noOrdering := by
  have hsolve := Rule.solve_two (Rule.length_of_ranked_eq_two hr) hr s₁ s₂
  rcases hr₁.solve_cases hu h₂ with ⟨b, hleft, hpair⟩ | ⟨e, fault, hleft, hpair⟩
  · rw [hpair] at hsolve
    have hsame : r.apply [s₁, s₂] = r₁.apply [s₂] := by
      rw [Rule.apply_eq_bind, Rule.apply_eq_bind, hsolve, hleft]
      exact (hr₁.instantiateAll (Triple.ground_unify h₁ hu) b).symm
    rw [hleft]
    refine ⟨fun b' hb' => ?_, nofun⟩
    cases hb'
    exact ⟨hsolve, hsame⟩
  · rw [hpair] at hsolve
    rw [hleft, hsolve]
    refine ⟨nofun, fun _ _ => ?_⟩
    cases a₁.unifyPair a₂ s₂ s₁ <;> rfl

/-- A domain that is read leaves a rule for its one property. From a use of the property
both rules derive the type. From a domain of `rdfs:domain`, which is no use of it, what is
left derives nothing, and the whole rule takes the other order: the domain of the property
is a use of `rdfs:domain`. -/
theorem a_domain_leaves_a_rule_for_its_property :
    ∃ (r₁ : Rule) (b₁ : Bindings) (a₁ a₂ s₁ s₂ s₃ : Triple),
      r₁.antecedents = [⟨Name.uuu.var, .iri "x:likes", Name.yyy.var⟩] ∧
      r₁.consequents = [⟨Name.uuu.var, Rdf.type, .iri "x:Person"⟩] ∧
      s₁ = ⟨.iri "x:likes", Rdfs.domain, .iri "x:Person"⟩ ∧
      s₂ = ⟨.iri "x:tom", .iri "x:likes", .iri "x:jerry"⟩ ∧
      s₃ = ⟨Rdfs.domain, Rdfs.domain, .iri "x:Property"⟩ ∧
      Catalog.rdfs2.ranked = [a₁, a₂] ∧ s₁.Ground ∧ s₂.Ground ∧ s₃.Ground ∧
      a₁.unify s₁ = .ok b₁ ∧ r₁.Specializes Catalog.rdfs2 a₂ b₁ ∧
      r₁.apply [s₂] = .ok [⟨.iri "x:tom", Rdf.type, .iri "x:Person"⟩] ∧
      Catalog.rdfs2.apply [s₁, s₂] = r₁.apply [s₂] ∧
      r₁.solve [s₃] = .error (.groundMismatch .predicate) ∧
      Catalog.rdfs2.solve [s₁, s₃] =
        (a₁.unifyPair a₂ s₃ s₁).mapError fun _ => .noOrdering := by
  let s₁ : Triple := ⟨.iri "x:likes", Rdfs.domain, .iri "x:Person"⟩
  let s₂ : Triple := ⟨.iri "x:tom", .iri "x:likes", .iri "x:jerry"⟩
  let s₃ : Triple := ⟨Rdfs.domain, Rdfs.domain, .iri "x:Property"⟩
  let a₁ : Triple := ⟨Name.aaa.var, Rdfs.domain, Name.xxx.var⟩
  let a₂ : Triple := ⟨Name.uuu.var, Name.aaa.var, Name.yyy.var⟩
  let r₁ : Rule := ⟨none, [⟨Name.uuu.var, .iri "x:likes", Name.yyy.var⟩],
    [⟨Name.uuu.var, Rdf.type, .iri "x:Person"⟩], ∅⟩
  have hr : Catalog.rdfs2.ranked = [a₁, a₂] := Rule.ranked_of_pairwise_le (by decide)
  have h₁ : s₁.Ground := by decide
  have h₂ : s₂.Ground := by decide
  have h₃ : s₃.Ground := by decide
  obtain ⟨b₁, hu, hr₁⟩ : ∃ b₁, a₁.unify s₁ = .ok b₁ ∧ r₁.Specializes Catalog.rdfs2 a₂ b₁ :=
    ⟨_, rfl, rfl, rfl⟩
  have hsolve := r₁.solve_of_declared (by decide) [s₂]
  have hrefused := r₁.solve_of_declared (by decide) [s₃]
  have huse := (a_statement_that_is_read_specializes_the_rule hr h₁ h₂ hu hr₁).1 _ hsolve
  have hother := (a_statement_that_is_read_specializes_the_rule hr h₁ h₃ hu hr₁).2 _ hrefused
  exact ⟨r₁, b₁, a₁, a₂, s₁, s₂, s₃, rfl, rfl, rfl, rfl, rfl, hr, h₁, h₂, h₃, hu, hr₁,
    Rule.apply_of_declared (by decide) _, huse.2, hrefused, hother⟩

end RdfEntailment
