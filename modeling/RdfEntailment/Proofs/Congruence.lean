-- The law of equal terms. No step of a rule can tell equal terms apart: equal
-- rules on equal statements bind the same names to equal terms and derive equal
-- triples one by one, or they fail with the very same error.
import RdfEntailment.Proofs.Simulation

namespace RdfEntailment

/-! ## Two runs on equal terms -/

/-- Two runs on equal terms. -/
def Simulation.equal : Simulation where
  rename := Equiv.refl Name
  slot t t' := t ≈ t'
  value t t' := t ≈ t'
  slot_of_value h := h
  name_eq h := by
    rw [← Term.name?_congr h]
    exact Option.map_id'.symm
  ground_iff ha _ hv :=
    ⟨fun h => Setoid.trans (Setoid.trans (Setoid.symm ha) h) hv,
      fun h => Setoid.trans (Setoid.trans ha h) (Setoid.symm hv)⟩
  value_iff hv hw :=
    ⟨fun h => Setoid.trans (Setoid.trans (Setoid.symm hv) h) hw,
      fun h => Setoid.trans (Setoid.trans hv h) (Setoid.symm hw)⟩

namespace Simulation

theorem equal_rules {r r' : Rule} (ha : List.Forall₂ (· ≈ ·) r.antecedents r'.antecedents)
    (hc : List.Forall₂ (· ≈ ·) r.consequents r'.consequents) : equal.Rules r r' :=
  ⟨ha.imp fun _ _ => Triple.equiv_iff.1, hc.imp fun _ _ => Triple.equiv_iff.1⟩

theorem equal_statements {ss ss' : List Triple} (hs : List.Forall₂ (· ≈ ·) ss ss') :
    List.Forall₂ equal.Statement ss ss' := hs.imp fun _ _ => Triple.equiv_iff.1

theorem equiv_of_equal_bound {b b' : Bindings} (h : equal.Bound b b') : b ≈ b' := by
  rw [Bindings.equiv_iff]
  intro n
  rcases bound_cases h n with ⟨hb, hb'⟩ | ⟨v, v', hb, hb', hv⟩
  · rw [hb, show b'.get? n = none from hb']
  · rw [hb, show b'.get? n = some v' from hb']
    exact congrArg some (Term.equiv_iff.1 hv)

theorem equal_bound {b b' : Bindings} (h : b ≈ b') : equal.Bound b b' := by
  intro n
  have hn := Bindings.equiv_iff.1 h n
  show Option.Rel (· ≈ ·) (b.get? n) (b'.get? n)
  cases hb : b.get? n with
  | none =>
    rw [hb] at hn
    rw [Option.map_eq_none_iff.1 hn.symm]
    exact .none
  | some v =>
    rw [hb] at hn
    obtain ⟨v', hb', hv⟩ := Option.map_eq_some_iff.1 hn.symm
    rw [hb']
    exact .some (Term.equiv_iff.2 hv.symm)

theorem equiv_of_equal_conclusion {t t' : Triple} (h : equal.Conclusion t t') : t ≈ t' :=
  Triple.equiv_iff.2 h.2

end Simulation

/-! ## Equal rules on equal statements -/

variable {r r' : Rule} {ss ss' : List Triple}

/-- Equal bindings make equal triples of the same consequents, or leave the same name
in them. -/
theorem Triple.instantiateAll_congr (cs : List Triple) {b b' : Bindings} (hb : b ≈ b') :
    Corresponds (· = ·) (List.Forall₂ (· ≈ ·)) (instantiateAll cs b) (instantiateAll cs b') := by
  have hcs : List.Forall₂ Simulation.equal.Pattern cs cs :=
    List.forall₂_same.2 fun c _ p => Setoid.refl (c.term p)
  have hrel : Corresponds Simulation.equal.Error (List.Forall₂ Simulation.equal.Conclusion)
      (instantiateAll cs b) (instantiateAll cs b') :=
    Corresponds.mapM (fun _ _ hc => Simulation.instantiate_related hc (Simulation.equal_bound hb))
      hcs
  exact hrel.imp (fun _ _ => Simulation.eq_of_error rfl)
    fun _ _ hts => hts.imp fun _ _ => Simulation.equiv_of_equal_conclusion

theorem Rule.solve_congr (ha : List.Forall₂ (· ≈ ·) r.antecedents r'.antecedents)
    (hc : List.Forall₂ (· ≈ ·) r.consequents r'.consequents) (hs : List.Forall₂ (· ≈ ·) ss ss') :
    Corresponds (· = ·) (· ≈ ·) (r.solve ss) (r'.solve ss') := by
  have hrun := Simulation.solveTraced_related (Simulation.equal_rules ha hc)
    (Simulation.equal_statements hs)
  exact hrun.result.imp (fun _ _ => Simulation.eq_of_error rfl)
    fun _ _ => Simulation.equiv_of_equal_bound

theorem Rule.apply_congr (ha : List.Forall₂ (· ≈ ·) r.antecedents r'.antecedents)
    (hc : List.Forall₂ (· ≈ ·) r.consequents r'.consequents) (hs : List.Forall₂ (· ≈ ·) ss ss') :
    Corresponds (· = ·) (List.Forall₂ (· ≈ ·)) (r.apply ss) (r'.apply ss') := by
  have hrel := Simulation.apply_related (Simulation.equal_rules ha hc)
    (Simulation.equal_statements hs)
  exact hrel.imp (fun _ _ => Simulation.eq_of_error rfl)
    fun _ _ hts => hts.imp fun _ _ => Simulation.equiv_of_equal_conclusion

/-- Rules with equal antecedents and consequents cannot be told apart by equal
statements: both bind the same names to equal terms, or both fail with the same
error, and so for the triples that they derive. -/
theorem equal_rules_agree_on_equal_statements
    (ha : List.Forall₂ (· ≈ ·) r.antecedents r'.antecedents)
    (hc : List.Forall₂ (· ≈ ·) r.consequents r'.consequents)
    (hs : List.Forall₂ (· ≈ ·) ss ss') :
    Corresponds (· = ·) (· ≈ ·) (r.solve ss) (r'.solve ss') ∧
      Corresponds (· = ·) (List.Forall₂ (· ≈ ·)) (r.apply ss) (r'.apply ss') :=
  ⟨Rule.solve_congr ha hc hs, Rule.apply_congr ha hc hs⟩

/-- A greeting, quoted, with its language tag in some spelling. -/
def greeting (tag : String) : Term :=
  .quoted (.iri "x:tom") (.iri "x:says") (.literal "hi" (.language tag))

/-- Who knows someone that quotes the greeting has heard it. -/
def hearsay (tag : String) : Rule where
  name := some "hearsay"
  antecedents := [⟨Name.vvv.var, .iri "x:knows", Name.uuu.var⟩,
    ⟨Name.uuu.var, .iri "x:quotes", greeting tag⟩]
  consequents := [⟨Name.vvv.var, .iri "x:heard", greeting tag⟩]
  constraints := ∅

/-- Each rule derives the greeting in its own spelling, and binds the speaker in
the spelling of its own statements: the results differ, but only in that. -/
theorem a_greeting_is_heard_in_two_spellings :
    ∃ ss ss' : List Triple,
      ss = [⟨.iri "x:ann", .iri "x:knows", .literal "Bob" (.language "en")⟩,
        ⟨.literal "Bob" (.language "EN"), .iri "x:quotes", greeting "eN"⟩] ∧
      ss' = [⟨.iri "x:ann", .iri "x:knows", .literal "Bob" (.language "EN")⟩,
        ⟨.literal "Bob" (.language "en"), .iri "x:quotes", greeting "En"⟩] ∧
      List.Forall₂ (· ≈ ·) (hearsay "en").antecedents (hearsay "EN").antecedents ∧
      List.Forall₂ (· ≈ ·) (hearsay "en").consequents (hearsay "EN").consequents ∧
      List.Forall₂ (· ≈ ·) ss ss' ∧
      (hearsay "en").solve ss ≠ (hearsay "EN").solve ss' ∧
      (hearsay "en").apply ss = .ok [⟨.iri "x:ann", .iri "x:heard", greeting "en"⟩] ∧
      (hearsay "EN").apply ss' = .ok [⟨.iri "x:ann", .iri "x:heard", greeting "EN"⟩] ∧
      Corresponds (· = ·) (· ≈ ·) ((hearsay "en").solve ss) ((hearsay "EN").solve ss') ∧
      Corresponds (· = ·) (List.Forall₂ (· ≈ ·)) ((hearsay "en").apply ss)
        ((hearsay "EN").apply ss') := by
  let ss : List Triple := [⟨.iri "x:ann", .iri "x:knows", .literal "Bob" (.language "en")⟩,
    ⟨.literal "Bob" (.language "EN"), .iri "x:quotes", greeting "eN"⟩]
  let ss' : List Triple := [⟨.iri "x:ann", .iri "x:knows", .literal "Bob" (.language "EN")⟩,
    ⟨.literal "Bob" (.language "en"), .iri "x:quotes", greeting "En"⟩]
  have ha : List.Forall₂ (· ≈ ·) (hearsay "en").antecedents (hearsay "EN").antecedents :=
    .cons (by decide) (.cons (by decide) .nil)
  have hc : List.Forall₂ (· ≈ ·) (hearsay "en").consequents (hearsay "EN").consequents :=
    .cons (by decide) .nil
  have hs : List.Forall₂ (· ≈ ·) ss ss' := .cons (by decide) (.cons (by decide) .nil)
  have hagree := equal_rules_agree_on_equal_statements ha hc hs
  -- The quote has one placeholder and the acquaintance has two, so it is read first.
  have hranked (tag : String) := Rule.ranked_of_lt (r := hearsay tag) rfl Nat.one_lt_two
  have hdiffer : (hearsay "en").solve ss ≠ (hearsay "EN").solve ss' := by
    simp only [Rule.solve, Rule.solveTraced, hranked]
    decide
  have hlower : (hearsay "en").apply ss = .ok [⟨.iri "x:ann", .iri "x:heard", greeting "en"⟩] := by
    simp only [Rule.apply, Rule.applyTraced, Rule.solveTraced, hranked]
    rfl
  have hupper : (hearsay "EN").apply ss' =
      .ok [⟨.iri "x:ann", .iri "x:heard", greeting "EN"⟩] := by
    simp only [Rule.apply, Rule.applyTraced, Rule.solveTraced, hranked]
    rfl
  exact ⟨ss, ss', rfl, rfl, ha, hc, hs, hdiffer, hlower, hupper, hagree⟩

end RdfEntailment
