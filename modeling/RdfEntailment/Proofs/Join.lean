-- The law of joins. To read a pair of ground statements is to read each of
-- them by itself and to join what is found: there is a reading of the pair
-- exactly when there are both and they agree on the names that both bind. So
-- it does not matter which of the two is read first, except for spelling.
import RdfEntailment.Proofs.Simulation

namespace RdfEntailment

/-! ## Joined bindings -/

section

variable {b c : Bindings}

theorem Bindings.Agree.symm (h : b.Agree c) : c.Agree b :=
  fun n w v hw hv => Setoid.symm (h n v w hv hw)

theorem Bindings.Agree.merge_equiv (h : b.Agree c) : c.merge b ≈ b.merge c := by
  rw [Bindings.equiv_iff]
  intro n
  rw [NameMap.get?_merge, NameMap.get?_merge]
  cases hb : b.get? n with
  | none => rw [Option.none_or, Option.or_none]
  | some v =>
    cases hc : c.get? n with
    | none => rw [Option.some_or, Option.none_or]
    | some w =>
      rw [Option.some_or, Option.some_or]
      exact congrArg some (Term.equiv_iff.1 (h n v w hb hc))

end

variable {a₁ a₂ s₁ s₂ : Triple} {b b₁ b₂ : Bindings}

/-! ## Two readings apart -/

/-- The bindings join a reading of each statement. Where both readings bind a
name, the first one has the spelling. -/
def Bindings.Joins (b : Bindings) (a₁ a₂ s₁ s₂ : Triple) : Prop :=
  ∃ b₁ b₂, a₁.unify s₁ = .ok b₁ ∧ a₂.unify s₂ = .ok b₂ ∧ b₁.Agree b₂ ∧ b = b₂.merge b₁

/-- A pair is read only where each statement is read by itself, and then the
two readings agree: the pairing makes both patterns equal to their statements. -/
theorem Triple.agree_of_unifyPair (h₁ : s₁.Ground) (h₂ : s₂.Ground)
    (h : a₁.unifyPair a₂ s₁ s₂ = .ok b) :
    ∃ b₁ b₂, a₁.unify s₁ = .ok b₁ ∧ a₂.unify s₂ = .ok b₂ ∧ b₁.Agree b₂ := by
  have hpairs := (Triple.solves_unifyPair h₁ h₂ h).pairs
  obtain ⟨b₁, hu₁, hf₁⟩ := Triple.unify_fits_iff.2 hpairs.1
  obtain ⟨b₂, hu₂, hf₂⟩ := Triple.unify_fits_iff.2 hpairs.2
  exact ⟨b₁, b₂, hu₁, hu₂, hf₁.agree hf₂⟩

theorem Triple.unifyPair_of_agree (h₁ : s₁.Ground) (h₂ : s₂.Ground) (hu₁ : a₁.unify s₁ = .ok b₁)
    (hu₂ : a₂.unify s₂ = .ok b₂) (hagree : b₁.Agree b₂) :
    a₁.unifyPair a₂ s₁ s₂ = .ok (b₂.merge b₁) := by
  obtain ⟨hf₁, hf₂⟩ := hagree.fits_merge.1 (Bindings.fits_toAssignment _)
  have hpairs : Assignment.Pairs (Bindings.toAssignment (b₂.merge b₁)) a₁ a₂ s₁ s₂ :=
    ⟨Triple.unify_fits_iff.1 ⟨b₁, hu₁, hf₁⟩, Triple.unify_fits_iff.1 ⟨b₂, hu₂, hf₂⟩⟩
  obtain ⟨b, hb, -⟩ := (Triple.unifyPair_fits_iff h₁ h₂).2 hpairs
  have hmerge : b = b₂.merge b₁ := by
    apply NameMap.ext_get?
    intro n
    rw [Triple.get?_unifyPair h₁ h₂ hb, NameMap.get?_merge, Triple.get?_unify hu₁,
      Triple.get?_unify hu₂]
  rw [hb, hmerge]

theorem Triple.unifyPair_eq_ok_iff_joins (h₁ : s₁.Ground) (h₂ : s₂.Ground) :
    a₁.unifyPair a₂ s₁ s₂ = .ok b ↔ b.Joins a₁ a₂ s₁ s₂ := by
  constructor
  · intro h
    obtain ⟨b₁, b₂, hu₁, hu₂, hagree⟩ := Triple.agree_of_unifyPair h₁ h₂ h
    have hb := Triple.unifyPair_of_agree h₁ h₂ hu₁ hu₂ hagree
    rw [h] at hb
    cases hb
    exact ⟨b₁, b₂, hu₁, hu₂, hagree, rfl⟩
  · rintro ⟨b₁, b₂, hu₁, hu₂, hagree, rfl⟩
    exact Triple.unifyPair_of_agree h₁ h₂ hu₁ hu₂ hagree

/-! ## Either reading may come first -/

/-- Joined the other way round, two readings bind the same names to equal
terms. -/
theorem Bindings.Joins.swap (h : b.Joins a₁ a₂ s₁ s₂) :
    ∃ b', b'.Joins a₂ a₁ s₂ s₁ ∧ b ≈ b' := by
  obtain ⟨b₁, b₂, hu₁, hu₂, hagree, rfl⟩ := h
  exact ⟨b₁.merge b₂, ⟨b₂, b₁, hu₂, hu₁, hagree.symm, rfl⟩, hagree.merge_equiv⟩

/-- Both orders of reading a pair bind the same names to equal terms, or both
fail, each with a fault of its own. -/
theorem Triple.unifyPair_swap (h₁ : s₁.Ground) (h₂ : s₂.Ground) :
    Corresponds (fun _ _ => True) (· ≈ ·) (a₁.unifyPair a₂ s₁ s₂) (a₂.unifyPair a₁ s₂ s₁) := by
  cases hx : a₁.unifyPair a₂ s₁ s₂ with
  | ok b =>
    obtain ⟨b', hb', heq⟩ := ((Triple.unifyPair_eq_ok_iff_joins h₁ h₂).1 hx).swap
    rw [(Triple.unifyPair_eq_ok_iff_joins h₂ h₁).2 hb']
    exact .ok heq
  | error e =>
    cases hy : a₂.unifyPair a₁ s₂ s₁ with
    | ok b' =>
      obtain ⟨b, hb, -⟩ := ((Triple.unifyPair_eq_ok_iff_joins h₂ h₁).1 hy).swap
      rw [(Triple.unifyPair_eq_ok_iff_joins h₁ h₂).2 hb] at hx
      cases hx
    | error e' => exact .error trivial

/-- Reading a pair of ground statements one after the other joins two readings
that know nothing of each other, and it may begin with either of them. -/
theorem reading_a_pair_joins_two_readings (a₁ a₂ : Triple) (h₁ : s₁.Ground) (h₂ : s₂.Ground) :
    (∀ b, a₁.unifyPair a₂ s₁ s₂ = .ok b ↔ b.Joins a₁ a₂ s₁ s₂) ∧
    Corresponds (fun _ _ => True) (· ≈ ·) (a₁.unifyPair a₂ s₁ s₂) (a₂.unifyPair a₁ s₂ s₁) :=
  ⟨fun _ => Triple.unifyPair_eq_ok_iff_joins h₁ h₂, Triple.unifyPair_swap h₁ h₂⟩

/-- A class and its instance spell the class in two ways. Each order of reading
them finds another spelling of it. -/
theorem a_class_is_joined_with_its_instance :
    ∃ a₁ a₂ s₁ s₂ : Triple, ∃ b b' : Bindings,
      a₁ = ⟨Name.uuu.var, Rdfs.subClassOf, Name.xxx.var⟩ ∧
      a₂ = ⟨Name.vvv.var, Rdf.type, Name.uuu.toTerm .blankNode⟩ ∧
      s₁ = ⟨.literal "cat" (.language "en"), Rdfs.subClassOf, .iri "x:Animal"⟩ ∧
      s₂ = ⟨.iri "x:tom", Rdf.type, .literal "cat" (.language "EN")⟩ ∧
      s₁.Ground ∧ s₂.Ground ∧
      b.get? .uuu = some (.literal "cat" (.language "en")) ∧
      b'.get? .uuu = some (.literal "cat" (.language "EN")) ∧
      b.Joins a₁ a₂ s₁ s₂ ∧ a₁.unifyPair a₂ s₁ s₂ = .ok b ∧
      a₂.unifyPair a₁ s₂ s₁ = .ok b' ∧ b ≈ b' := by
  let a₁ : Triple := ⟨Name.uuu.var, Rdfs.subClassOf, Name.xxx.var⟩
  let a₂ : Triple := ⟨Name.vvv.var, Rdf.type, Name.uuu.toTerm .blankNode⟩
  let s₁ : Triple := ⟨.literal "cat" (.language "en"), Rdfs.subClassOf, .iri "x:Animal"⟩
  let s₂ : Triple := ⟨.iri "x:tom", Rdf.type, .literal "cat" (.language "EN")⟩
  have h₁ : s₁.Ground := by decide
  have h₂ : s₂.Ground := by decide
  obtain ⟨hjoin, hswap⟩ := reading_a_pair_joins_two_readings a₁ a₂ h₁ h₂
  generalize hb : a₁.unifyPair a₂ s₁ s₂ = x at hjoin hswap
  generalize hb' : a₂.unifyPair a₁ s₂ s₁ = y at hswap
  cases hswap with
  | @ok b b' heq =>
    have hlower : b.get? .uuu = some (.literal "cat" (.language "en")) := by
      cases hb
      rfl
    have hupper : b'.get? .uuu = some (.literal "cat" (.language "EN")) := by
      cases hb'
      rfl
    exact ⟨a₁, a₂, s₁, s₂, b, b', rfl, rfl, rfl, rfl, h₁, h₂, hlower, hupper,
      (hjoin b).1 rfl, hb, hb', heq⟩
  | error _ => cases hb

end RdfEntailment
