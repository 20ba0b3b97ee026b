-- The law of slots at fault. A statement is not read through a pattern exactly when some
-- slot of the pattern is at fault. Whether a slot is at fault is said of the two triples
-- alone, with no bindings: its term differs, or its name stands in an earlier slot and the
-- statement has another term there. Of several slots at fault, the first one is reported.
import RdfEntailment.Proofs.Reading

namespace RdfEntailment

/-! ## Slots before a slot -/

def Position.earlier (p : Position) : List Position := Position.all.takeWhile fun q => q ≠ p

theorem Position.exists_later (p : Position) : ∃ later, Position.all = p.earlier ++ p :: later := by
  cases p <;> exact ⟨_, rfl⟩

/-- A slot that comes after some others comes after its earlier slots. -/
theorem Position.earlier_eq {p : Position} {done later : List Position}
    (h : Position.all = done ++ p :: later) : p.earlier = done := by
  have hnodup : Position.all.Nodup := by decide
  rw [h, List.nodup_append] at hnodup
  have hbefore : ∀ q ∈ done, q ≠ p := fun q hq => hnodup.2.2 q hq p List.mem_cons_self
  unfold Position.earlier
  rw [h, List.takeWhile_append_of_pos fun q hq => decide_eq_true (hbefore q hq)]
  simp

/-! ## Slots at fault -/

/-- What is wrong with a slot of the pattern. -/
inductive Triple.Fault (a s : Triple) (p : Position) : SlotFault → Prop
  /-- The slot holds no placeholder, and its term does not equal the one of the statement. -/
  | ground (hn : (a.term p).name? = none) (hne : ¬ a.term p ≈ s.term p) :
      Fault a s p (.groundMismatch p)
  /-- The slot holds a name that an earlier slot holds, and the statement has a term here that
  does not equal the one at the first slot of that name. -/
  | repeated {n : Name} {kept : Term} (hn : (a.term p).name? = some n)
      (hkept : capturedAt? p.earlier a s n = some kept) (hne : ¬ kept ≈ s.term p) :
      Fault a s p (.inconsistentBinding p n kept)

def Triple.AtFault (a s : Triple) (p : Position) : Prop := ∃ f, a.Fault s p f

variable {a s : Triple} {p : Position} {n : Name} {v : Term} {f : SlotFault} {b : Bindings}

theorem Triple.fault_iff_of_ground (hn : (a.term p).name? = none) :
    a.Fault s p f ↔ ¬ a.term p ≈ s.term p ∧ f = .groundMismatch p := by
  constructor
  · rintro (⟨-, hne⟩ | ⟨hn', -, -⟩)
    · exact ⟨hne, rfl⟩
    · rw [hn] at hn'
      cases hn'
  · rintro ⟨hne, rfl⟩
    exact .ground hn hne

theorem Triple.fault_iff_of_name (hn : (a.term p).name? = some n) :
    a.Fault s p f ↔ ∃ kept, capturedAt? p.earlier a s n = some kept ∧ ¬ kept ≈ s.term p ∧
      f = .inconsistentBinding p n kept := by
  constructor
  · rintro (⟨hn', -⟩ | ⟨hn', hkept, hne⟩)
    · rw [hn] at hn'
      cases hn'
    · rw [hn] at hn'
      cases hn'
      exact ⟨_, hkept, hne, rfl⟩
  · rintro ⟨kept, hkept, hne, rfl⟩
    exact .repeated hn hkept hne

/-! ## What the earlier slots capture -/

theorem Triple.capturedAt?_append (ps qs : List Position) (a s : Triple) (n : Name) :
    capturedAt? (ps ++ qs) a s n = (capturedAt? ps a s n).or (capturedAt? qs a s n) := by
  unfold capturedAt?
  rw [List.find?_append, Option.map_or]

theorem Triple.capturedAt?_singleton (p : Position) (a s : Triple) (n : Name) :
    capturedAt? [p] a s n = if (a.term p).name? = some n then some (s.term p) else none := by
  unfold capturedAt?
  rw [List.find?_singleton]
  by_cases h : (a.term p).name? = some n <;> simp [h]

theorem Triple.captured?_of_earlier (h : capturedAt? p.earlier a s n = some v) :
    a.captured? s n = some v := by
  obtain ⟨later, hall⟩ := p.exists_later
  rw [Triple.captured?, hall, Triple.capturedAt?_append, h, Option.some_or]

theorem Triple.not_atFault_of_unify (h : a.unify s = .ok b) : ¬ a.AtFault s p := by
  have hsubst := Triple.equiv_iff.1 (Triple.subst_unify h) p
  rw [Triple.term_subst] at hsubst
  rintro ⟨f, hf⟩
  cases hf with
  | ground hn hne =>
    rw [Term.subst_of_ground hn] at hsubst
    exact hne hsubst
  | repeated hn hkept hne =>
    have hbound := (Triple.get?_unify h _).trans (Triple.captured?_of_earlier hkept)
    rw [Term.subst_of_bound hn hbound] at hsubst
    exact hne hsubst

/-! ## The first slot at fault -/

/-- With what the earlier slots capture, a slot is refused exactly when it is at fault. -/
theorem Triple.bindSlot_eq_error_iff (hb : ∀ n, b.get? n = capturedAt? p.earlier a s n) :
    b.bindSlot p (a.term p) (s.term p) = .error f ↔ a.Fault s p f := by
  cases hn : (a.term p).name? with
  | none =>
    rw [Bindings.bindSlot_ground hn, Triple.fault_iff_of_ground hn]
    by_cases hsame : a.term p ≈ s.term p
    · rw [if_pos hsame]
      exact iff_of_false nofun fun h => h.1 hsame
    · rw [if_neg hsame, and_iff_right hsame, Except.error.injEq, eq_comm]
  | some n =>
    rw [Triple.fault_iff_of_name hn, ← hb]
    cases hkept : b.get? n with
    | none => simp [Bindings.bindSlot_new hn hkept]
    | some kept =>
      rw [Bindings.bindSlot_again hn hkept]
      by_cases hsame : kept ≈ s.term p
      · rw [if_pos hsame]
        refine iff_of_false nofun ?_
        rintro ⟨v, hv, hne, -⟩
        cases hv
        exact hne hsame
      · rw [if_neg hsame]
        constructor
        · intro h
          cases h
          exact ⟨kept, rfl, hsame, rfl⟩
        · rintro ⟨v, hv, -, rfl⟩
          cases hv
          rfl

/-- Of these slots, the first one at fault has this fault. -/
def Triple.FirstFault (a s : Triple) (ps : List Position) (f : SlotFault) : Prop :=
  ∃ before p later, ps = before ++ p :: later ∧ a.Fault s p f ∧ ∀ q ∈ before, ¬ a.AtFault s q

theorem Triple.not_firstFault_nil : ¬ a.FirstFault s [] f := by
  rintro ⟨before, p, later, hsplit, -⟩
  simp at hsplit

/-- What comes after a slot at fault does not matter. -/
theorem Triple.firstFault_cons_of_atFault {ps : List Position} (hp : a.AtFault s p) :
    a.FirstFault s (p :: ps) f ↔ a.Fault s p f := by
  constructor
  · rintro ⟨before, q, later, hsplit, hf, hfree⟩
    cases before with
    | nil =>
      cases hsplit
      exact hf
    | cons =>
      cases hsplit
      exact absurd hp (hfree p List.mem_cons_self)
  · exact fun hf => ⟨[], p, ps, rfl, hf, List.forall_mem_nil _⟩

theorem Triple.firstFault_cons_of_not_atFault {ps : List Position} (hp : ¬ a.AtFault s p) :
    a.FirstFault s (p :: ps) f ↔ a.FirstFault s ps f := by
  constructor
  · rintro ⟨before, q, later, hsplit, hf, hfree⟩
    cases before with
    | nil =>
      cases hsplit
      exact absurd ⟨f, hf⟩ hp
    | cons =>
      cases hsplit
      exact ⟨_, q, later, rfl, hf, (List.forall_mem_cons.1 hfree).2⟩
  · rintro ⟨before, q, later, rfl, hf, hfree⟩
    exact ⟨p :: before, q, later, rfl, hf, List.forall_mem_cons.2 ⟨hp, hfree⟩⟩

-- By induction on the slots that are left. The bindings are what the slots that are done
-- capture, so each slot is refused for the fault that it has in itself.
theorem Triple.unifyFrom_eq_error_iff {done left : List Position}
    (hall : Position.all = done ++ left) (hb : ∀ n, b.get? n = capturedAt? done a s n) :
    a.unifyFrom s left b = .error f ↔ a.FirstFault s left f := by
  induction left generalizing done b with
  | nil => exact iff_of_false nofun Triple.not_firstFault_nil
  | cons p left ih =>
    have hslot (g : SlotFault) : b.bindSlot p (a.term p) (s.term p) = .error g ↔ a.Fault s p g :=
      Triple.bindSlot_eq_error_iff (by rwa [Position.earlier_eq hall])
    rw [unifyFrom_cons]
    cases hbind : b.bindSlot p (a.term p) (s.term p) with
    | error g =>
      have hg : a.AtFault s p := ⟨g, (hslot g).1 hbind⟩
      rw [Triple.firstFault_cons_of_atFault hg, ← hslot, hbind]
      rfl
    | ok b' =>
      have hfree : ¬ a.AtFault s p := by
        rintro ⟨g, hg⟩
        rw [(hslot g).2 hg] at hbind
        cases hbind
      have hb' : ∀ n, b'.get? n = capturedAt? (done ++ [p]) a s n := fun n => by
        rw [Bindings.get?_bindSlot hbind, hb, Triple.capturedAt?_append, Triple.capturedAt?_singleton]
      rw [Triple.firstFault_cons_of_not_atFault hfree]
      exact ih (by simpa using hall) hb'

theorem Triple.unify_eq_error_iff :
    a.unify s = .error f ↔ ∃ p, a.Fault s p f ∧ ∀ q ∈ p.earlier, ¬ a.AtFault s q := by
  have hnone : ∀ n, (∅ : Bindings).get? n = capturedAt? [] a s n := fun n => NameMap.get?_empty n
  refine (Triple.unifyFrom_eq_error_iff rfl hnone).trans ?_
  constructor
  · rintro ⟨before, p, later, hall, hf, hfree⟩
    exact ⟨p, hf, by rwa [Position.earlier_eq hall]⟩
  · rintro ⟨p, hf, hfree⟩
    obtain ⟨later, hall⟩ := p.exists_later
    exact ⟨p.earlier, p, later, hall, hf, hfree⟩

theorem Triple.unify_fails_iff : (∃ f, a.unify s = .error f) ↔ ∃ p, a.AtFault s p := by
  constructor
  · rintro ⟨f, hf⟩
    obtain ⟨p, hp, -⟩ := Triple.unify_eq_error_iff.1 hf
    exact ⟨p, f, hp⟩
  · rintro ⟨p, hp⟩
    cases hu : a.unify s with
    | ok b => exact absurd hp (Triple.not_atFault_of_unify hu)
    | error f => exact ⟨f, rfl⟩

/-- The term that is reported as kept is the one first met for the name. -/
theorem Triple.captured?_of_unify_error {kept : Term}
    (h : a.unify s = .error (.inconsistentBinding p n kept)) : a.captured? s n = some kept := by
  obtain ⟨q, hq, -⟩ := Triple.unify_eq_error_iff.1 h
  cases hq with
  | repeated hn hkept hne => exact Triple.captured?_of_earlier hkept

/-! ## The law -/

/-- No slot comes before the subject, so its name is at odds with none. -/
theorem Triple.error_ne_inconsistentBinding_subject (h : a.unify s = .error f) :
    f.error ≠ .inconsistentBinding .subject n := by
  obtain ⟨p, hp, -⟩ := Triple.unify_eq_error_iff.1 h
  cases hp with
  | ground => nofun
  | repeated hn hkept hne =>
    intro h
    cases h
    cases hkept

/-- A reading fails exactly when a slot is at fault, and its error is the one of the first
slot at fault: a mismatch where the slot holds no placeholder, and a binding that is
inconsistent with an earlier slot, never in the subject, where it holds a name. -/
theorem the_first_slot_at_fault_is_reported (a s : Triple) :
    ((∃ f, a.unify s = .error f) ↔ ∃ p, a.AtFault s p) ∧
      (∀ f, a.unify s = .error f ↔ ∃ p, a.Fault s p f ∧ ∀ q ∈ p.earlier, ¬ a.AtFault s q) ∧
      ∀ n, (a.unify s).mapError SlotFault.error ≠ .error (.inconsistentBinding .subject n) := by
  refine ⟨Triple.unify_fails_iff, fun f => Triple.unify_eq_error_iff, fun n => ?_⟩
  cases hu : a.unify s with
  | ok b => nofun
  | error f =>
    intro h
    exact Triple.error_ne_inconsistentBinding_subject hu (Except.error.inj h)

/-- Of a predicate that differs and a name that two flavors bind to two terms, the predicate
comes first. -/
example : Triple.unify ⟨Name.xxx.toTerm .blankNode, .iri "x:knows", Name.xxx.toTerm .literal⟩
    ⟨.iri "x:tom", .iri "x:likes", .iri "x:jerry"⟩ = .error (.groundMismatch .predicate) := rfl

end RdfEntailment
