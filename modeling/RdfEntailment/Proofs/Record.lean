-- The law of the record. One application leaves a log that tells how it went, also where its
-- result does not. It is empty exactly when the statements are refused unread. Each ordering
-- that fails is reported with its own error, and a name at odds is announced right before. Where
-- the antecedents match, the outcome comes last, and only then.
import RdfEntailment.Proofs.ErrorClasses
import RdfEntailment.Proofs.Lines
import RdfEntailment.Proofs.SlotFaults

namespace RdfEntailment

/-! ## What a line tells -/

/-- The error that an event reports. -/
def Event.error? : Event → Option MatchError
  | .alreadyBound _ _ _ => none
  | .unmatched e => some e
  | .firstOrderingFailed e => some e
  | .secondOrderingFailed e => some e
  | .unfinished e => some e
  | .derived _ => none

/-- The event tells what becomes of a rule whose antecedents match. -/
inductive Event.Tells : Event → Except MatchError (List Triple) → Prop
  | derived (ts : List Triple) : Tells (.derived ts) (.ok ts)
  | unfinished (n : Name) : Tells (.unfinished (.underdetermined n)) (.error (.underdetermined n))

/-- The line is traced, and reports an error: of the only reading, or of an ordering. -/
inductive TracesError (label : String) (e : MatchError) : String → Prop
  | only : TracesError label e ("TRACE " ++ label ++ ": " ++ e.message)
  | first : TracesError label e ("TRACE " ++ label ++ ": first ordering failed: " ++ e.message)
  | second : TracesError label e ("TRACE " ++ label ++ ": second ordering failed: " ++ e.message)

/-- The line tells what becomes of a rule whose antecedents match. -/
inductive TellsOutcome (label : String) : Except MatchError (List Triple) → String → Prop
  | derived (ts : List Triple) : TellsOutcome label (.ok ts)
      ("DEBUG " ++ label ++ ": derived " ++ bracketed (ts.map Triple.diagnostic))
  | underdetermined (n : Name) : TellsOutcome label (.error (.underdetermined n))
      ("DEBUG " ++ label ++ ": " ++ (MatchError.underdetermined n).message)

section Lines

variable {label : String} {e : Event} {error : MatchError}
  {outcome : Except MatchError (List Triple)}

theorem Event.Tells.level (h : e.Tells outcome) : e.level = .debug := by
  cases h <;> rfl

theorem Event.Tells.eq {outcome' : Except MatchError (List Triple)} (h : e.Tells outcome)
    (h' : e.Tells outcome') : outcome = outcome' := by
  cases h <;> cases h' <;> rfl

theorem Event.Tells.tellsOutcome (h : e.Tells outcome) :
    TellsOutcome label outcome (e.line label) := by
  cases h with
  | derived ts =>
    rw [Event.line_derived]
    exact .derived ts
  | unfinished n =>
    rw [Event.line_unfinished]
    exact .underdetermined n

theorem TellsOutcome.exists_event {line : String} (h : TellsOutcome label outcome line) :
    ∃ e : Event, e.Tells outcome ∧ e.line label = line := by
  cases h with
  | derived ts => exact ⟨_, .derived ts, Event.line_derived ts⟩
  | underdetermined n => exact ⟨_, .unfinished n, Event.line_unfinished⟩

/-- The line of an outcome tells this outcome and no other. -/
theorem Event.Tells.tellsOutcome_iff (h : e.Tells outcome)
    {result : Except MatchError (List Triple)} :
    TellsOutcome label result (e.line label) ↔ result = outcome := by
  constructor
  · intro hresult
    obtain ⟨e', h', hline⟩ := hresult.exists_event
    rw [Event.line_injective label hline] at h'
    exact h'.eq h
  · rintro rfl
    exact h.tellsOutcome

theorem TracesError.exists_event {line : String} (h : TracesError label error line) :
    ∃ e : Event, e.error? = some error ∧ e.line label = line := by
  cases h with
  | only => exact ⟨.unmatched error, rfl, Event.line_unmatched⟩
  | first => exact ⟨.firstOrderingFailed error, rfl, Event.line_firstOrderingFailed⟩
  | second => exact ⟨.secondOrderingFailed error, rfl, Event.line_secondOrderingFailed⟩

theorem TracesError.error? (h : TracesError label error (e.line label)) : e.error? = some error := by
  obtain ⟨e', h', hline⟩ := h.exists_event
  rw [← Event.line_injective label hline]
  exact h'

theorem Event.eq_alreadyBound_of_line {p : Position} {n : Name} {kept : Term}
    (h : e.line label =
      "TRACE " ++ p.text ++ ": " ++ n.text ++ " is already bound to " ++ kept.diagnostic) :
    e = .alreadyBound p n kept :=
  Event.line_injective label (h.trans (Event.line_alreadyBound p n kept).symm)

end Lines

/-! ## Readings that fail -/

section Readings

variable {a₁ a₂ s₁ s₂ a s : Triple} {f : SlotFault} {r : Rule} {ss : List Triple} {line : String}

/-- The reading in which a pair fails: that of the first statement, or that of the second one,
with what the first has bound in its place. -/
inductive Triple.PairFault (a₁ a₂ s₁ s₂ : Triple) : Triple → Triple → SlotFault → Prop
  | first {f : SlotFault} (h : a₁.unify s₁ = .error f) : PairFault a₁ a₂ s₁ s₂ a₁ s₁ f
  | second {b₁ : Bindings} {f : SlotFault} (h₁ : a₁.unify s₁ = .ok b₁)
      (h₂ : (a₂.subst b₁).unify (s₂.subst b₁) = .error f) :
      PairFault a₁ a₂ s₁ s₂ (a₂.subst b₁) (s₂.subst b₁) f

theorem Triple.PairFault.unify (h : a₁.PairFault a₂ s₁ s₂ a s f) : a.unify s = .error f := by
  cases h <;> assumption

theorem Triple.exists_pairFault (h : a₁.unifyPair a₂ s₁ s₂ = .error f) :
    ∃ a s, a₁.PairFault a₂ s₁ s₂ a s f := by
  unfold Triple.unifyPair at h
  cases h₁ : a₁.unify s₁ with
  | error g =>
    rw [h₁] at h
    cases h
    exact ⟨a₁, s₁, .first h₁⟩
  | ok b₁ =>
    rw [h₁] at h
    cases h₂ : (a₂.subst b₁).unify (s₂.subst b₁) with
    | error g =>
      simp only [bind, Except.bind, h₂] at h
      cases h
      exact ⟨_, _, .second h₁ h₂⟩
    | ok b₂ =>
      simp only [bind, Except.bind, h₂] at h
      cases h

/-- The line reports that this reading has failed, with this fault. -/
inductive Rule.Reports (r : Rule) (ss : List Triple) :
    String → Triple → Triple → SlotFault → Prop
  | unmatched {a s : Triple} {f : SlotFault} (hr : r.ranked = [a]) (hs : ss = [s])
      (h : a.unify s = .error f) :
      Reports r ss ("TRACE " ++ r.label ++ ": " ++ f.error.message) a s f
  | given {a₁ a₂ s₁ s₂ a s : Triple} {f : SlotFault} (hr : r.ranked = [a₁, a₂])
      (hs : ss = [s₁, s₂]) (h : a₁.PairFault a₂ s₁ s₂ a s f) :
      Reports r ss ("TRACE " ++ r.label ++ ": first ordering failed: " ++ f.error.message) a s f
  | swapped {a₁ a₂ s₁ s₂ a s : Triple} {f : SlotFault} (hr : r.ranked = [a₁, a₂])
      (hs : ss = [s₁, s₂]) (h : a₁.PairFault a₂ s₂ s₁ a s f) :
      Reports r ss ("TRACE " ++ r.label ++ ": second ordering failed: " ++ f.error.message) a s f

theorem Rule.Reports.unify (h : r.Reports ss line a s f) : a.unify s = .error f := by
  cases h with
  | unmatched _ _ h => exact h
  | given _ _ h => exact h.unify
  | swapped _ _ h => exact h.unify

end Readings

/-! ## Names at odds -/

section Announcements

variable {r : Rule} {ss : List Triple} {e : Event} {a s : Triple} {f : SlotFault}
  {log log' : List String}

/-- A log that announces each name at odds right before the line that reports it, with the term
that this reading has met first for the name, and announces nothing else. -/
inductive Rule.Announces (r : Rule) (ss : List Triple) : List String → Prop
  | nil : Announces r ss []
  | plain {line : String} {log : List String}
      (hbound : ∀ (p : Position) (n : Name) (kept : Term), line ≠
        "TRACE " ++ p.text ++ ": " ++ n.text ++ " is already bound to " ++ kept.diagnostic)
      (herror : ∀ p n, ¬ TracesError r.label (.inconsistentBinding p n) line)
      (h : Announces r ss log) : Announces r ss (line :: log)
  | announced {p : Position} {n : Name} {kept : Term} {line : String} {a s : Triple}
      {log : List String} (hline : r.Reports ss line a s (.inconsistentBinding p n kept))
      (hkept : a.captured? s n = some kept) (h : Announces r ss log) :
      Announces r ss (("TRACE " ++ p.text ++ ": " ++ n.text ++ " is already bound to " ++
        kept.diagnostic) :: line :: log)

theorem Rule.Announces.append (h : r.Announces ss log) (h' : r.Announces ss log') :
    r.Announces ss (log ++ log') := by
  induction h with
  | nil => exact h'
  | plain hbound herror _ ih => exact .plain hbound herror ih
  | announced hline hkept _ ih => exact .announced hline hkept ih

/-- A fault that an event reports, with its announcement if it is one of a name. -/
def SlotFault.report (f : SlotFault) (event : MatchError → Event) : List Event :=
  f.events ++ [event f.error]

theorem Rule.announces_singleton (hbound : ∀ p n kept, e ≠ .alreadyBound p n kept)
    (herror : ∀ p n, e.error? ≠ some (.inconsistentBinding p n)) :
    r.Announces ss [e.line r.label] :=
  .plain (fun p n kept h => hbound p n kept (Event.eq_alreadyBound_of_line h))
    (fun p n h => herror p n h.error?) .nil

theorem Event.Tells.announces {outcome : Except MatchError (List Triple)} (h : e.Tells outcome) :
    r.Announces ss [e.line r.label] := by
  refine Rule.announces_singleton ?_ ?_
  · cases h <;> nofun
  · cases h <;> nofun

/-- A fault that is reported is announced before, if it is one of a name. -/
theorem Rule.Reports.announces {event : MatchError → Event}
    (h : r.Reports ss ((event f.error).line r.label) a s f)
    (hevent : (event f.error).error? = some f.error) :
    r.Announces ss ((f.report event).map (·.line r.label)) := by
  cases f with
  | groundMismatch p =>
    refine Rule.announces_singleton ?_ ?_
    · intro p n kept he
      rw [SlotFault.error] at hevent
      rw [SlotFault.error] at he
      rw [he] at hevent
      cases hevent
    · intro q n hq
      rw [hevent] at hq
      cases hq
  | inconsistentBinding p n kept =>
    rw [SlotFault.report, SlotFault.events, List.map_append, List.map_singleton,
      Event.line_alreadyBound]
    exact .announced h (Triple.captured?_of_unify_error h.unify) .nil

end Announcements

/-! ## The course of a match -/

section Course

variable {r : Rule} {ss : List Triple} {outcome : Except MatchError Bindings}
  {tried : List Event} {e : Event}

/-- The ways in which the antecedents are matched, each with its result and with what is
recorded on it. -/
inductive Rule.Course (r : Rule) (ss : List Triple) :
    Except MatchError Bindings → List Event → Prop
  | arity (h : r.antecedents.length ≠ ss.length) :
      Course r ss (.error (.arity r.antecedents.length ss.length)) []
  | unsupported (h : r.antecedents.length = ss.length) :
      Course r ss (.error (.unsupportedRule r.antecedents.length)) []
  | read {a s : Triple} {b : Bindings} (hr : r.ranked = [a]) (hs : ss = [s])
      (h : a.unify s = .ok b) : Course r ss (.ok b) []
  | unread {a s : Triple} {f : SlotFault} (hr : r.ranked = [a]) (hs : ss = [s])
      (h : a.unify s = .error f) : Course r ss (.error f.error) (f.report .unmatched)
  | given {a₁ a₂ s₁ s₂ : Triple} {b : Bindings} (hr : r.ranked = [a₁, a₂]) (hs : ss = [s₁, s₂])
      (h : a₁.unifyPair a₂ s₁ s₂ = .ok b) : Course r ss (.ok b) []
  | swapped {a₁ a₂ s₁ s₂ : Triple} {f : SlotFault} {b : Bindings} (hr : r.ranked = [a₁, a₂])
      (hs : ss = [s₁, s₂]) (h : a₁.unifyPair a₂ s₁ s₂ = .error f)
      (h' : a₁.unifyPair a₂ s₂ s₁ = .ok b) : Course r ss (.ok b) (f.report .firstOrderingFailed)
  | neither {a₁ a₂ s₁ s₂ : Triple} {f f' : SlotFault} (hr : r.ranked = [a₁, a₂])
      (hs : ss = [s₁, s₂]) (h : a₁.unifyPair a₂ s₁ s₂ = .error f)
      (h' : a₁.unifyPair a₂ s₂ s₁ = .error f') : Course r ss (.error .noOrdering)
        (f.report .firstOrderingFailed ++ f'.report .secondOrderingFailed)

theorem Rule.course (r : Rule) (ss : List Triple) :
    r.Course ss (r.solve ss) (r.solveTraced ss).events := by
  unfold Rule.solve Rule.solveTraced Rule.matchRanked
  split
  · rename_i hlen
    split
    · rename_i a s hr
      unfold Triple.unifyTraced
      split
      · exact .read hr rfl ‹_›
      · exact .unread hr rfl ‹_›
    · rename_i a₁ a₂ s₁ s₂ hr
      unfold Triple.unifyEitherWay
      split
      · exact .given hr rfl ‹_›
      · split
        · exact .swapped hr rfl ‹_› ‹_›
        · simpa only [SlotFault.report, List.append_assoc] using
            Rule.Course.neither hr rfl ‹_› ‹_›
    · exact .unsupported hlen
  · exact .arity ‹_›

theorem Rule.course_of_solve (h : r.solve ss = outcome) :
    r.Course ss outcome (r.solveTraced ss).events := by
  rw [← h]
  exact r.course ss

theorem SlotFault.mem_events {f : SlotFault} :
    e ∈ f.events ↔
      ∃ p n kept, f = .inconsistentBinding p n kept ∧ e = .alreadyBound p n kept := by
  cases f <;> simp [SlotFault.events]

theorem SlotFault.mem_report {f : SlotFault} {event : MatchError → Event} :
    e ∈ f.report event ↔
      (∃ p n kept, f = .inconsistentBinding p n kept ∧ e = .alreadyBound p n kept) ∨
        e = event f.error := by
  rw [SlotFault.report, List.mem_append, SlotFault.mem_events, List.mem_singleton]

theorem SlotFault.level_of_mem_report {f : SlotFault} {event : MatchError → Event}
    (hevent : (event f.error).level = .trace) (he : e ∈ f.report event) : e.level = .trace := by
  rcases SlotFault.mem_report.1 he with ⟨p, n, kept, -, rfl⟩ | rfl
  · rfl
  · exact hevent

theorem Rule.Course.level (h : r.Course ss outcome tried) : ∀ e ∈ tried, e.level = .trace := by
  intro e he
  cases h with
  | arity | unsupported | read | given => cases he
  | unread | swapped => exact SlotFault.level_of_mem_report rfl he
  | neither =>
    rcases List.mem_append.1 he with he | he
    · exact SlotFault.level_of_mem_report rfl he
    · exact SlotFault.level_of_mem_report rfl he

theorem Rule.Course.announces (h : r.Course ss outcome tried) :
    r.Announces ss (tried.map (·.line r.label)) := by
  have hgiven {a₁ a₂ s₁ s₂ : Triple} {f : SlotFault} (hr : r.ranked = [a₁, a₂])
      (hs : ss = [s₁, s₂]) (h : a₁.unifyPair a₂ s₁ s₂ = .error f) :
      r.Announces ss ((f.report .firstOrderingFailed).map (·.line r.label)) := by
    obtain ⟨a, s, hf⟩ := Triple.exists_pairFault h
    have hread : r.Reports ss ((Event.firstOrderingFailed f.error).line r.label) a s f := by
      rw [Event.line_firstOrderingFailed]
      exact .given hr hs hf
    exact hread.announces rfl
  cases h with
  | arity | unsupported | read | given => exact .nil
  | @unread a s f hr hs h =>
    have hread : r.Reports ss ((Event.unmatched f.error).line r.label) a s f := by
      rw [Event.line_unmatched]
      exact .unmatched hr hs h
    exact hread.announces rfl
  | swapped hr hs h _ => exact hgiven hr hs h
  | @neither _ _ _ _ f f' hr hs h h' =>
    obtain ⟨a, s, hf⟩ := Triple.exists_pairFault h'
    have hread : r.Reports ss ((Event.secondOrderingFailed f'.error).line r.label) a s f' := by
      rw [Event.line_secondOrderingFailed]
      exact .swapped hr hs hf
    rw [List.map_append]
    exact (hgiven hr hs h).append (hread.announces rfl)

/-- Only statements that are refused unread leave nothing. -/
theorem Rule.Course.eq_nil_iff {e : MatchError} (h : r.Course ss (.error e) tried) :
    tried = [] ↔ (∃ k n, e = .arity k n) ∨ ∃ k, e = .unsupportedRule k := by
  cases h with
  | arity => simp
  | unsupported => simp
  | @unread _ _ f => cases f <;> simp [SlotFault.report, SlotFault.error]
  | neither => simp [SlotFault.report]

/-- The second ordering is reported after the first one, and last. -/
theorem Rule.Course.of_secondOrderingFailed {e : MatchError} (h : r.Course ss outcome tried)
    (he : .secondOrderingFailed e ∈ tried) :
    ∃ a₁ a₂ s₁ s₂ f f', r.ranked = [a₁, a₂] ∧ ss = [s₁, s₂] ∧
      a₁.unifyPair a₂ s₁ s₂ = .error f ∧ a₁.unifyPair a₂ s₂ s₁ = .error f' ∧ e = f'.error ∧
      outcome = .error .noOrdering ∧
      tried = f.events ++ .firstOrderingFailed f.error :: f'.events ++ [.secondOrderingFailed e] := by
  cases h with
  | arity | unsupported | read | given => cases he
  | unread | swapped => simp [SlotFault.mem_report] at he
  | @neither _ _ _ _ f f' hr hs h h' =>
    have he : e = f'.error := by simpa [SlotFault.mem_report] using he
    subst he
    exact ⟨_, _, _, _, f, f', hr, hs, h, h', rfl, rfl, by simp [SlotFault.report]⟩

theorem Rule.Course.exists_secondOrderingFailed (h : r.Course ss (.error .noOrdering) tried) :
    ∃ e, .secondOrderingFailed e ∈ tried := by
  -- The result of a course is an index of it, and that of a fault is no constructor yet.
  generalize hout : Except.error (α := Bindings) MatchError.noOrdering = outcome at h
  cases h with
  | neither => exact ⟨_, List.mem_append_right _ (SlotFault.mem_report.2 (Or.inr rfl))⟩
  | @unread _ _ f => cases f <;> cases hout
  | _ => cases hout

end Course

/-! ## The whole record -/

section Events

variable {r : Rule} {ss : List Triple}

theorem Rule.events_of_solve_error {e : MatchError} (h : r.solve ss = .error e) :
    r.events ss = (r.solveTraced ss).events := by
  have hresult : (r.solveTraced ss).result = .error e := h
  rw [Rule.events, Rule.applyTraced, Traced.andThen, hresult]

theorem Rule.events_of_solve_ok {b : Bindings} (h : r.solve ss = .ok b) :
    ∃ last : Event, last.Tells (r.apply ss) ∧ r.events ss = (r.solveTraced ss).events ++ [last] := by
  have hresult : (r.solveTraced ss).result = .ok b := h
  have happly : r.apply ss = Triple.instantiateAll r.consequents b := by
    rw [Rule.apply_eq_bind, h]
    rfl
  have hevents : r.events ss = (r.solveTraced ss).events ++ (r.conclude b).events := by
    rw [Rule.events, Rule.applyTraced, Traced.andThen, hresult]
  rw [hevents, happly, Rule.conclude]
  cases hall : Triple.instantiateAll r.consequents b with
  | ok ts => exact ⟨_, .derived ts, rfl⟩
  | error e =>
    obtain ⟨n, rfl, -⟩ := Triple.instantiateAll_eq_error_iff.1 hall
    exact ⟨_, .unfinished n, rfl⟩

/-- The outcome alone is not traced. -/
theorem Rule.mem_events_of_trace {e : Event} (he : e.level = .trace) :
    e ∈ r.events ss ↔ e ∈ (r.solveTraced ss).events := by
  cases hsolve : r.solve ss with
  | error _ => rw [Rule.events_of_solve_error hsolve]
  | ok b =>
    obtain ⟨last, htells, hevents⟩ := Rule.events_of_solve_ok hsolve
    have hne : e ≠ last := by
      rintro rfl
      rw [htells.level] at he
      cases he
    rw [hevents, List.mem_append, List.mem_singleton, or_iff_left hne]

theorem Rule.events_eq_nil_iff : r.events ss = [] ↔
    (∃ k n, r.apply ss = .error (.arity k n)) ∨ ∃ k, r.apply ss = .error (.unsupportedRule k) := by
  cases hsolve : r.solve ss with
  | error e =>
    rw [Rule.events_of_solve_error hsolve, Rule.apply_of_solve_error hsolve,
      (Rule.course_of_solve hsolve).eq_nil_iff]
    simp only [Except.error.injEq]
  | ok b =>
    obtain ⟨last, htells, hevents⟩ := Rule.events_of_solve_ok hsolve
    rw [hevents]
    refine iff_of_false (by simp) ?_
    rintro (⟨k, n, h⟩ | ⟨k, h⟩)
    · rw [h] at htells
      cases htells
    · rw [h] at htells
      cases htells

theorem Rule.exists_debug_iff :
    (∃ e ∈ r.events ss, e.level = .debug) ↔ ∃ b, r.solve ss = .ok b := by
  cases hsolve : r.solve ss with
  | error e =>
    rw [Rule.events_of_solve_error hsolve]
    refine iff_of_false ?_ nofun
    rintro ⟨e, he, hdebug⟩
    rw [(r.course ss).level e he] at hdebug
    cases hdebug
  | ok b =>
    obtain ⟨last, htells, hevents⟩ := Rule.events_of_solve_ok hsolve
    rw [hevents]
    exact iff_of_true ⟨last, by simp, htells.level⟩ ⟨b, rfl⟩

theorem Rule.firstOrderingFailed_mem_iff {a₁ a₂ s₁ s₂ : Triple} (hr : r.ranked = [a₁, a₂])
    {e : MatchError} : .firstOrderingFailed e ∈ r.events [s₁, s₂] ↔
      ∃ f, a₁.unifyPair a₂ s₁ s₂ = .error f ∧ e = f.error := by
  have htraced : r.solveTraced [s₁, s₂] = a₁.unifyEitherWay a₂ s₁ s₂ := by
    simp [Rule.solveTraced, Rule.matchRanked, Rule.length_of_ranked_eq_two hr, hr]
  rw [Rule.mem_events_of_trace rfl, htraced, Triple.unifyEitherWay]
  cases a₁.unifyPair a₂ s₁ s₂ with
  | ok b => simp
  | error f => cases a₁.unifyPair a₂ s₂ s₁ <;> simp [SlotFault.mem_events]

theorem Rule.exists_secondOrderingFailed_iff :
    (∃ e, .secondOrderingFailed e ∈ r.events ss) ↔ r.apply ss = .error .noOrdering := by
  simp only [Rule.mem_events_of_trace (show (Event.secondOrderingFailed _).level = .trace from rfl)]
  constructor
  · rintro ⟨e, he⟩
    obtain ⟨-, -, -, -, -, -, -, -, -, -, -, hsolve, -⟩ := (r.course ss).of_secondOrderingFailed he
    exact Rule.apply_of_solve_error hsolve
  · intro h
    cases hsolve : r.solve ss with
    | ok b =>
      obtain ⟨n, hn⟩ := Rule.underdetermined_of_apply_error hsolve h
      cases hn
    | error e =>
      rw [Rule.apply_of_solve_error hsolve] at h
      cases h
      exact (Rule.course_of_solve hsolve).exists_secondOrderingFailed

theorem Rule.announces_log (r : Rule) (ss : List Triple) : r.Announces ss (r.log ss) := by
  rw [Rule.log]
  cases hsolve : r.solve ss with
  | error e =>
    rw [Rule.events_of_solve_error hsolve]
    exact (r.course ss).announces
  | ok b =>
    obtain ⟨last, htells, hevents⟩ := Rule.events_of_solve_ok hsolve
    rw [hevents, List.map_append, List.map_singleton]
    exact (r.course ss).announces.append htells.announces

end Events

/-! ## The law -/

/-- The log tells how a rule comes to what it makes of the statements. -/
structure Rule.Recounts (r : Rule) (ss : List Triple) (log : List String) : Prop where
  /-- It is empty exactly when the statements are refused unread. -/
  silent : log = [] ↔
    (∃ k n, r.apply ss = .error (.arity k n)) ∨ ∃ k, r.apply ss = .error (.unsupportedRule k)
  matched : (∃ text, "DEBUG " ++ text ∈ log) ↔ ∃ b, r.solve ss = .ok b
  /-- Where the antecedents match, what becomes of the rule is told last, and only that. All else
  is traced. -/
  outcome : ∀ b, r.solve ss = .ok b → ∃ tried last, log = tried ++ [last] ∧
    (∀ result, TellsOutcome r.label result last ↔ result = r.apply ss) ∧
      ∀ line ∈ tried, ∃ text, line = "TRACE " ++ text
  /-- The order given is reported exactly when it fails, with its error. -/
  given : ∀ a₁ a₂ s₁ s₂, r.ranked = [a₁, a₂] → ss = [s₁, s₂] → ∀ e : MatchError,
    "TRACE " ++ r.label ++ ": first ordering failed: " ++ e.message ∈ log ↔
      ∃ f, a₁.unifyPair a₂ s₁ s₂ = .error f ∧ e = f.error
  neither : (∃ e : MatchError,
      "TRACE " ++ r.label ++ ": second ordering failed: " ++ e.message ∈ log) ↔
    r.apply ss = .error .noOrdering
  /-- The other order is reported after the one given, and last, with its own error. -/
  swapped : ∀ e : MatchError,
    "TRACE " ++ r.label ++ ": second ordering failed: " ++ e.message ∈ log →
      ∃ a₁ a₂ s₁ s₂ f f' before between, r.ranked = [a₁, a₂] ∧ ss = [s₁, s₂] ∧
        a₁.unifyPair a₂ s₁ s₂ = .error f ∧ a₁.unifyPair a₂ s₂ s₁ = .error f' ∧ e = f'.error ∧
        log = before ++
          ("TRACE " ++ r.label ++ ": first ordering failed: " ++ f.error.message) :: between ++
            ["TRACE " ++ r.label ++ ": second ordering failed: " ++ e.message]
  /-- A single antecedent that fails is reported last, with the error that is returned. -/
  unmatched : ∀ a s f, r.ranked = [a] → ss = [s] → a.unify s = .error f →
    r.apply ss = .error f.error ∧
      ∃ before, log = before ++ ["TRACE " ++ r.label ++ ": " ++ f.error.message]
  announces : r.Announces ss log

theorem Rule.exists_debug_mem_log_iff {r : Rule} {ss : List Triple} :
    (∃ text, "DEBUG " ++ text ∈ r.log ss) ↔ ∃ e ∈ r.events ss, e.level = .debug := by
  constructor
  · rintro ⟨text, htext⟩
    obtain ⟨e, he, hline⟩ := List.mem_map.1 htext
    exact ⟨e, he, (Event.exists_line_eq_iff (l := .debug)).1 ⟨text, hline⟩⟩
  · rintro ⟨e, he, hlevel⟩
    obtain ⟨text, hline⟩ := Event.exists_line_eq_iff.2 hlevel
    exact ⟨text, List.mem_map.2 ⟨e, he, hline⟩⟩

/-- The record of an application tells how it went: which orderings have failed, with the
error of each and the term that a name at odds has met first, and what has become of the
consequents. -/
theorem the_record_tells_how_it_went (r : Rule) (ss : List Triple) :
    r.Recounts ss (r.log ss) where
  silent := by
    rw [Rule.log, List.map_eq_nil_iff]
    exact Rule.events_eq_nil_iff
  matched := Rule.exists_debug_mem_log_iff.trans Rule.exists_debug_iff
  outcome b hb := by
    obtain ⟨last, htells, hevents⟩ := Rule.events_of_solve_ok hb
    refine ⟨_, last.line r.label, by rw [Rule.log, hevents, List.map_append]; rfl,
      fun _ => htells.tellsOutcome_iff, ?_⟩
    intro line hline
    obtain ⟨e, he, rfl⟩ := List.mem_map.1 hline
    exact (Event.exists_line_eq_iff (l := .trace)).2 ((r.course ss).level e he)
  given a₁ a₂ s₁ s₂ hr hs e := by
    rw [hs, ← Event.line_firstOrderingFailed, Rule.line_mem_log_iff]
    exact Rule.firstOrderingFailed_mem_iff hr
  neither := by
    simp only [← Event.line_secondOrderingFailed, Rule.line_mem_log_iff]
    exact Rule.exists_secondOrderingFailed_iff
  swapped e he := by
    rw [← Event.line_secondOrderingFailed, Rule.line_mem_log_iff, Rule.mem_events_of_trace rfl]
      at he
    obtain ⟨a₁, a₂, s₁, s₂, f, f', hr, hs, h, h', rfl, hsolve, htried⟩ :=
      (r.course ss).of_secondOrderingFailed he
    refine ⟨a₁, a₂, s₁, s₂, f, f', f.events.map (·.line r.label), f'.events.map (·.line r.label),
      hr, hs, h, h', rfl, ?_⟩
    rw [Rule.log, Rule.events_of_solve_error hsolve, htried, ← Event.line_firstOrderingFailed,
      ← Event.line_secondOrderingFailed, List.map_append, List.map_append]
    rfl
  unmatched a s f hr hs h := by
    have hsolve : r.solve ss = .error f.error := by
      rw [hs, Rule.solve_one (Rule.length_of_ranked_eq_one hr) hr, h]
      rfl
    have htraced : r.solveTraced ss = a.unifyTraced s := by
      simp [Rule.solveTraced, Rule.matchRanked, Rule.length_of_ranked_eq_one hr, hr, hs]
    refine ⟨Rule.apply_of_solve_error hsolve, f.events.map (·.line r.label), ?_⟩
    rw [Rule.log, Rule.events_of_solve_error hsolve, htraced, Triple.unifyTraced, h,
      ← Event.line_unmatched, List.map_append]
    rfl
  announces := r.announces_log ss

/-- A parent who knows someone. -/
def knownParent : Rule where
  name := some "known parent"
  antecedents := [⟨Name.xxx.var, .iri "x:parentOf", Name.yyy.var⟩,
    ⟨Name.zzz.toTerm .blankNode, .iri "x:knows", Name.zzz.toTerm .literal⟩]
  consequents := [⟨Name.xxx.var, .iri "x:knows", Name.zzz.var⟩]
  constraints := ∅

/-- A placeholder in the second statement is rewritten before it is read, so a name is at odds
with a term that does not stand in any slot of that statement, and the announcement tells it.
The result tells neither this nor the error of each ordering. Where the second ordering
matches, the record still tells of the first. -/
theorem a_rewritten_statement_is_announced :
    ∃ s₁ s₂ s₃ t : Triple,
      s₁ = ⟨.iri "x:tom", .iri "x:parentOf", .iri "x:bob"⟩ ∧
      s₂ = ⟨Name.xxx.toTerm .blankNode, .iri "x:knows", .iri "x:jerry"⟩ ∧
      s₃ = ⟨.iri "x:jerry", .iri "x:knows", .iri "x:jerry"⟩ ∧
      t = ⟨.iri "x:tom", .iri "x:knows", .iri "x:jerry"⟩ ∧
      knownParent.log [s₁, s₂] =
        ["TRACE object: zzz is already bound to Iri(IriRef(\"x:tom\"))",
          "TRACE known parent: first ordering failed: Inconsistent binding of zzz in object",
          "TRACE known parent: second ordering failed: Ground term mismatch in predicate"] ∧
      knownParent.Announces [s₁, s₂] (knownParent.log [s₁, s₂]) ∧
      knownParent.apply [s₁, s₂] = .error .noOrdering ∧
      knownParent.log [s₃, s₁] =
        ["TRACE known parent: first ordering failed: Ground term mismatch in predicate",
          "DEBUG known parent: derived [" ++ t.diagnostic ++ "]"] ∧
      ∃ tried last, knownParent.log [s₃, s₁] = tried ++ [last] ∧
        (∀ result, TellsOutcome "known parent" result last ↔ result = .ok [t]) ∧
        ∀ line ∈ tried, ∃ text, line = "TRACE " ++ text := by
  let s₁ : Triple := ⟨.iri "x:tom", .iri "x:parentOf", .iri "x:bob"⟩
  let s₂ : Triple := ⟨Name.xxx.toTerm .blankNode, .iri "x:knows", .iri "x:jerry"⟩
  let s₃ : Triple := ⟨.iri "x:jerry", .iri "x:knows", .iri "x:jerry"⟩
  let t : Triple := ⟨.iri "x:tom", .iri "x:knows", .iri "x:jerry"⟩
  have hneither := the_record_tells_how_it_went knownParent [s₁, s₂]
  have hswapped := the_record_tells_how_it_went knownParent [s₃, s₁]
  have hlog : knownParent.log [s₁, s₂] =
      ["TRACE object: zzz is already bound to Iri(IriRef(\"x:tom\"))",
        "TRACE known parent: first ordering failed: Inconsistent binding of zzz in object",
        "TRACE known parent: second ordering failed: Ground term mismatch in predicate"] := by
    rw [Rule.log, Rule.events_of_declared (by decide)]
    decide
  have hsecond : ∃ e : MatchError, "TRACE known parent: second ordering failed: " ++ e.message ∈
      knownParent.log [s₁, s₂] := ⟨.groundMismatch .predicate, by rw [hlog]; decide⟩
  have hlog' : knownParent.log [s₃, s₁] =
      ["TRACE known parent: first ordering failed: Ground term mismatch in predicate",
        "DEBUG known parent: derived [" ++ t.diagnostic ++ "]"] := by
    rw [Rule.log, Rule.events_of_declared (by decide)]
    decide
  have hderived : knownParent.apply [s₃, s₁] = .ok [t] := Rule.apply_of_declared (by decide) _
  have houtcome := hswapped.outcome _ (Rule.solve_of_declared (by decide) _)
  rw [hderived] at houtcome
  exact ⟨s₁, s₂, s₃, t, rfl, rfl, rfl, rfl, hlog, hneither.announces, hneither.neither.1 hsecond,
    hlog', houtcome⟩

end RdfEntailment
