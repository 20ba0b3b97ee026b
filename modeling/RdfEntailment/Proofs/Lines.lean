-- The record can be read back. A line begins with its level and ends with a term, a list or the
-- words for an error, so no two events of one rule are written alike, and the lines tell all
-- that the events do.
import Mathlib.Data.List.Basic
import RdfEntailment.Proofs.Legibility
import Std.Data.String.ToNat

namespace RdfEntailment

/-! ## Errors -/

theorem Position.legible_text : Legible Position.text := by
  intro p q x y h
  cases p <;> cases q <;> first
    | exact ⟨rfl, (String.append_right_inj _).1 h⟩
    | simp [Position.text, ← String.toList_inj] at h

/-- All names are equally long. -/
theorem Name.legible_text : Legible Name.text := by
  intro m n x y h
  have hlength (k : Name) : k.text.toList.length = 3 := by cases k <;> rfl
  have hchars : m.text.toList ++ x.toList = n.text.toList ++ y.toList := by
    rw [← String.toList_append, h, String.toList_append]
  obtain ⟨htext, hrest⟩ := List.append_inj hchars ((hlength m).trans (hlength n).symm)
  exact ⟨Name.text_injective (String.toList_inj.1 htext), String.toList_inj.1 hrest⟩

theorem toString_append_space_inj {m n : Nat} {x y : String}
    (h : toString m ++ (" " ++ x) = toString n ++ (" " ++ y)) : m = n ∧ x = y := by
  have hspace (k : Nat) : ' ' ∉ (toString k).toList := by
    rw [Nat.toString_eq_ofList_toDigits, String.toList_ofList]
    exact fun hmem =>
      absurd (Nat.isDigit_of_mem_toDigits (by decide) (by decide) hmem) (by decide)
  have hchars : (toString m).toList ++ ' ' :: x.toList = (toString n).toList ++ ' ' :: y.toList := by
    simpa [← String.toList_inj] using h
  obtain ⟨hnumber, hrest⟩ := append_cons_inj (hspace m) (hspace n) hchars
  exact ⟨Nat.repr_inj.1 (String.toList_inj.1 hnumber), String.toList_inj.1 hrest⟩

/-- The letter that the words for an error begin with. It tells the kind of the error. -/
def MatchError.initial : MatchError → Char
  | .arity _ _ => 'E'
  | .unsupportedRule _ => 'U'
  | .groundMismatch _ => 'G'
  | .inconsistentBinding _ _ => 'I'
  | .noOrdering => 'N'
  | .underdetermined _ => 'C'

theorem head?_append {a : Char} {s : String} (h : s.toList.head? = some a) (t : String) :
    (s ++ t).toList.head? = some a := by
  rw [String.toList_append, List.head?_append, h]
  rfl

theorem MatchError.head?_message (e : MatchError) : e.message.toList.head? = some e.initial := by
  cases e with
  | arity | inconsistentBinding => exact head?_append (head?_append (head?_append rfl _) _) _
  | unsupportedRule | underdetermined => exact head?_append (head?_append rfl _) _
  | groundMismatch => exact head?_append rfl _
  | noOrdering => rfl

/-- The words for an error begin with a capital. -/
theorem MatchError.message_ne_append (e : MatchError) {w : String} {a : Char}
    (hw : w.toList.head? = some a) (ha : a.isUpper = false) (t : String) : e.message ≠ w ++ t := by
  intro h
  have hhead := e.head?_message
  rw [h, head?_append hw] at hhead
  have hupper : e.initial.isUpper = true := by cases e <;> rfl
  rw [← Option.some.inj hhead, ha] at hupper
  cases hupper

theorem getLast?_append {a : Char} {t : String} (h : t.toList.getLast? = some a) (s : String) :
    (s ++ t).toList.getLast? = some a := by
  rw [String.toList_append, List.getLast?_append, h]
  rfl

/-- The words for an error do not end in a bracket, as a term does. -/
theorem MatchError.exists_getLast?_message (e : MatchError) :
    ∃ a, e.message.toList.getLast? = some a ∧ a ≠ ')' := by
  have hposition (p : Position) : ∃ a, p.text.toList.getLast? = some a ∧ a ≠ ')' := by
    cases p <;> exact ⟨_, rfl, by decide⟩
  cases e with
  | arity expected found =>
    have hdigits : (toString found).toList = Nat.toDigits 10 found := by
      rw [Nat.toString_eq_ofList_toDigits, String.toList_ofList]
    obtain ⟨a, hlast⟩ : ∃ a, (Nat.toDigits 10 found).getLast? = some a :=
      ⟨_, List.getLast?_eq_some_getLast Nat.toDigits_ne_nil⟩
    have hdigit : a.isDigit = true :=
      Nat.isDigit_of_mem_toDigits (by decide) (by decide) (List.mem_of_getLast? hlast)
    refine ⟨a, getLast?_append (by rwa [hdigits]) _, ?_⟩
    rintro rfl
    cases hdigit
  | unsupportedRule | underdetermined => exact ⟨_, getLast?_append rfl _, by decide⟩
  | groundMismatch p | inconsistentBinding p _ =>
    obtain ⟨a, ha, hne⟩ := hposition p
    exact ⟨a, getLast?_append ha _, hne⟩
  | noOrdering => exact ⟨_, rfl, by decide⟩

theorem MatchError.message_injective : Function.Injective MatchError.message := by
  intro e e' h
  have hinitial : e.initial = e'.initial := by
    have hhead := e.head?_message
    rw [h, e'.head?_message] at hhead
    exact (Option.some.inj hhead).symm
  cases e with
  | arity expected found =>
    cases e' with
    | arity expected' found' =>
      have hnumbers : toString expected ++ (" " ++ ("statement(s), got " ++ toString found)) =
          toString expected' ++ (" " ++ ("statement(s), got " ++ toString found')) := by
        have hwords : "Expected " ++ toString expected ++ " statement(s), got " ++ toString found =
            "Expected " ++ toString expected' ++ " statement(s), got " ++ toString found' := h
        simpa [← String.toList_inj] using hwords
      obtain ⟨rfl, hrest⟩ := toString_append_space_inj hnumbers
      rw [Nat.repr_inj.1 ((String.append_right_inj _).1 hrest)]
    | _ => simp [MatchError.initial] at hinitial
  | unsupportedRule antecedents =>
    cases e' with
    | unsupportedRule antecedents' =>
      have hnumber := (String.append_right_inj _).1 ((String.append_left_inj _).1 h)
      rw [Nat.repr_inj.1 hnumber]
    | _ => simp [MatchError.initial] at hinitial
  | groundMismatch position =>
    cases e' with
    | groundMismatch position' =>
      rw [Position.legible_text.injective ((String.append_right_inj _).1 h)]
    | _ => simp [MatchError.initial] at hinitial
  | inconsistentBinding position name =>
    cases e' with
    | inconsistentBinding position' name' =>
      have hwords : "Inconsistent binding of " ++ name.text ++ " in " ++ position.text =
          "Inconsistent binding of " ++ name'.text ++ " in " ++ position'.text := h
      simp only [String.append_assoc, String.append_right_inj] at hwords
      obtain ⟨rfl, hrest⟩ := Name.legible_text _ hwords
      rw [Position.legible_text.injective ((String.append_right_inj _).1 hrest)]
    | _ => simp [MatchError.initial] at hinitial
  | noOrdering =>
    cases e' with
    | noOrdering => rfl
    | _ => simp [MatchError.initial] at hinitial
  | underdetermined name =>
    cases e' with
    | underdetermined name' =>
      have hname := (String.append_right_inj _).1 ((String.append_left_inj _).1 h)
      rw [Name.text_injective hname]
    | _ => simp [MatchError.initial] at hinitial

/-! ## Lines -/

section Lines

variable {label : String} {e : MatchError}

theorem Event.line_alreadyBound (position : Position) (name : Name) (kept : Term) :
    (Event.alreadyBound position name kept).line label =
      "TRACE " ++ position.text ++ ": " ++ name.text ++ " is already bound to " ++
        kept.diagnostic := by
  simp [Event.line, Event.level, Level.text, Event.message, ← String.append_assoc]

theorem Event.line_unmatched :
    (Event.unmatched e).line label = "TRACE " ++ label ++ ": " ++ e.message := by
  simp [Event.line, Event.level, Level.text, Event.message, ← String.append_assoc]

theorem Event.line_firstOrderingFailed : (Event.firstOrderingFailed e).line label =
    "TRACE " ++ label ++ ": first ordering failed: " ++ e.message := by
  simp [Event.line, Event.level, Level.text, Event.message, ← String.append_assoc]

theorem Event.line_secondOrderingFailed : (Event.secondOrderingFailed e).line label =
    "TRACE " ++ label ++ ": second ordering failed: " ++ e.message := by
  simp [Event.line, Event.level, Level.text, Event.message, ← String.append_assoc]

theorem Event.line_unfinished :
    (Event.unfinished e).line label = "DEBUG " ++ label ++ ": " ++ e.message := by
  simp [Event.line, Event.level, Level.text, Event.message, ← String.append_assoc]

theorem Event.line_derived (ts : List Triple) : (Event.derived ts).line label =
    "DEBUG " ++ label ++ ": derived " ++ bracketed (ts.map Triple.diagnostic) := by
  simp [Event.line, Event.level, Level.text, Event.message, ← String.append_assoc]

/-- What an event says after the label of the rule. -/
def Event.words? : Event → Option String
  | .alreadyBound _ _ _ => none
  | .unmatched e => some e.message
  | .firstOrderingFailed e => some ("first ordering failed: " ++ e.message)
  | .secondOrderingFailed e => some ("second ordering failed: " ++ e.message)
  | .unfinished e => some e.message
  | .derived triples => some ("derived " ++ bracketed (triples.map Triple.diagnostic))

theorem Event.message_of_words? {x : Event} {w : String} (h : x.words? = some w) :
    x.message label = label ++ (": " ++ w) := by
  cases x with
  | alreadyBound => cases h
  | _ => cases h; simp [Event.message, ← String.toList_inj]

/-- The level and the words tell the event. -/
theorem Event.eq_of_words? {x y : Event} {w : String} (hlevel : x.level = y.level)
    (hx : x.words? = some w) (hy : y.words? = some w) : x = y := by
  cases x with
  | alreadyBound => cases hx
  | unmatched e =>
    cases hx
    cases y with
    | unmatched e' => rw [MatchError.message_injective (Option.some.inj hy)]
    | firstOrderingFailed | secondOrderingFailed =>
      exact absurd (Option.some.inj hy).symm (e.message_ne_append rfl rfl _)
    | alreadyBound => cases hy
    | unfinished | derived => cases hlevel
  | firstOrderingFailed e =>
    cases hx
    cases y with
    | unmatched e' => exact absurd (Option.some.inj hy) (e'.message_ne_append rfl rfl _)
    | firstOrderingFailed e' =>
      rw [MatchError.message_injective ((String.append_right_inj _).1 (Option.some.inj hy))]
    | secondOrderingFailed => simp [Event.words?, ← String.toList_inj] at hy
    | alreadyBound => cases hy
    | unfinished | derived => cases hlevel
  | secondOrderingFailed e =>
    cases hx
    cases y with
    | unmatched e' => exact absurd (Option.some.inj hy) (e'.message_ne_append rfl rfl _)
    | firstOrderingFailed => simp [Event.words?, ← String.toList_inj] at hy
    | secondOrderingFailed e' =>
      rw [MatchError.message_injective ((String.append_right_inj _).1 (Option.some.inj hy))]
    | alreadyBound => cases hy
    | unfinished | derived => cases hlevel
  | unfinished e =>
    cases hx
    cases y with
    | unfinished e' => rw [MatchError.message_injective (Option.some.inj hy)]
    | derived => exact absurd (Option.some.inj hy).symm (e.message_ne_append rfl rfl _)
    | alreadyBound => cases hy
    | _ => cases hlevel
  | derived ts =>
    cases hx
    cases y with
    | unfinished e' => exact absurd (Option.some.inj hy) (e'.message_ne_append rfl rfl _)
    | derived ts' =>
      rw [legible_triples.injective ((String.append_right_inj _).1 (Option.some.inj hy))]
    | alreadyBound => cases hy
    | _ => cases hlevel

theorem Level.legible_text : Legible Level.text := by
  intro l k x y h
  cases l <;> cases k <;> first
    | exact ⟨rfl, (String.append_right_inj _).1 h⟩
    | simp [Level.text, ← String.toList_inj] at h

theorem Event.level_message_of_line {x y : Event} (h : x.line label = y.line label) :
    x.level = y.level ∧ x.message label = y.message label := by
  simp only [Event.line, String.append_assoc] at h
  obtain ⟨hlevel, hrest⟩ := Level.legible_text _ h
  exact ⟨hlevel, (String.append_right_inj _).1 hrest⟩

theorem Event.exists_line_eq_iff {x : Event} {l : Level} :
    (∃ text, x.line label = l.text ++ " " ++ text) ↔ x.level = l := by
  constructor
  · rintro ⟨text, h⟩
    simp only [Event.line, String.append_assoc] at h
    exact (Level.legible_text _ h).1
  · rintro rfl
    exact ⟨x.message label, rfl⟩

/-- An announcement ends with a term, and so with a bracket, and no other trace does. -/
theorem Event.getLast?_message_eq_iff {x : Event} (h : x.level = .trace) :
    (x.message label).toList.getLast? = some ')' ↔ x.words? = none := by
  have hreport (before : String) (e : MatchError) :
      (before ++ e.message).toList.getLast? ≠ some ')' := by
    obtain ⟨a, ha, hne⟩ := e.exists_getLast?_message
    rw [getLast?_append ha]
    exact fun h => hne (Option.some.inj h)
  cases x with
  | alreadyBound position name kept =>
    obtain ⟨args, hkept⟩ := kept.exists_diagnostic
    refine iff_of_true (getLast?_append ?_ _) rfl
    rw [hkept]
    exact getLast?_append rfl _
  | unmatched e | firstOrderingFailed e | secondOrderingFailed e =>
    exact iff_of_false (hreport _ e) nofun
  | unfinished | derived => cases h

theorem Event.words?_eq_none_of_message {x y : Event} (hlevel : x.level = y.level)
    (hmessage : x.message label = y.message label) (hx : x.words? = none) : y.words? = none := by
  have htrace : x.level = .trace := by
    cases x with
    | alreadyBound => rfl
    | _ => cases hx
  rw [← Event.getLast?_message_eq_iff (hlevel ▸ htrace), ← hmessage,
    Event.getLast?_message_eq_iff htrace, hx]

/-- No two events are written alike. Their levels tell whether the antecedents matched, their last
letters whether a name was announced, and the words after the label all else. -/
theorem Event.line_injective (label : String) : Function.Injective (Event.line label) := by
  intro x y h
  obtain ⟨hlevel, hmessage⟩ := Event.level_message_of_line h
  cases hx : x.words? with
  | some w =>
    cases hy : y.words? with
    | some w' =>
      rw [Event.message_of_words? hx, Event.message_of_words? hy, String.append_right_inj,
        String.append_right_inj] at hmessage
      rw [← hmessage] at hy
      exact Event.eq_of_words? hlevel hx hy
    | none =>
      rw [Event.words?_eq_none_of_message hlevel.symm hmessage.symm hy] at hx
      cases hx
  | none =>
    have hy := Event.words?_eq_none_of_message hlevel hmessage hx
    cases x with
    | alreadyBound p n kept =>
      cases y with
      | alreadyBound p' n' kept' =>
        simp only [Event.message, String.append_assoc] at hmessage
        obtain ⟨rfl, h₁⟩ := Position.legible_text _ hmessage
        obtain ⟨rfl, h₂⟩ := Name.legible_text _ ((String.append_right_inj _).1 h₁)
        rw [Term.legible_diagnostic.injective ((String.append_right_inj _).1 h₂)]
      | _ => cases hy
    | _ => cases hx

/-- The log leaves out nothing: what happened can be read off it. -/
theorem Rule.log_eq_log_iff {r r' : Rule} {ss ss' : List Triple} (h : r.label = r'.label) :
    r.log ss = r'.log ss' ↔ r.events ss = r'.events ss' := by
  rw [Rule.log, Rule.log, h]
  exact (List.map_injective_iff.2 (Event.line_injective _)).eq_iff

theorem Rule.line_mem_log_iff {r : Rule} {ss : List Triple} {x : Event} :
    x.line r.label ∈ r.log ss ↔ x ∈ r.events ss :=
  List.mem_map_of_injective (Event.line_injective _)

end Lines

end RdfEntailment
