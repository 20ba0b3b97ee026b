-- The law of sessions. A command names one rule, or puts triples at the end of the store, or
-- changes nothing, and one that fails changes nothing. So a session only grows, and of what was
-- said in it the failures can be left out.
import Mathlib.Data.List.Infix
import RdfEntailment.Proofs.Reading
import RdfEntailment.Session

namespace RdfEntailment

/-- The reply says why a command has failed. -/
def Reply.isFailure : Reply → Bool
  | .failed _ => true
  | _ => false

namespace Session

variable {s s' : Session} {c : Command} {reply : Reply} {history : List (Command × Reply)}

/-! ## One command -/

theorem rule_define (s : Session) (name : String) (r : Rule) :
    (s.define name r).rule name = .ok r := by
  simp [Session.rule, define]

theorem rule_define_of_ne {name other : String} (h : other ≠ name) (s : Session) (r : Rule) :
    (s.define name r).rule other = s.rule other := by
  have hne : (other == name) = false := by simpa using h
  simp [Session.rule, define, List.lookup_cons, hne]

/-- What a command can make of a session. -/
inductive Becomes (s : Session) (reply : Reply) : Session → Prop
  | same : Becomes s reply s
  | defined (h : reply.isFailure = false) (name : String) (r : Rule) :
      Becomes s reply (s.define name r)
  | grown (h : reply.isFailure = false) (ts : List Triple) : Becomes s reply (s.append ts)

theorem becomes_of_run (h : s.run c = .ok (reply, s')) : s.Becomes reply s' := by
  cases c with
  | build target r =>
    cases h
    exact .defined rfl target r
  | extend source target clauses =>
    obtain ⟨r, -, h⟩ := bind_eq_ok_iff.1 h
    cases h
    exact .defined rfl target (r.extend clauses)
  | describe name =>
    obtain ⟨r, -, h⟩ := bind_eq_ok_iff.1 h
    cases h
    exact .same
  | compare name other =>
    obtain ⟨r, -, h⟩ := bind_eq_ok_iff.1 h
    obtain ⟨r', -, h⟩ := bind_eq_ok_iff.1 h
    cases h
    exact .same
  | add ts =>
    cases h
    exact .grown rfl ts
  | solve name places =>
    obtain ⟨r, -, h⟩ := bind_eq_ok_iff.1 h
    obtain ⟨ts, -, h⟩ := bind_eq_ok_iff.1 h
    split at h <;> cases h <;> exact .same
  | apply name places =>
    obtain ⟨r, -, h⟩ := bind_eq_ok_iff.1 h
    obtain ⟨ts, -, h⟩ := bind_eq_ok_iff.1 h
    split at h
    · cases h
      exact .grown rfl _
    · cases h
      exact .same
  | sweep name =>
    obtain ⟨r, -, h⟩ := bind_eq_ok_iff.1 h
    cases h
    exact .grown rfl _

/-- A command that fails changes nothing. -/
theorem eq_of_run_failure (h : s.run c = .ok (reply, s')) (hf : reply.isFailure = true) :
    s' = s := by
  cases becomes_of_run h with
  | same => rfl
  | defined hok | grown hok =>
    rw [hok] at hf
    cases hf

/-! ## Runs -/

/-- The commands, with the replies to them, lead from one session to another. -/
inductive Runs : Session → List (Command × Reply) → Session → Prop
  | nil (s : Session) : Runs s [] s
  | cons {s t u : Session} {c : Command} {reply : Reply} {history : List (Command × Reply)}
      (h : s.run c = .ok (reply, t)) (hs : Runs t history u) : Runs s ((c, reply) :: history) u

/-- Without the commands that failed, a run comes to the same end. -/
theorem Runs.filter (h : s.Runs history s') :
    s.Runs (history.filter fun x => !x.2.isFailure) s' := by
  induction h with
  | nil s => exact .nil s
  | @cons s t u c reply history h _ ih =>
    cases hf : reply.isFailure with
    | true =>
      rw [List.filter_cons_of_neg (by simp [hf])]
      rw [eq_of_run_failure h hf] at ih
      exact ih
    | false =>
      rw [List.filter_cons_of_pos (by simp [hf])]
      exact .cons h ih

/-- No rule is forgotten and no triple lost: rules come in front, and triples at the end. -/
theorem Runs.grows (h : s.Runs history s') : s.rules <:+ s'.rules ∧ s.store <+: s'.store := by
  induction h with
  | nil s => exact ⟨List.suffix_refl _, List.prefix_refl _⟩
  | cons h _ ih =>
    cases becomes_of_run h with
    | same => exact ih
    | defined _ name r => exact ⟨(List.suffix_cons _ _).trans ih.1, ih.2⟩
    | grown _ ts => exact ⟨ih.1, (List.prefix_append _ _).trans ih.2⟩

end Session

end RdfEntailment
