-- The record of an application: what happened on the way to its result, in
-- order. The result alone says less, since an application that succeeds may
-- have failed at first.
import RdfEntailment.Unification

namespace RdfEntailment

/-! ## Events -/

/-- What one application of a rule can leave in its record. -/
inductive Event where
  /-- A name meets a term that does not equal the one it was bound to. -/
  | alreadyBound (position : Position) (name : Name) (kept : Term)
  /-- The only antecedent does not match the only statement. -/
  | unmatched (error : MatchError)
  /-- Two antecedents do not match the statements in the order given. -/
  | firstOrderingFailed (error : MatchError)
  /-- Nor do they match them the other way round. -/
  | secondOrderingFailed (error : MatchError)
  /-- The antecedents match, but a consequent still holds a placeholder. -/
  | unfinished (error : MatchError)
  /-- The consequents are derived. -/
  | derived (triples : List Triple)
deriving DecidableEq

/-- The events that a fault leaves before it is reported. -/
def SlotFault.events : SlotFault → List Event
  | .groundMismatch _ => []
  | .inconsistentBinding position name kept => [.alreadyBound position name kept]

/-! ## Results with a record -/

/-- A result, with the events on the way to it, the oldest first. -/
structure Traced (α : Type) where
  events : List Event
  result : Except MatchError α

namespace Traced

variable {α β : Type}

/-- An error that leaves no event. -/
def refuse (e : MatchError) : Traced α := ⟨[], .error e⟩

/-- Goes on with `f` if there is a result. -/
def andThen (x : Traced α) (f : α → Traced β) : Traced β :=
  match x.result with
  | .ok a => ⟨x.events ++ (f a).events, (f a).result⟩
  | .error e => ⟨x.events, .error e⟩

@[simp] theorem result_refuse (e : MatchError) : (refuse e : Traced α).result = .error e := rfl

@[simp] theorem result_andThen (x : Traced α) (f : α → Traced β) :
    (x.andThen f).result = x.result.bind fun a => (f a).result := by
  unfold andThen
  cases x.result <;> rfl

end Traced

end RdfEntailment
