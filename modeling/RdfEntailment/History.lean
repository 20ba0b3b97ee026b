-- The history of bindings: a run of changes, each of which may write to any
-- number of names. A reading that fails changes nothing.
import RdfEntailment.Unification

namespace RdfEntailment

/-- One change of bindings. -/
inductive Edit where
  | insert (name : Name) (term : Term)
  /-- Starts anew with these bindings. -/
  | reset (other : Bindings)
  /-- Takes in other bindings, which count over those that are there. -/
  | override (other : Bindings)
  /-- Takes in other bindings for the names that are not bound yet. -/
  | complete (other : Bindings)
  /-- Reads a statement through a pattern, and takes in what that binds for
  the names that are not bound yet. -/
  | unify (pattern statement : Triple)

/-- What a change tells of itself. -/
inductive EditReply where
  | done
  | replaced (previous : Option Term)
  | found (bindings : Bindings)
  | failed (error : MatchError)

namespace Bindings

/-- The reply to a change, and the bindings after it. -/
def edit (b : Bindings) : Edit → EditReply × Bindings
  | .insert n t =>
    let (previous, b') := b.exchange n t
    (.replaced previous, b')
  | .reset other => (.done, other)
  | .override other => (.done, b.merge other)
  | .complete other => (.done, other.merge b)
  | .unify pattern statement =>
    match pattern.unify statement with
    | .ok found => (.found found, found.merge b)
    | .error fault => (.failed fault.error, b)

/-- The bindings after a run of changes, from none at all. -/
def run (edits : List Edit) : Bindings := edits.foldl (fun b e => (edit b e).2) ∅

theorem run_append_singleton (edits : List Edit) (e : Edit) :
    run (edits ++ [e]) = (edit (run edits) e).2 := by
  simp [run]

end Bindings

end RdfEntailment
