-- Sessions: named rules and a store, changed command by command. A command
-- that fails changes nothing.
import RdfEntailment.Store

namespace RdfEntailment

/-! ## Commands and replies -/

inductive Command where
  /-- Gives the rule a name, also one that another rule had. -/
  | build (target : String) (rule : Rule)
  | extend (source target : String) (clauses : List Clause)
  | describe (rule : String)
  | compare (rule other : String)
  | add (statements : List Triple)
  | solve (rule : String) (places : List Nat)
  /-- What the rule derives goes into the store, held already or not. -/
  | apply (rule : String) (places : List Nat)
  | sweep (rule : String)

inductive Reply where
  | label (text : String)
  | rule (rule : Rule)
  | verdict (equal : Bool)
  | size (triples : Nat)
  | bindings (bindings : Bindings)
  | derived (triples : List Triple)
  | sweep (sweep : Store.Sweep)
  | failed (error : MatchError)

/-- A command speaks of a rule or of places that are not there. -/
inductive Missing where
  | rule (name : String)
  | places (places : List Nat)

/-! ## Running a command -/

structure Session where
  rules : List (String × Rule)
  store : Store

namespace Session

def empty : Session := ⟨[], []⟩

def rule (s : Session) (name : String) : Except Missing Rule :=
  match s.rules.lookup name with
  | some r => .ok r
  | none => .error (.rule name)

def statements (s : Session) (places : List Nat) : Except Missing (List Triple) :=
  match s.store.pick? places with
  | some ts => .ok ts
  | none => .error (.places places)

/-- Names a rule. The newest rule of a name is the one that is found. -/
def define (s : Session) (name : String) (r : Rule) : Session :=
  { s with rules := (name, r) :: s.rules }

/-- Puts triples at the end of the store. -/
def append (s : Session) (ts : List Triple) : Session := { s with store := s.store ++ ts }

/-- The reply to a command, and the session after it. -/
def run (s : Session) : Command → Except Missing (Reply × Session)
  | .build target r => return (.label r.label, s.define target r)
  | .extend source target clauses => do
    let r := (← s.rule source).extend clauses
    return (.label r.label, s.define target r)
  | .describe name => return (.rule (← s.rule name), s)
  | .compare name other => do
    let r ← s.rule name
    let r' ← s.rule other
    return (.verdict (decide (r ≈ r')), s)
  | .add ts =>
    let s' := s.append ts
    return (.size s'.store.length, s')
  | .solve name places => do
    let r ← s.rule name
    match r.solve (← s.statements places) with
    | .ok b => return (.bindings b, s)
    | .error e => return (.failed e, s)
  | .apply name places => do
    let r ← s.rule name
    match r.apply (← s.statements places) with
    | .ok ts => return (.derived ts, s.append ts)
    | .error e => return (.failed e, s)
  | .sweep name => do
    let w := s.store.sweep (← s.rule name)
    return (.sweep w, s.append w.added)

end Session

end RdfEntailment
