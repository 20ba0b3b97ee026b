-- The nine names that are reserved for rule variables, in their order, and
-- how a text is read as one of them.

namespace RdfEntailment

/-- A name of a rule variable. -/
inductive Name where
  | aaa
  | bbb
  | ccc
  | ddd
  | uuu
  | vvv
  | xxx
  | yyy
  | zzz
deriving DecidableEq

namespace Name

def all : List Name := [aaa, bbb, ccc, ddd, uuu, vvv, xxx, yyy, zzz]

theorem mem_all (n : Name) : n ∈ all := by cases n <;> decide

def text : Name → String
  | aaa => "aaa"
  | bbb => "bbb"
  | ccc => "ccc"
  | ddd => "ddd"
  | uuu => "uuu"
  | vvv => "vvv"
  | xxx => "xxx"
  | yyy => "yyy"
  | zzz => "zzz"

/-! ## The order of the names -/

/-- How many names come before this one. -/
def rank : Name → Nat
  | aaa => 0
  | bbb => 1
  | ccc => 2
  | ddd => 3
  | uuu => 4
  | vvv => 5
  | xxx => 6
  | yyy => 7
  | zzz => 8

instance : LT Name := ⟨fun a b => a.rank < b.rank⟩

instance (a b : Name) : Decidable (a < b) := inferInstanceAs (Decidable (a.rank < b.rank))

/-- The list of all names goes up, so it holds each name once. -/
theorem all_pairwise_lt : all.Pairwise (· < ·) := by decide

/-! ## Reading a name -/

/-- The name with this text, if there is one. -/
def ofText? (text : String) : Option Name := all.find? fun n => n.text = text

theorem ofText?_text (n : Name) : ofText? n.text = some n := by cases n <;> rfl

theorem ofText?_eq_some_iff {text : String} {n : Name} : ofText? text = some n ↔ text = n.text := by
  constructor
  · intro h
    have := List.find?_some h
    exact (of_decide_eq_true this).symm
  · rintro rfl
    exact n.ofText?_text

theorem text_injective {m n : Name} (h : m.text = n.text) : m = n :=
  Option.some.inj (m.ofText?_text.symm.trans (ofText?_eq_some_iff.2 h))

end Name

/-- The text that was read as a name and is none. -/
structure UnknownName where
  text : String
deriving DecidableEq

def UnknownName.message (e : UnknownName) : String :=
  "'" ++ e.text ++ "' is not a placeholder name"

/-- Reads a text as a name. -/
def Name.parse (text : String) : Except UnknownName Name :=
  match ofText? text with
  | some n => .ok n
  | none => .error ⟨text⟩

end RdfEntailment
