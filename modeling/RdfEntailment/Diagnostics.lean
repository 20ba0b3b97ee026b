-- The text of events: one line for each, with the terms spelled out
-- constructor by constructor so that no two of them look alike.
import RdfEntailment.Characters
import RdfEntailment.Derivation

namespace RdfEntailment

/-! ## Terms spelled out -/

/-- The letter that stands for a character after a backslash. -/
def escapeLetter? : Char → Option Char
  | '\x00' => some '0'
  | '\t' => some 't'
  | '\r' => some 'r'
  | '\n' => some 'n'
  | '\\' => some '\\'
  | '"' => some '"'
  | _ => none

/-- What a character is written as between quotes. One that has no letter
and does not show is written by its code point. -/
def escapeChar (c : Char) : List Char :=
  match escapeLetter? c with
  | some letter => ['\\', letter]
  | none => if isHidden c then ['\\', 'u', '{'] ++ Nat.toDigits 16 c.toNat ++ ['}'] else [c]

/-- A text between quotes. -/
def quoteText (text : String) : String :=
  "\"" ++ String.ofList (text.toList.flatMap escapeChar) ++ "\""

/-- Texts in square brackets. -/
def bracketed (texts : List String) : String := "[" ++ ", ".intercalate texts ++ "]"

/-- A constructor, with its arguments in round brackets. -/
def applied (constructor : String) (arguments : List String) : String :=
  constructor ++ "(" ++ ", ".intercalate arguments ++ ")"

def LiteralType.diagnostic (text : String) : LiteralType → String
  | .datatype iri => applied "Typed" [quoteText text, applied "IriRef" [quoteText iri]]
  | .language tag =>
    applied "LanguageString" [quoteText text, applied "LanguageTag" [quoteText tag]]

def Term.diagnostic : Term → String
  | .iri text => applied "Iri" [applied "IriRef" [quoteText text]]
  | .var name => applied "Variable" [applied "VarName" [quoteText name]]
  | .blankNode label => applied "BlankNode" [applied "BnodeId" [quoteText label]]
  | .literal text type => applied "Literal" [type.diagnostic text]
  | .quoted s p o => applied "Triple" [bracketed [s.diagnostic, p.diagnostic, o.diagnostic]]

def Triple.diagnostic (t : Triple) : String := bracketed (t.terms.map Term.diagnostic)

/-! ## Lines of the record -/

inductive Level where
  | trace
  | debug
deriving DecidableEq

def Level.text : Level → String
  | .trace => "TRACE"
  | .debug => "DEBUG"

/-- What stops a match is traced; what becomes of the consequents matters
more. -/
def Event.level : Event → Level
  | .alreadyBound _ _ _ => .trace
  | .unmatched _ => .trace
  | .firstOrderingFailed _ => .trace
  | .secondOrderingFailed _ => .trace
  | .unfinished _ => .debug
  | .derived _ => .debug

/-- The words for an event of the rule with this label. -/
def Event.message (label : String) : Event → String
  | .alreadyBound position name kept =>
    position.text ++ ": " ++ name.text ++ " is already bound to " ++ kept.diagnostic
  | .unmatched e => label ++ ": " ++ e.message
  | .firstOrderingFailed e => label ++ ": first ordering failed: " ++ e.message
  | .secondOrderingFailed e => label ++ ": second ordering failed: " ++ e.message
  | .unfinished e => label ++ ": " ++ e.message
  | .derived triples => label ++ ": derived " ++ bracketed (triples.map Triple.diagnostic)

def Event.line (label : String) (e : Event) : String := e.level.text ++ " " ++ e.message label

/-- The record of one application, line by line. -/
def Rule.log (r : Rule) (statements : List Triple) : List String :=
  (r.events statements).map (·.line r.label)

end RdfEntailment
