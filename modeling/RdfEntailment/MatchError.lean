-- Why a rule derives nothing, and the words for it.
import RdfEntailment.Triple

namespace RdfEntailment

/-- Why a rule derives nothing. -/
inductive MatchError where
  /-- The rule has another number of antecedents than there are statements. -/
  | arity (expected found : Nat)
  /-- The rule has neither one antecedent nor two. -/
  | unsupportedRule (antecedents : Nat)
  /-- A slot with no placeholder does not equal the term of the statement. -/
  | groundMismatch (position : Position)
  /-- A name comes again, and the term there does not equal the one it is bound to. -/
  | inconsistentBinding (position : Position) (name : Name)
  /-- The two antecedents match the two statements in neither order. -/
  | noOrdering
  /-- A consequent still holds a placeholder. -/
  | underdetermined (name : Name)
deriving DecidableEq

def MatchError.message : MatchError → String
  | .arity expected found =>
    "Expected " ++ toString expected ++ " statement(s), got " ++ toString found
  | .unsupportedRule antecedents =>
    "Unsupported rule with " ++ toString antecedents ++ " antecedents"
  | .groundMismatch position => "Ground term mismatch in " ++ position.text
  | .inconsistentBinding position name =>
    "Inconsistent binding of " ++ name.text ++ " in " ++ position.text
  | .noOrdering => "No ordering of the statements matches the antecedents"
  | .underdetermined name =>
    "Consequent under-determined: " ++ name.text ++ " is not bound by the antecedents"

end RdfEntailment
