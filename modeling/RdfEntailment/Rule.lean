-- Rules and their builders. A builder takes a rule's clauses one by one:
-- lists grow at the end, and of two clauses for one name or for the rule's
-- own name the later one counts. A rule that is built never changes, but a
-- new builder can go on from it.
import RdfEntailment.Bindings

namespace RdfEntailment

/-- A rule of entailment: what its antecedents match makes its consequents
true. The constraints are carried along, and nothing checks them. -/
structure Rule where
  name : Option String
  antecedents : List Triple
  consequents : List Triple
  constraints : NameMap TermKind
deriving DecidableEq

namespace Rule

/-- How a rule is called in messages. -/
def label (r : Rule) : String := r.name.getD "anonymous rule"

/-! ## Equal rules -/

/-- The rule with its triples in canonical spelling. -/
def canonical (r : Rule) : Rule :=
  { r with
    antecedents := r.antecedents.map Triple.canonical
    consequents := r.consequents.map Triple.canonical }

/-- Two rules are equal when they have the same name and constraints, and
their antecedents and consequents are equal in order. -/
instance setoid : Setoid Rule where
  r a b := a.canonical = b.canonical
  iseqv := ⟨fun _ => rfl, fun h => h.symm, fun h k => h.trans k⟩

instance decidableEquiv (a b : Rule) : Decidable (a ≈ b) :=
  inferInstanceAs (Decidable (a.canonical = b.canonical))

end Rule

/-! ## Building -/

/-- One step in building a rule. -/
inductive Clause where
  | name (text : String)
  | antecedent (triple : Triple)
  | consequent (triple : Triple)
  | constraint (name : Name) (kind : TermKind)
deriving DecidableEq

/-- A rule in the making. -/
structure RuleBuilder where
  name : Option String
  antecedents : List Triple
  consequents : List Triple
  constraints : NameMap TermKind
deriving DecidableEq

namespace RuleBuilder

def empty : RuleBuilder := ⟨none, [], [], ∅⟩

/-- A builder that has all that the rule has. -/
def ofRule (r : Rule) : RuleBuilder where
  name := r.name
  antecedents := r.antecedents
  consequents := r.consequents
  constraints := r.constraints

def add (b : RuleBuilder) : Clause → RuleBuilder
  | .name text => { b with name := some text }
  | .antecedent triple => { b with antecedents := b.antecedents ++ [triple] }
  | .consequent triple => { b with consequents := b.consequents ++ [triple] }
  | .constraint n kind => { b with constraints := b.constraints.insert n kind }

def addAll (b : RuleBuilder) (clauses : List Clause) : RuleBuilder := clauses.foldl add b

def build (b : RuleBuilder) : Rule where
  name := b.name
  antecedents := b.antecedents
  consequents := b.consequents
  constraints := b.constraints

end RuleBuilder

namespace Rule

/-- A builder that has no clause yet. -/
def builder : RuleBuilder := .empty

/-- A builder that goes on from this rule. -/
def toBuilder (r : Rule) : RuleBuilder := .ofRule r

def ofClauses (clauses : List Clause) : Rule := (builder.addAll clauses).build

/-- The rule that has these clauses beside its own. -/
def extend (r : Rule) (clauses : List Clause) : Rule := (r.toBuilder.addAll clauses).build

/-! ## Ranking -/

/-- The antecedents by how general they are, the least general first.
Those that are alike keep the order they were given in. -/
def ranked (r : Rule) : List Triple := r.antecedents.mergeSort Triple.generalityLE

end Rule

end RdfEntailment
