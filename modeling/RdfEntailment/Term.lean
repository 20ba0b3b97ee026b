-- The terms of RDF triples, and when two of them are equal. Equal is
-- coarser than identical: the case of the letters of a language tag does
-- not count. Each class of equal terms has one canonical spelling, so `≈`
-- is plain equality of canonical spellings.

namespace RdfEntailment

/-! ## Terms -/

/-- What a literal has beside its text: the IRI of a datatype, or a
language tag. -/
inductive LiteralType where
  | datatype (iri : String)
  | language (tag : String)
deriving DecidableEq

/-- A term of a triple. A quoted triple is a term too, to any depth. -/
inductive Term where
  | iri (text : String)
  | var (name : String)
  | blankNode (label : String)
  | literal (text : String) (type : LiteralType)
  | quoted (subject predicate object : Term)
deriving DecidableEq

/-- The five kinds of term. -/
inductive TermKind where
  | iri
  | literal
  | blankNode
  | triple
  | var
deriving DecidableEq

def Term.kind : Term → TermKind
  | .iri _ => .iri
  | .var _ => .var
  | .blankNode _ => .blankNode
  | .literal _ _ => .literal
  | .quoted _ _ _ => .triple

/-! ## The canonical spelling -/

/-- A text with its ASCII capitals in lower case. -/
def foldCase (text : String) : String := String.ofList (text.toList.map Char.toLower)

def LiteralType.canonical : LiteralType → LiteralType
  | .datatype iri => .datatype iri
  | .language tag => .language (foldCase tag)

/-- The term with every language tag in lower case, also inside quoted
triples. -/
def Term.canonical : Term → Term
  | .iri text => .iri text
  | .var name => .var name
  | .blankNode label => .blankNode label
  | .literal text type => .literal text type.canonical
  | .quoted s p o => .quoted s.canonical p.canonical o.canonical

/-! ## Equal terms -/

/-- Two terms are equal when they have one canonical spelling. -/
instance Term.setoid : Setoid Term where
  r a b := a.canonical = b.canonical
  iseqv := ⟨fun _ => rfl, fun h => h.symm, fun h k => h.trans k⟩

instance Term.decidableEquiv (a b : Term) : Decidable (a ≈ b) :=
  inferInstanceAs (Decidable (a.canonical = b.canonical))

theorem Term.equiv_iff {a b : Term} : a ≈ b ↔ a.canonical = b.canonical := Iff.rfl

@[simp] theorem Term.kind_canonical (t : Term) : t.canonical.kind = t.kind := by cases t <;> rfl

theorem Term.kind_eq_of_equiv {a b : Term} (h : a ≈ b) : a.kind = b.kind := by
  rw [← a.kind_canonical, ← b.kind_canonical, Term.equiv_iff.1 h]

/-- An IRI equals itself and nothing else. -/
theorem Term.iri_equiv_iff {text : String} {t : Term} : .iri text ≈ t ↔ t = .iri text := by
  rw [Term.equiv_iff]
  cases t <;> simp [Term.canonical, eq_comm]

theorem Term.var_equiv_iff {name : String} {t : Term} : .var name ≈ t ↔ t = .var name := by
  rw [Term.equiv_iff]
  cases t <;> simp [Term.canonical, eq_comm]

theorem Term.blankNode_equiv_iff {label : String} {t : Term} :
    .blankNode label ≈ t ↔ t = .blankNode label := by
  rw [Term.equiv_iff]
  cases t <;> simp [Term.canonical, eq_comm]

/-- A literal without a language tag equals itself and nothing else. -/
theorem Term.typed_equiv_iff {text iri : String} {t : Term} :
    .literal text (.datatype iri) ≈ t ↔ t = .literal text (.datatype iri) := by
  rw [Term.equiv_iff]
  rcases t with _ | _ | _ | ⟨_, _ | _⟩ | _ <;>
    simp [Term.canonical, LiteralType.canonical, eq_comm]

/-- A tagged literal equals the literals of its text whose tag differs
from its own at most in case. -/
theorem Term.tagged_equiv_iff {text tag : String} {t : Term} :
    .literal text (.language tag) ≈ t ↔
      ∃ tag', t = .literal text (.language tag') ∧ foldCase tag = foldCase tag' := by
  rcases t with _ | _ | _ | ⟨_, _ | _⟩ | _ <;>
    grind [Term.equiv_iff, Term.canonical, LiteralType.canonical]

theorem Term.quoted_equiv_quoted_iff {s p o s' p' o' : Term} :
    Term.quoted s p o ≈ .quoted s' p' o' ↔ s ≈ s' ∧ p ≈ p' ∧ o ≈ o' := by
  simp only [Term.equiv_iff, Term.canonical, Term.quoted.injEq]

end RdfEntailment
