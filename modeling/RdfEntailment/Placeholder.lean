-- Placeholders: the 27 terms that act as rule variables. Each of the nine
-- names is written as a variable, as a plain literal or as a blank node.
-- The three are different terms, but one rule variable.
import RdfEntailment.Name
import RdfEntailment.Vocabulary

namespace RdfEntailment

/-- How a placeholder is written. -/
inductive Flavor where
  | var
  | literal
  | blankNode
deriving DecidableEq

def Flavor.all : List Flavor := [.var, .literal, .blankNode]

structure Placeholder where
  name : Name
  flavor : Flavor
deriving DecidableEq

/-- The placeholders: all names as variables, then as literals, then as
blank nodes. -/
def Placeholder.all : List Placeholder :=
  Flavor.all.flatMap fun flavor => Name.all.map fun name => ⟨name, flavor⟩

/-- The term that a name stands for in a flavor. -/
def Name.toTerm (n : Name) : Flavor → Term
  | .var => .var n.text
  | .literal => .literal n.text (.datatype xsdString)
  | .blankNode => .blankNode n.text

def Name.var (n : Name) : Term := n.toTerm .var

def Placeholder.toTerm (ph : Placeholder) : Term := ph.name.toTerm ph.flavor

/-! ## Recognition -/

/-- The placeholder that a term is, if it is one. Only the whole text
counts, and a literal has to be of datatype `xsd:string`. -/
def Term.placeholder? : Term → Option Placeholder
  | .var name => (Name.ofText? name).map (⟨·, .var⟩)
  | .blankNode label => (Name.ofText? label).map (⟨·, .blankNode⟩)
  | .literal text (.datatype dt) =>
    if dt = xsdString then (Name.ofText? text).map (⟨·, .literal⟩) else none
  | _ => none

/-- The rule variable that a term is, if it is one. -/
def Term.name? (t : Term) : Option Name := t.placeholder?.map (·.name)

def Term.isPlaceholder (t : Term) : Bool := t.placeholder?.isSome

theorem Placeholder.placeholder?_toTerm (ph : Placeholder) : ph.toTerm.placeholder? = some ph := by
  obtain ⟨n, _ | _ | _⟩ := ph <;>
    simp [Placeholder.toTerm, Name.toTerm, Term.placeholder?, Name.ofText?_text]

theorem Term.placeholder?_eq_some_iff {t : Term} {ph : Placeholder} :
    t.placeholder? = some ph ↔ t = ph.toTerm := by
  constructor
  · intro h
    unfold Term.placeholder? at h
    split at h
    · obtain ⟨n, hn, rfl⟩ := Option.map_eq_some_iff.1 h
      rw [Name.ofText?_eq_some_iff.1 hn]; rfl
    · obtain ⟨n, hn, rfl⟩ := Option.map_eq_some_iff.1 h
      rw [Name.ofText?_eq_some_iff.1 hn]; rfl
    · split at h
      · rename_i hdt
        obtain ⟨n, hn, rfl⟩ := Option.map_eq_some_iff.1 h
        rw [Name.ofText?_eq_some_iff.1 hn, hdt]; rfl
      · cases h
    · cases h
  · rintro rfl
    exact ph.placeholder?_toTerm

/-- Nothing but itself equals a placeholder. -/
theorem Placeholder.toTerm_equiv_iff {ph : Placeholder} {t : Term} :
    ph.toTerm ≈ t ↔ t = ph.toTerm := by
  obtain ⟨n, _ | _ | _⟩ := ph
  · exact Term.var_equiv_iff
  · exact Term.typed_equiv_iff
  · exact Term.blankNode_equiv_iff

theorem Term.placeholder?_congr {a b : Term} (h : a ≈ b) : a.placeholder? = b.placeholder? := by
  apply Option.ext
  intro ph
  simp only [Term.placeholder?_eq_some_iff]
  constructor
  · rintro rfl
    exact Placeholder.toTerm_equiv_iff.1 h
  · rintro rfl
    exact Placeholder.toTerm_equiv_iff.1 (Setoid.symm h)

/-- A placeholder equals exactly the terms that are that placeholder. -/
theorem Term.equiv_iff_placeholder? {t u : Term} {ph : Placeholder} (h : t.placeholder? = some ph) :
    t ≈ u ↔ u.placeholder? = some ph := by
  rw [Term.placeholder?_eq_some_iff.1 h, Placeholder.toTerm_equiv_iff,
    Term.placeholder?_eq_some_iff]

theorem Term.not_equiv_placeholder {t u : Term} {ph : Placeholder} (ht : t.placeholder? = none)
    (hu : u.placeholder? = some ph) : ¬ t ≈ u := by
  intro h
  have hsame := Term.placeholder?_congr h
  rw [ht, hu] at hsame
  cases hsame

@[simp] theorem Name.name?_toTerm (n : Name) (f : Flavor) : (n.toTerm f).name? = some n := by
  have := Placeholder.placeholder?_toTerm ⟨n, f⟩
  simp only [Placeholder.toTerm] at this
  simp [Term.name?, this]

theorem Term.name?_congr {a b : Term} (h : a ≈ b) : a.name? = b.name? := by
  rw [Term.name?, Term.placeholder?_congr h, Term.name?]

theorem Term.isSome_name? (t : Term) : t.name?.isSome = t.isPlaceholder := by
  rw [Term.name?, Option.isSome_map, Term.isPlaceholder]

theorem Term.isPlaceholder_iff {t : Term} : t.isPlaceholder ↔ ∃ n, t.name? = some n := by
  rw [← Term.isSome_name?, Option.isSome_iff_exists]

end RdfEntailment
