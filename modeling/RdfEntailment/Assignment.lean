-- Assignments: total readings of the nine names. A match finds bindings,
-- which cover some names only; an assignment is what they are judged by.
import RdfEntailment.Bindings

namespace RdfEntailment

/-- A term for every name. -/
abbrev Assignment := Name → Term

/-- The assigned term of a placeholder; any other term as it is. -/
def Term.assign (t : Term) (σ : Assignment) : Term := (t.name?.map σ).getD t

theorem Term.assign_of_ground {t : Term} {σ : Assignment} (h : t.name? = none) :
    t.assign σ = t := by
  simp [Term.assign, h]

theorem Term.assign_of_name {t : Term} {σ : Assignment} {n : Name} (h : t.name? = some n) :
    t.assign σ = σ n := by
  simp [Term.assign, h]

/-- Every slot under an assignment. -/
def Triple.assign (t : Triple) (σ : Assignment) : Triple := t.map (·.assign σ)

@[simp] theorem Triple.term_assign (t : Triple) (σ : Assignment) (p : Position) :
    (t.assign σ).term p = (t.term p).assign σ := t.term_map _ p

theorem Triple.mem_names {t : Triple} {n : Name} :
    n ∈ t.names ↔ ∃ p, (t.term p).name? = some n := by
  simp only [Triple.names, Triple.terms, List.mem_filterMap, List.mem_cons, List.not_mem_nil,
    or_false]
  constructor
  · rintro ⟨u, rfl | rfl | rfl, hu⟩
    · exact ⟨.subject, hu⟩
    · exact ⟨.predicate, hu⟩
    · exact ⟨.object, hu⟩
  · rintro ⟨p, hp⟩
    exact ⟨t.term p, by cases p <;> simp [Triple.term], hp⟩

/-- Only the names that a triple holds matter to it. -/
theorem Triple.subst_congr {t : Triple} {b c : Bindings}
    (h : ∀ n ∈ t.names, b.get? n = c.get? n) : t.subst b = t.subst c := by
  apply Triple.ext_term
  intro p
  rw [Triple.term_subst, Triple.term_subst, Term.subst, Term.subst]
  cases hn : (t.term p).name? with
  | none => rfl
  | some n => rw [Option.bind_some, Option.bind_some, h n (Triple.mem_names.2 ⟨p, hn⟩)]

/-- Bindings as an assignment: a name that is not bound stands for itself,
as a variable. -/
def Bindings.toAssignment (b : Bindings) : Assignment := fun n => (b.get? n).getD n.var

theorem Triple.assign_toAssignment {t : Triple} {b : Bindings}
    (h : ∀ n ∈ t.names, b.contains n) : t.assign (Bindings.toAssignment b) = t.subst b := by
  apply Triple.ext_term
  intro p
  rw [Triple.term_assign, Triple.term_subst, Term.assign, Term.subst]
  cases hn : (t.term p).name? with
  | none => rfl
  | some n =>
    obtain ⟨v, hv⟩ := Option.isSome_iff_exists.1 (h n (Triple.mem_names.2 ⟨p, hn⟩))
    simp [Bindings.toAssignment, hv]

end RdfEntailment
