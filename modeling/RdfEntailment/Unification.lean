-- Unification: reading a statement through a pattern. The slots are taken
-- in order. A name is bound at the first slot that holds it, and from then
-- on has to meet equal terms; the first slot at fault ends the reading.
import RdfEntailment.Bindings
import RdfEntailment.MatchError

namespace RdfEntailment

/-- What is wrong with a slot. A name at odds with an earlier slot comes
with the term that it was bound to there. -/
inductive SlotFault where
  | groundMismatch (position : Position)
  | inconsistentBinding (position : Position) (name : Name) (kept : Term)
deriving DecidableEq

def SlotFault.error : SlotFault → MatchError
  | .groundMismatch position => .groundMismatch position
  | .inconsistentBinding position name _ => .inconsistentBinding position name

/-! ## One slot -/

/-- Takes one slot of a pattern and the term of the statement there. -/
def Bindings.bindSlot (b : Bindings) (position : Position) (slot value : Term) :
    Except SlotFault Bindings :=
  match slot.name? with
  | none => if slot ≈ value then .ok b else .error (.groundMismatch position)
  | some n =>
    match b.get? n with
    | none => .ok (b.insert n value)
    | some kept =>
      if kept ≈ value then .ok b else .error (.inconsistentBinding position n kept)

theorem Bindings.bindSlot_ground {b : Bindings} {position : Position} {slot value : Term}
    (h : slot.name? = none) : b.bindSlot position slot value =
      if slot ≈ value then .ok b else .error (.groundMismatch position) := by
  simp [Bindings.bindSlot, h]

theorem Bindings.bindSlot_new {b : Bindings} {position : Position} {slot value : Term} {n : Name}
    (h : slot.name? = some n) (hb : b.get? n = none) :
    b.bindSlot position slot value = .ok (b.insert n value) := by
  simp [Bindings.bindSlot, h, hb]

theorem Bindings.bindSlot_again {b : Bindings} {position : Position} {slot value kept : Term}
    {n : Name} (h : slot.name? = some n) (hb : b.get? n = some kept) :
    b.bindSlot position slot value =
      if kept ≈ value then .ok b else .error (.inconsistentBinding position n kept) := by
  simp [Bindings.bindSlot, h, hb]

/-! ## One triple, and a pair -/

/-- Reads a statement through a pattern. -/
def Triple.unify (pattern statement : Triple) : Except SlotFault Bindings :=
  Position.all.foldlM (fun b p => b.bindSlot p (pattern.term p) (statement.term p)) (∅ : Bindings)

/-- Reads two statements through two patterns. What the first reading
binds is put into the second pattern, and into the second statement too,
so a statement with placeholders of its own takes part. Where both
readings bind a name, the first counts. -/
def Triple.unifyPair (pattern₁ pattern₂ statement₁ statement₂ : Triple) :
    Except SlotFault Bindings := do
  let b₁ ← pattern₁.unify statement₁
  let b₂ ← (pattern₂.subst b₁).unify (statement₂.subst b₁)
  return b₂.merge b₁

/-- A reading of a pair is two readings, one after the other. -/
theorem Triple.unifyPair_eq_ok_iff {a₁ a₂ s₁ s₂ : Triple} {b : Bindings} :
    a₁.unifyPair a₂ s₁ s₂ = .ok b ↔
      ∃ b₁ b₂, a₁.unify s₁ = .ok b₁ ∧ (a₂.subst b₁).unify (s₂.subst b₁) = .ok b₂ ∧
        b = b₂.merge b₁ := by
  simp only [Triple.unifyPair, bind, Except.bind, pure, Except.pure]
  constructor
  · intro h
    split at h
    · cases h
    · split at h
      · cases h
      · cases h
        exact ⟨_, _, ‹_›, ‹_›, rfl⟩
  · rintro ⟨b₁, b₂, h₁, h₂, rfl⟩
    simp [h₁, h₂]

end RdfEntailment
