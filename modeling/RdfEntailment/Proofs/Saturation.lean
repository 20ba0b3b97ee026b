-- The laws of saturation. A sweep tries every tuple of the store that a rule
-- could read, so a store is saturated exactly when a sweep of each rule adds
-- nothing to it. That can be computed.
import RdfEntailment.Chaining
import RdfEntailment.Proofs.Instances

namespace RdfEntailment

theorem Rule.length_of_apply_eq_ok {r : Rule} {statements ts : List Triple}
    (h : r.apply statements = .ok ts) : statements.length = r.antecedents.length := by
  obtain ⟨b, hb, -⟩ := Rule.apply_eq_ok_iff.1 h
  exact (Rule.length_of_solve_eq_ok hb).symm

namespace Store

variable {rules : List Rule} {r : Rule} {s : Store}

/-! ## The tuples of a store -/

theorem fresh_eq_nil_iff {ts : List Triple} : s.fresh ts = [] ↔ ∀ t ∈ ts, s.Holds t := by
  constructor
  · intro h
    have hall := holds_append_fresh s ts
    rw [h, List.append_nil] at hall
    exact hall
  · exact fresh_eq_nil

theorem exists_tuple {premises : List Triple} (h : ∀ t ∈ premises, t ∈ s) :
    ∃ places ∈ tuples s.length premises.length, s.pick? places = some premises := by
  induction premises with
  | nil => exact ⟨[], List.mem_singleton_self [], rfl⟩
  | cons t ts ih =>
    rw [List.forall_mem_cons] at h
    obtain ⟨ht, hts⟩ := h
    obtain ⟨places, hplaces, hpick⟩ := ih hts
    obtain ⟨i, hi⟩ := List.mem_iff_getElem?.1 ht
    have hlt : i < s.length := (List.getElem?_eq_some_iff.1 hi).1
    refine ⟨i :: places, ?_, ?_⟩
    · simp only [tuples, List.length_cons, List.mem_flatMap, List.mem_range]
      exact ⟨i, hlt, List.mem_map_of_mem hplaces⟩
    · unfold pick? at hpick ⊢
      simp [List.mapM_cons, hi, hpick]

/-! ## Sweeps that add nothing -/

/-- The rule derives nothing from this tuple that the store does not hold. -/
def ClosedAt (s : Store) (r : Rule) (places : List Nat) : Prop :=
  ∀ premises ts, s.pick? places = some premises → r.apply premises = .ok ts → ∀ t ∈ ts, s.Holds t

theorem sweepTuple_added_eq_nil_iff {w : Sweep} {places : List Nat} :
    (s.sweepTuple r w places).added = [] ↔ w.added = [] ∧ s.ClosedAt r places := by
  unfold sweepTuple ClosedAt
  split
  · rename_i ts hts
    obtain ⟨premises, hpick, ha⟩ := Option.map_eq_some_iff.1 hts
    rw [List.append_eq_nil_iff]
    refine and_congr_right fun hw => ?_
    rw [hw, List.append_nil, fresh_eq_nil_iff]
    constructor
    · intro h premises' ts' hpick' ha'
      rw [hpick] at hpick'
      cases hpick'
      rw [ha] at ha'
      cases ha'
      exact h
    · exact fun h => h premises ts hpick ha
  · rename_i hnone
    refine (and_iff_left ?_).symm
    intro premises ts hpick ha
    refine absurd ?_ (hnone ts)
    rw [hpick, Option.map_some, ha]

theorem foldl_sweepTuple_added_eq_nil_iff (tuples : List (List Nat)) (w : Sweep) :
    (tuples.foldl (s.sweepTuple r) w).added = [] ↔
      w.added = [] ∧ ∀ places ∈ tuples, s.ClosedAt r places := by
  induction tuples generalizing w with
  | nil => simp
  | cons places tuples ih =>
    rw [List.foldl_cons, ih, sweepTuple_added_eq_nil_iff, and_assoc, List.forall_mem_cons]

theorem saturated_iff_sweeps_add_nothing :
    Saturated rules s ↔ ∀ r ∈ rules, (s.sweep r).added = [] := by
  unfold sweep
  simp only [foldl_sweepTuple_added_eq_nil_iff, true_and]
  constructor
  · intro h r hr places _ premises ts hpick ha
    exact h r hr premises (mem_of_pick? hpick) ts ha
  · intro h r hr premises hp ts ha
    obtain ⟨places, hplaces, hpick⟩ := exists_tuple hp
    rw [Rule.length_of_apply_eq_ok ha] at hplaces
    exact h r hr places hplaces premises ts hpick ha

instance (rules : List Rule) (s : Store) : Decidable (Saturated rules s) :=
  decidable_of_iff _ saturated_iff_sweeps_add_nothing.symm

end Store

end RdfEntailment
