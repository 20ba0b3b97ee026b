-- Forward chaining: which stores a set of rules can make of a store, one
-- application after the other, and when there is nothing left to derive. A
-- sweep is such a run.
import RdfEntailment.Store

namespace RdfEntailment

namespace Store

/-- One application of one of the rules to triples of the store. What is
fresh in the result goes to the end of the store. -/
inductive Step (rules : List Rule) (s : Store) : Store → Prop where
  | fire {r : Rule} {premises ts : List Triple} (hr : r ∈ rules) (hp : ∀ t ∈ premises, t ∈ s)
      (ha : r.apply premises = .ok ts) : Step rules s (s ++ s.fresh ts)

/-- Any number of steps. -/
inductive Reaches (rules : List Rule) (s : Store) : Store → Prop where
  | refl : Reaches rules s s
  | tail {t u : Store} (h : Reaches rules s t) (hs : Step rules t u) : Reaches rules s u

/-- The rules derive nothing from the store that it does not hold. -/
def Saturated (rules : List Rule) (s : Store) : Prop :=
  ∀ r ∈ rules, ∀ premises : List Triple, (∀ t ∈ premises, t ∈ s) →
    ∀ ts, r.apply premises = .ok ts → ∀ t ∈ ts, s.Holds t

/-! ## Steps add to the end -/

theorem Reaches.append {rules : List Rule} {s u : Store} (h : Reaches rules s u) :
    ∃ ts, u = s ++ ts := by
  induction h with
  | refl => exact ⟨[], by simp⟩
  | tail _ hs ih =>
    obtain ⟨ts, rfl⟩ := ih
    obtain ⟨_, _, _⟩ := hs
    exact ⟨_, List.append_assoc ..⟩

theorem fresh_eq_nil {s : Store} {ts : List Triple} (h : ∀ t ∈ ts, s.Holds t) :
    s.fresh ts = [] := by
  induction ts with
  | nil => rfl
  | cons t ts ih =>
    rw [fresh, if_pos (h t (by simp)), ih fun u hu => h u (by simp [hu])]

theorem Saturated.step {rules : List Rule} {s u : Store} (h : Saturated rules s)
    (hs : Step rules s u) : u = s := by
  obtain ⟨hr, hp, ha⟩ := hs
  rw [fresh_eq_nil (h _ hr _ hp _ ha), List.append_nil]

/-! ## Sweeps -/

theorem mem_of_pick? {s : Store} {places : List Nat} {ts : List Triple}
    (h : s.pick? places = some ts) : ∀ t ∈ ts, t ∈ s := by
  induction places generalizing ts with
  | nil =>
    cases h
    simp
  | cons i places ih =>
    simp only [pick?, List.mapM_cons, Option.bind_eq_bind, Option.bind_eq_some_iff, Option.pure_def,
      Option.some.injEq] at h
    obtain ⟨u, hu, us, hus, rfl⟩ := h
    intro t ht
    rcases List.mem_cons.1 ht with rfl | ht
    · exact List.mem_of_getElem? hu
    · exact ih hus t ht

/-- One turn of a sweep is a step, or changes nothing. -/
theorem reaches_sweepTuple {s : Store} {r : Rule} {w : Sweep} (tuple : List Nat)
    (h : Reaches [r] s (s ++ w.added)) : Reaches [r] s (s ++ (s.sweepTuple r w tuple).added) := by
  unfold sweepTuple
  split
  · rename_i ts hts
    obtain ⟨premises, hp, ha⟩ := Option.map_eq_some_iff.1 hts
    rw [← List.append_assoc]
    refine h.tail (.fire (List.mem_singleton_self r) (fun t ht => ?_) ha)
    exact List.mem_append_left _ (mem_of_pick? hp t ht)
  · exact h

/-- A sweep reaches what it leaves behind. -/
theorem reaches_sweep (s : Store) (r : Rule) : Reaches [r] s (s ++ (s.sweep r).added) := by
  have h : ∀ (tuples : List (List Nat)) (w : Sweep), Reaches [r] s (s ++ w.added) →
      Reaches [r] s (s ++ (tuples.foldl (s.sweepTuple r) w).added) := by
    intro tuples
    induction tuples with
    | nil => exact fun _ hw => hw
    | cons tuple tuples ih => exact fun w hw => ih _ (reaches_sweepTuple tuple hw)
  exact h _ _ (by simpa using Reaches.refl)

end Store

end RdfEntailment
