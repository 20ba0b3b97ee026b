-- A store of triples that grows. Equal triples count as one when a sweep
-- adds what it derives, but a store may hold them all the same.
import RdfEntailment.Derivation

namespace RdfEntailment

abbrev Store := List Triple

namespace Store

/-- A triple of the store equals this one. -/
def Holds (s : Store) (t : Triple) : Prop := ∃ u ∈ s, u ≈ t

instance (s : Store) (t : Triple) : Decidable (s.Holds t) :=
  inferInstanceAs (Decidable (∃ u ∈ s, u ≈ t))

theorem holds_of_mem {s : Store} {t : Triple} (h : t ∈ s) : s.Holds t := ⟨t, h, Setoid.refl t⟩

theorem Holds.congr {s : Store} {t t' : Triple} (h : s.Holds t) (ht : t ≈ t') : s.Holds t' := by
  obtain ⟨u, hu, hut⟩ := h
  exact ⟨u, hu, Setoid.trans hut ht⟩

theorem Holds.append {s : Store} {t : Triple} (h : s.Holds t) (ts : List Triple) :
    Holds (s ++ ts) t := by
  obtain ⟨u, hu, hut⟩ := h
  exact ⟨u, List.mem_append_left _ hu, hut⟩

/-- The places of the triples that no earlier triple equals. -/
def firstPlaces (s : Store) : List Nat :=
  s.zipIdx.filterMap fun (t, i) => if Holds (s.take i) t then none else some i

/-! ## Growth -/

/-- The triples that the store does not hold yet, each once. -/
def fresh (s : Store) : List Triple → List Triple
  | [] => []
  | t :: ts => if s.Holds t then s.fresh ts else t :: fresh (s ++ [t]) ts

theorem fresh_sublist (s : Store) (ts : List Triple) : (s.fresh ts).Sublist ts := by
  induction ts generalizing s with
  | nil => exact .slnil
  | cons t ts ih =>
    unfold fresh
    split
    · exact (ih s).cons t
    · exact (ih _).cons_cons t

theorem holds_append_fresh (s : Store) (ts : List Triple) :
    ∀ t ∈ ts, Holds (s ++ s.fresh ts) t := by
  induction ts generalizing s with
  | nil => simp
  | cons t ts ih =>
    unfold fresh
    split
    · rename_i h
      intro u hu
      rcases List.mem_cons.1 hu with rfl | hu
      · exact h.append _
      · exact ih s u hu
    · intro u hu
      rw [List.append_cons]
      rcases List.mem_cons.1 hu with rfl | hu
      · exact (holds_of_mem (by simp)).append _
      · exact ih _ u hu

/-! ## Sweeps -/

/-- The triples at these places, if all places are in the store. -/
def pick? (s : Store) (places : List Nat) : Option (List Triple) := places.mapM (s[·]?)

/-- All lists of `k` places below `n`; the last place changes fastest. -/
def tuples (n : Nat) : Nat → List (List Nat)
  | 0 => [[]]
  | k + 1 => (List.range n).flatMap fun i => (tuples n k).map (i :: ·)

/-- What a sweep finds: the tuples that the rule applies to, and the
triples that it adds. -/
structure Sweep where
  hits : List (List Nat)
  added : List Triple

/-- Tries the rule on one tuple of the store. -/
def sweepTuple (s : Store) (r : Rule) (w : Sweep) (tuple : List Nat) : Sweep :=
  match (s.pick? tuple).map r.apply with
  | some (.ok ts) => ⟨w.hits ++ [tuple], w.added ++ fresh (s ++ w.added) ts⟩
  | _ => w

/-- Tries the rule once on every tuple of the store. Triples that are added
on the way take no part as premises, but none is added twice. -/
def sweep (s : Store) (r : Rule) : Sweep :=
  (tuples s.length r.antecedents.length).foldl (s.sweepTuple r) ⟨[], []⟩

end Store

end RdfEntailment
