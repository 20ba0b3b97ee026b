-- The laws of writes. A map of names is known by the writes that it comes from: a name has
-- the value that was written to it last. Writes that come after others count over them, so
-- to put two maps into one is to put the writes of one after those of the other.
import Mathlib.Data.Finset.Card
import RdfEntailment.NameMap

namespace RdfEntailment

variable {α : Type}

/-! ## The latest write -/

/-- Writes of values to names, the oldest first. -/
abbrev Writes (α : Type) := List (Name × α)

namespace Writes

/-- The value that is written to a name last. -/
def latest? (ws : Writes α) (n : Name) : Option α := ws.reverse.lookup n

theorem latest?_append (ws us : Writes α) (n : Name) :
    latest? (ws ++ us) n = (latest? us n).or (latest? ws n) := by
  rw [latest?, List.reverse_append, List.lookup_append, latest?, latest?]

theorem latest?_singleton (n k : Name) (a : α) :
    latest? [(n, a)] k = if k = n then some a else none := by
  rw [latest?, List.reverse_singleton]
  by_cases h : k = n
  · rw [h, if_pos rfl]
    exact List.lookup_cons_self
  · rw [if_neg h, List.lookup_eq_none_iff, List.forall_mem_singleton]
    exact bne_iff_ne.2 h

/-- After the latest write to a name there is none to it. -/
theorem latest?_eq_some_iff {ws : Writes α} {n : Name} {a : α} : ws.latest? n = some a ↔
    ∃ older newer, ws = older ++ (n, a) :: newer ∧ ∀ w ∈ newer, w.1 ≠ n := by
  rw [latest?, List.lookup_eq_some_iff]
  constructor
  · rintro ⟨newer, older, h, hnot⟩
    refine ⟨older.reverse, newer.reverse, ?_, fun w hw => ?_⟩
    · simpa using congrArg List.reverse h
    · exact Ne.symm (bne_iff_ne.1 (hnot w (List.mem_reverse.1 hw)))
  · rintro ⟨older, newer, rfl, hnot⟩
    refine ⟨newer.reverse, older.reverse, by simp, fun w hw => ?_⟩
    exact bne_iff_ne.2 (Ne.symm (hnot w (List.mem_reverse.1 hw)))

theorem latest?_eq_none_iff {ws : Writes α} {n : Name} :
    ws.latest? n = none ↔ ∀ w ∈ ws, w.1 ≠ n := by
  simp only [latest?, List.lookup_eq_none_iff, List.mem_reverse, bne_iff_ne, ne_comm]

end Writes

namespace NameMap

/-! ## Maps and their writes -/

-- By induction on the writes. They go into the map one by one, so the map is general.
theorem get?_foldl_insert (ws : Writes α) (m : NameMap α) (n : Name) :
    (ws.foldl (fun m w => m.insert w.1 w.2) m).get? n = (ws.latest? n).or (m.get? n) := by
  induction ws generalizing m with
  | nil => rfl
  | cons w ws ih =>
    rw [List.foldl_cons, ih, get?_insert, ← List.singleton_append, Writes.latest?_append,
      Writes.latest?_singleton, Option.or_assoc]
    congr 1
    split <;> rfl

theorem get?_ofList (ws : Writes α) (n : Name) : (ofList ws).get? n = ws.latest? n := by
  rw [ofList, get?_foldl_insert, get?_empty, Option.or_none]

theorem latest?_toList (m : NameMap α) (n : Name) : Writes.latest? m.toList n = m.get? n := by
  cases hlatest : Writes.latest? m.toList n with
  | some a =>
    obtain ⟨older, newer, hsplit, -⟩ := Writes.latest?_eq_some_iff.1 hlatest
    have hmem : (n, a) ∈ m.toList := hsplit ▸ List.mem_append_right older List.mem_cons_self
    exact (mem_toList.1 hmem).symm
  | none =>
    rw [eq_comm, Option.eq_none_iff_forall_ne_some]
    intro a ha
    exact Writes.latest?_eq_none_iff.1 hlatest (n, a) (mem_toList.2 ha) rfl

/-! ## What a map keeps of writes -/

/-- The map is what these writes make of an empty map: each name that is written to has its
latest value, and the entries are these, by the order of the names. -/
structure Keeps (m : NameMap α) (ws : Writes α) : Prop where
  latest : ∀ n a, m.get? n = some a ↔
    ∃ older newer, ws = older ++ (n, a) :: newer ∧ ∀ w ∈ newer, w.1 ≠ n
  unwritten : ∀ n, m.get? n = none ↔ ∀ w ∈ ws, w.1 ≠ n
  contains : ∀ n, m.contains n ↔ ∃ w ∈ ws, w.1 = n
  size : m.size = (ws.map Prod.fst).toFinset.card
  isEmpty : m.isEmpty ↔ ws = []
  entries : ∀ n a, (n, a) ∈ m.toList ↔ m.get? n = some a
  sorted : m.toList.Pairwise fun x y => x.1 < y.1

variable {m : NameMap α} {ws : Writes α}

theorem contains_iff_written (h : ∀ n, m.get? n = ws.latest? n) (n : Name) :
    m.contains n ↔ ∃ w ∈ ws, w.1 = n := by
  rw [contains, h, Option.isSome_iff_ne_none, ne_eq, Writes.latest?_eq_none_iff]
  simp

theorem mem_names_toList {n : Name} : n ∈ m.toList.map Prod.fst ↔ m.contains n := by
  rw [contains, Option.isSome_iff_exists, List.mem_map]
  constructor
  · rintro ⟨⟨k, a⟩, hmem, rfl⟩
    exact ⟨a, mem_toList.1 hmem⟩
  · rintro ⟨a, ha⟩
    exact ⟨(n, a), mem_toList.2 ha, rfl⟩

theorem size_eq_card (h : ∀ n, m.get? n = ws.latest? n) :
    m.size = (ws.map Prod.fst).toFinset.card := by
  have hnodup : (m.toList.map Prod.fst).Nodup := by
    rw [List.Nodup, List.pairwise_map]
    exact m.toList_pairwise_lt.imp fun hlt heq => absurd (heq ▸ hlt) (Nat.lt_irrefl _)
  have hnames : (m.toList.map Prod.fst).toFinset = (ws.map Prod.fst).toFinset := by
    ext n
    rw [List.mem_toFinset, mem_names_toList, contains_iff_written h, List.mem_toFinset,
      List.mem_map]
  rw [← hnames, List.toFinset_card_of_nodup hnodup, List.length_map, size]

theorem isEmpty_iff_nil (h : ∀ n, m.get? n = ws.latest? n) : m.isEmpty ↔ ws = [] := by
  rw [← List.map_eq_nil_iff (f := Prod.fst), ← List.toFinset_eq_empty_iff, ← Finset.card_eq_zero,
    ← size_eq_card h, size, List.length_eq_zero_iff, isEmpty, List.isEmpty_iff]

/-- Where each look-up gives the latest value, all else follows. -/
theorem keeps_of_get? (h : ∀ n, m.get? n = ws.latest? n) : m.Keeps ws where
  latest n a := by rw [h, Writes.latest?_eq_some_iff]
  unwritten n := by rw [h, Writes.latest?_eq_none_iff]
  contains := contains_iff_written h
  size := size_eq_card h
  isEmpty := isEmpty_iff_nil h
  entries _ _ := mem_toList
  sorted := m.toList_pairwise_lt

end NameMap

end RdfEntailment
