-- Maps whose keys are the nine names: one cell for each name, so a map
-- has one form, and two maps that answer every look-up alike are the same
-- map. The last write to a name is the one that counts.
import RdfEntailment.Name

namespace RdfEntailment

/-- A map from names to values. A name with no value has an empty cell. -/
structure NameMap (α : Type) where
  aaa : Option α
  bbb : Option α
  ccc : Option α
  ddd : Option α
  uuu : Option α
  vvv : Option α
  xxx : Option α
  yyy : Option α
  zzz : Option α
deriving DecidableEq

namespace NameMap

variable {α β : Type}

/-! ## Look-up -/

def get? (m : NameMap α) : Name → Option α
  | .aaa => m.aaa
  | .bbb => m.bbb
  | .ccc => m.ccc
  | .ddd => m.ddd
  | .uuu => m.uuu
  | .vvv => m.vvv
  | .xxx => m.xxx
  | .yyy => m.yyy
  | .zzz => m.zzz

/-- The map that answers each look-up as `f` does. -/
def ofFn (f : Name → Option α) : NameMap α where
  aaa := f .aaa
  bbb := f .bbb
  ccc := f .ccc
  ddd := f .ddd
  uuu := f .uuu
  vvv := f .vvv
  xxx := f .xxx
  yyy := f .yyy
  zzz := f .zzz

@[simp] theorem get?_ofFn (f : Name → Option α) (n : Name) : (ofFn f).get? n = f n := by
  cases n <;> rfl

@[ext] theorem ext_get? {m m' : NameMap α} (h : ∀ n, m.get? n = m'.get? n) : m = m' := by
  obtain ⟨a, b, c, d, u, v, x, y, z⟩ := m
  obtain ⟨a', b', c', d', u', v', x', y', z'⟩ := m'
  obtain rfl : a = a' := h .aaa
  obtain rfl : b = b' := h .bbb
  obtain rfl : c = c' := h .ccc
  obtain rfl : d = d' := h .ddd
  obtain rfl : u = u' := h .uuu
  obtain rfl : v = v' := h .vvv
  obtain rfl : x = x' := h .xxx
  obtain rfl : y = y' := h .yyy
  obtain rfl : z = z' := h .zzz
  rfl

def contains (m : NameMap α) (n : Name) : Bool := (m.get? n).isSome

/-! ## Writing -/

instance : EmptyCollection (NameMap α) := ⟨ofFn fun _ => none⟩

@[simp] theorem get?_empty (n : Name) : (∅ : NameMap α).get? n = none := get?_ofFn _ n

def insert (m : NameMap α) (n : Name) (a : α) : NameMap α :=
  ofFn fun k => if k = n then some a else m.get? k

@[simp] theorem get?_insert (m : NameMap α) (n k : Name) (a : α) :
    (m.insert n a).get? k = if k = n then some a else m.get? k := get?_ofFn _ k

/-- Writes a value and gives back the one that it takes the place of. -/
def exchange (m : NameMap α) (n : Name) (a : α) : Option α × NameMap α :=
  (m.get? n, m.insert n a)

/-- The map of a list of pairs. A later pair takes the place of an
earlier one of its name. -/
def ofList (pairs : List (Name × α)) : NameMap α :=
  pairs.foldl (fun m pair => m.insert pair.1 pair.2) ∅

/-- Both maps in one. Where both have a value, the right one counts. -/
def merge (m m' : NameMap α) : NameMap α :=
  ofFn fun n => (m'.get? n).or (m.get? n)

@[simp] theorem get?_merge (m m' : NameMap α) (n : Name) :
    (m.merge m').get? n = (m'.get? n).or (m.get? n) := get?_ofFn _ n

theorem merge_self (m : NameMap α) : m.merge m = m := by
  apply ext_get?
  intro n
  rw [get?_merge, Option.or_self]

theorem merge_assoc (m m' m'' : NameMap α) :
    (m.merge m').merge m'' = m.merge (m'.merge m'') := by
  apply ext_get?
  intro n
  simp only [get?_merge, Option.or_assoc]

theorem merge_empty (m : NameMap α) : m.merge ∅ = m := by
  apply ext_get?
  intro n
  rw [get?_merge, get?_empty, Option.none_or]

theorem empty_merge (m : NameMap α) : merge ∅ m = m := by
  apply ext_get?
  intro n
  rw [get?_merge, get?_empty, Option.or_none]

/-- Where no name has a value in both maps, neither counts over the other. -/
theorem merge_comm_of_disjoint {m m' : NameMap α}
    (h : ∀ n, ¬ (m.contains n ∧ m'.contains n)) : m.merge m' = m'.merge m := by
  apply ext_get?
  intro n
  rw [get?_merge, get?_merge]
  cases hm : m.get? n with
  | none => rw [Option.or_none, Option.none_or]
  | some a =>
    have hin : m.contains n := by rw [contains, hm, Option.isSome_some]
    have hnone : m'.get? n = none := Option.not_isSome_iff_eq_none.1 fun h' => h n ⟨hin, h'⟩
    rw [hnone, Option.none_or, Option.or_none]

/-- Every value changed by `f`. -/
def map (f : α → β) (m : NameMap α) : NameMap β := ofFn fun n => (m.get? n).map f

@[simp] theorem get?_map (f : α → β) (m : NameMap α) (n : Name) :
    (m.map f).get? n = (m.get? n).map f := get?_ofFn _ n

/-! ## The entries in order -/

/-- The entries, by the order of the names. -/
def toList (m : NameMap α) : List (Name × α) :=
  Name.all.filterMap fun n => (m.get? n).map (n, ·)

def size (m : NameMap α) : Nat := m.toList.length

def isEmpty (m : NameMap α) : Bool := m.toList.isEmpty

theorem mem_toList {m : NameMap α} {n : Name} {a : α} : (n, a) ∈ m.toList ↔ m.get? n = some a := by
  simp [toList, Name.mem_all]

theorem toList_pairwise_lt (m : NameMap α) : m.toList.Pairwise fun x y => x.1 < y.1 := by
  refine (List.pairwise_filterMap).2 (Name.all_pairwise_lt.imp ?_)
  intro a b hab x hx y hy
  obtain ⟨_, _, rfl⟩ := Option.map_eq_some_iff.1 hx
  obtain ⟨_, _, rfl⟩ := Option.map_eq_some_iff.1 hy
  exact hab

end NameMap

end RdfEntailment
