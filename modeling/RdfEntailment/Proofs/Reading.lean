-- The laws of one reading. A statement is read through a pattern exactly when
-- some assignment makes the pattern equal to it. The bindings then hold, for
-- each name of the pattern, the term that its first slot meets, and every such
-- assignment agrees with them.
import RdfEntailment.Assignment
import RdfEntailment.Unification

namespace RdfEntailment

/-! ## What a reading is judged by -/

/-- An assignment that gives each bound name an equal term. -/
def Bindings.Fits (b : Bindings) (σ : Assignment) : Prop :=
  ∀ n v, b.get? n = some v → v ≈ σ n

/-- The term of the statement at the first of these slots where the pattern
holds the name. -/
def Triple.capturedAt? (positions : List Position) (a s : Triple) (n : Name) : Option Term :=
  (positions.find? fun p => (a.term p).name? = some n).map s.term

def Triple.captured? (a s : Triple) (n : Name) : Option Term := capturedAt? Position.all a s n

theorem Bindings.fits_empty (σ : Assignment) : Bindings.Fits ∅ σ := by
  intro n v h
  rw [NameMap.get?_empty] at h
  cases h

theorem Bindings.fits_insert {b : Bindings} {n : Name} {v : Term} {σ : Assignment}
    (hb : b.get? n = none) : Bindings.Fits (b.insert n v) σ ↔ b.Fits σ ∧ v ≈ σ n := by
  constructor
  · intro h
    refine ⟨fun m w hm => h m w ?_, h n v (by simp)⟩
    have hne : m ≠ n := by
      rintro rfl
      rw [hb] at hm
      cases hm
    rw [NameMap.get?_insert, if_neg hne]
    exact hm
  · rintro ⟨h, hv⟩ m w hm
    rw [NameMap.get?_insert] at hm
    split at hm
    · subst m
      cases hm
      exact hv
    · exact h m w hm

theorem Bindings.fits_toAssignment (b : Bindings) : b.Fits (Bindings.toAssignment b) := by
  intro n v h
  simp only [Bindings.toAssignment, h, Option.getD_some]
  exact Setoid.refl v

theorem Triple.assign_equiv_iff {a s : Triple} {σ : Assignment} :
    a.assign σ ≈ s ↔ ∀ p, (a.term p).assign σ ≈ s.term p := by
  simp only [Triple.equiv_iff, Triple.term_assign]

theorem Triple.captured?_isSome_iff {a s : Triple} {n : Name} :
    (a.captured? s n).isSome ↔ n ∈ a.names := by
  unfold captured? capturedAt?
  rw [Option.isSome_map, List.find?_isSome, Triple.mem_names]
  constructor
  · rintro ⟨p, _, hp⟩
    exact ⟨p, of_decide_eq_true hp⟩
  · rintro ⟨p, hp⟩
    exact ⟨p, p.mem_all, decide_eq_true hp⟩

theorem Triple.captured?_eq_some {a s : Triple} {n : Name} {v : Term}
    (h : a.captured? s n = some v) : ∃ p, (a.term p).name? = some n ∧ s.term p = v := by
  obtain ⟨p, hp, rfl⟩ := Option.map_eq_some_iff.1 h
  have hname := List.find?_some hp
  exact ⟨p, of_decide_eq_true hname, rfl⟩

/-! ## One slot -/

theorem bind_eq_ok_iff {ε α β : Type} {x : Except ε α} {f : α → Except ε β} {c : β} :
    (x >>= f) = .ok c ↔ ∃ a, x = .ok a ∧ f a = .ok c := by
  constructor
  · intro h
    cases x with
    | error e => cases h
    | ok a => exact ⟨a, rfl, h⟩
  · rintro ⟨a, rfl, h⟩
    exact h

/-- A slot is taken exactly when an assignment that fits the bindings so far
makes it equal to the term there. -/
theorem Bindings.bindSlot_fits_iff {b : Bindings} {position : Position} {slot value : Term}
    {σ : Assignment} :
    (∃ b', b.bindSlot position slot value = .ok b' ∧ b'.Fits σ) ↔
      b.Fits σ ∧ slot.assign σ ≈ value := by
  cases hn : slot.name? with
  | none =>
    rw [Bindings.bindSlot_ground hn, Term.assign_of_ground hn]
    by_cases h : slot ≈ value
    · simp only [h, if_true, Except.ok.injEq, exists_eq_left', and_true]
    · simp only [h, if_false, reduceCtorEq, false_and, exists_false, and_false]
  | some n =>
    rw [Term.assign_of_name hn]
    cases hb : b.get? n with
    | none =>
      rw [Bindings.bindSlot_new hn hb]
      simp only [Except.ok.injEq, exists_eq_left', Bindings.fits_insert hb]
      exact and_congr_right fun _ => ⟨Setoid.symm, Setoid.symm⟩
    | some kept =>
      rw [Bindings.bindSlot_again hn hb]
      by_cases h : kept ≈ value
      · simp only [h, if_true, Except.ok.injEq, exists_eq_left']
        exact ⟨fun hf => ⟨hf, Setoid.trans (Setoid.symm (hf n kept hb)) h⟩, fun hf => hf.1⟩
      · simp only [h, if_false, reduceCtorEq, false_and, exists_false, false_iff, not_and]
        exact fun hf hv => h (Setoid.trans (hf n kept hb) hv)

/-- A slot adds its own name, unless the name is bound already. -/
theorem Bindings.get?_bindSlot {b b' : Bindings} {position : Position} {slot value : Term}
    (h : b.bindSlot position slot value = .ok b') (n : Name) :
    b'.get? n = (b.get? n).or (if slot.name? = some n then some value else none) := by
  cases hm : slot.name? with
  | none =>
    rw [Bindings.bindSlot_ground hm] at h
    split at h
    · cases h
      simp
    · cases h
  | some m =>
    cases hb : b.get? m with
    | none =>
      rw [Bindings.bindSlot_new hm hb] at h
      cases h
      rw [NameMap.get?_insert]
      by_cases hnm : n = m
      · subst n
        simp [hb]
      · simp [hnm, Ne.symm hnm]
    | some kept =>
      rw [Bindings.bindSlot_again hm hb] at h
      split at h
      · cases h
        by_cases hnm : m = n
        · subst m
          simp [hb]
        · simp [hnm]
      · cases h

/-! ## All slots -/

/-- The reading of some slots, from bindings that are there before. -/
def Triple.unifyFrom (a s : Triple) (positions : List Position) (b : Bindings) :
    Except SlotFault Bindings :=
  positions.foldlM (fun b p => b.bindSlot p (a.term p) (s.term p)) b

theorem Triple.unifyFrom_cons (a s : Triple) (p : Position) (ps : List Position) (b : Bindings) :
    a.unifyFrom s (p :: ps) b =
      b.bindSlot p (a.term p) (s.term p) >>= a.unifyFrom s ps := List.foldlM_cons

-- By induction on the slots that are left. The bindings grow, so the
-- assignment is fixed and the bindings are general.
theorem Triple.unifyFrom_fits_iff {a s : Triple} {positions : List Position} {b : Bindings}
    {σ : Assignment} :
    (∃ b', a.unifyFrom s positions b = .ok b' ∧ b'.Fits σ) ↔
      b.Fits σ ∧ ∀ p ∈ positions, (a.term p).assign σ ≈ s.term p := by
  induction positions generalizing b with
  | nil =>
    simp only [unifyFrom, List.foldlM_nil, List.not_mem_nil, false_implies, implies_true, and_true]
    constructor
    · rintro ⟨b', h, hf⟩
      cases h
      exact hf
    · exact fun hf => ⟨b, rfl, hf⟩
  | cons p ps ih =>
    simp only [unifyFrom_cons, bind_eq_ok_iff, List.forall_mem_cons]
    constructor
    · rintro ⟨b', ⟨b₁, h₁, h⟩, hf⟩
      obtain ⟨hf₁, hps⟩ := ih.1 ⟨b', h, hf⟩
      obtain ⟨hb, hp⟩ := Bindings.bindSlot_fits_iff.1 ⟨b₁, h₁, hf₁⟩
      exact ⟨hb, hp, hps⟩
    · rintro ⟨hb, hp, hps⟩
      obtain ⟨b₁, h₁, hf₁⟩ := Bindings.bindSlot_fits_iff.2 ⟨hb, hp⟩
      obtain ⟨b', h, hf⟩ := ih.2 ⟨hf₁, hps⟩
      exact ⟨b', ⟨b₁, h₁, h⟩, hf⟩

theorem Triple.get?_unifyFrom {a s : Triple} {positions : List Position} {b b' : Bindings}
    (h : a.unifyFrom s positions b = .ok b') (n : Name) :
    b'.get? n = (b.get? n).or (capturedAt? positions a s n) := by
  induction positions generalizing b with
  | nil =>
    cases h
    simp [capturedAt?]
  | cons p ps ih =>
    rw [unifyFrom_cons, bind_eq_ok_iff] at h
    obtain ⟨b₁, h₁, h⟩ := h
    rw [ih h, Bindings.get?_bindSlot h₁ n, Option.or_assoc]
    congr 1
    unfold capturedAt?
    rw [List.find?_cons]
    by_cases hp : (a.term p).name? = some n
    · simp [hp]
    · simp [hp]

/-! ## The whole reading -/

/-- A reading is found, and fits an assignment, exactly when the assignment
makes the pattern equal to the statement. -/
theorem Triple.unify_fits_iff {a s : Triple} {σ : Assignment} :
    (∃ b, a.unify s = .ok b ∧ b.Fits σ) ↔ a.assign σ ≈ s := by
  rw [Triple.assign_equiv_iff]
  refine Triple.unifyFrom_fits_iff.trans ?_
  constructor
  · rintro ⟨_, h⟩ p
    exact h p p.mem_all
  · intro h
    exact ⟨Bindings.fits_empty σ, fun p _ => h p⟩

/-- The bindings are what the slots capture. -/
theorem Triple.get?_unify {a s : Triple} {b : Bindings} (h : a.unify s = .ok b) (n : Name) :
    b.get? n = a.captured? s n := by
  have hget := Triple.get?_unifyFrom h n
  rw [NameMap.get?_empty, Option.none_or] at hget
  exact hget

theorem Triple.bound_unify_iff {a s : Triple} {b : Bindings} (h : a.unify s = .ok b) {n : Name} :
    (∃ v, b.get? n = some v) ↔ n ∈ a.names := by
  rw [← Option.isSome_iff_exists, Triple.get?_unify h, Triple.captured?_isSome_iff]

theorem Triple.unbound_unify {a s : Triple} {b : Bindings} (h : a.unify s = .ok b) {n : Name}
    (hn : n ∉ a.names) : b.get? n = none :=
  Option.eq_none_iff_forall_ne_some.2 fun v hv => hn ((Triple.bound_unify_iff h).1 ⟨v, hv⟩)

theorem Triple.assign_unify {a s : Triple} {b : Bindings} (h : a.unify s = .ok b) :
    a.assign (Bindings.toAssignment b) ≈ s :=
  Triple.unify_fits_iff.1 ⟨b, h, b.fits_toAssignment⟩

theorem Triple.unify_isOk_iff {a s : Triple} :
    (∃ b, a.unify s = .ok b) ↔ ∃ σ, a.assign σ ≈ s := by
  constructor
  · rintro ⟨b, h⟩
    exact ⟨_, Triple.assign_unify h⟩
  · rintro ⟨σ, h⟩
    obtain ⟨b, hb, _⟩ := Triple.unify_fits_iff.2 h
    exact ⟨b, hb⟩

theorem Triple.subst_unify {a s : Triple} {b : Bindings} (h : a.unify s = .ok b) :
    a.subst b ≈ s := by
  have hnames : ∀ n ∈ a.names, b.contains n := fun n hn =>
    Option.isSome_iff_exists.2 ((Triple.bound_unify_iff h).2 hn)
  rw [← Triple.assign_toAssignment hnames]
  exact Triple.assign_unify h

/-! ## The law -/

/-- The bindings are the reading of the statement through the pattern. They
bind its names and no others, each spelled as at its first slot, and turn it
into the statement. No assignment that does so differs from them. -/
structure Bindings.Reads (b : Bindings) (a s : Triple) : Prop where
  names : ∀ n, b.contains n ↔ n ∈ a.names
  spelling : ∀ n, b.get? n = a.captured? s n
  subst : a.subst b ≈ s
  unique : ∀ σ : Assignment, a.assign σ ≈ s → b.Fits σ

theorem Triple.reads_unify {a s : Triple} {b : Bindings} (h : a.unify s = .ok b) :
    b.Reads a s where
  names n := by rw [NameMap.contains, Option.isSome_iff_exists, Triple.bound_unify_iff h]
  spelling := Triple.get?_unify h
  subst := Triple.subst_unify h
  unique σ hσ := by
    obtain ⟨b', hb', hf⟩ := Triple.unify_fits_iff.2 hσ
    rw [h] at hb'
    cases hb'
    exact hf

theorem Bindings.Reads.unify {a s : Triple} {b : Bindings} (h : b.Reads a s) :
    a.unify s = .ok b := by
  have hassign : a.assign (Bindings.toAssignment b) ≈ s := by
    rw [Triple.assign_toAssignment fun n hn => (h.names n).2 hn]
    exact h.subst
  obtain ⟨b', hb', -⟩ := Triple.unify_fits_iff.2 hassign
  have hsame : b' = b :=
    NameMap.ext_get? fun n => (Triple.get?_unify hb' n).trans (h.spelling n).symm
  rw [hb', hsame]

/-- A statement is read through a pattern exactly when some assignment makes
the pattern equal to it, and what is found is the one reading that there is. -/
theorem a_statement_is_read_when_it_is_an_instance (a s : Triple) :
    ((∃ b, a.unify s = .ok b) ↔ ∃ σ : Assignment, a.assign σ ≈ s) ∧
      ∀ b, a.unify s = .ok b ↔ b.Reads a s :=
  ⟨Triple.unify_isOk_iff, fun _ => ⟨Triple.reads_unify, Bindings.Reads.unify⟩⟩

/-- A statement of the pattern's own names binds each of them to the other. -/
example : Triple.unify ⟨Name.xxx.var, .iri "x:knows", Name.yyy.var⟩
    ⟨Name.yyy.var, .iri "x:knows", Name.xxx.var⟩ =
    .ok (NameMap.ofList [(.xxx, Name.yyy.var), (.yyy, Name.xxx.var)]) := rfl

end RdfEntailment
