-- The law of the latest write. Whatever the history of bindings is, a name is bound to what
-- was written to it last, and nothing else of the history is left. What completes bindings
-- is written beneath all that is there, as if it had come first. So bindings with different
-- histories are equal where they bind the same names to equal terms.
import Mathlib.Data.List.Forall2
import Mathlib.Data.List.Induction
import RdfEntailment.History
import RdfEntailment.Proofs.Pairing
import RdfEntailment.Proofs.Writes

namespace RdfEntailment

/-! ## The writes of a history -/

namespace Edit

/-- The writes after a change, where these were there before it. Bindings that count over
others are the newer ones, also where they were there first. -/
def writesAfter (ws : Writes Term) : Edit → Writes Term
  | .insert n t => ws ++ [(n, t)]
  | .reset other => other.toList
  | .override other => ws ++ other.toList
  | .complete other => other.toList ++ ws
  | .unify pattern statement =>
    match pattern.unify statement with
    | .ok found => found.toList ++ ws
    | .error _ => ws

/-- The writes of a run of changes, from none at all. -/
def writes (edits : List Edit) : Writes Term := edits.foldl writesAfter []

theorem writes_append_singleton (edits : List Edit) (e : Edit) :
    writes (edits ++ [e]) = e.writesAfter (writes edits) := by
  simp [writes]

end Edit

namespace Bindings

variable {b c : Bindings} {ws us : Writes Term}

theorem get?_merge_eq_latest? (hb : ∀ n, b.get? n = ws.latest? n)
    (hc : ∀ n, c.get? n = us.latest? n) (n : Name) :
    (b.merge c).get? n = Writes.latest? (ws ++ us) n := by
  rw [NameMap.get?_merge, Writes.latest?_append, hb, hc]

theorem get?_edit_eq_latest? (h : ∀ n, b.get? n = ws.latest? n) (e : Edit) (n : Name) :
    (b.edit e).2.get? n = (e.writesAfter ws).latest? n := by
  have hentries (other : Bindings) (n : Name) : other.get? n = Writes.latest? other.toList n :=
    (other.latest?_toList n).symm
  cases e with
  | insert k t =>
    rw [Edit.writesAfter, Writes.latest?_append, ← h n]
    exact NameMap.get?_foldl_insert [(k, t)] b n
  | reset other => exact hentries other n
  | override other => exact get?_merge_eq_latest? h (hentries other) n
  | complete other => exact get?_merge_eq_latest? (hentries other) h n
  | unify pattern statement =>
    rw [Edit.writesAfter, edit]
    cases pattern.unify statement with
    | ok found => exact get?_merge_eq_latest? (hentries found) h n
    | error fault => exact h n

/-- A run binds each name to its latest write. -/
theorem get?_run_eq_latest? (edits : List Edit) (n : Name) :
    (run edits).get? n = (Edit.writes edits).latest? n := by
  induction edits using List.reverseRecOn generalizing n with
  | nil => exact NameMap.get?_empty n
  | append_singleton edits e ih =>
    rw [run_append_singleton, Edit.writes_append_singleton]
    exact get?_edit_eq_latest? ih e n

/-! ## Equal bindings -/

theorem equiv_iff_agree : b ≈ c ↔ (∀ n, b.contains n ↔ c.contains n) ∧ b.Agree c := by
  rw [equiv_iff]
  constructor
  · intro h
    refine ⟨fun n => ?_, fun n v w hv hw => ?_⟩
    · rw [NameMap.contains, ← Option.isSome_map, h n, Option.isSome_map, NameMap.contains]
    · have hn := h n
      rw [hv, hw] at hn
      exact Term.equiv_iff.2 (Option.some.inj hn)
  · rintro ⟨hnames, hagree⟩ n
    have hn := hnames n
    unfold NameMap.contains at hn
    cases hv : b.get? n with
    | none =>
      rw [hv] at hn
      have hw : c.get? n = none :=
        Option.not_isSome_iff_eq_none.1 fun hw => Bool.false_ne_true (hn.2 hw)
      rw [hw]
    | some v =>
      rw [hv] at hn
      obtain ⟨w, hw⟩ := Option.isSome_iff_exists.1 (hn.1 rfl)
      rw [hw, Option.map_some, Option.map_some, Term.equiv_iff.1 (hagree n v w hv hw)]

end Bindings

namespace NameMap

variable {α β : Type}

theorem toList_map (f : α → β) (m : NameMap α) :
    (m.map f).toList = m.toList.map fun x => (x.1, f x.2) := by
  unfold toList
  rw [List.map_filterMap]
  congr 1
  funext n
  rw [get?_map, Option.map_map, Option.map_map]
  rfl

theorem toList_inj {m m' : NameMap α} : m.toList = m'.toList ↔ m = m' := by
  refine ⟨fun h => ext_get? fun n => ?_, congrArg toList⟩
  rw [← latest?_toList, h, latest?_toList]

end NameMap

/-- Equal bindings have equal entries, one by one in the order of the names. -/
theorem Bindings.equiv_iff_entries {b c : Bindings} :
    b ≈ c ↔ List.Forall₂ (fun x y => x.1 = y.1 ∧ x.2 ≈ y.2) b.toList c.toList := by
  calc b ≈ c
      ↔ b.canonical.toList = c.canonical.toList := NameMap.toList_inj.symm
    _ ↔ List.Forall₂ (· = ·) b.canonical.toList c.canonical.toList := by
        rw [List.forall₂_eq_eq_eq]
    _ ↔ List.Forall₂ (fun x y => x.1 = y.1 ∧ x.2 ≈ y.2) b.toList c.toList := by
        simp only [Bindings.canonical, NameMap.toList_map, List.forall₂_map_left_iff,
          List.forall₂_map_right_iff, Prod.mk.injEq, Term.equiv_iff]

/-! ## The law -/

/-- After any history, bindings are what the latest writes leave: each look-up, the number of
names and the entries in order are read off the writes, and an insertion gives back what the
name was bound to just before. A list of pairs that is collected is such a history too. Two
histories that are merged are one, in which all writes of the right one come last. They end in
equal bindings exactly when these bind the same names to equal terms, and then they have equal
entries one by one. -/
theorem the_latest_write_counts (edits : List Edit) :
    (Bindings.run edits).Keeps (Edit.writes edits) ∧
    (∀ pairs : Writes Term, (NameMap.ofList pairs).Keeps pairs) ∧
    (∀ n t, ((Bindings.run edits).edit (.insert n t)).1 =
      .replaced ((Bindings.run edits).get? n)) ∧
    ∀ others : List Edit,
      ((Bindings.run edits).merge (Bindings.run others)).Keeps
        (Edit.writes edits ++ Edit.writes others) ∧
      (Bindings.run edits ≈ Bindings.run others ↔
        (∀ n, (Bindings.run edits).contains n ↔ (Bindings.run others).contains n) ∧
        (Bindings.run edits).Agree (Bindings.run others)) ∧
      (Bindings.run edits ≈ Bindings.run others ↔
        List.Forall₂ (fun x y => x.1 = y.1 ∧ x.2 ≈ y.2) (Bindings.run edits).toList
          (Bindings.run others).toList) := by
  have hrun := Bindings.get?_run_eq_latest?
  refine ⟨NameMap.keeps_of_get? (hrun edits), fun pairs => ?_, fun _ _ => rfl, fun others => ?_⟩
  · exact NameMap.keeps_of_get? (NameMap.get?_ofList pairs)
  · have hmerge := Bindings.get?_merge_eq_latest? (hrun edits) (hrun others)
    exact ⟨NameMap.keeps_of_get? hmerge, Bindings.equiv_iff_agree, Bindings.equiv_iff_entries⟩

/-- What completes bindings counts less than what is there, and what overrides them counts more. -/
example : Bindings.run [.insert .xxx (.iri "x:a"),
      .complete (NameMap.ofList [(.xxx, .iri "x:b"), (.yyy, .iri "x:b")]),
      .override (NameMap.ofList [(.yyy, .iri "x:c"), (.zzz, .iri "x:c")])] =
    NameMap.ofList [(.xxx, .iri "x:a"), (.yyy, .iri "x:c"), (.zzz, .iri "x:c")] := rfl

end RdfEntailment
