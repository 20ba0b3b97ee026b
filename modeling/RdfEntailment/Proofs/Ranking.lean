-- The law of ranking. Ranking only rearranges the antecedents: the less general ones come
-- first, and those that are equally general stay in the order they were given in. There is
-- only one such order, and antecedents that are in it already are not moved.
import Mathlib.Data.List.Basic
import Mathlib.Logic.ExistsUnique
import RdfEntailment.Catalog
import RdfEntailment.Derivation

namespace RdfEntailment

namespace Rule

variable {r r' : Rule} {xs ys : List (Triple × Nat)} {ts : List Triple}

/-! ## Occurrences -/

/-- The antecedents, each with the place where it is declared. So two antecedents that are the
same triple are told apart. -/
def occurrences (r : Rule) : List (Triple × Nat) := r.antecedents.zipIdx

/-- The list holds each occurrence once, the least general first. Of two that are equally
general, the one that is declared first comes first. -/
structure Ranks (r : Rule) (xs : List (Triple × Nat)) : Prop where
  perm : xs.Perm r.occurrences
  sorted : xs.Pairwise fun x y => x.1.generality ≤ y.1.generality
  stable : xs.Pairwise fun x y => x.1.generality = y.1.generality → x.2 < y.2

theorem map_fst_occurrences (r : Rule) : r.occurrences.map Prod.fst = r.antecedents :=
  List.zipIdx_map_fst 0 r.antecedents

theorem occurrences_pairwise_lt (r : Rule) : r.occurrences.Pairwise fun x y => x.2 < y.2 := by
  rw [← List.pairwise_map, occurrences, List.zipIdx_map_snd]
  exact List.pairwise_lt_range' 1

/-- Which of two occurrences comes first is settled, so there is only one such list. -/
theorem Ranks.eq (h : r.Ranks xs) (h' : r.Ranks ys) : xs = ys := by
  refine List.Perm.eq_of_pairwise (fun x y _ _ hxy hyx => ?_) (h.sorted.and h.stable)
    (h'.sorted.and h'.stable) (h.perm.trans h'.perm.symm)
  have hsame : x.1.generality = y.1.generality := Nat.le_antisymm hxy.1 hyx.1
  exact absurd (hxy.2 hsame) (Nat.lt_asymm (hyx.2 hsame.symm))

/-- Antecedents that are declared in order have their rank by their place. -/
theorem ranks_occurrences (h : r.antecedents.Pairwise fun a b => a.generality ≤ b.generality) :
    r.Ranks r.occurrences where
  perm := .refl _
  sorted := by
    rw [← map_fst_occurrences, List.pairwise_map] at h
    exact h
  stable := by
    refine r.occurrences_pairwise_lt.imp ?_
    exact fun hlt _ => hlt

/-! ## Sorting -/

/-- The occurrences in the order in which ranking takes the antecedents. -/
def rankedOccurrences (r : Rule) : List (Triple × Nat) :=
  r.occurrences.mergeSort (List.zipIdxLE Triple.generalityLE)

theorem map_fst_rankedOccurrences (r : Rule) : r.rankedOccurrences.map Prod.fst = r.ranked :=
  List.mergeSort_zipIdx

theorem rankedOccurrences_perm (r : Rule) : r.rankedOccurrences.Perm r.occurrences :=
  List.mergeSort_perm _ _

/-- The generality decides, and among those that are alike the place. -/
theorem rankedOccurrences_pairwise (r : Rule) : r.rankedOccurrences.Pairwise fun x y =>
    x.1.generality ≤ y.1.generality ∧ (x.1.generality = y.1.generality → x.2 ≤ y.2) := by
  have hsorted := List.pairwise_mergeSort (List.zipIdxLE_trans Triple.generalityLE_trans)
    (List.zipIdxLE_total Triple.generalityLE_total) r.occurrences
  refine hsorted.imp fun {x y} hle => ?_
  simp only [List.zipIdxLE, Triple.generalityLE_iff] at hle
  split at hle
  · split at hle
    · exact ⟨by assumption, fun _ => of_decide_eq_true hle⟩
    · exact ⟨by assumption, fun h => by omega⟩
  · cases hle

theorem ranks_rankedOccurrences (r : Rule) : r.Ranks r.rankedOccurrences where
  perm := r.rankedOccurrences_perm
  sorted := r.rankedOccurrences_pairwise.imp And.left
  stable := by
    -- Two occurrences are declared at two places, so the order of the places is strict.
    have hplaces : r.rankedOccurrences.Pairwise fun x y => x.2 ≠ y.2 :=
      (r.rankedOccurrences_perm.pairwise_iff Ne.symm).2
        (r.occurrences_pairwise_lt.imp Nat.ne_of_lt)
    refine (r.rankedOccurrences_pairwise.and hplaces).imp fun h heq => ?_
    exact Nat.lt_of_le_of_ne (h.1.2 heq) h.2

/-! ## Ranked antecedents -/

theorem eq_ranked_iff : ts = r.ranked ↔ ∃ xs, r.Ranks xs ∧ xs.map Prod.fst = ts := by
  constructor
  · rintro rfl
    exact ⟨_, r.ranks_rankedOccurrences, r.map_fst_rankedOccurrences⟩
  · rintro ⟨xs, hxs, rfl⟩
    rw [hxs.eq r.ranks_rankedOccurrences, map_fst_rankedOccurrences]

theorem ranked_perm (r : Rule) : r.ranked.Perm r.antecedents := List.mergeSort_perm _ _

theorem ranked_pairwise_le (r : Rule) :
    r.ranked.Pairwise fun a b => a.generality ≤ b.generality :=
  (List.pairwise_mergeSort Triple.generalityLE_trans Triple.generalityLE_total _).imp
    Triple.generalityLE_iff.1

theorem ranked_of_pairwise_le
    (h : r.antecedents.Pairwise fun a b => a.generality ≤ b.generality) :
    r.ranked = r.antecedents :=
  List.mergeSort_of_pairwise (h.imp Triple.generalityLE_iff.2)

theorem mem_ranked {a : Triple} : a ∈ r.ranked ↔ a ∈ r.antecedents :=
  r.ranked_perm.mem_iff

theorem ranked_congr (h : r.antecedents = r'.antecedents) : r.ranked = r'.ranked := by
  rw [ranked, ranked, h]

/-- The order in which antecedents are given counts only within a generality. -/
theorem ranked_eq_of_perm (hperm : r.antecedents.Perm r'.antecedents)
    (hinj : ∀ a ∈ r.antecedents, ∀ b ∈ r.antecedents, a.generality = b.generality → a = b) :
    r.ranked = r'.ranked := by
  have hranked : r.ranked.Perm r'.ranked :=
    r.ranked_perm.trans (hperm.trans r'.ranked_perm.symm)
  refine hranked.eq_of_pairwise (fun a b ha hb hab hba => ?_) r.ranked_pairwise_le
    r'.ranked_pairwise_le
  exact hinj a (mem_ranked.1 ha) b (mem_ranked.1 (hranked.mem_iff.2 hb)) (Nat.le_antisymm hab hba)

/-- Antecedents of one generality stay in the order they were given in. -/
theorem ranked_of_generality {n : Nat} (h : ∀ a ∈ r.antecedents, a.generality = n) :
    r.ranked = r.antecedents :=
  ranked_of_pairwise_le <| List.pairwise_of_forall_mem_list fun a ha b hb =>
    Nat.le_of_eq ((h a ha).trans (h b hb).symm)

theorem ranked_of_lt {p q : Triple} (h : r.antecedents = [p, q])
    (hlt : q.generality < p.generality) : r.ranked = [q, p] := by
  let r' : Rule := { r with antecedents := [q, p] }
  have hperm : r.antecedents.Perm r'.antecedents := h ▸ .swap q p []
  have hsorted : r'.antecedents.Pairwise fun a b => a.generality ≤ b.generality :=
    List.pairwise_pair.2 (Nat.le_of_lt hlt)
  refine (ranked_eq_of_perm hperm ?_).trans (ranked_of_pairwise_le hsorted)
  simp only [h, List.mem_pair]
  grind

theorem ranked_singleton {a : Triple} (h : r.antecedents = [a]) : r.ranked = [a] := by
  rw [← h]
  exact ranked_of_pairwise_le (by simp [h])

theorem ranked_eq_one (h : r.antecedents.length = 1) : ∃ a, r.ranked = [a] :=
  List.length_eq_one_iff.1 (r.ranked_perm.length_eq.trans h)

theorem ranked_eq_two (h : r.antecedents.length = 2) : ∃ a₁ a₂, r.ranked = [a₁, a₂] :=
  List.length_eq_two.1 (r.ranked_perm.length_eq.trans h)

theorem length_of_ranked_eq_one {a : Triple} (h : r.ranked = [a]) :
    r.antecedents.length = 1 := by
  rw [← r.ranked_perm.length_eq, h]
  rfl

theorem length_of_ranked_eq_two {a₁ a₂ : Triple} (h : r.ranked = [a₁, a₂]) :
    r.antecedents.length = 2 := by
  rw [← r.ranked_perm.length_eq, h]
  rfl

/-! ## Rules that are declared in order -/

section Declared

variable (h : r.antecedents.Pairwise fun a b => a.generality ≤ b.generality) (ss : List Triple)

include h

theorem applyTraced_of_declared :
    r.applyTraced ss = (r.matchRanked r.antecedents ss).andThen r.conclude := by
  rw [applyTraced, solveTraced, ranked_of_pairwise_le h]

theorem apply_of_declared :
    r.apply ss = ((r.matchRanked r.antecedents ss).andThen r.conclude).result := by
  rw [apply, applyTraced_of_declared h]

theorem events_of_declared :
    r.events ss = ((r.matchRanked r.antecedents ss).andThen r.conclude).events := by
  rw [events, applyTraced_of_declared h]

theorem solve_of_declared : r.solve ss = (r.matchRanked r.antecedents ss).result := by
  rw [solve, solveTraced, ranked_of_pairwise_le h]

end Declared

end Rule

theorem Catalog.antecedents_pairwise_le : ∀ r ∈ Catalog.all,
    r.antecedents.Pairwise fun a b => a.generality ≤ b.generality := by decide

/-! ## The law -/

/-- There is one way to rank the occurrences of the antecedents, and what is ranked are the
antecedents in that order. In a rule that is built with them, each has its rank by its place,
and to rank them again changes nothing. -/
theorem there_is_one_way_to_rank (r : Rule) :
    (∃! xs, r.Ranks xs) ∧
    (∀ ts, ts = r.ranked ↔ ∃ xs, r.Ranks xs ∧ xs.map Prod.fst = ts) ∧
    ∀ r' : Rule, r'.antecedents = r.ranked →
      r'.Ranks r'.occurrences ∧ r'.ranked = r.ranked := by
  refine ⟨⟨_, r.ranks_rankedOccurrences, fun xs hxs => hxs.eq r.ranks_rankedOccurrences⟩,
    fun _ => Rule.eq_ranked_iff, fun r' hr' => ?_⟩
  have hsorted : r'.antecedents.Pairwise fun a b => a.generality ≤ b.generality := by
    rw [hr']
    exact r.ranked_pairwise_le
  exact ⟨Rule.ranks_occurrences hsorted, (Rule.ranked_of_pairwise_le hsorted).trans hr'⟩

/-- A rule declares one antecedent twice, and two others between. They are less general, and of
the same generality, so they come first, in the order they were given in. -/
theorem what_is_used_is_ranked_before_its_uses :
    ∃ (r r' : Rule) (use domain range : Triple),
      use = ⟨Name.uuu.var, Name.aaa.var, Name.yyy.var⟩ ∧
      domain = ⟨Name.aaa.var, Rdfs.domain, Name.xxx.var⟩ ∧
      range = ⟨Name.aaa.var, Rdfs.range, Name.zzz.toTerm .blankNode⟩ ∧
      r = Rule.ofClauses
        [.antecedent use, .antecedent domain, .antecedent range, .antecedent use] ∧
      r' = Rule.ofClauses (r.ranked.map .antecedent) ∧
      (∀ xs, r.Ranks xs ↔ xs = [(domain, 1), (range, 2), (use, 0), (use, 3)]) ∧
      r.ranked = [domain, range, use, use] ∧ r'.antecedents = r.ranked ∧
      r'.Ranks [(domain, 0), (range, 1), (use, 2), (use, 3)] ∧ r'.ranked = r.ranked := by
  let use : Triple := ⟨Name.uuu.var, Name.aaa.var, Name.yyy.var⟩
  let domain : Triple := ⟨Name.aaa.var, Rdfs.domain, Name.xxx.var⟩
  let range : Triple := ⟨Name.aaa.var, Rdfs.range, Name.zzz.toTerm .blankNode⟩
  let r := Rule.ofClauses
    [.antecedent use, .antecedent domain, .antecedent range, .antecedent use]
  let r' := Rule.ofClauses (r.ranked.map .antecedent)
  have hranks : r.Ranks [(domain, 1), (range, 2), (use, 0), (use, 3)] :=
    ⟨by decide, by decide, by decide⟩
  obtain ⟨⟨_, _, hunique⟩, hlist, hagain⟩ := there_is_one_way_to_rank r
  have hall (xs) (hxs : r.Ranks xs) : xs = [(domain, 1), (range, 2), (use, 0), (use, 3)] :=
    (hunique xs hxs).trans (hunique _ hranks).symm
  have hr : r.ranked = [domain, range, use, use] := ((hlist _).2 ⟨_, hranks, rfl⟩).symm
  have hr' : r'.antecedents = r.ranked := by
    simp only [r', hr]
    rfl
  obtain ⟨hplaces, hranked⟩ := hagain r' hr'
  rw [Rule.occurrences, hr', hr] at hplaces
  exact ⟨r, r', use, domain, range, rfl, rfl, rfl, rfl, rfl,
    fun xs => ⟨hall xs, fun h => h ▸ hranks⟩, hr, hr', hplaces, hranked⟩

end RdfEntailment
