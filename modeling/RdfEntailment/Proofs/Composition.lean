-- The law of composition. To substitute twice is to substitute once, by bindings
-- whose values the second map has rewritten. Where no value of the first map is a
-- placeholder, they are the two maps in one, and the first one counts.
import RdfEntailment.Proofs.Ground

namespace RdfEntailment

variable {b c : Bindings}

/-! ## One map after another -/

/-- The bindings that do at once what `b` and then `c` do. A value of `b` is
rewritten by `c`, once, and a name that only `c` binds has its value there. -/
def Bindings.followedBy (b c : Bindings) : Bindings :=
  NameMap.ofFn fun n => ((b.get? n).map (·.subst c)).or (c.get? n)

theorem Bindings.get?_followedBy (b c : Bindings) (n : Name) :
    (b.followedBy c).get? n = ((b.get? n).map (·.subst c)).or (c.get? n) :=
  NameMap.get?_ofFn _ n

theorem Term.subst_subst (t : Term) (b c : Bindings) :
    (t.subst b).subst c = t.subst (b.followedBy c) := by
  cases ht : t.name? with
  | none => rw [Term.subst_of_ground ht, Term.subst_of_ground ht, Term.subst_of_ground ht]
  | some n =>
    have hget := b.get?_followedBy c n
    cases hn : b.get? n with
    | some v =>
      rw [hn, Option.map_some, Option.some_or] at hget
      rw [Term.subst_of_bound ht hn, Term.subst_of_bound ht hget]
    | none =>
      rw [hn, Option.map_none, Option.none_or] at hget
      rw [Term.subst_of_unbound ht hn, Term.subst, Term.subst, ht, Option.bind_some,
        Option.bind_some, hget]

theorem Triple.subst_subst (t : Triple) (b c : Bindings) :
    (t.subst b).subst c = t.subst (b.followedBy c) := by
  apply Triple.ext_term
  intro p
  simp only [Triple.term_subst, Term.subst_subst]

/-! ## Where nothing is rewritten -/

theorem Bindings.Ground.followedBy (hb : b.Ground) (c : Bindings) :
    b.followedBy c = c.merge b := by
  apply NameMap.ext_get?
  intro n
  rw [Bindings.get?_followedBy, NameMap.get?_merge]
  cases hn : b.get? n with
  | none => rfl
  | some v => rw [Option.map_some, Term.subst_of_ground (hb n v hn)]

/-- To substitute ground bindings and then others is to substitute both at
once, where the ground ones count over the others. -/
theorem Bindings.Ground.subst_subst (hb : b.Ground) (t : Triple) (c : Bindings) :
    (t.subst b).subst c = t.subst (c.merge b) := by
  rw [Triple.subst_subst, hb.followedBy]

theorem Bindings.Ground.subst_self (hb : b.Ground) (t : Triple) :
    (t.subst b).subst b = t.subst b := by
  rw [hb.subst_subst, NameMap.merge_self]

theorem Triple.subst_empty (t : Triple) : t.subst ∅ = t := by
  apply Triple.ext_term
  intro p
  rw [Triple.term_subst, Term.subst]
  cases (t.term p).name? with
  | none => rfl
  | some n => rw [Option.bind_some, NameMap.get?_empty, Option.getD_none]

theorem Triple.subst_of_unbound {t : Triple} (h : ∀ n ∈ t.names, b.get? n = none) :
    t.subst b = t := by
  have hcongr : t.subst b = t.subst ∅ :=
    Triple.subst_congr fun n hn => (h n hn).trans (NameMap.get?_empty n).symm
  rw [hcongr, Triple.subst_empty]

/-! ## The law -/

/-- A name that is bound has one value for all its flavors, and a name that is not
stays in each of them. -/
theorem Bindings.contains_iff_subst {n : Name} :
    b.contains n ↔ (n.toTerm .var).subst b = (n.toTerm .blankNode).subst b := by
  unfold NameMap.contains Term.subst
  rw [Name.name?_toTerm, Name.name?_toTerm, Option.bind_some]
  cases b.get? n with
  | none => simp [Name.toTerm]
  | some v => simp

/-- Bindings are known by what they make of triples. -/
theorem Bindings.ext_subst (h : ∀ t : Triple, t.subst b = t.subst c) : b = c := by
  have hterm : ∀ u : Term, u.subst b = u.subst c := fun u =>
    congrArg Triple.subject (h ⟨u, u, u⟩)
  apply NameMap.ext_get?
  intro n
  have hbound : b.contains n ↔ c.contains n := by
    rw [Bindings.contains_iff_subst, Bindings.contains_iff_subst, hterm, hterm]
  unfold NameMap.contains at hbound
  cases hb : b.get? n with
  | none =>
    rw [hb] at hbound
    exact (Option.not_isSome_iff_eq_none.1 fun hc => nomatch hbound.2 hc).symm
  | some v =>
    rw [hb] at hbound
    obtain ⟨w, hc⟩ := Option.isSome_iff_exists.1 (hbound.1 rfl)
    have hvalue := hterm (n.toTerm .var)
    rw [Term.subst_of_bound (n.name?_toTerm .var) hb,
      Term.subst_of_bound (n.name?_toTerm .var) hc] at hvalue
    rw [hc, hvalue]

/-- To substitute twice is to substitute once, by the first bindings with their
values rewritten and completed by the second ones, and by no others. Ground bindings
are only completed, and once they are substituted they change nothing more. No
bindings change a triple that holds none of their names. -/
theorem substituting_twice_is_substituting_once (b c : Bindings) :
    (∀ d : Bindings, (∀ t : Triple, (t.subst b).subst c = t.subst d) ↔ d = b.followedBy c) ∧
    (b.Ground → b.followedBy c = c.merge b ∧ ∀ t : Triple, (t.subst b).subst b = t.subst b) ∧
    ∀ t : Triple, (∀ n ∈ t.names, b.get? n = none) → t.subst b = t := by
  refine ⟨fun d => ⟨fun h => ?_, ?_⟩, fun hb => ⟨hb.followedBy c, hb.subst_self⟩, ?_⟩
  · exact Bindings.ext_subst fun t => (h t).symm.trans (t.subst_subst b c)
  · rintro rfl t
    exact t.subst_subst b c
  · exact fun t => Triple.subst_of_unbound

/-- A name that stands for another one is rewritten once: it ends as a placeholder of
its own name, and the other one too. The two maps in one would leave it at the other
name. Ground bindings are as they are in the two maps in one, and change nothing the
second time, nor where they bind no name. -/
theorem a_name_is_rewritten_once :
    ∃ b c g : Bindings, ∃ t u : Triple,
      b = NameMap.ofList [(.xxx, Name.yyy.toTerm .literal)] ∧
      c = NameMap.ofList [(.xxx, .iri "x:tom"), (.yyy, Name.xxx.toTerm .blankNode)] ∧
      g = NameMap.ofList [(.xxx, .iri "x:ann")] ∧
      t = ⟨Name.xxx.var, .iri "x:knows", Name.yyy.var⟩ ∧
      u = ⟨Name.yyy.var, .iri "x:knows", Name.zzz.var⟩ ∧
      (t.subst b).subst c =
        ⟨Name.xxx.toTerm .blankNode, .iri "x:knows", Name.xxx.toTerm .blankNode⟩ ∧
      (t.subst b).subst c = t.subst (b.followedBy c) ∧ ¬ b.followedBy c = c.merge b ∧
      g.Ground ∧ g.followedBy c = c.merge g ∧ (t.subst g).subst g = t.subst g ∧
      (∀ n ∈ u.names, g.get? n = none) ∧ u.subst g = u := by
  let b : Bindings := NameMap.ofList [(.xxx, Name.yyy.toTerm .literal)]
  let c : Bindings := NameMap.ofList [(.xxx, .iri "x:tom"), (.yyy, Name.xxx.toTerm .blankNode)]
  let g : Bindings := NameMap.ofList [(.xxx, .iri "x:ann")]
  let t : Triple := ⟨Name.xxx.var, .iri "x:knows", Name.yyy.var⟩
  let u : Triple := ⟨Name.yyy.var, .iri "x:knows", Name.zzz.var⟩
  have hg : g.Ground := by
    intro n v h
    cases n <;> cases h
    rfl
  have hu : ∀ n ∈ u.names, g.get? n = none := by decide
  obtain ⟨hcompose, -, -⟩ := substituting_twice_is_substituting_once b c
  obtain ⟨-, hground, hunbound⟩ := substituting_twice_is_substituting_once g c
  have honce := (hcompose (b.followedBy c)).2 rfl t
  have hmerge : ¬ b.followedBy c = c.merge b := by decide
  exact ⟨b, c, g, t, u, rfl, rfl, rfl, rfl, rfl, rfl, honce, hmerge, hg, (hground hg).1,
    (hground hg).2 t, hu, hunbound u hu⟩

end RdfEntailment
