-- The law of conclusions. Bindings derive consequents all together or not at all, and
-- never a placeholder. What stops them is a slot in which they leave one: its name is not
-- bound, or it is bound to a placeholder, be that one's name bound or not, since
-- substitution goes once through the slot. The first such slot is reported.
import RdfEntailment.Proofs.Determination

namespace RdfEntailment

/-! ## Slots that keep a placeholder -/

/-- The bindings leave a placeholder of this name in a slot. -/
inductive Bindings.Leaves (b : Bindings) (slot : Term) (n : Name) : Prop
  /-- The slot holds the name, and the name is not bound. -/
  | unbound (hslot : slot.name? = some n) (hn : b.get? n = none)
  /-- The slot holds a name that is bound to a placeholder of this name. -/
  | value {m : Name} {v : Term} (hslot : slot.name? = some m) (hm : b.get? m = some v)
      (hv : v.name? = some n)

/-- No placeholder is left in these slots. -/
def Bindings.Fills (b : Bindings) (slots : List Term) : Prop :=
  ∀ slot ∈ slots, ∀ n, ¬ b.Leaves slot n

/-- Of these slots, the first one in which a placeholder is left has one of this name. -/
def Bindings.LeavesFirst (b : Bindings) (slots : List Term) (n : Name) : Prop :=
  ∃ before slot later, slots = before ++ slot :: later ∧ b.Leaves slot n ∧ b.Fills before

def Triple.slots (ts : List Triple) : List Term := ts.flatMap Triple.terms

variable {b : Bindings} {n : Name}

theorem Bindings.leaves_iff {slot : Term} : b.Leaves slot n ↔ (slot.subst b).name? = some n := by
  rw [Term.name?_subst_eq_some_iff]
  constructor
  · rintro (⟨hslot, hn⟩ | ⟨hslot, hm, hv⟩)
    · exact Or.inl ⟨hslot, hn⟩
    · exact Or.inr ⟨_, _, hslot, hm, hv⟩
  · rintro (⟨hslot, hn⟩ | ⟨m, v, hslot, hm, hv⟩)
    · exact .unbound hslot hn
    · exact .value hslot hm hv

theorem Bindings.fills_iff {slots : List Term} :
    b.Fills slots ↔ ∀ slot ∈ slots, (slot.subst b).name? = none := by
  unfold Bindings.Fills
  simp only [Bindings.leaves_iff, Option.eq_none_iff_forall_ne_some, ne_eq]

theorem Bindings.leavesFirst_iff {slots : List Term} :
    b.LeavesFirst slots n ↔ (slots.findSome? fun slot => (slot.subst b).name?) = some n := by
  rw [List.findSome?_eq_some_iff]
  simp only [Bindings.LeavesFirst, Bindings.leaves_iff, Bindings.fills_iff]

theorem Bindings.fills_or_leavesFirst (b : Bindings) (slots : List Term) :
    b.Fills slots ∨ ∃ n, b.LeavesFirst slots n := by
  cases hfirst : slots.findSome? fun slot => (slot.subst b).name? with
  | none => exact Or.inl (Bindings.fills_iff.2 (List.findSome?_eq_none_iff.1 hfirst))
  | some n => exact Or.inr ⟨n, Bindings.leavesFirst_iff.2 hfirst⟩

/-! ## Consequents -/

variable {cs : List Triple}

theorem Triple.fills_slots_iff : b.Fills (slots cs) ↔ ∀ c ∈ cs, (c.subst b).Ground := by
  simp only [Bindings.fills_iff, slots, List.mem_flatMap, Triple.ground_iff, Triple.term_subst]
  constructor
  · exact fun h c hc p => h _ ⟨c, hc, Triple.mem_terms.2 ⟨p, rfl⟩⟩
  · rintro h slot ⟨c, hc, hslot⟩
    obtain ⟨p, rfl⟩ := Triple.mem_terms.1 hslot
    exact h c hc p

/-- The names that consequents keep are those of the placeholders in their slots. -/
theorem Triple.flatMap_names_subst (cs : List Triple) (b : Bindings) :
    (cs.flatMap fun c => (c.subst b).names) =
      (slots cs).filterMap fun slot => (slot.subst b).name? := by
  simp only [slots, names, subst, Triple.terms_map, List.filterMap_flatMap, List.filterMap_map,
    Function.comp_def]

theorem Triple.instantiateAll_of_leavesFirst (h : b.LeavesFirst (slots cs) n) :
    instantiateAll cs b = .error (.underdetermined n) := by
  apply Triple.instantiateAll_of_head?
  rw [Triple.flatMap_names_subst, List.head?_filterMap]
  exact Bindings.leavesFirst_iff.1 h

theorem Triple.instantiateAll_eq_error_iff {e : MatchError} :
    instantiateAll cs b = .error e ↔ ∃ n, e = .underdetermined n ∧ b.LeavesFirst (slots cs) n := by
  constructor
  · intro h
    rcases b.fills_or_leavesFirst (slots cs) with hfills | ⟨n, hn⟩
    · rw [Triple.instantiateAll_eq_ok_iff.2 ⟨Triple.fills_slots_iff.1 hfills, rfl⟩] at h
      cases h
    · rw [Triple.instantiateAll_of_leavesFirst hn] at h
      cases h
      exact ⟨n, rfl, hn⟩
  · rintro ⟨n, rfl, hn⟩
    exact Triple.instantiateAll_of_leavesFirst hn

/-! ## The law -/

/-- No placeholder is ever derived, also not from statements that hold some. -/
theorem Rule.ground_of_apply {r : Rule} {ss ts : List Triple} (h : r.apply ss = .ok ts) :
    ∀ t ∈ ts, t.Ground := by
  obtain ⟨b, -, hground, rfl⟩ := Rule.apply_eq_ok_iff.1 h
  intro t ht
  obtain ⟨c, hc, rfl⟩ := List.mem_map.1 ht
  exact hground c hc

/-- Bindings derive consequents exactly when they leave a placeholder in no slot: one triple
for each consequent, in order. Otherwise they fail with the name of the first placeholder
that they leave. So what a rule derives from any statements is ground, and bindings that
come later change nothing about it. -/
theorem consequents_are_derived_all_or_none (cs : List Triple) (b : Bindings) :
    (∀ ts, Triple.instantiateAll cs b = .ok ts ↔
      b.Fills (Triple.slots cs) ∧ ts = cs.map (·.subst b)) ∧
    (∀ e, Triple.instantiateAll cs b = .error e ↔
      ∃ n, e = .underdetermined n ∧ b.LeavesFirst (Triple.slots cs) n) ∧
    ∀ (r : Rule) (ss ts : List Triple), r.apply ss = .ok ts →
      ∀ t ∈ ts, t.Ground ∧ ∀ c : Bindings, t.subst c = t := by
  refine ⟨fun ts => ?_, fun e => Triple.instantiateAll_eq_error_iff, fun r ss ts h t ht => ?_⟩
  · rw [Triple.fills_slots_iff, Triple.instantiateAll_eq_ok_iff]
  · have hground := Rule.ground_of_apply h t ht
    exact ⟨hground, fun c => Triple.subst_of_ground hground⟩

/-- A name that is bound to the placeholder of another name keeps it, though that name is
bound too, and is reported before a name that is not bound. A super-property of a placeholder
is a statement with one of its own, and what is derived from it holds none. -/
theorem a_placeholder_that_comes_in_as_a_value_is_left :
    ∃ (c c' s₁ s₂ : Triple) (b : Bindings) (ts : List Triple),
      c = ⟨Name.yyy.var, Rdf.type, Name.yyy.toTerm .literal⟩ ∧
      c' = ⟨Name.yyy.var, Name.xxx.toTerm .literal, Name.zzz.var⟩ ∧
      b = NameMap.ofList [(.xxx, Name.yyy.toTerm .blankNode), (.yyy, .iri "x:tom")] ∧
      b.Fills (Triple.slots [c]) ∧ b.LeavesFirst (Triple.slots [c, c']) .yyy ∧
      Triple.instantiateAll [c] b = .ok [⟨.iri "x:tom", Rdf.type, .iri "x:tom"⟩] ∧
      Triple.instantiateAll [c, c'] b = .error (.underdetermined .yyy) ∧
      s₁ = ⟨Name.aaa.var, Rdfs.subPropertyOf, .iri "x:knows"⟩ ∧
      s₂ = ⟨.iri "x:tom", .iri "x:likes", .iri "x:jerry"⟩ ∧
      ts = [⟨.iri "x:tom", .iri "x:knows", .iri "x:jerry"⟩] ∧ ¬ s₁.Ground ∧
      Catalog.rdfs7.apply [s₁, s₂] = .ok ts ∧
      ∀ t ∈ ts, t.Ground ∧ ∀ c : Bindings, t.subst c = t := by
  let c : Triple := ⟨Name.yyy.var, Rdf.type, Name.yyy.toTerm .literal⟩
  let c' : Triple := ⟨Name.yyy.var, Name.xxx.toTerm .literal, Name.zzz.var⟩
  let s₁ : Triple := ⟨Name.aaa.var, Rdfs.subPropertyOf, .iri "x:knows"⟩
  let s₂ : Triple := ⟨.iri "x:tom", .iri "x:likes", .iri "x:jerry"⟩
  let b : Bindings := NameMap.ofList [(.xxx, Name.yyy.toTerm .blankNode), (.yyy, .iri "x:tom")]
  have hderived : Triple.instantiateAll [c] b = .ok [⟨.iri "x:tom", Rdf.type, .iri "x:tom"⟩] := rfl
  have hstopped : Triple.instantiateAll [c, c'] b = .error (.underdetermined .yyy) := rfl
  have hrule : Catalog.rdfs7.apply [s₁, s₂] = .ok [⟨.iri "x:tom", .iri "x:knows", .iri "x:jerry"⟩] :=
    Rule.apply_of_declared (by decide) _
  obtain ⟨hok, -, hground⟩ := consequents_are_derived_all_or_none [c] b
  obtain ⟨-, herror, -⟩ := consequents_are_derived_all_or_none [c, c'] b
  obtain ⟨n, hn, hfirst⟩ := (herror _).1 hstopped
  cases hn
  exact ⟨c, c', s₁, s₂, b, _, rfl, rfl, rfl, ((hok _).1 hderived).1, hfirst, hderived, hstopped,
    rfl, rfl, rfl, by decide, hrule, hground _ _ _ hrule⟩

end RdfEntailment
