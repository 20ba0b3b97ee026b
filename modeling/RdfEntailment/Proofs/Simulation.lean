-- Two runs of the engine side by side. A simulation relates the slots of two
-- patterns and the terms of two statements so that no step of the engine can
-- tell them apart: it asks of terms only which name they have and whether they
-- are equal. Related rules on related statements then have related results,
-- and leave related records.
import Mathlib.Data.List.Forall2
import Mathlib.Logic.Equiv.Defs
import RdfEntailment.Proofs.Instances

namespace RdfEntailment

/-! ## Results that correspond -/

/-- Both results are values that are related, or both are errors that are. -/
inductive Corresponds {ε α β : Type} (E : ε → ε → Prop) (S : α → β → Prop) :
    Except ε α → Except ε β → Prop
  | ok {a : α} {b : β} (h : S a b) : Corresponds E S (.ok a) (.ok b)
  | error {e e' : ε} (h : E e e') : Corresponds E S (.error e) (.error e')

namespace Corresponds

variable {ε ι κ α β γ δ : Type} {E : ε → ε → Prop} {S : α → β → Prop} {T : γ → δ → Prop}

theorem imp {E' : ε → ε → Prop} {S' : α → β → Prop} {x : Except ε α} {y : Except ε β}
    (h : Corresponds E S x y) (hE : ∀ e e', E e e' → E' e e') (hS : ∀ a b, S a b → S' a b) :
    Corresponds E' S' x y := by
  cases h with
  | ok h => exact .ok (hS _ _ h)
  | error h => exact .error (hE _ _ h)

theorem eq {x y : Except ε α} (h : Corresponds (· = ·) (· = ·) x y) : x = y := by
  cases h with
  | ok h => rw [h]
  | error h => rw [h]

/-- Results that correspond through functions are the images of one another. -/
theorem eq_map {f : ε → ε} {g : α → β} {x : Except ε α} {y : Except ε β}
    (h : Corresponds (fun e e' => e' = f e) (fun a b => b = g a) x y) :
    y = (x.map g).mapError f := by
  cases h with
  | ok h =>
    subst h
    rfl
  | error h =>
    subst h
    rfl

theorem eq_map_ok {g : α → β} {x : Except ε α} {y : Except ε β}
    (h : Corresponds (· = ·) (fun a b => b = g a) x y) : y = x.map g := by
  cases h with
  | ok h =>
    subst h
    rfl
  | error h =>
    subst h
    rfl

theorem bind {x : Except ε α} {y : Except ε β} {f : α → Except ε γ} {g : β → Except ε δ}
    (h : Corresponds E S x y) (hf : ∀ a b, S a b → Corresponds E T (f a) (g b)) :
    Corresponds E T (x >>= f) (y >>= g) := by
  cases h with
  | ok h => exact hf _ _ h
  | error h => exact .error h

theorem ite {p q : Prop} [Decidable p] [Decidable q] {x x' : Except ε α} {y y' : Except ε β}
    (h : p ↔ q) (hx : Corresponds E S x y) (hx' : Corresponds E S x' y') :
    Corresponds E S (if p then x else x') (if q then y else y') := by
  by_cases hp : p
  · rw [if_pos hp, if_pos (h.1 hp)]
    exact hx
  · rw [if_neg hp, if_neg fun hq => hp (h.2 hq)]
    exact hx'

theorem foldlM {f : α → ι → Except ε α} {g : β → ι → Except ε β}
    (hf : ∀ a b i, S a b → Corresponds E S (f a i) (g b i)) (is : List ι) {a : α} {b : β}
    (h : S a b) : Corresponds E S (is.foldlM f a) (is.foldlM g b) := by
  induction is generalizing a b with
  | nil => exact .ok h
  | cons i is ih =>
    rw [List.foldlM_cons, List.foldlM_cons]
    exact (hf a b i h).bind fun a' b' h' => ih h'

theorem mapM {R : ι → κ → Prop} {f : ι → Except ε α} {g : κ → Except ε β}
    (hf : ∀ i k, R i k → Corresponds E S (f i) (g k)) {is : List ι} {ks : List κ}
    (h : List.Forall₂ R is ks) :
    Corresponds E (List.Forall₂ S) (is.mapM f) (ks.mapM g) := by
  induction h with
  | nil => exact .ok .nil
  | cons hik _ ih =>
    rw [List.mapM_cons, List.mapM_cons]
    refine (hf _ _ hik).bind fun a b hab => ?_
    exact ih.bind fun as bs hs => .ok (.cons hab hs)

end Corresponds

/-! ## Simulations -/

/-- The error with another name in it. -/
def MatchError.rename (f : Name → Name) : MatchError → MatchError
  | .arity expected found => .arity expected found
  | .unsupportedRule antecedents => .unsupportedRule antecedents
  | .groundMismatch position => .groundMismatch position
  | .inconsistentBinding position name => .inconsistentBinding position (f name)
  | .noOrdering => .noOrdering
  | .underdetermined name => .underdetermined (f name)

theorem MatchError.rename_refl (e : MatchError) : e.rename (Equiv.refl Name) = e := by
  cases e <;> rfl

/-- What relates two runs: a permutation of the names, a relation of the slots
of patterns, and a relation of the terms of statements. A term of a statement
may become a slot of a pattern, by substitution. -/
structure Simulation where
  rename : Equiv.Perm Name
  slot : Term → Term → Prop
  value : Term → Term → Prop
  slot_of_value {v v' : Term} : value v v' → slot v v'
  name_eq {a a' : Term} : slot a a' → a'.name? = a.name?.map rename
  ground_iff {a a' v v' : Term} : slot a a' → a.name? = none → value v v' → (a ≈ v ↔ a' ≈ v')
  value_iff {v v' w w' : Term} : value v v' → value w w' → (v ≈ w ↔ v' ≈ w')

namespace Simulation

variable (sim : Simulation)

def Pattern (a a' : Triple) : Prop := ∀ p, sim.slot (a.term p) (a'.term p)

def Statement (s s' : Triple) : Prop := ∀ p, sim.value (s.term p) (s'.term p)

def Bound (b b' : Bindings) : Prop :=
  ∀ n, Option.Rel sim.value (b.get? n) (b'.get? (sim.rename n))

/-- Related conclusions are ground, so a relation of slots says all of them. -/
def Conclusion (t t' : Triple) : Prop := t.Ground ∧ sim.Pattern t t'

def Error (e e' : MatchError) : Prop := e' = e.rename sim.rename

inductive Fault : SlotFault → SlotFault → Prop
  | groundMismatch (p : Position) : Fault (.groundMismatch p) (.groundMismatch p)
  | inconsistentBinding (p : Position) (n : Name) {kept kept' : Term}
      (h : sim.value kept kept') :
      Fault (.inconsistentBinding p n kept) (.inconsistentBinding p (sim.rename n) kept')

inductive Record : Event → Event → Prop
  | alreadyBound (p : Position) (n : Name) {kept kept' : Term} (h : sim.value kept kept') :
      Record (.alreadyBound p n kept) (.alreadyBound p (sim.rename n) kept')
  | unmatched {e e' : MatchError} (h : sim.Error e e') : Record (.unmatched e) (.unmatched e')
  | firstOrderingFailed {e e' : MatchError} (h : sim.Error e e') :
      Record (.firstOrderingFailed e) (.firstOrderingFailed e')
  | secondOrderingFailed {e e' : MatchError} (h : sim.Error e e') :
      Record (.secondOrderingFailed e) (.secondOrderingFailed e')
  | unfinished {e e' : MatchError} (h : sim.Error e e') : Record (.unfinished e) (.unfinished e')
  | derived {ts ts' : List Triple} (h : List.Forall₂ sim.Conclusion ts ts') :
      Record (.derived ts) (.derived ts')

structure Run {α β : Type} (S : α → β → Prop) (x : Traced α) (y : Traced β) : Prop where
  events : List.Forall₂ sim.Record x.events y.events
  result : Corresponds sim.Error S x.result y.result

structure Rules (r r' : Rule) : Prop where
  antecedents : List.Forall₂ sim.Pattern r.antecedents r'.antecedents
  consequents : List.Forall₂ sim.Pattern r.consequents r'.consequents

variable {sim} {b b' c c' : Bindings} {a a' a₁ a₁' a₂ a₂' s s' s₁ s₁' s₂ s₂' : Triple}

/-- Where no name is changed, related errors are one error. -/
theorem eq_of_error (hsim : sim.rename = Equiv.refl Name) {e e' : MatchError}
    (h : sim.Error e e') : e = e' := by
  unfold Error at h
  rw [h, hsim, MatchError.rename_refl]

/-! ## Bindings -/

theorem bound_empty : sim.Bound ∅ ∅ := by
  intro n
  rw [NameMap.get?_empty, NameMap.get?_empty]
  exact .none

/-- Related bindings bind the same names, up to the permutation. -/
theorem bound_cases (hb : sim.Bound b b') (n : Name) :
    (b.get? n = none ∧ b'.get? (sim.rename n) = none) ∨
    ∃ v v', b.get? n = some v ∧ b'.get? (sim.rename n) = some v' ∧ sim.value v v' := by
  have hrel := hb n
  generalize b.get? n = x at hrel ⊢
  generalize b'.get? (sim.rename n) = y at hrel ⊢
  cases hrel with
  | none => exact Or.inl ⟨rfl, rfl⟩
  | some h => exact Or.inr ⟨_, _, rfl, rfl, h⟩

theorem bound_insert (hb : sim.Bound b b') {v v' : Term} (hv : sim.value v v') (n : Name) :
    sim.Bound (b.insert n v) (b'.insert (sim.rename n) v') := by
  intro m
  rw [NameMap.get?_insert, NameMap.get?_insert]
  by_cases hm : m = n
  · rw [if_pos hm, if_pos (congrArg sim.rename hm)]
    exact .some hv
  · rw [if_neg hm, if_neg fun h => hm (sim.rename.injective h)]
    exact hb m

theorem bound_merge (hb : sim.Bound b b') (hc : sim.Bound c c') :
    sim.Bound (b.merge c) (b'.merge c') := by
  intro n
  rw [NameMap.get?_merge, NameMap.get?_merge]
  rcases bound_cases hc n with ⟨hx, hy⟩ | ⟨v, v', hx, hy, hv⟩
  · rw [hx, hy, Option.none_or, Option.none_or]
    exact hb n
  · rw [hx, hy, Option.some_or, Option.some_or]
    exact .some hv

/-! ## Substitution -/

/-- Substitution keeps every relation that knows the names and holds of the
values. -/
theorem subst_related {R : Term → Term → Prop}
    (hname : ∀ {t t'}, R t t' → t'.name? = t.name?.map sim.rename)
    (hvalue : ∀ {v v'}, sim.value v v' → R v v') (hb : sim.Bound b b') {t t' : Term}
    (ht : R t t') : R (t.subst b) (t'.subst b') := by
  have ht' := hname ht
  cases hn : t.name? with
  | none =>
    rw [hn] at ht'
    rw [Term.subst_of_ground hn, Term.subst_of_ground ht']
    exact ht
  | some n =>
    rw [hn] at ht'
    rcases bound_cases hb n with ⟨hx, hy⟩ | ⟨v, v', hx, hy, hv⟩
    · rw [Term.subst_of_unbound hn hx, Term.subst_of_unbound ht' hy]
      exact ht
    · rw [Term.subst_of_bound hn hx, Term.subst_of_bound ht' hy]
      exact hvalue hv

theorem pattern_subst (ha : sim.Pattern a a') (hb : sim.Bound b b') :
    sim.Pattern (a.subst b) (a'.subst b') := by
  intro p
  rw [Triple.term_subst, Triple.term_subst]
  exact subst_related sim.name_eq sim.slot_of_value hb (ha p)

theorem statement_subst (hs : sim.Statement s s') (hb : sim.Bound b b') :
    sim.Statement (s.subst b) (s'.subst b') := by
  intro p
  rw [Triple.term_subst, Triple.term_subst]
  exact subst_related (fun h => sim.name_eq (sim.slot_of_value h)) id hb (hs p)

/-! ## Reading -/

theorem bindSlot_related (hb : sim.Bound b b') (p : Position) {t t' v v' : Term}
    (ht : sim.slot t t') (hv : sim.value v v') :
    Corresponds sim.Fault sim.Bound (b.bindSlot p t v) (b'.bindSlot p t' v') := by
  have ht' := sim.name_eq ht
  cases hn : t.name? with
  | none =>
    rw [hn] at ht'
    rw [Bindings.bindSlot_ground hn, Bindings.bindSlot_ground ht']
    exact .ite (sim.ground_iff ht hn hv) (.ok hb) (.error (.groundMismatch p))
  | some n =>
    rw [hn] at ht'
    rcases bound_cases hb n with ⟨hx, hy⟩ | ⟨kept, kept', hx, hy, hkept⟩
    · rw [Bindings.bindSlot_new hn hx, Bindings.bindSlot_new ht' hy]
      exact .ok (bound_insert hb hv n)
    · rw [Bindings.bindSlot_again hn hx, Bindings.bindSlot_again ht' hy]
      exact .ite (sim.value_iff hkept hv) (.ok hb) (.error (.inconsistentBinding p n hkept))

theorem unify_related (ha : sim.Pattern a a') (hs : sim.Statement s s') :
    Corresponds sim.Fault sim.Bound (a.unify s) (a'.unify s') :=
  Corresponds.foldlM (fun _ _ p hb => bindSlot_related hb p (ha p) (hs p)) Position.all bound_empty

theorem unifyPair_related (ha₁ : sim.Pattern a₁ a₁') (ha₂ : sim.Pattern a₂ a₂')
    (hs₁ : sim.Statement s₁ s₁') (hs₂ : sim.Statement s₂ s₂') :
    Corresponds sim.Fault sim.Bound (a₁.unifyPair a₂ s₁ s₂) (a₁'.unifyPair a₂' s₁' s₂') := by
  refine (unify_related ha₁ hs₁).bind fun b₁ b₁' hb₁ => ?_
  have ha₂ := pattern_subst ha₂ hb₁
  have hs₂ := statement_subst hs₂ hb₁
  exact (unify_related ha₂ hs₂).bind fun b₂ b₂' hb₂ => .ok (bound_merge hb₂ hb₁)

/-! ## Records -/

theorem error_related {f f' : SlotFault} (h : sim.Fault f f') : sim.Error f.error f'.error := by
  cases h with
  | groundMismatch p => rfl
  | inconsistentBinding p n h => rfl

theorem events_related {f f' : SlotFault} (h : sim.Fault f f') :
    List.Forall₂ sim.Record f.events f'.events := by
  cases h with
  | groundMismatch p => exact .nil
  | inconsistentBinding p n h => exact .cons (.alreadyBound p n h) .nil

theorem run_refuse {α β : Type} {S : α → β → Prop} {e e' : MatchError} (h : sim.Error e e') :
    sim.Run S (.refuse e) (.refuse e') := ⟨.nil, .error h⟩

theorem run_andThen {α β γ δ : Type} {S : α → β → Prop} {T : γ → δ → Prop} {x : Traced α}
    {y : Traced β} {f : α → Traced γ} {g : β → Traced δ} (h : sim.Run S x y)
    (hf : ∀ a b, S a b → sim.Run T (f a) (g b)) : sim.Run T (x.andThen f) (y.andThen g) := by
  obtain ⟨xs, rx⟩ := x
  obtain ⟨ys, ry⟩ := y
  obtain ⟨hevents, hresult⟩ := h
  cases hresult with
  | ok hab =>
    obtain ⟨hevents', hresult'⟩ := hf _ _ hab
    exact ⟨List.rel_append hevents hevents', hresult'⟩
  | error he => exact ⟨hevents, .error he⟩

theorem unifyTraced_related (ha : sim.Pattern a a') (hs : sim.Statement s s') :
    sim.Run sim.Bound (a.unifyTraced s) (a'.unifyTraced s') := by
  have hrel := unify_related ha hs
  unfold Triple.unifyTraced
  generalize a.unify s = x at hrel
  generalize a'.unify s' = y at hrel
  cases hrel with
  | ok hb => exact ⟨.nil, .ok hb⟩
  | error hf =>
    have he := error_related hf
    exact ⟨List.rel_append (events_related hf) (.cons (.unmatched he) .nil), .error he⟩

theorem unifyEitherWay_related (ha₁ : sim.Pattern a₁ a₁') (ha₂ : sim.Pattern a₂ a₂')
    (hs₁ : sim.Statement s₁ s₁') (hs₂ : sim.Statement s₂ s₂') :
    sim.Run sim.Bound (a₁.unifyEitherWay a₂ s₁ s₂) (a₁'.unifyEitherWay a₂' s₁' s₂') := by
  have hgiven := unifyPair_related ha₁ ha₂ hs₁ hs₂
  have hswapped := unifyPair_related ha₁ ha₂ hs₂ hs₁
  unfold Triple.unifyEitherWay
  generalize a₁.unifyPair a₂ s₁ s₂ = x at hgiven
  generalize a₁'.unifyPair a₂' s₁' s₂' = y at hgiven
  generalize a₁.unifyPair a₂ s₂ s₁ = z at hswapped
  generalize a₁'.unifyPair a₂' s₂' s₁' = w at hswapped
  cases hgiven with
  | ok hb => exact ⟨.nil, .ok hb⟩
  | error hfirst =>
    have hevents := List.rel_append (events_related hfirst)
      (.cons (.firstOrderingFailed (error_related hfirst)) .nil)
    cases hswapped with
    | ok hb => exact ⟨hevents, .ok hb⟩
    | error hsecond =>
      have hlast := Record.secondOrderingFailed (error_related hsecond)
      refine ⟨?_, .error rfl⟩
      exact List.rel_append (List.rel_append hevents (events_related hsecond)) (.cons hlast .nil)

/-! ## Rules -/

variable {r r' : Rule} {ss ss' : List Triple}

theorem isPlaceholder_related {t t' : Term} (h : sim.slot t t') :
    t'.isPlaceholder = t.isPlaceholder := by
  rw [Bool.eq_iff_iff, Term.isPlaceholder_iff, Term.isPlaceholder_iff, sim.name_eq h]
  cases t.name? with
  | none => simp
  | some n => simp

theorem generality_related (h : sim.Pattern a a') : a'.generality = a.generality := by
  have hs : a'.subject.isPlaceholder = a.subject.isPlaceholder :=
    isPlaceholder_related (h .subject)
  have hp : a'.predicate.isPlaceholder = a.predicate.isPlaceholder :=
    isPlaceholder_related (h .predicate)
  have ho : a'.object.isPlaceholder = a.object.isPlaceholder :=
    isPlaceholder_related (h .object)
  simp only [Triple.generality, Triple.terms, List.countP_cons, hs, hp, ho]

/-- Ranking counts placeholders, so related rules are ranked alike. -/
theorem ranked_related (h : sim.Rules r r') : List.Forall₂ sim.Pattern r.ranked r'.ranked := by
  -- Both rules are ranked at once, as pairs of antecedents.
  let pairs := r.antecedents.zip r'.antecedents
  let le (x y : Triple × Triple) : Bool := x.1.generalityLE y.1
  have hpairs : ∀ x ∈ pairs, sim.Pattern x.1 x.2 := fun _ hx =>
    (List.forall₂_iff_zip.1 h.antecedents).2 hx
  have hle : ∀ x ∈ pairs, ∀ y ∈ pairs, le x y = x.2.generalityLE y.2 := by
    intro x hx y hy
    simp only [le, Triple.generalityLE, generality_related (hpairs x hx),
      generality_related (hpairs y hy)]
  have hfst : (pairs.mergeSort le).map Prod.fst = r.ranked := by
    rw [List.map_mergeSort (s := Triple.generalityLE) fun _ _ _ _ => rfl,
      List.map_fst_zip (Nat.le_of_eq h.antecedents.length_eq), Rule.ranked]
  have hsnd : (pairs.mergeSort le).map Prod.snd = r'.ranked := by
    rw [List.map_mergeSort (s := Triple.generalityLE) hle,
      List.map_snd_zip (Nat.le_of_eq h.antecedents.length_eq.symm), Rule.ranked]
  rw [← hfst, ← hsnd, List.forall₂_map_left_iff, List.forall₂_map_right_iff, List.forall₂_same]
  exact fun x hx => hpairs x (List.mem_mergeSort.1 hx)

/-- Related rules match related statements with related bindings. -/
theorem solveTraced_related (hr : sim.Rules r r') (hs : List.Forall₂ sim.Statement ss ss') :
    sim.Run sim.Bound (r.solveTraced ss) (r'.solveTraced ss') := by
  have hranked := ranked_related hr
  unfold Rule.solveTraced Rule.matchRanked
  -- Related lists are equally long, so both rules take the same branch.
  rw [← hr.antecedents.length_eq, ← hs.length_eq]
  split
  · generalize r.ranked = as at hranked
    generalize r'.ranked = as' at hranked
    have hrefuse : sim.Run sim.Bound (.refuse (.unsupportedRule r.antecedents.length))
        (.refuse (.unsupportedRule r.antecedents.length)) := run_refuse rfl
    cases hranked with
    | nil => exact hrefuse
    | cons ha₁ hranked =>
      cases hranked with
      | nil =>
        cases hs with
        | nil => exact hrefuse
        | cons hs₁ hs =>
          cases hs with
          | nil => exact unifyTraced_related ha₁ hs₁
          | cons hs₂ hs => exact hrefuse
      | cons ha₂ hranked =>
        cases hranked with
        | nil =>
          cases hs with
          | nil => exact hrefuse
          | cons hs₁ hs =>
            cases hs with
            | nil => exact hrefuse
            | cons hs₂ hs =>
              cases hs with
              | nil => exact unifyEitherWay_related ha₁ ha₂ hs₁ hs₂
              | cons hs₃ hs => exact hrefuse
        | cons ha₃ hranked => exact hrefuse
  · exact run_refuse rfl

theorem firstName?_related (h : sim.Pattern a a') :
    a'.firstName? = a.firstName?.map sim.rename := by
  have hs : a'.subject.name? = _ := sim.name_eq (h .subject)
  have hp : a'.predicate.name? = _ := sim.name_eq (h .predicate)
  have ho : a'.object.name? = _ := sim.name_eq (h .object)
  simp only [Triple.firstName?, Triple.terms, List.findSome?_cons, hs, hp, ho, Triple.term]
  cases a.subject.name? <;> cases a.predicate.name? <;> cases a.object.name? <;> rfl

theorem instantiate_related (ha : sim.Pattern a a') (hb : sim.Bound b b') :
    Corresponds sim.Error sim.Conclusion (a.instantiate b) (a'.instantiate b') := by
  have hsubst := pattern_subst ha hb
  unfold Triple.instantiate
  rw [firstName?_related hsubst]
  cases hn : (a.subst b).firstName? with
  | none => exact .ok ⟨Triple.firstName?_eq_none_iff.1 hn, hsubst⟩
  | some n => exact .error rfl

theorem conclude_related (hr : sim.Rules r r') (hb : sim.Bound b b') :
    sim.Run (List.Forall₂ sim.Conclusion) (r.conclude b) (r'.conclude b') := by
  have hrel : Corresponds sim.Error (List.Forall₂ sim.Conclusion)
      (Triple.instantiateAll r.consequents b) (Triple.instantiateAll r'.consequents b') :=
    Corresponds.mapM (fun _ _ ha => instantiate_related ha hb) hr.consequents
  unfold Rule.conclude
  generalize Triple.instantiateAll r.consequents b = x at hrel
  generalize Triple.instantiateAll r'.consequents b' = y at hrel
  cases hrel with
  | ok hts => exact ⟨.cons (.derived hts) .nil, .ok hts⟩
  | error he => exact ⟨.cons (.unfinished he) .nil, .error he⟩

/-- Related rules derive related triples from related statements, and leave
related records. -/
theorem applyTraced_related (hr : sim.Rules r r') (hs : List.Forall₂ sim.Statement ss ss') :
    sim.Run (List.Forall₂ sim.Conclusion) (r.applyTraced ss) (r'.applyTraced ss') :=
  run_andThen (solveTraced_related hr hs) fun _ _ hb => conclude_related hr hb

theorem apply_related (hr : sim.Rules r r') (hs : List.Forall₂ sim.Statement ss ss') :
    Corresponds sim.Error (List.Forall₂ sim.Conclusion) (r.apply ss) (r'.apply ss') :=
  (applyTraced_related hr hs).result

/-! ## Images -/

section

variable {f : Term → Term}

theorem pattern_images (hslot : ∀ t, sim.slot t (f t)) (ts : List Triple) :
    List.Forall₂ sim.Pattern ts (ts.map (Triple.map f)) := by
  rw [List.forall₂_map_right_iff, List.forall₂_same]
  intro t _ p
  rw [Triple.term_map]
  exact hslot (t.term p)

/-- Where terms are related to their images alone, what is bound is the image of
what was bound. -/
theorem get?_of_bound (hvalue : ∀ v v', sim.value v v' → v' = f v) (h : sim.Bound b b')
    (n : Name) : b'.get? (sim.rename n) = (b.get? n).map f := by
  rcases bound_cases h n with ⟨hb, hb'⟩ | ⟨v, v', hb, hb', hv⟩
  · rw [hb, hb', Option.map_none]
  · rw [hb, hb', Option.map_some, hvalue v v' hv]

theorem eq_map_of_conclusion (hslot : ∀ t t', sim.slot t t' → t' = f t) {t t' : Triple}
    (h : sim.Conclusion t t') : t' = t.map f :=
  Triple.ext_term fun p => (hslot _ _ (h.2 p)).trans (t.term_map f p).symm

end

end Simulation

end RdfEntailment
