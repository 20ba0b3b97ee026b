-- The law of opaque terms. Of a term that is no placeholder, a rule only asks
-- whether it equals another one: the kind of term, its text and what it holds
-- inside make no difference. Where all terms are put into other words, what the
-- rule binds and derives is put into the same words.
import RdfEntailment.Proofs.Simulation

namespace RdfEntailment

/-! ## Other words -/

/-- Other words for terms. Placeholders have no others, and two terms are equal
in other words exactly when they are equal. -/
structure Term.Rewording (f : Term → Term) : Prop where
  placeholder : ∀ ph : Placeholder, f ph.toTerm = ph.toTerm
  equiv_iff : ∀ t u, f t ≈ f u ↔ t ≈ u

/-- The rule with its antecedents and consequents in other words. -/
def Rule.reword (f : Term → Term) (r : Rule) : Rule where
  name := r.name
  antecedents := r.antecedents.map (Triple.map f)
  consequents := r.consequents.map (Triple.map f)
  constraints := r.constraints

namespace Term.Rewording

variable {f : Term → Term}

theorem placeholder?_eq (hf : Rewording f) (t : Term) : (f t).placeholder? = t.placeholder? := by
  apply Option.ext
  intro ph
  calc (f t).placeholder? = some ph
      ↔ ph.toTerm ≈ f t := (Term.equiv_iff_placeholder? ph.placeholder?_toTerm).symm
    _ ↔ f ph.toTerm ≈ f t := by rw [hf.placeholder]
    _ ↔ ph.toTerm ≈ t := hf.equiv_iff ph.toTerm t
    _ ↔ t.placeholder? = some ph := Term.equiv_iff_placeholder? ph.placeholder?_toTerm

theorem name?_eq (hf : Rewording f) (t : Term) : (f t).name? = t.name? := by
  rw [Term.name?, hf.placeholder?_eq, Term.name?]

end Term.Rewording

/-! ## Two runs in different words -/

/-- Two runs, the second one in other words. -/
def Simulation.inOtherWords {f : Term → Term} (hf : Term.Rewording f) : Simulation where
  rename := Equiv.refl Name
  slot t t' := t' = f t
  value t t' := t' = f t
  slot_of_value h := h
  name_eq := by
    rintro t _ rfl
    rw [hf.name?_eq]
    exact Option.map_id'.symm
  ground_iff := by
    rintro t _ v _ rfl _ rfl
    exact (hf.equiv_iff t v).symm
  value_iff := by
    rintro v _ w _ rfl rfl
    exact (hf.equiv_iff v w).symm

namespace Simulation

variable {f : Term → Term} (hf : Term.Rewording f)

theorem otherWords_triples (ts : List Triple) :
    List.Forall₂ (inOtherWords hf).Pattern ts (ts.map (Triple.map f)) :=
  pattern_images (fun _ => rfl) ts

theorem otherWords_rules (r : Rule) : (inOtherWords hf).Rules r (r.reword f) :=
  ⟨otherWords_triples hf r.antecedents, otherWords_triples hf r.consequents⟩

theorem otherWords_bound {b b' : Bindings} (h : (inOtherWords hf).Bound b b') : b' = b.map f := by
  apply NameMap.ext_get?
  intro n
  rw [NameMap.get?_map]
  exact get?_of_bound (fun _ _ => id) h n

theorem otherWords_conclusions {ts ts' : List Triple}
    (h : List.Forall₂ (inOtherWords hf).Conclusion ts ts') : ts' = ts.map (Triple.map f) := by
  rw [← List.forall₂_eq_eq_eq, List.forall₂_map_right_iff]
  exact h.flip.imp fun _ _ => eq_map_of_conclusion fun _ _ => id

end Simulation

/-! ## The law -/

/-- In other words, a rule binds and derives the same in those words, or it fails
with the very same error. -/
theorem terms_are_opaque {f : Term → Term} (hf : Term.Rewording f) (r : Rule) (ss : List Triple) :
    (r.reword f).solve (ss.map (Triple.map f)) = (r.solve ss).map (NameMap.map f) ∧
    (r.reword f).apply (ss.map (Triple.map f)) = (r.apply ss).map (List.map (Triple.map f)) := by
  have hrules := Simulation.otherWords_rules hf r
  have hstatements := Simulation.otherWords_triples hf ss
  constructor
  · have hrun := Simulation.solveTraced_related hrules hstatements
    exact (hrun.result.imp (fun _ _ => Simulation.eq_of_error rfl)
      fun _ _ => Simulation.otherWords_bound hf).eq_map_ok
  · have hrel := Simulation.apply_related hrules hstatements
    exact (hrel.imp (fun _ _ => Simulation.eq_of_error rfl)
      fun _ _ => Simulation.otherWords_conclusions hf).eq_map_ok

/-! ## Terms that quote themselves -/

/-- A term that is no placeholder as the quoted triple of nothing but itself. -/
def Term.selfQuoted (t : Term) : Term := if t.isPlaceholder then t else .quoted t t t

theorem Term.selfQuoted_of_some {t : Term} {ph : Placeholder} (h : t.placeholder? = some ph) :
    t.selfQuoted = t := by
  rw [Term.selfQuoted, if_pos (by rw [Term.isPlaceholder, h]; rfl)]

theorem Term.selfQuoted_of_none {t : Term} (h : t.placeholder? = none) :
    t.selfQuoted = .quoted t t t := by
  rw [Term.selfQuoted, if_neg (by rw [Term.isPlaceholder, h]; exact Bool.false_ne_true)]

theorem Term.placeholder?_selfQuoted (t : Term) : t.selfQuoted.placeholder? = t.placeholder? := by
  cases h : t.placeholder? with
  | none => rw [Term.selfQuoted_of_none h]; rfl
  | some ph => rw [Term.selfQuoted_of_some h, h]

theorem Term.selfQuoted_rewording : Term.Rewording Term.selfQuoted where
  placeholder ph := Term.selfQuoted_of_some ph.placeholder?_toTerm
  equiv_iff t u := by
    cases ht : t.placeholder? with
    | some ph =>
      rw [Term.equiv_iff_placeholder? ht,
        Term.equiv_iff_placeholder? ((Term.placeholder?_selfQuoted t).trans ht),
        Term.placeholder?_selfQuoted]
    | none =>
      have ht' := (Term.placeholder?_selfQuoted t).trans ht
      cases hu : u.placeholder? with
      | some ph =>
        have hu' := (Term.placeholder?_selfQuoted u).trans hu
        exact iff_of_false (Term.not_equiv_placeholder ht' hu') (Term.not_equiv_placeholder ht hu)
      | none =>
        rw [Term.selfQuoted_of_none ht, Term.selfQuoted_of_none hu, Term.quoted_equiv_quoted_iff,
          and_self_iff, and_self_iff]

/-- In quotes, the domain rule no longer speaks of its vocabulary, and yet it
derives in quotes what it derived before, also from a statement whose predicate
is a placeholder. -/
theorem a_domain_is_derived_in_quotes :
    ∃ ss : List Triple,
      ss = [⟨.iri "x:tom", Name.aaa.var, .iri "x:jerry"⟩,
        ⟨.iri "x:likes", Rdfs.domain, .iri "x:Person"⟩] ∧
      Term.Rewording Term.selfQuoted ∧
      Catalog.rdfs2.reword Term.selfQuoted ≠ Catalog.rdfs2 ∧
      (Catalog.rdfs2.reword Term.selfQuoted).solve (ss.map (Triple.map Term.selfQuoted)) =
        (Catalog.rdfs2.solve ss).map (NameMap.map Term.selfQuoted) ∧
      (Catalog.rdfs2.reword Term.selfQuoted).apply (ss.map (Triple.map Term.selfQuoted)) =
        .ok [Triple.map Term.selfQuoted ⟨.iri "x:tom", Rdf.type, .iri "x:Person"⟩] := by
  let ss : List Triple := [⟨.iri "x:tom", Name.aaa.var, .iri "x:jerry"⟩,
    ⟨.iri "x:likes", Rdfs.domain, .iri "x:Person"⟩]
  have hderived : Catalog.rdfs2.apply ss = .ok [⟨.iri "x:tom", Rdf.type, .iri "x:Person"⟩] :=
    Rule.apply_of_declared (by decide) _
  obtain ⟨hsolve, happly⟩ := terms_are_opaque Term.selfQuoted_rewording Catalog.rdfs2 ss
  rw [hderived] at happly
  exact ⟨ss, rfl, Term.selfQuoted_rewording, by decide, hsolve, happly⟩

end RdfEntailment
