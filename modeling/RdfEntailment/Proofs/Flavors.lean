-- The law of flavors. A rule variable is known by its name alone: a rule that
-- writes some of its placeholders in other flavors binds the same terms, derives
-- the same triples, fails with the same errors and leaves the same record.
import RdfEntailment.Catalog
import RdfEntailment.Diagnostics
import RdfEntailment.Proofs.Simulation

namespace RdfEntailment

/-! ## Other flavors of the same names -/

/-- The same term, or the same name in another flavor. -/
inductive Term.Reflavored : Term → Term → Prop
  | same (t : Term) : Reflavored t t
  | flavor (n : Name) (f f' : Flavor) : Reflavored (n.toTerm f) (n.toTerm f')

def Triple.Reflavored (t t' : Triple) : Prop := ∀ p, (t.term p).Reflavored (t'.term p)

/-- The rules differ at most in the flavors of their placeholders. -/
structure Rule.Reflavored (r r' : Rule) : Prop where
  name : r'.name = r.name
  antecedents : List.Forall₂ Triple.Reflavored r.antecedents r'.antecedents
  consequents : List.Forall₂ Triple.Reflavored r.consequents r'.consequents
  constraints : r'.constraints = r.constraints

theorem Term.Reflavored.name?_eq {t t' : Term} (h : t.Reflavored t') : t'.name? = t.name? := by
  cases h with
  | same => rfl
  | flavor n f f' => rw [Name.name?_toTerm, Name.name?_toTerm]

theorem Term.Reflavored.eq_of_ground {t t' : Term} (h : t.Reflavored t') (ht : t.name? = none) :
    t = t' := by
  cases h with
  | same => rfl
  | flavor n f f' =>
    rw [Name.name?_toTerm] at ht
    cases ht

theorem Triple.Reflavored.eq_of_ground {t t' : Triple} (h : t.Reflavored t') (ht : t.Ground) :
    t = t' :=
  Triple.ext_term fun p => (h p).eq_of_ground (Triple.ground_iff.1 ht p)

/-! ## Two runs on the same statements -/

/-- Two runs whose patterns differ in flavors only. -/
def Simulation.flavors : Simulation where
  rename := Equiv.refl Name
  slot := Term.Reflavored
  value v v' := v = v'
  slot_of_value := by
    rintro v _ rfl
    exact .same v
  name_eq h := by
    rw [h.name?_eq]
    exact Option.map_id'.symm
  ground_iff := by
    rintro a _ v _ ha hn rfl
    rw [ha.eq_of_ground hn]
  value_iff := by
    rintro v _ w _ rfl rfl
    rfl

namespace Simulation

variable {r r' : Rule}

theorem flavors_rules (h : r.Reflavored r') : flavors.Rules r r' :=
  ⟨h.antecedents, h.consequents⟩

theorem flavors_statements (ss : List Triple) : List.Forall₂ flavors.Statement ss ss :=
  List.forall₂_same.2 fun _ _ _ => rfl

theorem eq_of_flavors_bound {b b' : Bindings} (h : flavors.Bound b b') : b = b' := by
  apply NameMap.ext_get?
  intro n
  rcases bound_cases h n with ⟨hb, hb'⟩ | ⟨v, v', hb, hb', rfl⟩
  · exact hb.trans hb'.symm
  · exact hb.trans hb'.symm

theorem eq_of_flavors_conclusions {ts ts' : List Triple}
    (h : List.Forall₂ flavors.Conclusion ts ts') : ts = ts' := by
  rw [← List.forall₂_eq_eq_eq]
  exact h.imp fun _ _ ht => Triple.Reflavored.eq_of_ground ht.2 ht.1

theorem eq_of_flavors_record {e e' : Event} (h : flavors.Record e e') : e = e' := by
  cases h with
  | alreadyBound p n h =>
    cases h
    rfl
  | unmatched h => rw [eq_of_error rfl h]
  | firstOrderingFailed h => rw [eq_of_error rfl h]
  | secondOrderingFailed h => rw [eq_of_error rfl h]
  | unfinished h => rw [eq_of_error rfl h]
  | derived h => rw [eq_of_flavors_conclusions h]

end Simulation

/-! ## The flavor does not matter -/

namespace Rule.Reflavored

variable {r r' : Rule}

theorem solve_eq (h : r.Reflavored r') (ss : List Triple) : r.solve ss = r'.solve ss := by
  have hrun := Simulation.solveTraced_related (Simulation.flavors_rules h)
    (Simulation.flavors_statements ss)
  exact (hrun.result.imp (fun _ _ => Simulation.eq_of_error rfl)
    fun _ _ => Simulation.eq_of_flavors_bound).eq

theorem apply_eq (h : r.Reflavored r') (ss : List Triple) : r.apply ss = r'.apply ss := by
  have hrel := Simulation.apply_related (Simulation.flavors_rules h)
    (Simulation.flavors_statements ss)
  exact (hrel.imp (fun _ _ => Simulation.eq_of_error rfl)
    fun _ _ => Simulation.eq_of_flavors_conclusions).eq

theorem events_eq (h : r.Reflavored r') (ss : List Triple) : r.events ss = r'.events ss := by
  have hrun := Simulation.applyTraced_related (Simulation.flavors_rules h)
    (Simulation.flavors_statements ss)
  rw [← List.forall₂_eq_eq_eq]
  exact hrun.events.imp fun _ _ => Simulation.eq_of_flavors_record

/-- The log is the record under the rule's label, and both are the same. -/
theorem log_eq (h : r.Reflavored r') (ss : List Triple) : r.log ss = r'.log ss := by
  have hlabel : r.label = r'.label := by rw [Rule.label, Rule.label, h.name]
  rw [Rule.log, Rule.log, h.events_eq ss, hlabel]

end Rule.Reflavored

/-- A rule with other flavors of its placeholders binds the same terms, derives
the same triples and writes the same log, whatever the statements hold. -/
theorem the_flavor_of_a_placeholder_does_not_matter {r r' : Rule} (h : r.Reflavored r')
    (ss : List Triple) :
    r'.solve ss = r.solve ss ∧ r'.apply ss = r.apply ss ∧ r'.log ss = r.log ss :=
  ⟨(h.solve_eq ss).symm, (h.apply_eq ss).symm, (h.log_eq ss).symm⟩

/-- The domain rule with one name in three flavors. -/
def mixedDomain : Rule where
  name := some "rdfs2"
  antecedents := [⟨Name.aaa.toTerm .literal, Rdfs.domain, Name.xxx.toTerm .blankNode⟩,
    ⟨Name.uuu.toTerm .blankNode, Name.aaa.toTerm .blankNode, Name.yyy.toTerm .literal⟩]
  consequents := [⟨Name.uuu.var, Rdf.type, Name.xxx.toTerm .literal⟩]
  constraints := ∅

/-- The two domain rules are not equal. Both read the use of a property that is
itself a placeholder, in the second order, and write the same two lines. -/
theorem two_domain_rules_write_one_log :
    ∃ ss : List Triple,
      ss = [⟨.iri "x:tom", Name.aaa.var, .iri "x:jerry"⟩,
        ⟨.iri "x:likes", Rdfs.domain, .iri "x:Person"⟩] ∧
      ¬ Catalog.rdfs2 ≈ mixedDomain ∧
      Catalog.rdfs2.Reflavored mixedDomain ∧
      mixedDomain.solve ss = Catalog.rdfs2.solve ss ∧
      mixedDomain.apply ss = Catalog.rdfs2.apply ss ∧
      mixedDomain.log ss = Catalog.rdfs2.log ss ∧
      Catalog.rdfs2.apply ss = .ok [⟨.iri "x:tom", Rdf.type, .iri "x:Person"⟩] ∧
      (Catalog.rdfs2.log ss).length = 2 := by
  let ss : List Triple := [⟨.iri "x:tom", Name.aaa.var, .iri "x:jerry"⟩,
    ⟨.iri "x:likes", Rdfs.domain, .iri "x:Person"⟩]
  have hne : ¬ Catalog.rdfs2 ≈ mixedDomain := by decide
  have hslot : ∀ (n : Name) (f : Flavor), Term.Reflavored n.var (n.toTerm f) :=
    fun n f => .flavor n .var f
  have h : Catalog.rdfs2.Reflavored mixedDomain := by
    refine ⟨rfl, .cons ?_ (.cons ?_ .nil), .cons ?_ .nil, rfl⟩
    · rintro (_ | _ | _)
      · exact hslot .aaa .literal
      · exact .same Rdfs.domain
      · exact hslot .xxx .blankNode
    · rintro (_ | _ | _)
      · exact hslot .uuu .blankNode
      · exact hslot .aaa .blankNode
      · exact hslot .yyy .literal
    · rintro (_ | _ | _)
      · exact .same Name.uuu.var
      · exact .same Rdf.type
      · exact hslot .xxx .literal
  obtain ⟨hsolve, happly, hlog⟩ := the_flavor_of_a_placeholder_does_not_matter h ss
  refine ⟨ss, rfl, hne, h, hsolve, happly, hlog, Rule.apply_of_declared (by decide) _, ?_⟩
  rw [Rule.log, Rule.events_of_declared (by decide)]
  rfl

end RdfEntailment
