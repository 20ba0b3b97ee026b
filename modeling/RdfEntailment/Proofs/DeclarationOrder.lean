-- The law of the declaration order. Ranking puts the more specific antecedent first, so
-- the order in which two antecedents are declared counts only between antecedents that
-- are equally general. To turn them round is then to turn the statements round: the same
-- pairing comes first, and it is only read from its other end.
import RdfEntailment.Proofs.Congruence
import RdfEntailment.Proofs.Join

namespace RdfEntailment

def Rule.reversed (r : Rule) : Rule := { r with antecedents := r.antecedents.reverse }

variable {r r' : Rule} {p q s₁ s₂ : Triple}

/-! ## Ranking -/

theorem Rule.ranked_reversed_of_ne (hr : r.antecedents = [p, q])
    (hne : p.generality ≠ q.generality) : r.reversed.ranked = r.ranked := by
  refine Rule.ranked_eq_of_perm (List.reverse_perm r.antecedents) fun a ha b hb h => ?_
  simp only [Rule.reversed, hr, List.mem_reverse, List.mem_pair] at ha hb
  rcases ha with rfl | rfl <;> rcases hb with rfl | rfl
  · rfl
  · exact absurd h hne
  · exact absurd h.symm hne
  · rfl

theorem Rule.ranked_of_tie (hr : r.antecedents = [p, q]) (htie : p.generality = q.generality) :
    r.ranked = [p, q] ∧ r.reversed.ranked = [q, p] := by
  have hrev : r.reversed.antecedents = [q, p] := by simp [Rule.reversed, hr]
  rw [← hr, ← hrev]
  exact ⟨Rule.ranked_of_generality (n := q.generality) (by simp [hr, htie]),
    Rule.ranked_of_generality (n := q.generality) (by simp [hrev, htie])⟩

/-! ## Matching -/

/-- Ranked the other way round, the antecedents match the statements the other way
round: the pairing that comes first is the same, and so is the second one. -/
theorem Rule.solve_swap_ranked (hr : r.ranked = [p, q]) (hr' : r'.ranked = [q, p])
    (h₁ : s₁.Ground) (h₂ : s₂.Ground) :
    Corresponds (fun e e' => e = .noOrdering ∧ e' = .noOrdering) (· ≈ ·)
      (r'.solve [s₁, s₂]) (r.solve [s₂, s₁]) := by
  rw [Rule.solve_two (Rule.length_of_ranked_eq_two hr) hr,
    Rule.solve_two (Rule.length_of_ranked_eq_two hr') hr']
  have hfirst : Corresponds (fun _ _ => True) (· ≈ ·) (q.unifyPair p s₁ s₂)
      (p.unifyPair q s₂ s₁) := Triple.unifyPair_swap h₁ h₂
  have hsecond : Corresponds (fun _ _ => True) (· ≈ ·) (q.unifyPair p s₂ s₁)
      (p.unifyPair q s₁ s₂) := Triple.unifyPair_swap h₂ h₁
  generalize q.unifyPair p s₁ s₂ = x at hfirst
  generalize p.unifyPair q s₂ s₁ = y at hfirst
  generalize q.unifyPair p s₂ s₁ = z at hsecond
  generalize p.unifyPair q s₁ s₂ = w at hsecond
  cases hfirst with
  | ok hb => exact .ok hb
  | error _ =>
    cases hsecond with
    | ok hb => exact .ok hb
    | error _ => exact .error ⟨rfl, rfl⟩

/-! ## The law -/

/-- Turned round, two antecedents that differ in generality make the same rule: it
binds, derives and fails as before, on all statements. Two that are equally general make
a rule that takes ground statements in the other order: it binds the same names to equal
terms and derives equal triples one by one, or it fails with the same error. -/
theorem declaration_order_breaks_ties_only (hr : r.antecedents = [p, q]) :
    (p.generality ≠ q.generality → ∀ ss,
      r.reversed.solve ss = r.solve ss ∧ r.reversed.apply ss = r.apply ss) ∧
    (p.generality = q.generality → ∀ s₁ s₂ : Triple, s₁.Ground → s₂.Ground →
      Corresponds (fun e e' => e = .noOrdering ∧ e' = .noOrdering) (· ≈ ·)
        (r.reversed.solve [s₁, s₂]) (r.solve [s₂, s₁]) ∧
      Corresponds (· = ·) (List.Forall₂ (· ≈ ·))
        (r.reversed.apply [s₁, s₂]) (r.apply [s₂, s₁])) := by
  constructor
  · intro hne ss
    have hsolve := Rule.solve_of_ranked_eq (Rule.ranked_reversed_of_ne hr hne) ss
    exact ⟨hsolve, Rule.apply_of_solve_eq rfl hsolve⟩
  · intro htie s₁ s₂ h₁ h₂
    obtain ⟨hranked, hreversed⟩ := Rule.ranked_of_tie hr htie
    have hsolve := Rule.solve_swap_ranked hranked hreversed h₁ h₂
    refine ⟨hsolve, ?_⟩
    rw [Rule.apply_eq_bind, Rule.apply_eq_bind]
    have hsame : Corresponds (· = ·) (· ≈ ·) (r.reversed.solve [s₁, s₂]) (r.solve [s₂, s₁]) :=
      hsolve.imp (fun _ _ he => he.1.trans he.2.symm) fun _ _ hb => hb
    exact hsame.bind fun _ _ hb => Triple.instantiateAll_congr r.consequents hb

/-- The domain rule is one rule in both orders, also on a statement that is still
templated. The chain of subclasses is not: in its two orders it reads a cycle from its two
ends, and spells the class in the middle as it is met first. -/
theorem a_chain_of_subclasses_is_read_from_both_ends :
    ∃ domain use chain link p q s₁ s₂ : Triple,
      Catalog.rdfs2.antecedents = [domain, use] ∧ domain.generality ≠ use.generality ∧
      Catalog.rdfs11.antecedents = [chain, link] ∧ chain.generality = link.generality ∧
      p = ⟨.iri "x:likes", Rdfs.domain, Name.uuu.toTerm .literal⟩ ∧
      q = ⟨.iri "x:tom", .iri "x:likes", .iri "x:jerry"⟩ ∧
      s₁ = ⟨.literal "cat" (.language "en"), Rdfs.subClassOf, .iri "x:Pet"⟩ ∧
      s₂ = ⟨.iri "x:Pet", Rdfs.subClassOf, .literal "cat" (.language "EN")⟩ ∧
      s₁.Ground ∧ s₂.Ground ∧
      Catalog.rdfs2.reversed.solve [p, q] = Catalog.rdfs2.solve [p, q] ∧
      Catalog.rdfs2.reversed.apply [p, q] = Catalog.rdfs2.apply [p, q] ∧
      Catalog.rdfs11.apply [s₁, s₂] ≠ Catalog.rdfs11.apply [s₂, s₁] ∧
      Catalog.rdfs11.reversed.solve [s₁, s₂] ≠ Catalog.rdfs11.solve [s₂, s₁] ∧
      Corresponds (fun e e' => e = .noOrdering ∧ e' = .noOrdering) (· ≈ ·)
        (Catalog.rdfs11.reversed.solve [s₁, s₂]) (Catalog.rdfs11.solve [s₂, s₁]) ∧
      Corresponds (· = ·) (List.Forall₂ (· ≈ ·))
        (Catalog.rdfs11.reversed.apply [s₁, s₂]) (Catalog.rdfs11.apply [s₂, s₁]) := by
  let s₁ : Triple := ⟨.literal "cat" (.language "en"), Rdfs.subClassOf, .iri "x:Pet"⟩
  let s₂ : Triple := ⟨.iri "x:Pet", Rdfs.subClassOf, .literal "cat" (.language "EN")⟩
  have h₁ : s₁.Ground := by decide
  have h₂ : s₂.Ground := by decide
  have hne : Triple.generality ⟨Name.aaa.var, Rdfs.domain, Name.xxx.var⟩ ≠
      Triple.generality ⟨Name.uuu.var, Name.aaa.var, Name.yyy.var⟩ := by decide
  have hsame := (declaration_order_breaks_ties_only (r := Catalog.rdfs2) rfl).1 hne
    [⟨.iri "x:likes", Rdfs.domain, Name.uuu.toTerm .literal⟩,
      ⟨.iri "x:tom", .iri "x:likes", .iri "x:jerry"⟩]
  have hturned := (declaration_order_breaks_ties_only (r := Catalog.rdfs11) rfl).2 rfl s₁ s₂ h₁ h₂
  have happly : Catalog.rdfs11.apply [s₁, s₂] ≠ Catalog.rdfs11.apply [s₂, s₁] := by
    rw [Rule.apply_of_declared (by decide), Rule.apply_of_declared (by decide)]
    decide
  have hsolve : Catalog.rdfs11.reversed.solve [s₁, s₂] ≠ Catalog.rdfs11.solve [s₂, s₁] := by
    rw [Rule.solve_of_declared (by decide), Rule.solve_of_declared (by decide)]
    decide
  exact ⟨_, _, _, _, _, _, s₁, s₂, rfl, hne, rfl, rfl, rfl, rfl, rfl, rfl, h₁, h₂, hsame.1, hsame.2,
    happly, hsolve, hturned.1, hturned.2⟩

end RdfEntailment
