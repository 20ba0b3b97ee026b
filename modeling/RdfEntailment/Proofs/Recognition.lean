-- The law of recognition. A term is a placeholder exactly when it equals the placeholder's own
-- term, so it can be found by trying all 27 of them, and what looks like one in another way is
-- a term like any other. A text is a name exactly when it is the text of that name.
import RdfEntailment.Placeholder

namespace RdfEntailment

/-! ## Reading a name -/

theorem Name.ofText?_eq_none_iff {text : String} :
    ofText? text = none ↔ ∀ n : Name, text ≠ n.text := by
  simp only [Option.eq_none_iff_forall_ne_some, ne_eq, ofText?_eq_some_iff]

theorem Name.parse_eq_ok_iff {text : String} {n : Name} : parse text = .ok n ↔ text = n.text := by
  rw [← ofText?_eq_some_iff, parse]
  cases ofText? text with
  | none => exact iff_of_false nofun nofun
  | some m => rw [Except.ok.injEq, Option.some.injEq]

theorem Name.parse_eq_error_iff {text : String} {e : UnknownName} :
    parse text = .error e ↔ (∀ n : Name, text ≠ n.text) ∧ e.text = text := by
  rw [← ofText?_eq_none_iff, parse]
  cases ofText? text with
  | none =>
    obtain ⟨text'⟩ := e
    simp [eq_comm]
  | some m => exact iff_of_false nofun fun h => nomatch h.1

/-! ## Terms that are no placeholders -/

/-- Nothing about the term makes it a placeholder: it is of another kind, or it has a tag or
another datatype, or its text is no name. What is inside a quoted triple does not count. -/
inductive Term.Ordinary : Term → Prop
  | iri (text : String) : Ordinary (.iri text)
  | var {name : String} (h : ∀ n : Name, name ≠ n.text) : Ordinary (.var name)
  | blankNode {label : String} (h : ∀ n : Name, label ≠ n.text) : Ordinary (.blankNode label)
  | plain {text : String} (h : ∀ n : Name, text ≠ n.text) :
      Ordinary (.literal text (.datatype xsdString))
  | typed (text : String) {dt : String} (h : dt ≠ xsdString) :
      Ordinary (.literal text (.datatype dt))
  | tagged (text tag : String) : Ordinary (.literal text (.language tag))
  | quoted (s p o : Term) : Ordinary (.quoted s p o)

theorem Term.Ordinary.placeholder?_eq_none {t : Term} (h : t.Ordinary) : t.placeholder? = none := by
  cases h with
  | iri | tagged | quoted => rfl
  | var h | blankNode h => rw [placeholder?, Name.ofText?_eq_none_iff.2 h, Option.map_none]
  | plain h => rw [placeholder?, if_pos rfl, Name.ofText?_eq_none_iff.2 h, Option.map_none]
  | typed _ h => rw [placeholder?, if_neg h]

theorem Term.ordinary_of_placeholder?_eq_none {t : Term} (h : t.placeholder? = none) :
    t.Ordinary := by
  cases t with
  | iri text => exact .iri text
  | quoted s p o => exact .quoted s p o
  | var name =>
    exact .var (Name.ofText?_eq_none_iff.1 (Option.map_eq_none_iff.1 h))
  | blankNode label =>
    exact .blankNode (Name.ofText?_eq_none_iff.1 (Option.map_eq_none_iff.1 h))
  | literal text type =>
    cases type with
    | language tag => exact .tagged text tag
    | datatype dt =>
      by_cases hdt : dt = xsdString
      · subst hdt
        rw [placeholder?, if_pos rfl] at h
        exact .plain (Name.ofText?_eq_none_iff.1 (Option.map_eq_none_iff.1 h))
      · exact .typed text hdt

/-! ## Placeholders -/

theorem Placeholder.mem_all (ph : Placeholder) : ph ∈ all := by
  obtain ⟨n, f⟩ := ph
  simp only [all, List.mem_flatMap, List.mem_map]
  exact ⟨f, by cases f <;> decide, n, n.mem_all, rfl⟩

theorem Term.placeholder?_eq_some_iff_equiv {t : Term} {ph : Placeholder} :
    t.placeholder? = some ph ↔ t ≈ ph.toTerm := by
  rw [Term.placeholder?_eq_some_iff, ← Placeholder.toTerm_equiv_iff]
  exact ⟨Setoid.symm, Setoid.symm⟩

theorem Term.placeholder_unique {t : Term} {ph ph' : Placeholder} (h : t ≈ ph.toTerm)
    (h' : t ≈ ph'.toTerm) : ph = ph' :=
  Option.some.inj ((placeholder?_eq_some_iff_equiv.2 h).symm.trans
    (placeholder?_eq_some_iff_equiv.2 h'))

/-- To look at the text of a term is to try all placeholders. -/
theorem Term.placeholder?_eq_find? (t : Term) :
    t.placeholder? = Placeholder.all.find? fun ph => t ≈ ph.toTerm := by
  apply Option.ext
  intro ph
  rw [placeholder?_eq_some_iff_equiv]
  constructor
  · intro h
    have hfound : (Placeholder.all.find? fun ph => t ≈ ph.toTerm).isSome :=
      List.find?_isSome.2 ⟨ph, ph.mem_all, decide_eq_true h⟩
    obtain ⟨ph', hph'⟩ := Option.isSome_iff_exists.1 hfound
    have hequal := List.find?_some hph'
    rw [hph', placeholder_unique h (of_decide_eq_true hequal)]
  · intro h
    have hequal := List.find?_some h
    exact of_decide_eq_true hequal

/-! ## The law -/

/-- A term is recognized as the placeholder whose term it equals, which is the only one, and it
is no placeholder exactly when it is an ordinary term. Equal terms are recognized alike. A text
is read as a name exactly when it is the text of that name, and then each flavor of the name is
recognized as that name. Any other text comes back with the error. -/
theorem a_term_is_recognized_by_what_it_equals (t : Term) (text : String) :
    (∀ ph, t.placeholder? = some ph ↔ t ≈ ph.toTerm) ∧
    (t.placeholder? = Placeholder.all.find? fun ph => t ≈ ph.toTerm) ∧
    (∀ ph ph' : Placeholder, t ≈ ph.toTerm → t ≈ ph'.toTerm → ph = ph') ∧
    (∀ u, t ≈ u → t.placeholder? = u.placeholder?) ∧
    (t.placeholder? = none ↔ t.Ordinary) ∧
    (∀ n, Name.parse text = .ok n ↔ text = n.text) ∧
    (∀ (n : Name) (f : Flavor),
      (n.toTerm f).placeholder? = some ⟨n, f⟩ ∧ (n.toTerm f).name? = some n) ∧
    ∀ e, Name.parse text = .error e ↔ (∀ n : Name, text ≠ n.text) ∧ e.text = text :=
  ⟨fun _ => Term.placeholder?_eq_some_iff_equiv, t.placeholder?_eq_find?,
    fun _ _ => Term.placeholder_unique, fun _ => Term.placeholder?_congr,
    ⟨Term.ordinary_of_placeholder?_eq_none, Term.Ordinary.placeholder?_eq_none⟩,
    fun _ => Name.parse_eq_ok_iff,
    fun n f => ⟨Placeholder.placeholder?_toTerm ⟨n, f⟩, n.name?_toTerm f⟩,
    fun _ => Name.parse_eq_error_iff⟩

/-- A name as a literal with no tag is a placeholder, and no other one. With a tag it is not,
whatever the case of the tag, nor is a triple that quotes two placeholders. A blank after the
name makes the text another one. -/
theorem a_tagged_name_is_an_ordinary_term :
    ∃ (ph : Placeholder) (t u v q : Term),
      ph = ⟨.bbb, .literal⟩ ∧ t = .literal "bbb" (.datatype xsdString) ∧
      u = .literal "bbb" (.language "en") ∧ v = .literal "bbb" (.language "EN") ∧
      q = .quoted Name.xxx.var Rdf.type t ∧
      t ≈ ph.toTerm ∧ t.placeholder? = some ph ∧ (∀ ph', t ≈ ph'.toTerm → ph' = ph) ∧
      u ≈ v ∧ u.placeholder? = v.placeholder? ∧ u.Ordinary ∧ u.placeholder? = none ∧
      q.Ordinary ∧ q.placeholder? = none ∧
      Name.parse "bbb" = .ok .bbb ∧ Name.parse "bbb " = .error ⟨"bbb "⟩ := by
  let ph : Placeholder := ⟨.bbb, .literal⟩
  let t : Term := .literal "bbb" (.datatype xsdString)
  let u : Term := .literal "bbb" (.language "en")
  let v : Term := .literal "bbb" (.language "EN")
  let q : Term := .quoted Name.xxx.var Rdf.type t
  have ht : t ≈ ph.toTerm := by decide
  have huv : u ≈ v := by decide
  have hblank (n : Name) : "bbb " ≠ n.text := by cases n <;> decide
  obtain ⟨hrecognized, -, hunique, -, -, hread, -⟩ := a_term_is_recognized_by_what_it_equals t "bbb"
  obtain ⟨-, -, -, hsame, hordinary, -⟩ := a_term_is_recognized_by_what_it_equals u "bbb"
  obtain ⟨-, -, -, -, hquoted, -, -, hrefused⟩ := a_term_is_recognized_by_what_it_equals q "bbb "
  exact ⟨ph, t, u, v, q, rfl, rfl, rfl, rfl, rfl, ht, (hrecognized ph).2 ht,
    fun ph' h => hunique ph' ph h ht, huv, hsame v huv, .tagged _ _, hordinary.2 (.tagged _ _),
    .quoted _ _ _, hquoted.2 (.quoted _ _ _), (hread .bbb).2 rfl, (hrefused _).2 ⟨hblank, rfl⟩⟩

end RdfEntailment
