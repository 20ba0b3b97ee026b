-- Terms that are spelled out can be read back. A text is quoted, so it does not run into what
-- follows it, and a constructor ends where its bracket closes. So of any text that begins with
-- a term, or with a list of triples, it is told which, and what comes after.
import Mathlib.Logic.Function.Basic
import RdfEntailment.Diagnostics

namespace RdfEntailment

/-! ## Texts that can be read off -/

/-- What is written for `a` can be read off a text that begins with it: no other value is written
so that the text begins with that too. -/
def LegibleAt {α : Type} (write : α → String) (a : α) : Prop :=
  ∀ ⦃b : α⦄ ⦃x y : String⦄, write a ++ x = write b ++ y → a = b ∧ x = y

def Legible {α : Type} (write : α → String) : Prop := ∀ a, LegibleAt write a

theorem Legible.injective {α : Type} {write : α → String} (h : Legible write) :
    Function.Injective write := fun a _ heq => (h a (congrArg (· ++ "") heq)).1

/-- What stands around a value does not hide it. -/
theorem Legible.enclose {α : Type} {write : α → String} (h : Legible write) (before after : String) :
    Legible fun a => before ++ write a ++ after := by
  intro a b x y heq
  simp only [String.append_assoc, String.append_right_inj] at heq
  obtain ⟨rfl, hrest⟩ := h _ heq
  exact ⟨rfl, (String.append_right_inj after).1 hrest⟩

/-- Two texts that both end before the first `c` are one if the texts go on alike. -/
theorem append_cons_inj {c : Char} {xs ys zs ws : List Char} (hx : c ∉ xs) (hy : c ∉ ys)
    (h : xs ++ c :: zs = ys ++ c :: ws) : xs = ys ∧ zs = ws := by
  induction xs generalizing ys with
  | nil =>
    cases ys with
    | nil => exact ⟨rfl, (List.cons.inj h).2⟩
    | cons y ys => exact absurd (List.cons.inj h).1 (by rintro rfl; simp at hy)
  | cons x xs ih =>
    cases ys with
    | nil => exact absurd (List.cons.inj h).1 (by rintro rfl; simp at hx)
    | cons y ys =>
      obtain ⟨rfl, htail⟩ := List.cons.inj h
      obtain ⟨rfl, hrest⟩ := ih (by simp_all) (by simp_all) htail
      exact ⟨rfl, hrest⟩

/-! ## Numbers -/

theorem mem_digits {b n : Nat} (hb : 1 < b) {c : Char} (hc : c ∈ Nat.toDigits b n) :
    ∃ d < b, c = d.digitChar := by
  induction n using Nat.strongRecOn with
  | _ n ih =>
    rw [Nat.toDigits_eq_if hb] at hc
    split at hc
    · exact ⟨n, by assumption, List.mem_singleton.1 hc⟩
    · rcases List.mem_append.1 hc with hc | hc
      · exact ih _ (Nat.div_lt_self (by omega) hb) hc
      · exact ⟨n % b, Nat.mod_lt _ (by omega), List.mem_singleton.1 hc⟩

theorem digitChar_inj : ∀ d < 16, ∀ e < 16, Nat.digitChar d = Nat.digitChar e → d = e := by decide

/-- By induction on the number: its last digit is the remainder, and the others are those of the
quotient. -/
theorem toDigits_inj {b m n : Nat} (hb : 1 < b) (hb' : b ≤ 16)
    (h : Nat.toDigits b m = Nat.toDigits b n) : m = n := by
  have hdigit {d e : Nat} (hd : d < b) (he : e < b) (h : d.digitChar = e.digitChar) : d = e :=
    digitChar_inj d (by omega) e (by omega) h
  induction m using Nat.strongRecOn generalizing n with
  | _ m ih =>
    rw [Nat.toDigits_eq_if hb, Nat.toDigits_eq_if (n := n) hb] at h
    split at h
    · split at h
      · exact hdigit (by assumption) (by assumption) (List.singleton_inj.1 h)
      · simp [List.singleton_eq_append_iff] at h
    · split at h
      · simp [List.append_eq_singleton_iff] at h
      · obtain ⟨hfront, hlast⟩ := List.append_singleton_inj.1 h
        have hdiv := ih _ (Nat.div_lt_self (by omega) hb) hfront
        have hmod := hdigit (Nat.mod_lt m (by omega)) (Nat.mod_lt n (by omega)) hlast
        rw [← Nat.div_add_mod m b, hdiv, hmod, Nat.div_add_mod]

/-! ## Characters and quoted texts -/

section Characters

variable {c d letter : Char}

theorem escapeLetter?_inj (hc : escapeLetter? c = some letter) (hd : escapeLetter? d = some letter) :
    c = d := by
  unfold escapeLetter? at hc hd
  split at hc <;> cases hc <;> split at hd <;> simp_all

theorem ne_u_of_escapeLetter? (h : escapeLetter? c = some letter) : letter ≠ 'u' := by
  unfold escapeLetter? at h
  split at h <;> cases h <;> decide

/-- The three ways to write a character between quotes. -/
inductive EscapedAs (c : Char) : List Char → Prop
  | letter {letter : Char} (h : escapeLetter? c = some letter) : EscapedAs c ['\\', letter]
  | code : EscapedAs c ('\\' :: 'u' :: '{' :: (Nat.toDigits 16 c.toNat ++ ['}']))
  | plain (h : escapeLetter? c = none) : EscapedAs c [c]

theorem escapedAs_escapeChar (c : Char) : EscapedAs c (escapeChar c) := by
  unfold escapeChar
  cases h : escapeLetter? c with
  | some letter => exact .letter h
  | none =>
    dsimp only
    split
    · exact .code
    · exact .plain h

/-- What begins with a backslash or a quote is no character that is written as it is. -/
theorem EscapedAs.ne_of_plain {a : Char} (h : escapeLetter? c = none) (ha : a = '\\' ∨ a = '"') :
    c ≠ a := by
  rintro rfl
  rcases ha with rfl | rfl <;> cases h

theorem closing_notMem_digits (n : Nat) : '}' ∉ Nat.toDigits 16 n := by
  intro h
  obtain ⟨d, hd, heq⟩ := mem_digits (by decide) h
  revert heq
  revert d
  decide

theorem escapeChar_append_inj {xs ys : List Char} (h : escapeChar c ++ xs = escapeChar d ++ ys) :
    c = d ∧ xs = ys := by
  have hc := escapedAs_escapeChar c
  have hd := escapedAs_escapeChar d
  generalize escapeChar c = cs at h hc
  generalize escapeChar d = ds at h hd
  cases hc with
  | letter hc =>
    cases hd with
    | letter hd =>
      simp only [List.cons_append, List.nil_append, List.cons.injEq, true_and] at h
      obtain ⟨rfl, rfl⟩ := h
      exact ⟨escapeLetter?_inj hc hd, rfl⟩
    | code =>
      simp only [List.cons_append, List.nil_append, List.cons.injEq, true_and] at h
      exact absurd h.1 (ne_u_of_escapeLetter? hc)
    | plain hd => exact absurd (List.cons.inj h).1.symm (EscapedAs.ne_of_plain hd (.inl rfl))
  | code =>
    cases hd with
    | letter hd =>
      simp only [List.cons_append, List.nil_append, List.cons.injEq, true_and] at h
      exact absurd h.1.symm (ne_u_of_escapeLetter? hd)
    | code =>
      simp only [List.cons_append, List.append_assoc, List.nil_append, List.cons.injEq,
        true_and] at h
      obtain ⟨hdigits, rfl⟩ :=
        append_cons_inj (closing_notMem_digits _) (closing_notMem_digits _) h
      exact ⟨Char.toNat_inj.1 (toDigits_inj (by decide) (by decide) hdigits), rfl⟩
    | plain hd => exact absurd (List.cons.inj h).1.symm (EscapedAs.ne_of_plain hd (.inl rfl))
  | plain hc =>
    cases hd with
    | letter | code => exact absurd (List.cons.inj h).1 (EscapedAs.ne_of_plain hc (.inl rfl))
    | plain => exact List.cons.inj h

/-- What is written for a character is something, and does not begin with a quote. -/
theorem exists_escapeChar (c : Char) : ∃ a as, escapeChar c = a :: as ∧ a ≠ '"' := by
  have h := escapedAs_escapeChar c
  generalize escapeChar c = cs at h
  cases h with
  | letter | code => exact ⟨_, _, rfl, by decide⟩
  | plain h => exact ⟨_, _, rfl, EscapedAs.ne_of_plain h (.inr rfl)⟩

theorem flatMap_escapeChar_inj {cs ds xs ys : List Char}
    (h : cs.flatMap escapeChar ++ '"' :: xs = ds.flatMap escapeChar ++ '"' :: ys) :
    cs = ds ∧ xs = ys := by
  induction cs generalizing ds with
  | nil =>
    cases ds with
    | nil => exact ⟨rfl, (List.cons.inj h).2⟩
    | cons d ds =>
      obtain ⟨a, as, hd, ha⟩ := exists_escapeChar d
      rw [List.flatMap_cons, hd] at h
      exact absurd (List.cons.inj h).1.symm ha
  | cons c cs ih =>
    cases ds with
    | nil =>
      obtain ⟨a, as, hc, ha⟩ := exists_escapeChar c
      rw [List.flatMap_cons, hc] at h
      exact absurd (List.cons.inj h).1 ha
    | cons d ds =>
      rw [List.flatMap_cons, List.flatMap_cons, List.append_assoc, List.append_assoc] at h
      obtain ⟨rfl, htail⟩ := escapeChar_append_inj h
      obtain ⟨rfl, hrest⟩ := ih htail
      exact ⟨rfl, hrest⟩

/-- A quoted text ends at its second quote that is not escaped. -/
theorem legible_quoteText : Legible quoteText := by
  intro s t x y h
  have hchars : s.toList.flatMap escapeChar ++ '"' :: x.toList =
      t.toList.flatMap escapeChar ++ '"' :: y.toList := by
    simpa [quoteText, ← String.toList_inj] using h
  obtain ⟨htexts, hrest⟩ := flatMap_escapeChar_inj hchars
  exact ⟨String.toList_inj.1 htexts, String.toList_inj.1 hrest⟩

end Characters

/-! ## Terms and triples -/

section Terms

variable {α β : Type}

@[simp] theorem bracketed_three (a b c : String) :
    bracketed [a, b, c] = "[" ++ a ++ ", " ++ b ++ ", " ++ c ++ "]" := by
  simp [bracketed, String.append_assoc]

@[simp] theorem applied_one (constructor a : String) :
    applied constructor [a] = constructor ++ "(" ++ a ++ ")" := by
  simp [applied]

theorem LegibleAt.bracketed_three {write : α → String} {a b c a' b' c' : α} {x y : String}
    (ha : LegibleAt write a) (hb : LegibleAt write b) (hc : LegibleAt write c)
    (h : bracketed [write a, write b, write c] ++ x =
      bracketed [write a', write b', write c'] ++ y) :
    a = a' ∧ b = b' ∧ c = c' ∧ x = y := by
  simp only [RdfEntailment.bracketed_three, String.append_assoc, String.append_right_inj] at h
  obtain ⟨rfl, h₁⟩ := ha h
  obtain ⟨rfl, h₂⟩ := hb ((String.append_right_inj _).1 h₁)
  obtain ⟨rfl, h₃⟩ := hc ((String.append_right_inj _).1 h₂)
  exact ⟨rfl, rfl, rfl, (String.append_right_inj _).1 h₃⟩

theorem Legible.applied_one {write : α → String} (h : Legible write) (constructor : String) :
    Legible fun a => applied constructor [write a] := by
  simpa using h.enclose (constructor ++ "(") ")"

/-- Of two values that stand one after the other both can be read off. -/
theorem Legible.pair {f : α → String} {g : β → String} (hf : Legible f) (hg : Legible g)
    (between : String) : Legible fun p : α × β => f p.1 ++ between ++ g p.2 := by
  rintro ⟨a, b⟩ ⟨a', b'⟩ x y h
  simp only [String.append_assoc] at h
  obtain ⟨rfl, hrest⟩ := hf _ h
  obtain ⟨rfl, rfl⟩ := hg _ ((String.append_right_inj between).1 hrest)
  exact ⟨rfl, rfl⟩

theorem Legible.applied_two {f : α → String} {g : β → String} (hf : Legible f) (hg : Legible g)
    (constructor : String) : Legible fun p : α × β => applied constructor [f p.1, g p.2] := by
  simpa [applied, String.append_assoc] using
    (hf.pair hg ", ").enclose (constructor ++ "(") ")"

theorem applied_append_inj {c d x y : String} {as bs : List String} (hc : '(' ∉ c.toList)
    (hd : '(' ∉ d.toList) (h : applied c as ++ x = applied d bs ++ y) : c = d := by
  have hchars : c.toList ++ '(' :: (", ".intercalate as ++ (")" ++ x)).toList =
      d.toList ++ '(' :: (", ".intercalate bs ++ (")" ++ y)).toList := by
    simpa [applied, ← String.toList_inj] using h
  exact String.toList_inj.1 (append_cons_inj hc hd hchars).1

theorem legible_literal : Legible fun p : String × LiteralType => p.2.diagnostic p.1 := by
  rintro ⟨text, type⟩ ⟨text', type'⟩ x y h
  cases type with
  | datatype iri =>
    cases type' with
    | datatype iri' =>
      have hread := legible_quoteText.applied_two (legible_quoteText.applied_one "IriRef") "Typed"
      obtain ⟨hsame, rfl⟩ := @hread (text, iri) (text', iri') x y h
      cases hsame
      exact ⟨rfl, rfl⟩
    | language _ => exact absurd (applied_append_inj (by decide) (by decide) h) (by decide)
  | language tag =>
    cases type' with
    | datatype _ => exact absurd (applied_append_inj (by decide) (by decide) h) (by decide)
    | language tag' =>
      have hread := legible_quoteText.applied_two (legible_quoteText.applied_one "LanguageTag")
        "LanguageString"
      obtain ⟨hsame, rfl⟩ := @hread (text, tag) (text', tag') x y h
      cases hsame
      exact ⟨rfl, rfl⟩

/-- The constructor that a term of this kind is spelled out with. -/
def TermKind.heading : TermKind → String
  | .iri => "Iri"
  | .literal => "Literal"
  | .blankNode => "BlankNode"
  | .triple => "Triple"
  | .var => "Variable"

theorem Term.exists_diagnostic (t : Term) : ∃ args, t.diagnostic = applied t.kind.heading args := by
  cases t <;> exact ⟨_, rfl⟩

theorem Term.kind_eq_of_diagnostic {a b : Term} {x y : String}
    (h : a.diagnostic ++ x = b.diagnostic ++ y) : a.kind = b.kind := by
  have hplain (k : TermKind) : '(' ∉ k.heading.toList := by cases k <;> decide
  have hinj (k k' : TermKind) (h : k.heading = k'.heading) : k = k' := by
    cases k <;> cases k' <;> first | rfl | exact absurd h (by decide)
  obtain ⟨args, ha⟩ := a.exists_diagnostic
  obtain ⟨args', hb⟩ := b.exists_diagnostic
  rw [ha, hb] at h
  exact hinj _ _ (applied_append_inj (hplain _) (hplain _) h)

/-- By induction on the first term. The other one is of its kind, so they part in an argument if
they part at all. -/
theorem Term.legible_diagnostic : Legible Term.diagnostic := by
  intro a
  induction a with
  | iri text =>
    intro b x y h
    have hkind := Term.kind_eq_of_diagnostic h
    cases b with
    | iri text' =>
      obtain ⟨rfl, rfl⟩ := (legible_quoteText.applied_one "IriRef").applied_one "Iri" _ h
      exact ⟨rfl, rfl⟩
    | _ => cases hkind
  | var name =>
    intro b x y h
    have hkind := Term.kind_eq_of_diagnostic h
    cases b with
    | var name' =>
      obtain ⟨rfl, rfl⟩ := (legible_quoteText.applied_one "VarName").applied_one "Variable" _ h
      exact ⟨rfl, rfl⟩
    | _ => cases hkind
  | blankNode label =>
    intro b x y h
    have hkind := Term.kind_eq_of_diagnostic h
    cases b with
    | blankNode label' =>
      obtain ⟨rfl, rfl⟩ := (legible_quoteText.applied_one "BnodeId").applied_one "BlankNode" _ h
      exact ⟨rfl, rfl⟩
    | _ => cases hkind
  | literal text type =>
    intro b x y h
    have hkind := Term.kind_eq_of_diagnostic h
    cases b with
    | literal text' type' =>
      have hread := legible_literal.applied_one "Literal"
      obtain ⟨hsame, rfl⟩ := @hread (text, type) (text', type') x y h
      cases hsame
      exact ⟨rfl, rfl⟩
    | _ => cases hkind
  | quoted s p o hs hp ho =>
    intro b x y h
    have hkind := Term.kind_eq_of_diagnostic h
    cases b with
    | quoted s' p' o' =>
      simp only [Term.diagnostic, applied_one, String.append_assoc, String.append_right_inj] at h
      obtain ⟨rfl, rfl, rfl, hrest⟩ := hs.bracketed_three hp ho h
      exact ⟨rfl, (String.append_right_inj _).1 hrest⟩
    | _ => cases hkind

theorem Triple.legible_diagnostic : Legible Triple.diagnostic := by
  rintro ⟨s, p, o⟩ ⟨s', p', o'⟩ x y h
  obtain ⟨rfl, rfl, rfl, hrest⟩ := (Term.legible_diagnostic s).bracketed_three
    (Term.legible_diagnostic p) (Term.legible_diagnostic o) h
  exact ⟨rfl, hrest⟩

theorem exists_intercalate_cons (between a : String) (as : List String) :
    ∃ rest, between.intercalate (a :: as) = a ++ rest := by
  cases as with
  | nil => exact ⟨"", by simp⟩
  | cons b bs => exact ⟨between ++ between.intercalate (b :: bs), by simp [String.append_assoc]⟩

/-- A list ends where a bracket stands instead of a value or a comma. -/
theorem Legible.bracketed {write : α → String} (h : Legible write)
    (hclosed : ∀ a x y, write a ++ x ≠ "]" ++ y) :
    Legible fun as : List α => bracketed (as.map write) := by
  intro as bs x y heq
  simp only [RdfEntailment.bracketed, String.append_assoc, String.append_right_inj] at heq
  induction as generalizing bs with
  | nil =>
    cases bs with
    | nil => exact ⟨rfl, by simpa using heq⟩
    | cons b bs =>
      obtain ⟨rest, hrest⟩ := exists_intercalate_cons ", " (write b) (bs.map write)
      rw [List.map_cons, hrest, String.append_assoc] at heq
      exact absurd (by simpa using heq.symm) (hclosed b _ x)
  | cons a as ih =>
    cases bs with
    | nil =>
      obtain ⟨rest, hrest⟩ := exists_intercalate_cons ", " (write a) (as.map write)
      rw [List.map_cons, hrest, String.append_assoc] at heq
      exact absurd (by simpa using heq) (hclosed a _ y)
    | cons b bs =>
      cases as with
      | nil =>
        cases bs with
        | nil =>
          obtain ⟨rfl, hrest⟩ := h a (by simpa using heq)
          exact ⟨rfl, (String.append_right_inj _).1 hrest⟩
        | cons b' bs =>
          simp only [List.map_cons, List.map_nil, String.intercalate_singleton,
            String.intercalate_cons_cons, String.append_assoc] at heq
          exact absurd (h a heq).2 (by simp [← String.toList_inj])
      | cons a' as =>
        cases bs with
        | nil =>
          simp only [List.map_cons, List.map_nil, String.intercalate_singleton,
            String.intercalate_cons_cons, String.append_assoc] at heq
          exact absurd (h a heq).2 (by simp [← String.toList_inj])
        | cons b' bs =>
          simp only [List.map_cons, String.intercalate_cons_cons, String.append_assoc] at heq ih
          obtain ⟨rfl, hrest⟩ := h a heq
          obtain ⟨hlist, rfl⟩ := @ih (b' :: bs) ((String.append_right_inj _).1 hrest)
          exact ⟨congrArg _ hlist, rfl⟩

theorem legible_triples : Legible fun ts : List Triple => bracketed (ts.map Triple.diagnostic) :=
  Triple.legible_diagnostic.bracketed fun t x y => by
    simp [Triple.diagnostic, Triple.terms, ← String.toList_inj]

end Terms

end RdfEntailment
