import TexAlgebra.Proofs.Document.Lossless
import TexAlgebra.Proofs.Printer.Accepted
import TexAlgebra.Proofs.Token.Texts
/-!
# What is printed is accepted

Every statement of a text without definitions and lists is a term (`Document.isTerm_of_accepted`),
and the text of a term is accepted again as one statement. So what is printed for such a text can be
read (`Document.parse_tex_of_accepted`), with one exception: a group with several items that a
fraction takes for an operand is printed in braces where no braces can stand. Definitions refuse
such a group for their value; fractions do not.
-/

namespace TexAlgebra

namespace Document

open Lexer Expr

/-! ## Tokens -/

/-- A point is no digit. -/
theorem not_isDigit_point : isDigit '.' = false := rfl

/-- A number with few digits, with or without a point, can be written out. -/
theorem isLegible_of_digits {whole fraction cs : List Char} (nonempty : whole ≠ [])
    (digits : ∀ c ∈ whole ++ fraction, isDigit c = true)
    (spelled : cs = whole ++ '.' :: fraction ∨ fraction = [] ∧ cs = whole)
    (few : cs.countP isDigit ≤ 28) : Numeral.IsLegible (String.ofList cs) := by
  have all := List.countP_eq_length.2 digits
  rw [List.countP_append] at all
  obtain rfl | ⟨rfl, rfl⟩ := spelled
  · rw [List.countP_append, List.countP_cons_of_neg (by simp [not_isDigit_point]), all] at few
    exact Numeral.IsShortSplit.isLegible_point ⟨nonempty, digits, few⟩
  · rw [List.countP_nil, Nat.add_zero] at all
    have short : Numeral.IsShortSplit cs [] := ⟨nonempty, digits, all ▸ few⟩
    have whole : Numeral.splitChars cs [] = cs := by
      rw [Numeral.splitChars, if_pos rfl, List.append_nil]
    exact whole ▸ short.isLegible

/-- The control words that begin definitions and lists. -/
def definingWords : List String := ["\\let", "\\func", "\\begin"]

/-- A control word that defines nothing is no reserved one, but for fractions and ends. -/
theorem isReserved_eq_false {name : String} (plain : name ∉ definingWords)
    (other : name ∉ ["\\frac", "\\end"]) : Grammar.isReserved name = false := by
  simp only [definingWords, List.mem_cons, List.not_mem_nil, or_false, not_or] at plain other
  simp [Grammar.isReserved, plain, other]

/-- The tokens of a text that begin neither definitions nor lists are ordinary, if those that are
numbers have few digits. -/
theorem isOrdinary_of_mem_tokenize {source : String} {t : Token}
    (mem : t ∈ (tokenize source).tokens) (plain : t.kind = .controlWord → t.text ∉ definingWords)
    (short : t.kind = .number → t.text.toList.countP isDigit ≤ 28) : t.IsOrdinary := by
  refine forall_mem_scan (P := fun t => (t.kind = .controlWord → t.text ∉ definingWords) →
    (t.kind = .number → t.text.toList.countP isDigit ≤ 28) → t.IsOrdinary)
    (fun p _ _ => Token.isOrdinary_ending p) ?_ _ _ t mem plain short
  intro p c cs kind munched plain short
  rw [String.toList_ofList] at short
  refine ⟨?_, ?_, ?_⟩
  · rintro rfl
    refine ⟨?_, ?_⟩
    · rw [String.toList_ofList]
      exact List.cons_ne_nil _ _
    · rw [String.toList_ofList]
      exact isLetter_of_munch munched
  · rintro rfl
    obtain ⟨whole, fraction, nonempty, digits, spelled⟩ := exists_digits_of_munch munched
    exact isLegible_of_digits nonempty digits spelled (short rfl)
  · rintro rfl
    obtain ⟨letters, spelled, nonempty, all⟩ := isControlWord_of_munch munched
    refine or_iff_not_imp_left.2 fun other =>
      ⟨isReserved_eq_false (plain rfl) other, letters, ?_, nonempty, all⟩
    rw [String.toList_ofList, spelled]

/-! ## Statements -/

variable {known : Expr → Bool} {d rest : Document} {e : Expr} {es : List Expr}

/-- A statement of ordinary tokens is a term, and the tokens behind it are ordinary. -/
theorem isTerm_of_next? (ordinary : d.cursor.IsOrdinary ⟨d.ending, known⟩)
    (h : d.next? known = some (.ok e, rest)) :
    e.IsTerm ∧ rest.cursor.IsOrdinary ⟨rest.ending, known⟩ := by
  simp only [next?] at h
  split at h
  · cases h
  split at h
  · next e' after reading =>
    cases h
    exact Parser.buildsTerms_expression _ _ _ _
      (ordinary.of_sublist (List.dropWhile_sublist _)) reading
  · cases h
  · cases h

/-- The statements of ordinary tokens are terms, if all of them can be read. -/
theorem isTerm_of_statements (ordinary : d.cursor.IsOrdinary ⟨d.ending, known⟩)
    (accepted : d.statements known = es.map .ok) : ∀ e ∈ es, e.IsTerm := by
  induction es generalizing d with
  | nil => exact fun _ mem => (List.not_mem_nil mem).elim
  | cons e es ih =>
    obtain ⟨rest, next, later⟩ := exists_next?_of_accepted accepted
    obtain ⟨term, ordinary'⟩ := isTerm_of_next? ordinary next
    exact List.forall_mem_cons.2 ⟨term, ih ordinary' later⟩

/-- The statements of a text without definitions and lists whose numbers have few digits are terms,
if all of them can be read. -/
theorem isTerm_of_accepted {source : String}
    (plain : ∀ t ∈ (tokenize source).tokens, t.kind = .controlWord → t.text ∉ definingWords)
    (short : ∀ t ∈ (tokenize source).tokens, t.kind = .number → t.text.toList.countP isDigit ≤ 28)
    (accepted : parse source = es.map .ok) : ∀ e ∈ es, e.IsTerm := by
  refine isTerm_of_statements (d := ofText source) ⟨fun _ => rfl, rfl, fun t ht => ?_⟩ accepted
  have mem := (List.takeWhile_sublist _).mem ht
  exact isOrdinary_of_mem_tokenize mem (plain t mem) (short t mem)

/-- **What is printed for an accepted text is accepted.** If all statements of a text without
definitions and lists can be read and its numbers have at most 28 digits, then the text of each of
them, with fractions or with slashes, is read as one statement, given that no letters of factors
meet and that no operand of an operation is a group. -/
theorem parse_tex_of_accepted {source : String} {inline : Bool}
    (plain : ∀ t ∈ (tokenize source).tokens, t.text ∉ definingWords)
    (short : ∀ t ∈ (tokenize source).tokens, t.kind = .number → t.text.toList.countP isDigit ≤ 28)
    (accepted : parse source = es.map .ok) (mem : e ∈ es)
    (letters : e.Throughout (KeepsLettersApart ⟨inline, false⟩))
    (spared : e.Throughout SparesGroups) :
    ∃ text e', e.tex ⟨inline, false⟩ = .ok text ∧ parse text = [.ok e'] := by
  have term := isTerm_of_accepted (fun t mem _ => plain t mem) short accepted e mem
  obtain ⟨text, written, chain⟩ := term.accepted (letters.and spared)
  obtain ⟨r, gs, writes⟩ := chain.exists_writes
  obtain ⟨e', read, -⟩ := writes.parse
  exact ⟨text, e', written, read⟩

/-- Whether a text is read as twice a third of `x_1`. -/
def isTwiceThird : List Statement → Bool
  | [.ok (.binary .juxtaposed (.number "2." _) (.binary .divide
      (.var "x" [.number "1" _] _) (.number "3" _) _) _)] => true
  | _ => false

/-- A fraction as a factor: its text has no point behind the number any more. -/
theorem parse_tex_of_accepted_fraction :
    ∃ e e', parse "2.(\\frac\x7bx_1\x7d\x7b3\x7d)" = [.ok e] ∧
      e.tex .oneLine = .ok "2(x_\x7b1\x7d / 3)" ∧ parse "2(x_\x7b1\x7d / 3)" = [.ok e'] := by
  have shape : isTwiceThird (parse "2.(\\frac\x7bx_1\x7d\x7b3\x7d)") = true := by
    decide +kernel
  unfold isTwiceThird at shape
  split at shape
  · next t u v w y z read =>
    have number : ∀ {P : Expr → Prop} {text : String} {t : Option Token}, P (.number text t) →
        (Expr.number text t).Throughout P := throughout_number.2
    have x : ∀ {P : Expr → Prop}, P (.var "x" [.number "1" u] v) → P (.number "1" u) →
        (Expr.var "x" [.number "1" u] v).Throughout P :=
      fun root part => .intro root (List.forall_mem_singleton.2 (number part))
    have apart : lettersMeet .oneLine (.number "2." t)
        (.binary .divide (.var "x" [.number "1" u] v) (.number "3" w) y) = false := by
      rw [lettersMeet, show (Expr.number "2." t).tex .oneLine = .ok "2" by rfl]
      split
      · next left _ =>
        cases left
        show ("2".toList.getLast?.any isLetter && _) = false
        rfl
      · rfl
    obtain ⟨text, e', written, again⟩ := @parse_tex_of_accepted _ [_] _ true
      (by decide +kernel) (by decide +kernel) read (List.mem_singleton_self _)
      (throughout_binary.2 ⟨apart, number trivial,
        throughout_binary.2 ⟨trivial, x trivial trivial, number trivial⟩⟩)
      (throughout_binary.2 ⟨⟨rfl, rfl⟩, number trivial,
        throughout_binary.2 ⟨⟨rfl, rfl⟩, x trivial trivial, number trivial⟩⟩)
    have spelled : text = "2(x_\x7b1\x7d / 3)" := Except.ok.inj (written.symm.trans (by rfl))
    exact ⟨_, e', read, spelled ▸ written, spelled ▸ again⟩
  · cases shape

/-- Whether a text is read as a third of a group of two items. -/
def isThirdOfGroup : List Statement → Bool
  | [.ok (.binary .divide (.group [.number "2" _, .command "\\pi" [] _] _) (.number "3" _) _)] =>
    true
  | _ => false

/-- A fraction of a group with two items is printed as a text that is refused. -/
theorem refused_fraction_of_group : ∃ e, parse "\\frac\x7b2\\pi\x7d\x7b3\x7d" = [.ok e] ∧
    e.Throughout (KeepsLettersApart .display) ∧
      e.tex .display = .ok "\\frac\x7b\x7b 2 \\pi \x7d\x7d\x7b3\x7d" ∧
        (parse "\\frac\x7b\x7b 2 \\pi \x7d\x7d\x7b3\x7d").map Except.isOk =
          [false, true, false] := by
  have shape : isThirdOfGroup (parse "\\frac\x7b2\\pi\x7d\x7b3\x7d") = true := by
    decide +kernel
  unfold isThirdOfGroup at shape
  split at shape
  · next t u v w y read =>
    refine ⟨_, read, ?_, by rfl, by decide +kernel⟩
    have pi : (Expr.command "\\pi" [] u).Throughout (KeepsLettersApart .display) :=
      .intro trivial fun _ mem => (List.not_mem_nil mem).elim
    have numerator : (Expr.group [.number "2" t, .command "\\pi" [] u] v).Throughout
        (KeepsLettersApart .display) :=
      .intro trivial (List.forall_mem_cons.2 ⟨throughout_number.2 trivial,
        List.forall_mem_singleton.2 pi⟩)
    exact throughout_binary.2 ⟨trivial, numerator, throughout_number.2 trivial⟩
  · cases shape

end Document

end TexAlgebra
