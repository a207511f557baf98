import TexAlgebra.Proofs.Document.Reprinted
import TexAlgebra.Proofs.Printer.Signs
import TexAlgebra.Proofs.Sourced.Document
/-!
# Texts of arithmetic

A text whose only control word is `\frac`, and whose numbers have few digits, has arithmetic
expressions for its statements (`Document.isArithmetic_of_accepted`), so what is printed for them is
read back as long as no letters of factors meet and no base takes in its power. Only where a
fraction takes a group of several items for an operand the expression is not arithmetic, and there
the printed text is refused.
-/

namespace TexAlgebra

namespace Expr

variable {e : Expr}

/-- Whether an expression is no control word other than `\frac`. -/
def NamesFraction : Expr → Prop
  | command name _ _ => name = "\\frac"
  | _ => True

/-- Whatever is read where `\frac` is the only control word, no other one occurs in it. -/
theorem isMade_namesFraction {S : Token → Prop}
    (words : ∀ t, S t → t.kind = .controlWord → t.text = "\\frac") :
    IsMade S (Throughout NamesFraction) where
  number _ _ := throughout_number.2 trivial
  var _ _ all := .intro trivial all
  unary _ _ inner := throughout_unary.2 ⟨trivial, inner⟩
  binary left right _ := throughout_binary.2 ⟨trivial, left, right⟩
  group _ all := .intro trivial all
  items group := group.parts
  command mem same all := .intro (words _ mem same) all
  block _ all := .intro trivial all
  function named all _ inner _ := .intro trivial <| List.forall_mem_cons.2
    ⟨named, List.forall_mem_append.2 ⟨all, List.forall_mem_singleton.2 inner⟩⟩
  call called all := .intro trivial (List.forall_mem_cons.2 ⟨called, all⟩)
  binding bound inner _ := .intro trivial <| List.forall_mem_cons.2
    ⟨bound, List.forall_mem_singleton.2 inner⟩

/-- A term is arithmetic if no operand in it is a group and no control word is left in it. The word
of a fraction is not, as a fraction is read as an operation. -/
theorem IsTerm.isArithmetic (h : e.IsTerm)
    (plain : e.Throughout fun x => x.SparesGroups ∧ x.NamesFraction) : e.IsArithmetic := by
  induction h with
  | number legible => exact .number legible
  | var letters _ ih => exact .var letters fun e he => ih e he (plain.parts e he)
  | unary sign _ ih => exact .unary sign (ih (throughout_unary.1 plain).2)
  | binary _ _ ih_l ih_r =>
    obtain ⟨⟨spared, -⟩, plain_l, plain_r⟩ := throughout_binary.1 plain
    exact .binary (ih_l _ (mem_members_self spared.1) plain_l)
      (ih_r _ (mem_members_self spared.2) plain_r)
  | command word =>
    obtain ⟨-, rfl⟩ := plain.root
    cases word.1

end Expr

namespace Document

open Expr Lexer

variable {source : String} {e : Expr} {es : List Expr}

/-- **The statements of arithmetic are arithmetic.** If all statements of a text can be read whose
only control word is `\frac` and whose numbers have at most 28 digits, then each of them is made of
numbers, names, signs and operations, given that no operand of an operation is a group. -/
theorem isArithmetic_of_accepted
    (words : ∀ t ∈ (tokenize source).tokens, t.kind = .controlWord → t.text = "\\frac")
    (short : ∀ t ∈ (tokenize source).tokens, t.kind = .number → t.text.toList.countP isDigit ≤ 28)
    (accepted : parse source = es.map .ok) (mem : e ∈ es) (spared : e.Throughout SparesGroups) :
    e.IsArithmetic := by
  have plain : ∀ t ∈ (tokenize source).tokens, t.kind = .controlWord →
      t.text ∉ definingWords := by
    intro t mem same
    rw [words t mem same]
    decide
  have term := isTerm_of_accepted plain short accepted e mem
  have fractions :=
    (isIn_ofText fun _ => id).of_accepted (isMade_namesFraction words) accepted e mem
  exact term.isArithmetic (spared.and fractions)

/-- The text of a statement of arithmetic is read as one statement, which stands for the same number
wherever the statement stands for one, given that no operand of an operation is a group, no letters
of factors meet and no base takes in its power. -/
theorem value_parse_tex_of_accepted {inline : Bool}
    (words : ∀ t ∈ (tokenize source).tokens, t.kind = .controlWord → t.text = "\\frac")
    (short : ∀ t ∈ (tokenize source).tokens, t.kind = .number → t.text.toList.countP isDigit ≤ 28)
    (accepted : parse source = es.map .ok) (mem : e ∈ es) (spared : e.Throughout SparesGroups)
    (clear : e.IsClear ⟨inline, false⟩) :
    ∃ text e', e.tex ⟨inline, false⟩ = .ok text ∧ parse text = [.ok e'] ∧
      ∀ ρ q, e.value (.ofNames ρ) = some q → e'.value (.ofNames ρ) = some q :=
  (isArithmetic_of_accepted words short accepted mem spared).restated clear

/-- Whether a text is read as a third of a group of `x` and a half. -/
def isThirdOfItems : List Statement → Bool
  | [.ok (.binary .divide (.group [.var "x" [] _,
      .binary .divide (.number "1" _) (.number "2" _) _] _) (.number "3" _) _)] => true
  | _ => false

/-- A name and a fraction side by side in a fraction are a group of two items, for no product is
implied in front of a control word. What is printed for it is refused. -/
example : ∃ e, parse "\\frac\x7bx\\frac\x7b1\x7d\x7b2\x7d\x7d\x7b3\x7d" = [.ok e] ∧
    e.tex .display = .ok "\\frac\x7b\x7b x \\frac\x7b1\x7d\x7b2\x7d \x7d\x7d\x7b3\x7d" ∧
      (parse "\\frac\x7b\x7b x \\frac\x7b1\x7d\x7b2\x7d \x7d\x7d\x7b3\x7d").map
        Except.isOk = [false, true, false] := by
  have shape : isThirdOfItems
      (parse "\\frac\x7bx\\frac\x7b1\x7d\x7b2\x7d\x7d\x7b3\x7d") = true := by
    decide +kernel
  unfold isThirdOfItems at shape
  split at shape
  · next read => exact ⟨_, read, by rfl, by decide +kernel⟩
  · cases shape

end Document

end TexAlgebra
