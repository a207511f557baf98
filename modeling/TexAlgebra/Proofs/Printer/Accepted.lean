import TexAlgebra.Proofs.Expansion.Parts
import TexAlgebra.Proofs.Grammar.Chains
import TexAlgebra.Proofs.Grammar.Terms
import TexAlgebra.Proofs.Printer.RoundTrip
/-!
# The texts of terms

The text of a term is a chain of operands (`Expr.IsTerm.accepted`), given that no letters of factors
meet and that no operand of an operation is a group. So it is read as one expression again. It need
not be read as the term itself: parentheses that a sign or a regrouping would ask for may be
missing, and two items of a group that are written side by side may be read as a product.

A group with several items stands as an operand in a fraction like `\frac{2\pi}{3}`. It is written
in braces of its own there, and braces are no operand.
-/

namespace TexAlgebra

open Lexer Grammar Printer

namespace Expr

/-! ## What is asked of the nodes -/

/-- Whether the node is no product by juxtaposition whose factors are written with a letter right
before a letter. -/
def KeepsLettersApart (style : Style) : Expr → Prop
  | binary .juxtaposed lhs rhs _ => lettersMeet style lhs rhs = false
  | _ => True

/-- Whether the node is no operation on a group. -/
def SparesGroups : Expr → Prop
  | binary _ lhs rhs _ => lhs.isGroup = false ∧ rhs.isGroup = false
  | _ => True

end Expr

namespace Printer

/-! ## Accepted texts -/

/-- Whether a text is cut into a chain of operands. -/
def IsAccepted (text : String) : Prop := ∃ gs, Lexes text gs ∧ IsChain gs

variable {a b text piece : String} {gs hs : List Glyph} {glue : List Glyph} {op : Operator}
  {e : Expr}

/-- An accepted text is read as some expression. -/
theorem IsAccepted.exists_writes (h : IsAccepted text) : ∃ e gs, Writes e 0 0 text gs := by
  obtain ⟨gs, lexes, chain⟩ := h
  obtain ⟨e, reads⟩ := chain.exists_reads
  exact ⟨e, gs, lexes, reads⟩

/-- What a text starts with opens an operand, unless it is a sign. -/
theorem Starts.opensUnit {c : Char} {kind : TokenKind} (h : Starts c kind)
    (unsigned : c ∉ ['+', '-']) : Grammar.opensUnit kind = true := by
  cases h with
  | plus | minus => exact absurd (by simp) unsigned
  | _ => rfl

/-- No letter and no digit is a sign. -/
theorem unsigned_of_isLetter_or_isDigit {c : Char} (h : isLetter c = true ∨ isDigit c = true) :
    c ∉ ['+', '-'] := by
  intro sign
  fin_cases sign <;> exact absurd h (by decide)

/-- A text that holds together by itself is accepted, unless it starts with a sign. -/
theorem isAccepted_of_writes (h : Writes e tightest tightest text gs)
    (unsigned : ∀ c ∈ text.toList.head?, c ∉ ['+', '-']) : IsAccepted text := by
  obtain ⟨c, g, first, first', starts⟩ := h.starts
  exact ⟨gs, h.toLexes, .unit ⟨⟨e, h.reads⟩, g, first', starts.opensUnit (unsigned c first)⟩⟩

/-- An accepted text is accepted in parentheses. -/
theorem IsAccepted.parenthesized (h : IsAccepted text) : IsAccepted (parenthesized text) := by
  obtain ⟨e, gs, writes⟩ := h.exists_writes
  refine isAccepted_of_writes (writes.parenthesized _ _) fun c first => ?_
  rw [head?_parenthesized] at first
  cases first
  decide

/-- An accepted text is accepted with or without parentheses. -/
theorem IsAccepted.wrapped (h : IsAccepted text) (wrap : Bool) :
    IsAccepted (wrapped wrap text) := by
  cases wrap with
  | true => exact h.parenthesized
  | false => exact h

/-- An accepted text is accepted behind a sign. -/
theorem IsAccepted.signed (h : IsAccepted text) (sign : op.isSign = true) :
    IsAccepted (op.sign ++ text) := by
  obtain ⟨gs, lexes, chain⟩ := h
  exact ⟨_, lexes.signed sign, .sign sign chain⟩

/-- Two accepted texts are accepted with an operator between them, or with nothing where nothing
stands for the product. -/
theorem IsAccepted.operation (left : IsAccepted a) (right : IsAccepted b)
    (stands : Stands op a piece b glue) : IsAccepted (a ++ (piece ++ b)) := by
  obtain ⟨gs, lexes, chain⟩ := left
  obtain ⟨hs, lexes', chain'⟩ := right
  exact ⟨_, stands.lexes lexes lexes', chain.append (stands.glues lexes') chain'⟩

/-- Two accepted texts are accepted as a fraction. -/
theorem IsAccepted.fraction (left : IsAccepted a) (right : IsAccepted b) :
    IsAccepted ("\\frac" ++ braced a ++ braced b) := by
  obtain ⟨l, gs, writes⟩ := left.exists_writes
  obtain ⟨r, hs, writes'⟩ := right.exists_writes
  obtain ⟨fs, fraction⟩ := writes.fraction writes' tightest tightest none
  refine isAccepted_of_writes fraction fun c first => ?_
  rw [String.toList_append, String.toList_append] at first
  cases first
  decide

/-! ## Numbers and names -/

/-- The text of a number is that of its digits, with a sign before it or none. -/
theorem exists_accepted_number {number : String} (legible : Numeral.IsLegible number) :
    ∃ text, Numeral.render number = .ok text ∧ IsAccepted text := by
  obtain ⟨q, text, d, -, rendered, shows⟩ := legible.exists_shows
  obtain ⟨whole, fraction, spelled, nonempty, digits, shown⟩ := shows.exists_digits
  have unsigned : IsAccepted d.magnitude.plain := by
    refine isAccepted_of_writes (writes_number spelled nonempty digits _ _ none) fun c first => ?_
    obtain ⟨c', cs, rfl⟩ := List.exists_cons_of_ne_nil nonempty
    rw [spelled] at first
    cases first
    exact unsigned_of_isLetter_or_isDigit (.inr (digits _ (by simp)))
  refine ⟨text, rendered, ?_⟩
  rw [shown]
  split
  · have minus : Operator.minus.isSign = true := rfl
    exact unsigned.signed minus
  · exact unsigned

/-- Texts that are accepted, with commas between them, are read as subscripts. -/
theorem exists_writesItems_of_accepted {texts : List String} (nonempty : texts ≠ [])
    (accepted : ∀ t ∈ texts, IsAccepted t) : ∃ items gs, WritesItems items texts gs := by
  induction texts with
  | nil => exact absurd rfl nonempty
  | cons t ts ih =>
    obtain ⟨first, later⟩ := List.forall_mem_cons.1 accepted
    obtain ⟨e, gs, writes⟩ := first.exists_writes
    cases ts with
    | nil => exact ⟨[e], gs, writes.writesItems⟩
    | cons t' ts =>
      obtain ⟨items, hs, writes'⟩ := ih (List.cons_ne_nil t' ts) later
      exact ⟨e :: items, _, writes'.cons writes⟩

/-- A name is accepted. -/
theorem isAccepted_name {name : String} (letters : Expr.IsName name) : IsAccepted name := by
  refine isAccepted_of_writes (writes_name letters.1 letters.2 _ _ none) fun c first => ?_
  exact unsigned_of_isLetter_or_isDigit (.inl (letters.2 c (List.mem_of_head? first)))

/-- A name is accepted with accepted texts as its subscripts. -/
theorem isAccepted_subscripted {name : String} {texts : List String} (letters : Expr.IsName name)
    (nonempty : texts ≠ []) (accepted : ∀ t ∈ texts, IsAccepted t) :
    IsAccepted (name ++ "_" ++ braced (String.intercalate "," texts)) := by
  obtain ⟨items, gs, writes⟩ := exists_writesItems_of_accepted nonempty accepted
  obtain ⟨hs, subscripted⟩ := writes_subscripted letters.1 letters.2 writes tightest tightest none
  refine isAccepted_of_writes subscripted fun c first => ?_
  rw [String.toList_append, String.toList_append, List.append_assoc,
    List.head?_append_of_ne_nil _ letters.1] at first
  exact unsigned_of_isLetter_or_isDigit (.inl (letters.2 c (List.mem_of_head? first)))

/-! ## Groups -/

/-- Accepted texts with blanks between them are cut into a series of chains. -/
theorem exists_series {texts : List String} (nonempty : texts ≠ [])
    (accepted : ∀ t ∈ texts, IsAccepted t) :
    ∃ gs, Cuts (String.intercalate " " texts) gs ∧ IsSeries gs ∧
      (String.intercalate " " texts).toList ≠ [] := by
  induction texts with
  | nil => exact absurd rfl nonempty
  | cons t ts ih =>
    obtain ⟨⟨gs, lexes, chain⟩, later⟩ := List.forall_mem_cons.1 accepted
    cases ts with
    | nil =>
      rw [String.intercalate_singleton]
      exact ⟨gs, lexes.cuts, .chain chain, lexes.nonempty⟩
    | cons t' ts =>
      obtain ⟨hs, cuts, series, present⟩ := ih (List.cons_ne_nil t' ts) later
      have written : String.intercalate " " (t :: t' :: ts) =
          t ++ (" " ++ String.intercalate " " (t' :: ts)) := by
        rw [String.intercalate_cons_of_ne_nil (List.cons_ne_nil t' ts), String.append_assoc]
      rw [written]
      refine ⟨gs ++ hs, lexes.cuts.append (cuts.blank_append present) ?_ ?_,
        series.prepend chain, ?_⟩
      · simp
      · exact apart_of_head? (b := ' ') (by simp) rfl _
      · simp

/-- A group of accepted texts in front of other groups. -/
theorem WritesGroups.cons_series {groups : List Expr} {texts inner : List String}
    (accepted : ∀ t ∈ inner, IsAccepted t) (later : WritesGroups groups texts hs) :
    ∃ items gs, WritesGroups (.group items none :: groups)
      (braced (" " ++ String.intercalate " " inner ++ " ") :: texts) gs := by
  cases inner with
  | nil => exact ⟨[], _, later.cons_blank none⟩
  | cons t ts =>
    obtain ⟨gs, cuts, series, present⟩ := exists_series (List.cons_ne_nil t ts) accepted
    obtain ⟨items, reads⟩ := series.exists_readsList
    have spaced : Cuts (" " ++ String.intercalate " " (t :: ts) ++ " ") gs :=
      (cuts.blank_append present).append_blank
    exact ⟨items, _, WritesGroups.cons (cuts_braced spaced (by simp)) reads later none⟩

end Printer

/-! ## Whole terms -/

namespace Expr

variable {inline : Bool} {style : Style} {e : Expr} {es : List Expr}

/-- Expressions of which each has a text with some property have texts that all have it. -/
theorem exists_texAll {P : String → Prop}
    (all : ∀ e ∈ es, ∃ text, e.tex style = .ok text ∧ P text) :
    ∃ texts, texAll style es = .ok texts ∧ texts.length = es.length ∧ ∀ t ∈ texts, P t := by
  induction es with
  | nil => exact ⟨[], rfl, rfl, by simp⟩
  | cons e es ih =>
    obtain ⟨first, later⟩ := List.forall_mem_cons.1 all
    obtain ⟨text, written, holds⟩ := first
    obtain ⟨texts, written', same, holds'⟩ := ih later
    refine ⟨text :: texts, by rw [texAll, written, written']; rfl, ?_, ?_⟩
    · rw [List.length_cons, List.length_cons, same]
    · exact List.forall_mem_cons.2 ⟨holds, holds'⟩

/-- Groups of items whose texts are accepted. -/
theorem exists_writesGroups {groups : List Expr} (grouped : ∀ g ∈ groups, g.isGroup = true)
    (all : ∀ g ∈ groups, ∀ e ∈ g.members, ∃ text, e.tex style = .ok text ∧ IsAccepted text) :
    ∃ texts rs gs, texAll style groups = .ok texts ∧ WritesGroups rs texts gs := by
  induction groups with
  | nil => exact ⟨[], [], [], rfl, writesGroups_nil⟩
  | cons g groups ih =>
    obtain ⟨group, grouped⟩ := List.forall_mem_cons.1 grouped
    obtain ⟨first, later⟩ := List.forall_mem_cons.1 all
    obtain ⟨texts, rs, hs, written, writes⟩ := ih grouped later
    cases g with
    | group items token =>
      have each : ∀ e ∈ items, ∃ text, e.tex style = .ok text ∧ IsAccepted text := first
      obtain ⟨inner, written', -, accepted⟩ := exists_texAll each
      obtain ⟨items', gs, writes'⟩ := writes.cons_series accepted
      refine ⟨_, _, gs, ?_, writes'⟩
      show ((texAll style items >>= _) >>= fun _ => texAll style groups >>= _) = _
      rw [written', written]
      rfl
    | _ => cases group

/-- A variable whose subscripts have accepted texts. -/
theorem exists_accepted_var {name : String} {token : Option Token} (letters : IsName name)
    (all : ∀ e ∈ es, ∃ text, e.tex ⟨inline, false⟩ = .ok text ∧ IsAccepted text) :
    ∃ text, (var name es token).tex ⟨inline, false⟩ = .ok text ∧ IsAccepted text := by
  obtain ⟨texts, written, same, accepted⟩ := exists_texAll all
  cases es with
  | nil => exact ⟨name, rfl, isAccepted_name letters⟩
  | cons e es =>
    have present : texts ≠ [] := List.ne_nil_of_length_pos (by rw [same]; exact Nat.succ_pos _)
    refine ⟨name ++ "_" ++ braced (String.intercalate "," texts), ?_,
      isAccepted_subscripted letters present accepted⟩
    show (texAll ⟨inline, false⟩ (e :: es) >>= _) = _
    rw [written]
    rfl

/-- An operation whose operands have accepted texts, with a fraction or with the operator between
them. -/
theorem exists_accepted_binary {op : Operator} {lhs rhs : Expr} {token : Option Token}
    (left : ∃ a, lhs.tex ⟨inline, false⟩ = .ok a ∧ IsAccepted a)
    (right : ∃ b, rhs.tex ⟨inline, false⟩ = .ok b ∧ IsAccepted b)
    (letters : (binary op lhs rhs token).KeepsLettersApart ⟨inline, false⟩) :
    ∃ text, (binary op lhs rhs token).tex ⟨inline, false⟩ = .ok text ∧ IsAccepted text := by
  obtain ⟨a, tex_l, left⟩ := left
  obtain ⟨b, tex_r, right⟩ := right
  have written : (binary op lhs rhs token).tex ⟨inline, false⟩ =
      operation ⟨inline, false⟩ op lhs rhs a b := by
    rw [Expr.tex, tex_l, tex_r]
    rfl
  have apart : op = .juxtaposed → lettersMeet ⟨inline, false⟩ lhs rhs = false := by
    rintro rfl
    exact letters
  by_cases flat : op = .divide → inline = true
  · obtain ⟨_, lexes, -⟩ := id left
    obtain ⟨_, lexes', -⟩ := id right
    obtain ⟨w, w', piece, glue, joined, -, -, stands⟩ :=
      exists_operation lexes lexes' tex_l tex_r apart flat
    exact ⟨_, written.trans joined, (left.wrapped w).operation (right.wrapped w') stands⟩
  · obtain ⟨rfl, displayed⟩ := Classical.not_imp.1 flat
    obtain rfl := Bool.eq_false_iff.2 displayed
    exact ⟨_, written, left.fraction right⟩

/-- A control word with groups of items whose texts are accepted. -/
theorem exists_accepted_command {name : String} {arguments : List Expr} {token : Option Token}
    (word : IsCommand name) (grouped : ∀ g ∈ arguments, g.isGroup = true)
    (all : ∀ g ∈ arguments, ∀ e ∈ g.members, ∃ text, e.tex style = .ok text ∧ IsAccepted text) :
    ∃ text, (command name arguments token).tex style = .ok text ∧ IsAccepted text := by
  obtain ⟨texts, rs, gs, written, writes⟩ := exists_writesGroups grouped all
  obtain ⟨free, letters, spelled, nonempty, all⟩ := word
  refine ⟨name ++ String.join texts, ?_, isAccepted_of_writes
    (writes_command spelled nonempty all free writes tightest tightest none) ?_⟩
  · show (texAll style arguments >>= _) = _
    rw [written]
    rfl
  · rw [String.toList_append, spelled]
    rintro c ⟨⟩
    decide

/-- **The text of a term is a chain of operands**, given that no letters of factors meet and that no
operand of an operation is a group. -/
theorem IsTerm.accepted (h : e.IsTerm)
    (clear : e.Throughout fun x => x.KeepsLettersApart ⟨inline, false⟩ ∧ x.SparesGroups) :
    ∃ text, e.tex ⟨inline, false⟩ = .ok text ∧ IsAccepted text := by
  induction h with
  | number legible => exact exists_accepted_number legible
  | @var name es token letters _ ih =>
    exact exists_accepted_var letters fun e he => ih e he (clear.parts e he)
  | @unary op operand token sign _ ih =>
    obtain ⟨text, written, accepted⟩ := ih (throughout_unary.1 clear).2
    exact ⟨_, by rw [Expr.tex, written]; rfl, (accepted.wrapped _).signed sign⟩
  | @binary op lhs rhs token _ _ ih_l ih_r =>
    obtain ⟨⟨letters, spared⟩, clear_l, clear_r⟩ := throughout_binary.1 clear
    exact exists_accepted_binary (ih_l lhs (mem_members_self spared.1) clear_l)
      (ih_r rhs (mem_members_self spared.2) clear_r) letters
  | @command name arguments token word grouped _ ih =>
    refine exists_accepted_command word grouped fun g hg e he => ih g hg e he ?_
    have kept := clear.parts g hg
    cases g with
    | group items token' => exact kept.parts e he
    | _ => cases grouped _ hg

end Expr

end TexAlgebra
