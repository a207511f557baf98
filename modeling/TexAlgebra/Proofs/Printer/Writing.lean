import TexAlgebra.Expr.Printer
import TexAlgebra.Proofs.Grammar.Reading
import TexAlgebra.Proofs.Numeral.Canonical
/-!
# Texts that are read back

`Printer.Writes e p q text gs` says that `text` is cut into the tokens `gs`, and that these are read
as `e` wherever no operator follows that binds tighter than `p`, by anything that goes on with
operators of precedence `q` or less. `Printer.Joins` says what a text does to the expression that it
follows as a right operand. There is a lemma for each way in which texts of expressions are put
together: operators between operands, parentheses, fractions, subscripts and the groups of a control
word.
-/

namespace TexAlgebra

open Lexer Grammar

namespace Printer

/-! ## Where a text starts -/

/-- The kind of the token that a character starts at the beginning of an operand. -/
inductive Starts : Char → TokenKind → Prop
  | letter {c : Char} (h : isLetter c = true) : Starts c .identifier
  | digit {c : Char} (h : isDigit c = true) : Starts c .number
  | parenOpen : Starts '(' .parenOpen
  | controlWord : Starts '\\' .controlWord
  | plus : Starts '+' (.operator .plus)
  | minus : Starts '-' (.operator .minus)

/-- Whether a character can start a factor that stands beside another one. -/
def opensFactor (c : Char) : Bool := Text.isAlphanumeric c || c == '('

/-- Control words and signs do not start a factor that stands beside another one. -/
theorem not_opensFactor {c : Char} (h : c ∈ ['\\', '+', '-']) : opensFactor c = false := by
  have other : Text.isAlphanumeric c = false := by
    fin_cases h <;> decide +kernel
  rw [opensFactor, other]
  fin_cases h <;> rfl

/-- A factor that stands beside another one starts with a name, a number or a parenthesis. -/
theorem Starts.of_opensFactor {c : Char} {kind : TokenKind} (h : Starts c kind)
    (factor : opensFactor c = true) :
    kind = .identifier ∨ kind = .number ∨ kind = .parenOpen := by
  cases h with
  | letter => exact .inl rfl
  | digit => exact .inr (.inl rfl)
  | parenOpen => exact .inr (.inr rfl)
  | _ =>
    rw [not_opensFactor (by simp)] at factor
    cases factor

/-- Whether `text` is cut into the tokens `gs`. The first character tells the kind of the first
token. -/
structure Lexes (text : String) (gs : List Glyph) : Prop where
  cuts : Cuts text gs
  starts : ∃ c g, text.toList.head? = some c ∧ gs.head? = some g ∧ Starts c g.1

section

variable {e l r : Expr} {p p' q q' : Nat} {a b text : String} {gs hs : List Glyph}

/-- A text that is cut into tokens has characters. -/
theorem Lexes.nonempty (h : Lexes text gs) : text.toList ≠ [] := by
  obtain ⟨c, g, first, -⟩ := h.starts
  rintro empty
  rw [empty] at first
  cases first

/-- What is appended to a text changes nothing about how it starts. -/
theorem Lexes.append (h : Lexes a gs) (cuts : Cuts (a ++ text) (gs ++ hs)) :
    Lexes (a ++ text) (gs ++ hs) where
  cuts := cuts
  starts := by
    obtain ⟨c, g, first, first', starts⟩ := h.starts
    refine ⟨c, g, ?_, ?_, starts⟩
    · rw [String.toList_append, List.head?_append, first]
      rfl
    · rw [List.head?_append, first']
      rfl

theorem head?_parenthesized (text : String) : (parenthesized text).toList.head? = some '(' := by
  rw [parenthesized, String.toList_append, String.toList_append]
  rfl

/-- Parentheses are cut off as tokens of their own. -/
theorem Lexes.parenthesized (h : Lexes text gs) :
    Lexes (parenthesized text) ((.parenOpen, "(") :: (gs ++ [(.parenClose, ")")])) where
  cuts := by
    have inner : Cuts ("(" ++ text) ((.parenOpen, "(") :: gs) :=
      h.cuts.mark_append (c := '(') rfl (by decide) h.nonempty
    exact inner.append_mark (c := ')') rfl (by decide)
  starts := ⟨'(', _, head?_parenthesized text, rfl, .parenOpen⟩

/-! ## Between operands -/

/-- Whether a text is cut into the sign of an operator, whatever stands around it. -/
structure IsSign (op : Operator) (piece : String) : Prop where
  cuts : Cuts piece [(.operator op, op.sign)]
  first : ∃ c, piece.toList.head? = some c ∧ isBarrier c = true
  last : ∃ c, piece.toList.getLast? = some c ∧ isBarrier c = true

/-- The sign of the power is written without blanks. -/
theorem isSign_power : IsSign .power "^" where
  cuts := cuts_mark (c := '^') rfl (by decide)
  first := ⟨'^', rfl, rfl⟩
  last := ⟨'^', rfl, rfl⟩

/-- All other signs are written with blanks around them. -/
theorem isSign_spaced {op : Operator} (h : op ≠ .juxtaposed) :
    IsSign op (" " ++ op.sign ++ " ") := by
  have mark : ∃ c ∈ marks, op.sign.toList = [c] ∧ single c = .operator op := by
    cases op with
    | plus => exact ⟨'+', by decide, rfl, rfl⟩
    | minus => exact ⟨'-', by decide, rfl, rfl⟩
    | times => exact ⟨'*', by decide, rfl, rfl⟩
    | juxtaposed => exact absurd rfl h
    | divide => exact ⟨'/', by decide, rfl, rfl⟩
    | power => exact ⟨'^', by decide, rfl, rfl⟩
    | equals => exact ⟨'=', by decide, rfl, rfl⟩
  obtain ⟨c, mark, spelled, kind⟩ := mark
  have cuts := ((cuts_mark spelled mark).blank_append (by simp [spelled])).append_blank
  rw [kind] at cuts
  refine ⟨cuts, ⟨' ', ?_, rfl⟩, ⟨' ', ?_, rfl⟩⟩
  · rw [String.toList_append, String.toList_append]
    rfl
  · rw [String.toList_append, List.getLast?_append]
    rfl

/-- Whether `piece` between the texts `a` and `b` of two operands stands for the operator `op` and
is cut into the tokens `glue`: it is the sign of `op`, or nothing where no lexeme reaches from one
text into the other and the second one can be a factor. -/
inductive Stands : Operator → String → String → String → List Glyph → Prop
  | sign {op : Operator} {a piece b : String} (sign : IsSign op piece) :
    Stands op a piece b [(.operator op, op.sign)]
  | beside {a b : String} (apart : Apart a.toList b.toList)
      (factor : ∀ c ∈ b.toList.head?, opensFactor c = true) : Stands .juxtaposed a "" b []

/-- What stands between two operands is read as the operator. -/
theorem Stands.glues {op : Operator} {piece : String} {glue : List Glyph}
    (h : Stands op a piece b glue) (right : Lexes b hs) : Glues hs op glue := by
  cases h with
  | sign => exact .sign op
  | beside apart factor =>
    obtain ⟨c, g, first, first', starts⟩ := right.starts
    exact .nothing g first' (starts.of_opensFactor (factor c first))

/-- Two texts with what stands between them are cut into the tokens of all three. -/
theorem Stands.lexes {op : Operator} {piece : String} {glue : List Glyph}
    (h : Stands op a piece b glue) (left : Lexes a gs) (right : Lexes b hs) :
    Lexes (a ++ (piece ++ b)) (gs ++ (glue ++ hs)) := by
  refine left.append ?_
  cases h with
  | beside apart =>
    rw [String.empty_append]
    exact left.cuts.append right.cuts right.nonempty apart
  | sign sign =>
    obtain ⟨c, first, barrier⟩ := sign.first
    obtain ⟨d, last, barrier'⟩ := sign.last
    have nonempty : piece.toList ≠ [] := by
      rintro empty
      rw [empty] at first
      cases first
    -- the sign keeps both operands apart, whatever their texts are
    have after : Apart (a ++ piece).toList b.toList := by
      refine apart_of_getLast? ?_ barrier' _
      rw [String.toList_append, List.getLast?_append, last]
      rfl
    rw [← List.append_assoc, ← String.append_assoc]
    exact (left.cuts.append sign.cuts nonempty (apart_of_head? first barrier _)).append
      right.cuts right.nonempty after

/-! ## Operations -/

/-- Whether `text` is cut into the tokens `gs`, which are read as `e` wherever no operator follows
that binds tighter than `p`, by what goes on with operators of precedence `q` or less. -/
structure Writes (e : Expr) (p q : Nat) (text : String) (gs : List Glyph) : Prop
    extends Lexes text gs where
  reads : ReadsAs e p q gs

/-- What is read before tighter operators is read before looser ones. -/
theorem Writes.mono (h : Writes e p q text gs) (le : p' ≤ p) (le' : q' ≤ q) :
    Writes e p' q' text gs :=
  ⟨h.toLexes, h.reads.mono le le'⟩

/-- In parentheses an expression is read whatever stands around it. -/
theorem Writes.parenthesized (h : Writes e p q text gs) (p' q' : Nat) :
    Writes e p' q' (parenthesized text) ((.parenOpen, "(") :: (gs ++ [(.parenClose, ")")])) :=
  ⟨h.toLexes.parenthesized, h.reads.parenthesized.readsAs p' q'⟩

/-- Parentheses may be left out where the expression holds together by itself. -/
theorem Writes.wrapped {wrap : Bool} (h : Writes e p q text gs)
    (tight : wrap = false → p' ≤ p ∧ q' ≤ q) : ∃ hs, Writes e p' q' (wrapped wrap text) hs := by
  cases wrap with
  | true => exact ⟨_, h.parenthesized p' q'⟩
  | false => exact ⟨_, h.mono (tight rfl).1 (tight rfl).2⟩

/-- Whether `text` is cut into the tokens `gs`, which as the right operand of `op` make the
expression on the left grow as `grow` says. -/
structure Joins (grow : Expr → Expr) (op : Operator) (p : Nat) (text : String) (gs : List Glyph) :
    Prop extends Lexes text gs where
  extends_left : ∀ glue, Glues gs op glue → Extends grow op p (glue ++ gs)

/-- An expression that binds tighter than an operator is read as its right operand. -/
theorem Writes.joins {op : Operator} (h : Writes r p (op.precedence + 1) text gs)
    (le : p ≤ op.precedence) (token : Option Token) :
    Joins (fun l => .binary op l r token) op p text gs :=
  ⟨h.toLexes, fun _ glued => h.reads.extends glued le token⟩

variable {op op' : Operator} {grow grow' : Expr → Expr} {piece : String} {glue : List Glyph}

/-- An operand with the right operand that follows it. -/
theorem Writes.extended (left : Writes l op.precedence op.precedence a gs)
    (stands : Stands op a piece b glue) (right : Joins grow op p b hs) :
    Writes (grow l) p op.precedence (a ++ (piece ++ b)) (gs ++ (glue ++ hs)) :=
  ⟨stands.lexes left.toLexes right.toLexes,
    left.reads.extended (right.extends_left glue (stands.glues right.toLexes))⟩

/-- A right operand that goes on with an operator of the same precedence. -/
theorem Joins.append (left : Joins grow op q a gs) (stands : Stands op' a piece b glue)
    (right : Joins grow' op' p b hs) (same : op'.precedence = op.precedence)
    (le : op'.precedence ≤ q) :
    Joins (fun e => grow' (grow e)) op p (a ++ (piece ++ b)) (gs ++ (glue ++ hs)) where
  toLexes := stands.lexes left.toLexes right.toLexes
  extends_left first glued := by
    have head : (gs ++ (glue ++ hs)).head? = gs.head? := by
      obtain ⟨c, g, -, first, -⟩ := left.starts
      rw [List.head?_append, first]
      rfl
    have glued : Glues gs op first := by
      cases glued with
      | sign => exact .sign op
      | nothing g first operand => exact .nothing g (head ▸ first) operand
    rw [← List.append_assoc]
    exact (left.extends_left first glued).append
      (right.extends_left glue (stands.glues right.toLexes)) same le

/-- A sign is cut off as a token of its own. -/
theorem Lexes.signed {op : Operator} (h : Lexes text gs) (sign : op.isSign = true) :
    Lexes (op.sign ++ text) ((.operator op, op.sign) :: gs) := by
  refine ⟨?_, ?_⟩
  · cases op with
    | plus => exact h.cuts.mark_append (c := '+') rfl (by decide) h.nonempty
    | minus => exact h.cuts.mark_append (c := '-') rfl (by decide) h.nonempty
    | _ => cases sign
  · rw [String.toList_append]
    cases op with
    | plus => exact ⟨'+', _, rfl, rfl, .plus⟩
    | minus => exact ⟨'-', _, rfl, rfl, .minus⟩
    | _ => cases sign

/-- A sign takes in the powers behind its operand, so that none may follow it. -/
theorem Writes.signed {op : Operator} (sign : op.isSign = true)
    (operand : Writes e p Operator.power.precedence text gs)
    (loose : p < Operator.power.precedence) (token : Option Token) (q : Nat) :
    Writes (.unary op e token) p q (op.sign ++ text) ((.operator op, op.sign) :: gs) :=
  ⟨operand.toLexes.signed sign, operand.reads.unary sign loose token q⟩

/-! ## Numbers -/

/-- A number is read from its digits, whatever stands around it. -/
theorem writes_number {whole fraction : List Char}
    (spelled : text.toList = Numeral.splitChars whole fraction) (nonempty : whole ≠ [])
    (digits : ∀ c ∈ whole ++ fraction, isDigit c = true) (p q : Nat) (token : Option Token) :
    Writes (.number text token) p q text [(.number, text)] := by
  refine ⟨⟨cuts_number spelled nonempty digits, ?_⟩, (isOperand_number text token).readsAs p q⟩
  obtain ⟨c, cs, rfl⟩ := List.exists_cons_of_ne_nil nonempty
  refine ⟨c, _, ?_, rfl, .digit (digits c List.mem_cons_self)⟩
  rw [spelled]
  rfl

/-! ## Groups -/

/-- The tokens of a text in braces. -/
theorem cuts_braced (h : Cuts text gs) (nonempty : text.toList ≠ []) :
    Cuts (braced text) ((.braceOpen, "\x7b") :: (gs ++ [(.braceClose, "\x7d")])) := by
  have inner : Cuts ("\x7b" ++ text) ((.braceOpen, "\x7b") :: gs) :=
    h.mark_append (c := '\x7b') rfl (by decide) nonempty
  exact inner.append_mark (c := '\x7d') rfl (by decide)

/-- Whatever precedes a text in braces stands apart from it. -/
theorem cuts_append_braced (front : Cuts a hs) (h : Cuts (braced text) gs) :
    Cuts (a ++ braced text) (hs ++ gs) := by
  have first : (braced text).toList.head? = some '\x7b' := by
    rw [braced, String.toList_append, String.toList_append]
    rfl
  refine front.append h ?_ (apart_of_head? first rfl _)
  rintro empty
  rw [empty] at first
  cases first

/-- Whether groups that are written one after the other as `texts` are cut into the tokens `gs`,
whatever precedes them, and read as `groups`. -/
structure WritesGroups (groups : List Expr) (texts : List String) (gs : List Glyph) : Prop where
  cuts : ∀ front hs, Cuts front hs → Cuts (front ++ String.join texts) (hs ++ gs)
  reads : ReadsList full.groups (· ≠ .braceOpen) groups gs

/-- No groups are written as nothing. -/
theorem writesGroups_nil : WritesGroups [] [] [] where
  cuts front hs h := by
    rw [String.join_nil, String.append_empty, List.append_nil]
    exact h
  reads := readsList_no_groups

/-- A group is cut off and read before those behind it. -/
theorem WritesGroups.cons {items groups : List Expr} {texts : List String}
    (inside : Cuts (braced text) ((.braceOpen, "\x7b") :: gs))
    (items_read : ReadsList (full.items false) (fun _ => True) items gs)
    (later : WritesGroups groups texts hs) (token : Option Token) :
    WritesGroups (.group items token :: groups) (braced text :: texts)
      ((.braceOpen, "\x7b") :: (gs ++ hs)) where
  cuts front fs h := by
    have cuts := later.cuts _ _ (cuts_append_braced h inside)
    rw [String.join_cons, ← String.append_assoc]
    rw [List.append_assoc] at cuts
    exact cuts
  reads := readsList_groups token items_read later.reads

/-- A group of one expression, with or without blanks around it. -/
theorem WritesGroups.cons_item {groups : List Expr} {texts : List String} {inside : String}
    (item : Writes e p q text gs) (cuts : Cuts inside gs) (nonempty : inside.toList ≠ [])
    (later : WritesGroups groups texts hs) (token : Option Token) :
    WritesGroups (.group [e] token :: groups) (braced inside :: texts)
      ((.braceOpen, "\x7b") :: (gs ++ [(.braceClose, "\x7d")] ++ hs)) :=
  WritesGroups.cons (cuts_braced cuts nonempty)
    (item.reads.readsList_items (readsList_no_items false) (.inr (.inl rfl))) later token

/-- A group without items is read before those behind it. -/
theorem WritesGroups.cons_blank {groups : List Expr} {texts : List String}
    (later : WritesGroups groups texts hs) (token : Option Token) :
    WritesGroups (.group [] token :: groups)
      (braced (" " ++ String.intercalate " " [] ++ " ") :: texts)
      ((.braceOpen, "\x7b") :: ([(.braceClose, "\x7d")] ++ hs)) := by
  have cuts : Cuts (" " ++ String.intercalate " " [] ++ " ") [] := by
    rw [String.intercalate_nil, String.append_empty]
    exact cuts_blank.append_blank
  exact WritesGroups.cons (cuts_braced cuts (by simp)) (readsList_no_items false) later token

/-- A group of one item is read before those behind it, in spite of the blanks in it. -/
theorem WritesGroups.cons_spaced {groups : List Expr} {texts : List String}
    (item : Writes e p q text gs) (later : WritesGroups groups texts hs) (token : Option Token) :
    WritesGroups (.group [e] token :: groups)
      (braced (" " ++ String.intercalate " " [text] ++ " ") :: texts)
      ((.braceOpen, "\x7b") :: (gs ++ [(.braceClose, "\x7d")] ++ hs)) := by
  have cuts : Cuts (" " ++ String.intercalate " " [text] ++ " ") gs := by
    rw [String.intercalate_singleton]
    exact (item.cuts.blank_append item.nonempty).append_blank
  exact WritesGroups.cons_item item cuts (by simp) later token

/-! ## Control words -/

/-- A fraction is read from its two groups, whatever stands around it. -/
theorem Writes.fraction (left : Writes l p q a gs) (right : Writes r p' q' b hs) (m n : Nat)
    (token : Option Token) :
    ∃ fs, Writes (.binary .divide l r token) m n ("\\frac" ++ braced a ++ braced b) fs := by
  have groups := WritesGroups.cons_item left left.cuts left.nonempty
    (WritesGroups.cons_item right right.cuts right.nonempty writesGroups_nil none) none
  have word : Cuts "\\frac" [(.controlWord, "\\frac")] :=
    cuts_controlWord (show _ = '\\' :: ['f', 'r', 'a', 'c'] from rfl) (by simp)
      (List.all_eq_true.1 rfl)
  have cuts := groups.cuts _ _ word
  rw [String.join_cons, String.join_cons, String.join_nil, String.append_empty,
    ← String.append_assoc] at cuts
  refine ⟨_, ⟨cuts, '\\', _, ?_, rfl, .controlWord⟩,
    (isOperand_fraction groups.reads token).readsAs m n⟩
  rw [String.toList_append, String.toList_append]
  rfl

/-- A control word is read with the groups behind it, whatever stands around it. -/
theorem writes_command {name : String} {letters : List Char} {arguments : List Expr}
    {texts : List String} (spelled : name.toList = '\\' :: letters) (nonempty : letters ≠ [])
    (all : ∀ c ∈ letters, isLetter c = true) (free : isReserved name = false)
    (groups : WritesGroups arguments texts gs) (m n : Nat) (token : Option Token) :
    Writes (.command name arguments token) m n (name ++ String.join texts)
      ([(.controlWord, name)] ++ gs) := by
  refine ⟨⟨groups.cuts _ _ (cuts_controlWord spelled nonempty all), '\\', _, ?_, rfl,
    .controlWord⟩, (isOperand_command free groups.reads token).readsAs m n⟩
  rw [String.toList_append, spelled]
  rfl

/-! ## Names -/

/-- Whether subscripts that are written as `texts` with commas between them are cut into the tokens
`gs` and read as `items` in front of a closing brace. -/
structure WritesItems (items : List Expr) (texts : List String) (gs : List Glyph) : Prop where
  cuts : Cuts (String.intercalate "," texts) gs
  reads : ReadsList (full.items true) (fun _ => True) items (gs ++ [(.braceClose, "\x7d")])
  nonempty : (String.intercalate "," texts).toList ≠ []

/-- One expression is a list of subscripts. -/
theorem Writes.writesItems (h : Writes e p q text gs) : WritesItems [e] [text] gs where
  cuts := by
    rw [String.intercalate_singleton]
    exact h.cuts
  reads := h.reads.readsList_items (readsList_no_items true) (.inr (.inl rfl))
  nonempty := by
    rw [String.intercalate_singleton]
    exact h.nonempty

/-- Behind a comma one more subscript is read. -/
theorem WritesItems.cons {items : List Expr} {texts : List String} (item : Writes e p q text gs)
    (later : WritesItems items texts hs) :
    WritesItems (e :: items) (text :: texts) (gs ++ (.comma, ",") :: hs) := by
  have written : String.intercalate "," (text :: texts) =
      text ++ ("," ++ String.intercalate "," texts) := by
    rw [String.intercalate_cons_of_ne_nil, String.append_assoc]
    rintro rfl
    exact later.nonempty (by simp)
  refine ⟨?_, ?_, ?_⟩
  · have tail := later.cuts.mark_append (t := ",") (c := ',') rfl (by decide) later.nonempty
    rw [written]
    refine item.cuts.append tail ?_ (apart_of_head? (b := ',') ?_ rfl _)
    · simp
    · simp
  · rw [List.append_assoc]
    exact item.reads.readsList_items (readsList_comma later.reads) (.inl rfl)
  · rw [written]
    simp

/-- A name is read from its letters, whatever stands around it. -/
theorem writes_name {name : String} (nonempty : name.toList ≠ [])
    (letters : ∀ c ∈ name.toList, isLetter c = true) (m n : Nat) (token : Option Token) :
    Writes (.var name [] token) m n name [(.identifier, name)] := by
  refine ⟨⟨cuts_name nonempty letters, ?_⟩,
    (isOperand_var readsList_no_subscripts token).readsAs m n⟩
  obtain ⟨c, cs, spelled⟩ := List.exists_cons_of_ne_nil nonempty
  rw [spelled] at letters ⊢
  exact ⟨c, _, rfl, rfl, .letter (letters c List.mem_cons_self)⟩

/-- A name is read with its subscripts, whatever stands around it. -/
theorem writes_subscripted {name : String} {items : List Expr} {texts : List String}
    (nonempty : name.toList ≠ []) (letters : ∀ c ∈ name.toList, isLetter c = true)
    (subscripts : WritesItems items texts gs) (m n : Nat) (token : Option Token) :
    ∃ hs, Writes (.var name items token) m n
      (name ++ "_" ++ braced (String.intercalate "," texts)) hs := by
  have inside := cuts_braced subscripts.cuts subscripts.nonempty
  have front : Cuts (name ++ "_") ([(.identifier, name)] ++ [(.subscript, "_")]) :=
    (cuts_name nonempty letters).append_mark (c := '_') rfl (by decide)
  have read : IsOperand (.var name items token) _ :=
    isOperand_var (readsList_subscripts subscripts.reads) token
  refine ⟨_, ⟨cuts_append_braced front inside, ?_⟩, read.readsAs m n⟩
  obtain ⟨c, cs, spelled⟩ := List.exists_cons_of_ne_nil nonempty
  refine ⟨c, _, ?_, rfl, .letter (letters c (spelled ▸ List.mem_cons_self))⟩
  rw [String.toList_append, String.toList_append, spelled]
  rfl

end

end Printer

end TexAlgebra
