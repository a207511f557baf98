import TexAlgebra.Operator
/-!
# Tokens

What a formula text consists of: tokens and comments, each with the place where it starts. Lines are
counted from one, columns and offsets from zero, all in characters.
-/

namespace TexAlgebra

/-- A place in a text. -/
structure Position where
  line : Nat
  column : Nat
  offset : Nat
  deriving DecidableEq, Repr, Inhabited

/-- The number of characters after the last line break of `text`. -/
def lastLineLength (text : List Char) : Nat :=
  (text.reverse.takeWhile (· ≠ '\n')).length

namespace Position

/-- The place where a text starts. -/
def start : Position := ⟨1, 0, 0⟩

/-- The place reached from `p` by going past `text`. -/
def past (p : Position) (text : List Char) : Position where
  line := p.line + text.count '\n'
  column := if '\n' ∈ text then lastLineLength text else p.column + text.length
  offset := p.offset + text.length

@[simp] theorem past_offset (p : Position) (text : List Char) :
    (p.past text).offset = p.offset + text.length := rfl

@[simp] theorem past_nil (p : Position) : p.past [] = p := by
  simp [past]

end Position

/-- The kinds of token. -/
inductive TokenKind where
  /-- A backslash and letters, as in `\frac`. -/
  | controlWord
  | identifier
  | number
  | operator (op : Operator)
  | parenOpen
  | parenClose
  | braceOpen
  | braceClose
  | subscript
  | comma
  /-- Any character that starts no other token. -/
  | other
  /-- The end of the text. -/
  | endOfText
  /-- A blank line or a double backslash. -/
  | endOfStatement
  deriving DecidableEq, Repr, Inhabited

/-- A token: its kind, the place where it starts, and its text. -/
structure Token where
  kind : TokenKind
  position : Position
  text : String
  deriving DecidableEq, Repr, Inhabited

namespace Token

/-- The token that marks the end of a text at `p`. -/
def ending (p : Position) : Token := ⟨.endOfText, p, ""⟩

/-- What the token says beyond its kind: a name, a number, an operator or a stray character. -/
def payload? (t : Token) : Option String :=
  match t.kind with
  | .controlWord | .identifier | .number | .operator _ | .other => some t.text
  | _ => none

/-- The product that is understood in front of `t`, where two factors stand side by side. -/
def impliedProduct (t : Token) : Token :=
  ⟨.operator .juxtaposed, t.position, Operator.juxtaposed.sign⟩

end Token

/-- A comment: where it starts and its text, which includes the white space it swallows. -/
structure Comment where
  position : Position
  text : String
  deriving DecidableEq, Repr, Inhabited

namespace Comment

/-- The number of columns of the comment's last line, none if it stays on one line. -/
def tail (c : Comment) : Nat :=
  if '\n' ∈ c.text.toList then lastLineLength c.text.toList else 0

end Comment

end TexAlgebra
