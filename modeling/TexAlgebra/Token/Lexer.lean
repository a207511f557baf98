import TexAlgebra.Token
/-!
# From text to tokens

`tokenize` cuts a text into tokens and comments. At each place the longest lexeme is taken:

* a comment runs from `%` to the end of the line and swallows the white space that follows;
* a statement ends at a blank line or at a double backslash;
* single spaces, tabs and line breaks separate tokens and are dropped;
* a control word is a backslash with letters, an identifier is a run of letters, and a number is a
  run of digits with at most one point after its first digit;
* every other character is a token of its own, so that no text is ever refused.

`cut_append` says that a lexeme and what follows it are together the text, so nothing is lost.
-/

namespace TexAlgebra

namespace Lexer

/-- A letter of a name. Names are made of the unaccented Latin letters alone. -/
def isLetter (c : Char) : Bool := ('a' ≤ c ∧ c ≤ 'z') ∨ ('A' ≤ c ∧ c ≤ 'Z')

/-- A digit of a number. -/
def isDigit (c : Char) : Bool := '0' ≤ c ∧ c ≤ '9'

/-- A blank within a line. -/
def isBlank (c : Char) : Bool := c = ' ' ∨ c = '\t'

/-- The white space that a comment swallows. -/
def isGap (c : Char) : Bool := c = ' ' ∨ c = '\t' ∨ c = '\n'

/-- What a lexeme is: a comment, a blank, or a token of some kind. -/
inductive Lexeme where
  | comment
  | blank
  | token (kind : TokenKind)
  deriving DecidableEq, Repr

/-- The kind of a character that is a token by itself. -/
def single (c : Char) : TokenKind :=
  if c = '(' then .parenOpen
  else if c = ')' then .parenClose
  else if c = '\x7b' then .braceOpen
  else if c = '\x7d' then .braceClose
  else if c = '_' then .subscript
  else if c = ',' then .comma
  else if c = '+' then .operator .plus
  else if c = '-' then .operator .minus
  else if c = '*' then .operator .times
  else if c = '/' then .operator .divide
  else if c = '^' then .operator .power
  else if c = '=' then .operator .equals
  else .other

/-- The length, less one, of the lexeme that starts with `c`, when `cs` follows. -/
def munch (c : Char) (cs : List Char) : Lexeme × Nat :=
  if c = '%' then
    let line := cs.takeWhile (· ≠ '\n')
    let gap := (cs.drop line.length).takeWhile isGap
    (.comment, line.length + gap.length)
  else if c = '\n' then
    let gap := cs.takeWhile isBlank
    if (cs.drop gap.length).head? = some '\n' then (.token .endOfStatement, gap.length + 1)
    else (.blank, 0)
  else if isBlank c then (.blank, 0)
  else if c = '\\' then
    let word := cs.takeWhile isLetter
    if cs.head? = some '\\' then (.token .endOfStatement, 1)
    else if word = [] then (.token .other, 0)
    else (.token .controlWord, word.length)
  else if isLetter c then (.token .identifier, (cs.takeWhile isLetter).length)
  else if isDigit c then
    let whole := (cs.takeWhile isDigit).length
    match cs.drop whole with
    | '.' :: r => (.token .number, whole + 1 + (r.takeWhile isDigit).length)
    | _ => (.token .number, whole)
  else (.token (single c), 0)

/-- The lexeme that starts with `c`, its text, and what is left of `cs` after it. -/
def cut (c : Char) (cs : List Char) : Lexeme × List Char × List Char :=
  let (lexeme, n) := munch c cs
  (lexeme, c :: cs.take n, cs.drop n)

/-- A lexeme and the text after it make up the whole text. -/
theorem cut_append (c : Char) (cs : List Char) : (cut c cs).2.1 ++ (cut c cs).2.2 = c :: cs := by
  simp [cut]

/-- A lexeme is never empty, so what follows it is shorter than the text. -/
theorem length_cut_rest_lt (c : Char) (cs : List Char) :
    (cut c cs).2.2.length < (c :: cs).length := by
  simp only [cut, List.length_drop, List.length_cons]
  omega

end Lexer

/-- The tokens of a text, in order and closed by the end token, and its comments. -/
structure Lexed where
  tokens : List Token
  comments : List Comment
  deriving DecidableEq, Repr, Inhabited

namespace Lexer

/-- The tokens and comments of `cs`, which starts at `p`. -/
def scan (p : Position) (cs : List Char) : Lexed :=
  match cs with
  | [] => ⟨[Token.ending p], []⟩
  | c :: cs =>
    let piece := cut c cs
    let later := scan (p.past piece.2.1) piece.2.2
    let text := String.ofList piece.2.1
    match piece.1 with
    | .comment => { later with comments := ⟨p, text⟩ :: later.comments }
    | .blank => later
    | .token kind => { later with tokens := ⟨kind, p, text⟩ :: later.tokens }
termination_by cs.length
decreasing_by exact length_cut_rest_lt c cs

end Lexer

/-- The tokens and comments of a text. -/
def tokenize (source : String) : Lexed := Lexer.scan Position.start source.toList

end TexAlgebra
