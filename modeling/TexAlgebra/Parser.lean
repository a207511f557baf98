import TexAlgebra.Expr
import TexAlgebra.Fault
/-!
# Parsers

A parser reads tokens from a cursor. It ends with a value or with a fault, and in both cases leaves
a cursor behind, from which reading can go on. The end of the text is never read past: there the
token that ends it is seen again and again.
-/

namespace TexAlgebra

/-- How far a text has been read: the tokens that are left, without the one that ends the text, and
the names of the functions that were defined so far. -/
structure Cursor where
  rest : List Token
  functions : List Expr
  deriving Repr, Inhabited

/-- What does not change while a statement is read: where the text ends, and the names of functions
that are defined elsewhere. -/
structure Context where
  ending : Position
  known : Expr → Bool

/-- The token at a cursor. -/
def Cursor.token (context : Context) (cursor : Cursor) : Token :=
  cursor.rest.head?.getD (.ending context.ending)

/-- The end of an attempt to read something. -/
inductive Reading (α : Type) where
  | done (value : α) (cursor : Cursor)
  | failed (fault : ParseFault) (cursor : Cursor)
  /-- The depth that was allowed did not suffice. -/
  | exhausted
  deriving Repr, Inhabited

/-- A parser for values of type `α`. -/
def Parser (α : Type) : Type := Context → Cursor → Reading α

namespace Parser

variable {α β : Type}

/-- The parser that reads nothing. -/
def done (a : α) : Parser α := fun _ cursor => .done a cursor

/-- Reads with `p`, and then with what `f` makes of the result. -/
def andThen (p : Parser α) (f : α → Parser β) : Parser β := fun context cursor =>
  match p context cursor with
  | .done a cursor => f a context cursor
  | .failed fault cursor => .failed fault cursor
  | .exhausted => .exhausted

instance : Monad Parser where
  pure := done
  bind := andThen

theorem pure_eq (a : α) : (pure a : Parser α) = done a := rfl

theorem bind_eq (p : Parser α) (f : α → Parser β) : (p >>= f) = p.andThen f := rfl

/-- The parser that gives up for want of depth. -/
def exhausted : Parser α := fun _ _ => .exhausted

/-- The parser that fails at `token`. -/
def fail (cause : ParseCause) (token : Token) : Parser α := fun _ cursor =>
  .failed ⟨cause, token⟩ cursor

/-- The token at the cursor. -/
def peek : Parser Token := fun context cursor => .done (cursor.token context) cursor

/-- The token at the cursor, which is read unless it ends the text. -/
def next : Parser Token := fun context cursor =>
  .done (cursor.token context) { cursor with rest := cursor.rest.drop 1 }

/-- The ends of statements at the cursor are skipped. -/
def skipEnds : Parser Unit := fun _ cursor =>
  .done () { cursor with rest := cursor.rest.dropWhile (·.kind = .endOfStatement) }

/-- Reads a token of one kind; `character` is what it looks like. -/
def expect (kind : TokenKind) (character : String) : Parser Token := do
  let token ← next
  if token.kind = .endOfText then fail .unexpectedEnd token
  else if token.kind = kind then return token
  else fail (.missingCharacter character) token

/-- Takes note of the name of a function. -/
def define (name : Expr) : Parser Unit := fun _ cursor =>
  .done () { cursor with functions := cursor.functions ++ [name] }

/-- Whether a variable is the name of a function. -/
def isFunction (x : Expr) : Parser Bool := fun context cursor =>
  .done (cursor.functions.any (· == x) || context.known x) cursor

/-- Whether the token at the cursor is of one kind. -/
def sees (kind : TokenKind) : Parser Bool := do
  return (← peek).kind = kind

end Parser

end TexAlgebra
