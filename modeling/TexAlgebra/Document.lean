import TexAlgebra.Parser.Depth
import TexAlgebra.Token.Lexer
/-!
# Documents

A document is a text on its way of being read, statement by statement. A statement that cannot be
read is reported in its place, and reading goes on at the next control word or end of a statement.
Functions stay known for the rest of the document once their name was noted.

`Document.size_lt_of_next?` says that every statement takes at least one token, so a document comes
to its end, and `Document.next?_eq_none_iff` that nothing but ends of statements is left then.
-/

namespace TexAlgebra

/-- A text that has been read up to a cursor. -/
structure Document where
  cursor : Cursor
  ending : Position
  deriving Repr, Inhabited

/-- A statement, or the fault found in its place. -/
abbrev Statement := Except ParseFault Expr

namespace Document

/-! ## Construction -/

/-- The place just behind the last of some tokens. -/
def endOf (tokens : List Token) : Position :=
  match tokens.getLast? with
  | none => .start
  | some t =>
    { t.position with
      column := t.position.column + t.text.length
      offset := t.position.offset + t.text.length }

/-- The document of some tokens, up to the first that ends a text. -/
def ofTokens (tokens : List Token) : Document where
  cursor := ⟨tokens.takeWhile (·.kind ≠ .endOfText), []⟩
  ending := ((tokens.find? (·.kind = .endOfText)).map Token.position).getD (endOf tokens)

/-- The document of a text. -/
def ofText (source : String) : Document := ofTokens (tokenize source).tokens

/-! ## Statements -/

/-- The number of tokens that are left. -/
def size (d : Document) : Nat := d.cursor.rest.length

/-- Whether reading goes on at a token after a fault. -/
def isBoundary (token : Token) : Bool :=
  token.kind = .controlWord ∨ token.kind = .endOfStatement

/-- The cursor at which reading goes on after a fault. At least one token is skipped. -/
def resumed (start after : Cursor) : Cursor :=
  let rest := if after.rest.length = start.rest.length then after.rest.drop 1 else after.rest
  { after with rest := rest.dropWhile (!isBoundary ·) }

/-- The cursor behind the ends of statements. -/
def atStatement (cursor : Cursor) : Cursor :=
  { cursor with rest := cursor.rest.dropWhile (·.kind = .endOfStatement) }

/-- The next statement of a document and what is left of the document after it, unless the document
is at its end. The names of functions that are defined elsewhere satisfy `known`. -/
def next? (known : Expr → Bool) (d : Document) : Option (Statement × Document) :=
  let start := atStatement d.cursor
  if start.rest = [] then none
  else
    match Parser.expression ⟨d.ending, known⟩ start with
    | .done e after => some (.ok e, { d with cursor := after })
    | .failed fault after => some (.error fault, { d with cursor := resumed start after })
    | .exhausted => none

theorem length_atStatement_le (cursor : Cursor) :
    (atStatement cursor).rest.length ≤ cursor.rest.length :=
  (List.dropWhile_sublist _).length_le

theorem length_resumed_lt {start after : Cursor} (nonempty : start.rest ≠ [])
    (h : after.rest <:+ start.rest) : (resumed start after).rest.length < start.rest.length := by
  have left := h.length_le
  have positive := List.length_pos_iff.2 nonempty
  simp only [resumed]
  refine Nat.lt_of_le_of_lt (List.dropWhile_sublist _).length_le ?_
  split
  · rw [List.length_drop]
    omega
  · omega

theorem size_lt_of_next? {known : Expr → Bool} {d rest : Document} {s : Statement}
    (h : d.next? known = some (s, rest)) : rest.size < d.size := by
  have before := length_atStatement_le d.cursor
  have kept := Parser.keeps_expression ⟨d.ending, known⟩ (atStatement d.cursor)
  simp only [next?] at h
  split at h
  · cases h
  · next nonempty =>
    split at h
    · next e after reading =>
      cases h
      exact Nat.lt_of_lt_of_le (Parser.consumes_expression _ _ _ _ reading) before
    · next fault after reading =>
      cases h
      rw [reading] at kept
      exact Nat.lt_of_lt_of_le (length_resumed_lt nonempty kept) before
    · cases h

theorem next?_eq_none_iff {known : Expr → Bool} {d : Document} :
    d.next? known = none ↔ (atStatement d.cursor).rest = [] := by
  have deep := Parser.expression_ne_exhausted ⟨d.ending, known⟩ (atStatement d.cursor)
  simp only [next?]
  split
  · simp_all
  · split <;> simp_all

/-- The results of handling the statements of a document one after the other, each with the state
after it. Which functions are known depends on the state before the statement is read. -/
def process {σ ρ : Type} (known : σ → Expr → Bool) (handle : Statement → σ → ρ × σ) (state : σ)
    (d : Document) : List (ρ × σ) :=
  match _h : d.next? (known state) with
  | none => []
  | some (s, rest) =>
    let outcome := handle s state
    outcome :: process known handle outcome.2 rest
termination_by d.size
decreasing_by exact size_lt_of_next? ‹_›

/-- The statements of a document, where the names of functions defined elsewhere satisfy `known`. -/
def statements (known : Expr → Bool) (d : Document) : List Statement :=
  (process (fun _ => known) (fun s _ => (s, ())) () d).map (·.1)

end Document

/-- The statements of a text. -/
def parse (source : String) : List Statement :=
  (Document.ofText source).statements fun _ => false

end TexAlgebra
