import TexAlgebra.Classification
/-!
# Faults

What can be wrong with a formula. A fault has a cause and the token that it is about, and it is
reported in words; `Message` keeps apart the words of the report and the pieces of the formula that
it cites, because these are set in bold.
-/

namespace TexAlgebra

/-! ## Messages -/

/-- A piece of a message. -/
inductive Message.Piece where
  | words (text : String)
  /-- A piece of the formula. -/
  | cited (text : String)
  deriving DecidableEq, Repr, Inhabited

/-- The words of a report. -/
abbrev Message := List Message.Piece

namespace Message

/-- The text of a piece. -/
def Piece.text : Piece → String
  | words text => text
  | cited text => text

/-- The message as it reads. -/
def plain (m : Message) : String := String.join (m.map Piece.text)

/-- A message of words alone. -/
def ofText (text : String) : Message := [.words text]

/-- Words, a citation in quotation marks, and words again. -/
def citing (before cited after : String) : Message :=
  [.words (before ++ "'"), .cited cited, .words ("'" ++ after)]

end Message

/-! ## Causes -/

/-- Why a text cannot be read as a formula. -/
inductive ParseCause where
  | unexpectedToken
  | undefinedOperator
  | missingCharacter (expected : String)
  | missingExpression
  | badArgumentList
  | missingFunctionName
  /-- A list is closed under another name than it was opened with. -/
  | mismatchedName
  | unclosedBlock
  | wrongGroupCount
  | badFunctionBody
  | badSubscript
  | badBindingTarget
  | badBindingValue
  | unexpectedEnd
  deriving DecidableEq, Repr, Inhabited

/-- Why a statement is refused before it is evaluated. -/
inductive TypeCause where
  /-- A function was needed, and `given` was found. -/
  | notFunction (given : Classification)
  /-- An operand was needed, and `given` was found. -/
  | badOperand (given : Classification)
  | emptyContainer
  | uncheckable
  | tooManyArguments (given expected : Nat)
  deriving Repr, Inhabited

/-- Why a statement has no value. -/
inductive EvaluationCause where
  | unhandled
  | badOperator
  | tooManyArguments (given expected : Nat)
  deriving DecidableEq, Repr, Inhabited

/-- Why a statement fails. -/
inductive Cause where
  | parsing (cause : ParseCause)
  | typing (cause : TypeCause)
  | evaluation (cause : EvaluationCause)
  /-- Calls were nested too deeply. -/
  | tooDeep
  deriving Repr, Inhabited

/-- A fault in a text, at the token that shows it. -/
structure ParseFault where
  cause : ParseCause
  token : Token
  deriving DecidableEq, Repr, Inhabited

/-- A fault of a statement, with the token that it is about if there is one. -/
structure Fault where
  cause : Cause
  token : Option Token
  deriving Repr, Inhabited

/-- The fault of a statement that its text shows. -/
def ParseFault.toFault (f : ParseFault) : Fault := ⟨.parsing f.cause, some f.token⟩

/-! ## Wording -/

/-- The complaint about a call with too many arguments. -/
def countMessage (name : String) (given expected : Nat) : Message :=
  [.words "'", .cited name, .words "' takes ", .cited expected.repr,
    .words " argument(s) but was called with ", .cited given.repr]

/-- The words for a cause, when the fault is about the token with text `raw`. -/
def ParseCause.message (raw : String) : ParseCause → Message
  | unexpectedToken => .citing "unexpected token " raw ""
  | undefinedOperator => .citing "" raw " is not a defined operator"
  | missingCharacter expected => .citing "expected " expected " but found " ++ .citing "" raw ""
  | missingExpression => .citing "expected an expression but found " raw ""
  | badArgumentList => .citing "expected ',' or ')' in the argument list but found " raw ""
  | missingFunctionName => .citing "expected a function name but found " raw ""
  | mismatchedName => .citing "" raw " closes a list opened with a different name"
  | unclosedBlock => .citing "" raw " is never closed by a matching \\end"
  | wrongGroupCount => .citing "" raw " has the wrong number of arguments"
  | badFunctionBody =>
    .citing "the function defined at " raw " needs a single expression as its body"
  | badSubscript => .citing "" raw " is not a valid subscript"
  | badBindingTarget => .citing "" raw " needs a single variable to bind"
  | badBindingValue => .citing "" raw " needs a single expression as its value"
  | unexpectedEnd => .ofText "unexpected end of input"

/-- The words for a cause, when the fault is about the token with text `raw`. -/
def TypeCause.message (raw : String) : TypeCause → Message
  | notFunction _ => .citing "" raw " is called but is not a function"
  | badOperand _ => .citing "" raw " cannot be used as an operand here"
  | emptyContainer => .citing "" raw " contains nothing to check"
  | uncheckable => .citing "" raw " cannot be type checked"
  | tooManyArguments given expected => countMessage raw given expected

/-- The words for a cause, when the fault is about the token with text `raw`. -/
def EvaluationCause.message (raw : String) : EvaluationCause → Message
  | unhandled => .citing "" raw " cannot be evaluated"
  | badOperator => .citing "" raw " cannot be applied here"
  | tooManyArguments given expected => countMessage raw given expected

/-- The words for a cause, when the fault is about the token with text `raw`. -/
def Cause.message (raw : String) : Cause → Message
  | parsing cause => cause.message raw
  | typing cause => cause.message raw
  | evaluation cause => cause.message raw
  | tooDeep => .citing "maximum recursion depth exceeded while evaluating " raw ""

/-- The words for a fault. A fault without a token cites an empty text. -/
def Fault.message (f : Fault) : Message :=
  f.cause.message ((f.token.map (·.text)).getD "")

/-! ## Failures -/

/-- Why a statement could not be carried out. -/
inductive Failure where
  | fault (fault : Fault)
  | obstacle (obstacle : Obstacle)
  deriving Repr, Inhabited

/-- Whether a computation failed because there was no room left for it. -/
def ranOut {α : Type} : Except Failure α → Bool
  | .error (.obstacle .tooDeep) => true
  | _ => false

end TexAlgebra
