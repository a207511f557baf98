import TexAlgebra.Parser
/-!
# The grammar of formulas

An expression is a chain of operands with operators between them, where two operands side by side
are a product. Operators are read by precedence: `operators lhs least` continues an expression with
the operators of precedence `least` or more. An operand is a number, a variable with subscripts, the
call of a function, an expression in parentheses, an operand with a sign, or a control word with
what belongs to it. A sign takes in the powers that follow it. Bindings, functions and lists end the
expression that they stand in.

All recursion goes through `Grammar`, a record of the parsers for the parts that contain themselves.
`Grammar.step` builds these parsers from such a record, and uses it only after a token has been
read. So a grammar that is built once more than there are tokens reads any text.
-/

namespace TexAlgebra

/-- The parsers for the parts of a formula that can contain themselves. -/
structure Grammar where
  operand : Parser Expr
  expression : Parser Expr
  /-- The rest of an expression that starts with `lhs`, as far as its operators have the precedence
  `least` or more. -/
  operators (lhs : Expr) (least : Nat) : Parser Expr
  /-- The subscripts that follow a name. -/
  subscripts : Parser (List Expr)
  /-- The arguments of a call, up to its closing parenthesis. -/
  arguments : Parser (List Expr)
  /-- The expressions of a group, up to its closing brace. They may have commas between them if
  `commas`. -/
  items (commas : Bool) : Parser (List Expr)
  /-- The groups that follow a control word. -/
  groups : Parser (List Expr)
  /-- The parameters of a function, up to its closing parenthesis. -/
  parameters : Parser (List Expr)
  /-- The statements of a list, up to the end of the list with a given name. -/
  statements (opening : Token) (name : String) : Parser (List Expr)

namespace Grammar

open TexAlgebra.Parser

/-- The grammar that reads nothing. -/
def none : Grammar where
  operand := exhausted
  expression := exhausted
  operators _ _ := exhausted
  subscripts := exhausted
  arguments := exhausted
  items _ := exhausted
  groups := exhausted
  parameters := exhausted
  statements _ _ := exhausted

/-- Whether an expression ends the expression that it stands in. -/
def endsStatement : Expr → Bool
  | .binding _ _ _ => true
  | .function _ _ _ _ _ _ _ => true
  | .block _ _ _ _ => true
  | _ => false

/-- The operator that `token` stands for if it follows an operand: a token that starts an operand
stands for the product with it. -/
def operatorAt? (token : Token) : Option Operator :=
  match token.kind with
  | .operator op => some op
  | .identifier => some .juxtaposed
  | .number => some .juxtaposed
  | .parenOpen => some .juxtaposed
  | _ => .none

/-- Whether the operator at `token` binds tighter than `op`, so that it takes the operand between.
-/
def bindsTighter (op : Operator) (token : Token) : Bool :=
  match operatorAt? token with
  | some tighter => op.precedence < tighter.precedence
  | .none => false

/-! ## Groups kept as text -/

/-- The texts of the groups at the cursor, each read up to its first closing brace. -/
def readTexts (ending : Position) (rest : List Token) :
    Except ParseFault (List String) × List Token :=
  match rest with
  | [] => (.ok [], [])
  | token :: rest =>
    if token.kind = .braceOpen then
      let inside := rest.takeWhile (·.kind ≠ .braceClose)
      let after := rest.drop inside.length
      if after = [] then (.error ⟨.unexpectedEnd, .ending ending⟩, [])
      else
        let (later, after) := readTexts ending (after.drop 1)
        (later.map (String.join (inside.map (·.text)) :: ·), after)
    else (.ok [], token :: rest)
termination_by rest.length
decreasing_by simp only [List.length_drop, List.length_cons]; omega

/-- The texts of the groups at the cursor. -/
def texts : Parser (List String) := fun context cursor =>
  match readTexts context.ending cursor.rest with
  | (.ok texts, rest) => .done texts { cursor with rest := rest }
  | (.error fault, rest) => .failed fault { cursor with rest := rest }

/-! ## Names -/

variable (again : Grammar)

/-- A variable with its subscripts. -/
def identifier : Parser Expr := do
  let token ← next
  let subscripts ← again.subscripts
  return .var token.text subscripts (some token)

/-- The subscripts that follow a name: each is a name, a number or a group. -/
def subscriptsStep : Parser (List Expr) := do
  if !(← sees .subscript) then return []
  let _ ← next
  let following ← peek
  match following.kind with
  | .braceOpen => do
    let _ ← next
    let items ← again.items true
    return items ++ (← again.subscripts)
  | .identifier => do
    let _ ← next
    return .var following.text [] (some following) :: (← again.subscripts)
  | .number => do
    let _ ← next
    return .number following.text (some following) :: (← again.subscripts)
  | .endOfText => fail .unexpectedEnd following
  | _ => fail .badSubscript following

/-! ## Groups -/

/-- A group in braces. -/
def braced (commas : Bool) : Parser Expr := do
  let token ← expect .braceOpen "\x7b"
  return .group (← again.items commas) (some token)

/-- The groups that follow a control word. -/
def groupsStep : Parser (List Expr) := do
  if !(← sees .braceOpen) then return []
  let token ← next
  let items ← again.items false
  return .group items (some token) :: (← again.groups)

/-! ## Control words -/

/-- A fraction: a quotient of two groups. -/
def fraction (token : Token) : Parser Expr := do
  match ← again.groups with
  | [a, b] =>
    match a.unwrap?, b.unwrap? with
    | some numerator, some denominator =>
      return .binary .divide numerator denominator (some token)
    | _, _ => fail .wrongGroupCount token
  | _ => fail .wrongGroupCount token

/-- Takes note of a name that is bound to a function. -/
def noteFunction (target value : Expr) : Parser Unit :=
  if value.isFunction then define target else return ()

/-- The binding of the value in a second group to the variable in a first one. -/
def binding (token : Token) : Parser Expr := do
  match ← again.groups with
  | [a, b] =>
    match a.unwrap?.filter Expr.isVariable, b.unwrap? with
    | .none, _ => fail .badBindingTarget token
    | some _, .none => fail .badBindingValue token
    | some target, some value =>
      if value.isGroup then fail .badBindingValue token
      else
        noteFunction target value
        return .binding target value (some token)
  | _ => fail .wrongGroupCount token

/-- The name and the parameters of a function, with the token of the name. -/
def prototype : Parser (Expr × List Expr × Token) := do
  let token ← peek
  if token.kind = .endOfText then fail .unexpectedEnd token
  else if token.kind ≠ .identifier then fail .missingFunctionName token
  else
    let name ← identifier again
    let _ ← expect .parenOpen "("
    return (name, ← again.parameters, token)

/-- The parameters of a function, up to its closing parenthesis. -/
def parametersStep : Parser (List Expr) := do
  if !(← sees .identifier) then
    let _ ← expect .parenClose ")"
    return []
  let parameter ← identifier again
  let separator ← next
  match separator.kind with
  | .parenClose => return [parameter]
  | .comma => return parameter :: (← again.parameters)
  | _ => fail .badArgumentList separator

/-- The definition of a function. Its name is noted before its body is read, so that the function
can call itself. -/
def function (token : Token) : Parser Expr := do
  let _ ← expect .braceOpen "\x7b"
  let (name, parameters, head) ← prototype again
  let _ ← expect .braceClose "\x7d"
  define name
  match (← braced again false).unwrap? with
  | some body =>
    if body.isGroup then fail .badFunctionBody token
    else return .function .defined name parameters (some head) body [] (some token)
  | .none => fail .badFunctionBody token

/-- A list between its two control words. -/
def block (token : Token) : Parser Expr := do
  match ← texts with
  | [] => fail .badArgumentList token
  | name :: arguments =>
    return .block name (name :: arguments) (← again.statements token name) (some token)

/-- What belongs to a control word. -/
def afterControlWord (token : Token) : Parser Expr :=
  match token.text with
  | "\\begin" => block again token
  | "\\func" => function again token
  | "\\frac" => fraction again token
  | "\\let" => binding again token
  | name => do return .command name (← again.groups) (some token)

/-- A control word with what belongs to it. The end of a list does not stand by itself. -/
def controlWord : Parser Expr := do
  let token ← peek
  if token.text = "\\end" then fail .unexpectedToken token
  else
    let _ ← next
    afterControlWord again token

/-! ## Operands -/

/-- An expression in parentheses. -/
def parenthesized : Parser Expr := do
  let _ ← next
  let e ← again.expression
  let _ ← expect .parenClose ")"
  return e

/-- The arguments of a call, parentheses included. -/
def callArguments : Parser (List Expr) := do
  let _ ← expect .parenOpen "("
  if ← sees .parenClose then
    let _ ← next
    return []
  again.arguments

/-- A variable, or the call of a function. -/
def name : Parser Expr := do
  let x ← identifier again
  if !(← sees .parenOpen) then return x
  if !(← isFunction x) then return x
  return .call x (← callArguments again) x.token

/-- A number. -/
def number : Parser Expr := do
  let token ← next
  return .number token.text (some token)

/-- An operand with the sign before it. The sign takes in the powers that follow the operand. -/
def signed (operand : Parser Expr) : Parser Expr := do
  let token ← next
  match token.kind with
  | .operator op =>
    if op.isSign then
      let e ← operand
      if endsStatement e then return .unary op e (some token)
      return .unary op (← again.operators e Operator.power.precedence) (some token)
    else fail .unexpectedToken token
  | _ => fail .unexpectedToken token

/-- An operand: what can stand on either side of an operator. -/
def operandStep : Parser Expr := do
  let token ← peek
  match token.kind with
  | .controlWord => controlWord again
  | .operator _ => signed again again.operand
  | .identifier => name again
  | .number => number
  | .parenOpen => parenthesized again
  | .other => fail .undefinedOperator token
  | .endOfText => fail .unexpectedEnd token
  | _ => fail .missingExpression token

/-! ## Expressions -/

/-- The token of the operator at the cursor. A product without a sign has the token that is implied
in front of its second factor. -/
def operatorToken : Parser Token := do
  let token ← peek
  match token.kind with
  | .operator _ => next
  | _ => return token.impliedProduct

/-- The right operand of `op` that starts with `rhs`: what follows belongs to it as far as it binds
tighter. -/
def rightOperand (op : Operator) (rhs : Expr) : Parser Expr := do
  let token ← peek
  if bindsTighter op token then again.operators rhs (op.precedence + 1) else return rhs

/-- The rest of an expression that starts with `lhs`, where operators of the same precedence group
to the left. -/
def operatorsStep (lhs : Expr) (least : Nat) : Parser Expr := do
  let token ← peek
  match operatorAt? token with
  | .none => return lhs
  | some op =>
    if op.precedence < least then return lhs
    else
      let token ← operatorToken
      let rhs ← operandStep again
      if endsStatement rhs then return .binary op lhs rhs (some token)
      else
        let rhs ← rightOperand again op rhs
        again.operators (.binary op lhs rhs (some token)) least

/-- An operand and the operators that follow it. -/
def expressionStep : Parser Expr := do
  let e ← operandStep again
  if endsStatement e then return e
  operatorsStep again e 0

/-! ## Lists of expressions -/

/-- The arguments of a call, up to its closing parenthesis. -/
def argumentsStep : Parser (List Expr) := do
  let e ← expressionStep again
  let separator ← next
  match separator.kind with
  | .parenClose => return [e]
  | .comma => return e :: (← again.arguments)
  | .endOfText => fail .unexpectedEnd separator
  | _ => fail .badArgumentList separator

/-- The expressions of a group, up to its closing brace. -/
def itemsStep (commas : Bool) : Parser (List Expr) := do
  skipEnds
  let following ← peek
  if following.kind = .braceClose then
    let _ ← next
    return []
  else if following.kind = .endOfText then fail .unexpectedEnd following
  else if commas && following.kind = .comma then
    let _ ← next
    again.items commas
  else
    let e ← expressionStep again
    return e :: (← again.items commas)

/-- The end of a list, which has to name it. -/
def closing (name : String) : Parser (List Expr) := do
  let token ← next
  if (← texts).head? = some name then return [] else fail .mismatchedName token

/-- The statements of a list, up to its end. -/
def statementsStep (opening : Token) (name : String) : Parser (List Expr) := do
  skipEnds
  let following ← peek
  if following.kind = .controlWord && following.text = "\\end" then closing name
  else if following.kind = .endOfText then fail .unclosedBlock opening
  else
    let e ← expressionStep again
    return e :: (← again.statements opening name)

/-! ## The grammar -/

/-- The grammar whose recursive parts are read with `again`. -/
def step : Grammar where
  operand := operandStep again
  expression := expressionStep again
  operators := operatorsStep again
  subscripts := subscriptsStep again
  arguments := argumentsStep again
  items := itemsStep again
  groups := groupsStep again
  parameters := parametersStep again
  statements := statementsStep again

/-- The grammar `g ()`, which is not built before it is used. -/
def delayed (g : Unit → Grammar) : Grammar where
  operand context cursor := (g ()).operand context cursor
  expression context cursor := (g ()).expression context cursor
  operators lhs least context cursor := (g ()).operators lhs least context cursor
  subscripts context cursor := (g ()).subscripts context cursor
  arguments context cursor := (g ()).arguments context cursor
  items commas context cursor := (g ()).items commas context cursor
  groups context cursor := (g ()).groups context cursor
  parameters context cursor := (g ()).parameters context cursor
  statements opening name context cursor := (g ()).statements opening name context cursor

/-- The grammar in which at most `depth` parts are nested in one another or follow one another. -/
def ofDepth : Nat → Grammar
  | 0 => none
  | depth + 1 => delayed fun _ => step (ofDepth depth)

end Grammar

/-- Reads an expression. Every token adds at most one level of recursion. -/
def Parser.expression : Parser Expr := fun context cursor =>
  (Grammar.ofDepth (cursor.rest.length + 1)).expression context cursor

end TexAlgebra
