import TexAlgebra.Proofs.Grammar.Plain
/-!
# The layers of an expression

The textbook grammar of expressions has a layer for each rank of operators:

* an equation is made of sums with `=` between them;
* a sum is made of products with `+` and `-` between them;
* a product is made of factors with `*`, `/` or nothing between them;
* a factor is made of primaries with `^` between them;
* a primary is a number, a name, an equation in parentheses, or a sign, a primary and the powers
  that follow it.

Every chain groups to the left. `Layered.expression` reads by this grammar, one procedure for each
layer, and knows nothing of precedences. `Parser.expression_eq_layered` says that reading by
precedences comes to the same: the same tree, tokens included, and the same place where it ends, or
the same fault at the same token.
-/

namespace TexAlgebra

open TexAlgebra.Parser Grammar

/-! ## The layers -/

/-- The layers of the grammar, the loosest first. -/
inductive Layer where
  | equation
  | sum
  | product
  | factor
  deriving DecidableEq, Repr

/-- The operator of a layer for which a token stands if it follows a part of the layer. -/
def Layer.operatorAt? : Layer → TokenKind → Option Operator
  | equation, .operator .equals => some .equals
  | sum, .operator .plus => some .plus
  | sum, .operator .minus => some .minus
  | product, .operator .times => some .times
  | product, .operator .juxtaposed => some .juxtaposed
  | product, .operator .divide => some .divide
  | product, .number => some .juxtaposed
  | product, .identifier => some .juxtaposed
  | product, .parenOpen => some .juxtaposed
  | factor, .operator .power => some .power
  | _, _ => none

namespace Layered

/-- The token of the operator at the cursor, which is read unless the operator is left out. -/
def sign : Parser Token := do
  let token ← peek
  match token.kind with
  | .operator _ => next
  | _ => return token.impliedProduct

/-- The operation that `op` makes of `lhs` and the part that follows. -/
def extension (part : Parser Expr) (op : Operator) (lhs : Expr) : Parser Expr := do
  let token ← sign
  let rhs ← part
  return .binary op lhs rhs (some token)

/-- The rest of a chain of a layer that starts with `lhs`, with fewer than `bound` operators. -/
def repeated (layer : Layer) (part : Parser Expr) : (bound : Nat) → (lhs : Expr) → Parser Expr
  | 0, _ => exhausted
  | bound + 1, lhs => do
    let token ← peek
    match layer.operatorAt? token.kind with
    | .none => return lhs
    | some op => do
      let lhs ← extension part op lhs
      repeated layer part bound lhs

/-- A chain of parts with the operators of a layer between them. -/
def chain (layer : Layer) (part : Parser Expr) (bound : Nat) : Parser Expr := do
  let first ← part
  repeated layer part bound first

/-- A factor, given how primaries are read. -/
def factor (primary : Parser Expr) (bound : Nat) : Parser Expr :=
  chain .factor primary bound

/-- A product, given how primaries are read. -/
def product (primary : Parser Expr) (bound : Nat) : Parser Expr :=
  chain .product (factor primary bound) bound

/-- A sum, given how primaries are read. -/
def sum (primary : Parser Expr) (bound : Nat) : Parser Expr :=
  chain .sum (product primary bound) bound

/-- An equation, given how primaries are read. -/
def equation (primary : Parser Expr) (bound : Nat) : Parser Expr :=
  chain .equation (sum primary bound) bound

/-- A primary, given how the equation in parentheses and the powers behind a sign are read. -/
def primaryStep (inner powers : Parser Expr) : Parser Expr := do
  let token ← peek
  match token.kind with
  | .number => do
    let _ ← next
    return .number token.text (some token)
  | .identifier => do
    let _ ← next
    return .var token.text [] (some token)
  | .parenOpen => do
    let _ ← next
    let e ← inner
    let _ ← expect .parenClose ")"
    return e
  | .operator op => do
    let _ ← next
    if op.isSign then
      let e ← powers
      return .unary op e (some token)
    else fail .unexpectedToken token
  | .endOfText => fail .unexpectedEnd token
  | _ => fail .missingExpression token

/-- A primary in which fewer than `bound` signs and parentheses are nested. -/
def primary : (bound : Nat) → Parser Expr
  | 0 => exhausted
  | bound + 1 =>
    primaryStep (equation (primary bound) bound) (chain .factor (primary bound) bound)

/-- Reads an expression layer by layer. Every operator, sign and parenthesis is a token, so what is
left bounds them all. -/
def expression : Parser Expr := fun context cursor =>
  equation (primary (cursor.rest.length + 1)) (cursor.rest.length + 1) context cursor

end Layered

/-! ## Layers and precedences -/

/-- The layer to which an operator belongs. -/
def Operator.layer : Operator → Layer
  | .equals => .equation
  | .plus => .sum
  | .minus => .sum
  | .times => .product
  | .juxtaposed => .product
  | .divide => .product
  | .power => .factor

namespace Layer

/-- The least precedence of an operator that belongs to a layer or to a tighter one. -/
def floor : Layer → Nat
  | equation => 0
  | sum => 11
  | product => 21
  | factor => 41

/-- The least precedence that is too high for an operator of a layer. -/
def ceiling : Layer → Nat
  | equation => 11
  | sum => 21
  | product => 41
  | factor => 61

/-- An operator belongs to the layer whose floor and ceiling are around its precedence. -/
theorem layer_eq_iff (op : Operator) (layer : Layer) :
    op.layer = layer ↔ layer.floor ≤ op.precedence ∧ op.precedence < layer.ceiling := by
  cases layer <;> cases op <;> decide

/-- The ceiling of a layer is right above its operators, for those of one layer have one precedence.
-/
theorem ceiling_layer (op : Operator) : op.layer.ceiling = op.precedence + 1 := by
  cases op <;> rfl

/-- A layer takes the operators of its own rank from all that a token can stand for. -/
theorem operatorAt?_eq_filter (layer : Layer) (token : Token) :
    layer.operatorAt? token.kind = (Grammar.operatorAt? token).filter (·.layer = layer) := by
  obtain ⟨kind, position, text⟩ := token
  cases kind with
  | operator op => cases op <;> cases layer <;> rfl
  | _ => cases layer <;> rfl

end Layer

namespace Layered

variable {context : Context} {cursor after : Cursor}

/-! ## Climbing -/

section

variable (unknown : ∀ x, context.known x = false)

/-- Reads an operand and the operators of precedence `least` or more that follow it. -/
def climb (least : Nat) : Parser Expr := do
  let e ← full.operand
  full.operators e least

/-- No operator of precedence `least` or more stands at the cursor. -/
def Stops (context : Context) (least : Nat) (cursor : Cursor) : Prop :=
  ∀ op, operatorAt? (cursor.token context) = some op → op.precedence < least

/-- Climbing stops at a cursor, or an operator stands there that binds tightly enough. -/
theorem stops_or_tight (context : Context) (least : Nat) (cursor : Cursor) :
    Stops context least cursor ∨
      ∃ op, operatorAt? (cursor.token context) = some op ∧ least ≤ op.precedence := by
  cases seen : operatorAt? (cursor.token context) with
  | none => exact Or.inl (by simp [Stops, seen])
  | some op =>
    rcases Nat.lt_or_ge op.precedence least with loose | tight
    · exact Or.inl (by simp [Stops, seen, loose])
    · exact Or.inr ⟨op, rfl, tight⟩

include unknown

/-- Behind an operand plain tokens are left. -/
theorem plain_of_operand (plain : cursor.Plain) {e : Expr}
    (h : full.operand context cursor = .done e after) : endsStatement e = false ∧ after.Plain :=
  (calm unknown _).operand cursor plain (Nat.lt_succ_self _) e after h

/-- Behind a chain of operators plain tokens are left. -/
theorem plain_of_operators (plain : cursor.Plain) {lhs e : Expr} {least : Nat}
    (ends : endsStatement lhs = false)
    (h : full.operators lhs least context cursor = .done e after) :
    endsStatement e = false ∧ after.Plain :=
  (calm unknown _).operators cursor plain (Nat.lt_succ_self _) lhs least e after ends h

/-- Behind a climb plain tokens are left, and fewer than before. -/
theorem plain_of_climb (plain : cursor.Plain) {e : Expr} {least : Nat}
    (h : climb least context cursor = .done e after) :
    endsStatement e = false ∧ after.Plain ∧ after.rest.length < cursor.rest.length := by
  obtain ⟨lhs, middle, read, h⟩ := done_of_bind h
  have taken := consumes_full_operand _ _ _ _ read
  have left := ((keeps_full.operators _ _).suffix h).length_le
  obtain ⟨ends, plain'⟩ := plain_of_operand unknown plain read
  obtain ⟨ends', plain''⟩ := plain_of_operators unknown plain' ends h
  exact ⟨ends', plain'', by omega⟩

/-- What an extension leaves behind. -/
theorem plain_of_extension (plain : cursor.Plain) {op : Operator} {lhs e : Expr} {least : Nat}
    (h : extension (climb least) op lhs context cursor = .done e after) :
    endsStatement e = false ∧ after.Plain ∧ after.rest.length < cursor.rest.length := by
  obtain ⟨token, first, signed, h⟩ := done_of_bind h
  obtain ⟨plain₁, le⟩ := operatorToken_done plain signed
  obtain ⟨rhs, second, read, h⟩ := done_of_bind h
  obtain ⟨-, plain₂, lt⟩ := plain_of_climb unknown plain₁ read
  cases h
  exact ⟨rfl, plain₂, by omega⟩

/-- One turn of the climbing loop: the operator at the cursor takes the operators that bind tighter
into its right operand. -/
theorem operators_eq_extension (plain : cursor.Plain) {op : Operator} {lhs : Expr} {least : Nat}
    (seen : operatorAt? (cursor.token context) = some op) (tight : least ≤ op.precedence) :
    full.operators lhs least context cursor =
      (extension (climb (op.precedence + 1)) op lhs >>= fun e => full.operators e least)
        context cursor := by
  rw [full_operators_of_le seen tight]
  simp only [extension, climb, bind_assoc, pure_bind]
  refine bind_congr_of_done fun token first signed => ?_
  obtain ⟨plain₁, -⟩ := operatorToken_done plain signed
  exact (calm unknown _).chain_eq plain₁ (Nat.lt_succ_self _) _ _

/-- Climbing ends only where no operator of sufficient precedence follows. -/
theorem stops_of_operators {least : Nat} (n : Nat) :
    ∀ cursor : Cursor, cursor.Plain → cursor.rest.length < n → ∀ lhs e after,
      full.operators lhs least context cursor = .done e after → Stops context least after := by
  induction n with
  | zero =>
    intro cursor _ few
    exact absurd few (Nat.not_lt_zero _)
  | succ n ih =>
    intro cursor plain few lhs e after h
    rcases stops_or_tight context least cursor with stop | ⟨op, seen, tight⟩
    · rw [full_operators_of_lt stop] at h
      cases h
      exact stop
    · rw [operators_eq_extension unknown plain seen tight] at h
      obtain ⟨e', middle, read, h⟩ := done_of_bind h
      obtain ⟨-, plain', lt⟩ := plain_of_extension unknown plain read
      exact ih middle plain' (by omega) e' e after h

/-- Climbing down to a precedence can be interrupted at any higher one. -/
theorem operators_eq_bind {low high : Nat} (le : low ≤ high) (n : Nat) :
    ∀ cursor : Cursor, cursor.Plain → cursor.rest.length < n → ∀ lhs,
      full.operators lhs low context cursor =
        (full.operators lhs high >>= fun e => full.operators e low) context cursor := by
  induction n with
  | zero =>
    intro cursor _ few
    exact absurd few (Nat.not_lt_zero _)
  | succ n ih =>
    intro cursor plain few lhs
    -- either the interrupted loop stops at once, or both loops take the same turn
    rcases stops_or_tight context high cursor with stop | ⟨op, seen, tight⟩
    · rw [bind_of_done (full_operators_of_lt stop)]
    · have right : (full.operators lhs high >>= fun e => full.operators e low) context cursor =
          (extension (climb (op.precedence + 1)) op lhs >>= fun e =>
            full.operators e high >>= fun e => full.operators e low) context cursor := by
        rw [bind_eq, andThen, operators_eq_extension unknown plain seen tight, ← bind_assoc]
        rfl
      rw [right, operators_eq_extension unknown plain seen (Nat.le_trans le tight)]
      refine bind_congr_of_done fun e middle read => ?_
      obtain ⟨-, plain', lt⟩ := plain_of_extension unknown plain read
      exact ih middle plain' (by omega) e

/-- Behind an operand that took its powers nothing binds tighter than a product. -/
theorem climb_power (plain : cursor.Plain) :
    climb Operator.power.precedence context cursor = climb Layer.factor.floor context cursor := by
  refine bind_congr_of_done fun e middle read => ?_
  obtain ⟨-, plain'⟩ := plain_of_operand unknown plain read
  rw [operators_eq_bind unknown (by decide : Layer.factor.floor ≤ Operator.power.precedence) _
    middle plain' (Nat.lt_succ_self _) e]
  -- only a power has the precedence of a power, so the second climb has nothing to take
  have alone : ∀ e' last,
      full.operators e Operator.power.precedence context middle = .done e' last →
        full.operators e' Layer.factor.floor context last = .done e' last := by
    intro e' last h
    have stop := stops_of_operators unknown _ middle plain' (Nat.lt_succ_self _) e e' last h
    refine full_operators_of_lt fun op seen => ?_
    have := stop op seen
    cases op <;> revert this <;> decide
  rw [bind_congr_of_done (g := pure) fun e' last h => alone e' last h, bind_pure]

end

/-! ## The two grammars -/

/-- The part of which the chains of a layer are made. -/
def part (layer : Layer) (primary : Parser Expr) (bound : Nat) : Parser Expr :=
  match layer with
  | .equation => sum primary bound
  | .sum => product primary bound
  | .product => factor primary bound
  | .factor => primary

/-- Wherever fewer than `n` plain tokens are left, the two grammars agree on operands and on the
rest of a chain whose last part is complete. -/
structure Agree (context : Context) (n : Nat) : Prop where
  primaries : ∀ cursor : Cursor, cursor.Plain → cursor.rest.length < n → ∀ bound,
    cursor.rest.length < bound →
      primary bound context cursor = full.operand context cursor
  chains : ∀ cursor : Cursor, cursor.Plain → cursor.rest.length < n →
    ∀ layer bound count lhs, cursor.rest.length < bound → cursor.rest.length < count →
      Stops context layer.ceiling cursor →
        repeated layer (part layer (primary bound) bound) count lhs context cursor =
          full.operators lhs layer.floor context cursor

section

variable {n bound : Nat} (unknown : ∀ x, context.known x = false) (agree : Agree context n)
include unknown agree

/-- A chain of a layer reads what climbing down to its floor reads, given that its parts do so down
to the ceiling. -/
theorem chain_eq_climb (plain : cursor.Plain) (few : cursor.rest.length < n + 1)
    (enough : cursor.rest.length < bound) {layer : Layer}
    (h : part layer (primary bound) bound context cursor = climb layer.ceiling context cursor) :
    chain layer (part layer (primary bound) bound) bound context cursor =
      climb layer.floor context cursor := by
  have first : chain layer (part layer (primary bound) bound) bound context cursor =
      (climb layer.ceiling >>= repeated layer (part layer (primary bound) bound) bound)
        context cursor := by
    rw [chain, bind_eq, bind_eq, andThen, andThen, h]
  -- both sides climb to the ceiling of the layer first; there the chain must agree with the loop
  rw [first, climb, climb, bind_assoc]
  refine bind_congr_of_done fun e middle read => ?_
  obtain ⟨ends, plain'⟩ := plain_of_operand unknown plain read
  have taken := consumes_full_operand _ _ _ _ read
  rw [operators_eq_bind unknown (by cases layer <;> decide : layer.floor ≤ layer.ceiling) _ middle
    plain' (Nat.lt_succ_self _) e]
  refine bind_congr_of_done fun e' last read' => ?_
  obtain ⟨-, plain''⟩ := plain_of_operators unknown plain' ends read'
  have left := ((keeps_full.operators _ _).suffix read').length_le
  have stop := stops_of_operators unknown _ middle plain' (Nat.lt_succ_self _) e e' last read'
  exact agree.chains last plain'' (by omega) layer bound bound e' (by omega) (by omega) stop

/-- A part of a layer reads what climbing down to the ceiling reads. -/
theorem part_eq_climb (plain : cursor.Plain) (few : cursor.rest.length < n + 1)
    (enough : cursor.rest.length < bound)
    (h : primary bound context cursor = full.operand context cursor) (layer : Layer) :
    part layer (primary bound) bound context cursor = climb layer.ceiling context cursor := by
  -- the chains of each layer are the parts of the next looser one
  have factor : part .factor (primary bound) bound context cursor =
      climb Layer.factor.ceiling context cursor := by
    have alone : climb Layer.factor.ceiling = full.operand := by
      have stop : ∀ e, full.operators e Layer.factor.ceiling = pure e := by
        intro e
        funext context cursor
        refine full_operators_of_lt fun op _ => ?_
        cases op <;> decide
      rw [climb]
      simp only [stop, bind_pure]
    rw [alone]
    exact h
  have product : part .product (primary bound) bound context cursor =
      climb Layer.product.ceiling context cursor :=
    chain_eq_climb unknown agree plain few enough factor
  have sum : part .sum (primary bound) bound context cursor =
      climb Layer.sum.ceiling context cursor :=
    chain_eq_climb unknown agree plain few enough product
  have equation : part .equation (primary bound) bound context cursor =
      climb Layer.equation.ceiling context cursor :=
    chain_eq_climb unknown agree plain few enough sum
  cases layer with
  | equation => exact equation
  | sum => exact sum
  | product => exact product
  | factor => exact factor

/-- A primary is an operand, given that the grammars agree on fewer tokens. -/
theorem primary_eq_operand (plain : cursor.Plain) (few : cursor.rest.length < n + 1)
    (enough : cursor.rest.length < bound) :
    primary bound context cursor = full.operand context cursor := by
  obtain ⟨bound, rfl⟩ := Nat.exists_eq_add_of_lt enough
  generalize cursor.rest.length + bound = bound at enough ⊢
  rw [primary, primaryStep, peek_bind, full_operand, operandStep, peek_bind]
  have dropped := plain_drop plain 1
  rcases isPlain_token plain context with allowed | ended
  · have present : cursor.rest ≠ [] := by
      refine rest_ne_nil fun ended : (cursor.token context).kind = .endOfText => ?_
      simp [ended, TokenKind.isPlain] at allowed
    have fewer := length_drop_lt present
    have agreed : primary bound context { cursor with rest := cursor.rest.drop 1 } =
        full.operand context { cursor with rest := cursor.rest.drop 1 } :=
      agree.primaries _ dropped (by simp only; omega) bound (by simp only; omega)
    have parts :=
      part_eq_climb unknown agree dropped (by simp only; omega) (by simp only; omega) agreed
    have chains : ∀ layer, _ := fun layer =>
      chain_eq_climb unknown agree dropped (by simp only; omega) (by simp only; omega) (parts layer)
    cases kind : (cursor.token context).kind with
    | number => rfl
    | identifier =>
      show _ = name full context cursor
      rw [name_eq unknown plain]
      rfl
    | operator op =>
      show _ = signed full full.operand context cursor
      rw [signed, next_bind]
      simp only [kind]
      rw [next_bind]
      split
      -- behind a sign the loop climbs to the powers, the layer reads a chain of factors
      · rw [(calm unknown _).chain_eq dropped (Nat.lt_succ_self _), ← bind_assoc]
        refine bind_congr_left ?_ _
        exact (chains .factor).trans (climb_power unknown dropped).symm
      · rfl
    | parenOpen =>
      show _ = parenthesized full context cursor
      rw [parenthesized, next_bind]
      dsimp only
      rw [next_bind, full_expression]
      refine bind_congr_left ?_ _
      rw [(calm unknown _).chain_eq dropped (Nat.lt_succ_self _)]
      exact chains .equation
    | parenClose => rfl
    | _ => simp [kind, TokenKind.isPlain] at allowed
  · simp only [ended]

/-- The rest of a chain is read by the climbing loop, given that the grammars agree on fewer tokens.
-/
theorem repeated_eq_operators (plain : cursor.Plain) (few : cursor.rest.length < n + 1)
    {layer : Layer} {count : Nat} {lhs : Expr} (enough : cursor.rest.length < bound)
    (turns : cursor.rest.length < count) (stop : Stops context layer.ceiling cursor) :
    repeated layer (part layer (primary bound) bound) count lhs context cursor =
      full.operators lhs layer.floor context cursor := by
  obtain ⟨count, rfl⟩ := Nat.exists_eq_add_of_lt turns
  rw [repeated, peek_bind, Layer.operatorAt?_eq_filter]
  -- no operator below the floor continues the loop, and `stop` rules out those above the ceiling:
  -- what is left belongs to the layer
  rcases stops_or_tight context layer.floor cursor with loose | ⟨op, seen, tight⟩
  · rw [full_operators_of_lt loose]
    cases seen : operatorAt? (cursor.token context) with
    | none => rfl
    | some op =>
      have other : op.layer ≠ layer := by
        intro same
        have := (Layer.layer_eq_iff op layer).1 same
        have := loose op seen
        omega
      simp only [Option.filter_some, other, decide_false, Bool.false_eq_true, if_false]
      rfl
  · have same : op.layer = layer := (Layer.layer_eq_iff op layer).2 ⟨tight, stop op seen⟩
    have next : op.precedence + 1 = layer.ceiling := by
      rw [← same, Layer.ceiling_layer]
    simp only [seen, Option.filter_some, same, decide_true, if_true]
    rw [operators_eq_extension unknown plain seen tight, next]
    have parts : extension (part layer (primary bound) bound) op lhs context cursor =
        extension (climb layer.ceiling) op lhs context cursor := by
      refine bind_congr_of_done fun token first signed => bind_congr_left ?_ _
      obtain ⟨plain₁, le⟩ := operatorToken_done plain signed
      have agreed := primary_eq_operand unknown agree plain₁ (by omega) (by omega : _ < bound)
      exact part_eq_climb unknown agree plain₁ (by omega) (by omega) agreed layer
    rw [bind_congr_left parts]
    refine bind_congr_of_done fun e middle read => ?_
    obtain ⟨-, plain', lt⟩ := plain_of_extension unknown plain read
    -- the part that was just read climbed to the ceiling, so the chain goes on behind it
    refine agree.chains middle plain' (by omega) layer bound _ e (by omega) (by omega) ?_
    obtain ⟨token, first, signed, read⟩ := done_of_bind read
    obtain ⟨plain₁, -⟩ := operatorToken_done plain signed
    obtain ⟨rhs, second, read, last⟩ := done_of_bind read
    cases last
    obtain ⟨lhs', third, taken, climbed⟩ := done_of_bind read
    obtain ⟨-, plain₃⟩ := plain_of_operand unknown plain₁ taken
    exact stops_of_operators unknown _ third plain₃ (Nat.lt_succ_self _) _ _ _ climbed

end

/-- The grammars agree on any number of plain tokens. The induction is on a bound for it. -/
theorem agree (unknown : ∀ x, context.known x = false) (n : Nat) : Agree context n := by
  induction n with
  | zero => exact ⟨fun _ _ few => absurd few (Nat.not_lt_zero _),
      fun _ _ few => absurd few (Nat.not_lt_zero _)⟩
  | succ n ih =>
    constructor
    · intro cursor plain few bound enough
      exact primary_eq_operand unknown ih plain few enough
    · intro cursor plain few layer bound count lhs enough turns stop
      exact repeated_eq_operators unknown ih plain few enough turns stop

end Layered

/-- Reading by precedences and reading by layers come to the same wherever no function is known and
only numbers, names, operators and parentheses are left, and neither of the two gives up. -/
theorem Parser.expression_eq_layered {context : Context} {cursor : Cursor}
    (unknown : ∀ x, context.known x = false) (plain : cursor.Plain) :
    Parser.expression context cursor = Layered.expression context cursor ∧
      Layered.expression context cursor ≠ .exhausted := by
  have agree := Layered.agree unknown (cursor.rest.length + 1)
  have primary := agree.primaries cursor plain (Nat.lt_succ_self _) _ (Nat.lt_succ_self _)
  have parts := Layered.part_eq_climb unknown agree plain (by omega) (by omega) primary
  have layered := Layered.chain_eq_climb unknown agree plain (by omega) (by omega) (parts .equation)
  have same : Parser.expression context cursor = Layered.expression context cursor := by
    rw [Parser.expression_eq_full, full_expression,
      (Layered.calm unknown _).chain_eq plain (Nat.lt_succ_self _)]
    exact layered.symm
  exact ⟨same, same ▸ Parser.expression_ne_exhausted context cursor⟩

/-- The two ways of reading agree on `2x^-y^(z`, which lacks a parenthesis. -/
theorem Parser.expression_eq_layered_unclosed :
    let token (kind : TokenKind) (column : Nat) (text : String) : Token :=
      ⟨kind, ⟨1, column, column⟩, text⟩
    let cursor : Cursor := ⟨[token .number 0 "2", token .identifier 1 "x",
      token (.operator .power) 2 "^", token (.operator .minus) 3 "-", token .identifier 4 "y",
      token (.operator .power) 5 "^", token .parenOpen 6 "(", token .identifier 7 "z"], []⟩
    let context : Context := ⟨⟨1, 8, 8⟩, fun _ => false⟩
    Parser.expression context cursor = Layered.expression context cursor ∧
      Layered.expression context cursor ≠ .exhausted :=
  Parser.expression_eq_layered (fun _ => rfl) ⟨by decide, rfl⟩

end TexAlgebra
