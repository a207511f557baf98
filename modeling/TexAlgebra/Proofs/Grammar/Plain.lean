import TexAlgebra.Proofs.Grammar.Fixpoint
/-!
# Plain tokens

Numbers, names, operators and parentheses are plain tokens. Where only those are left and no
function is known (`Cursor.Plain`), reading is calm: a name has no subscripts and calls nothing, no
operand is the end of its statement, and what is left behind an operand or behind a chain of
operators is plain again (`Layered.calm`).

The statement is about operands and chains at once, for each of them reads the other. It is proved
by induction on a bound for the tokens that are left.
-/

namespace TexAlgebra

open TexAlgebra.Parser Grammar

/-! ## Nothing but plain tokens -/

/-- Whether a token of this kind is a number, a name, an operator or a parenthesis. -/
def TokenKind.isPlain : TokenKind → Bool
  | .number => true
  | .identifier => true
  | .operator _ => true
  | .parenOpen => true
  | .parenClose => true
  | _ => false

/-- Only plain tokens are left, and no function was defined so far. -/
structure Cursor.Plain (cursor : Cursor) : Prop where
  kinds : ∀ t ∈ cursor.rest, t.kind.isPlain = true
  functions : cursor.functions = []

namespace Layered

variable {context : Context} {cursor after : Cursor}

/-- Fewer plain tokens are plain. -/
theorem plain_of_suffix (plain : cursor.Plain) (left : after.rest <:+ cursor.rest)
    (same : after.functions = []) : after.Plain :=
  ⟨fun t ht => plain.kinds t (left.subset ht), same⟩

/-- Plain tokens without the first of them are plain. -/
theorem plain_drop (plain : cursor.Plain) (n : Nat) :
    Cursor.Plain { cursor with rest := cursor.rest.drop n } :=
  plain_of_suffix plain (List.drop_suffix n _) plain.functions

/-- Where plain tokens are left the next one is plain, or it is the end of the text. -/
theorem isPlain_token (plain : cursor.Plain) (context : Context) :
    (cursor.token context).kind.isPlain = true ∨ (cursor.token context).kind = .endOfText := by
  obtain ⟨rest, functions⟩ := cursor
  cases rest with
  | nil => exact Or.inr rfl
  | cons t rest => exact Or.inl (plain.kinds t List.mem_cons_self)

/-- A plain token is no subscript mark. -/
theorem subscripts_eq_nil (plain : cursor.Plain) (context : Context) :
    full.subscripts context cursor = .done [] cursor := by
  have h := isPlain_token plain context
  have none : (cursor.token context).kind ≠ .subscript := by
    intro eq
    rw [eq] at h
    rcases h with h | h <;> cases h
  rw [full_subscripts]
  simp only [subscriptsStep, sees_bind, none, decide_false, Bool.not_false, if_true, pure_apply]

/-- A name among plain tokens is read alone. -/
theorem name_eq (unknown : ∀ x, context.known x = false) (plain : cursor.Plain) :
    name full context cursor =
      .done (.var (cursor.token context).text [] (some (cursor.token context)))
        { cursor with rest := cursor.rest.drop 1 } := by
  have read : identifier full context cursor =
      .done (.var (cursor.token context).text [] (some (cursor.token context)))
        { cursor with rest := cursor.rest.drop 1 } := by
    rw [identifier, next_bind, bind_of_done (subscripts_eq_nil (plain_drop plain 1) context)]
    rfl
  rw [name, bind_of_done read, sees_bind]
  split
  · rfl
  -- a call would need a name that is known, in the text or before it
  · rw [bind_eq, andThen, isFunction]
    simp only [plain.functions, unknown]
    rfl

theorem rest_ne_nil (h : (cursor.token context).kind ≠ .endOfText) : cursor.rest ≠ [] := by
  intro empty
  apply h
  rw [Cursor.token, empty]
  rfl

theorem length_drop_lt (present : cursor.rest ≠ []) :
    (cursor.rest.drop 1).length < cursor.rest.length := by
  have positive := List.length_pos_iff.2 present
  rw [List.length_drop]
  omega

/-- The token of an operator is read or left, and plain tokens are left behind it. -/
theorem operatorToken_done {t : Token} (plain : cursor.Plain)
    (h : operatorToken context cursor = .done t after) :
    after.Plain ∧ after.rest.length ≤ cursor.rest.length := by
  rw [operatorToken, peek_bind] at h
  cases kind : (cursor.token context).kind with
  | operator op =>
    simp only [kind] at h
    cases h
    exact ⟨plain_drop plain 1, (List.drop_sublist 1 _).length_le⟩
  | _ =>
    simp only [kind] at h
    cases h
    exact ⟨plain, Nat.le_refl _⟩

/-! ## Plain tokens stay plain -/

/-- Wherever fewer than `n` plain tokens are left, nothing ends an expression early, and no function
gets known. -/
structure Calm (context : Context) (n : Nat) : Prop where
  operand : ∀ cursor : Cursor, cursor.Plain → cursor.rest.length < n → ∀ e after,
    full.operand context cursor = .done e after → endsStatement e = false ∧ after.Plain
  operators : ∀ cursor : Cursor, cursor.Plain → cursor.rest.length < n → ∀ lhs least e after,
    endsStatement lhs = false → full.operators lhs least context cursor = .done e after →
      endsStatement e = false ∧ after.Plain

section

variable {n : Nat}

/-- An operand with its operators leaves plain tokens behind. -/
theorem Calm.chain (calm : Calm context n) (plain : cursor.Plain) (few : cursor.rest.length < n)
    {least : Nat} {e : Expr}
    (h : (full.operand >>= fun lhs => full.operators lhs least) context cursor = .done e after) :
    endsStatement e = false ∧ after.Plain := by
  obtain ⟨lhs, middle, read, h⟩ := done_of_bind h
  obtain ⟨ends, plain'⟩ := calm.operand cursor plain few lhs middle read
  have left := (keeps_full.operand.suffix read).length_le
  exact calm.operators middle plain' (by omega) lhs least e after ends h

/-- Behind plain tokens an operand is never the end of an expression. -/
theorem Calm.chain_eq (calm : Calm context n) (plain : cursor.Plain)
    (few : cursor.rest.length < n) {β : Type} (f : Expr → Parser β) (g : Expr → Parser β) :
    (full.operand >>= fun lhs => if endsStatement lhs then g lhs else f lhs) context cursor =
      (full.operand >>= f) context cursor := by
  refine bind_congr_of_done fun e middle read => ?_
  rw [if_neg (by simp [(calm.operand cursor plain few e middle read).1])]

/-- An operand leaves plain tokens behind, given that chains of fewer tokens do. -/
theorem calm_operand (unknown : ∀ x, context.known x = false) (calm : Calm context n)
    (plain : cursor.Plain) (few : cursor.rest.length < n + 1) {e : Expr}
    (h : full.operand context cursor = .done e after) :
    endsStatement e = false ∧ after.Plain := by
  rw [full_operand, operandStep, peek_bind] at h
  have dropped := plain_drop plain 1
  rcases isPlain_token plain context with allowed | ended
  · have present : cursor.rest ≠ [] := by
      refine rest_ne_nil fun ended : (cursor.token context).kind = .endOfText => ?_
      simp [ended, TokenKind.isPlain] at allowed
    have fewer : (cursor.rest.drop 1).length < n := by
      have := length_drop_lt present
      omega
    cases kind : (cursor.token context).kind with
    | number =>
      simp only [kind] at h
      cases h
      exact ⟨rfl, dropped⟩
    | identifier =>
      simp only [kind] at h
      rw [name_eq unknown plain] at h
      cases h
      exact ⟨rfl, dropped⟩
    -- a sign takes an operand and the powers behind it, all of them in the smaller text
    | operator op =>
      simp only [kind] at h
      rw [signed, next_bind] at h
      simp only [kind] at h
      split at h
      · rw [calm.chain_eq dropped fewer] at h
        rw [← bind_assoc] at h
        obtain ⟨e', last, read, h⟩ := done_of_bind h
        have inner := calm.chain dropped fewer read
        cases h
        exact ⟨rfl, inner.2⟩
      · cases h
    | parenOpen =>
      simp only [kind] at h
      rw [parenthesized, next_bind, full_expression] at h
      obtain ⟨e', middle, read, h⟩ := done_of_bind h
      rw [calm.chain_eq dropped fewer] at read
      have inner := calm.chain dropped fewer read
      obtain ⟨t, last, closed, h⟩ := done_of_bind h
      obtain ⟨-, -, -, rfl⟩ := expect_done closed
      cases h
      exact ⟨inner.1, plain_drop inner.2 1⟩
    | parenClose =>
      simp only [kind] at h
      cases h
    | _ => simp [kind, TokenKind.isPlain] at allowed
  · simp only [ended] at h
    cases h

/-- A chain of operators leaves plain tokens behind, given that chains of fewer tokens do. -/
theorem calm_operators (unknown : ∀ x, context.known x = false) (calm : Calm context n)
    (plain : cursor.Plain) (few : cursor.rest.length < n + 1) {lhs e : Expr} {least : Nat}
    (ends : endsStatement lhs = false)
    (h : full.operators lhs least context cursor = .done e after) :
    endsStatement e = false ∧ after.Plain := by
  cases seen : operatorAt? (cursor.token context) with
  | none =>
    rw [full_operators_of_lt (by simp [seen])] at h
    cases h
    exact ⟨ends, plain⟩
  | some op =>
    rcases Nat.lt_or_ge op.precedence least with loose | tight
    · rw [full_operators_of_lt (by simp [seen, loose])] at h
      cases h
      exact ⟨ends, plain⟩
    -- the right operand and what binds tighter come first, then the loop goes on behind them
    -- with the operation, which is never the end of an expression
    · rw [full_operators_of_le seen tight] at h
      obtain ⟨token, first, signed, h⟩ := done_of_bind h
      obtain ⟨plain₁, le⟩ := operatorToken_done plain signed
      obtain ⟨rhs, second, read, h⟩ := done_of_bind h
      have taken := consumes_full_operand _ _ _ _ read
      obtain ⟨ends₂, plain₂⟩ := calm_operand unknown calm plain₁ (by omega) read
      rw [if_neg (by simp [ends₂])] at h
      obtain ⟨rhs', third, read', h⟩ := done_of_bind h
      have left := ((keeps_full.operators _ _).suffix read').length_le
      obtain ⟨-, plain₃⟩ := calm.operators second plain₂ (by omega) _ _ _ _ ends₂ read'
      exact calm.operators third plain₃ (by omega) _ _ _ _ rfl h

/-- Reading is calm for any number of plain tokens. -/
theorem calm (unknown : ∀ x, context.known x = false) (n : Nat) : Calm context n := by
  induction n with
  | zero => exact ⟨fun _ _ few => absurd few (Nat.not_lt_zero _),
      fun _ _ few => absurd few (Nat.not_lt_zero _)⟩
  | succ n ih =>
    constructor
    · intro cursor plain few e after h
      exact calm_operand unknown ih plain few h
    · intro cursor plain few lhs least e after ends h
      exact calm_operators unknown ih plain few ends h

end

end Layered

end TexAlgebra
