import TexAlgebra.Proofs.Numeral.Legible
import TexAlgebra.Proofs.Printer.RoundTrip
import TexAlgebra.Proofs.Restating
/-!
# Reading back what was written with signs

An expression with signs, or with numbers that are written with a sign, is read back as a
restatement of it (`Expr.restates_parse_tex`). It need not be read as the expression itself: a
negative number is read as a number under a sign, and sums and products are regrouped to the left.

A sign takes in every power behind its operand. The parentheses of `tex` take no account of this at
the base of a power: they are put around a sign there, but neither around a negative number nor
around a power with a sign in its exponent. The text of such a power is read as something else.
-/

namespace TexAlgebra

open Lexer Grammar Printer

namespace Expr

/-! ## Expressions with signs -/

/-- The expressions of numbers that can be written out, names, signs and operators. -/
inductive IsArithmetic : Expr → Prop
  | number {text : String} {token : Option Token} (legible : Numeral.IsLegible text) :
    IsArithmetic (.number text token)
  | var {name : String} {subscripts : List Expr} {token : Option Token} (letters : IsName name)
      (all : ∀ e ∈ subscripts, IsArithmetic e) : IsArithmetic (.var name subscripts token)
  | unary {op : Operator} {operand : Expr} {token : Option Token} (sign : op.isSign = true)
      (inner : IsArithmetic operand) : IsArithmetic (.unary op operand token)
  | binary {op : Operator} {lhs rhs : Expr} {token : Option Token} (left : IsArithmetic lhs)
      (right : IsArithmetic rhs) : IsArithmetic (.binary op lhs rhs token)

/-- Whether the text of an expression is a sign with an operand. -/
def startsSigned : Expr → Bool
  | number text _ => Numeral.isSigned text
  | unary _ _ _ => true
  | _ => false

/-- Whether an expression that is the base of a power is written without parentheses although a sign
in its text takes in the power. -/
def takesPower : Expr → Bool
  | number text _ => Numeral.isSigned text
  | binary .power _ rhs _ => rhs.startsSigned
  | _ => false

/-- Whether no letters of two factors meet and no base takes in its power. -/
inductive IsClear (style : Style) : Expr → Prop
  | number {text : String} {token : Option Token} : IsClear style (.number text token)
  | var {name : String} {subscripts : List Expr} {token : Option Token}
      (all : ∀ e ∈ subscripts, IsClear style e) : IsClear style (.var name subscripts token)
  | unary {op : Operator} {operand : Expr} {token : Option Token} (inner : IsClear style operand) :
    IsClear style (.unary op operand token)
  | binary {op : Operator} {lhs rhs : Expr} {token : Option Token} (left : IsClear style lhs)
      (right : IsClear style rhs) (apart : op = .juxtaposed → lettersMeet style lhs rhs = false)
      (base : op = .power → lhs.takesPower = false) : IsClear style (.binary op lhs rhs token)

/-- A power is clear if its base takes in no power. -/
theorem IsClear.power {style : Style} {lhs rhs : Expr} {token : Option Token}
    (left : IsClear style lhs) (right : IsClear style rhs) (base : lhs.takesPower = false) :
    IsClear style (.binary .power lhs rhs token) :=
  .binary left right (fun product => absurd product (by decide)) fun _ => base

/-- A difference is clear if its operands are. -/
theorem IsClear.difference {style : Style} {lhs rhs : Expr} {token : Option Token}
    (left : IsClear style lhs) (right : IsClear style rhs) :
    IsClear style (.binary .minus lhs rhs token) :=
  .binary left right (fun product => absurd product (by decide))
    fun power => absurd power (by decide)

end Expr

namespace Printer

open Expr

/-! ## What may stand around an expression -/

/-- The precedence of the tightest operators that may follow the text of an expression. -/
def hold (style : Style) (e : Expr) : Nat :=
  if e.startsSigned || e.takesPower then signPrecedence else tightness style e

/-- The precedence of the tightest operators that may precede the text of an expression. A sign may
follow any operator. -/
def reach (style : Style) : Expr → Nat
  | .unary _ _ _ => tightest
  | e => tightness style e

variable {style : Style} {op : Operator} {lhs rhs e : Expr} {token : Option Token}

/-- No operator binds tighter than the power. -/
theorem precedence_le_power (op : Operator) : op.precedence ≤ Operator.power.precedence := by
  cases op <;> decide

/-- Every operator but the power binds less tightly than a sign. -/
theorem precedence_lt_sign (other : op ≠ .power) : op.precedence < signPrecedence := by
  cases op with
  | power => exact absurd rfl other
  | _ => decide

/-- A sign has a precedence of its own. -/
theorem sign_ne_precedence (op : Operator) : signPrecedence ≠ op.precedence := by
  cases op <;> decide

/-- What needs no parentheses at all binds tighter than every operator. -/
theorem tightest_ne_precedence (op : Operator) : tightest ≠ op.precedence := by
  cases op <;> decide

/-- No power may be regrouped. -/
theorem ne_power_of_precedence_eq {outer : Operator} (associative : outer.isAssociative = true)
    (same : op.precedence = outer.precedence) : op ≠ .power := by
  rintro rfl
  cases outer with
  | plus | times | juxtaposed => exact absurd same (by decide)
  | _ => cases associative

/-- What may precede a text binds as tightly as the text at least. -/
theorem tightness_le_reach (style : Style) (e : Expr) : tightness style e ≤ reach style e := by
  cases e with
  | unary =>
    show signPrecedence ≤ tightest
    decide
  | _ => exact le_rfl

/-- A left operand without parentheses may be followed by its operator. -/
theorem le_hold_of_wrapsLeft (base : op = .power → lhs.takesPower = false)
    (loose : wrapsLeft style op lhs = false) :
    op.precedence ≤ hold style lhs ∧ op.precedence ≤ reach style lhs := by
  have tight := le_tightness_of_wrapsLeft loose
  refine ⟨?_, tight.trans (tightness_le_reach style lhs)⟩
  rw [hold]
  split
  · next signed =>
    by_cases power : op = .power
    · subst power
      rw [base rfl, Bool.or_false] at signed
      -- a number would take in the power, and the table puts a sign into parentheses
      cases lhs with
      | number text t => exact absurd ((base rfl).symm.trans signed) Bool.false_ne_true
      | unary sign operand t =>
        exact absurd tight (show ¬ Operator.power.precedence ≤ signPrecedence by decide)
      | _ => cases signed
    · exact (precedence_lt_sign power).le
  · exact tight

/-- Behind an operation nothing may follow that binds tighter than its operator. -/
theorem hold_binary_le (flat : tightness style (.binary op lhs rhs token) = op.precedence) :
    hold style (.binary op lhs rhs token) ≤ op.precedence := by
  rw [hold, flat]
  split
  · next signed =>
    cases op with
    | power => decide
    | _ => cases signed
  · exact le_rfl

/-- Behind an operation that is no power whatever binds less tightly or alike may follow. -/
theorem hold_binary_eq (flat : tightness style (.binary op lhs rhs token) = op.precedence)
    (other : op ≠ .power) : hold style (.binary op lhs rhs token) = op.precedence := by
  rw [hold, flat]
  cases op with
  | power => exact absurd rfl other
  | _ => rfl

/-- A right operand without parentheses binds tighter than its operator and may be followed by what
may follow the operation, unless it is written as if it were regrouped. -/
theorem lt_reach_of_wrapsRight
    (flat : tightness style (.binary op lhs rhs token) = op.precedence)
    (loose : wrapsRight style op rhs = false) :
    op.precedence < reach style rhs ∧ hold style (.binary op lhs rhs token) ≤ hold style rhs ∨
      op.isAssociative = true ∧ tightness style rhs = op.precedence := by
  have signed : rhs.startsSigned = true →
      hold style (.binary op lhs rhs token) ≤ hold style rhs := by
    intro starts
    have stop : hold style rhs = signPrecedence := by
      rw [hold, starts, Bool.true_or, if_pos rfl]
    rw [stop]
    by_cases power : op = .power
    · subst power
      rw [hold, show takesPower (.binary .power lhs rhs token) = true from starts, Bool.or_true,
        if_pos rfl]
    · exact (hold_binary_le flat).trans (precedence_lt_sign power).le
  -- a sign in front of the operand binds tighter than every operator
  by_cases unary : ∃ sign operand t, rhs = .unary sign operand t
  · obtain ⟨sign, operand, t, rfl⟩ := unary
    have tight : Operator.power.precedence < tightest := by decide
    exact .inl ⟨(precedence_le_power op).trans_lt tight, signed rfl⟩
  -- for all others it depends on the precedences whether there are parentheses
  have table : (if tightness style rhs = op.precedence then !(op.isAssociative && regroups rhs)
      else decide (tightness style rhs < op.precedence)) = false := by
    cases rhs with
    | unary sign operand t => exact absurd ⟨sign, operand, t, rfl⟩ unary
    | _ => exact loose
  split at table
  · next same =>
    rw [Bool.not_eq_false', Bool.and_eq_true] at table
    exact .inr ⟨table.1, same⟩
  · next different =>
    have tight : op.precedence < tightness style rhs := by
      have := of_decide_eq_false table
      omega
    refine .inl ⟨tight.trans_le (tightness_le_reach style rhs), ?_⟩
    by_cases starts : rhs.startsSigned = true
    · exact signed starts
    by_cases takes : rhs.takesPower = true
    · -- the right operand is a power, which as an exponent would stand in parentheses
      have other : op ≠ .power := by
        rintro rfl
        cases rhs with
        | number => exact starts takes
        | binary inner l r t =>
          cases inner with
          | power => exact absurd tight (lt_irrefl _)
          | _ => cases takes
        | _ => cases takes
      have stop : hold style rhs = signPrecedence := by
        rw [hold, takes, Bool.or_true, if_pos rfl]
      rw [stop]
      exact (hold_binary_le flat).trans (precedence_lt_sign other).le
    · rw [Bool.not_eq_true] at starts takes
      have free : hold style rhs = tightness style rhs := by
        rw [hold, starts, takes]
        rfl
      rw [free]
      exact (hold_binary_le flat).trans tight.le

/-! ## Texts that are read as restatements -/

/-- Whether `grow` makes of every expression a restatement of the operation with that expression on
the left. -/
def GrowsBy (grow : Expr → Expr) (op : Operator) (rhs : Expr) : Prop :=
  ∀ l' l : Expr, l'.Restates l → (grow l').Restates (.binary op l rhs none)

/-- Whether `text` is read as a restatement of `e`, also behind an associative operator that binds
exactly as tightly. -/
structure Prints (style : Style) (e : Expr) (text : String) : Prop where
  reads : ∃ r gs, r.Restates e ∧ Writes r (hold style e) (reach style e) text gs
  regroups : ∀ op : Operator, op.isAssociative = true → tightness style e = op.precedence →
    ∃ grow gs, GrowsBy grow op e ∧ Joins grow op op.precedence text gs

variable {a b text piece : String} {gs : List Glyph} {glue : List Glyph} {w w' : Bool} {p : Nat}

/-- What binds as tightly as no operator does is not regrouped. -/
theorem prints_of_ne {r : Expr} (other : ∀ op : Operator, tightness style e ≠ op.precedence)
    (restates : r.Restates e) (writes : Writes r (hold style e) (reach style e) text gs) :
    Prints style e text :=
  ⟨⟨r, gs, restates, writes⟩, fun op _ same => absurd same (other op)⟩

/-- The left operand is read as a restatement of itself, in parentheses where its text would be torn
apart. -/
theorem Prints.left (left : Prints style lhs a) (base : op = .power → lhs.takesPower = false)
    (loose : w = false → wrapsLeft style op lhs = false) :
    ∃ r gs, r.Restates lhs ∧ Writes r op.precedence op.precedence (wrapped w a) gs := by
  obtain ⟨r, gs, restates, writes⟩ := left.reads
  obtain ⟨hs, writes⟩ := writes.wrapped fun h => le_hold_of_wrapsLeft base (loose h)
  exact ⟨r, hs, restates, writes⟩

/-- An operation grows by an operand that is restated. -/
theorem growsBy_of_restates {r : Expr} (op : Operator) (restates : r.Restates rhs) :
    GrowsBy (fun l => .binary op l r none) op rhs :=
  fun _ _ left => left.binary restates

/-- The right operand makes the expression on its left grow to a restatement of the operation. -/
theorem Prints.right (right : Prints style rhs b)
    (flat : tightness style (.binary op lhs rhs token) = op.precedence)
    (loose : w' = false → wrapsRight style op rhs = false) :
    ∃ grow gs, GrowsBy grow op rhs ∧
      Joins grow op (hold style (.binary op lhs rhs token)) (wrapped w' b) gs := by
  have le := hold_binary_le flat
  obtain ⟨r, gs, restates, writes⟩ := right.reads
  have joined := growsBy_of_restates op restates
  cases w' with
  | true => exact ⟨_, _, joined, (writes.parenthesized _ _).joins le none⟩
  | false =>
    obtain ⟨tight, follows⟩ | ⟨associative, same⟩ := lt_reach_of_wrapsRight flat (loose rfl)
    · exact ⟨_, _, joined, (writes.mono follows tight).joins le none⟩
    · obtain ⟨grow, hs, grows, joins⟩ := right.regroups op associative same
      have other : op ≠ .power := by
        rintro rfl
        cases associative
      exact ⟨grow, hs, grows, hold_binary_eq flat other ▸ joins⟩

/-- The left operand of an operation that follows an associative operator of the same precedence. -/
theorem Prints.left_joins {outer : Operator} (left : Prints style lhs a)
    (associative : outer.isAssociative = true) (same : op.precedence = outer.precedence)
    (loose : w = false → wrapsLeft style op lhs = false) :
    ∃ grow gs, GrowsBy grow outer lhs ∧ Joins grow outer op.precedence (wrapped w a) gs := by
  obtain ⟨r, gs, restates, writes⟩ := left.reads
  have joined := growsBy_of_restates outer restates
  have other := ne_power_of_precedence_eq associative same
  cases w with
  | true => exact ⟨_, _, joined, (writes.parenthesized _ _).joins same.le none⟩
  | false =>
    have tight := le_tightness_of_wrapsLeft (loose rfl)
    have follows := (le_hold_of_wrapsLeft (fun power => absurd power other) (loose rfl)).1
    by_cases equal : tightness style lhs = outer.precedence
    · rw [same]
      exact left.regroups outer associative equal
    · have tighter : outer.precedence < reach style lhs :=
        (lt_of_le_of_ne (same ▸ tight) (Ne.symm equal)).trans_le (tightness_le_reach style lhs)
      exact ⟨_, _, joined, (writes.mono follows tighter).joins same.le none⟩

/-- An operation is read as an operation on restatements of its operands, and behind an associative
operator of the same precedence it is regrouped to the left. -/
theorem Prints.binary (left : Prints style lhs a) (right : Prints style rhs b)
    (flat : tightness style (.binary op lhs rhs token) = op.precedence)
    (base : op = .power → lhs.takesPower = false)
    (loose_l : w = false → wrapsLeft style op lhs = false)
    (loose_r : w' = false → wrapsRight style op rhs = false)
    (stands : Stands op (wrapped w a) piece (wrapped w' b) glue) :
    Prints style (.binary op lhs rhs token) (wrapped w a ++ (piece ++ wrapped w' b)) := by
  obtain ⟨grow, hs, grows, joins⟩ := right.right flat loose_r
  refine ⟨?_, fun outer associative same => ?_⟩
  · obtain ⟨l, gs, restates, writes⟩ := left.left base loose_l
    have tight : reach style (.binary op lhs rhs token) = op.precedence := flat
    exact ⟨_, _, grows l lhs restates, tight ▸ writes.extended stands joins⟩
  · rw [flat] at same
    have other := ne_power_of_precedence_eq associative same
    obtain ⟨grow', gs, grows', joins'⟩ := left.left_joins associative same loose_l
    rw [hold_binary_eq flat other] at joins
    refine ⟨_, _, fun l' l restates => ?_, same ▸ joins'.append stands joins same le_rfl⟩
    exact (grows _ _ (grows' l' l restates)).trans (restates_regrouped associative same)

/-- A fraction is read as the quotient of what its groups restate. -/
theorem Prints.fraction (left : Prints style lhs a) (right : Prints style rhs b)
    (displayed : style.inline = false) :
    Prints style (.binary .divide lhs rhs token) ("\\frac" ++ braced a ++ braced b) := by
  obtain ⟨l, gs, restates_l, writes_l⟩ := left.reads
  obtain ⟨r, hs, restates_r, writes_r⟩ := right.reads
  obtain ⟨fs, writes⟩ := writes_l.fraction writes_r (hold style (.binary .divide lhs rhs token))
    (reach style (.binary .divide lhs rhs token)) none
  have tight : tightness style (.binary .divide lhs rhs token) = tightest := by
    rw [tightness, displayed]
    rfl
  exact prints_of_ne (tight ▸ tightest_ne_precedence) (restates_l.binary restates_r) writes

/-- A sign is read with the operand behind it, in parentheses where the operand is no factor. -/
theorem Prints.unary (operand : Prints style e text) (sign : op.isSign = true)
    (token : Option Token) :
    Prints style (.unary op e token)
      (op.sign ++ wrapped (tightness style e < Operator.power.precedence) text) := by
  obtain ⟨r, gs, restates, writes⟩ := operand.reads
  -- without parentheses stand powers and what binds tighter
  obtain ⟨hs, writes⟩ : ∃ hs, Writes r signPrecedence Operator.power.precedence
      (wrapped (tightness style e < Operator.power.precedence) text) hs := by
    refine writes.wrapped fun loose => ?_
    have tight := not_lt.1 (of_decide_eq_false loose)
    refine ⟨?_, tight.trans (tightness_le_reach style e)⟩
    rw [hold]
    split
    · exact le_rfl
    · exact le_trans (by decide) tight
  exact prints_of_ne sign_ne_precedence restates.unary (writes.signed sign (by decide) none _)

/-- A number is read as one if it has no sign, and else as a number under a sign. -/
theorem prints_number {number : String} (legible : Numeral.IsLegible number)
    (token : Option Token) :
    ∃ text, Numeral.render number = .ok text ∧ Prints style (.number number token) text := by
  obtain ⟨q, text, d, spells, rendered, shows⟩ := legible.exists_shows
  obtain ⟨whole, fraction, spelled, nonempty, digits, shown⟩ := shows.exists_digits
  refine ⟨text, rendered, ?_⟩
  have digits_read := fun p q => writes_number spelled nonempty digits p q none
  cases sign : d.negative with
  | false =>
    rw [sign, if_neg Bool.false_ne_true] at shown
    rw [← shown] at digits_read
    exact prints_of_ne tightest_ne_precedence (restates_number (shows.rat?.trans spells.symm))
      (digits_read _ _)
  | true =>
    rw [sign, if_pos rfl] at shown
    have signed : hold style (.number number token) = signPrecedence := by
      have starts : Numeral.isSigned number = true := by
        rw [Numeral.isSigned, rendered]
        dsimp only
        rw [shown, String.toList_append]
        rfl
      rw [hold, startsSigned, starts, Bool.true_or, if_pos rfl]
    have is_sign : Operator.minus.isSign = true := rfl
    have writes := (digits_read signPrecedence Operator.power.precedence).signed is_sign
      (by decide) none tightest
    rw [Operator.sign, ← shown, ← signed] at writes
    refine prints_of_ne tightest_ne_precedence ?_ writes
    intro ρ x means
    have value : |q| = -q := by
      rw [← shows.value, abs_of_nonpos (Decimal.toRat_nonpos sign)]
    have size : (Expr.number d.magnitude.plain none).value (.ofNames ρ) = some |q| :=
      shows.magnitude.rat?
    rw [Expr.value, spells, Option.some_inj] at means
    rw [value_unary, size, value, ← means]
    exact congrArg some (neg_neg q)

/-- Subscripts are read as restatements, one by one. -/
theorem exists_writesItems {es : List Expr}
    (all : ∀ e ∈ es, ∃ text, e.tex style = .ok text ∧ Prints style e text) :
    ∃ texts, texAll style es = .ok texts ∧
      (es ≠ [] → ∃ items gs, List.Forall₂ Restates items es ∧ WritesItems items texts gs) := by
  induction es with
  | nil => exact ⟨[], rfl, fun h => absurd rfl h⟩
  | cons e es ih =>
    obtain ⟨text, written, prints⟩ := all e List.mem_cons_self
    obtain ⟨texts, written', items⟩ := ih fun e he => all e (List.mem_cons_of_mem _ he)
    obtain ⟨r, gs, restates, writes⟩ := prints.reads
    refine ⟨text :: texts, by rw [texAll, written, written']; rfl, fun _ => ?_⟩
    cases es with
    | nil =>
      cases written'
      exact ⟨[r], gs, .cons restates .nil, writes.writesItems⟩
    | cons e' es =>
      obtain ⟨rs, hs, restates', writes'⟩ := items (List.cons_ne_nil e' es)
      exact ⟨r :: rs, _, .cons restates restates', writes'.cons writes⟩

/-- A name is read with its subscripts, each of which is restated. -/
theorem prints_var {name : String} {es : List Expr} {inline : Bool} (letters : IsName name)
    (all : ∀ e ∈ es, ∃ text, e.tex ⟨inline, false⟩ = .ok text ∧ Prints ⟨inline, false⟩ e text)
    (token : Option Token) :
    ∃ text, (Expr.var name es token).tex ⟨inline, false⟩ = .ok text ∧
      Prints ⟨inline, false⟩ (.var name es token) text := by
  obtain ⟨texts, written, items⟩ := exists_writesItems all
  cases es with
  | nil =>
    exact ⟨name, rfl, prints_of_ne tightest_ne_precedence (Restates.refl _)
      (writes_name letters.1 letters.2 _ _ token)⟩
  | cons e es =>
    obtain ⟨rs, gs, restates, writes⟩ := items (List.cons_ne_nil e es)
    obtain ⟨hs, subscripted⟩ := writes_subscripted letters.1 letters.2 writes
      (hold ⟨inline, false⟩ (.var name (e :: es) token))
      (reach ⟨inline, false⟩ (.var name (e :: es) token)) none
    refine ⟨_, ?_, prints_of_ne tightest_ne_precedence (restates_var restates) subscripted⟩
    show (texAll ⟨inline, false⟩ (e :: es) >>= _) = _
    rw [written]
    rfl

end Printer

namespace Expr

variable {inline : Bool} {e : Expr}

/-- An arithmetic expression is written without a fault, and its text is read as a restatement of
it, given that no letters of factors meet and no base takes in its power. -/
theorem IsArithmetic.prints (h : e.IsArithmetic) (clear : e.IsClear ⟨inline, false⟩) :
    ∃ text, e.tex ⟨inline, false⟩ = .ok text ∧ Prints ⟨inline, false⟩ e text := by
  induction h with
  | @number text token legible => exact prints_number legible token
  | @var name es token letters _ ih =>
    cases clear with
    | var all => exact prints_var letters (fun e he => ih e he (all e he)) token
  | @unary op operand token sign _ ih =>
    cases clear with
    | unary inner =>
      obtain ⟨text, written, prints⟩ := ih inner
      exact ⟨_, by rw [Expr.tex, written]; rfl, prints.unary sign token⟩
  | @binary op lhs rhs token _ _ ih_l ih_r =>
    cases clear with
    | binary left right apart base =>
      obtain ⟨a, tex_l, prints_l⟩ := ih_l left
      obtain ⟨b, tex_r, prints_r⟩ := ih_r right
      have tex_e : (Expr.binary op lhs rhs token).tex ⟨inline, false⟩ =
          operation ⟨inline, false⟩ op lhs rhs a b := by
        rw [Expr.tex, tex_l, tex_r]
        rfl
      by_cases flat : op = .divide → inline = true
      · obtain ⟨_, _, _, writes_l⟩ := prints_l.reads
        obtain ⟨_, _, _, writes_r⟩ := prints_r.reads
        obtain ⟨w, w', piece, glue, written, loose_l, loose_r, stands⟩ :=
          exists_operation writes_l.toLexes writes_r.toLexes tex_l tex_r apart flat
        have tight : tightness ⟨inline, false⟩ (.binary op lhs rhs token) = op.precedence := by
          cases op with
          | divide => rw [tightness, flat rfl, if_pos rfl]
          | _ => rfl
        exact ⟨_, tex_e.trans written, prints_l.binary prints_r tight base loose_l loose_r stands⟩
      · obtain ⟨rfl, displayed⟩ := Classical.not_imp.1 flat
        obtain rfl := Bool.eq_false_iff.2 displayed
        exact ⟨_, tex_e, prints_l.fraction prints_r rfl⟩

/-- The text of an arithmetic expression is read as one statement, which is a restatement of it. -/
theorem IsArithmetic.restated (h : e.IsArithmetic) (clear : e.IsClear ⟨inline, false⟩) :
    ∃ text e', e.tex ⟨inline, false⟩ = .ok text ∧ parse text = [.ok e'] ∧ e'.Restates e := by
  obtain ⟨text, written, prints⟩ := h.prints clear
  obtain ⟨r, gs, restates, writes⟩ := prints.reads
  obtain ⟨e', read, same⟩ := writes.parse
  exact ⟨text, e', written, read, (restates_of_same same).trans restates⟩

/-- The text of an arithmetic expression is read as one statement, which stands for the same number
wherever the expression stands for one, given that no letters of factors meet and no base takes in
its power. -/
theorem value_parse_tex (h : e.IsArithmetic) (clear : e.IsClear ⟨inline, false⟩) :
    ∃ text e', e.tex ⟨inline, false⟩ = .ok text ∧ parse text = [.ok e'] ∧
      ∀ ρ q, e.value (.ofNames ρ) = some q → e'.value (.ofNames ρ) = some q :=
  h.restated clear

/-- The difference `a - (-b)^-2` is read back from its text and is worth `5` where `a` is `6` and
`b` is `1`. -/
theorem value_parse_tex_difference : ∃ e', parse "a - (-b)^-2" = [.ok e'] ∧
    e'.value (.ofNames fun name _ => if name = "a" then 6 else 1) = some 5 := by
  let a : Expr := .var "a" [] none
  let b : Expr := .unary .minus (.var "b" [] none) none
  let exponent : Expr := .unary .minus (.number "2" none) none
  let e : Expr := .binary .minus a (.binary .power b exponent none) none
  have two : Numeral.rat? "2" = some 2 := by
    rw [Numeral.rat?, show Decimal.ofText? "2" = some ⟨false, 2, 0⟩ from rfl]
    norm_num [Decimal.toRat]
  have legible : Numeral.IsLegible "2" :=
    @Numeral.IsShortSplit.isLegible ['2'] [] ⟨by decide, List.all_eq_true.1 rfl, by decide⟩
  have letters : ∀ name ∈ ["a", "b"], IsName name := by
    intro name mem
    fin_cases mem <;> exact ⟨by decide, List.all_eq_true.1 rfl⟩
  have arithmetic : e.IsArithmetic :=
    .binary (.var (letters "a" (by simp)) (by simp))
      (.binary (.unary rfl (.var (letters "b" (by simp)) (by simp)))
        (.unary rfl (.number legible)))
  have clear : e.IsClear .oneLine :=
    .difference (.var (by simp)) (.power (.unary (.var (by simp))) (.unary .number) rfl)
  obtain ⟨text, e', written, read, same⟩ := value_parse_tex arithmetic clear
  have spelled : text = "a - (-b)^-2" := Except.ok.inj (written.symm.trans (by rfl))
  refine ⟨e', spelled ▸ read, same _ _ ?_⟩
  have power : (Expr.binary .power b exponent none).value
      (.ofNames fun name _ => if name = "a" then 6 else 1) = some 1 :=
    value_binary_eq_some.2 ⟨-1, -2, rfl, value_unary_eq_some.2 ⟨2, two, rfl⟩, by
      have exponent := ratPower?_intCast (-1) (-2)
      norm_num at exponent
      exact exponent⟩
  exact value_binary_eq_some.2 ⟨6, 1, rfl, power, by norm_num [Operator.onRat?]⟩

/-! ## Bases that take in their powers -/

/-- A power of a power with a sign in its exponent is written like the power whose exponent is a
sign before a power. -/
theorem tex_power_of_signed_power (style : Style) (base x y : Expr) (op : Operator)
    (t u v t' u' v' : Option Token) :
    (binary .power (binary .power base (unary op x t) u) y v).tex style =
      (binary .power base (unary op (binary .power x y t') u') v').tex style := by
  have sign : decide (tightness style x < Operator.power.precedence) =
      wrapsLeft style .power x := by
    cases x <;> rfl
  simp only [tex]
  cases base.tex style with
  | error o => rfl
  | ok a =>
  cases x.tex style with
  | error o => rfl
  | ok b =>
  cases y.tex style with
  | error o => rfl
  | ok c =>
  show Except.ok (_ ++ "^" ++ (op.sign ++ wrapped _ b) ++ "^" ++ _) =
    Except.ok (_ ++ "^" ++ (op.sign ++ (wrapped (wrapsLeft style .power x) b ++ "^" ++ _)))
  rw [sign]
  simp only [String.append_assoc]

/-- The power `(x^-2)^y` is worth `1 / 64` where `x` is `2` and `y` is `3`. Its text is read as
`x^(-(2^y))`, which is worth `1 / 256`. -/
theorem value_parse_tex_signed_power : ∃ e e' : Expr, e.IsArithmetic ∧
    e.tex .oneLine = .ok "x^-2^y" ∧ parse "x^-2^y" = [.ok e'] ∧
      e.value (.ofNames fun name _ => if name = "x" then 2 else 3) = some (1 / 64) ∧
        e'.value (.ofNames fun name _ => if name = "x" then 2 else 3) = some (1 / 256) := by
  let x : Expr := .var "x" [] none
  let y : Expr := .var "y" [] none
  let two : Expr := .number "2" none
  let e : Expr := .binary .power (.binary .power x (.unary .minus two none) none) y none
  let r : Expr := .binary .power x (.unary .minus (.binary .power two y none) none) none
  have value_two : Numeral.rat? "2" = some 2 := by
    rw [Numeral.rat?, show Decimal.ofText? "2" = some ⟨false, 2, 0⟩ from rfl]
    norm_num [Decimal.toRat]
  have power : ∀ (x : ℚ) (n : ℤ) {y q : ℚ}, x ≠ 0 → y = n ∧ q = x ^ n →
      Operator.power.onRat? x y = some q := by
    rintro x n _ _ nonzero ⟨rfl, rfl⟩
    rw [Operator.onRat?, ratPower?_intCast, if_neg fun h => nonzero h.1]
  have legible : Numeral.IsLegible "2" :=
    @Numeral.IsShortSplit.isLegible ['2'] [] ⟨by decide, List.all_eq_true.1 rfl, by decide⟩
  have arithmetic_x : x.IsArithmetic := .var ⟨by decide, List.all_eq_true.1 rfl⟩ (by simp)
  have arithmetic_y : y.IsArithmetic := .var ⟨by decide, List.all_eq_true.1 rfl⟩ (by simp)
  have arithmetic : r.IsArithmetic :=
    .binary arithmetic_x (.unary rfl (.binary (.number legible) arithmetic_y))
  have clear : r.IsClear .oneLine :=
    .power (.var (by simp)) (.unary (.power .number (.var (by simp)) (by rfl))) rfl
  obtain ⟨text, e', written, read, restates⟩ := arithmetic.restated clear
  have same := tex_power_of_signed_power .oneLine x two y .minus none none none none none none
  have spelled : text = "x^-2^y" := Except.ok.inj (written.symm.trans (by rfl))
  refine ⟨e, e', .binary (.binary arithmetic_x (.unary rfl (.number legible))) arithmetic_y, ?_,
    spelled ▸ read, ?_, restates _ _ ?_⟩
  · rw [← spelled, ← written]
    exact same
  · refine value_binary_eq_some.2 ⟨1 / 4, 3, value_binary_eq_some.2
      ⟨2, -2, rfl, value_unary_eq_some.2 ⟨2, value_two, rfl⟩, ?_⟩, rfl, ?_⟩
    · exact power 2 (-2) (by norm_num) (by norm_num)
    · exact power (1 / 4) 3 (by norm_num) (by norm_num)
  · refine value_binary_eq_some.2 ⟨2, -8, rfl, value_unary_eq_some.2
      ⟨8, value_binary_eq_some.2 ⟨2, 3, value_two, rfl, ?_⟩, rfl⟩, ?_⟩
    · exact power 2 3 (by norm_num) (by norm_num)
    · exact power 2 (-8) (by norm_num) (by norm_num)

end Expr

end TexAlgebra
