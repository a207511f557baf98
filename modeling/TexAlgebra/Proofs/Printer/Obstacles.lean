import TexAlgebra.Expr.Printer
/-!
# What stops a text from being written

An expression cannot be written out if a number in it cannot, or if a factor has no first or last
character. It is never nested too deeply for that: `Expr.isShallow_tex`. Only calls and expansions
can be.
-/

namespace TexAlgebra

variable {α β : Type}

/-- Whether a computation does not fail because something is nested too deeply. -/
def IsShallow (x : Except Obstacle α) : Prop := x ≠ .error .tooDeep

theorem isShallow_pure {a : α} : IsShallow (pure a) := by
  intro h
  cases h

/-- A sequence of shallow steps is shallow. -/
theorem IsShallow.bind {x : Except Obstacle α} {f : α → Except Obstacle β} (h : IsShallow x)
    (next : ∀ a, IsShallow (f a)) : IsShallow (x >>= f) := by
  cases x with
  | error o => exact fun eq => h (congrArg Except.error (Except.error.inj eq))
  | ok a => exact next a

/-- A failed operation on decimal numbers is another obstacle. -/
theorem Work.isShallow_result (work : Work) (x : Except Decimal.Signal α) :
    IsShallow (work.result x) := by
  intro h
  cases x <;> cases h

/-- No depth is needed for a number that is none. -/
theorem Numeral.isShallow_special (text : String) : IsShallow (special text) := by
  unfold special
  split
  · exact isShallow_pure
  · intro h
    cases h

/-- No depth is needed to write a number out. -/
theorem Numeral.isShallow_render (text : String) : IsShallow (render text) := by
  unfold render renderWith
  split
  · exact Work.isShallow_result _ _
  · exact (isShallow_special text).bind fun _ => Work.isShallow_result _ _

namespace Printer

theorem isShallow_firstChar (s : String) : IsShallow (firstChar s) := by
  unfold firstChar
  split
  · exact isShallow_pure
  · intro h
    cases h

theorem isShallow_lastChar (s : String) : IsShallow (lastChar s) := by
  unfold lastChar
  split
  · exact isShallow_pure
  · intro h
    cases h

/-- No depth is needed to look at the characters that meet. -/
theorem isShallow_runsTogether (left right : String) : IsShallow (runsTogether left right) := by
  refine (isShallow_firstChar right).bind fun first => ?_
  split
  · exact isShallow_pure
  split
  · exact isShallow_pure
  · exact (isShallow_lastChar left).bind fun _ => isShallow_pure

/-- No depth is needed to put two texts side by side. -/
theorem isShallow_juxtaposed (style : Style) (lhs rhs : Expr) (left right : String) :
    IsShallow (juxtaposed style lhs rhs left right) := by
  unfold juxtaposed
  split
  · exact isShallow_pure
  split
  · exact isShallow_pure
  · exact (isShallow_runsTogether _ right).bind fun _ => isShallow_pure

/-- No depth is needed to put an operator between two texts. -/
theorem isShallow_operation (style : Style) (op : Operator) (lhs rhs : Expr)
    (left right : String) : IsShallow (operation style op lhs rhs left right) := by
  cases op with
  | juxtaposed => exact isShallow_juxtaposed style lhs rhs left right
  | divide =>
    unfold operation
    dsimp only
    split <;> exact isShallow_pure
  | _ => exact isShallow_pure

end Printer

namespace Expr

mutual

/-- No expression is nested too deeply to be written out. -/
theorem isShallow_tex (style : Style) (e : Expr) : IsShallow (e.tex style) := by
  cases e with
  | number text token =>
    rw [tex]
    exact Numeral.isShallow_render text
  | var name subscripts token =>
    rw [tex]
    split
    · exact isShallow_pure
    · exact (isShallow_texAll style subscripts).bind fun _ => isShallow_pure
  | unary op operand token =>
    rw [tex]
    exact (isShallow_tex style operand).bind fun _ => isShallow_pure
  | binary op lhs rhs token =>
    rw [tex]
    exact (isShallow_tex style lhs).bind fun left =>
      (isShallow_tex style rhs).bind fun right =>
        Printer.isShallow_operation style op lhs rhs left right
  | group items token =>
    rw [tex]
    exact (isShallow_texAll style items).bind fun _ => isShallow_pure
  | command name arguments token =>
    rw [tex]
    exact (isShallow_texAll style arguments).bind fun _ => isShallow_pure
  | block name arguments statements token =>
    rw [tex]
    exact (isShallow_texLines style _ statements).bind fun _ => isShallow_pure
  | prototype name parameters token =>
    rw [tex]
    exact (isShallow_tex style name).bind fun _ =>
      (isShallow_texAll style parameters).bind fun _ => isShallow_pure
  | function form name parameters head body closed token =>
    rw [tex]
    exact (isShallow_tex style name).bind fun _ =>
      (isShallow_texAll style parameters).bind fun _ =>
        (isShallow_tex style body).bind fun _ => isShallow_pure
  | call callee arguments token =>
    rw [tex]
    exact (isShallow_tex style callee).bind fun _ =>
      (isShallow_texAll style arguments).bind fun _ => isShallow_pure
  | binding target value token =>
    rw [tex]
    exact (isShallow_tex style target).bind fun _ =>
      (isShallow_tex style value).bind fun _ => isShallow_pure

/-- Expressions that are written out one after the other need no depth. -/
theorem isShallow_texAll (style : Style) (es : List Expr) : IsShallow (texAll style es) := by
  cases es with
  | nil =>
    rw [texAll]
    exact isShallow_pure
  | cons e es =>
    rw [texAll]
    exact (isShallow_tex style e).bind fun _ =>
      (isShallow_texAll style es).bind fun _ => isShallow_pure

/-- Expressions that are written out line by line need no depth. -/
theorem isShallow_texLines (style : Style) (aligned : Bool) (es : List Expr) :
    IsShallow (texLines style aligned es) := by
  cases es with
  | nil =>
    rw [texLines]
    exact isShallow_pure
  | cons e es =>
    rw [texLines.eq_def]
    dsimp only
    have rest (text : String) :
        IsShallow (do return text :: (← texLines style aligned es)) :=
      (isShallow_texLines style aligned es).bind fun _ => isShallow_pure
    split
    · next target value _ =>
      exact (isShallow_tex style target).bind fun _ =>
        (isShallow_tex style value).bind fun _ => rest _
    · exact (isShallow_tex style e).bind rest

end

end Expr

end TexAlgebra
