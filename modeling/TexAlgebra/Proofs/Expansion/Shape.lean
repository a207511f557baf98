import TexAlgebra.Proofs.Expansion.Rules
/-!
# Shapes

The shape of an expression is what `==` sees of it. On shapes a product of sums can be multiplied
out at once, and a power with a whole exponent likewise: `Shape.product` and `Shape.powered`. In
which order the terms come depends on which factor is taken first, and `Shape.Rearranged` relates
sums that only differ in this. All operations on shapes respect it.
-/

namespace TexAlgebra

/-- A tree of numbers, variables, signs and operations without tokens. -/
inductive Shape where
  | number (text : String)
  | var (name : String) (subscripts : List Shape)
  | unary (op : Operator) (operand : Shape)
  | binary (op : Operator) (lhs rhs : Shape)
  /-- An expression of any other kind. -/
  | other

namespace Shape

/-- Whether a shape is that of a sum or a difference. -/
def isSum : Shape → Bool
  | binary op _ _ => op.isSign
  | _ => false

/-- The text of a number. -/
def text? : Shape → Option String
  | number text => some text
  | _ => none

/-- The sum in which each term is replaced by what `f` makes of it. A shape that is not a sum is its
own only term. -/
def overTerms (f : Shape → Shape) : Shape → Shape
  | binary op a b =>
    if op.isSign then binary op (a.overTerms f) (b.overTerms f) else f (binary op a b)
  | s => f s

/-- The product of two shapes, multiplied out. -/
def product (s t : Shape) : Shape := s.overTerms fun x => t.overTerms fun y => binary .times x y

/-- A power with a natural exponent, multiplied out. -/
def wholePower (s : Shape) : ℕ → Shape
  | 0 => number "1"
  | 1 => s
  | n + 2 => s.product (s.wholePower (n + 1))

/-- The power whose exponent is the number `x` with some text, multiplied out if `x` is whole. -/
def raised (s : Shape) (text : String) (x : ℚ) : Shape :=
  if x.den = 1 then s.wholePower x.num.natAbs else binary .power s (number text)

/-- The power whose exponent is a number with some text, multiplied out. A power with a negative
exponent is an inverse. -/
def powered (s : Shape) (text : String) : Shape :=
  match Numeral.rat? text with
  | some x =>
    if x < 0 then
      match Numeral.signed .minus text with
      | .ok positive => binary .divide (number "1") (s.raised positive (-x))
      | .error _ => binary .power s (number text)
    else s.raised text x
  | none => binary .power s (number text)

/-- A shape under a sign, which becomes part of a number. -/
def signed (op : Operator) : Shape → Shape
  | number text =>
    match Numeral.signed op text with
    | .ok result => number result
    | .error _ => unary op.explicit (number text)
  | s => unary op.explicit s

/-- Two shapes joined by an operator, multiplied out. -/
def joined : Operator → Shape → Shape → Shape
  | .times, s, t => s.product t
  | .juxtaposed, s, t => s.product t
  | .power, s, number text => s.powered text
  | op, s, t => binary op s t

variable {s s' t t' u a b c d : Shape} {op op' : Operator} {f g : Shape → Shape} {text : String}

/-! ## Terms -/

@[simp] theorem isSum_binary : (binary op a b).isSum = op.isSign := rfl

/-- Over a sum something is done to both of its sides. -/
theorem overTerms_sum (sum : op.isSign = true) :
    (binary op a b).overTerms f = binary op (a.overTerms f) (b.overTerms f) := by
  rw [overTerms, if_pos sum]

/-- What is no sum is one term. -/
theorem overTerms_of_isSum_eq_false (h : s.isSum = false) : s.overTerms f = f s := by
  cases s with
  | binary op a b =>
    rw [isSum] at h
    simp [overTerms, h]
  | _ => rfl

/-- What holds of all terms and of the sum of two shapes of which it holds, holds of all shapes. -/
theorem sum_induction {motive : Shape → Prop}
    (sum : ∀ op a b, op.isSign = true → motive a → motive b → motive (binary op a b))
    (term : ∀ s, s.isSum = false → motive s) (s : Shape) : motive s := by
  induction s using overTerms.induct with
  | case1 op a b h iha ihb => exact sum op a b h iha ihb
  | case2 op a b h => exact term _ (by simpa using h)
  | case3 s h =>
    refine term s ?_
    cases s with
    | binary op a b => exact (h op a b rfl).elim
    | _ => rfl

/-! ## Rearranged sums -/

/-- Whether two shapes only differ in the order in which the terms of sums are put together. -/
inductive Rearranged : Shape → Shape → Prop
  | refl (s : Shape) : Rearranged s s
  | symm {s t : Shape} (h : Rearranged s t) : Rearranged t s
  | trans {s t u : Shape} (first : Rearranged s t) (second : Rearranged t u) : Rearranged s u
  /-- `(a ∓ b) ± (c ∓ d)` is `(a ± c) ∓ (b ± d)`. -/
  | interchange {op op' : Operator} (sum : op.isSign = true) (sum' : op'.isSign = true)
      (a b c d : Shape) :
    Rearranged (binary op (binary op' a b) (binary op' c d))
      (binary op' (binary op a c) (binary op b d))
  | subscript {s t : Shape} (name : String) (before after : List Shape) (h : Rearranged s t) :
    Rearranged (var name (before ++ s :: after)) (var name (before ++ t :: after))
  | unary {s t : Shape} (op : Operator) (h : Rearranged s t) : Rearranged (unary op s) (unary op t)
  | binary {a b c d : Shape} (op : Operator) (left : Rearranged a b) (right : Rearranged c d) :
    Rearranged (binary op a c) (binary op b d)

/-- A rearranged sum is a sum. -/
theorem Rearranged.isSum_eq (h : Rearranged s t) : s.isSum = t.isSum := by
  induction h with
  | symm _ ih => exact ih.symm
  | trans _ _ first second => exact first.trans second
  | interchange sum sum' => exact sum.trans sum'.symm
  | _ => rfl

/-- A rearranged number is the number. -/
theorem Rearranged.text?_eq (h : Rearranged s t) : s.text? = t.text? := by
  induction h with
  | symm _ ih => exact ih.symm
  | trans _ _ first second => exact first.trans second
  | _ => rfl

/-- Only a number has a text. -/
theorem text?_eq_some (h : s.text? = some text) : s = number text := by
  cases s with
  | number => rw [Option.some.inj h]
  | _ => cases h

/-- What rearranges every term rearranges the sum. -/
theorem rearranged_overTerms_of (h : ∀ x, Rearranged (f x) (g x)) (s : Shape) :
    Rearranged (s.overTerms f) (s.overTerms g) := by
  induction s using sum_induction with
  | sum op a b sum left right =>
    rw [overTerms_sum sum, overTerms_sum sum]
    exact .binary op left right
  | term s other =>
    rw [overTerms_of_isSum_eq_false other, overTerms_of_isSum_eq_false other]
    exact h s

/-- A rearranged sum has rearranged terms. -/
theorem Rearranged.overTerms (h : Rearranged s t)
    (kept : ∀ x y, Rearranged x y → Rearranged (f x) (f y)) :
    Rearranged (s.overTerms f) (t.overTerms f) := by
  induction h with
  | refl s => exact .refl _
  | symm _ ih => exact ih.symm
  | trans _ _ first second => exact first.trans second
  | interchange sum sum' a b c d =>
    simp only [overTerms_sum sum, overTerms_sum sum']
    exact .interchange sum sum' ..
  | subscript name before after h => exact kept _ _ (.subscript name before after h)
  | unary op h => exact kept _ _ (.unary op h)
  | @binary a b c d op left right left' right' =>
    cases sum : op.isSign with
    | true =>
      rw [overTerms_sum sum, overTerms_sum sum]
      exact .binary op left' right'
    | false =>
      rw [overTerms_of_isSum_eq_false (isSum_binary.trans sum),
        overTerms_of_isSum_eq_false (isSum_binary.trans sum)]
      exact kept _ _ (.binary op left right)

/-! ## Products -/

/-- A sum on the left is distributed. -/
theorem product_sum_left (sum : op.isSign = true) :
    (binary op a b).product c = binary op (a.product c) (b.product c) :=
  overTerms_sum sum

/-- A sum on the right of a single term is distributed. -/
theorem product_sum_right (other : c.isSum = false) (sum : op.isSign = true) :
    c.product (binary op a b) = binary op (c.product a) (c.product b) := by
  simp only [product, overTerms_of_isSum_eq_false other, overTerms_sum sum]

/-- The product of two terms is a term. -/
theorem product_of_terms (left : s.isSum = false) (right : t.isSum = false) :
    s.product t = binary .times s t := by
  rw [product, overTerms_of_isSum_eq_false left, overTerms_of_isSum_eq_false right]

/-- A product can be multiplied out over its right factor first. -/
theorem rearranged_product_sum_right (c : Shape) (sum : op.isSign = true) (a b : Shape) :
    Rearranged (c.product (binary op a b)) (binary op (c.product a) (c.product b)) := by
  induction c using sum_induction with
  | sum op' x y sum' left right =>
    simp only [product_sum_left sum']
    exact (Rearranged.binary op' left right).trans (.interchange sum' sum ..)
  | term c other =>
    rw [product_sum_right other sum]
    exact .refl _

/-- A product is rearranged where its factors are. -/
theorem Rearranged.product (left : Rearranged s s') (right : Rearranged t t') :
    Rearranged (s.product t) (s'.product t') := by
  have second : Rearranged (s.product t) (s.product t') := rearranged_overTerms_of
    (fun x => right.overTerms fun y y' h => .binary .times (.refl x) h) s
  have first : Rearranged (s.product t') (s'.product t') := left.overTerms fun x x' h =>
    rearranged_overTerms_of (fun y => .binary .times h (.refl y)) t'
  exact second.trans first

/-! ## Powers -/

/-- A whole power is rearranged where its base is. -/
theorem Rearranged.wholePower (h : Rearranged s t) (n : ℕ) :
    Rearranged (s.wholePower n) (t.wholePower n) := by
  induction n using wholePower.induct with
  | case1 => exact .refl _
  | case2 => exact h
  | case3 n ih => exact h.product ih

/-- A power to a positive number is rearranged where its base is. -/
theorem Rearranged.raised (h : Rearranged s t) (text : String) (x : ℚ) :
    Rearranged (s.raised text x) (t.raised text x) := by
  unfold Shape.raised
  split
  · exact h.wholePower _
  · exact .binary .power h (.refl _)

/-- A power to any number is rearranged where its base is. -/
theorem Rearranged.powered (h : Rearranged s t) (text : String) :
    Rearranged (s.powered text) (t.powered text) := by
  unfold Shape.powered
  split
  · split
    · split
      · exact .binary .divide (.refl _) (h.raised ..)
      · exact .binary .power h (.refl _)
    · exact h.raised ..
  · exact .binary .power h (.refl _)

/-- A power to a whole number is multiplied out. -/
theorem raised_intCast (s : Shape) (text : String) (n : ℤ) :
    s.raised text n = s.wholePower n.natAbs := by
  rw [raised, if_pos (Rat.den_intCast n), Rat.num_intCast]

/-- A power to a fraction stays. -/
theorem raised_of_fraction (s : Shape) (text : String) {x : ℚ} (fraction : ∀ n : ℤ, x ≠ n) :
    s.raised text x = binary .power s (number text) := by
  rw [raised, if_neg]
  exact fun whole => fraction x.num (Rat.coe_int_num_of_den_eq_one whole).symm

/-- A power to a number that is not negative is raised to it. -/
theorem powered_of_nonneg (s : Shape) {x : ℚ} (value : Numeral.rat? text = some x)
    (nonneg : 0 ≤ x) : s.powered text = s.raised text x := by
  simp only [powered, value, if_neg nonneg.not_gt]

/-- A power to a negative number is one divided by the power to its opposite. -/
theorem powered_of_neg (s : Shape) {x : ℚ} {positive : String}
    (value : Numeral.rat? text = some x) (below : x < 0)
    (computed : Numeral.signed .minus text = .ok positive) :
    s.powered text = binary .divide (number "1") (s.raised positive (-x)) := by
  simp only [powered, value, if_pos below, computed]

/-! ## Operations -/

/-- A sign in front of anything but a number stays. -/
theorem signed_of_text?_eq_none (op : Operator) (h : s.text? = none) :
    s.signed op = unary op.explicit s := by
  cases s with
  | number => cases h
  | _ => rfl

/-- A sign is rearranged where its operand is. -/
theorem Rearranged.signed (h : Rearranged s t) (op : Operator) :
    Rearranged (s.signed op) (t.signed op) := by
  cases number : s.text? with
  | some text =>
    rw [text?_eq_some number, text?_eq_some (h.text?_eq.symm.trans number)]
    exact .refl _
  | none =>
    rw [signed_of_text?_eq_none op number,
      signed_of_text?_eq_none op (h.text?_eq.symm.trans number)]
    exact .unary _ h

/-- A power to a number is multiplied out as far as that goes. -/
theorem joined_power (s : Shape) (text : String) :
    joined .power s (number text) = s.powered text := by
  rw [joined]

/-- A power to anything but a number stays. -/
theorem joined_power_of_text?_eq_none (s : Shape) (h : t.text? = none) :
    joined .power s t = binary .power s t := by
  cases t with
  | number => cases h
  | _ => rfl

/-- An operation is rearranged where its operands are. -/
theorem Rearranged.joined (left : Rearranged s s') (right : Rearranged t t') (op : Operator) :
    Rearranged (joined op s t) (joined op s' t') := by
  cases op with
  | times | juxtaposed => exact left.product right
  | power =>
    cases number : t.text? with
    | some text =>
      rw [text?_eq_some number, text?_eq_some (right.text?_eq.symm.trans number)]
      exact left.powered text
    | none =>
      rw [joined_power_of_text?_eq_none s number,
        joined_power_of_text?_eq_none s' (right.text?_eq.symm.trans number)]
      exact .binary .power left right
  | _ => exact .binary _ left right

/-- Sums and differences stay. -/
theorem joined_of_isSign (sum : op.isSign = true) : joined op s t = binary op s t := by
  cases op with
  | plus | minus => rfl
  | _ => cases sum

/-- A product is distributed, whether its sign is written or not. -/
theorem joined_product (times : op = .times ∨ op = .juxtaposed) : joined op s t = s.product t := by
  rcases times with rfl | rfl <;> rfl

end Shape

namespace Expr

/-! ## Shapes of expressions -/

mutual

/-- The shape that an expression has if signs and operations are put together in a given way. -/
def shapeWith (sign : Operator → Shape → Shape) (join : Operator → Shape → Shape → Shape) :
    Expr → Shape
  | number text _ => .number text
  | var name subscripts _ => .var name (shapesWith sign join subscripts)
  | unary op operand _ => sign op (shapeWith sign join operand)
  | binary op lhs rhs _ => join op (shapeWith sign join lhs) (shapeWith sign join rhs)
  | _ => .other

/-- The shapes of several expressions. -/
def shapesWith (sign : Operator → Shape → Shape) (join : Operator → Shape → Shape → Shape) :
    List Expr → List Shape
  | [] => []
  | e :: es => shapeWith sign join e :: shapesWith sign join es

end

/-- The shape of an expression. -/
def shape : Expr → Shape :=
  shapeWith (fun op => .unary op.explicit) (fun op => .binary op.explicit)

/-- The shape of an expression, all products and powers multiplied out. -/
def expanded : Expr → Shape := shapeWith (fun op s => s.signed op) Shape.joined

variable {e r : Expr} {es rs : List Expr}

/-- The shape of a list is the list of shapes. -/
theorem shapesWith_eq_map {sign : Operator → Shape → Shape}
    {join : Operator → Shape → Shape → Shape} (es : List Expr) :
    shapesWith sign join es = es.map (shapeWith sign join) := by
  induction es with
  | nil => rfl
  | cons e es ih => rw [shapesWith, ih, List.map_cons]

theorem shape_var (name : String) (es : List Expr) (t : Option Token) :
    (var name es t).shape = .var name (es.map shape) :=
  congrArg (Shape.var name) (shapesWith_eq_map es)

theorem expanded_var (name : String) (es : List Expr) (t : Option Token) :
    (var name es t).expanded = .var name (es.map expanded) :=
  congrArg (Shape.var name) (shapesWith_eq_map es)

/-- It can be told from the shape whether an expression is a sum. -/
theorem isSum_shape (e : Expr) : e.shape.isSum = e.isSum := by
  cases e with
  | binary op => cases op <;> rfl
  | _ => rfl

/-- Lists of one shape are equal. -/
theorem sameAll_of_map_shape_eq (each : ∀ p ∈ es, ∀ r, p.shape = r.shape → p.same r = true)
    (h : es.map shape = rs.map shape) : sameAll es rs = true := by
  induction es generalizing rs with
  | nil =>
    cases rs with
    | nil => rfl
    | cons => cases h
  | cons e es ih =>
    obtain ⟨first, others⟩ := List.forall_mem_cons.1 each
    cases rs with
    | nil => cases h
    | cons r rs =>
      obtain ⟨head, tail⟩ := List.cons.inj h
      rw [sameAll, first r head, ih others tail]
      rfl

/-- Algebraic expressions of the same shape are equal. -/
theorem same_of_shape_eq (algebraic : Throughout (fun e => e.isAlgebraic = true) e)
    (h : e.shape = r.shape) : e.same r = true := by
  induction e using visited_induction generalizing r with
  | h e ih =>
    have each : ∀ p ∈ e.visited, ∀ r, p.shape = r.shape → p.same r = true :=
      fun p mem r => ih p mem (algebraic.parts p mem)
    have root := algebraic.root
    cases e with
    | number text t =>
      cases r with
      | number =>
        rw [same]
        exact beq_iff_eq.2 (Shape.number.inj h)
      | _ => cases h
    | var name es t =>
      cases r with
      | var =>
        rw [shape_var, shape_var] at h
        obtain ⟨rfl, subscripts⟩ := Shape.var.inj h
        rw [same, @sameAll_of_map_shape_eq es _ each subscripts, beq_self_eq_true]
        rfl
      | _ => cases h
    | unary op operand t =>
      cases r with
      | unary =>
        obtain ⟨sign, operand'⟩ := Shape.unary.inj h
        rw [same, Operator.alike_iff.2 sign, each _ List.mem_cons_self _ operand']
        rfl
      | _ => cases h
    | binary op lhs rhs t =>
      cases r with
      | binary =>
        obtain ⟨sign, left, right⟩ := Shape.binary.inj h
        rw [same, Operator.alike_iff.2 sign, each _ List.mem_cons_self _ left,
          each _ (List.mem_cons_of_mem _ List.mem_cons_self) _ right]
        rfl
      | _ => cases h
    | _ => cases root

end Expr

end TexAlgebra
