import TexAlgebra.Proofs.Meaning
/-!
# Restatements

An expression restates another one if it stands for the same number wherever the other one stands
for a number, whatever the variables mean. Sums and products may be regrouped to the left
(`Expr.restates_regrouped`), and equal expressions restate each other (`Expr.restates_of_same`).
-/

namespace TexAlgebra

namespace Operator

/-- Alike operators have the same values. -/
theorem onRat?_of_alike {op op' : Operator} (h : op'.alike op = true) (x y : ℚ) :
    op'.onRat? x y = op.onRat? x y := by
  cases op <;> cases op' <;> first | rfl | cases h

/-- Alike signs have the same values. -/
theorem signOnRat?_of_alike {op op' : Operator} (h : op'.alike op = true) (x : ℚ) :
    op'.signOnRat? x = op.signOnRat? x := by
  cases op <;> cases op' <;> first | rfl | cases h

/-- Behind a sum a term may be added or subtracted in front of it as well, and behind a product a
factor may be multiplied or divided by. -/
theorem onRat?_regrouped {op op' : Operator} (associative : op.isAssociative = true)
    (same : op'.precedence = op.precedence) {x y z w q : ℚ} (inner : op'.onRat? y z = some w)
    (outer : op.onRat? x w = some q) : ∃ v, op.onRat? x y = some v ∧ op'.onRat? v z = some q := by
  have divided : ∀ {y z w : ℚ}, divide.onRat? y z = some w →
      divide.onRat? (x * y) z = some (x * w) := by
    intro y z w h
    rw [onRat?] at h ⊢
    split at h
    · cases h
    · next nonzero =>
      cases h
      rw [if_neg nonzero, mul_div_assoc]
  cases op with
  | plus =>
    cases outer
    refine ⟨x + y, rfl, ?_⟩
    cases op' with
    | plus =>
      cases inner
      rw [onRat?, add_assoc]
    | minus =>
      cases inner
      rw [onRat?, add_sub_assoc]
    | _ => cases same
  | times | juxtaposed =>
    cases outer
    refine ⟨x * y, rfl, ?_⟩
    cases op' with
    | times | juxtaposed =>
      cases inner
      rw [onRat?, mul_assoc]
    | divide => exact divided inner
    | _ => cases same
  | _ => cases associative

end Operator

namespace Expr

/-- Whether `r` stands for the same number as `e` wherever `e` stands for one. -/
def Restates (r e : Expr) : Prop :=
  ∀ ρ q, e.value (.ofNames ρ) = some q → r.value (.ofNames ρ) = some q

variable {l l' r r' e : Expr} {op op' : Operator} {t u v w : Option Token}

/-- Every expression restates itself. -/
theorem Restates.refl (e : Expr) : e.Restates e := fun _ _ means => means

/-- What restates a restatement restates the expression. -/
theorem Restates.trans (first : l.Restates r) (second : r.Restates e) : l.Restates e :=
  fun ρ q means => first ρ q (second ρ q means)

/-- A number is restated by another text of its value. -/
theorem restates_number {text text' : String} (same : Numeral.rat? text' = Numeral.rat? text) :
    (number text' t).Restates (number text u) := by
  intro ρ q means
  exact same.trans means

/-- A sign is restated where its operand is. -/
theorem Restates.unary (operand : l'.Restates l) : (unary op l' t).Restates (unary op l u) := by
  intro ρ q means
  obtain ⟨x, value, sign⟩ := value_unary_eq_some.1 means
  exact value_unary_eq_some.2 ⟨x, operand ρ x value, sign⟩

/-- An operation is restated where its operands are. -/
theorem Restates.binary (left : l'.Restates l) (right : r'.Restates r) :
    (binary op l' r' t).Restates (binary op l r u) := by
  intro ρ q means
  obtain ⟨x, y, value_l, value_r, result⟩ := value_binary_eq_some.1 means
  exact value_binary_eq_some.2 ⟨x, y, left ρ x value_l, right ρ y value_r, result⟩

/-- Subscripts may be restated, since a variable depends on their values only. -/
theorem restates_var {name : String} {items' items : List Expr}
    (all : List.Forall₂ Restates items' items) :
    (var name items' t).Restates (var name items u) := by
  have kept : ∀ ρ xs, values (.ofNames ρ) items = some xs →
      values (.ofNames ρ) items' = some xs := by
    intro ρ
    induction all with
    | nil => exact fun _ means => means
    | cons first _ later =>
      intro xs means
      rw [values, Option.bind_eq_some_iff] at means
      obtain ⟨x, value, means⟩ := means
      obtain ⟨ys, values', rfl⟩ := Option.map_eq_some_iff.1 means
      rw [values, first ρ x value, Option.bind_some, later ys values', Option.map_some]
  intro ρ q means
  obtain ⟨xs, values, assigned⟩ := Option.map_eq_some_iff.1 means
  exact Option.map_eq_some_iff.2 ⟨xs, kept ρ xs values, assigned⟩

/-- What follows an associative operator may be regrouped to the left. -/
theorem restates_regrouped (associative : op.isAssociative = true)
    (same : op'.precedence = op.precedence) :
    (binary op' (binary op e l t) r u).Restates (binary op e (binary op' l r v) w) := by
  intro ρ q means
  obtain ⟨x, s, value_e, value, outer⟩ := value_binary_eq_some.1 means
  obtain ⟨y, z, value_l, value_r, inner⟩ := value_binary_eq_some.1 value
  obtain ⟨p, first, second⟩ := Operator.onRat?_regrouped associative same inner outer
  exact value_binary_eq_some.2
    ⟨p, z, value_binary_eq_some.2 ⟨x, y, value_e, value_l, first⟩, value_r, second⟩

mutual

/-- Equal expressions restate each other. -/
theorem restates_of_same {r e : Expr} (h : r.same e = true) : r.Restates e := by
  -- along the definition of equality; nodes of other kinds have no value
  cases e with
  | number text t =>
    cases r with
    | number text' t' =>
      obtain rfl := eq_of_beq (α := String) h
      exact Restates.refl _
    | _ => cases h
  | var name items t =>
    cases r with
    | var name' items' t' =>
      obtain ⟨name_eq, items_same⟩ := Bool.and_eq_true_iff.1 h
      obtain rfl := eq_of_beq name_eq
      exact restates_var (restates_of_sameAll items_same)
    | _ => cases h
  | unary op operand t =>
    cases r with
    | unary op' operand' t' =>
      obtain ⟨alike, same⟩ := Bool.and_eq_true_iff.1 h
      intro ρ q means
      obtain ⟨x, value, sign⟩ := value_unary_eq_some.1 means
      exact value_unary_eq_some.2 ⟨x, restates_of_same same ρ x value,
        (Operator.signOnRat?_of_alike alike x).trans sign⟩
    | _ => cases h
  | binary op lhs rhs t =>
    cases r with
    | binary op' lhs' rhs' t' =>
      obtain ⟨h, same_r⟩ := Bool.and_eq_true_iff.1 h
      obtain ⟨alike, same_l⟩ := Bool.and_eq_true_iff.1 h
      intro ρ q means
      obtain ⟨x, y, value_l, value_r, result⟩ := value_binary_eq_some.1 means
      exact value_binary_eq_some.2 ⟨x, y, restates_of_same same_l ρ x value_l,
        restates_of_same same_r ρ y value_r, (Operator.onRat?_of_alike alike x y).trans result⟩
    | _ => cases h
  | _ =>
    intro ρ q means
    cases means

/-- Equal lists restate each other. -/
theorem restates_of_sameAll {rs es : List Expr} (h : sameAll rs es = true) :
    List.Forall₂ Restates rs es := by
  cases es with
  | nil =>
    cases rs with
    | nil => exact .nil
    | cons r rs => cases h
  | cons e es =>
    cases rs with
    | nil => cases h
    | cons r rs =>
      obtain ⟨same, later⟩ := Bool.and_eq_true_iff.1 h
      exact .cons (restates_of_same same) (restates_of_sameAll later)

end

end Expr

end TexAlgebra
