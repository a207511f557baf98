import TexAlgebra.Proofs.Environment
import TexAlgebra.Proofs.Evaluation.Meaning
import TexAlgebra.Proofs.Expansion.Passes
import TexAlgebra.Proofs.Printer.Signs
/-!
# Reading back what was computed

Evaluating an arithmetic expression gives an arithmetic expression, and so does expanding one: every
number that is computed can be written out and read again. The text of a computed result thus means
that result, given that no base takes in its power (`Evaluation.value_parse_tex_result`). Computed
numbers can be negative, and at the base of a power these are the ones to look out for.
-/

namespace TexAlgebra

open Expr

namespace Evaluation

variable {s s' : Evaluator}

/-! ## Evaluation -/

/-- A sign in front of an arithmetic value gives an arithmetic value. -/
theorem isArithmetic_signed {op : Operator} {operand v : Expr} {token : Option Token}
    (h : signed op operand token s = (.ok v, s')) (sign : op.isSign = true)
    (arithmetic : operand.IsArithmetic) : v.IsArithmetic := by
  obtain ⟨-, rfl | ⟨text, t, result, rfl, computed, rfl⟩⟩ := signed_result h
  · exact .unary sign arithmetic
  · cases arithmetic with
    | number legible => exact .number (Numeral.isLegible_signed computed legible)

/-- An operation on arithmetic values gives an arithmetic value. -/
theorem isArithmetic_operation {op : Operator} {lhs rhs v : Expr} {token : Option Token}
    (h : operation op lhs rhs token s = (.ok v, s')) (left : lhs.IsArithmetic)
    (right : rhs.IsArithmetic) : v.IsArithmetic := by
  obtain ⟨-, rfl | ⟨a, t, b, u, result, rfl, rfl, computed, rfl⟩⟩ := operation_result h
  · exact .binary left right
  · cases left with
    | number legible_a =>
      cases right with
      | number legible_b =>
        exact .number (Numeral.isLegible_combined computed legible_a legible_b)

/-- Where arithmetic expressions are bound, evaluating one changes no bindings and yields another.
-/
theorem isArithmetic_evaluateWithin {e v : Expr} (arithmetic : e.IsArithmetic)
    (bound : s.environment.AllValues IsArithmetic)
    (h : evaluateWithin maxLevels .unbounded e s = (.ok v, s')) : s = s' ∧ v.IsArithmetic := by
  induction arithmetic generalizing v s' with
  | number legible =>
    obtain ⟨rfl, rfl⟩ := ok_of_pure h
    exact ⟨rfl, .number legible⟩
  | var letters all =>
    obtain ⟨found, r, looked, h⟩ := ok_of_bind h
    obtain ⟨found_eq, rfl⟩ := ok_of_lookup looked
    obtain ⟨rfl, rfl⟩ := ok_of_pure h
    refine ⟨rfl, ?_⟩
    cases found with
    | none => exact .var letters all
    | some value => exact bound.of_lookup found_eq
  | unary sign _ ih =>
    obtain ⟨w, r, evaluated, h⟩ := ok_of_bind h
    obtain ⟨rfl, arithmetic⟩ := ih evaluated
    exact ⟨(signed_result h).1, isArithmetic_signed h sign arithmetic⟩
  | binary _ _ ih_l ih_r =>
    obtain ⟨w, r, evaluated_l, h⟩ := ok_of_bind h
    obtain ⟨rfl, left⟩ := ih_l evaluated_l
    obtain ⟨z, r, evaluated_r, h⟩ := ok_of_bind h
    obtain ⟨rfl, right⟩ := ih_r evaluated_r
    exact ⟨(operation_result h).1, isArithmetic_operation h left right⟩

/-- An arithmetic expression has an arithmetic value where all names are bound to such. -/
theorem isArithmetic_evaluate {e v : Expr} (arithmetic : e.IsArithmetic)
    (bound : s.environment.AllValues IsArithmetic) (h : evaluate e s = (.ok v, s')) :
    v.IsArithmetic := by
  obtain ⟨evaluated, -⟩ := ok_of_evaluate h
  exact (isArithmetic_evaluateWithin arithmetic bound evaluated).2

end Evaluation

namespace Expr

/-! ## Expansion -/

variable {e r : Expr}

/-- The number one is arithmetic. -/
theorem isArithmetic_one (token : Option Token) : (one token).IsArithmetic :=
  .number (@Numeral.IsShortSplit.isLegible ['1'] [] ⟨by decide, List.all_eq_true.1 rfl, by decide⟩)

/-- A power that is contracted to a product is arithmetic if its base is. -/
theorem isArithmetic_contractPower? {base : Expr} {exponent : String} {t token : Option Token}
    (arithmetic : base.IsArithmetic) (legible : Numeral.IsLegible exponent)
    (h : contractPower? base exponent t token = .ok (some r)) : r.IsArithmetic := by
  rw [contractPower?] at h
  obtain ⟨d, -, h⟩ := ok_of_bind h
  split at h
  · cases h
    exact isArithmetic_one token
  split at h
  · obtain ⟨positive, signed, h⟩ := ok_of_bind h
    cases h
    exact .binary (isArithmetic_one t)
      (.binary arithmetic (.number (Numeral.isLegible_signed signed legible)))
  split at h
  · cases h
    exact arithmetic
  split at h
  · cases h
    exact .binary arithmetic arithmetic
  split at h
  · cases h
  obtain ⟨lowered, combined, h⟩ := ok_of_bind h
  cases lowered with
  | none => cases h
  | some lowered =>
    cases h
    have unit : Numeral.IsLegible "1" := by
      cases isArithmetic_one token with
      | number legible => exact legible
    exact .binary arithmetic
      (.binary arithmetic (.number (Numeral.isLegible_combined combined legible unit)))

/-- A product that is distributed over a sum is arithmetic if its factors are. -/
theorem isArithmetic_contractProduct? {lhs rhs : Expr} {token : Option Token}
    (left : lhs.IsArithmetic) (right : rhs.IsArithmetic)
    (h : contractProduct? lhs rhs token = some r) : r.IsArithmetic := by
  unfold contractProduct? at h
  split at h
  · cases h
    cases left with
    | binary a b => exact .binary (.binary a right) (.binary b right)
  · cases h
    cases left with
    | binary a b => exact .binary (.binary a right) (.binary b right)
  · cases h
    cases right with
    | binary a b => exact .binary (.binary left a) (.binary left b)
  · cases h
    cases right with
    | binary a b => exact .binary (.binary left a) (.binary left b)
  · cases h

/-- Rules of expansion make arithmetic expressions of arithmetic expressions. -/
theorem isArithmetic_contract? (h : contract? e = .ok (some r)) (arithmetic : e.IsArithmetic) :
    r.IsArithmetic := by
  unfold contract? at h
  split at h
  · obtain ⟨result, signed, h⟩ := ok_of_bind h
    cases h
    cases arithmetic with
    | unary _ inner =>
      cases inner with
      | number legible => exact .number (Numeral.isLegible_signed signed legible)
  · cases arithmetic with
    | binary base exponent =>
      cases exponent with
      | number legible => exact isArithmetic_contractPower? base legible h
  · cases arithmetic with
    | binary left right =>
      cases found : contractProduct? _ _ _ <;> rw [found] at h <;> cases h
      exact isArithmetic_contractProduct? left right found
  · cases arithmetic with
    | binary left right =>
      cases found : contractProduct? _ _ _ <;> rw [found] at h <;> cases h
      exact isArithmetic_contractProduct? left right found
  · cases h

/-- Being arithmetic carries over from the parts of an expression. -/
theorem isCongruence_isArithmetic :
    IsCongruence fun e r => e.IsArithmetic → r.IsArithmetic where
  refl _ arithmetic := arithmetic
  trans first second arithmetic := second (first arithmetic)
  var := by
    intro name es rs t all arithmetic
    cases arithmetic with
    | var letters parts =>
      refine .var letters ?_
      induction all with
      | nil => exact parts
      | cons first _ later =>
        obtain ⟨part, parts⟩ := List.forall_mem_cons.1 parts
        exact List.forall_mem_cons.2 ⟨first part, later parts⟩
  unary := by
    intro op e r t operand arithmetic
    cases arithmetic with
    | unary sign inner => exact .unary sign (operand inner)
  binary := by
    intro op a b c d t left right arithmetic
    cases arithmetic with
    | binary inner_l inner_r => exact .binary (left inner_l) (right inner_r)
  other := by
    intro e r kind arithmetic
    cases arithmetic <;> cases kind

/-- Expansion keeps an expression arithmetic. -/
theorem isArithmetic_expandBy {extent : Expansion} (h : expandBy extent e = .ok r)
    (arithmetic : e.IsArithmetic) : r.IsArithmetic :=
  isCongruence_isArithmetic.of_expandBy (fun _ _ => isArithmetic_contract?) h arithmetic

end Expr

namespace Evaluation

/-! ## Texts of results -/

/-- The text of what an arithmetic expression evaluates to, and of its expansion, is read as one
statement, which stands for the same number wherever the result stands for one, given that no
letters of factors meet and no base takes in its power. -/
theorem value_parse_tex_result {inline : Bool} {e v w : Expr} {s s' : Evaluator}
    (arithmetic : e.IsArithmetic) (bound : s.environment.AllValues IsArithmetic)
    (h : evaluate e s = (.ok v, s')) (result : w = v ∨ expand v = .ok w)
    (clear : w.IsClear ⟨inline, false⟩) :
    ∃ text e', w.tex ⟨inline, false⟩ = .ok text ∧ parse text = [.ok e'] ∧
      ∀ ρ q, w.value (.ofNames ρ) = some q → e'.value (.ofNames ρ) = some q := by
  have value := isArithmetic_evaluate arithmetic bound h
  have kept : w.IsArithmetic := by
    obtain rfl | expanded := result
    · exact value
    · exact @isArithmetic_expandBy _ _ .full expanded value
  exact kept.restated clear

/-- The difference `x - (2 - 5)` evaluates to one with the number `-3`, whose text is read as an
expression that is worth `4` where `x` is `1`. -/
theorem value_parse_tex_result_difference : ∃ e', parse "x - -3" = [.ok e'] ∧
    e'.value (.ofNames fun _ _ => 1) = some 4 := by
  let x : Expr := .var "x" [] none
  let e : Expr :=
    .binary .minus x (.binary .minus (.number "2" none) (.number "5" none) none) none
  let v : Expr := .binary .minus x (.number "-3" none) none
  have minus_three : Numeral.rat? "-3" = some (-3) := by
    rw [Numeral.rat?, show Decimal.ofText? "-3" = some ⟨true, 3, 0⟩ from rfl]
    norm_num [Decimal.toRat]
  have legible_two : Numeral.IsLegible "2" :=
    @Numeral.IsShortSplit.isLegible ['2'] [] ⟨by decide, List.all_eq_true.1 rfl, by decide⟩
  have legible_five : Numeral.IsLegible "5" :=
    @Numeral.IsShortSplit.isLegible ['5'] [] ⟨by decide, List.all_eq_true.1 rfl, by decide⟩
  have arithmetic : e.IsArithmetic :=
    .binary (.var ⟨by decide, List.all_eq_true.1 rfl⟩ (by simp))
      (.binary (.number legible_two) (.number legible_five))
  have bound : Evaluator.initial.environment.AllValues IsArithmetic := by
    intro scope mem binding bound
    obtain rfl := List.mem_singleton.1 mem
    cases bound
  have clear : v.IsClear .oneLine := .difference (.var (by simp)) .number
  obtain ⟨text, e', written, read, same⟩ :=
    @value_parse_tex_result true e v v .initial .initial arithmetic bound rfl (.inl rfl) clear
  have spelled : text = "x - -3" := Except.ok.inj (written.symm.trans (by rfl))
  refine ⟨e', spelled ▸ read, same _ _ ?_⟩
  exact value_binary_eq_some.2 ⟨1, -3, rfl, minus_three, by norm_num [Operator.onRat?]⟩

/-- The power `(-2)^x` evaluates to itself with the number `-2` as its base, and the text of the
result is read as `-(2^x)`. Where `x` is `2`, the one is worth `4` and the other `-4`. -/
theorem value_parse_tex_negative_base : ∃ e v e' s', e.IsArithmetic ∧
    evaluate e .initial = (.ok v, s') ∧ v.tex .oneLine = .ok "-2^x" ∧ parse "-2^x" = [.ok e'] ∧
      v.value (.ofNames fun _ _ => 2) = some 4 ∧ e'.value (.ofNames fun _ _ => 2) = some (-4) := by
  let x : Expr := .var "x" [] none
  let e : Expr := .binary .power (.unary .minus (.number "2" none) none) x none
  let r : Expr := .unary .minus (.binary .power (.number "2" none) x none) none
  have two : Numeral.rat? "2" = some 2 := by
    rw [Numeral.rat?, show Decimal.ofText? "2" = some ⟨false, 2, 0⟩ from rfl]
    norm_num [Decimal.toRat]
  have minus_two : Numeral.rat? "-2" = some (-2) := by
    rw [Numeral.rat?, show Decimal.ofText? "-2" = some ⟨true, 2, 0⟩ from rfl]
    norm_num [Decimal.toRat]
  have square : ∀ x : ℚ, Operator.power.onRat? x 2 = some (x ^ 2) := fun x => by
    have exponent := ratPower?_intCast x 2
    norm_num at exponent
    exact exponent
  have legible : Numeral.IsLegible "2" :=
    @Numeral.IsShortSplit.isLegible ['2'] [] ⟨by decide, List.all_eq_true.1 rfl, by decide⟩
  have arithmetic_x : x.IsArithmetic := .var ⟨by decide, List.all_eq_true.1 rfl⟩ (by simp)
  have arithmetic : r.IsArithmetic := .unary rfl (.binary (.number legible) arithmetic_x)
  have clear : r.IsClear .oneLine := .unary (.power .number (.var (by simp)) (by rfl))
  obtain ⟨text, e', written, read, restates⟩ := arithmetic.restated clear
  have spelled : text = "-2^x" := Except.ok.inj (written.symm.trans (by rfl))
  refine ⟨e, .binary .power (.number "-2" none) x none, e', .initial,
    .binary (.unary rfl (.number legible)) arithmetic_x, rfl, rfl, spelled ▸ read, ?_,
    restates _ _ ?_⟩
  · refine value_binary_eq_some.2 ⟨-2, 2, minus_two, rfl, ?_⟩
    rw [square]
    norm_num
  · refine value_unary_eq_some.2 ⟨4, value_binary_eq_some.2 ⟨2, 2, two, rfl, ?_⟩, rfl⟩
    rw [square]
    norm_num

end Evaluation

end TexAlgebra
