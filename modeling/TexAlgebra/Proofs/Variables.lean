import TexAlgebra.Fault
import TexAlgebra.Proofs.Formula
/-!
# Variables of expressions

A variable occurs in an expression wherever it is written: as an operand, in a subscript, as the
name or a parameter of a function, and also among the parameters that were supplied to a function
before. `Expr.AllVariables P` says that all of them have the property `P`. A substitution keeps it
if the expressions that are put in have it, and a classification has it if the expressions in it
have it.
-/

namespace TexAlgebra

variable {P Q : Expr → Prop}

namespace Expr

/-- Whether all variables that occur in an expression have the property `P`. -/
inductive AllVariables (P : Expr → Prop) : Expr → Prop
  | number {text : String} {token : Option Token} : AllVariables P (.number text token)
  | var {name : String} {subscripts : List Expr} {token : Option Token}
      (itself : P (.var name subscripts token)) (all : ∀ e ∈ subscripts, AllVariables P e) :
    AllVariables P (.var name subscripts token)
  | unary {op : Operator} {operand : Expr} {token : Option Token}
      (inner : AllVariables P operand) : AllVariables P (.unary op operand token)
  | binary {op : Operator} {lhs rhs : Expr} {token : Option Token} (left : AllVariables P lhs)
      (right : AllVariables P rhs) : AllVariables P (.binary op lhs rhs token)
  | group {items : List Expr} {token : Option Token} (all : ∀ e ∈ items, AllVariables P e) :
    AllVariables P (.group items token)
  | command {name : String} {arguments : List Expr} {token : Option Token}
      (all : ∀ e ∈ arguments, AllVariables P e) : AllVariables P (.command name arguments token)
  | block {name : String} {arguments : List String} {statements : List Expr}
      {token : Option Token} (all : ∀ e ∈ statements, AllVariables P e) :
    AllVariables P (.block name arguments statements token)
  | prototype {name : Expr} {parameters : List Expr} {token : Option Token}
      (named : AllVariables P name) (all : ∀ p ∈ parameters, AllVariables P p) :
    AllVariables P (.prototype name parameters token)
  | function {form : FunctionForm} {name : Expr} {parameters : List Expr} {head : Option Token}
      {body : Expr} {closed : List (Expr × Expr)} {token : Option Token}
      (named : AllVariables P name) (all : ∀ p ∈ parameters, AllVariables P p)
      (inner : AllVariables P body) (supplied : ∀ b ∈ closed, AllVariables P b.1)
      (values : ∀ b ∈ closed, AllVariables P b.2) :
    AllVariables P (.function form name parameters head body closed token)
  | call {callee : Expr} {arguments : List Expr} {token : Option Token}
      (called : AllVariables P callee) (all : ∀ e ∈ arguments, AllVariables P e) :
    AllVariables P (.call callee arguments token)
  | binding {target value : Expr} {token : Option Token} (bound : AllVariables P target)
      (inner : AllVariables P value) : AllVariables P (.binding target value token)

end Expr

/-- Whether all variables that occur in a function have the property `P`. -/
structure Function.AllVariables (P : Expr → Prop) (f : Function) : Prop where
  named : f.name.AllVariables P
  all : ∀ p ∈ f.parameters, p.AllVariables P
  inner : f.body.AllVariables P
  supplied : ∀ b ∈ f.closed, b.1.AllVariables P
  values : ∀ b ∈ f.closed, b.2.AllVariables P

/-- A function mentions the same variables as an expression. -/
theorem Function.allVariables_toExpr {f : Function} :
    f.toExpr.AllVariables P ↔ f.AllVariables P := by
  constructor
  · intro h
    cases h with
    | function named all inner supplied values => exact ⟨named, all, inner, supplied, values⟩
  · exact fun h => .function h.named h.all h.inner h.supplied h.values

namespace Expr

variable {e : Expr} {bindings : List (Expr × Expr)}

/-- What follows from a property of all variables holds of all variables. -/
theorem AllVariables.mono (h : AllVariables P e) (imp : ∀ x, P x → Q x) : AllVariables Q e := by
  induction h with
  | number => exact .number
  | var itself _ all => exact .var (imp _ itself) all
  | unary _ inner => exact .unary inner
  | binary _ _ left right => exact .binary left right
  | group _ all => exact .group all
  | command _ all => exact .command all
  | block _ all => exact .block all
  | prototype _ _ named all => exact .prototype named all
  | function _ _ _ _ _ named all inner supplied values =>
    exact .function named all inner supplied values
  | call _ _ called all => exact .call called all
  | binding _ _ bound inner => exact .binding bound inner

/-- A substitution brings in no variables but those of the expressions that it puts in. It may
change the subscripts of those that stay, so the property must be one of their names. -/
theorem AllVariables.substitute
    (alike : ∀ {name subscripts subscripts' token}, P (.var name subscripts token) →
      P (.var name subscripts' token))
    (h : AllVariables P e) (values : ∀ b ∈ bindings, AllVariables P b.2) :
    AllVariables P (e.substitute bindings) := by
  induction h with
  | number =>
    rw [substitute_number]
    exact .number
  | @var name subscripts token itself _ all =>
    rw [substitute_var]
    cases found : lastBound? bindings (.var name subscripts token) with
    | none => exact .var (alike itself) (List.forall_mem_map.2 all)
    | some v =>
      obtain ⟨y, mem⟩ := mem_of_lastBound? found
      exact values _ mem
  | unary _ inner =>
    rw [substitute_unary]
    exact .unary inner
  | binary _ _ left right =>
    rw [substitute_binary]
    exact .binary left right
  | group _ all =>
    rw [substitute_group]
    exact .group (List.forall_mem_map.2 all)
  | command _ all =>
    rw [substitute_command]
    exact .command (List.forall_mem_map.2 all)
  | block _ all =>
    rw [substitute_block]
    exact .block (List.forall_mem_map.2 all)
  | prototype named all =>
    rw [substitute_prototype]
    exact .prototype named all
  | function named all _ supplied values' _ _ inner =>
    rw [substitute_function]
    exact .function named all inner supplied values'
  | call _ _ called all =>
    rw [substitute_call]
    exact .call called (List.forall_mem_map.2 all)
  | binding _ _ bound inner =>
    rw [substitute_binding]
    exact .binding bound inner

end Expr

/-! ## Classifications and faults -/

/-- Whether all variables that occur in a classification have the property `P`. -/
inductive Classification.AllVariables (P : Expr → Prop) : Classification → Prop
  | number {node : Expr} (inner : node.AllVariables P) : AllVariables P (.number node)
  | symbolic {node : Expr} (inner : node.AllVariables P) : AllVariables P (.symbolic node)
  | unknown {node : Expr} (inner : node.AllVariables P) : AllVariables P (.unknown node)
  | function {f : Function} {bound : List (Expr × Classification)} (inner : f.AllVariables P)
      (supplied : ∀ b ∈ bound, b.1.AllVariables P) (values : ∀ b ∈ bound, AllVariables P b.2) :
    AllVariables P (.function f bound)

/-- What was found where something else was needed. -/
def Cause.found? : Cause → Option Classification
  | .typing (.notFunction given) => some given
  | .typing (.badOperand given) => some given
  | _ => none

/-- Whether all variables that occur in what a fault is about have the property `P`. -/
def Fault.AllVariables (P : Expr → Prop) (fault : Fault) : Prop :=
  ∀ c ∈ fault.cause.found?, c.AllVariables P

/-- Whether all variables that occur in what a failure is about have the property `P`. -/
def Failure.AllVariables (P : Expr → Prop) : Failure → Prop
  | .fault f => f.AllVariables P
  | .obstacle _ => True

/-- The same for the variables that a classification mentions. -/
theorem Classification.AllVariables.mono {c : Classification} (h : c.AllVariables P)
    (imp : ∀ x, P x → Q x) : c.AllVariables Q := by
  induction h with
  | number inner => exact .number (inner.mono imp)
  | symbolic inner => exact .symbolic (inner.mono imp)
  | unknown inner => exact .unknown (inner.mono imp)
  | function inner supplied _ values =>
    have inner := (Function.allVariables_toExpr.2 inner).mono imp
    exact .function (Function.allVariables_toExpr.1 inner)
      (fun b hb => (supplied b hb).mono imp) values

/-- The same for the variables that a fault cites. -/
theorem Fault.AllVariables.mono {fault : Fault} (h : fault.AllVariables P)
    (imp : ∀ x, P x → Q x) : fault.AllVariables Q :=
  fun c hc => (h c hc).mono imp

/-- The same for the variables that a failure cites. -/
theorem Failure.AllVariables.mono {failure : Failure} (h : failure.AllVariables P)
    (imp : ∀ x, P x → Q x) : failure.AllVariables Q := by
  cases failure with
  | fault f => exact Fault.AllVariables.mono h imp
  | obstacle => trivial

end TexAlgebra
