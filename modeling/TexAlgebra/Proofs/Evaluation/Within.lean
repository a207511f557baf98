import TexAlgebra.Proofs.Formula
/-!
# What an evaluation looks up

An evaluation looks up the variables of an expression, those that it calls among them. If the names
of all of them are known to lie in some set, or to be those of parameters, the expression is said to
be within these names (`Expr.IsWithin`). The body of a function is within its own parameters in
place of those around it.

Putting expressions in place of the parameters gives an expression within the remaining names
(`Expr.IsWithin.substitute`).
-/

namespace TexAlgebra.Expr

/-- Whether the name of `x`, if it is a variable, is in `P`. -/
def IsNamedIn (P : String → Prop) (x : Expr) : Prop := ∀ name ∈ x.variableName?, P name

/-- Whether all variables that are looked up in an evaluation of an expression have a name in `P` or
are plain names from a list. What is called has a name in `P`. -/
inductive IsWithin (P : String → Prop) : List String → Expr → Prop
  | number {C : List String} {text : String} {token : Option Token} :
    IsWithin P C (.number text token)
  | var {C : List String} {name : String} {subscripts : List Expr} {token : Option Token}
      (located : P name ∨ subscripts = [] ∧ name ∈ C) : IsWithin P C (.var name subscripts token)
  | unary {C : List String} {op : Operator} {operand : Expr} {token : Option Token}
      (inner : IsWithin P C operand) : IsWithin P C (.unary op operand token)
  | binary {C : List String} {op : Operator} {lhs rhs : Expr} {token : Option Token}
      (left : IsWithin P C lhs) (right : IsWithin P C rhs) : IsWithin P C (.binary op lhs rhs token)
  | group {C : List String} {items : List Expr} {token : Option Token}
      (all : ∀ e ∈ items, IsWithin P C e) : IsWithin P C (.group items token)
  | command {C : List String} {name : String} {arguments : List Expr} {token : Option Token}
      (all : ∀ e ∈ arguments, IsWithin P C e) : IsWithin P C (.command name arguments token)
  | block {C : List String} {name : String} {arguments : List String} {statements : List Expr}
      {token : Option Token} (all : ∀ e ∈ statements, IsWithin P C e) :
    IsWithin P C (.block name arguments statements token)
  | prototype {C : List String} {name : Expr} {parameters : List Expr} {token : Option Token} :
    IsWithin P C (.prototype name parameters token)
  | function {C : List String} {form : FunctionForm} {name : Expr} {parameters : List Expr}
      {head : Option Token} {body : Expr} {closed : List (Expr × Expr)} {token : Option Token}
      (inner : IsWithin P (parameters.filterMap name?) body) :
    IsWithin P C (.function form name parameters head body closed token)
  | call {C : List String} {callee : Expr} {arguments : List Expr} {token : Option Token}
      (named : callee.IsNamedIn P) (all : ∀ e ∈ arguments, IsWithin P C e) :
    IsWithin P C (.call callee arguments token)
  | binding {C : List String} {target value : Expr} {token : Option Token}
      (bound : IsWithin P C value) : IsWithin P C (.binding target value token)

variable {P : String → Prop} {C D : List String} {e : Expr}

/-- A function is within some names if its body is, where the parameters count as well. -/
theorem isWithin_toExpr {f : Function} :
    IsWithin P C f.toExpr ↔ IsWithin P (f.parameters.filterMap name?) f.body :=
  ⟨fun h => by cases h with | function inner => exact inner, .function⟩

/-- The name of what is within `P` is in `P`. -/
theorem IsWithin.isNamedIn (h : IsWithin P [] e) : e.IsNamedIn P := by
  intro name mem
  cases h with
  | var located =>
    cases mem
    exact located.resolve_right fun plain => List.not_mem_nil plain.2
  | _ => cases mem

/-- What is within some names is within more. -/
theorem IsWithin.mono (h : IsWithin P C e) (sub : ∀ name ∈ C, name ∈ D) : IsWithin P D e := by
  induction h with
  | number => exact .number
  | var located => exact .var (located.imp_right fun plain => ⟨plain.1, sub _ plain.2⟩)
  | unary _ inner => exact .unary (inner sub)
  | binary _ _ left right => exact .binary (left sub) (right sub)
  | group _ all => exact .group fun e he => all e he sub
  | command _ all => exact .command fun e he => all e he sub
  | block _ all => exact .block fun e he => all e he sub
  | prototype => exact .prototype
  | function inner _ => exact .function inner
  | call named _ all => exact .call named fun e he => all e he sub
  | binding _ bound => exact .binding (bound sub)

/-! ## Substitution -/

variable {bindings : List (Expr × Expr)}

/-- To replace variables by values within `P` keeps the name within `P`. -/
theorem IsNamedIn.substitute (h : e.IsNamedIn P) (values : ∀ b ∈ bindings, IsWithin P [] b.2) :
    (e.substitute bindings).IsNamedIn P := by
  intro name mem
  cases e with
  | var n subscripts token =>
    rw [substitute_var] at mem
    cases found : lastBound? bindings (var n subscripts token) with
    | none =>
      rw [found] at mem
      exact h name mem
    | some v =>
      rw [found] at mem
      obtain ⟨y, hy⟩ := mem_of_lastBound? found
      exact (values _ hy).isNamedIn name mem
  | number text token =>
    rw [substitute_number] at mem
    cases mem
  | unary => rw [substitute_unary] at mem; cases mem
  | binary => rw [substitute_binary] at mem; cases mem
  | group => rw [substitute_group] at mem; cases mem
  | command => rw [substitute_command] at mem; cases mem
  | block => rw [substitute_block] at mem; cases mem
  | prototype => rw [substitute_prototype] at mem; cases mem
  | function => rw [substitute_function] at mem; cases mem
  | call => rw [substitute_call] at mem; cases mem
  | binding => rw [substitute_binding] at mem; cases mem

/-- If what is put in the place of variables is within `P` alone, and every parameter is replaced or
stays a parameter, the result is within `P` and the parameters that stay. -/
theorem IsWithin.substitute (h : IsWithin P C e) (values : ∀ b ∈ bindings, IsWithin P [] b.2)
    (replaced : ∀ name ∈ C, name ∈ D ∨ Scope.latest name bindings ≠ none) :
    IsWithin P D (e.substitute bindings) := by
  induction h generalizing D with
  | number =>
    rw [substitute_number]
    exact .number
  | @var C name subscripts token located =>
    rw [substitute_var]
    cases found : lastBound? bindings (.var name subscripts token) with
    | some v =>
      obtain ⟨y, mem⟩ := mem_of_lastBound? found
      exact (values _ mem).mono fun _ h => (List.not_mem_nil h).elim
    | none =>
      refine .var (located.imp_right ?_)
      rintro ⟨rfl, mem⟩
      rw [lastBound?_name] at found
      exact ⟨rfl, (replaced name mem).resolve_right fun bound => bound found⟩
  | unary _ inner =>
    rw [substitute_unary]
    exact .unary (inner replaced)
  | binary _ _ left right =>
    rw [substitute_binary]
    exact .binary (left replaced) (right replaced)
  | group _ all =>
    rw [substitute_group]
    exact .group (List.forall_mem_map.2 fun e he => all e he replaced)
  | command _ all =>
    rw [substitute_command]
    exact .command (List.forall_mem_map.2 fun e he => all e he replaced)
  | block _ all =>
    rw [substitute_block]
    exact .block (List.forall_mem_map.2 fun e he => all e he replaced)
  | prototype =>
    rw [substitute_prototype]
    exact .prototype
  | function _ inner =>
    -- the parameters of an inner function stay, whatever is put into its body
    rw [substitute_function]
    exact .function (inner fun _ mem => .inl mem)
  | call named _ all =>
    rw [substitute_call]
    exact .call (named.substitute values) (List.forall_mem_map.2 fun e he => all e he replaced)
  | binding _ bound =>
    rw [substitute_binding]
    exact .binding (bound replaced)

end TexAlgebra.Expr
