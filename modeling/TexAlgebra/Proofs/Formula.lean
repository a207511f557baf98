import TexAlgebra.Proofs.Environment
import TexAlgebra.Proofs.Printer.Nonempty
import TexAlgebra.Proofs.Printer.RoundTrip
/-!
# Formulas

The expressions without calls, definitions and lists, in which every variable is a plain name
(`Expr.IsFormula`). Their leaves are numbers and names, and putting formulas in place of names gives
a formula again, with the leaves that were put in. A formula can always be written out. If variables
may have subscripts and numbers and names are arbitrary, an expression is only algebraic
(`Expr.IsAlgebraic`).
-/

namespace TexAlgebra

namespace Expr

/-! ## Leaves -/

mutual

/-- The operands of an expression that are not built from others by signs, operators, groups or
control words, from left to right. -/
def leaves : Expr → List Expr
  | unary _ operand _ => leaves operand
  | binary _ lhs rhs _ => leaves lhs ++ leaves rhs
  | group items _ => leavesOfAll items
  | command _ arguments _ => leavesOfAll arguments
  | e => [e]

/-- The leaves of several expressions. -/
def leavesOfAll : List Expr → List Expr
  | [] => []
  | e :: es => leaves e ++ leavesOfAll es

end

/-- The plain names among the leaves of an expression. -/
def names (e : Expr) : List String := e.leaves.filterMap name?

/-- Each of several expressions has at most as many levels as the highest of them. -/
theorem height_le_heightAll {e : Expr} {es : List Expr} (mem : e ∈ es) :
    e.height ≤ heightAll es := by
  induction es with
  | nil => cases mem
  | cons a es ih =>
    rw [heightAll]
    rcases List.mem_cons.1 mem with rfl | mem
    · exact Nat.le_max_left _ _
    · exact (ih mem).trans (Nat.le_max_right _ _)

/-- The leaves of several expressions are those of each. -/
theorem mem_leavesOfAll {es : List Expr} {l : Expr} :
    l ∈ leavesOfAll es ↔ ∃ e ∈ es, l ∈ e.leaves := by
  induction es with
  | nil => simp [leavesOfAll]
  | cons e es ih => simp [leavesOfAll, ih]

/-- The names of an expression are those of its leaves. -/
theorem mem_names {e : Expr} {name : String} :
    name ∈ e.names ↔ ∃ token, .var name [] token ∈ e.leaves := by
  simp only [names, List.mem_filterMap, name?_eq_some]
  constructor
  · rintro ⟨_, h, token, rfl⟩
    exact ⟨token, h⟩
  · rintro ⟨token, h⟩
    exact ⟨_, h, token, rfl⟩

/-- The names of an operation are those of its operands. -/
theorem mem_names_binary {op : Operator} {lhs rhs : Expr} {token : Option Token} {name : String} :
    name ∈ (binary op lhs rhs token).names ↔ name ∈ lhs.names ∨ name ∈ rhs.names := by
  rw [names, leaves, List.filterMap_append, List.mem_append]
  rfl

/-- The names of several expressions are those of each. -/
theorem mem_filterMap_leavesOfAll {es : List Expr} {name : String} :
    name ∈ (leavesOfAll es).filterMap name? ↔ ∃ e ∈ es, name ∈ e.names := by
  induction es with
  | nil => simp [leavesOfAll]
  | cons e es ih => simp [leavesOfAll, List.filterMap_append, ih, names]

/-! ## Formulas -/

/-- Whether `name` is a run of letters, or a fresh name with a number below `n`. -/
def IsUsed (n : Nat) (name : String) : Prop :=
  IsName name ∨ ∃ i < n, name = "anon" ++ i.repr

/-- The expressions built from numerals that can be written out, names without subscripts, signs,
operators, groups and control words. Every name is a run of letters or a fresh name with a number
below `n`. -/
inductive IsFormula (n : Nat) : Expr → Prop
  | number {text : String} {token : Option Token}
      (writable : ∃ shown, Numeral.render text = .ok shown) : IsFormula n (.number text token)
  | var {name : String} {token : Option Token} (used : IsUsed n name) :
    IsFormula n (.var name [] token)
  | unary {op : Operator} {operand : Expr} {token : Option Token} (inner : IsFormula n operand) :
    IsFormula n (.unary op operand token)
  | binary {op : Operator} {lhs rhs : Expr} {token : Option Token} (left : IsFormula n lhs)
      (right : IsFormula n rhs) : IsFormula n (.binary op lhs rhs token)
  | group {items : List Expr} {token : Option Token} (all : ∀ e ∈ items, IsFormula n e) :
    IsFormula n (.group items token)
  | command {name : String} {arguments : List Expr} {token : Option Token} (word : IsCommand name)
      (all : ∀ e ∈ arguments, IsFormula n e) : IsFormula n (.command name arguments token)

/-- The expressions built from numbers, variables, signs, operators, groups and control words. -/
inductive IsAlgebraic : Expr → Prop
  | number {text : String} {token : Option Token} : IsAlgebraic (.number text token)
  | var {name : String} {subscripts : List Expr} {token : Option Token} :
    IsAlgebraic (.var name subscripts token)
  | unary {op : Operator} {operand : Expr} {token : Option Token} (inner : IsAlgebraic operand) :
    IsAlgebraic (.unary op operand token)
  | binary {op : Operator} {lhs rhs : Expr} {token : Option Token} (left : IsAlgebraic lhs)
      (right : IsAlgebraic rhs) : IsAlgebraic (.binary op lhs rhs token)
  | group {items : List Expr} {token : Option Token} (all : ∀ e ∈ items, IsAlgebraic e) :
    IsAlgebraic (.group items token)
  | command {name : String} {arguments : List Expr} {token : Option Token}
      (all : ∀ e ∈ arguments, IsAlgebraic e) : IsAlgebraic (.command name arguments token)

variable {n m : Nat} {e : Expr}

/-- What is algebraic is no function. -/
theorem IsAlgebraic.isFunction (h : e.IsAlgebraic) : e.isFunction = false := by
  cases h <;> rfl

/-- A formula is algebraic. -/
theorem IsFormula.isAlgebraic (h : IsFormula n e) : e.IsAlgebraic := by
  induction h with
  | number _ => exact .number
  | var _ => exact .var
  | unary _ inner => exact .unary inner
  | binary _ _ left right => exact .binary left right
  | group _ all => exact .group all
  | command _ _ all => exact .command all

/-- A name that is used before a number is used before any later one. -/
theorem IsUsed.mono {name : String} (h : IsUsed n name) (le : n ≤ m) : IsUsed m name :=
  h.imp_right fun ⟨i, lt, eq⟩ => ⟨i, lt.trans_le le, eq⟩

/-- A formula has used names at any later number. -/
theorem IsFormula.mono (h : IsFormula n e) (le : n ≤ m) : IsFormula m e := by
  induction h with
  | number writable => exact .number writable
  | var used => exact .var (used.mono le)
  | unary _ inner => exact .unary inner
  | binary _ _ left right => exact .binary left right
  | group _ all => exact .group all
  | command word _ all => exact .command word all

/-- A leaf of a formula is a number or a name. -/
theorem IsFormula.of_mem_leaves (h : IsFormula n e) {l : Expr} (mem : l ∈ e.leaves) :
    (∃ text token, l = .number text token) ∨
      ∃ name token, l = .var name [] token ∧ IsUsed n name := by
  induction h with
  | number _ => exact .inl ⟨_, _, List.mem_singleton.1 mem⟩
  | var used => exact .inr ⟨_, _, List.mem_singleton.1 mem, used⟩
  | unary _ inner => exact inner mem
  | binary _ _ left right => exact (List.mem_append.1 mem).elim left right
  | group _ all | command _ _ all =>
    obtain ⟨e, he, mem⟩ := mem_leavesOfAll.1 mem
    exact all e he mem

/-- All names of a formula are used. -/
theorem IsFormula.isUsed_of_mem_names (h : IsFormula n e) {name : String} (mem : name ∈ e.names) :
    IsUsed n name := by
  obtain ⟨token, mem⟩ := mem_names.1 mem
  obtain ⟨text, t, eq⟩ | ⟨_, _, eq, used⟩ := h.of_mem_leaves mem
  · cases eq
  · cases eq
    exact used

/-! ## Occurrences -/

/-- A variable occurs in some expressions if it occurs in one. -/
theorem occursInAny_eq {x : Expr} {es : List Expr} {p : Expr → Prop} [DecidablePred p]
    (h : ∀ e ∈ es, x.occursIn e = .ok (p e)) : x.occursInAny es = .ok (∃ e ∈ es, p e) := by
  induction es with
  | nil => rw [occursInAny]; simp; rfl
  | cons e es ih =>
    rw [occursInAny, h e List.mem_cons_self, ih fun e he => h e (List.mem_cons_of_mem _ he)]
    by_cases found : p e <;> simp [found, either] <;> rfl

/-- A name occurs in a formula if it is one of its leaves. -/
theorem IsFormula.occursIn_name (h : IsFormula n e) (name : String) (token : Option Token) :
    (Expr.var name [] token).occursIn e = .ok (name ∈ e.names) := by
  induction h with
  | number _ =>
    rw [occursIn, matchesWith_name]
    rfl
  | @var m t _ =>
    rw [occursIn, matchesWith_name]
    by_cases same : m = name
    · simp [name?, names, leaves, same]
      rfl
    · simp [name?, names, leaves, same, Ne.symm same, occursInAny]
      rfl
  | unary _ ih =>
    rw [occursIn, matchesWith_name]
    exact ih
  | @binary op lhs rhs t _ _ left right =>
    rw [occursIn, matchesWith_name]
    show either _ _ = _
    rw [left, right]
    by_cases found : name ∈ lhs.names <;> simp [mem_names_binary, found, either] <;> rfl
  | group _ all | command _ _ all =>
    rw [occursIn, matchesWith_name]
    refine (occursInAny_eq all).trans ?_
    simp only [← mem_filterMap_leavesOfAll]
    rfl

/-! ## Substitution -/

variable {bindings : List (Expr × Expr)}

/-- Nothing is replaced in a number. -/
theorem substitute_number (text : String) (token : Option Token) :
    (number text token).substitute bindings = .number text token := by
  rw [substitute, visit.eq_def]
  rfl

/-- A name is replaced by its latest value, or stays. -/
theorem substitute_name (name : String) (token : Option Token) :
    (var name [] token).substitute bindings =
      (Scope.latest name bindings).getD (.var name [] token) := by
  rw [substitute, visit.eq_def, substitution]
  simp only [lastBound?_name]
  cases Scope.latest name bindings with
  | none => rfl
  | some value => rfl

theorem substitute_unary (op : Operator) (operand : Expr) (token : Option Token) :
    (unary op operand token).substitute bindings =
      .unary op (operand.substitute bindings) token := by
  rw [substitute, visit.eq_def]
  rfl

theorem substitute_binary (op : Operator) (lhs rhs : Expr) (token : Option Token) :
    (binary op lhs rhs token).substitute bindings =
      .binary op (lhs.substitute bindings) (rhs.substitute bindings) token := by
  rw [substitute, visit.eq_def]
  rfl

/-- A list is replaced expression by expression. -/
theorem visitAll_substitution (es : List Expr) :
    Id.run (visitAll (substitution bindings) es) = es.map (substitute bindings) := by
  induction es with
  | nil =>
    rw [visitAll]
    rfl
  | cons e es ih =>
    rw [visitAll, List.map_cons, ← ih]
    rfl

theorem substitute_group (items : List Expr) (token : Option Token) :
    (group items token).substitute bindings = .group (items.map (substitute bindings)) token := by
  rw [substitute, visit.eq_def, ← visitAll_substitution]
  rfl

theorem substitute_command (name : String) (arguments : List Expr) (token : Option Token) :
    (command name arguments token).substitute bindings =
      .command name (arguments.map (substitute bindings)) token := by
  rw [substitute, visit.eq_def, ← visitAll_substitution]
  rfl

/-- What replaces a variable is bound to one. -/
theorem mem_of_lastBound? {x v : Expr} (h : lastBound? bindings x = some v) :
    ∃ y, (y, v) ∈ bindings := by
  obtain ⟨⟨y, w⟩, found, rfl⟩ := Option.map_eq_some_iff.1 h
  exact ⟨y, List.mem_reverse.1 (List.mem_of_find?_eq_some found)⟩

/-- A variable is replaced as a whole, and only if it is not, its subscripts are looked at. -/
theorem substitute_var (name : String) (subscripts : List Expr) (token : Option Token) :
    (var name subscripts token).substitute bindings =
      (lastBound? bindings (.var name subscripts token)).getD
        (.var name (subscripts.map (substitute bindings)) token) := by
  have replaced : (substitution bindings).replacement? (var name subscripts token) =
      lastBound? bindings (var name subscripts token) := rfl
  rw [substitute, visit.eq_def, replaced, ← visitAll_substitution]
  cases lastBound? bindings (var name subscripts token) <;> rfl

theorem substitute_block (name : String) (arguments : List String) (statements : List Expr)
    (token : Option Token) :
    (block name arguments statements token).substitute bindings =
      .block name arguments (statements.map (substitute bindings)) token := by
  rw [substitute, visit.eq_def, ← visitAll_substitution]
  rfl

/-- Nothing is replaced in a prototype. -/
theorem substitute_prototype (name : Expr) (parameters : List Expr) (token : Option Token) :
    (prototype name parameters token).substitute bindings = .prototype name parameters token := by
  rw [substitute, visit.eq_def]
  rfl

/-- Of a function only the body is replaced. -/
theorem substitute_function (form : FunctionForm) (name : Expr) (parameters : List Expr)
    (head : Option Token) (body : Expr) (closed : List (Expr × Expr)) (token : Option Token) :
    (function form name parameters head body closed token).substitute bindings =
      .function form name parameters head (body.substitute bindings) closed token := by
  rw [substitute, visit.eq_def]
  rfl

theorem substitute_call (callee : Expr) (arguments : List Expr) (token : Option Token) :
    (call callee arguments token).substitute bindings =
      .call (callee.substitute bindings) (arguments.map (substitute bindings)) token := by
  rw [substitute, visit.eq_def, ← visitAll_substitution]
  rfl

theorem substitute_binding (target value : Expr) (token : Option Token) :
    (binding target value token).substitute bindings =
      .binding (target.substitute bindings) (value.substitute bindings) token := by
  rw [substitute, visit.eq_def]
  rfl

/-- The leaves of a formula after a substitution are those of its substituted leaves. -/
theorem IsFormula.mem_leaves_substitute (h : IsFormula n e) {l : Expr} :
    l ∈ (e.substitute bindings).leaves ↔ ∃ k ∈ e.leaves, l ∈ (k.substitute bindings).leaves := by
  induction h with
  | number _ => simp [leaves]
  | var _ => simp [leaves]
  | unary _ ih => rw [substitute_unary, leaves, leaves, ih]
  | binary _ _ left right =>
    simp only [substitute_binary, leaves, List.mem_append, left, right, or_and_right, exists_or]
  | group _ all | command _ _ all =>
    first | rw [substitute_group] | rw [substitute_command]
    rw [leaves, leaves, mem_leavesOfAll]
    simp only [List.mem_map, mem_leavesOfAll]
    constructor
    · rintro ⟨_, ⟨e, he, rfl⟩, hl⟩
      obtain ⟨k, hk, hl⟩ := (all e he).1 hl
      exact ⟨k, ⟨e, he, hk⟩, hl⟩
    · rintro ⟨k, ⟨e, he, hk⟩, hl⟩
      exact ⟨_, ⟨e, he, rfl⟩, (all e he).2 ⟨k, hk, hl⟩⟩

/-- A formula stays one when formulas are put in place of its names. -/
theorem IsFormula.substitute (h : IsFormula n e)
    (values : ∀ b ∈ bindings, IsFormula n b.2) : IsFormula n (e.substitute bindings) := by
  induction h with
  | number writable =>
    rw [substitute_number]
    exact .number writable
  | @var name token used =>
    rw [substitute_name]
    cases found : Scope.latest name bindings with
    | none => exact .var used
    | some value =>
      obtain ⟨x, mem, -⟩ := Scope.exists_of_latest found
      exact values _ mem
  | unary _ inner =>
    rw [substitute_unary]
    exact .unary inner
  | binary _ _ left right =>
    rw [substitute_binary]
    exact .binary left right
  | group _ all =>
    rw [substitute_group]
    exact .group (by simpa using all)
  | command word _ all =>
    rw [substitute_command]
    exact .command word (by simpa using all)

/-! ## Texts -/

/-- A used name has letters. -/
theorem IsUsed.ne_empty {name : String} (h : IsUsed n name) : name ≠ "" := by
  rintro rfl
  obtain ⟨nonempty, -⟩ | ⟨i, -, eq⟩ := h
  · exact nonempty rfl
  · have := congrArg String.toList eq
    simp at this

/-- A command has letters. -/
theorem IsCommand.ne_empty {name : String} (h : IsCommand name) : name ≠ "" := by
  rintro rfl
  obtain ⟨-, letters, spelled, -⟩ := h
  cases spelled

/-- A formula can be written out, and its text is not empty. -/
theorem IsFormula.exists_tex (h : IsFormula n e) (style : Style) :
    ∃ text, e.tex style = .ok text ∧ text ≠ "" := by
  induction h with
  | number writable =>
    obtain ⟨shown, rendered⟩ := writable
    exact ⟨shown, rendered, Numeral.render_ne_empty rendered⟩
  | @var name token used =>
    refine ⟨name, ?_, used.ne_empty⟩
    rw [tex]
    simp
    rfl
  | @unary op operand token _ inner =>
    obtain ⟨text, written, -⟩ := inner
    refine ⟨_, by rw [tex, written]; rfl, ?_⟩
    cases op <;> simp [Operator.sign]
  | @binary op lhs rhs token _ _ left right =>
    obtain ⟨a, written_l, nonempty_l⟩ := left
    obtain ⟨b, written_r, nonempty_r⟩ := right
    obtain ⟨text, written, nonempty⟩ :=
      Printer.operation_nonempty style op lhs rhs nonempty_l nonempty_r
    exact ⟨text, by rw [tex, written_l, written_r]; exact written, nonempty⟩
  | group _ all =>
    obtain ⟨texts, written⟩ := texAll_ok fun e he => (all e he).imp fun _ h => h.1
    exact ⟨_, by rw [tex, written]; rfl, by simp [Printer.braced]⟩
  | command word _ all =>
    obtain ⟨texts, written⟩ := texAll_ok fun e he => (all e he).imp fun _ h => h.1
    exact ⟨_, by rw [tex, written]; rfl, by simp [word.ne_empty]⟩

end Expr

end TexAlgebra
