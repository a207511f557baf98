import TexAlgebra.Proofs.Formula
import TexAlgebra.Proofs.Numeral.Failures
/-!
# Expressions from a text

The expressions of a session all come from its texts: each of their nodes has a token of the texts,
or an implied product in front of one (`Expr.IsSourced`). Their numbers are computed from those of
the texts, their names are not empty, and only signs stand before operands. So all that can go wrong
when two of them are compared or one is written out is a number.
-/

namespace TexAlgebra

variable {S : Token → Prop} {α : Type}

/-! ## Tokens -/

/-- Whether `t` is a token of `S` or the product that is understood in front of one. -/
def Token.IsOf (S : Token → Prop) (t : Token) : Prop := S t ∨ ∃ u, S u ∧ t = u.impliedProduct

/-- Whether there is a token, and it is one of `S` or the product in front of one. -/
def IsPlaced (S : Token → Prop) (token : Option Token) : Prop := ∃ t, token = some t ∧ t.IsOf S

/-- A token of the texts is in its place. -/
theorem isPlaced_of_mem {t : Token} (h : S t) : IsPlaced S (some t) := ⟨t, rfl, .inl h⟩

/-- The first of two tokens is in its place if both are. -/
theorem IsPlaced.orElse {t : Option Token} (h : IsPlaced S t) (u : Option Token) :
    IsPlaced S (t <|> u) := by
  obtain ⟨t, rfl, mem⟩ := h
  exact ⟨t, rfl, mem⟩

/-- The texts of the numbers among the tokens. -/
def numbersOf (S : Token → Prop) (text : String) : Prop :=
  ∃ t, S t ∧ t.kind = .number ∧ t.text = text

namespace Expr

/-- The expressions that a session over the tokens `S` can have. -/
inductive IsSourced (S : Token → Prop) : Expr → Prop
  | number {text : String} {token : Option Token}
      (computed : Numeral.IsComputed (numbersOf S) text) (placed : IsPlaced S token) :
    IsSourced S (.number text token)
  | var {name : String} {subscripts : List Expr} {token : Option Token} (nonempty : name ≠ "")
      (all : ∀ e ∈ subscripts, IsSourced S e) (placed : IsPlaced S token) :
    IsSourced S (.var name subscripts token)
  | unary {op : Operator} {operand : Expr} {token : Option Token} (sign : op.isSign = true)
      (inner : IsSourced S operand) (placed : IsPlaced S token) :
    IsSourced S (.unary op operand token)
  | binary {op : Operator} {lhs rhs : Expr} {token : Option Token} (left : IsSourced S lhs)
      (right : IsSourced S rhs) (placed : IsPlaced S token) :
    IsSourced S (.binary op lhs rhs token)
  | group {items : List Expr} {token : Option Token} (all : ∀ e ∈ items, IsSourced S e)
      (placed : IsPlaced S token) : IsSourced S (.group items token)
  | command {name : String} {arguments : List Expr} {token : Option Token} (nonempty : name ≠ "")
      (all : ∀ e ∈ arguments, IsSourced S e) (placed : IsPlaced S token) :
    IsSourced S (.command name arguments token)
  | block {name : String} {arguments : List String} {statements : List Expr}
      {token : Option Token} (all : ∀ e ∈ statements, IsSourced S e)
      (placed : IsPlaced S token) : IsSourced S (.block name arguments statements token)
  | prototype {name : Expr} {parameters : List Expr} {token : Option Token}
      (named : IsSourced S name) (all : ∀ p ∈ parameters, IsSourced S p)
      (placed : IsPlaced S token) : IsSourced S (.prototype name parameters token)
  | function {form : FunctionForm} {name : Expr} {parameters : List Expr} {head : Option Token}
      {body : Expr} {closed : List (Expr × Expr)} {token : Option Token}
      (named : IsSourced S name) (all : ∀ p ∈ parameters, IsSourced S p)
      (headed : IsPlaced S head) (inner : IsSourced S body) (placed : IsPlaced S token) :
    IsSourced S (.function form name parameters head body closed token)
  | call {callee : Expr} {arguments : List Expr} {token : Option Token}
      (called : IsSourced S callee) (all : ∀ e ∈ arguments, IsSourced S e)
      (placed : IsPlaced S token) : IsSourced S (.call callee arguments token)
  | binding {target value : Expr} {token : Option Token} (bound : IsSourced S target)
      (inner : IsSourced S value) (placed : IsPlaced S token) :
    IsSourced S (.binding target value token)

variable {e : Expr}

/-- An expression of the texts has a token of them. -/
theorem IsSourced.placed (h : IsSourced S e) : IsPlaced S e.token := by
  cases h <;> assumption

end Expr

/-- The functions that a session over the tokens `S` can have. -/
structure Function.IsSourced (S : Token → Prop) (f : Function) : Prop where
  named : f.name.IsSourced S
  all : ∀ p ∈ f.parameters, p.IsSourced S
  headed : IsPlaced S f.head
  inner : f.body.IsSourced S
  placed : IsPlaced S f.token

/-- A function comes from the texts as an expression does. -/
theorem Function.isSourced_toExpr {f : Function} : f.toExpr.IsSourced S ↔ f.IsSourced S := by
  constructor
  · intro h
    cases h with
    | function named all headed inner placed => exact ⟨named, all, headed, inner, placed⟩
  · exact fun h => .function h.named h.all h.headed h.inner h.placed

namespace Expr

variable {e : Expr}

/-! ## Matching -/

variable {P : Obstacle → Prop}

/-- Two tests fail together as they do alone. -/
theorem failsWith_both {a b : Except Obstacle Bool} (ha : FailsWith P a) (hb : FailsWith P b) :
    FailsWith P (both a b) := by
  refine ha.bind fun found _ => ?_
  cases found with
  | true => exact hb
  | false => exact failsWith_pure

/-- One of two tests fails as they do alone. -/
theorem failsWith_either {a b : Except Obstacle Bool} (ha : FailsWith P a) (hb : FailsWith P b) :
    FailsWith P (either a b) := by
  refine ha.bind fun found _ => ?_
  cases found with
  | true => exact failsWith_pure
  | false => exact hb

/-- To match expressions one by one fails as it does for each of them. -/
theorem failsWith_matchesEach {as bs : List Expr}
    (h : ∀ a ∈ as, ∀ b ∈ bs, FailsWith P (a.matchesWith b)) :
    FailsWith P (matchesEach as bs) := by
  induction as generalizing bs with
  | nil =>
    rw [matchesEach]
    · exact failsWith_pure
    · exact fun _ _ _ _ eq => by cases eq
  | cons a as ih =>
    cases bs with
    | nil =>
      rw [matchesEach]
      · exact failsWith_pure
      · exact fun _ _ _ _ _ eq => by cases eq
    | cons b bs =>
      rw [matchesEach]
      exact failsWith_both (h a List.mem_cons_self b List.mem_cons_self)
        (ih fun a ha b hb => h a (List.mem_cons_of_mem _ ha) b (List.mem_cons_of_mem _ hb))

/-- To match lists fails as it does for each of their expressions. -/
theorem failsWith_matchesAll {as bs : List Expr}
    (h : ∀ a ∈ as, ∀ b ∈ bs, FailsWith P (a.matchesWith b)) :
    FailsWith P (matchesAll as bs) := by
  rw [matchesAll]
  exact failsWith_both failsWith_pure (failsWith_matchesEach h)

/-- Two expressions of a session can be compared unless a number cannot be written out. -/
theorem IsSourced.failsWith_matchesWith {a b : Expr} (ha : IsSourced S a) (hb : IsSourced S b) :
    FailsWith (Obstacle.IsOfNumber (numbersOf S)) (a.matchesWith b) := by
  induction ha generalizing b with
  | number computed _ =>
    cases hb with
    | number computed' _ =>
      rw [matchesWith]
      exact Numeral.failsWith_sameValue computed computed'
    | _ =>
      simp only [matchesWith]
      exact failsWith_pure
  | var _ _ _ all =>
    cases hb with
    | var _ all' _ =>
      rw [matchesWith]
      exact failsWith_both failsWith_pure
        (failsWith_matchesAll fun a ha b hb => all a ha (all' b hb))
    | _ =>
      simp only [matchesWith]
      exact failsWith_pure
  | unary _ _ _ inner =>
    cases hb with
    | unary _ inner' _ =>
      rw [matchesWith]
      exact failsWith_both failsWith_pure (inner inner')
    | _ =>
      simp only [matchesWith]
      exact failsWith_pure
  | binary _ _ _ left right =>
    cases hb with
    | binary left' right' _ =>
      rw [matchesWith]
      exact failsWith_both failsWith_pure (failsWith_both (left left') (right right'))
    | _ =>
      simp only [matchesWith]
      exact failsWith_pure
  | group _ _ all =>
    cases hb with
    | group all' _ =>
      rw [matchesWith]
      exact failsWith_matchesAll fun a ha b hb => all a ha (all' b hb)
    | _ =>
      simp only [matchesWith]
      exact failsWith_pure
  | command _ _ _ all =>
    cases hb with
    | command _ all' _ =>
      rw [matchesWith]
      exact failsWith_both failsWith_pure
        (failsWith_matchesAll fun a ha b hb => all a ha (all' b hb))
    | _ =>
      simp only [matchesWith]
      exact failsWith_pure
  | block _ _ all =>
    cases hb with
    | block all' _ =>
      rw [matchesWith]
      exact failsWith_both failsWith_pure
        (failsWith_matchesAll fun a ha b hb => all a ha (all' b hb))
    | _ =>
      simp only [matchesWith]
      exact failsWith_pure
  | prototype _ _ _ named all =>
    cases hb with
    | prototype named' all' _ =>
      rw [matchesWith]
      exact failsWith_both (named named')
        (failsWith_matchesAll fun a ha b hb => all a ha (all' b hb))
    | _ =>
      simp only [matchesWith]
      exact failsWith_pure
  | function _ _ _ _ _ named all inner =>
    cases hb with
    | function named' all' _ inner' _ =>
      rw [matchesWith]
      exact failsWith_both failsWith_pure (failsWith_both (failsWith_both (named named')
        (failsWith_matchesAll fun a ha b hb => all a ha (all' b hb))) (inner inner'))
    | _ =>
      simp only [matchesWith]
      exact failsWith_pure
  | call _ _ _ called all =>
    cases hb with
    | call called' all' _ =>
      rw [matchesWith]
      exact failsWith_both failsWith_pure (failsWith_both (called called')
        (failsWith_matchesEach fun a ha b hb => all a ha (all' b hb)))
    | _ =>
      simp only [matchesWith]
      exact failsWith_pure
  | binding _ _ _ bound inner =>
    cases hb with
    | binding bound' inner' _ =>
      rw [matchesWith]
      exact failsWith_both (bound bound') (inner inner')
    | _ =>
      simp only [matchesWith]
      exact failsWith_pure

/-- To look for a variable in a list fails as it does for each of the expressions. -/
theorem failsWith_occursInAny {x : Expr} {es : List Expr}
    (h : ∀ e ∈ es, FailsWith P (x.occursIn e)) : FailsWith P (x.occursInAny es) := by
  induction es with
  | nil =>
    rw [occursInAny]
    exact failsWith_pure
  | cons e es ih =>
    rw [occursInAny]
    exact failsWith_either (h e List.mem_cons_self)
      (ih fun e he => h e (List.mem_cons_of_mem _ he))

/-- To look for a variable of the texts in an expression of them fails only for one of their
numbers. -/
theorem IsSourced.failsWith_occursIn {x : Expr} (hx : IsSourced S x) (h : IsSourced S e) :
    FailsWith (Obstacle.IsOfNumber (numbersOf S)) (x.occursIn e) := by
  -- in every case the expression itself is looked at first, and then its parts
  induction h with
  | number computed placed =>
    rw [occursIn]
    exact failsWith_either ((IsSourced.number computed placed).failsWith_matchesWith hx)
      failsWith_pure
  | var nonempty sourced placed all =>
    rw [occursIn]
    exact failsWith_either ((IsSourced.var nonempty sourced placed).failsWith_matchesWith hx)
      (failsWith_occursInAny all)
  | unary sign sourced placed inner =>
    rw [occursIn]
    exact failsWith_either ((IsSourced.unary sign sourced placed).failsWith_matchesWith hx) inner
  | binary l r placed left right =>
    rw [occursIn]
    exact failsWith_either ((IsSourced.binary l r placed).failsWith_matchesWith hx)
      (failsWith_either left right)
  | group sourced placed all =>
    rw [occursIn]
    exact failsWith_either ((IsSourced.group sourced placed).failsWith_matchesWith hx)
      (failsWith_occursInAny all)
  | command nonempty sourced placed all =>
    rw [occursIn]
    exact failsWith_either ((IsSourced.command nonempty sourced placed).failsWith_matchesWith hx)
      (failsWith_occursInAny all)
  | block sourced placed all =>
    rw [occursIn]
    exact failsWith_either ((IsSourced.block sourced placed).failsWith_matchesWith hx)
      (failsWith_occursInAny all)
  | prototype named sourced placed _ all =>
    rw [occursIn]
    exact failsWith_either ((IsSourced.prototype named sourced placed).failsWith_matchesWith hx)
      (failsWith_occursInAny all)
  | function named sourced headed body placed _ all inner =>
    rw [occursIn]
    exact failsWith_either
      ((IsSourced.function named sourced headed body placed).failsWith_matchesWith hx)
      (failsWith_either ((IsSourced.prototype named sourced headed).failsWith_matchesWith hx)
        (failsWith_either (failsWith_occursInAny all) inner))
  | call called sourced placed callee all =>
    rw [occursIn]
    exact failsWith_either ((IsSourced.call called sourced placed).failsWith_matchesWith hx)
      (failsWith_either callee (failsWith_occursInAny all))
  | binding bound sourced placed target value =>
    rw [occursIn]
    exact failsWith_either ((IsSourced.binding bound sourced placed).failsWith_matchesWith hx)
      (failsWith_either target value)

theorem IsSourced.failsWith_occursInAny {x : Expr} {es : List Expr} (hx : IsSourced S x)
    (h : ∀ e ∈ es, IsSourced S e) :
    FailsWith (Obstacle.IsOfNumber (numbersOf S)) (x.occursInAny es) :=
  Expr.failsWith_occursInAny fun e he => hx.failsWith_occursIn (h e he)

/-! ## Substitution -/

/-- To replace variables by what comes from the texts adds nothing else. -/
theorem IsSourced.substitute {bindings : List (Expr × Expr)} (h : IsSourced S e)
    (values : ∀ b ∈ bindings, IsSourced S b.2) : IsSourced S (e.substitute bindings) := by
  induction h with
  | number computed placed =>
    rw [substitute_number]
    exact .number computed placed
  | @var name subscripts token nonempty _ placed all =>
    rw [substitute_var]
    cases found : lastBound? bindings (.var name subscripts token) with
    | none => exact .var nonempty (List.forall_mem_map.2 all) placed
    | some v =>
      obtain ⟨y, mem⟩ := mem_of_lastBound? found
      exact values _ mem
  | unary sign _ placed inner =>
    rw [substitute_unary]
    exact .unary sign inner placed
  | binary _ _ placed left right =>
    rw [substitute_binary]
    exact .binary left right placed
  | group _ placed all =>
    rw [substitute_group]
    exact .group (List.forall_mem_map.2 all) placed
  | command nonempty _ placed all =>
    rw [substitute_command]
    exact .command nonempty (List.forall_mem_map.2 all) placed
  | block _ placed all =>
    rw [substitute_block]
    exact .block (List.forall_mem_map.2 all) placed
  | prototype named sourced placed =>
    rw [substitute_prototype]
    exact .prototype named sourced placed
  | function named sourced headed _ placed _ _ inner =>
    rw [substitute_function]
    exact .function named sourced headed inner placed
  | call _ _ placed callee all =>
    rw [substitute_call]
    exact .call callee (List.forall_mem_map.2 all) placed
  | binding _ _ placed target value =>
    rw [substitute_binding]
    exact .binding target value placed

/-! ## Writing -/

/-- An expression of the texts is not written out as nothing. -/
theorem IsSourced.tex_ne_empty {style : Style} {text : String} (h : IsSourced S e)
    (written : e.tex style = .ok text) : text ≠ "" := by
  induction h generalizing text with
  | number _ _ =>
    rw [tex] at written
    exact Numeral.render_ne_empty written
  | var nonempty _ _ _ =>
    rw [tex] at written
    split at written
    · cases written
      exact nonempty
    · obtain ⟨texts, -, written⟩ := ok_of_bind written
      cases written
      simp
  | @unary op operand token _ _ _ inner =>
    rw [tex] at written
    obtain ⟨text, -, written⟩ := ok_of_bind written
    cases written
    cases op <;> simp [Operator.sign]
  | binary _ _ _ left right =>
    rw [tex] at written
    obtain ⟨l, hl, written⟩ := ok_of_bind written
    obtain ⟨r, hr, written⟩ := ok_of_bind written
    obtain ⟨text', written', nonempty⟩ :=
      Printer.operation_nonempty style _ _ _ (left hl) (right hr)
    cases written.symm.trans written'
    exact nonempty
  | group _ _ _ =>
    rw [tex] at written
    obtain ⟨texts, -, written⟩ := ok_of_bind written
    cases written
    simp [Printer.braced]
  | command nonempty _ _ _ =>
    rw [tex] at written
    obtain ⟨texts, -, written⟩ := ok_of_bind written
    cases written
    simp [nonempty]
  | block _ _ _ =>
    rw [tex] at written
    obtain ⟨lines, -, written⟩ := ok_of_bind written
    cases written
    cases lines <;> simp [Printer.block]
  | prototype _ _ _ _ _ =>
    rw [tex] at written
    obtain ⟨name, -, written⟩ := ok_of_bind written
    obtain ⟨parameters, -, written⟩ := ok_of_bind written
    cases written
    simp [Printer.parenthesized]
  | function _ _ _ _ _ _ _ _ =>
    rw [tex] at written
    obtain ⟨name, -, written⟩ := ok_of_bind written
    obtain ⟨parameters, -, written⟩ := ok_of_bind written
    obtain ⟨body, -, written⟩ := ok_of_bind written
    cases written
    simp
  | call _ _ _ _ _ =>
    rw [tex] at written
    obtain ⟨callee, -, written⟩ := ok_of_bind written
    obtain ⟨arguments, -, written⟩ := ok_of_bind written
    cases written
    simp [Printer.parenthesized]
  | binding _ _ _ _ _ =>
    rw [tex] at written
    obtain ⟨target, -, written⟩ := ok_of_bind written
    obtain ⟨value, -, written⟩ := ok_of_bind written
    cases written
    simp

mutual

/-- An expression of a session can be written out unless a number in it cannot. -/
theorem IsSourced.failsWith_tex (style : Style) {e : Expr} (h : IsSourced S e) :
    FailsWith (Obstacle.IsOfNumber (numbersOf S)) (e.tex style) := by
  cases h with
  | number computed _ =>
    rw [tex]
    exact Numeral.failsWith_render computed
  | var _ all _ =>
    rw [tex]
    split
    · exact failsWith_pure
    · exact (failsWith_texAll style all).bind fun _ _ => failsWith_pure
  | unary _ inner _ =>
    rw [tex]
    exact (inner.failsWith_tex style).bind fun _ _ => failsWith_pure
  | binary left right _ =>
    rw [tex]
    refine (left.failsWith_tex style).bind fun l hl =>
      (right.failsWith_tex style).bind fun r hr => ?_
    obtain ⟨text, written, -⟩ := Printer.operation_nonempty style _ _ _
      (left.tex_ne_empty hl) (right.tex_ne_empty hr)
    rw [written]
    exact failsWith_pure
  | group all _ =>
    rw [tex]
    exact (failsWith_texAll style all).bind fun _ _ => failsWith_pure
  | command _ all _ =>
    rw [tex]
    exact (failsWith_texAll style all).bind fun _ _ => failsWith_pure
  | block all _ =>
    rw [tex]
    exact (failsWith_texLines style _ all).bind fun _ _ => failsWith_pure
  | prototype named all _ =>
    rw [tex]
    exact (named.failsWith_tex style).bind fun _ _ =>
      (failsWith_texAll style all).bind fun _ _ => failsWith_pure
  | function named all _ inner _ =>
    rw [tex]
    exact (named.failsWith_tex style).bind fun _ _ =>
      (failsWith_texAll style all).bind fun _ _ =>
        (inner.failsWith_tex style).bind fun _ _ => failsWith_pure
  | call called all _ =>
    rw [tex]
    exact (called.failsWith_tex style).bind fun _ _ =>
      (failsWith_texAll style all).bind fun _ _ => failsWith_pure
  | binding bound inner _ =>
    rw [tex]
    exact (bound.failsWith_tex style).bind fun _ _ =>
      (inner.failsWith_tex style).bind fun _ _ => failsWith_pure
termination_by sizeOf e

/-- To write expressions of the texts out fails only for one of their numbers. -/
theorem failsWith_texAll (style : Style) {es : List Expr} (h : ∀ e ∈ es, IsSourced S e) :
    FailsWith (Obstacle.IsOfNumber (numbersOf S)) (texAll style es) := by
  cases es with
  | nil =>
    rw [texAll]
    exact failsWith_pure
  | cons e es =>
    obtain ⟨first, rest⟩ := List.forall_mem_cons.1 h
    rw [texAll]
    exact (first.failsWith_tex style).bind fun _ _ =>
      (failsWith_texAll style rest).bind fun _ _ => failsWith_pure
termination_by sizeOf es

/-- To write expressions of the texts out line by line fails only for one of their numbers. -/
theorem failsWith_texLines (style : Style) (aligned : Bool) {es : List Expr}
    (h : ∀ e ∈ es, IsSourced S e) :
    FailsWith (Obstacle.IsOfNumber (numbersOf S)) (texLines style aligned es) := by
  cases es with
  | nil =>
    rw [texLines]
    exact failsWith_pure
  | cons e es =>
    obtain ⟨first, others⟩ := List.forall_mem_cons.1 h
    rw [texLines.eq_def]
    dsimp only
    have rest (text : String) :
        FailsWith (Obstacle.IsOfNumber (numbersOf S))
          (do return text :: (← texLines style aligned es)) :=
      (failsWith_texLines style aligned others).bind fun _ _ => failsWith_pure
    split
    · next target value _ =>
      cases first with
      | binding bound inner _ =>
        exact (bound.failsWith_tex style).bind fun _ _ =>
          (inner.failsWith_tex style).bind fun _ _ => rest _
    · exact (first.failsWith_tex style).bind fun text _ => rest text
termination_by sizeOf es

end

/-- Where there may be too little room, the want of room may be the failure. -/
theorem IsSourced.failsWith_texWithin (room : Room) (style : Style) {e : Expr}
    (h : IsSourced S e) :
    FailsWith (fun o => o = .tooDeep ∨ o.IsOfNumber (numbersOf S)) (e.texWithin room style) := by
  rw [texWithin]
  split
  · exact fun o failed => .inr (h.failsWith_tex style o failed)
  · rintro _ ⟨⟩
    exact .inl rfl

end Expr

end TexAlgebra
