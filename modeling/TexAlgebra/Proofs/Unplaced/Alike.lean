import TexAlgebra.Proofs.Unplaced.Expression
import TexAlgebra.Parser.Grammar
/-!
# Expressions that differ in places

Two expressions are alike if they are the same but for the places of their tokens. Alike expressions
are of the same kind and have alike parts, and expressions that are built alike are alike.
-/

namespace TexAlgebra

/-- Whether two tokens differ in their places alone. -/
def Token.Alike (t t' : Token) : Prop := t.unplaced = t'.unplaced

/-- Whether two expressions differ in the places of their tokens alone. -/
def Expr.Alike (e e' : Expr) : Prop := e.unplaced = e'.unplaced

/-- Whether the expressions of two lists differ in the places of their tokens alone. -/
def Expr.AllAlike (es es' : List Expr) : Prop := es.map unplaced = es'.map unplaced

/-- Alike tokens are of one kind. -/
theorem Token.Alike.kind {t t' : Token} (h : t.Alike t') : t.kind = t'.kind := by
  rw [← unplaced_kind t, h, unplaced_kind]

/-- Alike tokens have one text. -/
theorem Token.Alike.text {t t' : Token} (h : t.Alike t') : t.text = t'.text := by
  rw [← unplaced_text t, h, unplaced_text]

/-- Alike tokens imply alike products. -/
theorem Token.Alike.impliedProduct {t t' : Token} (h : t.Alike t') :
    t.impliedProduct.Alike t'.impliedProduct := by
  rw [Alike, unplaced_impliedProduct, unplaced_impliedProduct, h]

namespace Expr

variable {e e' : Expr} {es es' : List Expr}

theorem Alike.token (h : e.Alike e') :
    e.token.map Token.unplaced = e'.token.map Token.unplaced := by
  rw [← token_unplaced, ← token_unplaced, h]

theorem Alike.isFunction (h : e.Alike e') : e.isFunction = e'.isFunction := by
  rw [← isFunction_unplaced e, h, isFunction_unplaced]

theorem Alike.isGroup (h : e.Alike e') : e.isGroup = e'.isGroup := by
  rw [← isGroup_unplaced e, h, isGroup_unplaced]

theorem Alike.isVariable (h : e.Alike e') : e.isVariable = e'.isVariable := by
  rw [← isVariable_unplaced e, h, isVariable_unplaced]

/-- Alike groups hold alike items. -/
theorem Alike.unwrap {item : Expr} (h : e.Alike e') (single : e.unwrap? = some item) :
    ∃ item', e'.unwrap? = some item' ∧ item.Alike item' := by
  have same : e.unwrap?.map unplaced = e'.unwrap?.map unplaced := by
    rw [← unwrap?_unplaced, h, unwrap?_unplaced]
  rw [single] at same
  obtain ⟨item', single', alike⟩ := Option.map_eq_some_iff.1 same.symm
  exact ⟨item', single', alike.symm⟩

theorem Alike.call (h : e.Alike e') (hs : AllAlike es es') :
    (call e es e.token).Alike (call e' es' e'.token) := by
  rw [Alike, unplaced_call, unplaced_call, h, hs, h.token]

/-- Alike expressions end a statement alike. -/
theorem Alike.endsStatement (h : e.Alike e') :
    Grammar.endsStatement e = Grammar.endsStatement e' := by
  have unplaced (e : Expr) : Grammar.endsStatement e.unplaced = Grammar.endsStatement e := by
    cases e <;> rfl
  rw [← unplaced e, h, unplaced]

theorem allAlike_nil : AllAlike [] [] := rfl

/-- Alike expressions in front of alike lists make alike lists. -/
theorem AllAlike.cons (h : e.Alike e') (hs : AllAlike es es') :
    AllAlike (e :: es) (e' :: es') := by
  rw [AllAlike, List.map_cons, List.map_cons, h, hs]

/-- A list like a pair is a pair. -/
theorem AllAlike.pair {a b : Expr} (h : AllAlike [a, b] es') :
    ∃ a' b', es' = [a', b'] ∧ a.Alike a' ∧ b.Alike b' := by
  obtain ⟨a', as, rfl, ha, rest⟩ := List.map_eq_cons_iff.1 h.symm
  obtain ⟨b', bs, rfl, hb, none⟩ := List.map_eq_cons_iff.1 rest
  cases List.map_eq_nil_iff.1 none
  exact ⟨a', b', rfl, ha.symm, hb.symm⟩

/-- Alike lists one after the other are alike. -/
theorem AllAlike.append {fs fs' : List Expr} (h : AllAlike es es') (hf : AllAlike fs fs') :
    AllAlike (es ++ fs) (es' ++ fs') := by
  rw [AllAlike, List.map_append, List.map_append, h, hf]

/-- Whether a name is in a list does not depend on places. -/
theorem AllAlike.any (hs : AllAlike es es') (h : e.Alike e') :
    es.any (· == e) = es'.any (· == e') := by
  have unplaced (es : List Expr) (e : Expr) :
      (es.map Expr.unplaced).any (· == e.unplaced) = es.any (· == e) := by
    rw [List.any_map]
    exact congrArg (List.any es) (funext fun a => beq_unplaced a e)
  rw [← unplaced es, hs, h, unplaced]

end Expr

/-! ## Expressions at a token -/

section

open TexAlgebra.Expr

variable {t t' : Token} {e e' x x' : Expr} {es es' : List Expr} (ht : t.Alike t')
include ht

theorem Token.Alike.some : (some t).map Token.unplaced = (some t').map Token.unplaced :=
  congrArg Option.some ht

theorem Token.Alike.number : (number t.text (.some t)).Alike (.number t'.text (.some t')) := by
  rw [Expr.Alike, unplaced_number, unplaced_number, ht.text, ht.some]

theorem Token.Alike.var (hs : AllAlike es es') :
    (var t.text es (.some t)).Alike (.var t'.text es' (.some t')) := by
  rw [Expr.Alike, unplaced_var, unplaced_var, ht.text, hs, ht.some]

theorem Token.Alike.unary (op : Operator) (h : e.Alike e') :
    (unary op e (.some t)).Alike (.unary op e' (.some t')) := by
  rw [Expr.Alike, unplaced_unary, unplaced_unary, h, ht.some]

theorem Token.Alike.binary (op : Operator) (h : e.Alike e') (hx : x.Alike x') :
    (binary op e x (.some t)).Alike (.binary op e' x' (.some t')) := by
  rw [Expr.Alike, unplaced_binary, unplaced_binary, h, hx, ht.some]

theorem Token.Alike.binding (h : e.Alike e') (hx : x.Alike x') :
    (binding e x (.some t)).Alike (.binding e' x' (.some t')) := by
  rw [Expr.Alike, unplaced_binding, unplaced_binding, h, hx, ht.some]

theorem Token.Alike.group (hs : AllAlike es es') :
    (group es (.some t)).Alike (.group es' (.some t')) := by
  rw [Expr.Alike, unplaced_group, unplaced_group, hs, ht.some]

theorem Token.Alike.command (hs : AllAlike es es') (name : String) :
    (command name es (.some t)).Alike (.command name es' (.some t')) := by
  rw [Expr.Alike, unplaced_command, unplaced_command, hs, ht.some]

theorem Token.Alike.block (hs : AllAlike es es') (name : String) (arguments : List String) :
    (block name arguments es (.some t)).Alike (.block name arguments es' (.some t')) := by
  rw [Expr.Alike, unplaced_block, unplaced_block, hs, ht.some]

theorem Token.Alike.function {head head' : Token} (hh : head.Alike head') (h : e.Alike e')
    (hs : AllAlike es es') (hx : x.Alike x') :
    (function .defined e es (.some head) x [] (.some t)).Alike
      (.function .defined e' es' (.some head') x' [] (.some t')) := by
  rw [Expr.Alike, unplaced_function, unplaced_function, h, hs, hx, ht.some, hh.some]

end

end TexAlgebra
