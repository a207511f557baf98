import TexAlgebra.Proofs.Unplaced.Expression
/-!
# Equality as an equivalence

Equality of expressions leaves tokens and the writing of products aside. It is an equivalence all
the same: an expression equals itself (`Expr.same_refl`), and equal expressions equal the same
expressions (`Expr.isCongruent`).
-/

namespace TexAlgebra.Expr

variable {a b : Expr} {as bs : List Expr}

/-- Lists are equal to themselves if their expressions are. -/
theorem sameAll_refl (each : ∀ a ∈ as, a.same a = true) : sameAll as as = true := by
  induction as with
  | nil => rfl
  | cons a as ih =>
    obtain ⟨first, others⟩ := List.forall_mem_cons.1 each
    rw [sameAll, first, ih others]
    rfl

/-- Lists of pairs are equal to themselves if their expressions are. -/
theorem samePairs_refl {bs : List (Expr × Expr)}
    (each : ∀ b ∈ bs, b.1.same b.1 = true ∧ b.2.same b.2 = true) : samePairs bs bs = true := by
  induction bs with
  | nil => rfl
  | cons b bs ih =>
    obtain ⟨first, others⟩ := List.forall_mem_cons.1 each
    rw [samePairs, first.1, first.2, ih others]
    rfl

/-- Every expression is equal to itself, also one that holds numbers which match nothing. -/
theorem same_refl (a : Expr) : a.same a = true := by
  induction a using parts_induction with
  | number text t => simp [same]
  | var name subscripts t all => simp [same, sameAll_refl all]
  | unary op operand t inner => simp [same, inner]
  | binary op lhs rhs t left right => simp [same, left, right]
  | group items t all => simp [same, sameAll_refl all]
  | command name arguments t all => simp [same, sameAll_refl all]
  | block name arguments statements t all => simp [same, sameAll_refl all]
  | prototype name parameters t named all => simp [same, named, sameAll_refl all]
  | function form name parameters head body closed t named all inner pairs =>
    simp [same, named, sameAll_refl all, inner, samePairs_refl pairs]
  | call callee arguments t inner all => simp [same, inner, sameAll_refl all]
  | binding target value t left right => simp [same, left, right]

/-- Whether what equals `a` is what its equals equal. -/
def IsCongruent (a : Expr) : Prop := ∀ b, a.same b = true → ∀ c, a.same c = b.same c

/-- Equal lists are equal to the same lists. -/
theorem sameAll_congr_left (each : ∀ a ∈ as, a.IsCongruent) (h : sameAll as bs = true)
    (cs : List Expr) : sameAll as cs = sameAll bs cs := by
  induction as generalizing bs cs with
  | nil => cases bs <;> simp_all [sameAll]
  | cons a as ih =>
    cases bs with
    | nil => simp [sameAll] at h
    | cons b bs =>
      obtain ⟨first, others⟩ := List.forall_mem_cons.1 each
      obtain ⟨head, tail⟩ := Bool.and_eq_true_iff.1 h
      cases cs with
      | nil => rfl
      | cons c cs => rw [sameAll, sameAll, first b head, ih others tail]

/-- Equal lists of pairs are equal to the same lists. -/
theorem samePairs_congr_left {as bs : List (Expr × Expr)}
    (each : ∀ a ∈ as, a.1.IsCongruent ∧ a.2.IsCongruent) (h : samePairs as bs = true)
    (cs : List (Expr × Expr)) : samePairs as cs = samePairs bs cs := by
  induction as generalizing bs cs with
  | nil => cases bs <;> simp_all [samePairs]
  | cons a as ih =>
    cases bs with
    | nil => simp [samePairs] at h
    | cons b bs =>
      obtain ⟨first, others⟩ := List.forall_mem_cons.1 each
      obtain ⟨head, tail⟩ := Bool.and_eq_true_iff.1 h
      obtain ⟨left, right⟩ := Bool.and_eq_true_iff.1 head
      cases cs with
      | nil => rfl
      | cons c cs => rw [samePairs, samePairs, first.1 b.1 left, first.2 b.2 right, ih others tail]

/-- Equal expressions equal the same expressions. -/
theorem isCongruent (a : Expr) : a.IsCongruent := by
  induction a using parts_induction with
  | number text t =>
    intro b h c
    cases b with
    | number =>
      obtain rfl := eq_of_beq (α := String) h
      cases c <;> rfl
    | _ => cases h
  | var name subscripts t all =>
    intro b h c
    cases b with
    | var =>
      simp only [same, Bool.and_eq_true, beq_iff_eq] at h
      cases c <;> simp [same, h.1, sameAll_congr_left all h.2]
    | _ => simp [same] at h
  | unary op operand t inner =>
    intro b h c
    cases b with
    | unary =>
      simp only [same, Bool.and_eq_true, Operator.alike_iff] at h
      cases c <;> simp [same, Operator.alike, h.1, inner _ h.2]
    | _ => simp [same] at h
  | binary op lhs rhs t left right =>
    intro b h c
    cases b with
    | binary =>
      simp only [same, Bool.and_eq_true, Operator.alike_iff] at h
      cases c <;> simp [same, Operator.alike, h.1.1, left _ h.1.2, right _ h.2]
    | _ => simp [same] at h
  | group items t all =>
    intro b h c
    cases b with
    | group =>
      rw [same] at h
      cases c <;> simp [same, sameAll_congr_left all h]
    | _ => simp [same] at h
  | command name arguments t all =>
    intro b h c
    cases b with
    | command =>
      simp only [same, Bool.and_eq_true, beq_iff_eq] at h
      cases c <;> simp [same, h.1, sameAll_congr_left all h.2]
    | _ => simp [same] at h
  | block name arguments statements t all =>
    intro b h c
    cases b with
    | block =>
      simp only [same, Bool.and_eq_true, beq_iff_eq] at h
      cases c <;> simp [same, h.1.1, h.1.2, sameAll_congr_left all h.2]
    | _ => simp [same] at h
  | prototype name parameters t named all =>
    intro b h c
    cases b with
    | prototype =>
      simp only [same, Bool.and_eq_true] at h
      cases c <;> simp [same, named _ h.1, sameAll_congr_left all h.2]
    | _ => simp [same] at h
  | function form name parameters head body closed t named all inner pairs =>
    intro b h c
    cases b with
    | function =>
      simp only [same, Bool.and_eq_true, beq_iff_eq] at h
      obtain ⟨⟨⟨⟨rfl, name⟩, parameters⟩, body⟩, closed⟩ := h
      cases c <;> simp [same, named _ name, sameAll_congr_left all parameters, inner _ body,
        samePairs_congr_left pairs closed]
    | _ => simp [same] at h
  | call callee arguments t inner all =>
    intro b h c
    cases b with
    | call =>
      simp only [same, Bool.and_eq_true] at h
      cases c <;> simp [same, inner _ h.1, sameAll_congr_left all h.2]
    | _ => simp [same] at h
  | binding target value t left right =>
    intro b h c
    cases b with
    | binding =>
      simp only [same, Bool.and_eq_true] at h
      cases c <;> simp [same, left _ h.1, right _ h.2]
    | _ => simp [same] at h

instance : EquivBEq Expr where
  rfl := same_refl _
  symm {a b} h := (isCongruent a b h a).symm.trans (same_refl a)
  trans {a b c} h h' := (isCongruent a b h c).trans h'

end TexAlgebra.Expr
