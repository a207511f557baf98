import TexAlgebra.Proofs.Expansion.Shape
import TexAlgebra.Proofs.Expansion.Termination
/-!
# Single steps and full expansion

Single steps contract what is outermost and a full expansion what is innermost. A product of two
sums is distributed over the left one first, but a single step may find the right factor to be a sum
while the left one is still to become one. So the two ways of expansion can end in different sums,
as they do for `(a + b)c(d + e)`. The terms are the same, and only their order differs. If every
operand that gets copied is spread out already, then the results are equal: `Expr.steps_agree`.

What no contraction changes is the shape of an expression with everything multiplied out, except
that sums in it may be rearranged: `Expr.Contracts.rearranged`.
-/

namespace TexAlgebra.Expr

open Shape (Rearranged joined)

variable {e r s p q base a b c lhs rhs : Expr} {op product : Operator} {text : String}
  {t token : Option Token} {x : ℚ} {before after : List Expr}

/-! ## Expanded shapes -/

theorem expanded_number : (number text t).expanded = .number text := rfl

theorem expanded_binary : (binary op a b t).expanded = joined op a.expanded b.expanded := rfl

/-- A sum is expanded side by side. -/
theorem expanded_sum (sum : op.isSign = true) :
    (binary op a b t).expanded = .binary op a.expanded b.expanded := by
  rw [expanded_binary, Shape.joined_of_isSign sum]

/-- The expanded factors of a product are multiplied out. -/
theorem expanded_product (times : product = .times ∨ product = .juxtaposed) :
    (binary product a b t).expanded = a.expanded.product b.expanded := by
  rw [expanded_binary, Shape.joined_product times]

/-- The expanded base of a power to a number is multiplied out. -/
theorem expanded_power :
    (binary .power base (number text t) token).expanded = base.expanded.powered text := by
  rw [expanded_binary, expanded_number, Shape.joined_power]

/-- The expanded base of a whole power is multiplied by itself. -/
theorem expanded_power_intCast {n : ℤ} (value : Numeral.rat? text = some (n : ℚ))
    (nonneg : 0 ≤ n) :
    (binary .power base (number text t) token).expanded = base.expanded.wholePower n.natAbs := by
  rw [expanded_power, Shape.powered_of_nonneg _ value (by exact_mod_cast nonneg),
    Shape.raised_intCast]

/-- A sum is expanded to a sum. -/
theorem isSum_expanded (h : e.isSum = true) : e.expanded.isSum = true := by
  cases e with
  | binary op a b t => rwa [expanded_sum h]
  | _ => cases h

/-- What is not algebraic is not looked into. -/
theorem expanded_of_isAlgebraic_eq_false (h : e.isAlgebraic = false) : e.expanded = .other := by
  cases e with
  | number | var | unary | binary => cases h
  | _ => rfl

/-- It does not depend on the parts whether the root is algebraic. -/
theorem isAlgebraic_withVisited (e : Expr) (es : List Expr) :
    (e.withVisited es).isAlgebraic = e.isAlgebraic := by
  unfold withVisited
  split <;> rfl

/-! ## Tidy expressions -/

/-- Whether an operation with a given right operand copies its left operand: a product with a sum
does, and so does a power with a number. -/
def copies : Operator → Shape → Bool
  | .times, s => s.isSum
  | .juxtaposed, s => s.isSum
  | .power, s => s.text?.isSome
  | _, _ => false

/-- Whether an expression has all sums that its expansion is made of: it is a sum of terms that do
not expand to sums. -/
def IsSpread : Expr → Prop
  | binary op a b t =>
    if op.isSign then a.IsSpread ∧ b.IsSpread else (binary op a b t).expanded.isSum = false
  | e => e.expanded.isSum = false

/-- Whether the left operand of an operation is spread out if it gets copied. -/
def IsTidyRoot : Expr → Prop
  | binary op a b _ => copies op b.expanded = true → a.IsSpread
  | _ => True

/-- Whether all operands that get copied are spread out. -/
def IsTidy : Expr → Prop := Throughout IsTidyRoot

/-- A product copies its left factor where the right one is a sum. -/
theorem copies_product {s : Shape} (times : product = .times ∨ product = .juxtaposed) :
    copies product s = s.isSum := by
  rcases times with rfl | rfl <;> rfl

/-- A sum copies nothing. -/
theorem copies_of_isSign {s : Shape} (sum : op.isSign = true) : copies op s = false := by
  cases op with
  | plus | minus => rfl
  | _ => cases sum

/-- A rearranged operand is copied if it was before. -/
theorem copies_eq_of_rearranged {s s' : Shape} (h : Rearranged s s') :
    copies op s = copies op s' := by
  cases op with
  | times | juxtaposed => exact h.isSum_eq
  | power => exact congrArg Option.isSome h.text?_eq
  | _ => rfl

/-- A sum is spread if both of its sides are. -/
theorem isSpread_sum (sum : op.isSign = true) :
    (binary op a b t).IsSpread ↔ a.IsSpread ∧ b.IsSpread := by
  rw [IsSpread, if_pos sum]

/-- What is no sum is spread if it is not expanded to one. -/
theorem isSpread_iff_of_isSum_eq_false (other : e.isSum = false) :
    e.IsSpread ↔ e.expanded.isSum = false := by
  cases e with
  | binary op a b t =>
    have product : op.isSign = false := other
    simp [IsSpread, product]
  | _ => exact Iff.rfl

/-- What is not expanded to a sum is spread. -/
theorem isSpread_of_isSum_expanded_eq_false (h : e.expanded.isSum = false) : e.IsSpread := by
  cases sum : e.isSum with
  | false => exact (isSpread_iff_of_isSum_eq_false sum).2 h
  | true =>
    rw [isSum_expanded sum] at h
    cases h

/-! ## Rules -/

/-- A rule keeps the expanded shape, if it does not distribute a product over its right factor while
the left one is still to become a sum. -/
theorem Rule.expanded (h : Rule e r) :
    r.expanded = e.expanded ∨ ¬e.IsTidyRoot ∧ Rearranged r.expanded e.expanded := by
  cases h with
  | @sign op text result t token x y computed =>
    refine Or.inl ?_
    show Shape.number result = (Shape.number text).signed op
    rw [Shape.signed, computed]
  | zeroth value =>
    rw [expanded_power_intCast (n := 0) (by exact_mod_cast value) le_rfl]
    exact Or.inl rfl
  | first value =>
    rw [expanded_power_intCast (n := 1) (by exact_mod_cast value) (by decide)]
    exact Or.inl rfl
  | second value =>
    rw [expanded_power_intCast (n := 2) (by exact_mod_cast value) (by decide)]
    exact Or.inl rfl
  | @lowered base text lower t token n above value value' =>
    refine Or.inl ?_
    obtain ⟨k, rfl⟩ : ∃ k : ℕ, n = (k + 2 : ℕ) := ⟨(n - 2).toNat, by omega⟩
    rw [expanded_product (Or.inr rfl), expanded_power_intCast value (by omega),
      expanded_power_intCast value' (by omega), Int.natAbs_natCast, Shape.wholePower,
      show (((k + 2 : ℕ) : ℤ) - 1).natAbs = k + 1 by omega]
  | @inverse base text positive t token x below value computed value' =>
    refine Or.inl ?_
    rw [expanded_power, Shape.powered_of_neg _ value below computed, expanded_binary,
      expanded_power, Shape.powered_of_nonneg _ value' (neg_nonneg.2 below.le)]
    rfl
  | left sum times =>
    refine Or.inl ?_
    rw [expanded_sum sum, expanded_product (Or.inr rfl), expanded_product (Or.inr rfl),
      expanded_product times, expanded_sum sum, Shape.product_sum_left sum]
  | @right op product a b c t token other sum times =>
    rw [expanded_sum sum, expanded_product (Or.inr rfl), expanded_product (Or.inr rfl),
      expanded_product times, expanded_sum sum]
    cases term : c.expanded.isSum with
    | false => exact Or.inl (Shape.product_sum_right term sum).symm
    | true =>
      -- the left factor is still to become a sum, which it is not in a tidy product
      refine Or.inr ⟨fun tidy => ?_, (Shape.rearranged_product_sum_right _ sum _ _).symm⟩
      have spread : c.IsSpread := tidy ((copies_product times).trans (isSum_expanded sum))
      rw [isSpread_iff_of_isSum_eq_false other, term] at spread
      cases spread

/-- A rule rearranges the expanded shape at most. -/
theorem Rule.rearranged (h : Rule e r) : Rearranged r.expanded e.expanded := by
  rcases h.expanded with same | ⟨-, rearranged⟩
  · rw [same]
    exact .refl _
  · exact rearranged

/-- A number is tidy. -/
theorem isTidy_number (text : String) (t : Option Token) : (number text t).IsTidy :=
  throughout_number.2 trivial

/-- An operation is tidy if its operands are and what it copies is spread. -/
theorem isTidy_binary (left : a.IsTidy) (right : b.IsTidy)
    (root : copies op b.expanded = true → a.IsSpread) : (binary op a b t).IsTidy :=
  throughout_binary.2 ⟨root, left, right⟩

/-- A sum is tidy if its terms are. -/
theorem isTidy_sum (sum : op.isSign = true) (left : a.IsTidy) (right : b.IsTidy) :
    (binary op a b t).IsTidy := by
  refine isTidy_binary left right fun copied => ?_
  rw [copies_of_isSign sum] at copied
  cases copied

/-- What a rule makes of a tidy expression is tidy. -/
theorem Rule.isTidy (h : Rule e r) (tidy : e.IsTidy) : r.IsTidy := by
  have root := tidy.root
  cases h with
  | sign => exact isTidy_number ..
  | zeroth => exact isTidy_number ..
  | first => exact tidy.left
  | second => exact isTidy_binary tidy.left tidy.left fun _ => root rfl
  | lowered =>
    exact isTidy_binary tidy.left (isTidy_binary tidy.left (isTidy_number ..) fun _ => root rfl)
      fun _ => root rfl
  | inverse =>
    exact isTidy_binary (isTidy_number ..)
      (isTidy_binary tidy.left (isTidy_number ..) fun _ => root rfl) nofun
  | left sum times =>
    -- either term of the left factor is spread out if the left factor is
    have spread := fun copied => (isSpread_sum sum).1 (root ((copies_product times).trans copied))
    exact isTidy_sum sum (isTidy_binary tidy.left.left tidy.right fun copied => (spread copied).1)
      (isTidy_binary tidy.left.right tidy.right fun copied => (spread copied).2)
  | right other sum times =>
    have spread := root ((copies_product times).trans (isSum_expanded sum))
    exact isTidy_sum sum (isTidy_binary tidy.left tidy.right.left fun _ => spread)
      (isTidy_binary tidy.left tidy.right.right fun _ => spread)

/-! ## Contractions -/

/-- The expanded shape of an expression depends on that of a part of it in a way that respects
rearrangement. -/
theorem exists_expanded_eq (found : e.visited = before ++ p :: after) :
    ∃ f : Shape → Shape, (∀ x y, Rearranged x y → Rearranged (f x) (f y)) ∧
      ∀ q, (e.withVisited (before ++ q :: after)).expanded = f q.expanded := by
  cases algebraic : e.isAlgebraic with
  | false =>
    exact ⟨fun _ => .other, fun _ _ _ => .refl _, fun q =>
      expanded_of_isAlgebraic_eq_false ((isAlgebraic_withVisited ..).trans algebraic)⟩
  | true =>
    cases e with
    | number => exact absurd found (by simp [visited])
    | var name subscripts t =>
      refine ⟨fun s => .var name (before.map Expr.expanded ++ s :: after.map Expr.expanded),
        fun x y h => .subscript name _ _ h, fun q => ?_⟩
      rw [withVisited, expanded_var, List.map_append, List.map_cons]
    | unary op operand t =>
      obtain ⟨rfl, rfl, rfl⟩ := eq_of_singleton found
      exact ⟨fun s => s.signed op, fun x y h => h.signed op, fun q => rfl⟩
    | binary op lhs rhs t =>
      rcases eq_of_pair found with ⟨rfl, rfl, rfl⟩ | ⟨rfl, rfl, rfl⟩
      · exact ⟨fun s => joined op s rhs.expanded, fun x y h => h.joined (.refl _) op,
          fun q => rfl⟩
      · exact ⟨joined op lhs.expanded, fun x y h => Rearranged.joined (.refl _) h op,
          fun q => rfl⟩
    | _ => cases algebraic

/-- A part is expanded where it stands. -/
theorem expanded_eq_of_visited_eq {f : Shape → Shape} (found : e.visited = before ++ p :: after)
    (h : ∀ q, (e.withVisited (before ++ q :: after)).expanded = f q.expanded) :
    e.expanded = f p.expanded := by
  rw [← h, ← found, withVisited_visited]

/-- A contraction keeps the expanded shape, up to rearrangement. -/
theorem Contracts.rearranged (h : Contracts e r) (plain : e.IsPlain) :
    Rearranged r.expanded e.expanded := by
  induction h with
  | root contracts => exact (rule_of_contract? plain contracts).rearranged
  | @part e p q before after found _ ih =>
    obtain ⟨f, respects, eq⟩ := exists_expanded_eq found
    rw [eq, expanded_eq_of_visited_eq found eq]
    exact respects _ _ (ih (plain.parts p (mem_of_visited_eq found)))

/-- A contraction of a tidy expression keeps the expanded shape. -/
theorem Contracts.expanded_eq (h : Contracts e r) (plain : e.IsPlain) (tidy : e.IsTidy) :
    r.expanded = e.expanded := by
  induction h with
  | root contracts =>
    exact (rule_of_contract? plain contracts).expanded.resolve_right fun h => h.1 tidy.root
  | @part e p q before after found _ ih =>
    obtain ⟨f, -, eq⟩ := exists_expanded_eq found
    have mem := mem_of_visited_eq found
    rw [eq, expanded_eq_of_visited_eq found eq, ih (plain.parts p mem) (tidy.parts p mem)]

/-- No rule is for a sum. -/
theorem contract?_of_isSum (sum : e.isSum = true) : contract? e = .ok none := by
  cases e with
  | binary op a b t =>
    cases op with
    | plus | minus => rfl
    | _ => cases sum
  | _ => cases sum

/-- What is spread and no sum stays spread when it contracts. -/
theorem Contracts.isSpread_of_isSum_eq_false (h : Contracts e r) (plain : e.IsPlain)
    (other : e.isSum = false) (spread : e.IsSpread) : r.IsSpread := by
  rw [isSpread_iff_of_isSum_eq_false other] at spread
  exact isSpread_of_isSum_expanded_eq_false ((h.rearranged plain).isSum_eq.trans spread)

/-- A contraction keeps an expression spread out. -/
theorem Contracts.isSpread (h : Contracts e r) (plain : e.IsPlain) (spread : e.IsSpread) :
    r.IsSpread := by
  induction h with
  | @root e r contracts =>
    cases sum : e.isSum with
    | false => exact (Contracts.root contracts).isSpread_of_isSum_eq_false plain sum spread
    | true =>
      rw [contract?_of_isSum sum] at contracts
      cases contracts
  | @part e p q before after found inner ih =>
    cases sum : e.isSum with
    | false => exact (Contracts.part found inner).isSpread_of_isSum_eq_false plain sum spread
    | true =>
      -- what is contracted is part of one of the two terms
      cases e with
      | binary op a b t =>
        obtain ⟨left, right⟩ := (isSpread_sum sum).1 spread
        rcases eq_of_pair found with ⟨rfl, rfl, rfl⟩ | ⟨rfl, rfl, rfl⟩
        · exact (isSpread_sum sum).2 ⟨ih plain.left left, right⟩
        · exact (isSpread_sum sum).2 ⟨left, ih plain.right right⟩
      | _ => cases sum

/-- A tidy root stays tidy when a part contracts. -/
theorem isTidyRoot_of_part (found : e.visited = before ++ p :: after) (plain : e.IsPlain)
    (tidy : e.IsTidyRoot) (inner : Contracts p q) :
    (e.withVisited (before ++ q :: after)).IsTidyRoot := by
  cases e with
  | binary op a b t =>
    rcases eq_of_pair found with ⟨rfl, rfl, rfl⟩ | ⟨rfl, rfl, rfl⟩
    · exact fun copied => inner.isSpread plain.left (tidy copied)
    · intro copied
      rw [copies_eq_of_rearranged (inner.rearranged plain.right)] at copied
      exact tidy copied
  | _ =>
    unfold withVisited
    split <;> trivial

/-- A contraction keeps an expression tidy. -/
theorem Contracts.isTidy (h : Contracts e r) (plain : e.IsPlain) (tidy : e.IsTidy) : r.IsTidy := by
  have both : Throughout (fun e => e.HasPlainRoot ∧ e.IsTidyRoot) r := by
    refine h.throughout (fun contracts all => ?_) (fun found all inner => ?_) (plain.and tidy)
    · have plain : IsPlain _ := all.mono fun _ h => h.1
      have rule := rule_of_contract? plain contracts
      exact (rule.isPlain plain).and (rule.isTidy (all.mono fun _ h => h.2))
    · refine ⟨(hasPlainRoot_withVisited _ _).2 all.root.1, ?_⟩
      exact isTidyRoot_of_part found (all.mono fun _ h => h.1) all.root.2 inner
  exact both.mono fun _ h => h.2

/-- A contraction keeps an expression algebraic. -/
theorem Contracts.isAlgebraic (h : Contracts e r) (plain : e.IsPlain)
    (algebraic : Throughout (fun e => e.isAlgebraic = true) e) :
    Throughout (fun e => e.isAlgebraic = true) r := by
  have both : Throughout (fun e => e.HasPlainRoot ∧ e.isAlgebraic = true) r := by
    refine h.throughout (fun contracts all => ?_) (fun found all _ => ?_) (plain.and algebraic)
    · exact (rule_of_contract? (all.mono fun _ h => h.1) contracts).throughout
        (fun _ _ plain => ⟨plain, rfl⟩) (fun _ _ _ _ => ⟨trivial, rfl⟩) all
    · exact ⟨(hasPlainRoot_withVisited _ _).2 all.root.1,
        (isAlgebraic_withVisited _ _).trans all.root.2⟩
  exact both.mono fun _ h => h.2

/-! ## Sequences of contractions -/

/-- Contractions rearrange the expanded shape at most. -/
theorem Reaches.rearranged (h : Reaches e r) (plain : e.IsPlain) :
    Rearranged r.expanded e.expanded :=
  h.keeps (P := fun r => Rearranged r.expanded e.expanded) plain
    (fun contracts plain same => (contracts.rearranged plain).trans same) (.refl _)

/-- Contractions keep an expression algebraic. -/
theorem Reaches.isAlgebraic (h : Reaches e r) (plain : e.IsPlain)
    (algebraic : Throughout (fun e => e.isAlgebraic = true) e) :
    Throughout (fun e => e.isAlgebraic = true) r :=
  h.keeps plain Contracts.isAlgebraic algebraic

/-- Contractions of a tidy expression keep its expanded shape. -/
theorem Reaches.expanded_eq (h : Reaches e r) (plain : e.IsPlain) (tidy : e.IsTidy) :
    r.expanded = e.expanded := by
  have kept : r.IsTidy ∧ r.expanded = e.expanded :=
    h.keeps (P := fun r => r.IsTidy ∧ r.expanded = e.expanded) plain
      (fun contracts plain ⟨tidy, same⟩ =>
        ⟨contracts.isTidy plain tidy, (contracts.expanded_eq plain tidy).trans same⟩) ⟨tidy, rfl⟩
  exact kept.2

/-! ## Normal expressions -/

/-- An expression to which no rule applies has an expanded shape if its parts have. -/
theorem Resists.expanded_eq_shape (h : e.Resists)
    (parts : ∀ p ∈ e.visited, p.expanded = p.shape) : e.expanded = e.shape := by
  cases e with
  | number => rfl
  | var name subscripts t =>
    rw [expanded_var, shape_var, List.map_congr_left (l := subscripts) parts]
  | unary op operand t =>
    have inner := parts operand List.mem_cons_self
    show operand.expanded.signed op = .unary op.explicit operand.shape
    rw [inner, Shape.signed_of_text?_eq_none]
    cases operand with
    | number => cases h
    | _ => rfl
  | binary op lhs rhs t =>
    have left := parts lhs List.mem_cons_self
    have right := parts rhs (List.mem_cons_of_mem _ List.mem_cons_self)
    have terms : lhs.isSum = false ∧ rhs.isSum = false →
        lhs.shape.product rhs.shape = .binary .times lhs.shape rhs.shape := fun h =>
      Shape.product_of_terms ((isSum_shape lhs).trans h.1) ((isSum_shape rhs).trans h.2)
    show joined op lhs.expanded rhs.expanded = .binary op.explicit lhs.shape rhs.shape
    rw [left, right]
    cases op with
    | times | juxtaposed => exact terms h
    | power =>
      cases rhs with
      | number text t =>
        obtain ⟨x, value, above, fraction⟩ := h
        show joined .power lhs.shape (.number text) = .binary .power lhs.shape (.number text)
        rw [Shape.joined_power, Shape.powered_of_nonneg _ value above.le,
          Shape.raised_of_fraction _ _ fraction]
      | _ => exact Shape.joined_power_of_text?_eq_none _ rfl
    | _ => rfl
  | _ => rfl

/-- An expression to which no rule applies anywhere has its expanded shape. -/
theorem IsNormal.expanded_eq_shape (h : e.IsNormal) (plain : e.IsPlain) : e.expanded = e.shape := by
  induction e using visited_induction with
  | h e ih =>
    exact (IsStuck.resists plain h.root).expanded_eq_shape fun p mem =>
      ih p mem (h.parts p mem) (plain.parts p mem)

/-- All ways of contracting an expression until no rule applies end in the same sum up to
rearrangement. -/
theorem rearranged_of_isNormal (plain : e.IsPlain) (first : Reaches e r) (normal : r.IsNormal)
    (second : Reaches e s) (normal' : s.IsNormal) : Rearranged r.shape s.shape := by
  rw [← normal.expanded_eq_shape (first.isPlain plain),
    ← normal'.expanded_eq_shape (second.isPlain plain)]
  exact (first.rearranged plain).trans (second.rearranged plain).symm

/-- All ways of contracting a tidy expression until no rule applies end in equal expressions. -/
theorem same_of_isNormal (plain : e.IsPlain) (tidy : e.IsTidy)
    (algebraic : Throughout (fun e => e.isAlgebraic = true) e) (first : Reaches e r)
    (normal : r.IsNormal) (second : Reaches e s) (normal' : s.IsNormal) : (r == s) = true := by
  refine same_of_shape_eq (first.isAlgebraic plain algebraic) ?_
  rw [← normal.expanded_eq_shape (first.isPlain plain),
    ← normal'.expanded_eq_shape (second.isPlain plain),
    first.expanded_eq plain tidy, second.expanded_eq plain tidy]

/-! ## Agreement -/

/-- Single steps that are made again and again until nothing is stepped end in the full expansion,
except that sums may be rearranged. If every operand that gets copied is spread out, the two are
equal. -/
theorem steps_agree (plain : e.IsPlain)
    (algebraic : Throughout (fun e => e.isAlgebraic = true) e) :
    ∃ n r f, steps n e = .ok r ∧ step r = .ok (r, false) ∧
      (∀ depth, e.weight < depth → expandWithin depth e = .ok f) ∧
      (∀ depth, expandWithin depth e = .ok f ∨ expandWithin depth e = .error .tooDeep) ∧
      Rearranged r.shape f.shape ∧ (e.IsTidy → (r == f) = true) := by
  obtain ⟨n, r, stepped, done⟩ := exists_steps plain
  obtain ⟨f, reached, normal, enough, depths⟩ := exists_expansion plain
  have reached' := reaches_of_steps stepped
  have normal' : r.IsNormal := (step_spec done).2
  exact ⟨n, r, f, stepped, done, enough, depths,
    rearranged_of_isNormal plain reached' normal' reached normal, fun tidy =>
      same_of_isNormal plain tidy algebraic reached' normal' reached normal⟩

/-- Both ways of expansion make the same of `(x + 1)(x + 2)`. -/
theorem steps_agree_product :
    let x : Expr := var "x" [] none
    let e : Expr := binary .juxtaposed (binary .plus x (number "1" none) none)
      (binary .plus x (number "2" none) none) none
    ∃ n r f, steps n e = .ok r ∧ step r = .ok (r, false) ∧
      (∀ depth, e.weight < depth → expandWithin depth e = .ok f) ∧ (r == f) = true := by
  intro x e
  have two : Numeral.IsPlain "2" :=
    @Numeral.IsShortSplit.isPlain ['2'] [] ⟨by decide, List.all_eq_true.1 rfl, by decide⟩
  have plain : e.IsPlain := by
    simp [e, x, IsPlain, HasPlainRoot, Numeral.isPlain_one, two]
  have algebraic : Throughout (fun e => e.isAlgebraic = true) e := by
    simp [e, x, isAlgebraic]
  have tidy : e.IsTidy := by
    have spread : (binary .plus x (number "1" none) none).IsSpread :=
      (isSpread_sum rfl).2 ⟨rfl, rfl⟩
    simp [e, x, IsTidy, IsTidyRoot, copies, spread]
  obtain ⟨n, r, f, stepped, done, enough, -, -, same⟩ := steps_agree plain algebraic
  exact ⟨n, r, f, stepped, done, enough, same tidy⟩

/-- The two ways of expansion make different sums of `(a + b)c(d + e)`. -/
theorem steps_disagree_product :
    let v (name : String) : Expr := var name [] none
    let sum (a b : Expr) : Expr := binary .plus a b none
    let product (a b : Expr) : Expr := binary .juxtaposed a b none
    let e : Expr := product (product (sum (v "a") (v "b")) (v "c")) (sum (v "d") (v "e"))
    e.IsPlain ∧ Throughout (fun e => e.isAlgebraic = true) e ∧
      ∃ r f, steps 5 e = .ok r ∧ step r = .ok (r, false) ∧ expand e = .ok f ∧ (r == f) = false := by
  intro v sum product e
  refine ⟨by simp [e, v, sum, product, IsPlain, HasPlainRoot],
    by simp [e, v, sum, product, isAlgebraic], ?_⟩
  have computed : (do
      let r ← steps 5 e
      let f ← expand e
      let s ← step r
      return (s.2, r == f)) = (.ok (false, false) : Except Obstacle (Bool × Bool)) := by
    decide +kernel
  obtain ⟨r, stepped, computed⟩ := ok_of_bind computed
  obtain ⟨f, expanded, computed⟩ := ok_of_bind computed
  obtain ⟨⟨r', stepped'⟩, last, computed⟩ := ok_of_bind computed
  obtain ⟨rfl, different⟩ := Prod.mk.inj (ok_of_pure computed)
  obtain ⟨rfl, -⟩ := step_spec last
  exact ⟨_, f, stepped, last, expanded, different⟩

end TexAlgebra.Expr
