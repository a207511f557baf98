import TexAlgebra.Proofs.Decimal.Comparison
import TexAlgebra.Proofs.Expansion.Contraction
import TexAlgebra.Proofs.Numeral.Plain
/-!
# The rules of expansion

What the rules of expansion do to expressions with plain numerals, told by the numbers that the
numerals spell. `Expr.Rule` lists the cases, and `Expr.contract?_spec` says that a rule applies at
the root of an expression just in these cases and that nothing ever gets in its way.
-/

namespace TexAlgebra.Expr

/-! ## Plain expressions -/

/-- Whether an expression is a plain numeral if it is a numeral, and has a sign before it if it has
one operand. -/
def HasPlainRoot : Expr → Prop
  | number text _ => Numeral.IsPlain text
  | unary op _ _ => op.isSign = true
  | _ => True

/-- Whether all visited numerals of an expression are plain and all its operators with one operand
are signs. -/
def IsPlain : Expr → Prop := Throughout HasPlainRoot

/-- Whether an expression is a sum or a difference. -/
def isSum : Expr → Bool
  | binary op _ _ _ => op.isSign
  | _ => false

variable {e r base a b c lhs rhs : Expr} {op product : Operator} {text : String}
  {t token : Option Token} {x : ℚ}

/-- One has the value one. -/
theorem rat?_one : Numeral.rat? "1" = some 1 := by
  rw [Numeral.rat?, show Decimal.ofText? "1" = some Decimal.one from rfl, Option.map_some,
    Decimal.toRat_one]

/-! ## Cases -/

/-- What the rules make of an expression with plain numerals. -/
inductive Rule : Expr → Expr → Prop
  /-- A number with a sign becomes a number. -/
  | sign {op : Operator} {text result : String} {t token : Option Token} {x y : ℚ}
      (computed : Numeral.signed op text = .ok result) (value : Numeral.rat? text = some x)
      (value' : Numeral.rat? result = some y) (size : |y| = |x|)
      (plain : Numeral.IsPlain result) :
    Rule (unary op (number text t) token) (number result token)
  | zeroth {base : Expr} {text : String} {t token : Option Token}
      (value : Numeral.rat? text = some 0) :
    Rule (binary .power base (number text t) token) (one token)
  | first {base : Expr} {text : String} {t token : Option Token}
      (value : Numeral.rat? text = some 1) : Rule (binary .power base (number text t) token) base
  | second {base : Expr} {text : String} {t token : Option Token}
      (value : Numeral.rat? text = some 2) :
    Rule (binary .power base (number text t) token) (binary .juxtaposed base base token)
  /-- A higher power is the base times the power before. -/
  | lowered {base : Expr} {text lower : String} {t token : Option Token} {n : ℤ} (above : 2 < n)
      (value : Numeral.rat? text = some (n : ℚ))
      (value' : Numeral.rat? lower = some ((n - 1 : ℤ) : ℚ)) (plain : Numeral.IsPlain lower) :
    Rule (binary .power base (number text t) token)
      (binary .juxtaposed base (binary .power base (number lower t) token) token)
  /-- A power with a negative exponent is the inverse of the power with the opposite exponent. -/
  | inverse {base : Expr} {text positive : String} {t token : Option Token} {x : ℚ} (below : x < 0)
      (value : Numeral.rat? text = some x)
      (computed : Numeral.signed .minus text = .ok positive)
      (value' : Numeral.rat? positive = some (-x)) (plain : Numeral.IsPlain positive) :
    Rule (binary .power base (number text t) token)
      (binary .divide (one t) (binary .power base (number positive t) token) token)
  | left {op product : Operator} {a b c : Expr} {t token : Option Token} (sum : op.isSign = true)
      (times : product = .times ∨ product = .juxtaposed) :
    Rule (binary product (binary op a b t) c token)
      (binary op (binary .juxtaposed a c a.token) (binary .juxtaposed b c b.token) token)
  /-- A product is distributed over its right factor if the left one is not a sum. -/
  | right {op product : Operator} {a b c : Expr} {t token : Option Token}
      (other : c.isSum = false) (sum : op.isSign = true)
      (times : product = .times ∨ product = .juxtaposed) :
    Rule (binary product c (binary op a b t) token)
      (binary op (binary .juxtaposed c a a.token) (binary .juxtaposed c b b.token) token)

/-- The expressions with plain numerals to which no rule applies at the root: those that no rule is
about, and powers whose exponent is a number with a fraction. -/
def Resists : Expr → Prop
  | unary _ operand _ => operand.isNumber = false
  | binary .power _ (number text _) _ => ∃ x, Numeral.rat? text = some x ∧ 0 < x ∧ ∀ n : ℤ, x ≠ n
  | binary .times lhs rhs _ => lhs.isSum = false ∧ rhs.isSum = false
  | binary .juxtaposed lhs rhs _ => lhs.isSum = false ∧ rhs.isSum = false
  | _ => True

/-- A whole number above zero that is neither one nor two is above two. -/
theorem exists_whole_above {d : Decimal} (whole : d.isWhole = true) (above : 0 < d.toRat)
    (not_one : d.toRat ≠ 1) (not_two : d.toRat ≠ 2) : ∃ n : ℤ, 2 < n ∧ d.toRat = n := by
  obtain ⟨n, eq⟩ := Decimal.isWhole_iff.1 whole
  rw [eq] at above not_one not_two
  norm_cast at above not_one not_two
  exact ⟨n, by omega, eq⟩

/-- A power to a plain number contracts by a rule, or no rule is for it. -/
theorem contractPower?_spec (base : Expr) (t token : Option Token) (plain : Numeral.IsPlain text) :
    (∃ r, contractPower? base text t token = .ok (some r) ∧
      Rule (binary .power base (number text t) token) r) ∨
    contractPower? base text t token = .ok none ∧
      Resists (binary .power base (number text t) token) := by
  obtain ⟨x, spells⟩ := plain.exists_rat?
  obtain ⟨d, read, rfl⟩ := Numeral.rat?_eq_some spells
  have value : Numeral.value text = .ok d := by
    unfold Numeral.value
    rw [read]
  have unit : (Decimal.ofNat false 1).toRat = 1 := by simp
  have pair : (Decimal.ofNat false 2).toRat = 2 := by simp
  rw [contractPower?, value]
  change (∃ r, (if d.isZero = true then _ else _) = _ ∧ _) ∨
    (if d.isZero = true then _ else _) = _ ∧ _
  split
  · next zero =>
    rw [Decimal.isZero_iff] at zero
    exact Or.inl ⟨_, rfl, .zeroth (zero ▸ spells)⟩
  next nonzero =>
  rw [Decimal.isZero_iff] at nonzero
  split
  · next negative =>
    have below := lt_of_le_of_ne (Decimal.toRat_nonpos negative) nonzero
    obtain ⟨positive, y, computed, sign, -, value', plain'⟩ :=
      Numeral.exists_signed (rfl : Operator.minus.isSign = true) plain spells
    cases sign
    rw [computed]
    exact Or.inl ⟨_, rfl, .inverse below spells computed value' plain'⟩
  next positive =>
  have above := lt_of_le_of_ne (Decimal.toRat_nonneg (by simpa using positive)) (Ne.symm nonzero)
  split
  · next one =>
    rw [Decimal.sameValue_iff, unit] at one
    exact Or.inl ⟨_, rfl, .first (one ▸ spells)⟩
  next not_one =>
  rw [Decimal.sameValue_iff, unit] at not_one
  split
  · next two =>
    rw [Decimal.sameValue_iff, pair] at two
    exact Or.inl ⟨_, rfl, .second (two ▸ spells)⟩
  next not_two =>
  rw [Decimal.sameValue_iff, pair] at not_two
  split
  · next fraction =>
    refine Or.inr ⟨rfl, d.toRat, spells, above, fun n whole => ?_⟩
    rw [Decimal.isWhole_iff.2 ⟨n, whole⟩] at fraction
    cases fraction
  next whole =>
  rw [Bool.not_eq_true, Bool.not_eq_false'] at whole
  obtain ⟨n, more, eq⟩ := exists_whole_above whole above not_one not_two
  rw [eq] at spells
  obtain ⟨lower, computed, value', plain'⟩ :=
    Numeral.exists_lowered plain spells (Int.lt_trans (by decide) more)
  rw [computed]
  exact Or.inl ⟨_, rfl, .lowered more spells value' plain'⟩

/-- What is neither a sum nor a difference is no sum. -/
theorem isSum_eq_false (plus : ∀ a b t, e = binary .plus a b t → False)
    (minus : ∀ a b t, e = binary .minus a b t → False) : e.isSum = false := by
  cases e with
  | binary op a b t =>
    cases op with
    | plus => exact (plus a b t rfl).elim
    | minus => exact (minus a b t rfl).elim
    | _ => rfl
  | _ => rfl

/-- A product contracts by a rule, or neither factor is a sum. -/
theorem contractProduct?_spec (lhs rhs : Expr) (token : Option Token)
    (times : product = .times ∨ product = .juxtaposed) :
    (∃ r, contractProduct? lhs rhs token = some r ∧ Rule (binary product lhs rhs token) r) ∨
    contractProduct? lhs rhs token = none ∧ lhs.isSum = false ∧ rhs.isSum = false := by
  unfold contractProduct?
  split
  · exact Or.inl ⟨_, rfl, .left rfl times⟩
  · exact Or.inl ⟨_, rfl, .left rfl times⟩
  · next plus minus => exact Or.inl ⟨_, rfl, .right (isSum_eq_false plus minus) rfl times⟩
  · next plus minus => exact Or.inl ⟨_, rfl, .right (isSum_eq_false plus minus) rfl times⟩
  · next plus minus plus' minus' =>
    exact Or.inr ⟨rfl, isSum_eq_false plus minus, isSum_eq_false plus' minus'⟩

/-- Whether a rule applies at the root of an expression can always be told, and what it makes of it
is one of the cases. -/
theorem contract?_spec (plain : e.IsPlain) :
    (∃ r, contract? e = .ok (some r) ∧ Rule e r) ∨ contract? e = .ok none ∧ e.Resists := by
  -- products with and without a sign are distributed by the same rules
  have product : ∀ {op : Operator} {lhs rhs : Expr} {token : Option Token},
      op = .times ∨ op = .juxtaposed →
      (lhs.isSum = false ∧ rhs.isSum = false → Resists (binary op lhs rhs token)) →
      (∃ r, (return contractProduct? lhs rhs token : Except Obstacle _) = .ok (some r) ∧
        Rule (binary op lhs rhs token) r) ∨
      (return contractProduct? lhs rhs token : Except Obstacle _) = .ok none ∧
        Resists (binary op lhs rhs token) := by
    intro op lhs rhs token times resists
    rcases contractProduct?_spec lhs rhs token times with ⟨r, contracts, rule⟩ | ⟨stuck, others⟩
    · exact Or.inl ⟨r, by rw [contracts]; rfl, rule⟩
    · exact Or.inr ⟨by rw [stuck]; rfl, resists others⟩
  unfold contract?
  split
  · have operand : Numeral.IsPlain _ := (plain.parts _ List.mem_cons_self).root
    obtain ⟨x, spells⟩ := operand.exists_rat?
    obtain ⟨result, y, computed, -, size, value', plain'⟩ :=
      Numeral.exists_signed plain.root operand spells
    rw [computed]
    exact Or.inl ⟨_, rfl, .sign computed spells value' size plain'⟩
  · exact contractPower?_spec _ _ _ plain.right.root
  · exact product (Or.inl rfl) fun others => others
  · exact product (Or.inr rfl) fun others => others
  · -- none of the cases applies, so the form of the root excludes every rule
    next sign power times juxtaposed =>
    refine Or.inr ⟨rfl, ?_⟩
    cases e with
    | unary op operand t =>
      cases operand with
      | number text t' => exact (sign op text t' t rfl).elim
      | _ => rfl
    | binary op lhs rhs t =>
      cases op with
      | power =>
        cases rhs with
        | number text t' => exact (power lhs text t' t rfl).elim
        | _ => trivial
      | times => exact (times lhs rhs t rfl).elim
      | juxtaposed => exact (juxtaposed lhs rhs t rfl).elim
      | _ => trivial
    | _ => trivial

/-- Every contraction is by a rule. -/
theorem rule_of_contract? (plain : e.IsPlain) (h : contract? e = .ok (some r)) : Rule e r := by
  rcases contract?_spec plain with ⟨r', contracts, rule⟩ | ⟨stuck, -⟩
  · rw [h] at contracts
    cases contracts
    exact rule
  · rw [h] at stuck
    cases stuck

/-- What does not contract is what no rule is for. -/
theorem IsStuck.resists (plain : e.IsPlain) (h : e.IsStuck) : e.Resists := by
  rcases contract?_spec plain with ⟨r', contracts, -⟩ | ⟨-, resists⟩
  · rw [IsStuck, contracts] at h
    cases h
  · exact resists

/-! ## Results -/

/-- What holds throughout an expression holds throughout what a rule makes of it, if it holds of all
plain numbers and of all operations. -/
theorem Rule.throughout {P : Expr → Prop} (h : Rule e r)
    (numbers : ∀ text t, Numeral.IsPlain text → P (number text t))
    (operations : ∀ op a b t, P (binary op a b t)) (all : Throughout P e) : Throughout P r := by
  have number : ∀ {text t}, Numeral.IsPlain text → Throughout P (number text t) := fun plain =>
    throughout_number.2 (numbers _ _ plain)
  have binary : ∀ {op a b t}, Throughout P a → Throughout P b → Throughout P (binary op a b t) :=
    fun left right => throughout_binary.2 ⟨operations _ _ _ _, left, right⟩
  have one : ∀ {t}, Throughout P (one t) := number Numeral.isPlain_one
  cases h with
  | sign _ _ _ _ result => exact number result
  | zeroth => exact one
  | first => exact all.left
  | second => exact binary all.left all.left
  | lowered _ _ _ lower => exact binary all.left (binary all.left (number lower))
  | inverse _ _ _ _ positive => exact binary one (binary all.left (number positive))
  | left => exact binary (binary all.left.left all.right) (binary all.left.right all.right)
  | right => exact binary (binary all.left all.right.left) (binary all.left all.right.right)

/-- A rule keeps an expression plain. -/
theorem Rule.isPlain (h : Rule e r) (plain : e.IsPlain) : r.IsPlain :=
  h.throughout (fun _ _ plain => plain) (fun _ _ _ _ => trivial) plain

/-- It does not depend on the parts whether the root is plain. -/
theorem hasPlainRoot_withVisited (e : Expr) (es : List Expr) :
    (e.withVisited es).HasPlainRoot ↔ e.HasPlainRoot := by
  unfold withVisited
  split <;> exact Iff.rfl

/-- Contractions keep expressions plain. -/
theorem Contracts.isPlain (h : Contracts e r) (plain : e.IsPlain) : r.IsPlain :=
  h.throughout (fun contracts plain => (rule_of_contract? plain contracts).isPlain plain)
    (fun _ plain _ => (hasPlainRoot_withVisited _ _).2 plain.root) plain

end TexAlgebra.Expr
