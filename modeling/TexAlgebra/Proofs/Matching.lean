import TexAlgebra.Proofs.Unplaced.Expression
/-!
# Matching as an equivalence

What matching looks at in an expression is its pattern: the operators, names and forms in it, and
the values of its numbers in place of their spelling. Where every number has a value, matching
always has a result, and two expressions match just if their patterns are equal
(`Expr.decides_matchesWith`). So matching is an equivalence there, and equal expressions match.
-/

namespace TexAlgebra

/-! ## Tests -/

/-- Whether a test has a result, and the result says whether `P` holds. -/
def Decides (test : Except Obstacle Bool) (P : Prop) : Prop :=
  ∃ result, test = .ok result ∧ (result = true ↔ P)

namespace Decides

variable {test test' : Except Obstacle Bool} {P Q : Prop}

theorem of_pure (b : Bool) : Decides (pure b) (b = true) := ⟨b, rfl, Iff.rfl⟩

/-- A test that is known to fail decides what is false. -/
theorem no (made : test = pure false) (fails : ¬P) : Decides test P :=
  ⟨false, made, iff_of_false Bool.false_ne_true fails⟩

/-- A test decides whatever is equivalent to what it decides. -/
theorem congr (h : Decides test P) (same : P ↔ Q) : Decides test Q := by
  obtain ⟨result, made, holds⟩ := h
  exact ⟨result, made, holds.trans same⟩

/-- Two tests decide a conjunction. -/
theorem both (h : Decides test P) (h' : Decides test' Q) :
    Decides (Expr.both test test') (P ∧ Q) := by
  obtain ⟨result, rfl, holds⟩ := h
  obtain ⟨result', rfl, holds'⟩ := h'
  rw [← holds, ← holds']
  cases result
  · exact ⟨false, rfl, by simp⟩
  · exact ⟨result', rfl, by simp⟩

/-- A test succeeds if and only if what it decides is true. -/
theorem eq_true_iff (h : Decides test P) : test = .ok true ↔ P := by
  obtain ⟨result, rfl, holds⟩ := h
  rw [Except.ok.injEq, holds]

/-- A test fails if and only if what it decides is false. -/
theorem eq_false_iff (h : Decides test P) : test = .ok false ↔ ¬P := by
  obtain ⟨result, rfl, holds⟩ := h
  rw [Except.ok.injEq, ← holds, Bool.not_eq_true]

end Decides

/-! ## Values of numerals -/

namespace Numeral

/-- What a numeral stands for: a finite number in its one form, or an infinity. -/
inductive Value where
  | finite (number : Decimal)
  | infinite (negative : Bool)
  deriving DecidableEq

/-- The value of a numeral, if it spells a number. -/
def value? (text : String) : Option Value :=
  match Decimal.ofText? text, Decimal.Special.ofText? text with
  | some d, _ => some (.finite d.canonical)
  | none, some (.infinity negative) => some (.infinite negative)
  | none, _ => none

/-- How a numeral is compared if it has a value. -/
theorem value?_cases {text : String} {v : Value} (h : value? text = some v) :
    (∃ d, Decimal.ofText? text = some d ∧ v = .finite d.canonical) ∨
      ∃ negative, Decimal.ofText? text = none ∧ special text = .ok (.infinity negative) ∧
        v = .infinite negative := by
  rw [value?] at h
  split at h
  · next d finite =>
    cases h
    exact .inl ⟨d, finite, rfl⟩
  · next negative notFinite infinite =>
    cases h
    exact .inr ⟨negative, notFinite, by rw [special, infinite], rfl⟩
  · cases h

/-- Numerals with values are compared by their values. -/
theorem decides_sameValue {s t : String} {v w : Value} (hs : value? s = some v)
    (ht : value? t = some w) : Decides (sameValue s t) (v = w) := by
  rw [sameValue]
  obtain ⟨a, ofS, rfl⟩ | ⟨m, ofS, specialS, rfl⟩ := value?_cases hs
  all_goals obtain ⟨b, ofT, rfl⟩ | ⟨n, ofT, specialT, rfl⟩ := value?_cases ht
  all_goals rw [ofS, ofT]
  · exact ⟨a.sameValue b, rfl, by simp [Decimal.sameValue]⟩
  · exact ⟨false, by simp only [specialT]; rfl, by simp⟩
  · exact ⟨false, by simp only [specialS]; rfl, by simp⟩
  · exact ⟨m == n, by simp only [specialS, specialT]; rfl, by simp⟩

end Numeral

namespace Expr

/-! ## Patterns -/

/-- What matching looks at in a node, its parts aside. -/
inductive Label where
  | number (value : Option Numeral.Value)
  | var (name : String)
  | unary (op : Operator)
  | binary (op : Operator)
  | group
  | command (name : String)
  | block (name : String)
  | prototype
  | function (form : FunctionForm)
  | call
  | binding

/-- An expression as matching sees it. -/
inductive Pattern where
  | node (label : Label) (parts : List Pattern)

mutual

/-- The pattern of an expression. -/
def pattern : Expr → Pattern
  | number text _ => .node (.number (Numeral.value? text)) []
  | var name subscripts _ => .node (.var name) (patterns subscripts)
  | unary op operand _ => .node (.unary op.explicit) [pattern operand]
  | binary op lhs rhs _ => .node (.binary op.explicit) [pattern lhs, pattern rhs]
  | group items _ => .node .group (patterns items)
  | command name arguments _ => .node (.command name) (patterns arguments)
  | block name _ statements _ => .node (.block name) (patterns statements)
  | prototype name parameters _ => .node .prototype (pattern name :: patterns parameters)
  | function form name parameters _ body _ _ =>
    .node (.function form) [.node .prototype (pattern name :: patterns parameters), pattern body]
  | call callee arguments _ => .node .call (pattern callee :: patterns arguments)
  | binding target value _ => .node .binding [pattern target, pattern value]

/-- The patterns of several expressions. -/
def patterns : List Expr → List Pattern
  | [] => []
  | e :: es => pattern e :: patterns es

end

/-- Every expression has a pattern. -/
theorem length_patterns (es : List Expr) : (patterns es).length = es.length := by
  induction es with
  | nil => rfl
  | cons e es ih => rw [patterns, List.length_cons, List.length_cons, ih]

/-- Whether every number that matching looks at has a value. -/
inductive IsWellFormed : Expr → Prop
  | number {text token v} (spelled : Numeral.value? text = some v) :
    IsWellFormed (.number text token)
  | var {name subscripts token} (subscripts_ok : ∀ e ∈ subscripts, IsWellFormed e) :
    IsWellFormed (.var name subscripts token)
  | unary {op operand token} (operand_ok : IsWellFormed operand) :
    IsWellFormed (.unary op operand token)
  | binary {op lhs rhs token} (lhs_ok : IsWellFormed lhs) (rhs_ok : IsWellFormed rhs) :
    IsWellFormed (.binary op lhs rhs token)
  | group {items token} (items_ok : ∀ e ∈ items, IsWellFormed e) :
    IsWellFormed (.group items token)
  | command {name arguments token} (arguments_ok : ∀ e ∈ arguments, IsWellFormed e) :
    IsWellFormed (.command name arguments token)
  | block {name arguments statements token} (statements_ok : ∀ e ∈ statements, IsWellFormed e) :
    IsWellFormed (.block name arguments statements token)
  | prototype {name parameters token} (name_ok : IsWellFormed name)
      (parameters_ok : ∀ e ∈ parameters, IsWellFormed e) :
    IsWellFormed (.prototype name parameters token)
  | function {form name parameters head body closed token} (name_ok : IsWellFormed name)
      (parameters_ok : ∀ e ∈ parameters, IsWellFormed e) (body_ok : IsWellFormed body) :
    IsWellFormed (.function form name parameters head body closed token)
  | call {callee arguments token} (callee_ok : IsWellFormed callee)
      (arguments_ok : ∀ e ∈ arguments, IsWellFormed e) :
    IsWellFormed (.call callee arguments token)
  | binding {target value token} (target_ok : IsWellFormed target)
      (value_ok : IsWellFormed value) :
    IsWellFormed (.binding target value token)

/-! ## Matching and patterns -/

variable {a b : Expr} {as bs : List Expr}

/-- Lists of one length match just if their patterns are equal. -/
theorem decides_matchesEach
    (each : ∀ a ∈ as, ∀ b ∈ bs, Decides (a.matchesWith b) (a.pattern = b.pattern))
    (length : as.length = bs.length) :
    Decides (matchesEach as bs) (patterns as = patterns bs) := by
  induction as generalizing bs with
  | nil =>
    cases bs with
    | nil => exact ⟨true, by simp [matchesEach]; rfl, by simp⟩
    | cons b bs => cases length
  | cons a as ih =>
    cases bs with
    | nil => cases length
    | cons b bs =>
      have first := each a List.mem_cons_self b List.mem_cons_self
      have rest := ih (fun a ha b hb => each a (List.mem_cons_of_mem _ ha) b
        (List.mem_cons_of_mem _ hb)) (Nat.succ.inj length)
      rw [matchesEach]
      exact (first.both rest).congr (by rw [patterns, patterns, List.cons.injEq])

/-- A test of two lists may be left out where their lengths differ. -/
theorem decides_lengths {test : Except Obstacle Bool} {P : Prop}
    (h : as.length = bs.length → Decides test P) (sameLength : P → as.length = bs.length) :
    Decides (both (pure (as.length == bs.length)) test) P := by
  by_cases length : as.length = bs.length
  · refine ((Decides.of_pure _).both (h length)).congr ?_
    simp [length]
  · refine .no ?_ fun holds => length (sameLength holds)
    rw [beq_eq_false_iff_ne.2 length]
    rfl

/-- Lists with the same patterns are of one length. -/
theorem length_eq_of_patterns (h : patterns as = patterns bs) : as.length = bs.length := by
  rw [← length_patterns as, h, length_patterns]

/-- Lists match if and only if they have the same patterns. -/
theorem decides_matchesAll
    (each : ∀ a ∈ as, ∀ b ∈ bs, Decides (a.matchesWith b) (a.pattern = b.pattern)) :
    Decides (matchesAll as bs) (patterns as = patterns bs) := by
  rw [matchesAll]
  exact decides_lengths (decides_matchesEach each) length_eq_of_patterns

/-- **Matching decides equality of patterns.** -/
theorem decides_matchesWith (ha : IsWellFormed a) (hb : IsWellFormed b) :
    Decides (a.matchesWith b) (a.pattern = b.pattern) := by
  induction ha generalizing b with
  | number spelled =>
    -- two nodes match by their roots and parts; nodes of different kinds do not
    cases hb with
    | number spelled' =>
      rw [matchesWith]
      exact (Numeral.decides_sameValue spelled spelled').congr
        (by simp [pattern, spelled, spelled'])
    | _ => exact .no (by simp [matchesWith]) (by simp [pattern])
  | var _ ih =>
    cases hb with
    | var inner =>
      have all := decides_matchesAll fun a ha b hb => ih a ha (inner b hb)
      rw [matchesWith]
      exact ((Decides.of_pure _).both all).congr (by simp [pattern])
    | _ => exact .no (by simp [matchesWith]) (by simp [pattern])
  | unary _ ih =>
    cases hb with
    | unary inner =>
      rw [matchesWith]
      exact ((Decides.of_pure _).both (ih inner)).congr (by simp [pattern, Operator.alike_iff])
    | _ => exact .no (by simp [matchesWith]) (by simp [pattern])
  | binary _ _ ihl ihr =>
    cases hb with
    | binary lhs rhs =>
      rw [matchesWith]
      exact ((Decides.of_pure _).both ((ihl lhs).both (ihr rhs))).congr
        (by simp [pattern, Operator.alike_iff])
    | _ => exact .no (by simp [matchesWith]) (by simp [pattern])
  | group _ ih =>
    cases hb with
    | group inner =>
      have all := decides_matchesAll fun a ha b hb => ih a ha (inner b hb)
      rw [matchesWith]
      exact all.congr (by simp [pattern])
    | _ => exact .no (by simp [matchesWith]) (by simp [pattern])
  | command _ ih =>
    cases hb with
    | command inner =>
      have all := decides_matchesAll fun a ha b hb => ih a ha (inner b hb)
      rw [matchesWith]
      exact ((Decides.of_pure _).both all).congr (by simp [pattern])
    | _ => exact .no (by simp [matchesWith]) (by simp [pattern])
  | block _ ih =>
    cases hb with
    | block inner =>
      have all := decides_matchesAll fun a ha b hb => ih a ha (inner b hb)
      rw [matchesWith]
      exact ((Decides.of_pure _).both all).congr (by simp [pattern])
    | _ => exact .no (by simp [matchesWith]) (by simp [pattern])
  | prototype _ _ ihn ih =>
    cases hb with
    | prototype name inner =>
      have all := decides_matchesAll fun a ha b hb => ih a ha (inner b hb)
      rw [matchesWith]
      exact ((ihn name).both all).congr (by simp [pattern])
    | _ => exact .no (by simp [matchesWith]) (by simp [pattern])
  | function _ _ _ ihn ih ihb =>
    cases hb with
    | function name inner body =>
      have all := decides_matchesAll fun a ha b hb => ih a ha (inner b hb)
      rw [matchesWith]
      exact ((Decides.of_pure _).both (((ihn name).both all).both (ihb body))).congr
        (by simp [pattern])
    | _ => exact .no (by simp [matchesWith]) (by simp [pattern])
  | call _ _ ihc ih =>
    cases hb with
    | call callee inner =>
      have all := decides_matchesEach fun a ha b hb => ih a ha (inner b hb)
      rw [matchesWith]
      refine (decides_lengths (fun length => (ihc callee).both (all length)) fun same =>
        length_eq_of_patterns same.2).congr ?_
      simp [pattern]
    | _ => exact .no (by simp [matchesWith]) (by simp [pattern])
  | binding _ _ iht ihv =>
    cases hb with
    | binding target value =>
      rw [matchesWith]
      exact ((iht target).both (ihv value)).congr (by simp [pattern])
    | _ => exact .no (by simp [matchesWith]) (by simp [pattern])

/-- A well-formed expression matches itself. -/
theorem matchesWith_refl (ha : IsWellFormed a) : a.matchesWith a = .ok true :=
  (decides_matchesWith ha ha).eq_true_iff.2 rfl

/-! ## Equality and patterns -/

/-- Equal lists have the same patterns. -/
theorem patterns_eq_of_sameAll
    (each : ∀ a ∈ as, ∀ b, a.same b = true → a.pattern = b.pattern)
    (h : sameAll as bs = true) : patterns as = patterns bs := by
  induction as generalizing bs with
  | nil =>
    cases bs with
    | nil => rfl
    | cons b bs => simp [sameAll] at h
  | cons a as ih =>
    cases bs with
    | nil => simp [sameAll] at h
    | cons b bs =>
      rw [sameAll, Bool.and_eq_true] at h
      rw [patterns, patterns, each a List.mem_cons_self b h.1,
        ih (fun a ha => each a (List.mem_cons_of_mem _ ha)) h.2]

/-- Equal expressions have one pattern. -/
theorem pattern_eq_of_same (h : a.same b = true) : a.pattern = b.pattern := by
  revert b
  induction a using parts_induction with
  | number text t =>
    intro b h
    cases b with
    | number => rw [pattern, pattern, eq_of_beq h]
    | _ => simp [same] at h
  | var name subscripts t ih =>
    intro b h
    cases b with
    | var =>
      simp only [same, Bool.and_eq_true, beq_iff_eq] at h
      rw [pattern, pattern, h.1, patterns_eq_of_sameAll ih h.2]
    | _ => simp [same] at h
  | unary op operand t ih =>
    intro b h
    cases b with
    | unary =>
      simp only [same, Bool.and_eq_true, Operator.alike_iff] at h
      rw [pattern, pattern, h.1, ih h.2]
    | _ => simp [same] at h
  | binary op lhs rhs t ihl ihr =>
    intro b h
    cases b with
    | binary =>
      simp only [same, Bool.and_eq_true, Operator.alike_iff] at h
      rw [pattern, pattern, h.1.1, ihl h.1.2, ihr h.2]
    | _ => simp [same] at h
  | group items t ih =>
    intro b h
    cases b with
    | group => rw [pattern, pattern, patterns_eq_of_sameAll ih (by simpa [same] using h)]
    | _ => simp [same] at h
  | command name arguments t ih =>
    intro b h
    cases b with
    | command =>
      simp only [same, Bool.and_eq_true, beq_iff_eq] at h
      rw [pattern, pattern, h.1, patterns_eq_of_sameAll ih h.2]
    | _ => simp [same] at h
  | block name arguments statements t ih =>
    intro b h
    cases b with
    | block =>
      simp only [same, Bool.and_eq_true, beq_iff_eq] at h
      rw [pattern, pattern, h.1.1, patterns_eq_of_sameAll ih h.2]
    | _ => simp [same] at h
  | prototype name parameters t ihn ih =>
    intro b h
    cases b with
    | prototype =>
      simp only [same, Bool.and_eq_true] at h
      rw [pattern, pattern, ihn h.1, patterns_eq_of_sameAll ih h.2]
    | _ => simp [same] at h
  | function form name parameters head body closed t ihn ih ihb _ =>
    intro b h
    cases b with
    | function =>
      simp only [same, Bool.and_eq_true, beq_iff_eq] at h
      obtain ⟨⟨⟨⟨form, name⟩, parameters⟩, body⟩, -⟩ := h
      rw [pattern, pattern, form, ihn name, patterns_eq_of_sameAll ih parameters, ihb body]
    | _ => simp [same] at h
  | call callee arguments t ihc ih =>
    intro b h
    cases b with
    | call =>
      simp only [same, Bool.and_eq_true] at h
      rw [pattern, pattern, ihc h.1, patterns_eq_of_sameAll ih h.2]
    | _ => simp [same] at h
  | binding target value t iht ihv =>
    intro b h
    cases b with
    | binding =>
      simp only [same, Bool.and_eq_true] at h
      rw [pattern, pattern, iht h.1, ihv h.2]
    | _ => simp [same] at h

end Expr

end TexAlgebra
