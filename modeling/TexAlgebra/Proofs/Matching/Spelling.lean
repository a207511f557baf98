import TexAlgebra.Proofs.Equality
import TexAlgebra.Proofs.Numeral.Spelling
/-!
# Matching as equality up to spelling

Matching compares two expressions as if all their numbers were spelled in one way. It does not see
the texts of the groups behind `\begin`, nor which parameters of a function were replaced already.
Leave these out (`Expr.bare`), and two expressions match just if they are equal with every number in
its canonical spelling (`Expr.matchesWith_iff_spelled`). With them, expressions that become equal
match, but not the other way round.
-/

namespace TexAlgebra.Expr

/-! ## Spelled and bare expressions -/

mutual

/-- The expression with every number in the canonical spelling of its value. -/
def spelled : Expr → Expr
  | number text t => number (Numeral.spelled text) t
  | var name subscripts t => var name (spelledAll subscripts) t
  | unary op operand t => unary op (spelled operand) t
  | binary op lhs rhs t => binary op (spelled lhs) (spelled rhs) t
  | group items t => group (spelledAll items) t
  | command name arguments t => command name (spelledAll arguments) t
  | block name arguments statements t => block name arguments (spelledAll statements) t
  | prototype name parameters t => prototype (spelled name) (spelledAll parameters) t
  | function form name parameters head body closed t =>
    function form (spelled name) (spelledAll parameters) head (spelled body) (spelledPairs closed) t
  | call callee arguments t => call (spelled callee) (spelledAll arguments) t
  | binding target value t => binding (spelled target) (spelled value) t

/-- The expressions with every number in the canonical spelling of its value. -/
def spelledAll : List Expr → List Expr
  | [] => []
  | e :: es => spelled e :: spelledAll es

/-- The pairs with every number in the canonical spelling of its value. -/
def spelledPairs : List (Expr × Expr) → List (Expr × Expr)
  | [] => []
  | (a, b) :: rest => (spelled a, spelled b) :: spelledPairs rest

end

mutual

/-- The expression without what matching does not see: the groups of a block, apart from the name,
and the parameters of a function that were replaced already. -/
def bare : Expr → Expr
  | number text t => number text t
  | var name subscripts t => var name (bareAll subscripts) t
  | unary op operand t => unary op (bare operand) t
  | binary op lhs rhs t => binary op (bare lhs) (bare rhs) t
  | group items t => group (bareAll items) t
  | command name arguments t => command name (bareAll arguments) t
  | block name _ statements t => block name [name] (bareAll statements) t
  | prototype name parameters t => prototype (bare name) (bareAll parameters) t
  | function form name parameters head body _ t =>
    function form (bare name) (bareAll parameters) head (bare body) [] t
  | call callee arguments t => call (bare callee) (bareAll arguments) t
  | binding target value t => binding (bare target) (bare value) t

/-- The expressions without what matching does not see. -/
def bareAll : List Expr → List Expr
  | [] => []
  | e :: es => bare e :: bareAll es

end

/-- A list is spelled expression by expression. -/
theorem spelledAll_eq (es : List Expr) : spelledAll es = es.map spelled := by
  induction es with
  | nil => rfl
  | cons e es ih => rw [spelledAll, ih, List.map_cons]

/-- A list is bared expression by expression. -/
theorem bareAll_eq (es : List Expr) : bareAll es = es.map bare := by
  induction es with
  | nil => rfl
  | cons e es ih => rw [bareAll, ih, List.map_cons]

/-! ## Patterns -/

variable {a b c : Expr} {as bs : List Expr}

/-- What keeps the pattern of every expression keeps those of a list. -/
theorem patterns_map {f : Expr → Expr} {es : List Expr}
    (each : ∀ e ∈ es, (f e).pattern = e.pattern) : patterns (es.map f) = patterns es := by
  induction es with
  | nil => rfl
  | cons e es ih =>
    obtain ⟨first, rest⟩ := List.forall_mem_cons.1 each
    rw [List.map_cons, patterns, patterns, first, ih rest]

/-- Matching does not see how a number is spelled. -/
theorem pattern_spelled (e : Expr) : e.spelled.pattern = e.pattern := by
  induction e using parts_induction with
  | number => simp [spelled, pattern]
  | var _ _ _ all => simp [spelled, pattern, spelledAll_eq, patterns_map all]
  | unary _ _ _ inner => simp [spelled, pattern, inner]
  | binary _ _ _ _ left right => simp [spelled, pattern, left, right]
  | group _ _ all => simp [spelled, pattern, spelledAll_eq, patterns_map all]
  | command _ _ _ all => simp [spelled, pattern, spelledAll_eq, patterns_map all]
  | block _ _ _ _ all => simp [spelled, pattern, spelledAll_eq, patterns_map all]
  | prototype _ _ _ name all => simp [spelled, pattern, spelledAll_eq, name, patterns_map all]
  | function _ _ _ _ _ _ _ name all body =>
    simp [spelled, pattern, spelledAll_eq, name, body, patterns_map all]
  | call _ _ _ callee all => simp [spelled, pattern, spelledAll_eq, callee, patterns_map all]
  | binding _ _ _ target value => simp [spelled, pattern, target, value]

/-- Matching does not see what a bare expression lacks. -/
theorem pattern_bare (e : Expr) : e.bare.pattern = e.pattern := by
  induction e using parts_induction with
  | number => rfl
  | var _ _ _ all => simp [bare, pattern, bareAll_eq, patterns_map all]
  | unary _ _ _ inner => simp [bare, pattern, inner]
  | binary _ _ _ _ left right => simp [bare, pattern, left, right]
  | group _ _ all => simp [bare, pattern, bareAll_eq, patterns_map all]
  | command _ _ _ all => simp [bare, pattern, bareAll_eq, patterns_map all]
  | block _ _ _ _ all => simp [bare, pattern, bareAll_eq, patterns_map all]
  | prototype _ _ _ name all => simp [bare, pattern, bareAll_eq, name, patterns_map all]
  | function _ _ _ _ _ _ _ name all body =>
    simp [bare, pattern, bareAll_eq, name, body, patterns_map all]
  | call _ _ _ callee all => simp [bare, pattern, bareAll_eq, callee, patterns_map all]
  | binding _ _ _ target value => simp [bare, pattern, target, value]

/-! ## Equality of spelled expressions -/

/-- Lists of the same patterns are equal once they are spelled. -/
theorem sameAll_spelled
    (each : ∀ a ∈ as, ∀ b ∈ bs, a.pattern = b.pattern → a.bare.spelled.same b.bare.spelled = true)
    (h : patterns as = patterns bs) :
    sameAll (spelledAll (bareAll as)) (spelledAll (bareAll bs)) = true := by
  induction as generalizing bs with
  | nil =>
    cases bs with
    | nil => rfl
    | cons b bs => cases h
  | cons a as ih =>
    cases bs with
    | nil => cases h
    | cons b bs =>
      obtain ⟨first, rest⟩ := List.cons.inj h
      have later := ih (fun a ha b hb =>
        each a (List.mem_cons_of_mem _ ha) b (List.mem_cons_of_mem _ hb)) rest
      exact Bool.and_eq_true_iff.2
        ⟨each a List.mem_cons_self b List.mem_cons_self first, later⟩

/-- What has one pattern is equal, spelled in one way and without what matching does not see. -/
theorem same_spelled_of_pattern_eq (ha : IsWellFormed a) (hb : IsWellFormed b)
    (h : a.pattern = b.pattern) : a.bare.spelled.same b.bare.spelled = true := by
  induction ha generalizing b with
  | number read =>
    cases hb with
    | number read' =>
      simp only [pattern, Pattern.node.injEq, Label.number.injEq, and_true, read, read',
        Option.some_inj] at h
      simp [bare, spelled, same, (Numeral.spelled_eq_iff read read').2 h]
    | _ => simp [pattern] at h
  | var _ ih =>
    cases hb with
    | var inner =>
      simp only [pattern, Pattern.node.injEq, Label.var.injEq] at h
      simp [bare, spelled, same, h.1, sameAll_spelled (fun a ha b hb => ih a ha (inner b hb)) h.2]
    | _ => simp [pattern] at h
  | unary _ ih =>
    cases hb with
    | unary inner =>
      simp only [pattern, Pattern.node.injEq, Label.unary.injEq, List.cons.injEq, and_true] at h
      simp [bare, spelled, same, Operator.alike_iff, h.1, ih inner h.2]
    | _ => simp [pattern] at h
  | binary _ _ ihl ihr =>
    cases hb with
    | binary lhs rhs =>
      simp only [pattern, Pattern.node.injEq, Label.binary.injEq, List.cons.injEq, and_true] at h
      simp [bare, spelled, same, Operator.alike_iff, h.1, ihl lhs h.2.1, ihr rhs h.2.2]
    | _ => simp [pattern] at h
  | group _ ih =>
    cases hb with
    | group inner =>
      simp only [pattern, Pattern.node.injEq, true_and] at h
      simp [bare, spelled, same, sameAll_spelled (fun a ha b hb => ih a ha (inner b hb)) h]
    | _ => simp [pattern] at h
  | command _ ih =>
    cases hb with
    | command inner =>
      simp only [pattern, Pattern.node.injEq, Label.command.injEq] at h
      simp [bare, spelled, same, h.1, sameAll_spelled (fun a ha b hb => ih a ha (inner b hb)) h.2]
    | _ => simp [pattern] at h
  | block _ ih =>
    cases hb with
    | block inner =>
      simp only [pattern, Pattern.node.injEq, Label.block.injEq] at h
      simp [bare, spelled, same, h.1, sameAll_spelled (fun a ha b hb => ih a ha (inner b hb)) h.2]
    | _ => simp [pattern] at h
  | prototype _ _ ihn ih =>
    cases hb with
    | prototype name inner =>
      simp only [pattern, Pattern.node.injEq, true_and, List.cons.injEq] at h
      simp [bare, spelled, same, ihn name h.1,
        sameAll_spelled (fun a ha b hb => ih a ha (inner b hb)) h.2]
    | _ => simp [pattern] at h
  | function _ _ _ ihn ih ihb =>
    cases hb with
    | function name inner body =>
      simp only [pattern, Pattern.node.injEq, Label.function.injEq, List.cons.injEq, and_true,
        true_and] at h
      obtain ⟨form, ⟨named, all⟩, inside⟩ := h
      simp [bare, spelled, same, spelledPairs, samePairs, form, ihn name named, ihb body inside,
        sameAll_spelled (fun a ha b hb => ih a ha (inner b hb)) all]
    | _ => simp [pattern] at h
  | call _ _ ihc ih =>
    cases hb with
    | call callee inner =>
      simp only [pattern, Pattern.node.injEq, true_and, List.cons.injEq] at h
      simp [bare, spelled, same, ihc callee h.1,
        sameAll_spelled (fun a ha b hb => ih a ha (inner b hb)) h.2]
    | _ => simp [pattern] at h
  | binding _ _ iht ihv =>
    cases hb with
    | binding target value =>
      simp only [pattern, Pattern.node.injEq, true_and, List.cons.injEq, and_true] at h
      simp [bare, spelled, same, iht target h.1, ihv value h.2]
    | _ => simp [pattern] at h

/-! ## Matching -/

/-- Expressions have one pattern just if they are equal with each number in its canonical spelling,
but for what matching does not see. -/
theorem pattern_eq_iff (ha : IsWellFormed a) (hb : IsWellFormed b) :
    a.pattern = b.pattern ↔ (a.bare.spelled == b.bare.spelled) = true := by
  refine ⟨same_spelled_of_pattern_eq ha hb, fun same => ?_⟩
  have := pattern_eq_of_same same
  rwa [pattern_spelled, pattern_spelled, pattern_bare, pattern_bare] at this

/-- Matching has a result for any two expressions whose numbers all have values, and they match just
if they are equal once every number is in its canonical spelling and what matching does not see is
left out. Expressions without any such thing match just if they become equal, and others match if
they do. So matching is an equivalence, and equal expressions match. -/
theorem matchesWith_iff_spelled (ha : IsWellFormed a) (hb : IsWellFormed b) :
    (∃ result, a.matchesWith b = .ok result) ∧
    (a.matchesWith b = .ok true ↔ (a.bare.spelled == b.bare.spelled) = true) ∧
    (a.bare = a → b.bare = b →
      (a.matchesWith b = .ok true ↔ (a.spelled == b.spelled) = true)) ∧
    ((a.spelled == b.spelled) = true → a.matchesWith b = .ok true) ∧
    ((a == b) = true → a.matchesWith b = .ok true) ∧
    a.matchesWith a = .ok true ∧
    (a.matchesWith b = .ok true → b.matchesWith a = .ok true) ∧
    ∀ c, IsWellFormed c → a.matchesWith b = .ok true → b.matchesWith c = .ok true →
      a.matchesWith c = .ok true := by
  have ab := (decides_matchesWith ha hb).eq_true_iff
  have ba := (decides_matchesWith hb ha).eq_true_iff
  obtain ⟨result, made, -⟩ := decides_matchesWith ha hb
  refine ⟨⟨result, made⟩, ab.trans (pattern_eq_iff ha hb), fun bareA bareB => ?_, fun same => ?_,
    fun same => ab.2 (pattern_eq_of_same same), matchesWith_refl ha, fun matched => ?_,
    fun c hc matched matched' => ?_⟩
  · rw [ab, pattern_eq_iff ha hb, bareA, bareB]
  · have := pattern_eq_of_same same
    rw [pattern_spelled, pattern_spelled] at this
    exact ab.2 this
  · exact ba.2 (ab.1 matched).symm
  · have bc := (decides_matchesWith hb hc).eq_true_iff
    exact (decides_matchesWith ha hc).eq_true_iff.2 ((ab.1 matched).trans (bc.1 matched'))

/-- Two sums whose numbers are spelled differently, one of them within a subscript. -/
theorem matchesWith_iff_spelled_sum :
    let a := binary .plus (var "x" [number "1.0" none] none) (number "2.50" none) none
    let b := binary .plus (var "x" [number "1" none] none) (number "2.5" none) none
    a.IsWellFormed ∧ b.IsWellFormed ∧ a.bare = a ∧ b.bare = b ∧ (a == b) = false ∧
      (a.spelled == b.spelled) = true ∧ a.matchesWith b = .ok true := by
  intro a b
  have wellFormed {s t : String} {v w : Numeral.Value} (hs : Numeral.value? s = some v)
      (ht : Numeral.value? t = some w) :
      IsWellFormed (binary .plus (var "x" [number s none] none) (number t none) none) :=
    .binary (.var (List.forall_mem_singleton.2 (.number hs))) (.number ht)
  have ha : a.IsWellFormed :=
    @wellFormed _ _ (.finite ⟨false, 1, 0⟩) (.finite ⟨false, 25, -1⟩) (by decide) (by decide)
  have hb : b.IsWellFormed :=
    @wellFormed _ _ (.finite ⟨false, 1, 0⟩) (.finite ⟨false, 25, -1⟩) (by decide) (by decide)
  obtain ⟨-, -, plain, -⟩ := matchesWith_iff_spelled ha hb
  have equal : (a.spelled == b.spelled) = true := by decide +kernel
  exact ⟨ha, hb, rfl, rfl, by decide, equal, (plain rfl rfl).2 equal⟩

/-- Two blocks match though one is given another group: matching does not see it, and no spelling of
numbers makes them equal. -/
theorem matches_blocks_apart :
    let a := block "a" ["a", "b"] [var "x" [] none] none
    let b := block "a" ["a", "c"] [var "x" [] none] none
    a.IsWellFormed ∧ b.IsWellFormed ∧ a.matchesWith b = .ok true ∧
      (a.spelled == b.spelled) = false := by
  have wellFormed (groups : List String) :
      IsWellFormed (block "a" groups [var "x" [] none] none) :=
    .block (List.forall_mem_singleton.2 (.var fun _ h => (List.not_mem_nil h).elim))
  have matched := (decides_matchesWith (wellFormed ["a", "b"]) (wellFormed ["a", "c"])).eq_true_iff
  exact ⟨wellFormed _, wellFormed _, matched.2 rfl, by decide⟩

end TexAlgebra.Expr
