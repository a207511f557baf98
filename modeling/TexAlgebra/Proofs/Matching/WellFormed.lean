import TexAlgebra.Proofs.Matching
/-!
# Well-formed expressions

A numeral without a value matches nothing, so what matches anything is well-formed, and so is what
it matches (`Expr.isWellFormed_of_matchesWith`). What equals a well-formed expression is well-formed
as well.
-/

namespace TexAlgebra

/-- Numerals that are found to be the same number both have a value. -/
theorem Numeral.isSome_of_sameValue {s t : String} (h : sameValue s t = .ok true) :
    (value? s).isSome ∧ (value? t).isSome := by
  have finite : ∀ {text : String} {d : Decimal}, Decimal.ofText? text = some d →
      (value? text).isSome := fun found => by simp [value?, found]
  have infinite : ∀ {text : String} {negative : Bool}, Decimal.ofText? text = none →
      special text = .ok (.infinity negative) → (value? text).isSome := by
    intro text negative notFinite found
    have spelled : Decimal.Special.ofText? text = some (.infinity negative) := by
      rw [special] at found
      split at found
      · next s same =>
        cases found
        exact same
      · cases found
    simp [value?, notFinite, spelled]
  -- a finite number is never the same as one that is not
  have incomparable : ∀ {x : Decimal.Special}, Numeral.incomparable x ≠ .ok true := by
    intro x h
    obtain ⟨_, -, h⟩ := ok_of_bind h
    cases h
  rw [sameValue] at h
  split at h
  · next a b left right => exact ⟨finite left, finite right⟩
  · next left right =>
    obtain ⟨x, hx, h⟩ := ok_of_bind h
    obtain ⟨y, hy, h⟩ := ok_of_bind h
    have same := Work.ok_of_result h
    unfold Decimal.Special.sameValue at same
    obtain ⟨_, -, same⟩ := ok_of_bind same
    obtain ⟨_, -, same⟩ := ok_of_bind same
    split at same
    · exact ⟨infinite left hx, infinite right hy⟩
    · cases same
  · obtain ⟨x, -, h⟩ := ok_of_bind h
    exact absurd h incomparable
  · obtain ⟨x, -, h⟩ := ok_of_bind h
    exact absurd h incomparable

namespace Expr

variable {a b : Expr} {as bs : List Expr}

/-! ## What matches -/

/-- Two tests that succeed together both succeed. -/
theorem both_eq_true {test test' : Except Obstacle Bool} (h : both test test' = .ok true) :
    test = .ok true ∧ test' = .ok true := by
  obtain ⟨found, made, h⟩ := ok_of_bind h
  cases found with
  | true => exact ⟨made, h⟩
  | false => cases h

/-- Expressions that match one by one are well-formed. -/
theorem forall_isWellFormed_of_matchesEach
    (each : ∀ a ∈ as, ∀ b, a.matchesWith b = .ok true → a.IsWellFormed ∧ b.IsWellFormed)
    (length : as.length = bs.length) (h : matchesEach as bs = .ok true) :
    (∀ a ∈ as, a.IsWellFormed) ∧ ∀ b ∈ bs, b.IsWellFormed := by
  induction as generalizing bs with
  | nil =>
    cases bs with
    | nil => exact ⟨nofun, nofun⟩
    | cons => cases length
  | cons a as ih =>
    cases bs with
    | nil => cases length
    | cons b bs =>
      rw [matchesEach] at h
      obtain ⟨first, rest⟩ := both_eq_true h
      obtain ⟨ha, hb⟩ := each a List.mem_cons_self b first
      obtain ⟨has, hbs⟩ := ih (fun a mem => each a (List.mem_cons_of_mem _ mem))
        (Nat.succ.inj length) rest
      exact ⟨List.forall_mem_cons.2 ⟨ha, has⟩, List.forall_mem_cons.2 ⟨hb, hbs⟩⟩

/-- Lists that match are well-formed. -/
theorem forall_isWellFormed_of_matchesAll
    (each : ∀ a ∈ as, ∀ b, a.matchesWith b = .ok true → a.IsWellFormed ∧ b.IsWellFormed)
    (h : matchesAll as bs = .ok true) :
    (∀ a ∈ as, a.IsWellFormed) ∧ ∀ b ∈ bs, b.IsWellFormed := by
  rw [matchesAll] at h
  obtain ⟨length, rest⟩ := both_eq_true h
  exact forall_isWellFormed_of_matchesEach each (eq_of_beq (Except.ok.inj length)) rest

/-- What matches is well-formed. -/
theorem isWellFormed_of_matchesWith (h : a.matchesWith b = .ok true) :
    a.IsWellFormed ∧ b.IsWellFormed := by
  induction a using parts_induction generalizing b with
  | number text t =>
    cases b with
    | number =>
      rw [matchesWith] at h
      obtain ⟨left, right⟩ := Numeral.isSome_of_sameValue h
      exact ⟨.number (Option.some_get left).symm, .number (Option.some_get right).symm⟩
    | _ => simp [matchesWith, pure, Except.pure] at h
  | var name subscripts t all =>
    cases b with
    | var =>
      rw [matchesWith] at h
      obtain ⟨left, right⟩ :=
        forall_isWellFormed_of_matchesAll (fun e he b => all e he) (both_eq_true h).2
      exact ⟨.var left, .var right⟩
    | _ => simp [matchesWith, pure, Except.pure] at h
  | unary op operand t inner =>
    cases b with
    | unary =>
      rw [matchesWith] at h
      obtain ⟨left, right⟩ := inner (both_eq_true h).2
      exact ⟨.unary left, .unary right⟩
    | _ => simp [matchesWith, pure, Except.pure] at h
  | binary op lhs rhs t left right =>
    cases b with
    | binary =>
      rw [matchesWith] at h
      obtain ⟨first, second⟩ := both_eq_true (both_eq_true h).2
      exact ⟨.binary (left first).1 (right second).1, .binary (left first).2 (right second).2⟩
    | _ => simp [matchesWith, pure, Except.pure] at h
  | group items t all =>
    cases b with
    | group =>
      rw [matchesWith] at h
      obtain ⟨left, right⟩ := forall_isWellFormed_of_matchesAll (fun e he b => all e he) h
      exact ⟨.group left, .group right⟩
    | _ => simp [matchesWith, pure, Except.pure] at h
  | command name arguments t all =>
    cases b with
    | command =>
      rw [matchesWith] at h
      obtain ⟨left, right⟩ :=
        forall_isWellFormed_of_matchesAll (fun e he b => all e he) (both_eq_true h).2
      exact ⟨.command left, .command right⟩
    | _ => simp [matchesWith, pure, Except.pure] at h
  | block name arguments statements t all =>
    cases b with
    | block =>
      rw [matchesWith] at h
      obtain ⟨left, right⟩ :=
        forall_isWellFormed_of_matchesAll (fun e he b => all e he) (both_eq_true h).2
      exact ⟨.block left, .block right⟩
    | _ => simp [matchesWith, pure, Except.pure] at h
  | prototype name parameters t named all =>
    cases b with
    | prototype =>
      rw [matchesWith] at h
      obtain ⟨first, rest⟩ := both_eq_true h
      obtain ⟨left, right⟩ := forall_isWellFormed_of_matchesAll (fun e he b => all e he) rest
      exact ⟨.prototype (named first).1 left, .prototype (named first).2 right⟩
    | _ => simp [matchesWith, pure, Except.pure] at h
  | function form name parameters head body closed t named all inner _ =>
    cases b with
    | function =>
      rw [matchesWith] at h
      obtain ⟨heads, bodies⟩ := both_eq_true (both_eq_true h).2
      obtain ⟨first, rest⟩ := both_eq_true heads
      obtain ⟨left, right⟩ := forall_isWellFormed_of_matchesAll (fun e he b => all e he) rest
      exact ⟨.function (named first).1 left (inner bodies).1,
        .function (named first).2 right (inner bodies).2⟩
    | _ => simp [matchesWith, pure, Except.pure] at h
  | call callee arguments t called all =>
    cases b with
    | call =>
      rw [matchesWith] at h
      obtain ⟨length, rest⟩ := both_eq_true h
      obtain ⟨first, rest⟩ := both_eq_true rest
      obtain ⟨left, right⟩ := forall_isWellFormed_of_matchesEach (fun e he b => all e he)
        (eq_of_beq (Except.ok.inj length)) rest
      exact ⟨.call (called first).1 left, .call (called first).2 right⟩
    | _ => simp [matchesWith, pure, Except.pure] at h
  | binding target value t bound inner =>
    cases b with
    | binding =>
      rw [matchesWith] at h
      obtain ⟨first, second⟩ := both_eq_true h
      exact ⟨.binding (bound first).1 (inner second).1, .binding (bound first).2 (inner second).2⟩
    | _ => simp [matchesWith, pure, Except.pure] at h

/-! ## What is equal -/

/-- What is equal to a well-formed list is well-formed. -/
theorem forall_isWellFormed_of_sameAll
    (each : ∀ a ∈ as, ∀ b, a.same b = true → b.IsWellFormed) (h : sameAll as bs = true) :
    ∀ b ∈ bs, b.IsWellFormed := by
  induction as generalizing bs with
  | nil =>
    cases bs with
    | nil => exact nofun
    | cons => simp [sameAll] at h
  | cons a as ih =>
    cases bs with
    | nil => exact nofun
    | cons b bs =>
      rw [sameAll, Bool.and_eq_true] at h
      exact List.forall_mem_cons.2 ⟨each a List.mem_cons_self b h.1,
        ih (fun a mem => each a (List.mem_cons_of_mem _ mem)) h.2⟩

/-- What equals a well-formed expression is well-formed. -/
theorem IsWellFormed.of_same (spelled : a.IsWellFormed) (h : a.same b = true) :
    b.IsWellFormed := by
  induction spelled generalizing b with
  | number spelled =>
    cases b with
    | number => exact .number (eq_of_beq h ▸ spelled)
    | _ => simp [same] at h
  | var _ ih =>
    cases b with
    | var =>
      simp only [same, Bool.and_eq_true] at h
      exact .var (forall_isWellFormed_of_sameAll (fun e he b => ih e he) h.2)
    | _ => simp [same] at h
  | unary _ ih =>
    cases b with
    | unary =>
      simp only [same, Bool.and_eq_true] at h
      exact .unary (ih h.2)
    | _ => simp [same] at h
  | binary _ _ ihl ihr =>
    cases b with
    | binary =>
      simp only [same, Bool.and_eq_true] at h
      exact .binary (ihl h.1.2) (ihr h.2)
    | _ => simp [same] at h
  | group _ ih =>
    cases b with
    | group =>
      rw [same] at h
      exact .group (forall_isWellFormed_of_sameAll (fun e he b => ih e he) h)
    | _ => simp [same] at h
  | command _ ih =>
    cases b with
    | command =>
      simp only [same, Bool.and_eq_true] at h
      exact .command (forall_isWellFormed_of_sameAll (fun e he b => ih e he) h.2)
    | _ => simp [same] at h
  | block _ ih =>
    cases b with
    | block =>
      simp only [same, Bool.and_eq_true] at h
      exact .block (forall_isWellFormed_of_sameAll (fun e he b => ih e he) h.2)
    | _ => simp [same] at h
  | prototype _ _ ihn ih =>
    cases b with
    | prototype =>
      simp only [same, Bool.and_eq_true] at h
      exact .prototype (ihn h.1) (forall_isWellFormed_of_sameAll (fun e he b => ih e he) h.2)
    | _ => simp [same] at h
  | function _ _ _ ihn ih ihb =>
    cases b with
    | function =>
      simp only [same, Bool.and_eq_true] at h
      exact .function (ihn h.1.1.1.2)
        (forall_isWellFormed_of_sameAll (fun e he b => ih e he) h.1.1.2) (ihb h.1.2)
    | _ => simp [same] at h
  | call _ _ ihc ih =>
    cases b with
    | call =>
      simp only [same, Bool.and_eq_true] at h
      exact .call (ihc h.1) (forall_isWellFormed_of_sameAll (fun e he b => ih e he) h.2)
    | _ => simp [same] at h
  | binding _ _ iht ihv =>
    cases b with
    | binding =>
      simp only [same, Bool.and_eq_true] at h
      exact .binding (iht h.1) (ihv h.2)
    | _ => simp [same] at h

end Expr

end TexAlgebra
