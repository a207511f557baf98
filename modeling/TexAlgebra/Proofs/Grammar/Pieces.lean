import TexAlgebra.Proofs.Grammar.Extension
/-!
# Parsers that read a piece alone

A piece of a text is read like a text of its own, as long as what comes behind it does not go on
with it (`Parser.IsLocal`): either some tokens of the piece are left over, so that nothing behind it
is looked at, or the next token breaks off what was read (`Token.Breaks`), as a comma does or
anything that closes. What is behind a piece counts for the faults alone.

Parsers that are local can be combined to local ones. The only trouble is at the end of a piece,
where a parser sees the token behind it: there it has to do what it would do at the end of a text
(`Parser.localAt_nil`). A parser that is local only where a token of the piece is left
(`Parser.IsLocalAtToken`) is local if it always takes one.
-/

namespace TexAlgebra

/-- Whether a token goes on with nothing that may stand before it: it is no operator and starts no
factor, no subscript and no group. -/
structure Token.Breaks (t : Token) : Prop where
  operator : Grammar.operatorAt? t = .none
  subscript : t.kind ≠ .subscript
  group : t.kind ≠ .braceOpen

/-- No parenthesis opens behind what was broken off. -/
theorem Token.Breaks.kind_ne_parenOpen {t : Token} (h : t.Breaks) : t.kind ≠ .parenOpen := by
  intro kind
  have := h.operator
  rw [Grammar.operatorAt?, kind] at this
  cases this

namespace Parser

variable {α β : Type}

/-- Whether `p` reads from the piece `ts` alone what it reads from it in front of other tokens,
where it stops within the piece or at the end of it, before a token that breaks off. -/
def LocalAt (p : Parser α) (ts : List Token) : Prop :=
  ∀ (context : Context) (us more : List Token) (fs fs' : List Expr) (a : α),
    (us = [] → ∀ t ∈ more.head?, t.Breaks) →
      (p context ⟨ts ++ more, fs⟩ = .done a ⟨us ++ more, fs'⟩ ↔
        p context ⟨ts, fs⟩ = .done a ⟨us, fs'⟩)

/-- Whether a parser reads every piece like a text of its own. -/
structure IsLocal (p : Parser α) : Prop where
  keeps : p.Keeps
  localAt : ∀ ts, p.LocalAt ts

/-- Whether a parser reads every piece that is not empty like a text of its own. -/
structure IsLocalAtToken (p : Parser α) : Prop where
  keeps : p.Keeps
  localAt : ∀ t ts, p.LocalAt (t :: ts)

theorem IsLocal.atToken {p : Parser α} (h : p.IsLocal) : p.IsLocalAtToken :=
  ⟨h.keeps, fun t ts => h.localAt (t :: ts)⟩

/-! ## The end of a piece -/

/-- At the end of a piece only what comes behind it can be taken, and then less than that is
left. -/
theorem localAt_nil {p : Parser α} (kept : p.Keeps)
    (h : ∀ context more fs fs' a, (∀ t ∈ more.head?, t.Breaks) →
      (p context ⟨more, fs⟩ = .done a ⟨more, fs'⟩ ↔ p context ⟨[], fs⟩ = .done a ⟨[], fs'⟩)) :
    p.LocalAt [] := by
  intro context us more fs fs' a breaks
  by_cases none : us = []
  · subst none
    exact h context more fs fs' a (breaks rfl)
  · have positive := List.length_pos_iff.2 none
    refine iff_of_false (fun reading => ?_) (fun reading => ?_)
    · have shorter := (kept.suffix reading).length_le
      simp only [List.nil_append, List.length_append] at shorter
      omega
    · exact none (List.suffix_nil.1 (kept.suffix reading))

/-- A parser that always takes a token reads nothing at the end of a piece. -/
theorem IsLocalAtToken.of_consumes {p : Parser α} (h : p.IsLocalAtToken) (taken : p.Consumes) :
    p.IsLocal := by
  refine ⟨h.keeps, fun ts => ?_⟩
  cases ts with
  | cons t ts => exact h.localAt t ts
  | nil =>
    refine localAt_nil h.keeps fun context more fs fs' a _ => ?_
    refine iff_of_false (fun reading => ?_) (fun reading => ?_)
    · have shorter : more.length < more.length := taken _ _ _ _ reading
      exact Nat.lt_irrefl _ shorter
    · exact Nat.not_lt_zero _ (taken _ _ _ _ reading)

/-! ## Combination -/

/-- A parser that reads no token is local. -/
theorem isLocal_of_stays {p : Parser α} (value : Context → List Expr → α)
    (names : List Expr → List Expr)
    (h : ∀ context k, p context k = .done (value context k.functions) ⟨k.rest, names k.functions⟩) :
    p.IsLocal := by
  refine ⟨fun context k => ?_, fun ts context us more fs fs' a _ => ?_⟩
  · rw [h]
    exact List.suffix_rfl
  · rw [h, h]
    simp only [Reading.done.injEq, Cursor.mk.injEq, List.append_cancel_right_eq]

theorem isLocal_pure (a : α) : (pure a : Parser α).IsLocal :=
  isLocal_of_stays (fun _ _ => a) id fun _ _ => rfl

theorem isLocal_define (name : Expr) : (define name).IsLocal :=
  isLocal_of_stays (fun _ _ => ()) (· ++ [name]) fun _ _ => rfl

theorem isLocal_isFunction (x : Expr) : (isFunction x).IsLocal :=
  isLocal_of_stays (fun context fs => fs.any (· == x) || context.known x) id fun _ _ => rfl

/-- A parser that always fails is local, for there is nothing to compare. -/
theorem Fails.isLocal {p : Parser α} (h : p.Fails) (kept : p.Keeps) : p.IsLocal :=
  ⟨kept, fun _ _ _ _ _ _ _ _ => iff_of_false (h _ _ _ _) (h _ _ _ _)⟩

theorem isLocal_fail (cause : ParseCause) (token : Token) :
    (fail cause token : Parser α).IsLocal :=
  (fails_fail cause token).isLocal (keeps_fail cause token)

theorem isLocal_exhausted : (exhausted : Parser α).IsLocal :=
  fails_exhausted.isLocal keeps_exhausted

theorem isLocal_ite {p q : Parser α} {c : Prop} [Decidable c] (hp : p.IsLocal) (hq : q.IsLocal) :
    (if c then p else q).IsLocal := by
  split
  · exact hp
  · exact hq

theorem isLocalAtToken_ite {p q : Parser α} {c : Prop} [Decidable c] (hp : p.IsLocalAtToken)
    (hq : q.IsLocalAtToken) : (if c then p else q).IsLocalAtToken := by
  split
  · exact hp
  · exact hq

/-- A sequence reads a piece alone if its first step does so and the second one is local. -/
theorem localAt_bind {p : Parser α} {f : α → Parser β} {ts : List Token} (hp : p.LocalAt ts)
    (hf : ∀ a, (f a).IsLocal) : (p >>= f).LocalAt ts := by
  intro context us more fs fs' b breaks
  constructor
  · intro reading
    obtain ⟨a, ⟨middle, names⟩, first, second⟩ := done_of_bind reading
    -- what `f` leaves is a tail of what `p` leaves, so `p` stops within the piece, too
    obtain ⟨taken, split⟩ := (hf a).keeps.suffix second
    obtain rfl : taken ++ us ++ more = middle := by rw [List.append_assoc]; exact split
    have first' := (hp context (taken ++ us) more fs names a
      fun none => breaks (List.append_eq_nil_iff.1 none).2).1 first
    rw [bind_of_done first']
    exact ((hf a).localAt _ context us more names fs' b breaks).1 second
  · intro reading
    obtain ⟨a, ⟨middle, names⟩, first, second⟩ := done_of_bind reading
    have kept := (hf a).keeps.suffix second
    have first' := (hp context middle more fs names a fun none => breaks (by
      subst none
      exact List.suffix_nil.1 kept)).2 first
    rw [bind_of_done first']
    exact ((hf a).localAt _ context us more names fs' b breaks).2 second

/-- A sequence of local steps is local. -/
theorem IsLocal.bind {p : Parser α} {f : α → Parser β} (hp : p.IsLocal)
    (hf : ∀ a, (f a).IsLocal) : (p >>= f).IsLocal :=
  ⟨keeps_bind hp.keeps fun a => (hf a).keeps, fun ts => localAt_bind (hp.localAt ts) hf⟩

/-- A sequence is local at a token if its first step is and the second one is local. -/
theorem IsLocalAtToken.bind {p : Parser α} {f : α → Parser β} (hp : p.IsLocalAtToken)
    (hf : ∀ a, (f a).IsLocal) : (p >>= f).IsLocalAtToken :=
  ⟨keeps_bind hp.keeps fun a => (hf a).keeps, fun t ts => localAt_bind (hp.localAt t ts) hf⟩

/-! ## Tokens -/

/-- A token of the piece is read from the piece. -/
theorem isLocalAtToken_next_bind {f : Token → Parser β} (hf : ∀ t, (f t).IsLocal) :
    (next >>= f).IsLocalAtToken :=
  ⟨keeps_bind keeps_next fun t => (hf t).keeps, fun t ts => (hf t).localAt ts⟩

/-- A token of the piece is seen in the piece. -/
theorem isLocalAtToken_peek_bind {f : Token → Parser β} (hf : ∀ t, (f t).IsLocalAtToken) :
    (peek >>= f).IsLocalAtToken :=
  ⟨keeps_bind keeps_peek fun t => (hf t).keeps, fun t ts => (hf t).localAt t ts⟩

/-- It can be told from the piece of what kind a token of it is. -/
theorem isLocalAtToken_sees_bind {kind : TokenKind} {f : Bool → Parser β}
    (hf : ∀ b, (f b).IsLocalAtToken) : (sees kind >>= f).IsLocalAtToken :=
  ⟨keeps_bind (keeps_sees kind) fun b => (hf b).keeps,
    fun t ts => (hf (decide (t.kind = kind))).localAt t ts⟩

/-- What takes a token wherever there is one, and refuses the end of the text, always takes one. -/
theorem consumes_of_takes {p : Parser α} (taken : p.Takes)
    (atEnd : ∀ context fs a after, p context ⟨[], fs⟩ ≠ .done a after) : p.Consumes := by
  intro context k a after reading
  obtain ⟨rest, fs⟩ := k
  cases rest with
  | nil => exact absurd reading (atEnd context fs a after)
  | cons t rest => exact taken _ _ _ _ (List.cons_ne_nil _ _) reading

theorem Consumes.takes {p : Parser α} (h : p.Consumes) : p.Takes :=
  fun context k a after _ reading => h context k a after reading

/-- A token is taken if the end of the text is refused. -/
theorem consumes_next_bind {f : Token → Parser β} (hf : ∀ t, (f t).Keeps)
    (atEnd : ∀ t, t.kind = .endOfText → (f t).Fails) : (next >>= f).Consumes :=
  consumes_of_takes (takes_next_bind hf) fun _ _ _ _ => atEnd (.ending _) rfl _ _ _ _

/-- Reading a token is local if the end of the text is refused. -/
theorem isLocal_next_bind {f : Token → Parser β} (hf : ∀ t, (f t).IsLocal)
    (atEnd : ∀ t, t.kind = .endOfText → (f t).Fails) : (next >>= f).IsLocal :=
  (isLocalAtToken_next_bind hf).of_consumes (consumes_next_bind (fun t => (hf t).keeps) atEnd)

theorem consumes_expect {kind : TokenKind} {character : String} :
    (expect kind character).Consumes := by
  refine consumes_next_bind (fun t => ?_) fun t ended => ?_
  · exact keeps_ite (keeps_fail _ _) (keeps_ite (keeps_done _) (keeps_fail _ _))
  · rw [if_pos ended]
    exact fails_fail _ _

/-- To expect a token is local, for the end of the text is refused. -/
theorem isLocal_expect (kind : TokenKind) (character : String) :
    (expect kind character).IsLocal := by
  have atToken : (expect kind character).IsLocalAtToken :=
    isLocalAtToken_next_bind fun t =>
      isLocal_ite (isLocal_fail _ _) (isLocal_ite (isLocal_pure _) (isLocal_fail _ _))
  exact atToken.of_consumes consumes_expect

/-- A parser that returns the same at the end of a text and before any token that breaks off. -/
theorem isLocal_peek_bind {f : Token → Parser β} {b : β} (hf : ∀ t, (f t).IsLocalAtToken)
    (ended : ∀ t, Grammar.operatorAt? t = .none → f t = pure b) : (peek >>= f).IsLocal := by
  have kept : (peek >>= f).Keeps := keeps_bind keeps_peek fun t => (hf t).keeps
  refine ⟨kept, fun ts => ?_⟩
  cases ts with
  | cons t ts => exact (hf t).localAt t ts
  | nil =>
    refine localAt_nil kept fun context more fs fs' a breaks => ?_
    have outside : Grammar.operatorAt? (Cursor.token context ⟨more, fs⟩) = .none := by
      cases more with
      | nil => rfl
      | cons t more => exact (breaks t rfl).operator
    rw [peek_bind, peek_bind, ended _ outside, ended _ rfl]
    simp only [pure_apply, Reading.done.injEq, Cursor.mk.injEq, true_and]

/-- A parser that looks for a token which does not break off takes the end of the piece for the end
of the text. -/
theorem isLocal_sees_bind {kind : TokenKind} {f : Bool → Parser β}
    (text : kind ≠ .endOfText) (other : ∀ t : Token, t.Breaks → t.kind ≠ kind)
    (yes : (f true).IsLocalAtToken) (no : (f false).IsLocal) : (sees kind >>= f).IsLocal := by
  have atToken : (sees kind >>= f).IsLocalAtToken :=
    isLocalAtToken_sees_bind fun b => by cases b; exacts [no.atToken, yes]
  refine ⟨atToken.keeps, fun ts => ?_⟩
  cases ts with
  | cons t ts => exact atToken.localAt t ts
  | nil =>
    refine localAt_nil atToken.keeps fun context more fs fs' a breaks => ?_
    have unseen : (Cursor.token context ⟨more, fs⟩).kind ≠ kind := by
      cases more with
      | nil => exact text.symm
      | cons t more => exact other t (breaks t rfl)
    have unseen' : (Cursor.token context ⟨[], fs⟩).kind ≠ kind := text.symm
    rw [sees_bind, sees_bind, decide_eq_false unseen, decide_eq_false unseen']
    exact no.localAt [] context [] more fs fs' a fun _ => breaks

/-- A parser that takes a token whichever token it sees. -/
theorem isLocal_sees_bind_of_takes {kind : TokenKind} {f : Bool → Parser β}
    (text : kind ≠ .endOfText) (yes : (f true).IsLocalAtToken) (taken : (f true).Takes)
    (no : (f false).IsLocal) (consumed : (f false).Consumes) : (sees kind >>= f).IsLocal := by
  have atToken : (sees kind >>= f).IsLocalAtToken :=
    isLocalAtToken_sees_bind fun b => by cases b; exacts [no.atToken, yes]
  refine atToken.of_consumes (consumes_of_takes (fun context k b after present reading => ?_) ?_)
  · rw [sees_bind] at reading
    cases seen : decide ((k.token context).kind = kind) with
    | true =>
      rw [seen] at reading
      exact taken _ _ _ _ present reading
    | false =>
      rw [seen] at reading
      exact consumed _ _ _ _ reading
  · intro context fs b after reading
    have unseen : (Cursor.token context ⟨[], fs⟩).kind ≠ kind := text.symm
    rw [sees_bind, decide_eq_false unseen] at reading
    exact Nat.not_lt_zero _ (consumed _ _ _ _ reading)

/-- Ends of statements are skipped alike if something has to come behind them. -/
theorem isLocal_skipEnds_bind {f : Unit → Parser β} (hf : (f ()).IsLocal)
    (taken : (f ()).Consumes) : (skipEnds >>= f).IsLocal := by
  refine ⟨keeps_bind keeps_skipEnds fun _ => hf.keeps, fun ts => ?_⟩
  intro context us more fs fs' b breaks
  have skipped (rest : List Token) : (skipEnds >>= f) context ⟨rest, fs⟩ =
      f () context ⟨rest.dropWhile (·.kind = .endOfStatement), fs⟩ := rfl
  rw [skipped, skipped, List.dropWhile_append]
  split
  · next none =>
    rw [List.isEmpty_iff.1 none]
    refine iff_of_false (fun reading => ?_) (fun reading => ?_)
    · have shorter := taken _ _ _ _ reading
      have := (List.dropWhile_suffix (l := more) (·.kind = .endOfStatement)).length_le
      simp only [List.length_append] at shorter
      omega
    · exact Nat.not_lt_zero _ (taken _ _ _ _ reading)
  · exact hf.localAt _ context us more fs fs' b breaks

end Parser

end TexAlgebra
