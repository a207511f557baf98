import TexAlgebra.Proofs.Document
/-!
# The way through a document

While the statements of a document are read, its cursor moves from token to token. Every statement
takes it further on, also one that cannot be read, and it stops at the first token that ends the
text, which it never goes past (`Document.trail_progress`). This holds whatever is known of
functions, also if that changes between statements.
-/

namespace TexAlgebra

namespace Document

/-! ## Cursors in a list of tokens -/

/-- Some tokens and one that ends the text behind them, unless the last of them does so. -/
def closed (tokens : List Token) : List Token :=
  if tokens.getLast?.any (·.kind = .endOfText) then tokens else tokens ++ [.ending (endOf tokens)]

/-- The index of the first token that ends the text. -/
def firstEnd (tokens : List Token) : Nat := (closed tokens).findIdx (·.kind = .endOfText)

/-- The index of the token at the cursor, in a document that was made of some tokens. -/
def index (tokens : List Token) (d : Document) : Nat := firstEnd tokens - d.size

/-- Whether the cursor of a document is at the token with an index: what is left are the tokens from
there to the first one that ends the text. -/
structure IsAt (tokens : List Token) (d : Document) (i : Nat) : Prop where
  le : i ≤ firstEnd tokens
  rest : d.cursor.rest ++ (closed tokens).drop (firstEnd tokens) = (closed tokens).drop i

section

variable (tokens : List Token)

/-- There is a token that ends the text. -/
theorem firstEnd_lt : firstEnd tokens < (closed tokens).length := by
  refine List.findIdx_lt_length_of_exists ?_
  unfold closed
  split
  · next ended =>
    obtain ⟨t, last, ended⟩ := (Option.any_eq_true _ _).1 ended
    exact ⟨t, List.mem_of_getLast? last, ended⟩
  · exact ⟨_, List.mem_append_right _ List.mem_cons_self, rfl⟩

/-- Closed tokens have a first end. -/
theorem exists_firstEnd :
    ∃ t, (closed tokens)[firstEnd tokens]? = some t ∧ t.kind = .endOfText :=
  ⟨_, List.getElem?_eq_getElem (firstEnd_lt tokens),
    of_decide_eq_true (List.findIdx_getElem (w := firstEnd_lt tokens))⟩

/-- A document starts with all tokens before the first one that ends the text. -/
theorem rest_ofTokens :
    (ofTokens tokens).cursor.rest = (closed tokens).take (firstEnd tokens) := by
  have same : (fun t : Token => !decide (t.kind ≠ .endOfText)) =
      fun t => decide (t.kind = .endOfText) := by
    funext t
    simp
  have taken : (closed tokens).takeWhile (·.kind ≠ .endOfText) =
      tokens.takeWhile (·.kind ≠ .endOfText) := by
    unfold closed
    split
    · rfl
    · rw [List.takeWhile_append]
      split
      · next whole =>
        rw [(List.takeWhile_prefix _).eq_of_length whole]
        exact List.append_nil tokens
      · rfl
  rw [firstEnd, ← same, ← List.takeWhile_eq_take_findIdx_not, taken]
  rfl

/-- A document is as large as there are tokens before the first end. -/
theorem size_ofTokens : (ofTokens tokens).size = firstEnd tokens := by
  rw [size, rest_ofTokens, List.length_take, Nat.min_eq_left (Nat.le_of_lt (firstEnd_lt tokens))]

/-- There are no more tokens before the first end than tokens that are no ends. -/
theorem firstEnd_le : firstEnd tokens ≤ (tokens.filter (·.kind ≠ .endOfText)).length := by
  let inside (t : Token) : Bool := t.kind ≠ .endOfText
  have inner : (tokens.takeWhile inside).filter inside = tokens.takeWhile inside :=
    List.filter_eq_self.2 fun t ht => List.mem_takeWhile_imp (p := inside) ht
  rw [← size_ofTokens]
  show (tokens.takeWhile inside).length ≤ (tokens.filter inside).length
  rw [← inner]
  exact ((List.takeWhile_sublist _).filter _).length_le

variable {tokens}

/-- A document with a tail of the tokens is at its index. -/
theorem isAt_index {d : Document} (tail : d.cursor.rest <:+ (ofTokens tokens).cursor.rest) :
    IsAt tokens d (index tokens d) := by
  obtain ⟨read, split⟩ := tail
  have whole : closed tokens =
      read ++ (d.cursor.rest ++ (closed tokens).drop (firstEnd tokens)) := by
    rw [← List.append_assoc, split, rest_ofTokens, List.take_append_drop]
  have reached : index tokens d = read.length := by
    have lengths := congrArg List.length split
    rw [List.length_append] at lengths
    rw [index, ← size_ofTokens, size, size]
    omega
  refine ⟨Nat.sub_le _ _, ?_⟩
  calc d.cursor.rest ++ (closed tokens).drop (firstEnd tokens)
      = (read ++ (d.cursor.rest ++ (closed tokens).drop (firstEnd tokens))).drop read.length :=
        List.drop_left.symm
    _ = (closed tokens).drop (index tokens d) := by rw [← whole, reached]

end

/-! ## One statement -/

/-- What a statement leaves is a tail of the tokens that were left before it. -/
theorem suffix_of_next? {known : Expr → Bool} {d rest : Document} {s : Statement}
    (h : d.next? known = some (s, rest)) : rest.cursor.rest <:+ d.cursor.rest := by
  have before : (atStatement d.cursor).rest <:+ d.cursor.rest := List.dropWhile_suffix _
  have kept := Parser.keeps_expression ⟨d.ending, known⟩ (atStatement d.cursor)
  simp only [next?] at h
  split at h
  · cases h
  · split at h
    · next e after reading =>
      cases h
      rw [reading] at kept
      exact List.IsSuffix.trans kept before
    · next fault after reading =>
      cases h
      rw [reading] at kept
      refine List.IsSuffix.trans ?_ (List.IsSuffix.trans kept before)
      -- skipping after a fault leaves a tail, with or without the token that is dropped first
      refine (List.dropWhile_suffix _).trans ?_
      split
      · exact List.drop_suffix _ _
      · exact List.suffix_rfl
    · cases h

/-! ## All statements -/

section

variable {σ ρ : Type} (known : σ → Expr → Bool) (handle : Statement → σ → ρ × σ)

/-- A document and what is left of it after each of its statements, which are handled one after the
other as in `process`. -/
def trail (state : σ) (d : Document) : List Document :=
  match _h : d.next? (known state) with
  | none => [d]
  | some (s, rest) => d :: trail (handle s state).2 rest
termination_by d.size
decreasing_by exact size_lt_of_next? ‹_›

section

variable {known : σ → Expr → Bool} {handle : Statement → σ → ρ × σ} {state : σ}
  {d rest : Document} {s : Statement}

/-- Behind a statement the trail goes on with the rest. -/
theorem trail_of_next?_eq_some (h : d.next? (known state) = some (s, rest)) :
    trail known handle state d = d :: trail known handle (handle s state).2 rest := by
  rw [trail]
  split
  · next none =>
    rw [none] at h
    cases h
  · next some =>
    rw [some] at h
    cases h
    rfl

/-- Without a next statement the trail ends. -/
theorem trail_of_next?_eq_none (h : d.next? (known state) = none) :
    trail known handle state d = [d] := by
  rw [trail]
  split
  · rfl
  · next some =>
    rw [some] at h
    cases h

end

/-- Induction on the statements of a document that are handled one after the other. -/
theorem trail_induction {motive : σ → Document → Prop}
    (ended : ∀ state d, d.next? (known state) = none → motive state d)
    (more : ∀ state d s rest, d.next? (known state) = some (s, rest) →
      motive (handle s state).2 rest → motive state d) (state : σ) (d : Document) :
    motive state d := by
  cases next : d.next? (known state) with
  | none => exact ended state d next
  | some outcome =>
    have fewer := size_lt_of_next? next
    exact more state d _ _ next (trail_induction ended more _ outcome.2)
termination_by d.size

/-- There is one cursor more than statements. -/
theorem length_trail (state : σ) (d : Document) :
    (trail known handle state d).length = (process known handle state d).length + 1 := by
  induction state, d using trail_induction known handle with
  | ended state d next =>
    rw [trail_of_next?_eq_none next, process_of_next?_eq_none next]
    rfl
  | more state d s rest next ih =>
    rw [trail_of_next?_eq_some next, process_of_next?_eq_some next, List.length_cons, ih]
    rfl

/-- The cursor stays within what is left of the document. -/
theorem suffix_of_mem_trail (state : σ) (d : Document) :
    ∀ stop ∈ trail known handle state d, stop.cursor.rest <:+ d.cursor.rest := by
  induction state, d using trail_induction known handle with
  | ended state d next =>
    rw [trail_of_next?_eq_none next]
    exact List.forall_mem_singleton.2 List.suffix_rfl
  | more state d s rest next ih =>
    rw [trail_of_next?_eq_some next]
    refine List.forall_mem_cons.2 ⟨List.suffix_rfl, fun stop hs => ?_⟩
    exact (ih stop hs).trans (suffix_of_next? next)

/-- Every statement takes at least one token. -/
theorem pairwise_trail (state : σ) (d : Document) :
    (trail known handle state d).Pairwise (fun before after => after.size < before.size) := by
  induction state, d using trail_induction known handle with
  | ended state d next =>
    rw [trail_of_next?_eq_none next]
    exact List.pairwise_singleton _ _
  | more state d s rest next ih =>
    rw [trail_of_next?_eq_some next]
    refine .cons (fun stop hs => ?_) ih
    have left := (suffix_of_mem_trail known handle _ rest stop hs).length_le
    exact Nat.lt_of_le_of_lt left (size_lt_of_next? next)

/-- At the end nothing is left but ends of statements. -/
theorem getLast?_trail (state : σ) (d : Document) : ∃ last,
    (trail known handle state d).getLast? = some last ∧ (atStatement last.cursor).rest = [] := by
  induction state, d using trail_induction known handle with
  | ended state d next =>
    rw [trail_of_next?_eq_none next]
    exact ⟨d, rfl, next?_eq_none_iff.1 next⟩
  | more state d s rest next ih =>
    obtain ⟨last, found, ended⟩ := ih
    refine ⟨last, ?_, ended⟩
    rw [trail_of_next?_eq_some next, List.getLast?_cons, found]
    rfl

/-- There are no more statements than tokens. -/
theorem length_process_le (state : σ) (d : Document) :
    (process known handle state d).length ≤ d.size := by
  induction state, d using trail_induction known handle with
  | ended state d next =>
    rw [process_of_next?_eq_none next]
    exact Nat.zero_le _
  | more state d s rest next ih =>
    rw [process_of_next?_eq_some next]
    exact Nat.lt_of_le_of_lt ih (size_lt_of_next? next)

/-- While a document is read to its end, its cursor starts at the first token, goes on by at least
one token with every statement or fault, and never goes past the first token that ends the text. At
the end it is there, once ends of statements are skipped. So there are at most as many results as
tokens that do not end the text. -/
theorem trail_progress (tokens : List Token) (state : σ) :
    let start := ofTokens tokens
    let stops := trail known handle state start
    let results := process known handle state start
    index tokens start = 0 ∧
    (∀ stop ∈ stops, IsAt tokens stop (index tokens stop)) ∧
    (stops.map (index tokens)).Pairwise (· < ·) ∧
    stops.length = results.length + 1 ∧
    results.length ≤ (tokens.filter (·.kind ≠ .endOfText)).length ∧
    (∃ last, stops.getLast? = some last ∧
      IsAt tokens { last with cursor := atStatement last.cursor } (firstEnd tokens)) ∧
    ∃ t, (closed tokens)[firstEnd tokens]? = some t ∧ t.kind = .endOfText := by
  have tails := suffix_of_mem_trail known handle state (ofTokens tokens)
  refine ⟨?_, fun stop hs => isAt_index (tails stop hs), ?_, length_trail known handle state _, ?_,
    ?_, exists_firstEnd tokens⟩
  · rw [index, size_ofTokens, Nat.sub_self]
  · refine List.pairwise_map.2 ((pairwise_trail known handle state _).imp_of_mem ?_)
    intro before after hb _ fewer
    have within : before.size ≤ firstEnd tokens := size_ofTokens tokens ▸ (tails _ hb).length_le
    simp only [index]
    omega
  · have few := length_process_le known handle state (ofTokens tokens)
    rw [size_ofTokens] at few
    exact few.trans (firstEnd_le tokens)
  · obtain ⟨last, found, ended⟩ := getLast?_trail known handle state (ofTokens tokens)
    refine ⟨last, found, Nat.le_refl _, ?_⟩
    rw [ended, List.nil_append]

end

end Document

end TexAlgebra
