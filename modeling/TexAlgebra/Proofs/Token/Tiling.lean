import TexAlgebra.Proofs.Token.Pieces
/-!
# Where tokens and comments lie in a text

The tokens and the comments of a text lie in it one behind the other, and only white space is left
between them (`Lexer.tokenize_tiles`). Each is the piece of the text at its offset, and its line and
its column are those of that offset, also behind comments that run over several lines.

`Lexer.Tiled` says the same of the scanner, step by step.
-/

namespace TexAlgebra

/-! ## Places -/

/-- The place behind the first characters of a text: lines are counted from one, and the column is
the number of characters since the last line break. -/
def Position.behind (before : List Char) : Position where
  line := 1 + before.count '\n'
  column := lastLineLength before
  offset := before.length

/-- A place is as far from the start as there are characters before it. -/
@[simp] theorem Position.behind_offset (before : List Char) :
    (Position.behind before).offset = before.length := rfl

/-- The last line of a text is that of its second part, unless this stays on one line. -/
theorem lastLineLength_append (a b : List Char) : lastLineLength (a ++ b) =
    if '\n' ∈ b then lastLineLength b else lastLineLength a + b.length := by
  simp only [lastLineLength, List.reverse_append, List.takeWhile_append]
  by_cases broken : '\n' ∈ b
  · have short : (b.reverse.takeWhile (· ≠ '\n')).length ≠ b.reverse.length := by
      intro full
      have all := (List.takeWhile_prefix (· ≠ '\n')).eq_of_length full
      have := List.mem_takeWhile_imp (all ▸ List.mem_reverse.2 broken)
      simp at this
    rw [if_pos broken, if_neg short]
  · have whole : b.reverse.takeWhile (· ≠ '\n') = b.reverse :=
      List.takeWhile_eq_self_iff.2 fun c hc => by
        have : c ≠ '\n' := fun same => broken (same ▸ List.mem_reverse.1 hc)
        simpa using this
    rw [if_neg broken, whole, if_pos rfl, List.length_append, List.length_reverse, Nat.add_comm]

/-- Going past a text and another one is going past both. -/
theorem Position.past_past (p : Position) (a b : List Char) :
    (p.past a).past b = p.past (a ++ b) := by
  simp only [Position.past, List.count_append, List.length_append, List.mem_append,
    lastLineLength_append, Nat.add_assoc]
  by_cases broken : '\n' ∈ b
  · simp only [broken, or_true, if_true]
  · simp only [broken, or_false, if_false]
    split_ifs
    · rfl
    · rw [Nat.add_assoc]

/-- Going past a text from its start leads to the place behind it. -/
theorem Position.start_past (text : List Char) : Position.start.past text = .behind text := by
  have column : lastLineLength text =
      if '\n' ∈ text then lastLineLength text else 0 + text.length := lastLineLength_append [] text
  rw [Position.past, Position.behind]
  exact congrArg₂ (Position.mk _) column.symm (Nat.zero_add _)

/-- Places move on by the characters that are read. -/
theorem Position.past_behind (before text : List Char) :
    (Position.behind before).past text = .behind (before ++ text) := by
  rw [← start_past, ← start_past, past_past]

/-! ## Spans -/

/-- A piece of a text: the place where it starts, and what it says. -/
structure Span where
  position : Position
  text : String
  deriving DecidableEq, Repr

namespace Span

/-- The offset at which a span starts. -/
def first (s : Span) : Nat := s.position.offset

/-- The offset behind a span. -/
def stop (s : Span) : Nat := s.first + s.text.length

end Span

/-- The span of a token. -/
def Token.span (t : Token) : Span := ⟨t.position, t.text⟩

/-- The span of a comment. -/
def Comment.span (c : Comment) : Span := ⟨c.position, c.text⟩

namespace Lexed

/-- The spans of the tokens before the end token and of the comments, by their offsets. -/
def spans (l : Lexed) : List Span :=
  (l.tokens.dropLast.map Token.span).merge (l.comments.map Comment.span) (·.first ≤ ·.first)

/-- Whether tokens and comments are the pieces of a text that is cut into them and white space. -/
structure Tiles (l : Lexed) (source : List Char) : Prop where
  /-- The end token stands behind the whole text, and no other token is of its kind. -/
  closed : l.tokens.getLast? = some (.ending (.behind source)) ∧
    ∀ t ∈ l.tokens.dropLast, t.kind ≠ .endOfText
  nonempty : ∀ s ∈ l.spans, s.text ≠ ""
  /-- Each span is the piece of the text at its offset. -/
  cut : ∀ s ∈ l.spans, s.text.toList = (source.drop s.first).take s.text.length
  /-- Each span ends before the next one starts. -/
  ordered : l.spans.Pairwise (·.stop ≤ ·.first)
  /-- Between the spans there is only white space. -/
  covered : ∀ i c, source[i]? = some c → (∀ s ∈ l.spans, ¬ (s.first ≤ i ∧ i < s.stop)) →
    Lexer.isGap c = true
  /-- Line and column are those of the offset. -/
  placed : ∀ s ∈ l.spans, s.position = .behind (source.take s.first)

end Lexed

/-! ## Merging -/

section

variable {α : Type} {le : α → α → Bool} {x : α} {xs ys : List α}

/-- What comes before all of the second list is taken first. -/
theorem merge_cons_left (h : ∀ y ∈ ys, le x y = true) :
    (x :: xs).merge ys le = x :: xs.merge ys le := by
  cases ys with
  | nil => rw [List.merge_right, List.merge_right]
  | cons y ys => exact List.cons_merge_cons_pos le xs ys (h y List.mem_cons_self)

/-- What comes strictly before all of the first list is taken first. -/
theorem merge_cons_right (h : ∀ y ∈ xs, le y x = false) :
    xs.merge (x :: ys) le = x :: xs.merge ys le := by
  cases xs with
  | nil => rw [List.nil_merge, List.nil_merge]
  | cons y xs =>
    exact List.cons_merge_cons_neg le xs ys (Bool.eq_false_iff.1 (h y List.mem_cons_self))

end

namespace Lexer

/-! ## Tilings -/

/-- Whether a text that starts at a place is cut into some spans, one behind the other, and white
space before, between and behind them. -/
inductive Tiled : Position → List Char → List Span → Prop
  | nil {p : Position} : Tiled p [] []
  | gap {p : Position} {c : Char} {cs : List Char} {spans : List Span} (blank : isGap c = true)
      (rest : Tiled (p.past [c]) cs spans) : Tiled p (c :: cs) spans
  | span {p : Position} {text cs : List Char} {spans : List Span} (nonempty : text ≠ [])
      (rest : Tiled (p.past text) cs spans) :
      Tiled p (text ++ cs) (⟨p, String.ofList text⟩ :: spans)

namespace Tiled

variable {p : Position} {before cs : List Char} {spans : List Span}

/-- No span starts before the text does. -/
theorem offset_le (h : Tiled p cs spans) : ∀ s ∈ spans, p.offset ≤ s.first := by
  induction h with
  | nil => nofun
  | gap _ _ ih =>
    intro s hs
    exact (Nat.le_add_right _ _).trans (ih s hs)
  | span _ _ ih =>
    intro s hs
    rcases List.mem_cons.1 hs with rfl | hs
    · exact Nat.le_refl _
    · exact (Nat.le_add_right _ _).trans (ih s hs)

/-- No span of a tiling is empty. -/
theorem nonempty (h : Tiled p cs spans) : ∀ s ∈ spans, s.text ≠ "" := by
  induction h with
  | nil => nofun
  | gap _ _ ih => exact ih
  | span nonempty _ ih =>
    refine List.forall_mem_cons.2 ⟨fun empty => nonempty ?_, ih⟩
    have := congrArg String.toList empty
    rwa [String.toList_ofList] at this

/-- The spans of a tiling come one after the other. -/
theorem ordered (h : Tiled p cs spans) : spans.Pairwise (·.stop ≤ ·.first) := by
  induction h with
  | nil => exact .nil
  | gap _ _ ih => exact ih
  | @span p text _ _ _ rest ih =>
    refine .cons (fun s hs => ?_) ih
    have stop : Span.stop ⟨p, String.ofList text⟩ = (p.past text).offset := by
      rw [Span.stop, String.length_ofList]
      rfl
    exact stop ▸ rest.offset_le s hs

/-- Each span is a piece of the whole text, and its place is the one behind what comes before it. -/
theorem exists_append (h : Tiled (.behind before) cs spans) : ∀ s ∈ spans, ∃ prior later,
    before ++ cs = prior ++ (s.text.toList ++ later) ∧ s.position = .behind prior := by
  generalize start : Position.behind before = p at h
  induction h generalizing before with
  | nil => nofun
  | @gap _ c cs _ _ _ ih =>
    subst start
    have rest := ih (Position.past_behind before [c]).symm
    rwa [List.append_assoc] at rest
  | @span _ text cs _ _ _ ih =>
    subst start
    have rest := ih (Position.past_behind before text).symm
    rw [List.append_assoc] at rest
    refine List.forall_mem_cons.2 ⟨⟨before, cs, ?_, rfl⟩, rest⟩
    rw [String.toList_ofList]

/-- A character of the text that is in none of the spans is white space. -/
theorem covered (h : Tiled p cs spans) : ∀ i c, cs[i]? = some c →
    (∀ s ∈ spans, ¬ (s.first ≤ p.offset + i ∧ p.offset + i < s.stop)) → isGap c = true := by
  induction h with
  | nil => nofun
  | @gap p c cs _ blank _ ih =>
    intro i x there outside
    cases i with
    | zero =>
      cases there
      exact blank
    | succ i =>
      refine ih i x there fun s hs => ?_
      have := outside s hs
      rwa [Nat.add_comm i 1, ← Nat.add_assoc] at this
  | @span p text cs _ _ _ ih =>
    intro i x there outside
    obtain ⟨first, rest⟩ := List.forall_mem_cons.1 outside
    have behind : text.length ≤ i := by
      simp only [Span.first, Span.stop, String.length_ofList] at first
      omega
    rw [List.getElem?_append_right behind] at there
    refine ih (i - text.length) x there fun s hs => ?_
    have offset : (p.past text).offset + (i - text.length) = p.offset + i := by
      rw [Position.past_offset]
      omega
    rw [offset]
    exact rest s hs

end Tiled

/-! ## The scanner -/

/-- A lexeme that is dropped is a single character of white space. -/
theorem munch_blank {c : Char} {cs : List Char} (h : (munch c cs).1 = .blank) :
    munch c cs = (.blank, 0) ∧ isGap c = true := by
  by_cases digit : isDigit c = true
  · -- a number is no blank, with or without a point
    by_cases point : ∃ r, cs.drop (cs.takeWhile isDigit).length = '.' :: r
    · obtain ⟨r, point⟩ := point
      rw [munch_point digit point] at h
      cases h
    · rw [munch_whole digit fun r hr => point ⟨r, hr⟩] at h
      cases h
  · unfold munch at h ⊢
    dsimp only at h ⊢
    split_ifs at h ⊢ <;> simp_all [isGap, isBlank]

/-- The end token stands behind the whole text. -/
theorem getLast?_scan (p : Position) (cs : List Char) :
    (scan p cs).tokens.getLast? = some (.ending (p.past cs)) := by
  fun_induction scan p cs with
  | case1 p => rw [Position.past_nil]; rfl
  | case2 p c cs piece later text comment ih =>
    rw [Position.past_past, cut_append] at ih
    exact ih
  | case3 p c cs piece later blank ih =>
    rw [Position.past_past, cut_append] at ih
    exact ih
  | case4 p c cs piece later text kind token ih =>
    rw [Position.past_past, cut_append] at ih
    rw [List.getLast?_cons, ih]
    rfl

/-- A text has a token, for it has an end. -/
theorem scan_tokens_ne_nil (p : Position) (cs : List Char) : (scan p cs).tokens ≠ [] := by
  intro none
  have last := getLast?_scan p cs
  rw [none] at last
  cases last

/-- The scanner cuts a text into tokens, comments and white space. -/
theorem tiled_scan (p : Position) (cs : List Char) : Tiled p cs (scan p cs).spans := by
  fun_induction scan p cs with
  | case1 p =>
    rw [Lexed.spans, List.dropLast_singleton, List.map_nil, List.map_nil, List.nil_merge]
    exact .nil
  | case2 p c cs piece later text comment ih =>
    -- the tokens that are found later start behind the comment
    have spans : Lexed.spans ⟨later.tokens, ⟨p, text⟩ :: later.comments⟩ =
        ⟨p, text⟩ :: later.spans := by
      refine merge_cons_right fun s hs => ?_
      have behind := ih.offset_le s (List.mem_merge_left _ hs)
      have shorter : p.offset < (p.past piece.2.1).offset :=
        Nat.lt_add_of_pos_right (Nat.succ_pos _)
      exact decide_eq_false (Nat.not_le.2 (Nat.lt_of_lt_of_le shorter behind))
    rw [spans, ← cut_append c cs]
    exact .span (List.cons_ne_nil _ _) ih
  | case3 p c cs piece later blank ih =>
    obtain ⟨dropped, gap⟩ := munch_blank blank
    have whole : piece = (.blank, [c], cs) := by
      show cut c cs = _
      rw [cut, dropped]
      rfl
    have later_eq : later = scan (p.past [c]) cs := by
      show scan (p.past piece.2.1) piece.2.2 = _
      rw [whole]
    rw [whole] at ih
    exact .gap gap (later_eq ▸ ih)
  | case4 p c cs piece later text kind token ih =>
    -- the comments that are found later start behind the token
    have spans : Lexed.spans ⟨⟨kind, p, text⟩ :: later.tokens, later.comments⟩ =
        ⟨p, text⟩ :: later.spans := by
      rw [Lexed.spans, List.dropLast_cons_of_ne_nil (scan_tokens_ne_nil _ _)]
      refine merge_cons_left fun s hs => ?_
      have behind := ih.offset_le s (List.mem_merge_right _ hs)
      exact decide_eq_true ((Nat.le_add_right _ _).trans behind)
    rw [spans, ← cut_append c cs]
    exact .span (List.cons_ne_nil _ _) ih

/-- Tokens and comments are the non-empty pieces of a text, in order, each at the place that the
characters before it lead to, and between them there is only white space. -/
theorem tokenize_tiles (source : String) : (tokenize source).Tiles source.toList := by
  have tiled : Tiled (.behind []) source.toList (tokenize source).spans := tiled_scan _ _
  have last : (tokenize source).tokens.getLast? = some (.ending (.behind source.toList)) := by
    rw [tokenize, getLast?_scan, Position.start_past]
  refine ⟨⟨last, ?_⟩, tiled.nonempty, ?_, tiled.ordered, ?_, ?_⟩
  · obtain ⟨tokens, q, split, inner⟩ := scan_tokens Position.start source.toList
    intro t ht
    rw [tokenize, split, List.dropLast_concat] at ht
    exact inner t ht
  · intro s hs
    obtain ⟨prior, later, split, place⟩ := tiled.exists_append s hs
    have first : s.first = prior.length := congrArg Position.offset place
    rw [← List.nil_append source.toList, split, first, ← String.length_toList, List.drop_left,
      List.take_left]
  · intro i c there outside
    refine tiled.covered i c there fun s hs => ?_
    simpa using outside s hs
  · intro s hs
    obtain ⟨prior, later, split, place⟩ := tiled.exists_append s hs
    have first : s.first = prior.length := congrArg Position.offset place
    rw [← List.nil_append source.toList, split, first, List.take_left]
    exact place

end Lexer

end TexAlgebra
