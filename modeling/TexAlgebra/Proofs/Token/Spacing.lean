import TexAlgebra.Proofs.Token.Joined
import TexAlgebra.Proofs.Token.Texts
import TexAlgebra.Proofs.Token.Tiling
/-!
# Blanks between tokens

A token is the longest lexeme at its place, so it stays one if a blank is put behind it. Two things
follow. The texts of the tokens with single spaces between them have the same tokens again
(`Lexer.tokenize_joined`), so they are a canonical form of the text. And a comment counts as one
blank: with a space in the place of each of its comments a text has the same tokens
(`Lexer.tokenize_uncommented`), although a comment swallows the line breaks behind it.
-/

namespace TexAlgebra

/-- What a token says, apart from its place: its kind, its payload and its text. -/
def Token.content (t : Token) : TokenKind × Option String × String := (t.kind, t.payload?, t.text)

/-- Tokens of the same kinds and texts say the same. -/
theorem content_eq_of_glyph_eq {ts us : List Token} (h : ts.map Token.glyph = us.map Token.glyph) :
    ts.map Token.content = us.map Token.content := by
  have := congrArg (List.map fun g : Glyph => (g.1, Token.payload? ⟨g.1, .start, g.2⟩, g.2)) h
  rwa [List.map_map, List.map_map] at this

namespace Lexer

/-! ## Lexemes in front of another text -/

variable {p : Char → Bool} {c : Char} {cs rest : List Char} {kind : TokenKind} {n : Nat}

/-- What follows a run does not belong to it. -/
theorem not_of_head?_drop_takeWhile {b : Char}
    (h : (cs.drop (cs.takeWhile p).length).head? = some b) : p b = false := by
  induction cs with
  | nil => cases h
  | cons c cs ih =>
    by_cases hc : p c = true
    · rw [List.takeWhile_cons_of_pos hc] at h
      exact ih h
    · rw [List.takeWhile_cons_of_neg hc] at h
      cases h
      exact Bool.eq_false_iff.2 hc

/-- Whether `rest` goes on like `cs` behind its first `n` characters, or with a blank. -/
def GoesOn (cs : List Char) (n : Nat) (rest : List Char) : Prop :=
  ∀ b ∈ rest.head?, b = ' ' ∨ (cs.drop n).head? = some b

/-- A space lets no lexeme go on. -/
theorem goesOn_space (cs : List Char) (n : Nat) (rest : List Char) : GoesOn cs n (' ' :: rest) := by
  rintro b ⟨⟩
  exact .inl rfl

/-- A run of characters other than blanks ends where it ended. -/
theorem GoesOn.takeWhile_eq (h : GoesOn cs (cs.takeWhile p).length rest) (blank : p ' ' = false) :
    (cs.take (cs.takeWhile p).length ++ rest).takeWhile p = cs.takeWhile p := by
  rw [take_length_takeWhile]
  refine takeWhile_append_of_head? (fun c => List.mem_takeWhile_imp) fun b hb => ?_
  rcases h b hb with rfl | same
  · exact blank
  · exact not_of_head?_drop_takeWhile same

/-- What a backslash starts depends on whether another one follows and on the letters behind it. -/
theorem munch_backslash (cs : List Char) :
    munch '\\' cs =
      if cs.head? = some '\\' then (.token .endOfStatement, 1)
      else if cs.takeWhile isLetter = [] then (.token .other, 0)
      else (.token .controlWord, (cs.takeWhile isLetter).length) := by
  have comment : '\\' ≠ '%' := by decide
  have line : '\\' ≠ '\n' := by decide
  have blank : isBlank '\\' = false := rfl
  simp only [munch, comment, line, blank, if_true, if_false, Bool.false_eq_true]

/-- A control word is cut off before what does not go on with it. -/
theorem munch_backslash_take_append (h : munch '\\' cs = (.token kind, n))
    (follows : GoesOn cs n rest) : munch '\\' (cs.take n ++ rest) = (.token kind, n) := by
  rw [munch_backslash] at h
  split_ifs at h with double none
  · cases h
    obtain ⟨r, rfl⟩ := List.head?_eq_some_iff.1 double
    rfl
  · cases h
    have follows' : GoesOn cs (cs.takeWhile isLetter).length rest := by rwa [none]
    have run := follows'.takeWhile_eq rfl
    rw [none, List.length_nil] at run
    have alone : (cs.take 0 ++ rest).head? ≠ some '\\' := by
      intro another
      rcases follows _ another with space | same
      · cases space
      · exact double same
    rw [munch_backslash, if_neg alone, if_pos run]
  · cases h
    have run := follows.takeWhile_eq rfl
    have alone : (cs.take (cs.takeWhile isLetter).length ++ rest).head? ≠ some '\\' := by
      obtain ⟨b, bs, spelled⟩ := List.exists_cons_of_ne_nil none
      have letter : isLetter b = true :=
        List.mem_takeWhile_imp (spelled ▸ List.mem_cons_self : b ∈ cs.takeWhile isLetter)
      rw [take_length_takeWhile, spelled]
      rintro ⟨⟩
      cases letter
    rw [munch_backslash, if_neg alone, run, if_neg none]

/-- A number is cut off before what does not go on with it. -/
theorem munch_digit_take_append (digit : isDigit c = true) (h : munch c cs = (.token kind, n))
    (follows : GoesOn cs n rest) : munch c (cs.take n ++ rest) = (.token kind, n) := by
  by_cases point : ∃ r, cs.drop (cs.takeWhile isDigit).length = '.' :: r
  · obtain ⟨r, point⟩ := point
    rw [munch_point digit point] at h
    cases h
    -- the first run of digits ends at the point, the second where it ended
    have taken :
        cs.take ((cs.takeWhile isDigit).length + 1 + (r.takeWhile isDigit).length) ++ rest =
        cs.takeWhile isDigit ++ '.' :: (r.take (r.takeWhile isDigit).length ++ rest) := by
      rw [Nat.add_assoc, List.take_add, take_length_takeWhile, point, Nat.add_comm 1,
        List.take_succ_cons, List.append_assoc, List.cons_append]
    have follows' : GoesOn r (r.takeWhile isDigit).length rest := by
      intro b hb
      have := follows b hb
      rwa [Nat.add_assoc, ← List.drop_drop, point, Nat.add_comm 1, List.drop_succ_cons] at this
    have first : (cs.takeWhile isDigit ++
        '.' :: (r.take (r.takeWhile isDigit).length ++ rest)).takeWhile isDigit =
          cs.takeWhile isDigit :=
      takeWhile_append_of_head? (fun c => List.mem_takeWhile_imp) (by rintro b ⟨⟩; rfl)
    rw [taken, munch_point digit (by rw [first, List.drop_left]), first, follows'.takeWhile_eq rfl]
  · rw [munch_whole digit fun r hr => point ⟨r, hr⟩] at h
    cases h
    have run := follows.takeWhile_eq rfl
    rw [munch_whole digit, run]
    intro r dot
    rw [run, take_length_takeWhile, List.drop_left] at dot
    rcases follows '.' (by rw [dot]; rfl) with space | same
    · cases space
    · exact point (List.head?_eq_some_iff.1 same)

/-- A token is cut in the same way from a text that goes on differently, if there is a blank behind
it or the character that was there before. -/
theorem munch_take_append (h : munch c cs = (.token kind, n)) (follows : GoesOn cs n rest) :
    munch c (cs.take n ++ rest) = (.token kind, n) := by
  by_cases backslash : c = '\\'
  · subst backslash
    exact munch_backslash_take_append h follows
  by_cases digit : isDigit c = true
  · exact munch_digit_take_append digit h follows
  revert h
  fun_cases munch c cs
  case case1 | case3 | case4 => rintro ⟨⟩
  case case2 comment newline gap line =>
    rintro ⟨⟩
    -- the second line break is part of the token
    obtain ⟨r, behind⟩ := List.head?_eq_some_iff.1 line
    have whole : cs.take (gap.length + 1) = gap ++ ['\n'] := by
      rw [List.take_add, take_length_takeWhile, behind]
      rfl
    have run : (gap ++ '\n' :: rest).takeWhile isBlank = gap :=
      takeWhile_append_of_head? (fun c => List.mem_takeWhile_imp) (by rintro b ⟨⟩; rfl)
    rw [whole, List.append_assoc, List.singleton_append]
    simp only [munch, if_neg comment, if_pos newline, run, List.drop_left, List.head?_cons, if_true]
  case case8 letter =>
    rintro ⟨⟩
    rw [munch_letter letter, follows.takeWhile_eq rfl]
  case case11 comment newline blank _ letter _ =>
    rintro ⟨⟩
    simp only [munch, if_neg comment, if_neg newline, if_neg blank, if_neg backslash, if_neg letter,
      if_neg digit]
  all_goals contradiction

/-! ## Texts without comments -/

/-- Whether a text, wherever it starts, has tokens of the given kinds and texts, the end token
included, and no comments. -/
def Yields (cs : List Char) (glyphs : List Glyph) : Prop :=
  ∀ p, (scan p cs).tokens.map Token.glyph = glyphs ∧ (scan p cs).comments = []

section

variable {gs : List Glyph}

/-- A text without characters yields the end. -/
theorem yields_nil : Yields [] [(.endOfText, "")] := by
  intro p
  rw [scan]
  exact ⟨rfl, rfl⟩

/-- A blank yields nothing. -/
theorem Yields.blank (h : Yields rest gs) (munched : munch c rest = (.blank, 0)) :
    Yields (c :: rest) gs := by
  intro p
  rw [scan]
  simp only [cut, munched]
  exact h _

/-- A token that was cut out of a text can stand in front of another one. -/
theorem Yields.token (h : Yields rest gs) (token : (cut c cs).1 = .token kind)
    (follows : GoesOn cs (munch c cs).2 rest) :
    Yields ((cut c cs).2.1 ++ rest) ((kind, String.ofList (cut c cs).2.1) :: gs) := by
  intro p
  have munched := munch_take_append (Prod.ext token rfl : munch c cs = (.token kind, _)) follows
  have length : (cs.take (munch c cs).2).length = (munch c cs).2 :=
    List.length_take_of_le (munch_length_le c cs)
  have step : scan p ((cut c cs).2.1 ++ rest) =
      ⟨⟨kind, p, String.ofList (cut c cs).2.1⟩ :: (scan (p.past (cut c cs).2.1) rest).tokens,
        (scan (p.past (cut c cs).2.1) rest).comments⟩ := by
    show scan p (c :: (cs.take (munch c cs).2 ++ rest)) = _
    rw [scan]
    simp only [cut, munched, List.take_left' length, List.drop_left' length]
  obtain ⟨tokens, comments⟩ := h (p.past (cut c cs).2.1)
  rw [step]
  exact ⟨congrArg (_ :: ·) tokens, comments⟩

/-- Two texts that yield the same glyphs have the same contents, and what yields glyphs has no
comments. -/
theorem Yields.contents {source text : String}
    (h : Yields text.toList ((tokenize source).tokens.map Token.glyph)) :
    (tokenize text).tokens.map Token.content = (tokenize source).tokens.map Token.content ∧
      (tokenize text).comments = [] := by
  obtain ⟨tokens, comments⟩ := h .start
  exact ⟨content_eq_of_glyph_eq tokens, comments⟩

end

/-! ## Tokens with single spaces between them -/

/-- A space stands behind every text but the last. -/
theorem intercalate_cons {texts : List (List Char)} (nonempty : texts ≠ []) (text : List Char) :
    [' '].intercalate (text :: texts) = text ++ ' ' :: [' '].intercalate texts := by
  obtain ⟨text', texts, rfl⟩ := List.exists_cons_of_ne_nil nonempty
  rw [List.intercalate_cons_cons, List.append_assoc, List.singleton_append]

/-- The texts of the tokens of a text, with a space behind each but the last, have these tokens. -/
theorem yields_joined (p : Position) (cs : List Char) :
    Yields ([' '].intercalate ((scan p cs).tokens.map (·.text.toList)))
      ((scan p cs).tokens.map Token.glyph) := by
  fun_induction scan p cs with
  | case1 p => exact yields_nil
  | case2 p c cs piece later text comment ih => exact ih
  | case3 p c cs piece later blank ih => exact ih
  | case4 p c cs piece later text kind token ih =>
    have behind : later.tokens.map (·.text.toList) ≠ [] :=
      fun none => scan_tokens_ne_nil _ _ (List.map_eq_nil_iff.1 none)
    rw [List.map_cons, List.map_cons, intercalate_cons behind, String.toList_ofList]
    exact (ih.blank rfl).token token (goesOn_space _ _ _)

end Lexer

/-- The texts of tokens with single spaces between them. -/
def Lexed.joined (l : Lexed) : String := " ".intercalate (l.tokens.map Token.text)

namespace Lexer

/-- **Token texts are a canonical form.** The texts of the tokens of a text with single spaces
between them are cut into the same tokens again, and into nothing else. -/
theorem tokenize_joined (source : String) :
    (tokenize (tokenize source).joined).tokens.map Token.content =
        (tokenize source).tokens.map Token.content ∧
      (tokenize (tokenize source).joined).comments = [] := by
  apply Yields.contents
  rw [Lexed.joined, String.toList_intercalate, List.map_map]
  exact yields_joined _ _

end Lexer

/-! ## Comments as blanks -/

/-- The text `cs`, which starts at the offset `start`, with a single space in the place of each of
some comments. -/
def Comment.blanked (start : Nat) (cs : List Char) : List Comment → List Char
  | [] => cs
  | c :: comments =>
    let before := c.position.offset - start
    let stop := c.position.offset + c.text.length
    cs.take before ++ ' ' :: blanked stop (cs.drop (before + c.text.length)) comments

/-- A text with a single space in the place of each of its comments. -/
def uncommented (source : String) : String :=
  String.ofList (Comment.blanked 0 source.toList (tokenize source).comments)

/-- What stands before the first comment is kept. -/
theorem Comment.blanked_append {start : Nat} (text cs : List Char) {comments : List Comment}
    (behind : ∀ c ∈ comments, start + text.length ≤ c.position.offset) :
    blanked start (text ++ cs) comments =
      text ++ blanked (start + text.length) cs comments := by
  cases comments with
  | nil => rfl
  | cons c comments =>
    have later := behind c List.mem_cons_self
    have before : c.position.offset - start =
        text.length + (c.position.offset - (start + text.length)) := by omega
    rw [blanked, blanked, before, Nat.add_assoc, List.take_length_add_append,
      List.drop_length_add_append, List.append_assoc]

namespace Lexer

variable {p : Position} {c : Char} {cs : List Char}

/-- The text that a scan has with its comments made blanks. -/
def spaced (p : Position) (cs : List Char) : List Char :=
  Comment.blanked p.offset cs (scan p cs).comments

/-- A comment of the rest does not stand before it. -/
theorem offset_le_of_mem_comments (p : Position) (cs : List Char) :
    ∀ c ∈ (scan p cs).comments, p.offset ≤ c.position.offset := fun _ hc =>
  (tiled_scan p cs).offset_le _ (List.mem_merge_right _ (List.mem_map_of_mem hc))

theorem spaced_nil : spaced p [] = [] := by
  rw [spaced, scan]
  rfl

/-- A comment is made a blank. -/
theorem spaced_comment (comment : (cut c cs).1 = .comment) :
    spaced p (c :: cs) = ' ' :: spaced (p.past (cut c cs).2.1) (cut c cs).2.2 := by
  have comments : (scan p (c :: cs)).comments = ⟨p, String.ofList (cut c cs).2.1⟩ ::
      (scan (p.past (cut c cs).2.1) (cut c cs).2.2).comments := by
    rw [scan]
    simp only [comment]
  have behind : (c :: cs).drop (cut c cs).2.1.length = (cut c cs).2.2 := by
    conv_lhs => rw [← cut_append c cs]
    exact List.drop_left
  rw [spaced, comments, Comment.blanked]
  simp only [Nat.sub_self, Nat.zero_add, List.take_zero, List.nil_append, String.length_ofList,
    behind]
  rfl

/-- Every other lexeme is kept. -/
theorem spaced_of_ne_comment (other : (cut c cs).1 ≠ .comment) :
    spaced p (c :: cs) = (cut c cs).2.1 ++ spaced (p.past (cut c cs).2.1) (cut c cs).2.2 := by
  have comments : (scan p (c :: cs)).comments =
      (scan (p.past (cut c cs).2.1) (cut c cs).2.2).comments := by
    rw [scan]
    split
    · contradiction
    · rfl
    · rfl
  rw [spaced, comments]
  conv_lhs => rw [← cut_append c cs]
  exact Comment.blanked_append _ _ (offset_le_of_mem_comments _ _)

/-- A blank is cut off alone. -/
theorem cut_blank (blank : (cut c cs).1 = .blank) : cut c cs = (.blank, [c], cs) := by
  rw [cut, (munch_blank blank).1]
  rfl

/-- A token is kept. -/
theorem spaced_token {kind : TokenKind} (token : (cut c cs).1 = .token kind) :
    spaced p (c :: cs) = (cut c cs).2.1 ++ spaced (p.past (cut c cs).2.1) (cut c cs).2.2 :=
  spaced_of_ne_comment (by rw [token]; nofun)

/-- A blank is kept. -/
theorem spaced_blank (blank : (cut c cs).1 = .blank) :
    spaced p (c :: cs) = c :: spaced (p.past [c]) cs := by
  rw [spaced_of_ne_comment (by rw [blank]; nofun), cut_blank blank]
  rfl

/-- A text that is made of blanks goes on as the one it was made of, or with a blank. -/
theorem head?_spaced (p : Position) (cs : List Char) :
    ∀ b ∈ (spaced p cs).head?, b = ' ' ∨ cs.head? = some b := by
  cases cs with
  | nil =>
    rw [spaced_nil]
    nofun
  | cons c cs =>
    by_cases comment : (cut c cs).1 = .comment
    · rw [spaced_comment comment]
      rintro b ⟨⟩
      exact .inl rfl
    · rw [spaced_of_ne_comment comment]
      rintro b ⟨⟩
      exact .inr rfl

/-! ### Blank lines -/

/-- Whether only blanks stand between the start of a text and its first line break. -/
def StartsBlank (cs : List Char) : Prop :=
  (cs.drop (cs.takeWhile isBlank).length).head? = some '\n'

/-- Behind a blank the line is blank if its rest is. -/
theorem startsBlank_cons_of_blank (blank : isBlank c = true) :
    StartsBlank (c :: cs) ↔ StartsBlank cs := by
  rw [StartsBlank, List.takeWhile_cons_of_pos blank]
  rfl

/-- A line is not blank with anything but blanks before its end. -/
theorem startsBlank_cons_of_not_blank (h : ¬ isBlank c = true) :
    StartsBlank (c :: cs) ↔ c = '\n' := by
  rw [StartsBlank, List.takeWhile_cons_of_neg h]
  exact Option.some_inj

/-- A line break before a line with something on it is a blank. -/
theorem munch_newline_eq_blank (h : ¬ StartsBlank cs) : munch '\n' cs = (.blank, 0) := by
  have comment : '\n' ≠ '%' := by decide
  rw [StartsBlank] at h
  simp only [munch, if_neg comment, if_true, if_neg h]

/-- A line break that is a blank stands before a line with something on it. -/
theorem not_startsBlank_of_munch (h : munch '\n' cs = (.blank, 0)) : ¬ StartsBlank cs := by
  intro line
  have comment : '\n' ≠ '%' := by decide
  rw [StartsBlank] at line
  simp only [munch, if_neg comment, if_true, if_pos line] at h
  cases h

/-- A comment starts with a percent sign. -/
theorem eq_percent_of_munch (h : (munch c cs).1 = .comment) : c = '%' := by
  revert h
  fun_cases munch c cs
  case case1 percent line gap => exact fun _ => percent
  all_goals rintro ⟨⟩

/-- No white space follows a comment, which has swallowed it. -/
theorem not_startsBlank_behind_comment (comment : (cut c cs).1 = .comment) :
    ¬ StartsBlank (cut c cs).2.2 := by
  obtain rfl := eq_percent_of_munch comment
  let line := cs.takeWhile (· ≠ '\n')
  let behind := cs.drop line.length
  have rest : (cut '%' cs).2.2 = behind.drop (behind.takeWhile isGap).length :=
    List.drop_drop.symm
  rw [rest, StartsBlank]
  cases left : behind.drop (behind.takeWhile isGap).length with
  | nil => nofun
  | cons b bs =>
    have visible : isGap b = false := not_of_head?_drop_takeWhile (by rw [left]; rfl)
    have unblank : ¬ isBlank b = true := by
      intro blank
      rw [isBlank, decide_eq_true_iff] at blank
      rcases blank with rfl | rfl <;> cases visible
    rw [List.takeWhile_cons_of_neg unblank]
    rintro ⟨⟩
    cases visible

/-- What starts with a blank starts with a lexeme that is dropped. -/
theorem munch_of_blank (blank : isBlank c = true) (cs : List Char) : munch c cs = (.blank, 0) := by
  rw [isBlank, decide_eq_true_iff] at blank
  rcases blank with rfl | rfl <;> rfl

/-- Where blanks take the place of comments no blank line comes up. -/
theorem startsBlank_of_spaced (h : StartsBlank (spaced p cs)) : StartsBlank cs := by
  fun_induction scan p cs with
  | case1 p => rwa [spaced_nil] at h
  | case2 p c cs piece later text comment ih =>
    rw [spaced_comment comment, startsBlank_cons_of_blank rfl] at h
    exact absurd (ih h) (not_startsBlank_behind_comment comment)
  | case3 p c cs piece later blank ih =>
    rw [spaced_blank blank] at h
    rw [show piece = _ from cut_blank blank] at ih
    by_cases within : isBlank c = true
    · exact (startsBlank_cons_of_blank within).2 (ih ((startsBlank_cons_of_blank within).1 h))
    · exact (startsBlank_cons_of_not_blank within).2 ((startsBlank_cons_of_not_blank within).1 h)
  | case4 p c cs piece later text kind token ih =>
    have visible : ¬ isBlank c = true := by
      intro blank
      rw [show piece.1 = (munch c cs).1 from rfl, munch_of_blank blank] at token
      cases token
    rw [spaced_token token] at h
    exact (startsBlank_cons_of_not_blank visible).2 ((startsBlank_cons_of_not_blank visible).1 h)

/-! ### The tokens -/

/-- With blanks in the place of its comments a text has the same tokens. -/
theorem yields_spaced (p : Position) (cs : List Char) :
    Yields (spaced p cs) ((scan p cs).tokens.map Token.glyph) := by
  fun_induction scan p cs with
  | case1 p =>
    rw [spaced_nil]
    exact yields_nil
  | case2 p c cs piece later text comment ih =>
    rw [spaced_comment comment]
    exact ih.blank rfl
  | case3 p c cs piece later blank ih =>
    have whole : piece = (.blank, [c], cs) := cut_blank blank
    have later_eq : later = scan (p.past [c]) cs := by
      show scan (p.past piece.2.1) piece.2.2 = _
      rw [whole]
    rw [whole] at ih
    rw [spaced_blank blank, later_eq]
    refine ih.blank ?_
    obtain ⟨munched, gap⟩ := munch_blank blank
    rw [isGap, decide_eq_true_iff] at gap
    rcases gap with rfl | rfl | rfl
    · rfl
    · rfl
    · exact munch_newline_eq_blank (mt startsBlank_of_spaced (not_startsBlank_of_munch munched))
  | case4 p c cs piece later text kind token ih =>
    rw [spaced_token token]
    exact ih.token token (head?_spaced _ _)

/-- **A comment counts as one blank.** With a single space in the place of each of its comments a
text has the same tokens and no comments. -/
theorem tokenize_uncommented (source : String) :
    (tokenize (uncommented source)).tokens.map Token.content =
        (tokenize source).tokens.map Token.content ∧
      (tokenize (uncommented source)).comments = [] := by
  apply Yields.contents
  rw [uncommented, String.toList_ofList]
  exact yields_spaced .start source.toList

end Lexer

end TexAlgebra
