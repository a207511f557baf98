import TexAlgebra.Proofs.Token.Pieces
import TexAlgebra.Document
/-!
# Texts with a double backslash between them

A line that holds only a double backslash ends whatever stands before it: of two texts with such a
line between them one reads the tokens of the first, ends of statements, and the tokens of the
second (`Lexer.glyphs_append_line`). A comment at the end of the first text swallows the line break,
and a blank line there may become one more end of a statement. The line break in front of the second
text may do so as well (`Lexer.dropEnds_glyphs_newline`).
-/

namespace TexAlgebra

namespace Lexer

/-! ## Tokens without places -/

/-- The kinds and texts of the tokens of a text, without the one that ends it. -/
def glyphs (cs : List Char) : List Glyph :=
  ((scan .start cs).tokens.takeWhile (·.kind ≠ .endOfText)).map Token.glyph

/-- What a lexeme contributes to the tokens. -/
def lexemeGlyphs (lexeme : Lexeme) (text : List Char) : List Glyph :=
  match lexeme with
  | .token kind => [(kind, String.ofList text)]
  | _ => []

/-- The kinds and texts of tokens do not depend on where the text starts. -/
theorem glyphs_scan (p q : Position) (cs : List Char) :
    ((scan p cs).tokens.takeWhile (·.kind ≠ .endOfText)).map Token.glyph =
      ((scan q cs).tokens.takeWhile (·.kind ≠ .endOfText)).map Token.glyph := by
  induction cs using (measure List.length).wf.induction generalizing p q with
  | _ cs ih =>
    cases cs with
    | nil => rw [scan, scan]; rfl
    | cons c cs =>
      have later := ih _ (length_cut_rest_lt c cs) (p.past (cut c cs).2.1) (q.past (cut c cs).2.1)
      rw [scan, scan]
      cases (cut c cs).1 with
      | comment => exact later
      | blank => exact later
      | token kind =>
        by_cases ended : kind = .endOfText
        · subst ended
          rfl
        · dsimp only
          rw [List.takeWhile_cons_of_pos (by simpa using ended),
            List.takeWhile_cons_of_pos (by simpa using ended), List.map_cons, List.map_cons, later]
          rfl

@[simp] theorem glyphs_nil : glyphs [] = [] := by
  rw [glyphs, scan]
  rfl

/-- The glyphs of a text are those of its first lexeme and those of the rest. -/
theorem glyphs_cons (c : Char) (cs : List Char) :
    glyphs (c :: cs) = lexemeGlyphs (munch c cs).1 (c :: cs.take (munch c cs).2) ++
      glyphs (cs.drop (munch c cs).2) := by
  have kind := munch_ne_endOfText c cs
  have later := glyphs_scan (Position.start.past (cut c cs).2.1) .start (cs.drop (munch c cs).2)
  rw [glyphs, scan]
  simp only [cut]
  cases lexeme : (munch c cs).1 with
  | comment => exact later
  | blank => exact later
  | token kind' =>
    rw [lexeme, ne_eq, Lexeme.token.injEq] at kind
    simp only
    rw [List.takeWhile_cons_of_pos (by simpa using kind), List.map_cons]
    exact congrArg (_ :: ·) later

/-! ## Line breaks -/

variable {p : Char → Bool} {cs : List Char}

/-- A run of characters other than line breaks ends at a line break. -/
theorem takeWhile_append_newline (stop : p '\n' = false) (cs rest : List Char) :
    (cs ++ '\n' :: rest).takeWhile p = cs.takeWhile p := by
  rw [List.takeWhile_append]
  split
  · next all =>
    rw [List.takeWhile_cons_of_neg (by simp [stop]), List.append_nil]
    exact ((List.takeWhile_sublist p).eq_of_length all).symm
  · rfl

/-- A lexeme does not reach behind the text. -/
theorem munch_length_le (c : Char) (cs : List Char) : (munch c cs).2 ≤ cs.length := by
  have run (p : Char → Bool) (cs : List Char) : (cs.takeWhile p).length ≤ cs.length :=
    (List.takeWhile_sublist p).length_le
  have behind {n : Nat} {b : Char} (h : (cs.drop n).head? = some b) : n + 1 ≤ cs.length := by
    have positive := List.length_pos_of_mem (List.mem_of_head? h)
    rw [List.length_drop] at positive
    omega
  unfold munch
  dsimp only
  split_ifs with comment line blank_line blank control double
  · have gap := run isGap (cs.drop (cs.takeWhile (· ≠ '\n')).length)
    have line := run (· ≠ '\n') cs
    rw [List.length_drop] at gap
    omega
  · exact behind blank_line
  · exact Nat.zero_le _
  · exact Nat.zero_le _
  · exact behind (n := 0) double
  · exact Nat.zero_le _
  · exact run _ _
  · exact run _ _
  · split
    · next r point =>
      have fraction := run isDigit r
      have whole := congrArg List.length point
      rw [List.length_drop, List.length_cons] at whole
      dsimp only
      omega
    · exact run _ _
  · exact Nat.zero_le _

/-- A lexeme that is neither a comment nor a line break ends before the next line break. -/
theorem munch_append_newline {c : Char} (comment : c ≠ '%') (line : c ≠ '\n')
    (cs rest : List Char) : munch c (cs ++ '\n' :: rest) = munch c cs := by
  have double : (cs ++ '\n' :: rest).head? = some '\\' ↔ cs.head? = some '\\' := by
    cases cs <;> simp
  have letters := takeWhile_append_newline (p := isLetter) rfl cs rest
  have whole := takeWhile_append_newline (p := isDigit) rfl cs rest
  have behind : (cs ++ '\n' :: rest).drop ((cs ++ '\n' :: rest).takeWhile isDigit).length =
      cs.drop (cs.takeWhile isDigit).length ++ '\n' :: rest := by
    rw [whole]
    exact List.drop_append_of_le_length (List.takeWhile_sublist _).length_le
  by_cases digit : isDigit c = true
  · by_cases point : ∃ r, cs.drop (cs.takeWhile isDigit).length = '.' :: r
    · obtain ⟨r, point⟩ := point
      rw [point, List.cons_append] at behind
      rw [munch_point digit behind, munch_point digit point, whole,
        takeWhile_append_newline (p := isDigit) rfl]
    · have noPoint : ∀ r, (cs ++ '\n' :: rest).drop
          ((cs ++ '\n' :: rest).takeWhile isDigit).length ≠ '.' :: r := by
        intro r h
        rw [behind] at h
        cases left : cs.drop (cs.takeWhile isDigit).length with
        | nil =>
          rw [left] at h
          cases h
        | cons b l =>
          rw [left] at h
          cases h
          exact point ⟨l, left⟩
      rw [munch_whole digit noPoint, munch_whole digit fun r h => point ⟨r, h⟩, whole]
  · simp only [munch, if_neg comment, if_neg line, if_neg digit, letters, double]

/-- A comment either ends before the next line break or swallows it. -/
theorem munch_comment_append (cs rest : List Char) :
    munch '%' (cs ++ '\n' :: '\\' :: rest) = munch '%' cs ∨
      munch '%' cs = (.comment, cs.length) ∧
        munch '%' (cs ++ '\n' :: '\\' :: rest) = (.comment, cs.length + 1) := by
  have line := takeWhile_append_newline (p := (· ≠ '\n')) rfl cs ('\\' :: rest)
  have behind : (cs ++ '\n' :: '\\' :: rest).drop (cs.takeWhile (· ≠ '\n')).length =
      cs.drop (cs.takeWhile (· ≠ '\n')).length ++ '\n' :: '\\' :: rest :=
    List.drop_append_of_le_length (List.takeWhile_sublist _).length_le
  simp only [munch, if_true, line, behind]
  rw [List.takeWhile_append]
  split
  · next all =>
    have gap : ('\n' :: '\\' :: rest).takeWhile isGap = ['\n'] := rfl
    have line_le := (List.takeWhile_sublist (p := (· ≠ '\n')) (l := cs)).length_le
    rw [List.length_drop] at all
    right
    rw [gap, all, List.length_append, List.length_drop, List.length_singleton]
    exact ⟨by congr 1; omega, by congr 1; omega⟩
  · exact .inl rfl

/-- The blanks behind a line break either end before the next one or make up a blank line with it.
-/
theorem munch_newline_append (cs rest : List Char) :
    munch '\n' (cs ++ '\n' :: rest) = munch '\n' cs ∨
      (∀ c ∈ cs, isBlank c = true) ∧
        munch '\n' (cs ++ '\n' :: rest) = (.token .endOfStatement, cs.length + 1) := by
  have comment : '\n' ≠ '%' := by decide
  have gap := takeWhile_append_newline (p := isBlank) rfl cs rest
  have behind : (cs ++ '\n' :: rest).drop (cs.takeWhile isBlank).length =
      cs.drop (cs.takeWhile isBlank).length ++ '\n' :: rest :=
    List.drop_append_of_le_length (List.takeWhile_sublist _).length_le
  simp only [munch, if_neg comment, if_true, gap, behind]
  cases left : cs.drop (cs.takeWhile isBlank).length with
  | nil =>
    right
    have whole : cs.takeWhile isBlank = cs :=
      (List.takeWhile_sublist _).eq_of_length_le (List.drop_eq_nil_iff.1 left)
    refine ⟨List.takeWhile_eq_self_iff.1 whole, ?_⟩
    rw [whole]
    rfl
  | cons b r => exact .inl rfl

/-! ## A double backslash on a line of its own -/

/-- Whether a token is the end of a statement. -/
def isEnd (g : Glyph) : Bool := g.1 = .endOfStatement

/-- Blanks are no tokens. -/
theorem glyphs_blanks_append (blank : ∀ c ∈ cs, isBlank c = true) (rest : List Char) :
    glyphs (cs ++ rest) = glyphs rest := by
  induction cs with
  | nil => rfl
  | cons c cs ih =>
    have first := blank c List.mem_cons_self
    have munched : munch c (cs ++ rest) = (.blank, 0) := by
      rw [isBlank, decide_eq_true_iff] at first
      rcases first with rfl | rfl <;> rfl
    rw [List.cons_append, glyphs_cons, munched]
    exact ih fun b hb => blank b (List.mem_cons_of_mem c hb)

/-- A last line of blanks has no glyphs. -/
theorem glyphs_newline_blanks (blank : ∀ c ∈ cs, isBlank c = true) : glyphs ('\n' :: cs) = [] := by
  have comment : '\n' ≠ '%' := by decide
  have munched : munch '\n' cs = (.blank, 0) := by
    simp [munch, comment, List.takeWhile_eq_self_iff.2 blank]
  have blanks := glyphs_blanks_append blank []
  rw [List.append_nil, glyphs_nil] at blanks
  rw [glyphs_cons, munched]
  exact blanks

/-- A double backslash ends a statement. -/
theorem glyphs_double_backslash (rest : List Char) :
    glyphs ('\\' :: '\\' :: rest) = (.endOfStatement, "\\\\") :: glyphs rest := by
  rw [glyphs_cons]
  rfl

/-- A line with a double backslash parts the tokens of what stands before it from those of what
stands behind it. -/
theorem glyphs_append_line (cs rest : List Char) : ∃ ends, ends ≠ [] ∧
    (∀ g ∈ ends, isEnd g = true) ∧
    glyphs (cs ++ '\n' :: '\\' :: '\\' :: rest) = glyphs cs ++ (ends ++ glyphs rest) := by
  -- by induction on the length of the text: behind the first lexeme things are the same again,
  -- unless the lexeme reaches over the line break
  induction cs using (measure List.length).wf.induction with
  | _ cs ih =>
    cases cs with
    | nil =>
      refine ⟨[(.endOfStatement, "\\\\")], by simp, by simp [isEnd], ?_⟩
      rw [List.nil_append, glyphs_cons, glyphs_nil]
      exact glyphs_double_backslash rest
    | cons c cs =>
      have within (same : munch c (cs ++ '\n' :: '\\' :: '\\' :: rest) = munch c cs) :
          ∃ ends, ends ≠ [] ∧ (∀ g ∈ ends, isEnd g = true) ∧
            glyphs (c :: cs ++ '\n' :: '\\' :: '\\' :: rest) =
              glyphs (c :: cs) ++ (ends ++ glyphs rest) := by
        have short := munch_length_le c cs
        obtain ⟨ends, nonempty, all, later⟩ := ih (cs.drop (munch c cs).2) (by
          show (cs.drop _).length < (c :: cs).length
          rw [List.length_drop, List.length_cons]
          omega)
        refine ⟨ends, nonempty, all, ?_⟩
        rw [List.cons_append, glyphs_cons, glyphs_cons c cs, same,
          List.take_append_of_le_length short, List.drop_append_of_le_length short, later,
          List.append_assoc]
      by_cases comment : c = '%'
      · subst comment
        obtain same | ⟨before, after⟩ := munch_comment_append cs ('\\' :: rest)
        · exact within same
        · refine ⟨[(.endOfStatement, "\\\\")], by simp, by simp [isEnd], ?_⟩
          rw [List.cons_append, glyphs_cons, glyphs_cons '%' cs, before, after]
          simp [lexemeGlyphs, glyphs_double_backslash]
      by_cases line : c = '\n'
      · subst line
        obtain same | ⟨blank, after⟩ := munch_newline_append cs ('\\' :: '\\' :: rest)
        · exact within same
        · -- the line break ends a blank line, which is one more end of a statement
          let text := '\n' :: (cs ++ '\n' :: '\\' :: '\\' :: rest).take (cs.length + 1)
          refine ⟨[(.endOfStatement, String.ofList text), (.endOfStatement, "\\\\")], by simp,
            by simp [isEnd], ?_⟩
          rw [List.cons_append, glyphs_cons, glyphs_newline_blanks blank, after]
          simp [lexemeGlyphs, glyphs_double_backslash, text]
      · exact within (munch_append_newline comment line cs _)

/-- A line break in front of a text makes at most a difference to the ends of statements that it
starts with. -/
theorem dropEnds_glyphs_newline (cs : List Char) :
    (glyphs ('\n' :: cs)).dropWhile isEnd = (glyphs cs).dropWhile isEnd := by
  -- by induction on the length of the text: a blank line ends at another line break
  induction cs using (measure List.length).wf.induction with
  | _ cs ih =>
    have comment : '\n' ≠ '%' := by decide
    by_cases line : (cs.drop (cs.takeWhile isBlank).length).head? = some '\n'
    · obtain ⟨rest, behind⟩ := List.head?_eq_some_iff.1 line
      have munched :
          munch '\n' cs = (.token .endOfStatement, (cs.takeWhile isBlank).length + 1) := by
        simp only [munch, if_neg comment, if_pos line, if_true]
      have blank : ∀ c ∈ cs.takeWhile isBlank, isBlank c = true := fun c => List.mem_takeWhile_imp
      have whole : cs = cs.takeWhile isBlank ++ '\n' :: rest := by
        rw [← behind, List.prefix_iff_eq_append.1 (List.takeWhile_prefix _)]
      have rest_eq : cs.drop ((cs.takeWhile isBlank).length + 1) = rest := by
        rw [← List.drop_drop, behind]
        rfl
      have shorter := congrArg List.length whole
      rw [List.length_append, List.length_cons] at shorter
      calc (glyphs ('\n' :: cs)).dropWhile isEnd
        _ = (glyphs rest).dropWhile isEnd := by
          rw [glyphs_cons, munched, rest_eq]
          rfl
        _ = (glyphs ('\n' :: rest)).dropWhile isEnd :=
          (ih rest (show rest.length < cs.length by omega)).symm
        _ = (glyphs cs).dropWhile isEnd := by
          rw [whole, glyphs_blanks_append blank]
    · have munched : munch '\n' cs = (.blank, 0) := by
        simp only [munch, if_neg comment, if_neg line, if_true]
      rw [glyphs_cons, munched]
      rfl

end Lexer

end TexAlgebra
