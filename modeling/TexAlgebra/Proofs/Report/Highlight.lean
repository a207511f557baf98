import TexAlgebra.Proofs.Token.Lines
/-!
# Highlighted tokens

A report shows the line of its token with some columns highlighted and underlined. Where the token
is one of the text that is being read, these are the columns of the token itself, up to the end of
its first line (`Reporter.highlights_of_mem`). The product that is implied in front of a token has
its place but not its text, so there a character of the token is highlighted instead
(`Reporter.highlights_impliedProduct_iff`).
-/

namespace TexAlgebra

/-- What a text says up to its first line break. -/
def firstLine (text : String) : String := String.ofList (text.toList.takeWhile (· ≠ '\n'))

/-- A line that is shown with the characters between two others highlighted and underlined, at least
one column of them. -/
def highlighting (palette : Palette) (before within after : String) : String :=
  "  " ++ before ++ palette.alarm within ++ after ++ "\n  "
    ++ String.ofList (List.replicate before.length ' ')
    ++ palette.alarm (String.ofList ('^' :: List.replicate (within.length - 1) '~'))

/-- A column that is not negative is counted from the start. -/
theorem charactersBefore_natCast (length column : Nat) :
    charactersBefore length column = column := by
  rw [charactersBefore, if_neg (Int.not_lt.2 (Int.natCast_nonneg column)), Int.toNat_natCast]

/-- A text is cut before and behind what is highlighted. -/
theorem spans_append {before within after : List Char} (whole : within = [] → after = []) :
    spans (before ++ within ++ after) before.length
        (max (before.length + within.length) (before.length + 1) : Nat) =
      (before, within, after) := by
  rw [spans, charactersBefore_natCast, charactersBefore_natCast]
  by_cases none : within = []
  · rw [none, whole none]
    simp
  · have stop : max (before.length + within.length) (before.length + 1) =
        (before ++ within).length := by
      have := List.length_pos_iff.2 none
      rw [List.length_append]
      omega
    rw [stop, List.take_left, List.drop_left, List.drop_left, List.append_assoc, List.take_left]

/-- Columns of a line are highlighted as they are, unless there are none and the line goes on behind
them. -/
theorem diagnose_eq (palette : Palette) {before within after : List Char}
    (whole : within = [] → after = []) :
    diagnose palette (String.ofList (before ++ within ++ after)) before.length
        (before.length + within.length) =
      highlighting palette (String.ofList before) (String.ofList within) (String.ofList after) := by
  have last : max ((before.length : Int) + within.length) (before.length + 1) =
      (max (before.length + within.length) (before.length + 1) : Nat) := by omega
  have width : (((max (before.length + within.length) (before.length + 1) : Nat) : Int) -
      before.length - 1).toNat = within.length - 1 := by omega
  simp only [diagnose, last, String.toList_ofList, spans_append whole, width, highlighting,
    String.length_ofList, Int.toNat_natCast]

namespace Reporter

/-- Whether a line is shown for a token, and exactly the first line of the token's text is
highlighted in it, at the column of the token. -/
def Highlights (r : Reporter) (t : Token) : Prop :=
  ∃ before after : String,
    r.lines[t.position.line - 1]? = some (before ++ firstLine t.text ++ after) ∧
      before.length = t.position.column ∧
      r.excerpt? t = some (highlighting r.palette before (firstLine t.text) after)

variable {r : Reporter} {source : String} {t u : Token} {before rest : List Char}

/-- What is shown for a token at a place in the text that is read. -/
theorem excerpt?_of_place (split : source.toList = before ++ rest)
    (place : t.position = .behind before) :
    (r.register source).excerpt? t = some (diagnose r.palette
      (String.ofList (lastLine before ++ rest.takeWhile (· ≠ '\n'))) (lastLine before).length
      ((lastLine before).length + (t.text.toList.takeWhile (· ≠ '\n')).length)) := by
  have first : (Position.behind before).line ≠ 0 := by
    show 1 + before.count '\n' ≠ 0
    omega
  rw [excerpt?, place, if_neg first, length_lastLine]
  show Option.map _ (linesOf source)[_]? = _
  rw [getElem?_linesOf split]
  rfl

/-- A token that says the same as its line from its column on is highlighted. -/
theorem highlights_of_place {after : List Char} (split : source.toList = before ++ rest)
    (place : t.position = .behind before)
    (same : rest.takeWhile (· ≠ '\n') = t.text.toList.takeWhile (· ≠ '\n') ++ after)
    (whole : t.text.toList.takeWhile (· ≠ '\n') = [] → after = []) :
    (r.register source).Highlights t := by
  refine ⟨String.ofList (lastLine before), String.ofList after, ?_, ?_, ?_⟩
  · rw [place]
    show (linesOf source)[_]? = _
    rw [getElem?_linesOf split, same, firstLine, ← String.ofList_append, ← String.ofList_append,
      List.append_assoc]
  · rw [String.length_ofList, length_lastLine, place]
    rfl
  · rw [excerpt?_of_place split place, same, ← List.append_assoc, diagnose_eq _ whole]
    rfl

/-- A token that is highlighted says the same as its line from its column on. -/
theorem exists_of_highlights (split : source.toList = before ++ rest)
    (place : t.position = .behind before) (shown : (r.register source).Highlights t) :
    ∃ after, rest.takeWhile (· ≠ '\n') = t.text.toList.takeWhile (· ≠ '\n') ++ after := by
  obtain ⟨before', after, line, column, -⟩ := shown
  rw [place] at line column
  change (linesOf source)[_]? = _ at line
  rw [getElem?_linesOf split, Option.some_inj] at line
  have chars := congrArg String.toList line
  rw [String.toList_ofList, String.toList_append, String.toList_append, firstLine,
    String.toList_ofList, List.append_assoc] at chars
  refine ⟨after.toList, (List.append_inj chars ?_).2⟩
  rw [length_lastLine, String.length_toList, column]
  rfl

/-- A token of the text that is read is highlighted. -/
theorem highlights_of_mem (r : Reporter) (h : t ∈ (tokenize source).tokens) :
    (r.register source).Highlights t := by
  obtain ⟨before, rest, split, place, ends⟩ := exists_place h
  by_cases broken : (t.text.toList.takeWhile (· ≠ '\n')).length = t.text.toList.length
  · have all := (List.takeWhile_prefix (· ≠ '\n')).eq_of_length broken
    refine @highlights_of_place r source t _ _ (rest.takeWhile (· ≠ '\n')) split place ?_
      fun empty => ?_
    · rw [List.takeWhile_append, if_pos broken, all]
    · rw [all] at empty
      rw [ends (String.toList_inj.1 empty)]
      rfl
  · refine @highlights_of_place r source t _ _ [] split place ?_ fun _ => rfl
    rw [List.takeWhile_append, if_neg broken, List.append_nil]

/-- The product that is implied in front of a token is highlighted only if the token begins with the
sign of a product, which then stands in its place. -/
theorem highlights_impliedProduct_iff (r : Reporter) (h : u ∈ (tokenize source).tokens) :
    (r.register source).Highlights u.impliedProduct ↔ u.text.toList.head? = some '*' := by
  obtain ⟨before, rest, split, place, ends⟩ := exists_place h
  have sign : u.impliedProduct.text.toList.takeWhile (· ≠ '\n') = ['*'] := by
    show Operator.juxtaposed.sign.toList.takeWhile _ = _
    decide
  have place : u.impliedProduct.position = .behind before := place
  constructor
  · intro shown
    -- what stands in the place of the sign is the token itself
    obtain ⟨after, line⟩ := exists_of_highlights split place shown
    rw [sign] at line
    cases text : u.text.toList with
    | nil =>
      rw [text, ends (String.toList_inj.1 text)] at line
      cases line
    | cons c cs =>
      rw [text, List.cons_append, List.takeWhile_cons] at line
      split at line
      · exact congrArg some (List.cons.inj line).1
      · cases line
  · intro starts
    cases text : u.text.toList with
    | nil =>
      rw [text] at starts
      cases starts
    | cons c cs =>
      rw [text] at starts
      cases starts
      refine @highlights_of_place r source u.impliedProduct _ _
        ((cs ++ rest).takeWhile (· ≠ '\n')) split place ?_ fun none => ?_
      · rw [sign, text]
        rfl
      · rw [sign] at none
        cases none

end Reporter

end TexAlgebra
