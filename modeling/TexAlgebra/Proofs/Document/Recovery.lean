import TexAlgebra.Proofs.Document.Parts
import TexAlgebra.Proofs.Grammar.Line
/-!
# Going on behind a line

What stands behind a line without groups and control words is read as if the line were not there,
whether or not the line can be read. There is one exception: where a closing parenthesis or a comma
between arguments is missing at the end of the line, the end of the line is read in its place, and
what follows up to the next boundary is skipped with it (`Document.statements_line`).
-/

namespace TexAlgebra

namespace Document

open TexAlgebra.Parser

/-- Whether the end of a statement was read for something that is missing there. -/
def takesEnd (results : List Statement) : Bool :=
  results.any fun
    | .ok _ => false
    | .error fault => fault.takesEnd

/-- The document from its next boundary on. -/
def fromBoundary (d : Document) : Document :=
  { d with cursor := { d.cursor with rest := d.cursor.rest.dropWhile (!isBoundary ·) } }

section

variable {e t : Token} (ends : e.kind = .endOfStatement)

/-! ## Within a line -/

/-- A token within a line is no boundary. -/
theorem isBoundary_eq_false (inside : t.isInline = true) : isBoundary t = false := by
  refine decide_eq_false ?_
  rintro (word | ended)
  · exact Token.kind_ne_of_isInline inside rfl word
  · exact Token.kind_ne_of_isInline inside rfl ended

include ends in
/-- If anything is left to read of a line, then no end of a statement is skipped. -/
theorem exists_cons_of_inLine {k : Cursor} (line : k.InLine e)
    (present : (atStatement k).rest ≠ []) : ∃ t tokens, k.rest = t :: (tokens ++ [e]) ∧
      atStatement k = k := by
  obtain ⟨tokens, inside, split⟩ := line
  cases tokens with
  | nil =>
    refine absurd ?_ present
    simp only [atStatement, split, List.nil_append, List.dropWhile_cons, ends, decide_true]
    rfl
  | cons t tokens =>
    have other : t.kind ≠ .endOfStatement :=
      Token.kind_ne_of_isInline (inside t List.mem_cons_self) rfl
    refine ⟨t, tokens, split, ?_⟩
    rw [atStatement, split, List.cons_append, List.dropWhile_cons, if_neg (by simpa using other),
      ← List.cons_append, ← split]

include ends in
/-- After a fault within a line all of the line is skipped but its end. -/
theorem rest_resumed_of_inLine {start after : Cursor} {t : Token} {tokens : List Token}
    (split : start.rest = t :: (tokens ++ [e])) (line : after.InLine e) :
    (resumed start after).rest = [e] := by
  obtain ⟨left, inside, split'⟩ := line
  obtain ⟨skipped, inside', skips⟩ : ∃ skipped : List Token,
      (∀ t ∈ skipped, t.isInline = true) ∧
      (if after.rest.length = start.rest.length then after.rest.drop 1 else after.rest) =
        skipped ++ [e] := by
    split
    · next same =>
      -- more was left of the line than its end
      cases left with
      | nil =>
        rw [split, split', List.length_cons, List.length_append] at same
        simp at same
      | cons u left => exact ⟨left, (List.forall_mem_cons.1 inside).2, by rw [split']; rfl⟩
    · exact ⟨left, inside, split'⟩
  simp only [resumed, skips]
  rw [List.dropWhile_append_of_pos fun t ht => by rw [isBoundary_eq_false (inside' t ht)]; rfl]
  simp [isBoundary, ends]

/-- If a fault leaves nothing, then nothing is left to go on with. -/
theorem rest_resumed_of_eq_nil {start after : Cursor} (none : after.rest = []) :
    (resumed start after).rest = [] := by
  simp [resumed, none]

/-- An end is taken by the first fault or by a later one. -/
theorem takesEnd_cons_error (fault : ParseFault) (results : List Statement) :
    takesEnd (.error fault :: results) = (fault.takesEnd || takesEnd results) := rfl

/-! ## Behind a line -/

variable {E : Excerpt}

include ends in
/-- The statements of a line, and then those of what follows it, or of what follows the next
boundary if a fault took the end of the line. -/
theorem statementsFrom_of_inLine (k : Cursor) (line : k.InLine e) :
    statementsFrom E.whole (E.inWhole k) = statementsFrom E.context k ++ statementsFrom E.whole
      ⟨if takesEnd (statementsFrom E.context k) then E.more.dropWhile (!isBoundary ·) else E.more,
        E.names ++ k.functions⟩ := by
  induction k using statementsFrom_induction E.context with
  | ended k ended =>
    rw [statementsFrom_of_ended ended, List.nil_append]
    exact statementsFrom_congr (atStatement_inWhole_of_ended E ended)
  | done k a after present reading ih =>
    obtain ⟨t, tokens, split, start⟩ := exists_cons_of_inLine ends line present
    obtain ⟨same, leaves⟩ := staysIn_expression ends (atStatement k) (start.symm ▸ line)
    rw [reading] at leaves
    obtain ⟨line', functions⟩ := leaves
    rw [statementsFrom_inWhole_of_done same present reading, ih line',
      statementsFrom_of_done present reading, functions, start]
    rfl
  | failed k fault after present reading ih =>
    obtain ⟨t, tokens, split, start⟩ := exists_cons_of_inLine ends line present
    obtain ⟨same, leaves⟩ := staysIn_expression ends (atStatement k) (start.symm ▸ line)
    rw [reading] at leaves
    obtain ⟨left, functions⟩ := leaves
    have functions' : (resumed (atStatement k) after).functions = k.functions :=
      functions.trans (congrArg Cursor.functions start)
    rw [statementsFrom_inWhole_of_failed same present reading,
      statementsFrom_of_failed present reading, resumed_inWhole E present]
    cases takes : fault.takesEnd with
    | false =>
      rw [takes] at left
      have rest : (resumed (atStatement k) after).rest = [e] :=
        rest_resumed_of_inLine ends (start.symm ▸ split) left
      rw [if_neg (by rw [rest]; nofun), ih ⟨[], nofun, rest⟩, functions', takesEnd_cons_error,
        takes]
      rfl
    | true =>
      rw [takes] at left
      have rest : (resumed (atStatement k) after).rest = [] :=
        rest_resumed_of_eq_nil left
      have ended : (atStatement (resumed (atStatement k) after)).rest = [] := by
        rw [atStatement, rest]
        rfl
      rw [if_pos rest, statementsFrom_of_ended ended, takesEnd_cons_error, takes, functions, start]
      rfl

end

/-- What stands behind a line is read as if the line were not there, whether or not the line can be
read. If a fault took the end of the line, then reading goes on at the next boundary. -/
theorem statements_line (known : Expr → Bool) {line : List Token} {e : Token} (rest : List Token)
    (ends : e.kind = .endOfStatement) (inside : ∀ t ∈ line, t.isInline = true) :
    let results := (ofTokens (line ++ [e])).statements known
    (ofTokens (line ++ e :: rest)).statements known = results ++
      (if takesEnd results then (ofTokens rest).fromBoundary else ofTokens rest).statements
        known := by
  have inner : ∀ t ∈ line ++ [e], t.kind ≠ .endOfText :=
    List.forall_mem_append.2 ⟨fun t ht => Token.kind_ne_of_isInline (inside t ht) rfl,
      List.forall_mem_singleton.2 (ends.trans_ne nofun)⟩
  let E : Excerpt :=
    { context := ⟨(ofTokens (line ++ [e])).ending, known⟩
      whole := ⟨(ofTokens (line ++ [e] ++ rest)).ending, known⟩
      names := []
      more := (ofTokens rest).cursor.rest
      known := fun x => (Bool.or_false _).symm }
  have alone := cursor_ofTokens inner
  have whole : (ofTokens (line ++ [e] ++ rest)).cursor =
      E.inWhole (ofTokens (line ++ [e])).cursor := by
    rw [cursor_ofTokens_append inner, alone]
    rfl
  have parts := statementsFrom_of_inLine (E := E) ends (ofTokens (line ++ [e])).cursor
    ⟨line, inside, congrArg Cursor.rest alone⟩
  rw [← whole] at parts
  intro results
  rw [List.append_cons line e rest]
  refine parts.trans (congrArg (results ++ ·) ?_)
  show statementsFrom E.whole
    ⟨if takesEnd results then E.more.dropWhile (!isBoundary ·) else E.more, []⟩ = _
  split
  · exact statementsFrom_ofTokens_append inner known (List.dropWhile_suffix _)
  · exact statementsFrom_ofTokens_append inner known List.suffix_rfl

/-- Behind a sum without its second operand and the end of the statement the rest is read as it
is. -/
theorem statements_line_sum :
    let line := (ofText "x +").cursor.rest
    let e : Token := ⟨.endOfStatement, ⟨1, 3, 3⟩, "\n\n"⟩
    let rest := (tokenize "y").tokens
    let results := (ofTokens (line ++ [e])).statements fun _ => false
    e.kind = .endOfStatement ∧ (∀ t ∈ line, t.isInline = true) ∧ takesEnd results = false ∧
      (ofTokens (line ++ e :: rest)).statements (fun _ => false) = results ++
        (if takesEnd results then (ofTokens rest).fromBoundary else ofTokens rest).statements
          fun _ => false := by
  intro line e rest results
  have inside : ∀ t ∈ line, t.isInline = true := by decide +kernel
  have kept : takesEnd results = false := by decide +kernel
  exact ⟨rfl, inside, kept, statements_line _ rest rfl inside⟩

/-- If a closing parenthesis is missing at its end, then a line hides the statement behind it. -/
theorem statement_hidden_behind_line : ¬ ∀ (line rest : List Token) (e : Token),
    (∀ t ∈ line, t.isInline = true) → e.kind = .endOfStatement →
      ((ofTokens rest).statements fun _ => false).map Except.isOk <:+
        ((ofTokens (line ++ e :: rest)).statements fun _ => false).map Except.isOk := by
  intro kept
  have suffix := kept (ofText "(x").cursor.rest (ofText "y").cursor.rest
    ⟨.endOfStatement, ⟨1, 2, 2⟩, "\n\n"⟩ (by decide +kernel) rfl
  exact absurd suffix (by decide +kernel)

end Document

end TexAlgebra
