import TexAlgebra.Proofs.Token.Tiling
import TexAlgebra.Report
/-!
# The line of a token

A place in a text is given by its line and its column. The line that a reporter keeps under this
number is the one in which the place lies: it consists of what stands before the place on its line,
as many characters as the column says, and of what follows up to the next line break
(`getElem?_linesOf`).
-/

namespace TexAlgebra

/-- The characters after the last line break. -/
def lastLine (cs : List Char) : List Char := (cs.reverse.takeWhile (· ≠ '\n')).reverse

variable {c : Char} {cs : List Char}

/-- The last line is as long as it is counted. -/
theorem length_lastLine (cs : List Char) : (lastLine cs).length = lastLineLength cs :=
  List.length_reverse

/-- A text without line breaks is its last line. -/
theorem lastLine_of_not_mem (unbroken : '\n' ∉ cs) : lastLine cs = cs := by
  have all : cs.reverse.takeWhile (· ≠ '\n') = cs.reverse :=
    List.takeWhile_eq_self_iff.2 fun c hc =>
      decide_eq_true fun same => unbroken (same ▸ List.mem_reverse.1 hc)
  rw [lastLine, all, List.reverse_reverse]

/-- What comes before a line break does not count. -/
theorem lastLine_append_break (before cs : List Char) :
    lastLine (before ++ '\n' :: cs) = lastLine cs := by
  rw [lastLine, lastLine, List.reverse_append, List.reverse_cons, List.append_assoc,
    List.singleton_append, List.takeWhile_append]
  split
  · next all =>
    rw [List.takeWhile_cons_of_neg (by simp), List.append_nil,
      (List.takeWhile_prefix _).eq_of_length all]
  · rfl

/-- Where a text is broken, its lines are those of its two parts. -/
theorem splitOn_append_break (a b : List Char) :
    (a ++ '\n' :: b).splitOn '\n' = a.splitOn '\n' ++ b.splitOn '\n' :=
  List.splitOnP_append_cons a b (beq_self_eq_true '\n')

/-- A text without line breaks is one line. -/
theorem splitOn_of_not_mem (unbroken : '\n' ∉ cs) : cs.splitOn '\n' = [cs] :=
  List.splitOnP_eq_singleton fun _ hc => beq_eq_false_iff_ne.2 fun same => unbroken (same ▸ hc)

/-- The first line ends at the first line break. -/
theorem getElem?_zero_splitOn (cs : List Char) :
    (cs.splitOn '\n')[0]? = some (cs.takeWhile (· ≠ '\n')) := by
  by_cases broken : '\n' ∈ cs
  · obtain ⟨a, b, rfl, unbroken⟩ := List.eq_append_cons_of_mem broken
    have all : ∀ c ∈ a, decide (c ≠ '\n') = true := fun c hc =>
      decide_eq_true fun same => unbroken (same ▸ hc)
    rw [splitOn_append_break, splitOn_of_not_mem unbroken, List.takeWhile_append_of_pos all,
      List.takeWhile_cons_of_neg (by simp), List.append_nil]
    rfl
  · have all : cs.takeWhile (· ≠ '\n') = cs := List.takeWhile_eq_self_iff.2 fun c hc =>
      decide_eq_true fun same => broken (same ▸ hc)
    rw [splitOn_of_not_mem broken, all]
    rfl

/-- The line at a place: what was there before on this line, and what follows. -/
theorem getElem?_splitOn (before rest : List Char) :
    ((before ++ rest).splitOn '\n')[before.count '\n']? =
      some (lastLine before ++ rest.takeWhile (· ≠ '\n')) := by
  induction breaks : before.count '\n' generalizing before with
  | zero =>
    have unbroken := List.count_eq_zero.1 breaks
    have all : ∀ c ∈ before, decide (c ≠ '\n') = true := fun c hc =>
      decide_eq_true fun same => unbroken (same ▸ hc)
    rw [getElem?_zero_splitOn, List.takeWhile_append_of_pos all, lastLine_of_not_mem unbroken]
  | succ n ih =>
    have broken : '\n' ∈ before := List.count_pos_iff.1 (by omega)
    obtain ⟨a, b, rfl, unbroken⟩ := List.eq_append_cons_of_mem broken
    rw [List.count_append, List.count_eq_zero.2 unbroken, List.count_cons_self] at breaks
    rw [List.append_assoc, List.cons_append, splitOn_append_break, splitOn_of_not_mem unbroken,
      lastLine_append_break, ← ih b (by omega)]
    rfl

/-- The line under the number of a place. -/
theorem getElem?_linesOf {source : String} {before rest : List Char}
    (split : source.toList = before ++ rest) :
    (linesOf source)[(Position.behind before).line - 1]? =
      some (String.ofList (lastLine before ++ rest.takeWhile (· ≠ '\n'))) := by
  have number : (Position.behind before).line - 1 = before.count '\n' := Nat.add_sub_cancel_left 1 _
  rw [linesOf, split, number, List.getElem?_map, getElem?_splitOn]
  rfl

/-- A token stands at its place, and only the one at the end of the text is empty. -/
theorem exists_place {source : String} {t : Token} (h : t ∈ (tokenize source).tokens) :
    ∃ before rest, source.toList = before ++ (t.text.toList ++ rest) ∧
      t.position = .behind before ∧ (t.text = "" → rest = []) := by
  have tiled : Lexer.Tiled (.behind []) source.toList (tokenize source).spans :=
    Lexer.tiled_scan _ _
  have last := (Lexer.tokenize_tiles source).closed.1
  rw [← List.dropLast_append_getLast? _ last] at h
  rcases List.mem_append.1 h with inner | ending
  · have mem : t.span ∈ (tokenize source).spans :=
      List.mem_merge_left _ (List.mem_map_of_mem inner)
    obtain ⟨before, rest, split, place⟩ := tiled.exists_append _ mem
    exact ⟨before, rest, split, place, fun empty => absurd empty (tiled.nonempty _ mem)⟩
  · obtain rfl := List.mem_singleton.1 ending
    exact ⟨source.toList, [], (List.append_nil _).symm, rfl, fun _ => rfl⟩

end TexAlgebra
