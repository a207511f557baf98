import TexAlgebra.Proofs.Numeral.Failures
import TexAlgebra.Proofs.Token.Pieces
/-!
# The texts of tokens

Every token but the one that ends a text has a text, and the text of a number is written with digits
and a point.
-/

namespace TexAlgebra

/-- Whether a token looks as one that was cut out of a text. -/
structure Token.IsLexed (t : Token) : Prop where
  nonempty : t.kind ≠ .endOfText → t.text ≠ ""
  written : t.kind = .number → Numeral.IsWritten t.text

namespace Lexer

theorem take_length_takeWhile (p : Char → Bool) (cs : List Char) :
    cs.take (cs.takeWhile p).length = cs.takeWhile p :=
  (List.prefix_iff_eq_take.1 (List.takeWhile_prefix p)).symm

/-- Only a digit starts a number. -/
theorem munch_ne_number {c : Char} (h : isDigit c = false) (cs : List Char) :
    (munch c cs).1 ≠ .token .number := by
  have other : single c ≠ .number := single_ne rfl c
  unfold munch
  dsimp only
  split_ifs
  all_goals simp_all

/-- The text of a number is a run of digits, and another one behind a point if there is one. -/
theorem exists_digits_of_munch {c : Char} {cs : List Char} (h : (munch c cs).1 = .token .number) :
    ∃ whole fraction, whole ≠ [] ∧ (∀ x ∈ whole ++ fraction, isDigit x = true) ∧
      (c :: cs.take (munch c cs).2 = whole ++ '.' :: fraction ∨
        fraction = [] ∧ c :: cs.take (munch c cs).2 = whole) := by
  cases digit : isDigit c with
  | false => exact absurd h (munch_ne_number digit cs)
  | true =>
    have digits : ∀ x ∈ c :: cs.takeWhile isDigit, isDigit x = true :=
      List.forall_mem_cons.2 ⟨digit, fun x hx => List.mem_takeWhile_imp hx⟩
    have nonempty : c :: cs.takeWhile isDigit ≠ [] := List.cons_ne_nil _ _
    by_cases point : ∃ r, cs.drop (cs.takeWhile isDigit).length = '.' :: r
    · obtain ⟨r, point⟩ := point
      have taken : cs.take ((cs.takeWhile isDigit).length + 1 + (r.takeWhile isDigit).length) =
          cs.takeWhile isDigit ++ '.' :: r.takeWhile isDigit := by
        rw [Nat.add_assoc, List.take_add, take_length_takeWhile, point, Nat.add_comm 1,
          List.take_succ_cons, take_length_takeWhile]
      rw [munch_point digit point, taken]
      refine ⟨_, _, nonempty, fun x hx => ?_, .inl rfl⟩
      exact (List.mem_append.1 hx).elim (digits x) List.mem_takeWhile_imp
    · rw [munch_whole digit fun r hr => point ⟨r, hr⟩]
      dsimp only
      rw [take_length_takeWhile]
      exact ⟨_, [], nonempty, by rwa [List.append_nil], .inr ⟨rfl, rfl⟩⟩

/-- A number of a text is one that can be written. -/
theorem isWritten_of_munch {c : Char} {cs : List Char} (h : (munch c cs).1 = .token .number) :
    Numeral.IsWritten (String.ofList (c :: cs.take (munch c cs).2)) := by
  obtain ⟨whole, fraction, nonempty, digits, spelled⟩ := exists_digits_of_munch h
  have left := fun x hx => digits x (List.mem_append_left fraction hx)
  obtain point | ⟨rfl, alone⟩ := spelled
  · rw [point]
    exact .point false nonempty left fun x hx => digits x (List.mem_append_right whole hx)
  · rw [alone]
    exact .whole false nonempty left

/-- The text of a control word is a backslash and letters. -/
theorem isControlWord_of_munch {c : Char} {cs : List Char}
    (h : (munch c cs).1 = .token .controlWord) :
    ∃ letters, c :: cs.take (munch c cs).2 = '\\' :: letters ∧ letters ≠ [] ∧
      ∀ x ∈ letters, isLetter x = true := by
  have other : single c ≠ .controlWord := single_ne rfl c
  have run : c = '\\' ∧ (munch c cs).2 = (cs.takeWhile isLetter).length ∧
      cs.takeWhile isLetter ≠ [] := by
    unfold munch at h ⊢
    dsimp only at h ⊢
    split_ifs at h ⊢ <;> simp_all
    split at h <;> cases h
  obtain ⟨rfl, length, nonempty⟩ := run
  rw [length, take_length_takeWhile]
  exact ⟨_, rfl, nonempty, fun x hx => List.mem_takeWhile_imp hx⟩

/-- The text of an identifier is a run of letters. -/
theorem isLetter_of_munch {c : Char} {cs : List Char} (h : (munch c cs).1 = .token .identifier) :
    ∀ x ∈ c :: cs.take (munch c cs).2, isLetter x = true := by
  have other : single c ≠ .identifier := single_ne rfl c
  have run : isLetter c = true ∧ (munch c cs).2 = (cs.takeWhile isLetter).length := by
    unfold munch at h ⊢
    dsimp only at h ⊢
    split_ifs at h ⊢ <;> simp_all
    split at h <;> cases h
  rw [run.2, take_length_takeWhile]
  exact List.forall_mem_cons.2 ⟨run.1, fun x hx => List.mem_takeWhile_imp hx⟩

/-- What holds of every token that can be cut out of a text holds of all tokens of a text. -/
theorem forall_mem_scan {P : Token → Prop} (ending : ∀ p, P (.ending p))
    (cut : ∀ p c cs kind, (munch c cs).1 = .token kind →
      P ⟨kind, p, String.ofList (c :: cs.take (munch c cs).2)⟩) (p : Position) (cs : List Char) :
    ∀ t ∈ (scan p cs).tokens, P t := by
  -- by induction on the length of the text: the scanner goes on behind the lexeme it has cut
  induction cs using (measure List.length).wf.induction generalizing p with
  | _ cs ih =>
    cases cs with
    | nil =>
      rw [scan]
      exact List.forall_mem_singleton.2 (ending p)
    | cons c cs =>
      have later := ih _ (length_cut_rest_lt c cs) (p.past (Lexer.cut c cs).2.1)
      rw [scan]
      split
      · exact later
      · exact later
      · next kind same => exact List.forall_mem_cons.2 ⟨cut p c cs kind same, later⟩

/-- The tokens of a text look as tokens do. -/
theorem isLexed_tokenize {source : String} {t : Token} (h : t ∈ (tokenize source).tokens) :
    t.IsLexed := by
  refine forall_mem_scan (fun p => ⟨fun ended => absurd rfl ended, nofun⟩) ?_ _ _ t h
  intro p c cs kind same
  refine ⟨fun _ empty => ?_, fun number => ?_⟩
  · have := congrArg String.toList empty
    simp at this
  · exact isWritten_of_munch (same.trans (congrArg Lexeme.token number))

/-- The text of an identifier consists of letters. -/
theorem isLetter_of_mem_tokenize {source : String} {t : Token} (h : t ∈ (tokenize source).tokens)
    (identifier : t.kind = .identifier) : ∀ c ∈ t.text.toList, isLetter c = true := by
  refine forall_mem_scan
    (P := fun t => t.kind = .identifier → ∀ c ∈ t.text.toList, isLetter c = true) (fun p => nofun)
    ?_ _ _ t h identifier
  intro p c cs kind same identifier
  rw [String.toList_ofList]
  exact isLetter_of_munch (same.trans (congrArg Lexeme.token identifier))

end Lexer

end TexAlgebra
