import TexAlgebra.Proofs.Numeral.Legible
/-!
# What can go wrong with numbers

The numbers of a session are written with digits, a point and a minus sign alone: so they are read
from a text, and so every result is written out. All of them are computed from the numbers of the
texts (`Numeral.IsComputed`). A sign, an operation, a comparison and the writing itself can fail,
and they fail in two ways only (`Obstacle.IsOfNumber`): when a number is given a sign, and when one
is written out. Undefined operations are no failures, and a comparison fails only for a number that
is too long to be read at all.
-/

namespace TexAlgebra

open Decimal

namespace Decimal

/-- The name of a special number starts with a letter, which no plain character becomes. -/
theorem Special.ofText?_eq_none {text : String} (h : ∀ c ∈ text.toList, c ∈ plainCharacters) :
    Special.ofText? text = none := by
  have spelled : spelling text = text.toList := by
    have := spelling_ofList h
    rwa [String.ofList_toList] at this
  have small : ∀ c ∈ plainCharacters, c.toLower ∈ plainCharacters := by
    intro c hc
    fin_cases hc <;> decide
  have lower : ∀ c ∈ (spelling text).map Char.toLower, c ∈ plainCharacters := by
    rw [spelled]
    intro c hc
    obtain ⟨d, hd, rfl⟩ := List.mem_map.1 hc
    exact small d (h d hd)
  -- none of the names starts with such a character
  have nameless : ∀ (negative : Bool) (word : List Char), (∀ c ∈ word, c ∈ plainCharacters) →
      ofWord? negative word = none := by
    intro negative word plain
    have letters : ∀ c ∈ ['i', 'n', 's'], c ∉ plainCharacters := by
      intro c hc
      fin_cases hc <;> decide
    cases word with
    | nil => rfl
    | cons c word =>
      have first := plain c List.mem_cons_self
      have other : ∀ l ∈ ['i', 'n', 's'], c ≠ l := by
        rintro l hl rfl
        exact letters c hl first
      have ne_i := other 'i' (by decide)
      have ne_n := other 'n' (by decide)
      have ne_s := other 's' (by decide)
      simp [ofWord?, ne_i, ne_n, ne_s]
  rw [ofText?]
  generalize (spelling text).map Char.toLower = word at lower
  split
  · exact nameless _ _ fun c hc => lower c (List.mem_cons_of_mem _ hc)
  · exact nameless _ _ fun c hc => lower c (List.mem_cons_of_mem _ hc)
  · exact nameless _ _ lower

end Decimal

namespace Numeral

/-- Whether a text is written with digits, with a minus sign in front of them or none, and with a
point behind the first of them or none. -/
inductive IsWritten : String → Prop
  | whole (negative : Bool) {cs : List Char} (nonempty : cs ≠ [])
      (digits : ∀ c ∈ cs, isLatinDigit c = true) :
    IsWritten (String.ofList (signedChars negative cs))
  | point (negative : Bool) {cs ds : List Char} (nonempty : cs ≠ [])
      (digits : ∀ c ∈ cs, isLatinDigit c = true) (digits' : ∀ c ∈ ds, isLatinDigit c = true) :
    IsWritten (String.ofList (signedChars negative (cs ++ '.' :: ds)))

/-- The length up to which every written number can be read. -/
def readableLength : Nat := 999999999999999999

section

variable {text : String}

/-- A sign makes a text no shorter. -/
theorem signedChars_length_le (negative : Bool) (cs : List Char) :
    cs.length ≤ (signedChars negative cs).length := by
  cases negative with
  | true => exact Nat.le_succ _
  | false => exact Nat.le_refl _

/-- A sign is a plain character. -/
theorem mem_plainCharacters_of_mem_signedChars {negative : Bool} {cs : List Char} {c : Char}
    (h : ∀ c ∈ cs, c ∈ plainCharacters) (hc : c ∈ signedChars negative cs) :
    c ∈ plainCharacters := by
  rw [signedChars] at hc
  split at hc
  · rcases List.mem_cons.1 hc with rfl | hc
    · decide
    · exact h c hc
  · exact h c hc

/-- A number that can be written in a text has plain characters. -/
theorem IsWritten.mem_plainCharacters (h : IsWritten text) :
    ∀ c ∈ text.toList, c ∈ plainCharacters := by
  intro c hc
  cases h with
  | whole negative _ digits =>
    rw [String.toList_ofList] at hc
    exact mem_plainCharacters_of_mem_signedChars
      (fun c hc => mem_plainCharacters_of_isLatinDigit (digits c hc)) hc
  | point negative _ digits digits' =>
    rw [String.toList_ofList] at hc
    refine mem_plainCharacters_of_mem_signedChars (fun c hc => ?_) hc
    rcases List.mem_append.1 hc with hc | hc
    · exact mem_plainCharacters_of_isLatinDigit (digits c hc)
    rcases List.mem_cons.1 hc with rfl | hc
    · decide
    · exact mem_plainCharacters_of_isLatinDigit (digits' c hc)

/-- The characters of a written number spell a number with no more digits on either side of the
point than there are characters. -/
theorem IsWritten.ofChars? (h : IsWritten text) : ∃ d, Decimal.ofChars? text.toList = some d ∧
    d.exponent ≤ 0 ∧ -(text.length : ℤ) ≤ d.exponent ∧
      digitCount d.coefficient + d.exponent ≤ text.length := by
  have count {cs : List Char} (nonempty : cs ≠ []) (digits : ∀ c ∈ cs, isLatinDigit c = true) :
      digitCount (ofDigits cs) ≤ cs.length :=
    (digitCount_le_iff (List.length_pos_iff.2 nonempty)).2 (ofDigits_lt digits)
  cases h with
  | @whole negative cs nonempty digits =>
    have few := count nonempty digits
    have longer := signedChars_length_le negative cs
    rw [String.toList_ofList, String.length_ofList]
    refine ⟨_, ofChars?_whole negative nonempty digits, ?_, ?_, ?_⟩
    all_goals
      dsimp only
      omega
  | @point negative cs ds nonempty digits digits' =>
    have few := count (List.append_ne_nil_of_left_ne_nil nonempty ds) fun c hc =>
      (List.mem_append.1 hc).elim (digits c) (digits' c)
    have longer := signedChars_length_le negative (cs ++ '.' :: ds)
    rw [List.length_append] at few
    rw [List.length_append, List.length_cons] at longer
    rw [String.toList_ofList, String.length_ofList]
    refine ⟨_, ofChars?_point negative nonempty digits digits', ?_, ?_, ?_⟩
    all_goals
      dsimp only
      omega

/-- A written number that cannot be read is a long one. -/
theorem IsWritten.length_of_unread (h : IsWritten text) (unread : Decimal.ofText? text = none) :
    readableLength < text.length := by
  obtain ⟨d, read, low, fraction, whole⟩ := h.ofChars?
  have spelled := spelling_ofList h.mem_plainCharacters
  rw [String.ofList_toList] at spelled
  rw [Decimal.ofText?, spelled, read] at unread
  have limits := Option.filter_eq_none_iff.1 unread d rfl
  have bound : readableLength = 999999999999999999 := rfl
  rw [isWithinLimits, Bool.and_eq_true, decide_eq_true_iff, decide_eq_true_iff, leading] at limits
  by_contra short
  refine limits ⟨by omega, ?_⟩
  split <;> omega

end

end Numeral

variable {α β : Type}

/-- Whether every obstacle that a computation may meet has the property `P`. -/
def FailsWith (P : Obstacle → Prop) (x : Except Obstacle α) : Prop := ∀ o, x = .error o → P o

theorem failsWith_pure {P : Obstacle → Prop} {a : α} : FailsWith P (pure a) := by
  intro o h
  cases h

/-- A sequence fails as its steps do. -/
theorem FailsWith.bind {P : Obstacle → Prop} {x : Except Obstacle α} {f : α → Except Obstacle β}
    (h : FailsWith P x) (next : ∀ a, x = .ok a → FailsWith P (f a)) : FailsWith P (x >>= f) := by
  cases x with
  | error o =>
    rintro _ ⟨⟩
    exact h o rfl
  | ok a => exact next a rfl

namespace Numeral

/-! ## Computed numbers -/

section

variable {text : String}

/-- A number that is written out plainly can be written in a text. -/
theorem isWritten_plain (d : Decimal) : IsWritten d.plain := by
  have text : d.plain = String.ofList (signedChars d.negative d.plainDigits) := rfl
  obtain ⟨whole, fraction, form, nonempty, digits, -⟩ := d.exists_split
  rw [text, form, splitChars]
  split
  · rw [List.append_nil]
    exact .whole _ nonempty fun c hc => digits c (List.mem_append_left _ hc)
  · exact .point _ nonempty (fun c hc => digits c (List.mem_append_left _ hc)) fun c hc =>
      digits c (List.mem_append_right _ hc)

/-- A number that is written out with places can be written in a text. -/
theorem isWritten_of_written {d : Decimal} {digits : Nat} (h : written d digits = .ok text) :
    IsWritten text := by
  obtain ⟨_, _, -, rfl, -⟩ := exists_of_render (ok_of_written h)
  exact isWritten_plain _

/-- A written number is not the name of a special one. -/
theorem special_of_isWritten (h : IsWritten text) :
    special text = .error (.arithmetic (.reading text) .invalid) := by
  rw [special, Special.ofText?_eq_none h.mem_plainCharacters]

end

/-- The numerals that come about by signs and operations from those with the property `L`, all of
them written. -/
inductive IsComputed (L : String → Prop) : String → Prop
  | given {text : String} (given : L text) (written : IsWritten text) : IsComputed L text
  | signed {op : Operator} {text result : String} (operand : IsComputed L text)
      (computed : Numeral.signed op text = .ok result) : IsComputed L result
  | combined {op : Operator} {lhs rhs result : String} (left : IsComputed L lhs)
      (right : IsComputed L rhs) (computed : Numeral.combined op lhs rhs = .ok (some result)) :
    IsComputed L result

/-- The numbers that computed numerals spell, and those that a sign or an operation makes of them.
-/
inductive IsNumberOf (L : String → Prop) : Decimal → Prop
  | spelled {text : String} {d : Decimal} (numeral : IsComputed L text)
      (read : Decimal.ofText? text = some d) : IsNumberOf L d
  | signed {op : Operator} {sign : Decimal → Except Signal Decimal} {text : String} {d r : Decimal}
      (numeral : IsComputed L text) (read : Decimal.ofText? text = some d)
      (known : sign? op = some sign) (computed : sign d = .ok r) : IsNumberOf L r
  | combined {op : Operator} {compute : Decimal → Decimal → Except Signal Decimal}
      {lhs rhs : String} {r : Decimal} (left : IsComputed L lhs) (right : IsComputed L rhs)
      (known : operation? op = some compute)
      (computed : combinedValue? op compute lhs rhs = some r) : IsNumberOf L r

end Numeral

open Numeral

/-- Whether an obstacle is the failure of a number that is computed from numerals with the property
`L`: what was being done with the number is to give it a sign or to write it, and just this fails. A
numeral that is too long to be read fails as such. -/
inductive Obstacle.IsOfNumber (L : String → Prop) : Obstacle → Prop
  | signing {op : Operator} {sign : Decimal → Except Signal Decimal} {text : String} {d : Decimal}
      {signal : Signal} (numeral : IsComputed L text) (read : Decimal.ofText? text = some d)
      (known : sign? op = some sign) (failed : sign d = .error signal) :
    IsOfNumber L (.arithmetic (.signing op text) signal)
  | writing {d : Decimal} {digits : Nat} {signal : Signal} (number : IsNumberOf L d)
      (failed : d.render digits = .error signal) :
    IsOfNumber L (.arithmetic (.writing d digits) signal)
  | reading {text : String} (numeral : IsComputed L text) (long : readableLength < text.length) :
    IsOfNumber L (.arithmetic (.reading text) .invalid)

namespace Numeral

variable {L : String → Prop} {a b : String} {op : Operator}

/-- A computed number can be written in a text, for it was written out or comes from one. -/
theorem IsComputed.isWritten (h : IsComputed L a) : IsWritten a := by
  induction h with
  | given _ written => exact written
  | @signed op text result _ computed written =>
    rw [Numeral.signed] at computed
    split at computed
    · split at computed
      · obtain ⟨d, -, shown⟩ := ok_of_bind computed
        exact isWritten_of_written shown
      · rw [special_of_isWritten written] at computed
        cases computed
    · cases computed
  | combined _ _ computed =>
    rw [Numeral.combined] at computed
    split at computed
    · split at computed
      · cases computed
      · obtain ⟨text, shown, computed⟩ := ok_of_bind computed
        cases computed
        exact isWritten_of_written shown
    · cases computed

/-! ## What can fail -/

/-- Numbers of a session are written out, or the failure is that of their writing. -/
theorem failsWith_written {d : Decimal} (h : IsNumberOf L d) (digits : Nat) :
    FailsWith (Obstacle.IsOfNumber L) (written d digits) := by
  intro o failed
  rw [written] at failed
  cases rendered : d.render digits with
  | ok text =>
    rw [rendered] at failed
    cases failed
  | error signal =>
    rw [rendered] at failed
    cases failed
    exact .writing h rendered

/-- A computed numeral that cannot be read is too long. -/
theorem failsWith_special (h : IsComputed L a) (unread : Decimal.ofText? a = none) :
    FailsWith (Obstacle.IsOfNumber L) (special a) := by
  rw [special_of_isWritten h.isWritten]
  rintro _ ⟨⟩
  exact .reading h (h.isWritten.length_of_unread unread)

/-- A computed number fails to be rendered only as numbers do. -/
theorem failsWith_render (h : IsComputed L a) : FailsWith (Obstacle.IsOfNumber L) (render a) := by
  rw [render, renderWith]
  cases read : Decimal.ofText? a with
  | some d => exact failsWith_written (.spelled h read) _
  | none =>
    refine (failsWith_special h read).bind fun s found => ?_
    rw [special_of_isWritten h.isWritten] at found
    cases found

/-- A sign before a computed numeral fails for the number alone. -/
theorem failsWith_signed (sign : op.isSign = true) (h : IsComputed L a) :
    FailsWith (Obstacle.IsOfNumber L) (signed op a) := by
  obtain ⟨compute, known⟩ : ∃ compute, sign? op = some compute := by
    cases op with
    | plus | minus => exact ⟨_, rfl⟩
    | _ => cases sign
  rw [signed, known]
  dsimp only
  cases read : Decimal.ofText? a with
  | some d =>
    dsimp only
    cases computed : compute d with
    | ok r => exact failsWith_written (.signed h read known computed) _
    | error signal =>
      rintro _ ⟨⟩
      exact .signing h read known computed
  | none =>
    refine (failsWith_special h read).bind fun s found => ?_
    rw [special_of_isWritten h.isWritten] at found
    cases found

/-- An operation fails only where its result cannot be written out. -/
theorem failsWith_combined (computes : op ≠ .equals) (left : IsComputed L a)
    (right : IsComputed L b) : FailsWith (Obstacle.IsOfNumber L) (combined op a b) := by
  obtain ⟨compute, known⟩ : ∃ compute, operation? op = some compute := by
    cases op with
    | equals => exact absurd rfl computes
    | _ => exact ⟨_, rfl⟩
  rw [combined, known]
  dsimp only
  split
  · exact failsWith_pure
  · next r computed =>
    exact (failsWith_written (.combined left right known computed) _).bind fun _ _ => failsWith_pure

/-- Two computed numerals can be compared unless one of them is too long to be read. -/
theorem failsWith_sameValue (ha : IsComputed L a) (hb : IsComputed L b) :
    FailsWith (Obstacle.IsOfNumber L) (sameValue a b) := by
  have incomparable : ∀ {c : String}, IsComputed L c → Decimal.ofText? c = none →
      FailsWith (Obstacle.IsOfNumber L) (do incomparable (← special c)) := by
    intro c hc unread
    refine (failsWith_special hc unread).bind fun s found => ?_
    rw [special_of_isWritten hc.isWritten] at found
    cases found
  unfold sameValue
  split
  · exact failsWith_pure
  · next unread _ =>
    refine (failsWith_special ha unread).bind fun s found => ?_
    rw [special_of_isWritten ha.isWritten] at found
    cases found
  · next unread => exact incomparable hb unread
  · next unread _ => exact incomparable ha unread

end Numeral

end TexAlgebra
