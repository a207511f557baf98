import TexAlgebra.Expr.Printer
import TexAlgebra.Proofs.Document
import TexAlgebra.Proofs.Numeral.Plain
import TexAlgebra.Proofs.Numeral.Rendering
import TexAlgebra.Proofs.Token.Texts
/-!
# Printed literals

A literal is a number as it is written in a text. It may have any number of digits, but it is
printed as a result is, so it keeps its value and its digits after the point only if a result has
room for them: `Printer.keeps_literal_iff`.
-/

namespace TexAlgebra

open Decimal

namespace Numeral

variable {text : String} {whole fraction : List Char}

/-- The number that a literal spells by its digits, however many there are. -/
def literalValue (text : String) : ℚ :=
  ofDigits (text.toList.filter isLatinDigit) / 10 ^ fractionalDigits text

/-- Whether a result has room for a literal: for its value if no digits are behind its point, and
else for all its digits down to the last one. -/
def HasRoom (text : String) : Prop :=
  if fractionalDigits text = 0 then Fits (literalValue text)
  else fractionalDigits text ≤ 1000026 ∧
    literalValue text * 10 ^ fractionalDigits text < 10 ^ 28

/-! ## The digits of a literal -/

/-- Whether a literal has the digits `whole` and, behind its point, the digits `fraction`. -/
structure IsLiteral (text : String) (whole fraction : List Char) : Prop where
  nonempty : whole ≠ []
  digits : ∀ c ∈ whole ++ fraction, isLatinDigit c = true
  form : text = String.ofList (whole ++ '.' :: fraction) ∨
    fraction = [] ∧ text = String.ofList whole

namespace IsLiteral

variable (h : IsLiteral text whole fraction)
include h

/-- A literal is a number that can be written in a text. -/
theorem isWritten : IsWritten text := by
  have left := fun c hc => h.digits c (List.mem_append_left fraction hc)
  obtain rfl | ⟨-, rfl⟩ := h.form
  · exact .point false h.nonempty left fun c hc => h.digits c (List.mem_append_right whole hc)
  · exact .whole false h.nonempty left

/-- The digits behind the point are those of the fraction. -/
theorem fractionalDigits_eq : fractionalDigits text = fraction.length := by
  have left := fun c hc =>
    ne_point_of_isLatinDigit (h.digits c (List.mem_append_left fraction hc))
  obtain rfl | ⟨rfl, rfl⟩ := h.form
  · rw [fractionalDigits_append left, fractionalDigits_point]
  · rw [← List.append_nil whole, fractionalDigits_append left]
    rfl

/-- The digits of a literal spell its value. -/
theorem toRat_splitValue : (splitValue whole fraction).toRat = literalValue text := by
  have digits : text.toList.filter isLatinDigit = whole ++ fraction := by
    have kept := List.filter_eq_self.2 h.digits
    rw [List.filter_append] at kept
    obtain rfl | ⟨rfl, rfl⟩ := h.form
    · rw [String.toList_ofList, List.filter_append, List.filter_cons_of_neg (by decide), kept]
    · rw [String.toList_ofList, ← List.append_nil (whole.filter _), ← kept]
      rfl
  rw [literalValue, digits, h.fractionalDigits_eq, splitValue, toRat_mk, signFactor_false, one_mul,
    zpow_neg, zpow_natCast, div_eq_mul_inv]

/-- A literal is read digit by digit unless it is too long. -/
theorem ofText?_eq :
    Decimal.ofText? text = (some (splitValue whole fraction)).filter isWithinLimits := by
  obtain rfl | ⟨rfl, rfl⟩ := h.form
  · exact ofText?_point h.nonempty h.digits
  · exact ofText?_whole h.nonempty fun c hc => h.digits c (List.mem_append_left _ hc)

/-- A literal has no sign. -/
theorem nonneg : 0 ≤ literalValue text := h.toRat_splitValue ▸ toRat_nonneg rfl

/-- In units of its last digit a literal is the whole number of all its digits. -/
theorem units : literalValue text * 10 ^ fraction.length = ofDigits (whole ++ fraction) := by
  have units := abs_toRat_mul (d := splitValue whole fraction) (k := fraction.length) rfl
  rwa [h.toRat_splitValue, abs_of_nonneg h.nonneg] at units

/-- With as many places as it has digits behind the point a literal is written out exactly. -/
theorem mem_exactPlaces : fraction.length ∈ exactPlaces (literalValue text) :=
  ⟨ofDigits (whole ++ fraction), by rw [h.units, Int.cast_natCast]⟩

/-! ## Writing out a literal -/

/-- A literal for which there is room needs no rounding, and its digits after the point are no
more than a result can have. -/
theorem bounds_of_hasRoom (room : HasRoom text) : Fits (literalValue text) ∧
    minExponent ≤ -(fraction.length : ℤ) ∧
      (fraction ≠ [] → literalValue text * 10 ^ fraction.length < 10 ^ precision) := by
  have smallest : minExponent = -1000026 := rfl
  rw [HasRoom, h.fractionalDigits_eq] at room
  split at room
  · next none => exact ⟨room, by omega, absurd (List.length_eq_zero_iff.1 none)⟩
  · have low : minExponent ≤ -(fraction.length : ℤ) := by omega
    have size : |literalValue text| =
        ofDigits (whole ++ fraction) * 10 ^ (-(fraction.length : ℤ)) := by
      rw [← h.toRat_splitValue, abs_toRat, splitValue]
    have few : ofDigits (whole ++ fraction) < tenTo precision := by
      have digits := room.2
      rw [h.units] at digits
      exact_mod_cast digits
    exact ⟨(fits_of_few size few low).1, low, fun _ => room.2⟩

/-- A literal for which there is room is written with its own digits after the point. -/
theorem render_of_hasRoom (room : HasRoom text) :
    render text = .ok (toPlaces (literalValue text) fraction.length).plain := by
  obtain ⟨fits, low, few⟩ := h.bounds_of_hasRoom room
  have value := h.toRat_splitValue
  have limits := isWithinLimits_writtenOut (d := splitValue whole fraction) (value ▸ fits) low
  rw [writtenOut_splitValue] at limits
  have rendered := render_eq (value.symm ▸ fits) (isLeast_places_stripped _) low
  have least := isLeast_places_stripped (splitValue whole fraction)
  rw [value] at least rendered
  have enough := least.2 h.mem_exactPlaces
  -- zeros are added only if there are digits behind the point
  have room : ¬ (literalValue text ≠ 0 ∧
      (splitValue whole fraction).stripped.places < fraction.length ∧
        10 ^ precision ≤ |literalValue text| * 10 ^ fraction.length) := by
    rintro ⟨-, fewer, many⟩
    rw [abs_of_nonneg h.nonneg] at many
    exact absurd (few (List.length_pos_iff.1 (by omega))) (not_lt.2 many)
  rw [if_neg room, max_eq_left enough] at rendered
  unfold render renderWith
  simp only [h.ofText?_eq, Option.filter_some, limits, if_true, h.fractionalDigits_eq,
    Numeral.written, rendered]
  rfl

/-- A literal that is written out without loss is one for which there is room. -/
theorem hasRoom_of_render {shown : String} (rendered : render text = .ok shown)
    (value : rat? shown = some (literalValue text))
    (digits : fraction.length ≤ fractionalDigits shown) : HasRoom text := by
  obtain ⟨q, d, shows⟩ : ∃ q d, Shows shown q d := by
    unfold render renderWith at rendered
    split at rendered
    · exact exists_shows (ok_of_written rendered)
    · rw [special_of_isWritten h.isWritten] at rendered
      cases rendered
  cases shows.rat?.symm.trans value
  have fits : Fits (literalValue text) := shows.value ▸ shows.result.fits
  rw [HasRoom, h.fractionalDigits_eq]
  split
  · exact fits
  · next some =>
    have smallest : minExponent = -1000026 := rfl
    have low := shows.result.exponent_ge
    rw [fractionalDigits_of_shows shows, places_writtenOut] at digits
    have form : d.exponent = -(d.places : ℤ) := by
      rw [places] at digits ⊢
      omega
    refine ⟨by omega, ?_⟩
    -- the text has at least as many digits as the literal, and no more than a result
    calc literalValue text * 10 ^ fraction.length
        ≤ literalValue text * 10 ^ d.places :=
          mul_le_mul_of_nonneg_left (pow_le_pow_right₀ (by norm_num) digits) h.nonneg
      _ = d.coefficient := by
        have units := abs_toRat_mul form
        rwa [shows.value, abs_of_nonneg h.nonneg] at units
      _ < 10 ^ 28 := by exact_mod_cast shows.digits

end IsLiteral

end Numeral

open Numeral

/-! ## Literals of a text -/

/-- Every number of a text is a literal. -/
theorem Lexer.exists_isLiteral {source : String} {t : Token} (mem : t ∈ (tokenize source).tokens)
    (number : t.kind = .number) : ∃ whole fraction, IsLiteral t.text whole fraction := by
  refine forall_mem_scan
    (P := fun t => t.kind = .number → ∃ whole fraction, IsLiteral t.text whole fraction)
    (fun p => nofun) ?_ _ _ t mem number
  intro p c cs kind same number
  obtain ⟨whole, fraction, nonempty, digits, form⟩ :=
    exists_digits_of_munch (same.trans (congrArg Lexeme.token number))
  refine ⟨whole, fraction, nonempty, digits, form.imp (congrArg String.ofList) ?_⟩
  exact And.imp_right (congrArg String.ofList)

/-- A number alone is a statement. -/
theorem Document.statements_number {t : Token} (number : t.kind = .number) :
    (ofTokens [t]).statements (fun _ => false) = [.ok (.number t.text (some t))] := by
  obtain ⟨kind, place, text⟩ := t
  cases number
  exact statements_eq_singleton [] (List.cons_ne_nil _ _) rfl

/-- A literal of a text is printed as the number that it spells, with no fewer digits after the
point, exactly if a result has room for it. -/
theorem Printer.keeps_literal_iff {source : String} {t : Token}
    (mem : t ∈ (tokenize source).tokens) (number : t.kind = .number) (style : Style) :
    ∃ e, (Document.ofTokens [t]).statements (fun _ => false) = [.ok e] ∧
      ((∃ text, e.tex style = .ok text ∧ rat? text = some (literalValue t.text) ∧
        fractionalDigits t.text ≤ fractionalDigits text) ↔ HasRoom t.text) := by
  obtain ⟨whole, fraction, literal⟩ := Lexer.exists_isLiteral mem number
  refine ⟨_, Document.statements_number number, ?_⟩
  rw [Expr.tex, literal.fractionalDigits_eq]
  constructor
  · rintro ⟨text, rendered, value, digits⟩
    exact literal.hasRoom_of_render rendered value digits
  · intro room
    obtain ⟨fits, low, -⟩ := literal.bounds_of_hasRoom room
    have written := isWrittenOut_toPlaces literal.mem_exactPlaces fits low
    exact ⟨_, literal.render_of_hasRoom room, written.spells, (fractionalDigits_toPlaces _ _).ge⟩

/-- The literal `2.50` is printed as five halves, with two digits after the point. -/
theorem Printer.keeps_literal_iff_short :
    let t : Token := ⟨.number, .start, "2.50"⟩
    t ∈ (tokenize "2.50").tokens ∧ HasRoom t.text ∧
      ∃ e text, (Document.ofTokens [t]).statements (fun _ => false) = [.ok e] ∧
        e.tex .display = .ok text ∧ rat? text = some (5 / 2) ∧ 2 ≤ fractionalDigits text := by
  intro t
  have mem : t ∈ (tokenize "2.50").tokens := by decide +kernel
  have digits : fractionalDigits "2.50" = 2 := rfl
  have value : literalValue "2.50" = 5 / 2 := by
    have spelled : ofDigits ("2.50".toList.filter isLatinDigit) = 250 := rfl
    rw [literalValue, digits, spelled]
    norm_num
  have room : HasRoom t.text := by
    rw [HasRoom, digits, value]
    norm_num
  obtain ⟨e, read, kept⟩ := Printer.keeps_literal_iff mem rfl .display
  obtain ⟨text, printed, spells, enough⟩ := kept.2 room
  exact ⟨mem, room, e, text, read, printed, value ▸ spells, digits ▸ enough⟩

/-- A whole number of 29 digits is printed as another number, and a number with one digit in front
of the point and 28 behind it is not printed at all. -/
theorem Printer.not_keeps_long_literal :
    (parse "12345678901234567890123456789").map (Except.map (Expr.tex .display)) =
        [.ok (.ok "12345678901234567890123456790")] ∧
      rat? "12345678901234567890123456790" ≠
        some (literalValue "12345678901234567890123456789") ∧
      (parse "1.0000000000000000000000000000").map (Except.map (Expr.tex .display)) =
        [.ok (.error (.arithmetic
          (.writing ⟨false, 10000000000000000000000000000, -28⟩ 28) .invalid))] := by
  refine ⟨by decide +kernel, ?_, by decide +kernel⟩
  have written : literalValue "12345678901234567890123456789" = 12345678901234567890123456789 := by
    have spelled : ofDigits ("12345678901234567890123456789".toList.filter isLatinDigit) =
        12345678901234567890123456789 := rfl
    rw [literalValue, spelled, show fractionalDigits "12345678901234567890123456789" = 0 from rfl]
    norm_num
  have printed : Decimal.ofText? "12345678901234567890123456790" =
      some (ofNat false 12345678901234567890123456790) := rfl
  rw [rat?, printed, Option.map_some, toRat_ofNat, written]
  norm_num

end TexAlgebra
