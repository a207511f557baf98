import TexAlgebra.Proofs.Numeral
import TexAlgebra.Expr.Printer
/-!
# Texts that are not empty

Writing an expression fails where a number cannot be written out, and where a factor has no first
or last character to look at. The second does not happen to operands whose texts are not empty, and
the text of a number never is.
-/

namespace TexAlgebra

/-! ## Numerals -/

/-- A number is written out with one digit at least. -/
theorem Decimal.plain_ne_empty (d : Decimal) : d.plain ≠ "" := by
  have text : d.plain = String.ofList (signedChars d.negative d.plainDigits) := rfl
  intro h
  have none : signedChars d.negative d.plainDigits = [] := by
    rw [← String.toList_ofList (l := signedChars d.negative d.plainDigits), ← text, h]
    rfl
  have read := ofChars?_plainDigits d
  rw [none] at read
  cases read

/-- Infinities and what is no number have names. -/
theorem Decimal.Special.plain_ne_empty (s : Decimal.Special) : s.plain ≠ "" := by
  intro h
  have h := congrArg String.toList h
  cases s with
  | infinity negative => cases negative <;> simp [plain] at h
  | nan negative signalling payload =>
    simp [plain] at h

/-- No number is written out as nothing. -/
theorem Numeral.render_ne_empty {text shown : String} (h : Numeral.render text = .ok shown) :
    shown ≠ "" := by
  rw [render, renderWith] at h
  split at h
  · obtain ⟨short, -, h⟩ := ok_of_bind (ok_of_written h)
    dsimp only at h
    split at h
    all_goals
      obtain ⟨shown, -, h⟩ := ok_of_bind h
      obtain rfl := ok_of_pure h
      exact Decimal.plain_ne_empty _
  · obtain ⟨special, -, h⟩ := ok_of_bind h
    have h := Work.ok_of_result h
    cases special with
    | infinity negative =>
      rw [Decimal.Special.render] at h
      split at h <;> cases h
      exact Decimal.Special.plain_ne_empty _
    | nan negative signalling payload =>
      rw [Decimal.Special.render] at h
      split at h <;> cases h
      exact Decimal.Special.plain_ne_empty _

/-! ## Operations -/

namespace Printer

/-- Parentheses leave a text with characters one with characters. -/
theorem wrapped_ne_empty {s : String} (wrap : Bool) (h : s ≠ "") : wrapped wrap s ≠ "" := by
  cases wrap
  · exact h
  · simp [wrapped, parenthesized]

/-- A text that is not empty has a first character. -/
theorem exists_firstChar {s : String} (h : s ≠ "") : ∃ c, firstChar s = .ok c := by
  rw [firstChar]
  split
  · exact ⟨_, rfl⟩
  · next none => exact absurd (by simpa using none) h

/-- A text that is not empty has a last character. -/
theorem exists_lastChar {s : String} (h : s ≠ "") : ∃ c, lastChar s = .ok c := by
  rw [lastChar]
  split
  · exact ⟨_, rfl⟩
  · next none => exact absurd (by simpa using none) h

/-- Of two texts that are not empty it can be told whether they run together. -/
theorem exists_runsTogether {left right : String} (hl : left ≠ "") (hr : right ≠ "") :
    ∃ b, runsTogether left right = .ok b := by
  obtain ⟨first, hf⟩ := exists_firstChar hr
  obtain ⟨last, hl⟩ := exists_lastChar hl
  rw [runsTogether, hf, hl]
  cases h : !(Text.isAlphanumeric first || first == '(') with
  | true => exact ⟨true, if_pos h⟩
  | false =>
    cases h' : !Text.isDigit first with
    | true => exact ⟨false, (if_neg (Bool.eq_false_iff.1 h)).trans (if_pos h')⟩
    | false =>
      exact ⟨_, (if_neg (Bool.eq_false_iff.1 h)).trans (if_neg (Bool.eq_false_iff.1 h'))⟩

/-- Operands with texts that are not empty can be written with any operator. -/
theorem operation_nonempty (style : Style) (op : Operator) (lhs rhs : Expr) {left right : String}
    (hl : left ≠ "") (hr : right ≠ "") :
    ∃ text, operation style op lhs rhs left right = .ok text ∧ text ≠ "" := by
  have hl' := wrapped_ne_empty (wrapsLeft style op lhs) hl
  cases op with
  | juxtaposed =>
    show ∃ text, juxtaposed style lhs rhs left right = .ok text ∧ text ≠ ""
    obtain ⟨b, hb⟩ := exists_runsTogether hl' hr
    simp only [juxtaposed, hb]
    cases lhs.isNumber && rhs.isNumber with
    | true => exact ⟨_, rfl, by simp [parenthesized]⟩
    | false =>
      cases wrapsRight style .juxtaposed rhs with
      | true => exact ⟨_, rfl, by simp [hl']⟩
      | false => exact ⟨_, rfl, by simp [hl']⟩
  | divide =>
    cases inline : style.inline with
    | true => exact ⟨_, by rw [operation, if_pos inline]; rfl, by simp⟩
    | false => exact ⟨_, by rw [operation, if_neg (by simp [inline])]; rfl, by simp⟩
  | _ => exact ⟨_, rfl, by simp⟩

end Printer

namespace Expr

variable {style : Style}

/-- Expressions of which each has a text have texts. -/
theorem texAll_ok {es : List Expr} (h : ∀ e ∈ es, ∃ text, e.tex style = .ok text) :
    ∃ texts, texAll style es = .ok texts := by
  induction es with
  | nil => exact ⟨[], rfl⟩
  | cons e es ih =>
    obtain ⟨text, written⟩ := h e List.mem_cons_self
    obtain ⟨texts, written'⟩ := ih fun e he => h e (List.mem_cons_of_mem _ he)
    exact ⟨text :: texts, by rw [texAll, written, written']; rfl⟩

end Expr

end TexAlgebra
