import TexAlgebra.Token.Lexer
import Mathlib.Data.List.TakeWhile
import Mathlib.Tactic.FinCases
/-!
# Texts in pieces

The longest lexeme at a place may reach into whatever is written next, so a text is not always cut
into the tokens of its pieces. It is if no two letters and no two characters of a number meet where
the pieces join: `Cuts.append` puts the tokens of two such pieces together. The pieces themselves
are names, numbers, control words, blanks and the characters that are a token each.
-/

namespace TexAlgebra

/-- What a token is, apart from its place. -/
abbrev Glyph : Type := TokenKind × String

/-- The kind and the text of a token. -/
def Token.glyph (t : Token) : Glyph := (t.kind, t.text)

namespace Lexer

/-! ## Joints -/

/-- Whether nothing that ends with `a` reaches over to a text that starts with `b`. -/
def parts (a b : Char) : Bool :=
  !(isLetter a && isLetter b) && !(isDigit a && (isDigit b || b == '.'))

/-- Whether no lexeme reaches from the end of `text` into `rest`. -/
def Apart (text rest : List Char) : Prop :=
  ∀ a ∈ text.getLast?, ∀ b ∈ rest.head?, parts a b = true

/-- Whether a character is neither a letter nor a character of a number. -/
def isBarrier (c : Char) : Bool := !isLetter c && !isDigit c && c != '.'

/-- Whatever follows a barrier is apart from it. -/
theorem parts_of_isBarrier_left {a : Char} (h : isBarrier a = true) (b : Char) :
    parts a b = true := by
  simp only [isBarrier, Bool.and_eq_true, Bool.not_eq_true'] at h
  simp [parts, h.1.1, h.1.2]

/-- Whatever precedes a barrier is apart from it. -/
theorem parts_of_isBarrier_right {b : Char} (h : isBarrier b = true) (a : Char) :
    parts a b = true := by
  simp only [isBarrier, Bool.and_eq_true, Bool.not_eq_true', bne_iff_ne] at h
  simp [parts, h.1.1, h.1.2, h.2]

/-- A text that ends with a barrier is apart from what follows. -/
theorem apart_of_getLast? {text : List Char} {a : Char} (last : text.getLast? = some a)
    (h : isBarrier a = true) (rest : List Char) : Apart text rest := by
  intro a' ha b _
  rw [last] at ha
  cases ha
  exact parts_of_isBarrier_left h b

/-- A text that starts with a barrier is apart from what precedes. -/
theorem apart_of_head? {rest : List Char} {b : Char} (first : rest.head? = some b)
    (h : isBarrier b = true) (text : List Char) : Apart text rest := by
  intro a _ b' hb
  rw [first] at hb
  cases hb
  exact parts_of_isBarrier_right h a

/-- No letters meet where texts are apart. -/
theorem not_isLetter_of_apart {text rest : List Char} {a b : Char} (apart : Apart text rest)
    (last : text.getLast? = some a) (letter : isLetter a = true) (first : rest.head? = some b) :
    isLetter b = false := by
  have h := apart a last b first
  simp only [parts, letter, Bool.true_and, Bool.and_eq_true, Bool.not_eq_true'] at h
  exact h.1

/-- No digits meet where texts are apart, nor a digit and a point. -/
theorem not_isDigit_of_apart {text rest : List Char} {a b : Char} (apart : Apart text rest)
    (last : text.getLast? = some a) (digit : isDigit a = true) (first : rest.head? = some b) :
    isDigit b = false ∧ b ≠ '.' := by
  have h := apart a last b first
  simp only [parts, digit, Bool.true_and, Bool.and_eq_true, Bool.not_eq_true',
    Bool.or_eq_false_iff, beq_eq_false_iff_ne] at h
  exact h.2

/-! ## Pieces -/

/-- Whether `text` is cut into tokens with the given kinds and texts wherever it stands apart from
what follows. -/
def Cuts (text : String) (glyphs : List Glyph) : Prop :=
  ∀ p rest, Apart text.toList rest → ∃ q,
    (scan p (text.toList ++ rest)).tokens.map Token.glyph =
      glyphs ++ (scan q rest).tokens.map Token.glyph

/-- Two texts that are apart are cut one after the other. -/
theorem Cuts.append {s t : String} {gs hs : List Glyph} (cut_s : Cuts s gs) (cut_t : Cuts t hs)
    (nonempty : t.toList ≠ []) (apart : Apart s.toList t.toList) : Cuts (s ++ t) (gs ++ hs) := by
  intro p rest outer
  rw [String.toList_append] at outer ⊢
  obtain ⟨b, bs, ht⟩ := List.exists_cons_of_ne_nil nonempty
  -- the first piece ends where the second starts, since the second is not empty
  have inner : Apart s.toList (t.toList ++ rest) := by
    rw [ht] at apart ⊢
    exact apart
  have outer : Apart t.toList rest := by
    intro a ha
    refine outer a ?_
    rw [List.getLast?_append, Option.mem_def.1 ha]
    rfl
  obtain ⟨q, first⟩ := cut_s p _ inner
  obtain ⟨r, second⟩ := cut_t q rest outer
  exact ⟨r, by rw [List.append_assoc, List.append_assoc, first, second]⟩

/-- A piece that is one lexeme wherever it stands apart from what follows. -/
theorem cuts_of_munch {text : String} {c : Char} {cs : List Char} {kind : TokenKind}
    (spelled : text.toList = c :: cs)
    (h : ∀ rest, Apart (c :: cs) rest → munch c (cs ++ rest) = (.token kind, cs.length)) :
    Cuts text [(kind, text)] := by
  intro p rest apart
  rw [spelled] at apart ⊢
  rw [List.cons_append, scan]
  simp only [cut, h rest apart, List.take_left, List.drop_left]
  refine ⟨p.past (c :: cs), ?_⟩
  rw [← spelled, String.ofList_toList, spelled]
  rfl

/-! ## Characters -/

/-- The characters that are a token by themselves. -/
def marks : List Char := ['(', ')', '\x7b', '\x7d', '_', ',', '+', '-', '*', '/', '^', '=']

/-- A mark is a lexeme of its own. -/
theorem munch_mark {c : Char} (h : c ∈ marks) (cs : List Char) :
    munch c cs = (.token (single c), 0) := by
  fin_cases h <;> rfl

/-- Every mark is a barrier. -/
theorem isBarrier_of_mem_marks : ∀ c ∈ marks, isBarrier c = true :=
  List.all_eq_true.1 rfl

/-- A mark is cut as a token. -/
theorem cuts_mark {text : String} {c : Char} (spelled : text.toList = [c]) (h : c ∈ marks) :
    Cuts text [(single c, text)] :=
  cuts_of_munch spelled fun _ _ => munch_mark h _

/-- A blank is cut as nothing. -/
theorem cuts_blank : Cuts " " [] := by
  intro p rest _
  refine ⟨p.past [' '], ?_⟩
  show (scan p (' ' :: rest)).tokens.map Token.glyph = _
  rw [scan]
  rfl

section

variable {s t : String} {gs : List Glyph} {c : Char}

/-- A mark behind a text is cut off. -/
theorem Cuts.append_mark (cut_s : Cuts s gs) (spelled : t.toList = [c]) (h : c ∈ marks) :
    Cuts (s ++ t) (gs ++ [(single c, t)]) := by
  refine cut_s.append (cuts_mark spelled h) (by simp [spelled]) ?_
  rw [spelled]
  exact apart_of_head? rfl (isBarrier_of_mem_marks c h) _

/-- A mark before a text is cut off. -/
theorem Cuts.mark_append (cut_s : Cuts s gs) (spelled : t.toList = [c]) (h : c ∈ marks)
    (nonempty : s.toList ≠ []) : Cuts (t ++ s) ((single c, t) :: gs) := by
  refine (cuts_mark spelled h).append cut_s nonempty ?_
  rw [spelled]
  exact apart_of_getLast? rfl (isBarrier_of_mem_marks c h) _

/-- A blank behind a text makes no difference. -/
theorem Cuts.append_blank (cut_s : Cuts s gs) : Cuts (s ++ " ") gs := by
  have cuts := cut_s.append cuts_blank (List.cons_ne_nil _ _)
    (apart_of_head? rfl (by decide : isBarrier ' ' = true) _)
  rwa [List.append_nil] at cuts

/-- A blank before a text makes no difference. -/
theorem Cuts.blank_append (cut_s : Cuts s gs) (nonempty : s.toList ≠ []) : Cuts (" " ++ s) gs :=
  cuts_blank.append cut_s nonempty (apart_of_getLast? rfl (by decide : isBarrier ' ' = true) _)

end

/-! ## Words and numbers -/

/-- A run of characters ends where another one follows. -/
theorem takeWhile_append_of_head? {p : Char → Bool} {cs rest : List Char}
    (all : ∀ c ∈ cs, p c = true) (stop : ∀ b ∈ rest.head?, p b = false) :
    (cs ++ rest).takeWhile p = cs := by
  rw [List.takeWhile_append_of_pos all]
  cases rest with
  | nil => exact List.append_nil cs
  | cons b rest =>
    rw [List.takeWhile_cons_of_neg (by simp [stop b rfl])]
    exact List.append_nil cs

theorem isLetter_iff {c : Char} : isLetter c = true ↔
    97 ≤ c.toNat ∧ c.toNat ≤ 122 ∨ 65 ≤ c.toNat ∧ c.toNat ≤ 90 := by
  simp only [isLetter, Bool.decide_or, Bool.or_eq_true, decide_eq_true_eq, Char.le_def,
    UInt32.le_iff_toNat_le]
  rfl

theorem isDigit_iff {c : Char} : isDigit c = true ↔ 48 ≤ c.toNat ∧ c.toNat ≤ 57 := by
  rw [isDigit, decide_eq_true_iff, Char.le_def, Char.le_def, UInt32.le_iff_toNat_le,
    UInt32.le_iff_toNat_le]
  rfl

/-- Letters and digits start neither a comment nor a blank nor a control word. -/
theorem ne_of_isLetter_or_isDigit {c : Char} (h : isLetter c = true ∨ isDigit c = true) :
    c ≠ '%' ∧ c ≠ '\n' ∧ c ≠ '\\' ∧ isBlank c = false := by
  rw [isLetter_iff, isDigit_iff] at h
  refine ⟨?_, ?_, ?_, ?_⟩
  · rintro rfl
    exact absurd h (by decide)
  · rintro rfl
    exact absurd h (by decide)
  · rintro rfl
    exact absurd h (by decide)
  · by_contra blank
    rw [Bool.not_eq_false, isBlank, decide_eq_true_iff] at blank
    rcases blank with rfl | rfl
    · exact absurd h (by decide)
    · exact absurd h (by decide)

/-- A word is as long as there are letters. -/
theorem munch_letter {c : Char} (letter : isLetter c = true) (cs : List Char) :
    munch c cs = (.token .identifier, (cs.takeWhile isLetter).length) := by
  obtain ⟨comment, line, control, blank⟩ := ne_of_isLetter_or_isDigit (.inl letter)
  simp only [munch, comment, line, control, blank, letter, if_false, if_true, Bool.false_eq_true]

/-- No digit is a letter. -/
theorem isLetter_eq_false_of_isDigit {c : Char} (digit : isDigit c = true) :
    isLetter c = false := by
  rw [isDigit_iff] at digit
  rw [← Bool.not_eq_true, isLetter_iff]
  omega

/-- A number without a point is as long as there are digits. -/
theorem munch_whole {c : Char} (digit : isDigit c = true) {cs : List Char}
    (h : ∀ r, cs.drop (cs.takeWhile isDigit).length ≠ '.' :: r) :
    munch c cs = (.token .number, (cs.takeWhile isDigit).length) := by
  obtain ⟨comment, line, control, blank⟩ := ne_of_isLetter_or_isDigit (.inr digit)
  simp only [munch, comment, line, control, blank, digit, isLetter_eq_false_of_isDigit digit,
    if_false, if_true, Bool.false_eq_true]

/-- A number with a point goes on with the digits behind it. -/
theorem munch_point {c : Char} (digit : isDigit c = true) {cs r : List Char}
    (h : cs.drop (cs.takeWhile isDigit).length = '.' :: r) :
    munch c cs = (.token .number,
      (cs.takeWhile isDigit).length + 1 + (r.takeWhile isDigit).length) := by
  obtain ⟨comment, line, control, blank⟩ := ne_of_isLetter_or_isDigit (.inr digit)
  simp only [munch, comment, line, control, blank, digit, isLetter_eq_false_of_isDigit digit, h,
    if_false, if_true, Bool.false_eq_true]

/-- A piece of letters is a name. -/
theorem cuts_name {text : String} (nonempty : text.toList ≠ [])
    (letters : ∀ c ∈ text.toList, isLetter c = true) : Cuts text [(.identifier, text)] := by
  obtain ⟨c, cs, spelled⟩ := List.exists_cons_of_ne_nil nonempty
  rw [spelled] at letters
  refine cuts_of_munch spelled fun rest apart => ?_
  have letter : ∀ x ∈ cs, isLetter x = true := fun x hx => letters x (List.mem_cons_of_mem c hx)
  obtain ⟨a, last⟩ := Option.isSome_iff_exists.1 (List.getLast?_isSome.2 (List.cons_ne_nil c cs))
  have stop : ∀ b ∈ rest.head?, isLetter b = false := fun b first =>
    not_isLetter_of_apart apart last (letters a (List.mem_of_getLast? last)) first
  rw [munch_letter (letters c List.mem_cons_self), takeWhile_append_of_head? letter stop]

/-- A backslash and letters are a control word. -/
theorem cuts_controlWord {text : String} {letters : List Char}
    (spelled : text.toList = '\\' :: letters) (nonempty : letters ≠ [])
    (all : ∀ c ∈ letters, isLetter c = true) : Cuts text [(.controlWord, text)] := by
  refine cuts_of_munch spelled fun rest apart => ?_
  obtain ⟨a, last⟩ := Option.isSome_iff_exists.1 (List.getLast?_isSome.2 nonempty)
  have stop : ∀ b ∈ rest.head?, isLetter b = false := by
    obtain ⟨c, cs, rfl⟩ := List.exists_cons_of_ne_nil nonempty
    exact fun b first =>
      not_isLetter_of_apart apart last (all a (List.mem_of_getLast? last)) first
  have word := takeWhile_append_of_head? all stop
  have single : (letters ++ rest).head? ≠ some '\\' := by
    obtain ⟨c, cs, rfl⟩ := List.exists_cons_of_ne_nil nonempty
    intro same
    cases same
    exact absurd (all _ List.mem_cons_self) (by decide)
  have blank : isBlank '\\' = false := rfl
  have comment : '\\' ≠ '%' := by decide
  have line : '\\' ≠ '\n' := by decide
  simp only [munch, comment, line, blank, word, single, nonempty, if_false, if_true,
    Bool.false_eq_true]

/-- Digits are a number, and so are digits with a point between them. -/
theorem cuts_number {text : String} {whole fraction : List Char}
    (spelled : text.toList = whole ++ if fraction = [] then [] else '.' :: fraction)
    (nonempty : whole ≠ []) (digits : ∀ c ∈ whole ++ fraction, isDigit c = true) :
    Cuts text [(.number, text)] := by
  obtain ⟨c, cs, rfl⟩ := List.exists_cons_of_ne_nil nonempty
  have digit : ∀ x ∈ cs, isDigit x = true := fun x hx =>
    digits x (List.mem_append_left _ (List.mem_cons_of_mem c hx))
  have first := digits c List.mem_cons_self
  rw [List.cons_append] at spelled
  refine cuts_of_munch spelled fun rest apart => ?_
  by_cases none : fraction = []
  · subst none
    simp only [if_true, List.append_nil] at apart digits ⊢
    obtain ⟨a, last⟩ := Option.isSome_iff_exists.1 (List.getLast?_isSome.2 (List.cons_ne_nil c cs))
    have stop := fun b => not_isDigit_of_apart (b := b) apart last
      (digits a (List.mem_of_getLast? last))
    have digits := takeWhile_append_of_head? digit fun b hb => (stop b hb).1
    rw [munch_whole first, digits]
    intro r point
    rw [digits, List.drop_left] at point
    rw [point] at stop
    exact (stop '.' rfl).2 rfl
  · simp only [none, if_false] at apart ⊢
    obtain ⟨a, last⟩ := Option.isSome_iff_exists.1 (List.getLast?_isSome.2 none)
    have last' : (c :: (cs ++ '.' :: fraction)).getLast? = some a := by
      rw [← List.cons_append, List.getLast?_append, List.getLast?_cons, last]
      rfl
    have fractional : ∀ x ∈ fraction, isDigit x = true := fun x hx =>
      digits x (List.mem_append_right _ hx)
    have stop := fun b => not_isDigit_of_apart (b := b) apart last'
      (fractional a (List.mem_of_getLast? last))
    -- the first run of digits ends at the point, the second where the piece ends
    have point : ∀ b ∈ ('.' :: fraction ++ rest).head?, isDigit b = false := by
      intro b hb
      cases hb
      rfl
    have digits := takeWhile_append_of_head? digit point
    have digits' := takeWhile_append_of_head? fractional fun b hb => (stop b hb).1
    have rest_eq : (cs ++ ('.' :: fraction ++ rest)).drop
        ((cs ++ ('.' :: fraction ++ rest)).takeWhile isDigit).length =
          '.' :: (fraction ++ rest) := by
      rw [digits, List.drop_left]
      rfl
    rw [List.append_assoc, munch_point first rest_eq, digits, digits', List.length_append,
      List.length_cons]
    congr 1
    omega

/-! ## The end of a text -/

/-- Whether tokens of the kind are more than a character that is a token by itself. -/
def isRun : TokenKind → Bool
  | .controlWord | .identifier | .number | .endOfStatement | .endOfText => true
  | _ => false

/-- A mark is no word and no number. -/
theorem single_ne {kind : TokenKind} (run : isRun kind = true) (c : Char) : single c ≠ kind := by
  have either : ∀ {p : Prop} [Decidable p] {a b : TokenKind}, isRun a = false →
      isRun b = false → isRun (if p then a else b) = false := by
    intro p _ a b ha hb
    split
    · exact ha
    · exact hb
  have alone : isRun (single c) = false := by
    unfold single
    iterate 12 refine either rfl ?_
    rfl
  rintro rfl
  rw [alone] at run
  cases run

/-- No lexeme is an end of the text. -/
theorem munch_ne_endOfText (c : Char) (cs : List Char) :
    (munch c cs).1 ≠ .token .endOfText := by
  have other : single c ≠ .endOfText := single_ne rfl c
  unfold munch
  dsimp only
  split_ifs
  all_goals try simp [other]
  split <;> simp

/-- The end token closes the tokens of a text and is found nowhere else. -/
theorem scan_tokens (p : Position) (cs : List Char) : ∃ tokens q,
    (scan p cs).tokens = tokens ++ [Token.ending q] ∧ ∀ t ∈ tokens, t.kind ≠ .endOfText := by
  -- by induction on the length of the text: the scanner goes on behind the lexeme it has cut
  induction cs using (measure List.length).wf.induction generalizing p with
  | _ cs ih =>
    cases cs with
    | nil =>
      rw [scan]
      exact ⟨[], p, rfl, by simp⟩
    | cons c cs =>
      have kind := munch_ne_endOfText c cs
      obtain ⟨tokens, q, later, inner⟩ :=
        ih _ (length_cut_rest_lt c cs) (p.past (cut c cs).2.1)
      have lexeme : (cut c cs).1 = (munch c cs).1 := rfl
      rw [scan]
      split
      · exact ⟨tokens, q, later, inner⟩
      · exact ⟨tokens, q, later, inner⟩
      · next kind' same =>
        rw [lexeme] at same
        refine ⟨⟨kind', p, String.ofList (cut c cs).2.1⟩ :: tokens, q, by rw [later]; rfl, ?_⟩
        intro t ht
        rcases List.mem_cons.1 ht with rfl | ht
        · intro ended
          simp only at ended
          rw [same, ended] at kind
          exact kind rfl
        · exact inner t ht

/-- The tokens of a text that is a piece of its own. -/
theorem Cuts.tokenize {text : String} {gs : List Glyph} (cuts : Cuts text gs) : ∃ tokens q,
    (tokenize text).tokens = tokens ++ [Token.ending q] ∧
      tokens.map Token.glyph = gs ∧ ∀ t ∈ tokens, t.kind ≠ .endOfText := by
  obtain ⟨tokens, q, split, inner⟩ := scan_tokens Position.start text.toList
  refine ⟨tokens, q, split, ?_, inner⟩
  -- nothing follows the whole text, so it stands apart from what follows
  obtain ⟨r, pieces⟩ := cuts Position.start [] fun a _ b hb => by cases hb
  rw [List.append_nil, split, scan, List.map_append] at pieces
  exact List.append_inj_left' pieces rfl

end Lexer

end TexAlgebra
