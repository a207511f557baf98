import TexAlgebra.Proofs.Document
import TexAlgebra.Proofs.Printer.Writing
/-!
# Reading back what was written

The text of an expression without signs is read as that expression (`Expr.parse_tex`). The
parentheses of `tex` are therefore enough: `Printer.le_tightness_of_wrapsLeft` and
`Printer.lt_tightness_of_wrapsRight` say that an operand without parentheses binds tightly enough to
be read as the operand it is. They would not be enough if a sum stood on the right of a plus, or a
product on the right of a product, which is written as if it were regrouped to the left.
-/

namespace TexAlgebra

open Lexer Grammar Printer

namespace Expr

/-! ## Expressions without signs -/

/-- Whether `rhs` on the right of `op` is written as if the two were regrouped. -/
def regroupsWith (op : Operator) : Expr → Bool
  | .binary inner _ _ _ => op.isAssociative && inner.alike op
  | _ => false

/-- Whether the factors of an implied product are written with a letter right before a letter. -/
def lettersMeet (style : Style) (lhs rhs : Expr) : Bool :=
  match lhs.tex style, rhs.tex style with
  | .ok left, .ok right =>
    (wrapped (wrapsLeft style .juxtaposed lhs) left).toList.getLast?.any isLetter &&
      (wrapped (wrapsRight style .juxtaposed rhs) right).toList.head?.any isLetter
  | _, _ => false

/-- Whether `name` is a run of letters. -/
def IsName (name : String) : Prop := name.toList ≠ [] ∧ ∀ c ∈ name.toList, isLetter c = true

/-- Whether `name` is a control word that does not start a construct of its own. -/
def IsCommand (name : String) : Prop :=
  isReserved name = false ∧
    ∃ letters, name.toList = '\\' :: letters ∧ letters ≠ [] ∧ ∀ c ∈ letters, isLetter c = true

mutual

/-- The expressions of canonical numerals, names, operations and control words in which no right
operand is written as if it were regrouped and no letters of two factors meet. -/
inductive SignFree (style : Style) : Expr → Prop
  | number {text : String} {token : Option Token} (canonical : Numeral.IsCanonical text) :
    SignFree style (.number text token)
  | var {name : String} {subscripts : List Expr} {token : Option Token} (letters : IsName name)
      (all : AllSignFree style subscripts) : SignFree style (.var name subscripts token)
  | binary {op : Operator} {lhs rhs : Expr} {token : Option Token} (left : SignFree style lhs)
      (right : SignFree style rhs) (grouped : regroupsWith op rhs = false)
      (apart : op = .juxtaposed → lettersMeet style lhs rhs = false) :
    SignFree style (.binary op lhs rhs token)
  | command {name : String} {arguments : List Expr} {token : Option Token} (word : IsCommand name)
      (groups : GroupsSignFree style arguments) : SignFree style (.command name arguments token)

/-- The lists of such expressions. -/
inductive AllSignFree (style : Style) : List Expr → Prop
  | nil : AllSignFree style []
  | cons {e : Expr} {es : List Expr} (first : SignFree style e) (later : AllSignFree style es) :
    AllSignFree style (e :: es)

/-- The lists of groups that are empty or hold one such expression. -/
inductive GroupsSignFree (style : Style) : List Expr → Prop
  | nil : GroupsSignFree style []
  | empty {token : Option Token} {groups : List Expr} (later : GroupsSignFree style groups) :
    GroupsSignFree style (.group [] token :: groups)
  | single {item : Expr} {token : Option Token} {groups : List Expr} (first : SignFree style item)
      (later : GroupsSignFree style groups) : GroupsSignFree style (.group [item] token :: groups)

end

end Expr

namespace Printer

/-! ## The table of parentheses -/

variable {style : Style} {op : Operator} {lhs rhs : Expr}

/-- A left operand without parentheses binds as tightly as its operator. -/
theorem le_tightness_of_wrapsLeft (h : wrapsLeft style op lhs = false) :
    op.precedence ≤ tightness style lhs := by
  cases lhs with
  | unary => exact not_lt.1 (of_decide_eq_false h)
  | _ => exact not_lt.1 (of_decide_eq_false h)

/-- Associative operators of one precedence are alike. -/
theorem alike_of_precedence_eq {inner : Operator} (outer : op.isAssociative = true)
    (associative : inner.isAssociative = true) (same : inner.precedence = op.precedence) :
    inner.alike op = true := by
  cases op <;> cases outer <;> cases inner <;> cases associative <;> first | rfl | cases same

/-- A right operand without a sign and without parentheses binds tighter than its operator, unless
it is written as if it were regrouped. -/
theorem lt_tightness_of_wrapsRight (style : Style)
    (plain : ∀ sign operand token, rhs ≠ .unary sign operand token)
    (grouped : Expr.regroupsWith op rhs = false) (h : wrapsRight style op rhs = false) :
    op.precedence < tightness style rhs := by
  have table : (if tightness style rhs = op.precedence then !(op.isAssociative && regroups rhs)
      else decide (tightness style rhs < op.precedence)) = false := by
    cases rhs with
    | unary sign operand token => exact absurd rfl (plain sign operand token)
    | _ => exact h
  -- at equal precedence only an operand that regroups goes without parentheses
  split at table
  · next same =>
    rw [Bool.not_eq_false', Bool.and_eq_true] at table
    obtain ⟨outer, associative⟩ := table
    cases rhs with
    | binary inner l r token =>
      have precedence : tightness style (.binary inner l r token) = inner.precedence := by
        cases inner with
        | divide => cases associative
        | _ => rfl
      rw [precedence] at same
      rw [Expr.regroupsWith, outer, alike_of_precedence_eq outer associative same] at grouped
      cases grouped
    | _ => cases associative
  · next different =>
    have := of_decide_eq_false table
    omega

/-! ## Factors side by side -/

/-- The digits of numbers are digits of texts. -/
theorem isDigit_text_of_isDigit {c : Char} (h : isDigit c = true) : Text.isDigit c = true := by
  rw [Text.isDigit, Text.inRanges_iff]
  exact ⟨(0x30, 0x39), List.mem_cons_self, isDigit_iff.1 h⟩

/-- A factor that starts with no digit stands apart from what is before it, unless letters meet. -/
theorem Starts.parts_of_not_isDigit {c : Char} {kind : TokenKind} (h : Starts c kind)
    (digit : isDigit c = false) {a : Char} (letters : (isLetter a && isLetter c) = false) :
    parts a c = true := by
  have point : c ≠ '.' := by
    rintro rfl
    cases h with
    | letter h => cases h
    | digit h => cases h
  simp [parts, letters, digit, point]

/-- A right factor that is not put into parentheses can stand beside another one, and no number
reaches into it. -/
theorem runsTogether_spec {left right : String} {c : Char} {kind : TokenKind}
    (nonempty : left.toList ≠ []) (first : right.toList.head? = some c) (starts : Starts c kind) :
    ∃ together, runsTogether left right = .ok together ∧ (together = false →
      opensFactor c = true ∧ ∀ a ∈ left.toList.getLast?, (isLetter a && isLetter c) = false →
        parts a c = true) := by
  obtain ⟨a, last⟩ := Option.isSome_iff_exists.1 (List.getLast?_isSome.2 nonempty)
  have first' : firstChar right = .ok c := by
    rw [firstChar, first]
  have last' : lastChar left = .ok a := by
    rw [lastChar, last]
  rw [runsTogether, first', last']
  show ∃ together, (if !opensFactor c then .ok true
    else if !Text.isDigit c then .ok false
    else .ok (Text.isDigit a || a == '.') : Except Obstacle Bool) = .ok together ∧ _
  -- the printer's questions in turn: can `c` start a factor, is it a digit, does a number precede
  split
  · exact ⟨true, rfl, by simp⟩
  next factor =>
  rw [Bool.not_eq_true, Bool.not_eq_false'] at factor
  split
  · next other =>
    refine ⟨false, rfl, fun _ => ⟨factor, fun a' _ letters => ?_⟩⟩
    refine starts.parts_of_not_isDigit ?_ letters
    rw [← Bool.not_eq_true]
    intro digit
    rw [isDigit_text_of_isDigit digit] at other
    cases other
  · refine ⟨_, rfl, fun apart => ⟨factor, fun a' ha letters => ?_⟩⟩
    rw [last] at ha
    cases ha
    have digit : isDigit a = false := by
      rw [← Bool.not_eq_true]
      intro digit
      rw [isDigit_text_of_isDigit digit] at apart
      cases apart
    simp [parts, letters, digit]

section

variable {a b : String} {gs hs : List Glyph}

/-- A factor in parentheses can stand beside any other one. -/
theorem stands_parenthesized (a b : String) :
    Stands .juxtaposed a "" (parenthesized b) [] := by
  refine .beside (apart_of_head? (head?_parenthesized b) rfl _) fun c first => ?_
  rw [head?_parenthesized] at first
  cases first
  simp [opensFactor]

/-- Factors side by side are written so that they can be told apart. -/
theorem exists_juxtaposed (left : Lexes a gs) (right : Lexes b hs)
    (tex_l : lhs.tex style = .ok a) (tex_r : rhs.tex style = .ok b)
    (apart : Expr.lettersMeet style lhs rhs = false) :
    ∃ w w', Printer.juxtaposed style lhs rhs a b = .ok (wrapped w a ++ wrapped w' b) ∧
      (w = false → wrapsLeft style .juxtaposed lhs = false) ∧
      (w' = false → wrapsRight style .juxtaposed rhs = false) ∧
      Stands .juxtaposed (wrapped w a) "" (wrapped w' b) [] := by
  rw [Printer.juxtaposed]
  split
  · exact ⟨true, true, rfl, nofun, nofun, stands_parenthesized _ b⟩
  rw [Expr.lettersMeet, tex_l, tex_r] at apart
  dsimp only at apart ⊢
  split
  · exact ⟨_, true, rfl, id, nofun, stands_parenthesized _ b⟩
  next loose =>
  rw [Bool.not_eq_true] at loose
  obtain ⟨c, g, first, first', starts⟩ := right.starts
  have nonempty : (wrapped (wrapsLeft style .juxtaposed lhs) a).toList ≠ [] := by
    cases wrapsLeft style .juxtaposed lhs with
    | true => exact left.parenthesized.nonempty
    | false => exact left.nonempty
  -- no parentheses by precedence; there may still be some to keep the two texts apart
  obtain ⟨together, decided, spec⟩ := runsTogether_spec nonempty first starts
  rw [decided]
  refine ⟨_, together, rfl, id, fun _ => loose, ?_⟩
  cases together with
  | true => exact stands_parenthesized _ b
  | false =>
    obtain ⟨factor, joint⟩ := spec rfl
    -- letters do not meet by assumption, and the printer has ruled out all other contacts
    refine .beside (fun x last y first_y => ?_) fun y first_y => ?_
    · rw [wrapped, if_neg Bool.false_ne_true, first] at first_y
      cases first_y
      refine joint x last ?_
      rw [loose, Option.mem_def.1 last] at apart
      simpa [wrapped, first] using apart
    · rw [wrapped, if_neg Bool.false_ne_true, first] at first_y
      cases first_y
      exact factor

/-! ## Operations -/

/-- An operation that is not a fraction is written as its operands, in parentheses where its table
says so, with something in between that stands for the operator. -/
theorem exists_operation {inline : Bool} (left : Lexes a gs) (right : Lexes b hs)
    (tex_l : lhs.tex ⟨inline, false⟩ = .ok a) (tex_r : rhs.tex ⟨inline, false⟩ = .ok b)
    (apart : op = .juxtaposed → Expr.lettersMeet ⟨inline, false⟩ lhs rhs = false)
    (flat : op = .divide → inline = true) :
    ∃ w w' piece glue,
      operation ⟨inline, false⟩ op lhs rhs a b = .ok (wrapped w a ++ (piece ++ wrapped w' b)) ∧
      (w = false → wrapsLeft ⟨inline, false⟩ op lhs = false) ∧
      (w' = false → wrapsRight ⟨inline, false⟩ op rhs = false) ∧
      Stands op (wrapped w a) piece (wrapped w' b) glue := by
  have spaced := fun other : op ≠ .juxtaposed => @Stands.sign op
    (wrapped (wrapsLeft ⟨inline, false⟩ op lhs) a) _
    (wrapped (wrapsRight ⟨inline, false⟩ op rhs) b) (isSign_spaced other)
  cases op with
  | juxtaposed =>
    obtain ⟨w, w', written, loose_l, loose_r, stands⟩ :=
      exists_juxtaposed left right tex_l tex_r (apart rfl)
    exact ⟨w, w', "", [], by rw [String.empty_append]; exact written, loose_l, loose_r, stands⟩
  | power =>
    exact ⟨_, _, "^", _, by rw [← String.append_assoc]; rfl, id, id, .sign isSign_power⟩
  | divide =>
    cases flat rfl
    refine ⟨_, _, _, _, ?_, id, id, spaced (by decide)⟩
    rw [← String.append_assoc]
    rfl
  | _ =>
    refine ⟨_, _, _, _, ?_, id, id, spaced (by decide)⟩
    simp only [← String.append_assoc]
    rfl

end

end Printer

/-! ## Whole expressions -/

namespace Expr

variable {inline : Bool}

/-- No sign stands in front of an expression that is free of signs. -/
theorem SignFree.ne_unary {style : Style} {e : Expr} (h : SignFree style e) :
    ∀ sign operand token, e ≠ .unary sign operand token := by
  rintro sign operand token rfl
  cases h

mutual

/-- An expression without signs is written so that it is read as the expression it is. -/
theorem SignFree.writes {e : Expr} (h : SignFree ⟨inline, false⟩ e) :
    ∃ text gs, e.tex ⟨inline, false⟩ = .ok text ∧
      Writes e (tightness ⟨inline, false⟩ e) (tightness ⟨inline, false⟩ e) text gs := by
  -- one lemma of `Writes` for each way to build an expression
  cases h with
  | @number text token canonical =>
    obtain ⟨whole, fraction, split, spelled⟩ := canonical
    refine ⟨text, _, Numeral.render_of_isCanonical ⟨whole, fraction, split, spelled⟩,
      writes_number ?_ split.nonempty split.digits _ _ token⟩
    rw [spelled, String.toList_ofList]
  | @var name subscripts token letters all =>
    obtain ⟨texts, written, items⟩ := all.writes
    cases subscripts with
    | nil => exact ⟨name, _, rfl, writes_name letters.1 letters.2 _ _ token⟩
    | cons e es =>
      obtain ⟨gs, items⟩ := items (List.cons_ne_nil e es)
      obtain ⟨hs, subscripted⟩ :=
        writes_subscripted letters.1 letters.2 items tightest tightest token
      refine ⟨_, hs, ?_, subscripted⟩
      show (texAll ⟨inline, false⟩ (e :: es) >>= _) = _
      rw [written]
      rfl
  | @binary op lhs rhs token left right grouped apart =>
    obtain ⟨a, gs, tex_l, left⟩ := left.writes
    obtain ⟨b, hs, tex_r, right'⟩ := right.writes
    have tex_e : (binary op lhs rhs token).tex ⟨inline, false⟩ =
        operation ⟨inline, false⟩ op lhs rhs a b := by
      rw [tex, tex_l, tex_r]
      rfl
    by_cases flat : op = .divide → inline = true
    · obtain ⟨w, w', piece, glue, written, loose_l, loose_r, stands⟩ :=
        exists_operation left.toLexes right'.toLexes tex_l tex_r apart flat
      have tight : op.precedence = tightness ⟨inline, false⟩ (.binary op lhs rhs token) := by
        cases op with
        | divide => rw [tightness, flat rfl, if_pos rfl]
        | _ => rfl
      obtain ⟨gs', left⟩ := left.wrapped fun h =>
        and_self_iff.2 (le_tightness_of_wrapsLeft (loose_l h))
      obtain ⟨hs', right⟩ := right'.wrapped fun h =>
        and_self_iff.2 (lt_tightness_of_wrapsRight _ right.ne_unary grouped (loose_r h))
      have operation := left.extended stands
        ((right.mono (Nat.le_succ _) le_rfl).joins le_rfl token)
      exact ⟨_, _, tex_e.trans written, tight ▸ operation⟩
    · obtain ⟨rfl, framed⟩ := Classical.not_imp.1 flat
      obtain rfl := Bool.eq_false_iff.2 framed
      obtain ⟨fs, fraction⟩ := left.fraction right' tightest tightest token
      exact ⟨_, fs, tex_e, fraction⟩
  | @command name arguments token word groups =>
    obtain ⟨texts, gs, written, groups⟩ := groups.writes
    obtain ⟨free, letters, spelled, nonempty, all⟩ := word
    refine ⟨_, _, ?_, writes_command spelled nonempty all free groups tightest tightest token⟩
    show (texAll ⟨inline, false⟩ arguments >>= _) = _
    rw [written]
    rfl

/-- Subscripts that are free of signs are written so that they are read again. -/
theorem AllSignFree.writes {es : List Expr} (h : AllSignFree ⟨inline, false⟩ es) :
    ∃ texts, texAll ⟨inline, false⟩ es = .ok texts ∧
      (es ≠ [] → ∃ gs, WritesItems es texts gs) := by
  cases h with
  | nil => exact ⟨[], rfl, fun h => absurd rfl h⟩
  | @cons e es first later =>
    obtain ⟨text, gs, written, item⟩ := first.writes
    obtain ⟨texts, written', items⟩ := later.writes
    refine ⟨text :: texts, ?_, fun _ => ?_⟩
    · show (e.tex ⟨inline, false⟩ >>= fun _ => texAll ⟨inline, false⟩ es >>= _) = _
      rw [written, written']
      rfl
    · cases es with
      | nil =>
        cases written'
        exact ⟨_, item.writesItems⟩
      | cons e' es =>
        obtain ⟨hs, items⟩ := items (List.cons_ne_nil e' es)
        exact ⟨_, items.cons item⟩

/-- Groups that are free of signs are written so that they are read again. -/
theorem GroupsSignFree.writes {groups : List Expr} (h : GroupsSignFree ⟨inline, false⟩ groups) :
    ∃ texts gs, texAll ⟨inline, false⟩ groups = .ok texts ∧ WritesGroups groups texts gs := by
  cases h with
  | nil => exact ⟨[], [], rfl, writesGroups_nil⟩
  | @empty token groups later =>
    obtain ⟨texts, gs, written, groups'⟩ := later.writes
    refine ⟨_, _, ?_, groups'.cons_blank token⟩
    show (texAll ⟨inline, false⟩ groups >>= _) = _
    rw [written]
    rfl
  | @single item token groups first later =>
    obtain ⟨text, gs, written, item'⟩ := first.writes
    obtain ⟨texts, hs, written', groups'⟩ := later.writes
    refine ⟨_, _, ?_, WritesGroups.cons_spaced item' groups' token⟩
    show ((texAll ⟨inline, false⟩ [item] >>= _) >>= fun _ =>
      texAll ⟨inline, false⟩ groups >>= _) = _
    rw [written']
    show (((item.tex ⟨inline, false⟩ >>= _) >>= _) >>= _) = _
    rw [written]
    rfl

end

end Expr

/-! ## Texts -/

/-- A text that is read as one expression is a document of one statement. -/
theorem Printer.Writes.parse {e : Expr} {p q : Nat} {text : String} {gs : List Glyph}
    (h : Writes e p q text gs) : ∃ e', parse text = [.ok e'] ∧ e'.same e = true := by
  obtain ⟨tokens, ending, lexed, spelled, inner⟩ := h.cuts.tokenize
  have document : Document.ofText text = ⟨⟨tokens, []⟩, ending⟩ := by
    rw [Document.ofText, lexed, Document.ofTokens_append_ending ending inner]
  obtain ⟨e', read, copy⟩ := h.reads.expression ⟨ending, fun _ => false⟩ tokens []
    (fun _ => rfl) spelled rfl
  rw [List.append_nil] at read
  obtain ⟨t, ts, rfl⟩ : ∃ t ts, tokens = t :: ts := by
    obtain ⟨c, g, -, first, -⟩ := h.starts
    cases tokens with
    | nil =>
      rw [← spelled] at first
      cases first
    | cons t ts => exact ⟨t, ts, rfl⟩
  -- the first token opens an expression, so no ends of statements are skipped before it
  have start : Document.atStatement ⟨t :: ts, []⟩ = ⟨t :: ts, []⟩ := by
    have opened : opens t.kind = true := opens_of_expression read
    rw [Document.atStatement, List.dropWhile_cons_of_neg]
    intro ended
    rw [of_decide_eq_true ended] at opened
    cases opened
  refine ⟨e', ?_, copy.same⟩
  rw [TexAlgebra.parse, document]
  refine Document.statements_eq_singleton [] ?_ ?_
  · rw [start]
    exact List.cons_ne_nil t ts
  · rw [start, Parser.expression_eq_full]
    exact read

/-- An expression without signs is written without a fault, and its text is read as one statement,
which is that expression. -/
theorem Expr.parse_tex {inline : Bool} {e : Expr} (h : SignFree ⟨inline, false⟩ e) :
    ∃ text e', e.tex ⟨inline, false⟩ = .ok text ∧ parse text = [.ok e'] ∧ (e' == e) = true := by
  obtain ⟨text, gs, written, writes⟩ := h.writes
  obtain ⟨e', read, same⟩ := writes.parse
  exact ⟨text, e', written, read, same⟩

/-- A sum of a product and a control word is read back from its text. -/
theorem Expr.parse_tex_sum :
    SignFree .display (.binary .plus
      (.binary .juxtaposed (.number "0.50" none) (.var "x" [.var "i" [] none] none) none)
      (.command "\\alpha" [.group [.var "y" [] none] none, .group [] none] none) none) ∧
    ∃ e', parse "0.50x_\x7bi\x7d + \\alpha\x7b y \x7d\x7b  \x7d" = [.ok e'] ∧
      (e' == .binary .plus
        (.binary .juxtaposed (.number "0.50" none) (.var "x" [.var "i" [] none] none) none)
        (.command "\\alpha" [.group [.var "y" [] none] none, .group [] none] none) none) =
          true := by
  have half : SignFree .display (.number "0.50" none) :=
    .number ⟨['0'], ['5', '0'], ⟨⟨by decide, List.all_eq_true.1 rfl, by decide⟩, by decide⟩, rfl⟩
  have i : SignFree .display (.var "i" [] none) := .var ⟨by decide, List.all_eq_true.1 rfl⟩ .nil
  have x : SignFree .display (.var "x" [.var "i" [] none] none) :=
    .var ⟨by decide, List.all_eq_true.1 rfl⟩ (.cons i .nil)
  have y : SignFree .display (.var "y" [] none) := .var ⟨by decide, List.all_eq_true.1 rfl⟩ .nil
  have alpha : SignFree .display
      (.command "\\alpha" [.group [.var "y" [] none] none, .group [] none] none) :=
    .command ⟨rfl, ['a', 'l', 'p', 'h', 'a'], rfl, by decide, List.all_eq_true.1 rfl⟩
      (.single y (.empty .nil))
  have product : SignFree .display (.binary .juxtaposed (.number "0.50" none)
      (.var "x" [.var "i" [] none] none) none) := .binary half x rfl fun _ => by rfl
  have free := @SignFree.binary .display .plus _ _ none product alpha rfl nofun
  obtain ⟨text, e', written, read, same⟩ := parse_tex free
  have spelled : text = "0.50x_\x7bi\x7d + \\alpha\x7b y \x7d\x7b  \x7d" :=
    Except.ok.inj (written.symm.trans (by rfl))
  exact ⟨free, e', spelled ▸ read, same⟩

end TexAlgebra
