import TexAlgebra.Proofs.Grammar.Fixpoint
import TexAlgebra.Proofs.Token.Pieces
/-!
# What tokens are read as

Whether some tokens are read as an expression depends on what follows them: an operator that binds
tightly takes their end as its left operand. `Grammar.ReadsAs e p q gs` says that the tokens with
the kinds and texts `gs` are read as `e` wherever no operator follows that binds tighter than `p`,
by anything that goes on with operators of precedence `q` or less. Every way to build an expression
has a lemma that puts the tokens of its parts together, so that whole texts can be read without
running the grammar on them.

What is read equals the expression up to the tokens that the nodes carry.
-/

namespace TexAlgebra

namespace Grammar

open TexAlgebra.Parser

/-! ## What may follow -/

/-- Whether `token` can follow an expression that ends before every operator of a precedence of at
most `p`. Subscripts and groups would belong to the expression. -/
structure Follows (p : Nat) (token : Token) : Prop where
  subscript : token.kind ≠ .subscript
  braceOpen : token.kind ≠ .braceOpen
  loose : ∀ op, operatorAt? token = some op → op.precedence ≤ p

/-- What may follow tighter operators may follow looser ones. -/
theorem Follows.mono {p q : Nat} {token : Token} (h : Follows p token) (le : p ≤ q) :
    Follows q token :=
  ⟨h.subscript, h.braceOpen, fun op seen => (h.loose op seen).trans le⟩

/-- Whether a token ends every expression before it. -/
def closes (token : Token) : Bool :=
  token.kind = .parenClose ∨ token.kind = .braceClose ∨ token.kind = .comma ∨
    token.kind = .endOfText

/-- What closes may follow any operator. -/
theorem follows_of_closes {token : Token} (h : closes token = true) (p : Nat) :
    Follows p token := by
  rw [closes, decide_eq_true_iff] at h
  refine ⟨?_, ?_, ?_⟩
  · intro kind
    simp [kind] at h
  · intro kind
    simp [kind] at h
  · intro op seen
    rcases h with h | h | h | h <;> simp [operatorAt?, h] at seen

/-! ## Reading -/

/-- Whether `e'` equals `e` and does not end the expression that it stands in. -/
structure IsCopy (e' e : Expr) : Prop where
  same : e'.same e = true
  plain : endsStatement e' = false

/-- Whether the tokens `gs` are read as `e` wherever no operator follows that binds tighter than
`p`: an operand is read first, and any chain of operators that starts with it and takes those of
precedence `q` goes on as if `e` had been read. -/
def ReadsAs (e : Expr) (p q : Nat) (gs : List Glyph) : Prop :=
  ∀ (context : Context) (tokens rest : List Token), (∀ x, context.known x = false) →
    tokens.map Token.glyph = gs → Follows p (Cursor.token context ⟨rest, []⟩) →
      ∃ first middle e', full.operand context ⟨tokens ++ rest, []⟩ = .done first middle ∧
        endsStatement first = false ∧ IsCopy e' e ∧
          ∀ least ≤ q, full.operators first least context middle =
            full.operators e' least context ⟨rest, []⟩

/-- Whether the tokens `gs` are one operand, which is `e`. -/
def IsOperand (e : Expr) (gs : List Glyph) : Prop :=
  ∀ (context : Context) (tokens rest : List Token), (∀ x, context.known x = false) →
    tokens.map Token.glyph = gs → (Cursor.token context ⟨rest, []⟩).kind ≠ .subscript →
      (Cursor.token context ⟨rest, []⟩).kind ≠ .braceOpen →
        ∃ e', full.operand context ⟨tokens ++ rest, []⟩ = .done e' ⟨rest, []⟩ ∧ IsCopy e' e

/-- Whether `parser` reads the tokens `gs` as the expressions `es` if it is `free` to stop at the
token that follows. -/
def ReadsList (parser : Parser (List Expr)) (free : TokenKind → Prop) (es : List Expr)
    (gs : List Glyph) : Prop :=
  ∀ (context : Context) (tokens rest : List Token), (∀ x, context.known x = false) →
    tokens.map Token.glyph = gs → free (Cursor.token context ⟨rest, []⟩).kind →
      ∃ es', parser context ⟨tokens ++ rest, []⟩ = .done es' ⟨rest, []⟩ ∧
        Expr.sameAll es' es = true

/-- An operand is read whatever stands around it. -/
theorem IsOperand.readsAs {e : Expr} {gs : List Glyph} (h : IsOperand e gs) (p q : Nat) :
    ReadsAs e p q gs := by
  intro context tokens rest unknown spelled follows
  obtain ⟨e', read, copy⟩ := h context tokens rest unknown spelled follows.subscript
    follows.braceOpen
  exact ⟨e', _, e', read, copy.plain, copy, fun _ _ => rfl⟩

/-- What is read before tighter operators is read before looser ones. -/
theorem ReadsAs.mono {e : Expr} {p p' q q' : Nat} {gs : List Glyph} (h : ReadsAs e p q gs)
    (le : p' ≤ p) (le' : q' ≤ q) : ReadsAs e p' q' gs := by
  intro context tokens rest unknown spelled follows
  obtain ⟨first, middle, e', read, plain, copy, chain⟩ :=
    h context tokens rest unknown spelled (follows.mono le)
  exact ⟨first, middle, e', read, plain, copy, fun least few => chain least (few.trans le')⟩

/-- An expression is read as a whole if nothing that follows belongs to it. -/
theorem ReadsAs.whole {e : Expr} {p q : Nat} {gs : List Glyph} (h : ReadsAs e p q gs)
    (context : Context) (tokens rest : List Token) (unknown : ∀ x, context.known x = false)
    (spelled : tokens.map Token.glyph = gs)
    (follows : Follows 0 (Cursor.token context ⟨rest, []⟩)) :
    ∃ e', full.expression context ⟨tokens ++ rest, []⟩ = .done e' ⟨rest, []⟩ ∧ IsCopy e' e := by
  obtain ⟨first, middle, e', read, plain, copy, chain⟩ :=
    h context tokens rest unknown spelled (follows.mono (Nat.zero_le p))
  refine ⟨e', ?_, copy⟩
  -- the chain that starts with the first operand goes on as if `e'` had been read, and ends at once
  rw [full_expression, bind_of_done read, plain]
  show full.operators first 0 context middle = _
  rw [chain 0 (Nat.zero_le q)]
  exact full_operators_of_lt fun op seen => absurd (follows.loose op seen) (by cases op <;> decide)

/-- So it is if what follows ends every expression. -/
theorem ReadsAs.expression {e : Expr} {p q : Nat} {gs : List Glyph} (h : ReadsAs e p q gs)
    (context : Context) (tokens rest : List Token) (unknown : ∀ x, context.known x = false)
    (spelled : tokens.map Token.glyph = gs)
    (closed : closes (Cursor.token context ⟨rest, []⟩) = true) :
    ∃ e', full.expression context ⟨tokens ++ rest, []⟩ = .done e' ⟨rest, []⟩ ∧ IsCopy e' e :=
  h.whole context tokens rest unknown spelled (follows_of_closes closed 0)

/-- Whether an operand can start with a token of this kind. -/
def opens (kind : TokenKind) : Bool :=
  match kind with
  | .controlWord | .operator _ | .identifier | .number | .parenOpen => true
  | _ => false

/-- An operand starts with a token that opens one. -/
theorem opens_of_operand {context : Context} {cursor after : Cursor} {e : Expr}
    (read : full.operand context cursor = .done e after) :
    opens (cursor.token context).kind = true := by
  rw [full_operand, operandStep, peek_bind] at read
  cases kind : (cursor.token context).kind with
  | controlWord => rfl
  | operator op => rfl
  | identifier => rfl
  | number => rfl
  | parenOpen => rfl
  | _ =>
    rw [kind] at read
    cases read

/-- Tokens are known by their glyphs, up to their places. -/
theorem exists_of_map_cons {tokens : List Token} {kind : TokenKind} {text : String}
    {gs : List Glyph} (h : tokens.map Token.glyph = (kind, text) :: gs) :
    ∃ place later, tokens = ⟨kind, place, text⟩ :: later ∧ later.map Token.glyph = gs := by
  obtain ⟨⟨kind', place, text'⟩, later, rfl, glyph, spelled⟩ := List.map_eq_cons_iff.1 h
  cases glyph
  exact ⟨place, later, rfl, spelled⟩

theorem exists_of_map_singleton {tokens : List Token} {kind : TokenKind} {text : String}
    (h : tokens.map Token.glyph = [(kind, text)]) : ∃ place, tokens = [⟨kind, place, text⟩] := by
  obtain ⟨place, later, rfl, none⟩ := exists_of_map_cons h
  exact ⟨place, by rw [List.map_eq_nil_iff.1 none]⟩

/-! ## Operands -/

/-- A number is an operand. -/
theorem isOperand_number (text : String) (token : Option Token) :
    IsOperand (.number text token) [(.number, text)] := by
  intro context tokens rest _ spelled _ _
  obtain ⟨place, rfl⟩ := exists_of_map_singleton spelled
  have same : (text == text) = true := beq_self_eq_true text
  refine ⟨.number text (some ⟨.number, place, text⟩), ?_, same, rfl⟩
  rw [full_operand, operandStep, peek_bind]
  rfl

/-- Parentheses make an operand of an expression. -/
theorem ReadsAs.parenthesized {e : Expr} {p q : Nat} {gs : List Glyph} (h : ReadsAs e p q gs) :
    IsOperand e ((.parenOpen, "(") :: (gs ++ [(.parenClose, ")")])) := by
  intro context tokens rest unknown spelled _ _
  obtain ⟨place, later, rfl, spelled'⟩ := exists_of_map_cons spelled
  obtain ⟨inner, last, rfl, inside, closing⟩ := List.map_eq_append_iff.1 spelled'
  obtain ⟨place', rfl⟩ := exists_of_map_singleton closing
  obtain ⟨e', read, copy⟩ :=
    h.expression context inner (⟨.parenClose, place', ")"⟩ :: rest) unknown inside rfl
  refine ⟨e', ?_, copy⟩
  rw [List.cons_append, List.append_assoc, full_operand]
  show Grammar.parenthesized full context _ = _
  rw [Grammar.parenthesized, next_bind]
  exact bind_of_done read _

/-- A name with its subscripts is an operand, since no function is known. -/
theorem isOperand_var {name : String} {subscripts : List Expr} {gs : List Glyph}
    (h : ReadsList full.subscripts (· ≠ .subscript) subscripts gs) (token : Option Token) :
    IsOperand (.var name subscripts token) ((.identifier, name) :: gs) := by
  intro context tokens rest unknown spelled free _
  obtain ⟨place, later, rfl, spelled'⟩ := exists_of_map_cons spelled
  obtain ⟨subscripts', read, same⟩ := h context later rest unknown spelled' free
  refine ⟨.var name subscripts' (some ⟨.identifier, place, name⟩), ?_, ?_, rfl⟩
  · have x : identifier full context ⟨⟨.identifier, place, name⟩ :: (later ++ rest), []⟩ =
        .done (.var name subscripts' (some ⟨.identifier, place, name⟩)) ⟨rest, []⟩ := by
      rw [identifier, next_bind]
      exact bind_of_done read _
    rw [full_operand]
    show Grammar.name full context _ = _
    rw [Grammar.name]
    refine (bind_of_done x _).trans ?_
    rw [sees_bind]
    split
    · rfl
    · show (if !(false || context.known _) then _ else _ : Parser Expr) context _ = _
      rw [unknown]
      rfl
  · exact Bool.and_eq_true_iff.2 ⟨beq_self_eq_true name, same⟩

/-- Without a mark no subscripts are read. -/
theorem readsList_no_subscripts : ReadsList full.subscripts (· ≠ .subscript) [] [] := by
  intro context tokens rest _ spelled free
  obtain rfl := List.map_eq_nil_iff.1 spelled
  refine ⟨[], ?_, rfl⟩
  rw [full_subscripts, subscriptsStep, sees_bind]
  simp only [List.nil_append, free, decide_false]
  rfl

/-- The items of a group behind the mark are read as subscripts. -/
theorem readsList_subscripts {es : List Expr} {gs : List Glyph}
    (h : ReadsList (full.items true) (fun _ => True) es gs) :
    ReadsList full.subscripts (· ≠ .subscript) es
      ((.subscript, "_") :: (.braceOpen, "\x7b") :: gs) := by
  intro context tokens rest unknown spelled free
  obtain ⟨place, later, rfl, spelled'⟩ := exists_of_map_cons spelled
  obtain ⟨place', inner, rfl, inside⟩ := exists_of_map_cons spelled'
  obtain ⟨es', read, same⟩ := h context inner rest unknown inside trivial
  obtain ⟨none, stop, empty⟩ := readsList_no_subscripts context [] rest unknown rfl free
  obtain rfl : none = [] := by
    cases none with
    | nil => rfl
    | cons e es => cases empty
  refine ⟨es', ?_, same⟩
  rw [full_subscripts, subscriptsStep, sees_bind]
  show (full.items true >>= _) context ⟨inner ++ rest, []⟩ = _
  rw [bind_of_done read]
  refine (bind_of_done stop _).trans ?_
  rw [List.append_nil]
  rfl

/-! ## Lists -/

/-- A closing brace ends the items. -/
theorem readsList_no_items (commas : Bool) :
    ReadsList (full.items commas) (fun _ => True) [] [(.braceClose, "\x7d")] := by
  intro context tokens rest _ spelled _
  obtain ⟨place, rfl⟩ := exists_of_map_singleton spelled
  refine ⟨[], ?_, rfl⟩
  rw [full_items]
  rfl

/-- What opens an operand starts an item. -/
theorem full_items_of_opens {commas : Bool} {context : Context} {cursor : Cursor}
    (h : opens (cursor.token context).kind = true) :
    full.items commas context cursor = (do
      let e ← full.expression
      return e :: (← full.items commas) : Parser (List Expr)) context cursor := by
  -- a token that opens an operand is not among those at which the list looks first
  have kept : cursor.rest.dropWhile (·.kind = .endOfStatement) = cursor.rest := by
    obtain ⟨rest, functions⟩ := cursor
    cases rest with
    | nil => rfl
    | cons t rest =>
      refine List.dropWhile_cons_of_neg fun ended => ?_
      rw [show Cursor.token context ⟨t :: rest, functions⟩ = t from rfl,
        of_decide_eq_true ended] at h
      cases h
  have skipped : skipEnds context cursor = .done () cursor := by
    rw [skipEnds, kept]
  have unfolded : full.expression = expressionStep full := congrArg expression full_eq_step
  have start : full.items commas context cursor = itemsStep full commas context cursor := by
    rw [← full_items]
  have other : ∀ kind, opens kind = false → (cursor.token context).kind ≠ kind := by
    rintro kind shut rfl
    rw [shut] at h
    cases h
  rw [start, itemsStep, bind_of_done skipped, peek_bind, if_neg (other _ rfl),
    if_neg (other _ rfl), if_neg (by simp [other .comma rfl]), unfolded]

/-- An expression starts with a token that opens an operand. -/
theorem opens_of_expression {context : Context} {cursor after : Cursor} {e : Expr}
    (read : full.expression context cursor = .done e after) :
    opens (cursor.token context).kind = true := by
  rw [full_expression] at read
  obtain ⟨first, middle, read, -⟩ := done_of_bind read
  exact opens_of_operand read

/-- An item is read up to the comma, the closing brace or the control word behind it. -/
theorem ReadsAs.readsList_items {e : Expr} {es : List Expr} {p q : Nat} {gs hs : List Glyph}
    {g : Glyph} {commas : Bool} (h : ReadsAs e p q gs)
    (later : ReadsList (full.items commas) (fun _ => True) es (g :: hs))
    (ended : g.1 = .comma ∨ g.1 = .braceClose ∨ g.1 = .controlWord) :
    ReadsList (full.items commas) (fun _ => True) (e :: es) (gs ++ g :: hs) := by
  intro context tokens rest unknown spelled _
  obtain ⟨ts, us, rfl, spelled_e, spelled_es⟩ := List.map_eq_append_iff.1 spelled
  obtain ⟨es', read_es, same_es⟩ := later context us rest unknown spelled_es trivial
  obtain ⟨place, us, rfl, -⟩ := exists_of_map_cons spelled_es
  have follows : Follows 0 ⟨g.1, place, g.2⟩ := by
    refine ⟨?_, ?_, fun op seen => ?_⟩
    all_goals rcases ended with same | same | same <;> simp_all [operatorAt?]
  obtain ⟨e', read_e, copy⟩ :=
    h.whole context ts (⟨g.1, place, g.2⟩ :: us ++ rest) unknown spelled_e follows
  refine ⟨e' :: es', ?_, Bool.and_eq_true_iff.2 ⟨copy.same, same_es⟩⟩
  rw [List.append_assoc, full_items_of_opens (opens_of_expression read_e), bind_of_done read_e,
    bind_of_done read_es]
  rfl

/-- Commas between items are skipped. -/
theorem readsList_comma {es : List Expr} {gs : List Glyph}
    (h : ReadsList (full.items true) (fun _ => True) es gs) :
    ReadsList (full.items true) (fun _ => True) es ((.comma, ",") :: gs) := by
  intro context tokens rest unknown spelled _
  obtain ⟨place, later, rfl, spelled'⟩ := exists_of_map_cons spelled
  obtain ⟨es', read, same⟩ := h context later rest unknown spelled' trivial
  refine ⟨es', ?_, same⟩
  have start : full.items true = itemsStep full true := full_items true
  rw [start]
  exact read

/-- Without a brace no groups are read. -/
theorem readsList_no_groups : ReadsList full.groups (· ≠ .braceOpen) [] [] := by
  intro context tokens rest _ spelled free
  obtain rfl := List.map_eq_nil_iff.1 spelled
  refine ⟨[], ?_, rfl⟩
  rw [full_groups, groupsStep, sees_bind]
  simp only [List.nil_append, free, decide_false]
  rfl

/-- A group is read before those behind it. -/
theorem readsList_groups {es groups : List Expr} {gs hs : List Glyph} (token : Option Token)
    (items : ReadsList (full.items false) (fun _ => True) es gs)
    (later : ReadsList full.groups (· ≠ .braceOpen) groups hs) :
    ReadsList full.groups (· ≠ .braceOpen) (.group es token :: groups)
      ((.braceOpen, "\x7b") :: (gs ++ hs)) := by
  intro context tokens rest unknown spelled free
  obtain ⟨place, ts, rfl, spelled'⟩ := exists_of_map_cons spelled
  obtain ⟨ts, us, rfl, spelled_es, spelled_groups⟩ := List.map_eq_append_iff.1 spelled'
  obtain ⟨es', read_es, same_es⟩ := items context ts (us ++ rest) unknown spelled_es trivial
  obtain ⟨groups', read, same⟩ := later context us rest unknown spelled_groups free
  refine ⟨.group es' (some ⟨.braceOpen, place, "\x7b"⟩) :: groups', ?_,
    Bool.and_eq_true_iff.2 ⟨same_es, same⟩⟩
  rw [List.cons_append, List.append_assoc, full_groups, groupsStep, sees_bind]
  show (full.items false >>= _) context _ = _
  refine (bind_of_done read_es _).trans ?_
  exact bind_of_done read _

/-! ## Control words -/

theorem exists_of_sameAll_cons {as bs : List Expr} {b : Expr}
    (h : Expr.sameAll as (b :: bs) = true) :
    ∃ a later, as = a :: later ∧ a.same b = true ∧ Expr.sameAll later bs = true := by
  cases as with
  | nil => cases h
  | cons a later => exact ⟨a, later, rfl, Bool.and_eq_true_iff.1 h⟩

theorem eq_nil_of_sameAll {as : List Expr} (h : Expr.sameAll as [] = true) : as = [] := by
  cases as with
  | nil => rfl
  | cons a later => cases h

theorem exists_of_same_group {e item : Expr} {token : Option Token}
    (h : e.same (.group [item] token) = true) :
    ∃ item' token', e = .group [item'] token' ∧ item'.same item = true := by
  cases e with
  | group items token' =>
    obtain ⟨item', none, rfl, same, empty⟩ := exists_of_sameAll_cons h
    obtain rfl := eq_nil_of_sameAll empty
    exact ⟨item', token', rfl, same⟩
  | _ => cases h

/-- A control word is an operand with what stands behind it. -/
theorem full_operand_controlWord {name : String} (h : name ≠ "\\end") (place : Position)
    (rest : List Token) (context : Context) :
    full.operand context ⟨⟨.controlWord, place, name⟩ :: rest, []⟩ =
      afterControlWord full ⟨.controlWord, place, name⟩ context ⟨rest, []⟩ := by
  rw [full_operand]
  show controlWord full context _ = _
  rw [controlWord, peek_bind]
  show (if name = "\\end" then _ else _ : Parser Expr) context _ = _
  rw [if_neg h]
  rfl

/-- Two groups of one item each are a fraction behind its control word. -/
theorem isOperand_fraction {l r : Expr} {t u : Option Token} {gs : List Glyph}
    (h : ReadsList full.groups (· ≠ .braceOpen) [.group [l] t, .group [r] u] gs)
    (token : Option Token) :
    IsOperand (.binary .divide l r token) ((.controlWord, "\\frac") :: gs) := by
  intro context tokens rest unknown spelled _ free
  obtain ⟨place, later, rfl, spelled'⟩ := exists_of_map_cons spelled
  obtain ⟨groups, read, same⟩ := h context later rest unknown spelled' free
  obtain ⟨a, groups, rfl, same_a, same⟩ := exists_of_sameAll_cons same
  obtain ⟨b, groups, rfl, same_b, same⟩ := exists_of_sameAll_cons same
  obtain rfl := eq_nil_of_sameAll same
  obtain ⟨l', t', rfl, same_l⟩ := exists_of_same_group same_a
  obtain ⟨r', u', rfl, same_r⟩ := exists_of_same_group same_b
  have same : (Operator.divide.alike .divide && l'.same l && r'.same r) = true := by
    rw [same_l, same_r]
    rfl
  refine ⟨.binary .divide l' r' (some ⟨.controlWord, place, "\\frac"⟩), ?_, same, rfl⟩
  rw [List.cons_append, full_operand_controlWord (by decide)]
  show fraction full _ context _ = _
  exact bind_of_done read _

/-- Whether a control word starts a construct of its own. -/
def isReserved (name : String) : Bool :=
  ["\\begin", "\\end", "\\func", "\\frac", "\\let"].contains name

/-- A control word that is not reserved is an operand with its groups. -/
theorem isOperand_command {name : String} {arguments : List Expr} {gs : List Glyph}
    (free_name : isReserved name = false)
    (h : ReadsList full.groups (· ≠ .braceOpen) arguments gs) (token : Option Token) :
    IsOperand (.command name arguments token) ((.controlWord, name) :: gs) := by
  intro context tokens rest unknown spelled _ free
  obtain ⟨place, later, rfl, spelled'⟩ := exists_of_map_cons spelled
  obtain ⟨arguments', read, same⟩ := h context later rest unknown spelled' free
  refine ⟨.command name arguments' (some ⟨.controlWord, place, name⟩), ?_,
    Bool.and_eq_true_iff.2 ⟨beq_self_eq_true name, same⟩, rfl⟩
  have open_name : name ≠ "\\end" := by
    rintro rfl
    cases free_name
  rw [List.cons_append, full_operand_controlWord open_name]
  unfold afterControlWord
  dsimp only
  split
  · cases free_name
  · cases free_name
  · cases free_name
  · cases free_name
  · exact bind_of_done read _

/-! ## Chains -/

/-- Whether `glue` stands for the operator `op` in front of the tokens `gs` of an operand: it is the
sign of `op`, or nothing where the operand by itself implies a product. -/
inductive Glues (gs : List Glyph) : Operator → List Glyph → Prop
  | sign (op : Operator) : Glues gs op [(.operator op, op.sign)]
  | nothing (g : Glyph) (first : gs.head? = some g)
      (operand : g.1 = .identifier ∨ g.1 = .number ∨ g.1 = .parenOpen) : Glues gs .juxtaposed []

/-- Where an operand is glued to what precedes it, its operator is seen and can be taken. -/
theorem Glues.operatorToken {op : Operator} {glue gs : List Glyph} (h : Glues gs op glue)
    (context : Context) (rest : List Token) {tokens : List Token}
    (spelled : tokens.map Token.glyph = glue ++ gs) :
    Follows op.precedence (Cursor.token context ⟨tokens ++ rest, []⟩) ∧
      operatorAt? (Cursor.token context ⟨tokens ++ rest, []⟩) = some op ∧
        ∃ token later, later.map Token.glyph = gs ∧
          Grammar.operatorToken context ⟨tokens ++ rest, []⟩ = .done token ⟨later ++ rest, []⟩ := by
  cases h with
  | sign op =>
    obtain ⟨place, later, rfl, spelled'⟩ := exists_of_map_cons spelled
    refine ⟨⟨by simp [Cursor.token], by simp [Cursor.token], ?_⟩, rfl, _, later, spelled', rfl⟩
    intro op' seen
    cases seen
    exact Nat.le_refl _
  | nothing g first operand =>
    obtain ⟨kind, text⟩ := g
    obtain ⟨gs', rfl⟩ : ∃ gs', gs = (kind, text) :: gs' := by
      cases gs with
      | nil => cases first
      | cons g gs' =>
        cases first
        exact ⟨gs', rfl⟩
    obtain ⟨place, later, rfl, -⟩ := exists_of_map_cons spelled
    -- nothing is written, so the token of the operand itself is seen as a product
    rcases operand with rfl | rfl | rfl
    all_goals
      refine ⟨⟨by simp [Cursor.token], by simp [Cursor.token], ?_⟩, rfl, _, _, spelled, rfl⟩
      intro op' seen
      cases seen
      exact Nat.le_refl _

/-- Whether the tokens `gs` behind an expression are read as operators and operands that make it
grow as `grow` says, wherever no operator follows that binds tighter than `p`. The first operator is
`op`, and the others have its precedence. -/
structure Extends (grow : Expr → Expr) (op : Operator) (p : Nat) (gs : List Glyph) : Prop where
  follows : ∀ (context : Context) (tokens rest : List Token), tokens.map Token.glyph = gs →
    Follows op.precedence (Cursor.token context ⟨tokens ++ rest, []⟩)
  reads : ∀ (context : Context) (tokens rest : List Token) (e' e : Expr),
    (∀ x, context.known x = false) → tokens.map Token.glyph = gs →
      Follows p (Cursor.token context ⟨rest, []⟩) → IsCopy e' e →
        ∃ r, IsCopy r (grow e) ∧ ∀ least ≤ op.precedence,
          full.operators e' least context ⟨tokens ++ rest, []⟩ =
            full.operators r least context ⟨rest, []⟩

/-- A right operand that binds tighter than its operator extends what precedes the operator to an
operation. -/
theorem ReadsAs.extends {op : Operator} {r : Expr} {p : Nat} {glue hs : List Glyph}
    (glued : Glues hs op glue) (right : ReadsAs r p (op.precedence + 1) hs)
    (le : p ≤ op.precedence) (token : Option Token) :
    Extends (fun l => .binary op l r token) op p (glue ++ hs) where
  follows context tokens rest spelled := (glued.operatorToken context rest spelled).1
  reads context tokens rest l' l unknown spelled follows copy_l := by
    obtain ⟨-, seen, sign, later, spelled_r, taken⟩ := glued.operatorToken context rest spelled
    obtain ⟨second, middle, r', read_r, plain_r, copy_r, chain_r⟩ :=
      right context later rest unknown spelled_r follows
    -- what follows the operation is too loose for its right operand
    have ended : full.operators r' (op.precedence + 1) context ⟨rest, []⟩ = .done r' ⟨rest, []⟩ :=
      full_operators_of_lt fun op' seen' => Nat.lt_succ_of_le ((follows.loose op' seen').trans le)
    have same : (op.alike op && l'.same l && r'.same r) = true := by
      rw [Operator.alike_refl, copy_l.same, copy_r.same]
      rfl
    refine ⟨.binary op l' r' (some sign), ⟨same, rfl⟩, fun least tight => ?_⟩
    -- the turn of the loop that takes `op` reads the right operand
    rw [full_operators_of_le seen tight, bind_of_done taken, bind_of_done read_r, plain_r]
    exact bind_of_done ((chain_r _ (Nat.le_refl _)).trans ended) _

/-- Operators of one precedence extend an expression one after the other. -/
theorem Extends.append {grow grow' : Expr → Expr} {op op' : Operator} {p p' : Nat}
    {gs hs : List Glyph} (first : Extends grow op p gs) (second : Extends grow' op' p' hs)
    (same : op'.precedence = op.precedence) (le : op'.precedence ≤ p) :
    Extends (fun e => grow' (grow e)) op p' (gs ++ hs) where
  follows context tokens rest spelled := by
    obtain ⟨ts, us, rfl, spelled, -⟩ := List.map_eq_append_iff.1 spelled
    rw [List.append_assoc]
    exact first.follows context ts (us ++ rest) spelled
  reads context tokens rest e' e unknown spelled follows copy := by
    obtain ⟨ts, us, rfl, spelled, spelled'⟩ := List.map_eq_append_iff.1 spelled
    have between := (second.follows context us rest spelled').mono le
    obtain ⟨r, copy_r, chain⟩ :=
      first.reads context ts (us ++ rest) e' e unknown spelled between copy
    obtain ⟨r', copy_r', chain'⟩ :=
      second.reads context us rest r (grow e) unknown spelled' follows copy_r
    refine ⟨r', copy_r', fun least tight => ?_⟩
    rw [List.append_assoc, chain least tight, chain' least (tight.trans same.ge)]

/-- Operators that follow an operand of at least their precedence extend it. -/
theorem ReadsAs.extended {grow : Expr → Expr} {op : Operator} {l : Expr} {p : Nat}
    {gs hs : List Glyph} (left : ReadsAs l op.precedence op.precedence gs)
    (right : Extends grow op p hs) : ReadsAs (grow l) p op.precedence (gs ++ hs) := by
  intro context tokens rest unknown spelled follows
  obtain ⟨ts, us, rfl, spelled_l, spelled_r⟩ := List.map_eq_append_iff.1 spelled
  obtain ⟨first, middle, l', read, plain, copy, chain⟩ :=
    left context ts (us ++ rest) unknown spelled_l (right.follows context us rest spelled_r)
  obtain ⟨r, copy_r, chain'⟩ := right.reads context us rest l' l unknown spelled_r follows copy
  refine ⟨first, middle, r, ?_, plain, copy_r, fun least tight => ?_⟩
  · rw [List.append_assoc]
    exact read
  · rw [chain least tight, chain' least tight]

/-! ## Signs -/

/-- A sign takes in the powers behind its operand, so that none may follow it. -/
theorem ReadsAs.unary {op : Operator} {e : Expr} {p : Nat} {gs : List Glyph}
    (sign : op.isSign = true) (operand : ReadsAs e p Operator.power.precedence gs)
    (loose : p < Operator.power.precedence) (token : Option Token) (q : Nat) :
    ReadsAs (.unary op e token) p q ((.operator op, op.sign) :: gs) := by
  intro context tokens rest unknown spelled follows
  obtain ⟨place, later, rfl, spelled'⟩ := exists_of_map_cons spelled
  obtain ⟨first, middle, e', read, plain, copy, chain⟩ :=
    operand context later rest unknown spelled' follows
  have ended : full.operators e' Operator.power.precedence context ⟨rest, []⟩ =
      .done e' ⟨rest, []⟩ :=
    full_operators_of_lt fun op' seen => (follows.loose op' seen).trans_lt loose
  have same : (op.alike op && e'.same e) = true := by
    rw [Operator.alike_refl, copy.same]
    rfl
  refine ⟨_, ⟨rest, []⟩, .unary op e' (some ⟨.operator op, place, op.sign⟩), ?_, rfl,
    ⟨same, rfl⟩, fun _ _ => rfl⟩
  have step : full.operand context ⟨⟨.operator op, place, op.sign⟩ :: (later ++ rest), []⟩ =
      signed full full.operand context ⟨⟨.operator op, place, op.sign⟩ :: (later ++ rest), []⟩ := by
    conv_lhs => rw [full_operand, operandStep, peek_bind]
    rfl
  rw [List.cons_append, step, signed, next_bind]
  show (if op.isSign then _ else _ : Parser Expr) context ⟨later ++ rest, []⟩ = _
  rw [if_pos sign, bind_of_done read, plain]
  exact bind_of_done ((chain _ (Nat.le_refl _)).trans ended) _

end Grammar

end TexAlgebra
