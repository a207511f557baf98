import TexAlgebra.Expr.Printer
import TexAlgebra.Proofs.Grammar.Reading
/-!
# Chains of operands

Operands with operators between them, each behind any number of signs, make up a chain. How the
operands of a chain are grouped depends on how tightly its operators bind, but every chain is read
as one expression (`Grammar.IsChain.exists_reads`): an operator that is too loose for the operand on
its left is left to whoever asked for that operand, and in the end nobody is left to be asked.

Chains in a row are read one after the other where a control word parts them, and as a longer chain
where none does (`Grammar.IsSeries`).
-/

namespace TexAlgebra

namespace Grammar

open TexAlgebra.Parser

variable {gs hs : List Glyph} {op : Operator} {glue : List Glyph} {e l r : Expr} {least : Nat}

/-! ## Chains -/

/-- Whether an operand without a sign can start with a token of this kind. -/
def opensUnit : TokenKind → Bool
  | .controlWord | .identifier | .number | .parenOpen => true
  | _ => false

/-- Whether the tokens are an operand without a sign, whatever operators stand around them. -/
structure IsUnit (gs : List Glyph) : Prop where
  reads : ∃ e, ReadsAs e Printer.tightest Printer.tightest gs
  first : ∃ g, gs.head? = some g ∧ opensUnit g.1 = true

/-- Whether the tokens are operands with operators between them, each with signs before it or none.
-/
inductive IsChain : List Glyph → Prop
  | unit {gs : List Glyph} (unit : IsUnit gs) : IsChain gs
  | sign {op : Operator} {gs : List Glyph} (sign : op.isSign = true) (operand : IsChain gs) :
    IsChain ((.operator op, op.sign) :: gs)
  | operation {gs : List Glyph} {op : Operator} {glue hs : List Glyph} (unit : IsUnit gs)
      (glued : Glues hs op glue) (later : IsChain hs) : IsChain (gs ++ (glue ++ hs))

/-- Whether the tokens go on with a chain: they are an operator and a chain, or none at all. -/
inductive IsTail : List Glyph → Prop
  | nil : IsTail []
  | cons {op : Operator} {glue gs : List Glyph} (glued : Glues gs op glue) (later : IsChain gs) :
    IsTail (glue ++ gs)

/-- What glues an operand to the one before it does so whatever comes behind the operand. -/
theorem Glues.append (h : Glues gs op glue) (hs : List Glyph) : Glues (gs ++ hs) op glue := by
  cases h with
  | sign => exact .sign op
  | nothing g first operand =>
    refine .nothing g ?_ operand
    rw [List.head?_append, first]
    rfl

/-- Two chains with an operator between them are a chain. -/
theorem IsChain.append (first : IsChain gs) (glued : Glues hs op glue) (second : IsChain hs) :
    IsChain (gs ++ (glue ++ hs)) := by
  induction first with
  | unit unit => exact .operation unit glued second
  | sign sign _ ih => exact .sign sign ih
  | operation unit glued' _ ih =>
    rw [List.append_assoc, List.append_assoc]
    exact .operation unit (glued'.append _) ih

/-! ## How chains are read -/

/-- Whether the tokens `gs` start with an operand that is read as `e`, and those of `hs` are left of
them, wherever nothing goes on with what stands behind `gs`. -/
def StartsWith (e : Expr) (gs hs : List Glyph) : Prop :=
  ∀ (context : Context) (tokens rest : List Token), (∀ x, context.known x = false) →
    tokens.map Token.glyph = gs → Follows 0 (Cursor.token context ⟨rest, []⟩) →
      ∃ first middle e' later, full.operand context ⟨tokens ++ rest, []⟩ = .done first middle ∧
        endsStatement first = false ∧ IsCopy e' e ∧ later.map Token.glyph = hs ∧
          ∀ least ≤ Printer.tightest, full.operators first least context middle =
            full.operators e' least context ⟨later ++ rest, []⟩

/-- Whether `l` goes on with the tokens `gs` to `r`, as far as their operators have the precedence
`least` or more, and those of `hs` are left of them. -/
def GoesOn (l : Expr) (least : Nat) (gs : List Glyph) (r : Expr) (hs : List Glyph) : Prop :=
  ∀ (context : Context) (tokens rest : List Token) (l' : Expr), (∀ x, context.known x = false) →
    tokens.map Token.glyph = gs → Follows 0 (Cursor.token context ⟨rest, []⟩) → IsCopy l' l →
      ∃ r' later, full.operators l' least context ⟨tokens ++ rest, []⟩ =
        .done r' ⟨later ++ rest, []⟩ ∧ IsCopy r' r ∧ later.map Token.glyph = hs

/-- Every operator has a precedence above that of a whole expression. -/
theorem precedence_pos (op : Operator) : 0 < op.precedence := by cases op <;> decide

/-- No operator binds as tightly as what needs no parentheses. -/
theorem precedence_lt_tightest (op : Operator) : op.precedence < Printer.tightest := by
  cases op <;> decide

/-- A tail can follow any operand. -/
theorem IsTail.follows (h : IsTail gs) {context : Context} {tokens rest : List Token}
    (spelled : tokens.map Token.glyph = gs)
    (follows : Follows 0 (Cursor.token context ⟨rest, []⟩)) :
    Follows Printer.tightest (Cursor.token context ⟨tokens ++ rest, []⟩) := by
  cases h with
  | nil =>
    obtain rfl := List.map_eq_nil_iff.1 spelled
    exact follows.mono (Nat.zero_le _)
  | @cons op _ _ glued =>
    exact (glued.operatorToken context rest spelled).1.mono (precedence_lt_tightest op).le

/-- A unit is read as an operand, whatever chain follows. -/
theorem IsUnit.exists_startsWith (h : IsUnit gs) (tail : IsTail hs) :
    ∃ e, StartsWith e (gs ++ hs) hs := by
  obtain ⟨e, reads⟩ := h.reads
  refine ⟨e, fun context tokens rest unknown spelled follows => ?_⟩
  obtain ⟨ts, us, rfl, spelled_gs, spelled_hs⟩ := List.map_eq_append_iff.1 spelled
  obtain ⟨first, middle, e', read, plain, copy, chain⟩ :=
    reads context ts (us ++ rest) unknown spelled_gs (tail.follows spelled_hs follows)
  rw [List.append_assoc]
  exact ⟨first, middle, e', us, read, plain, copy, spelled_hs, chain⟩

/-- A sign takes in the powers behind its operand. -/
theorem StartsWith.signed {ks : List Glyph} (sign : op.isSign = true) (operand : StartsWith e gs hs)
    (powers : GoesOn e Operator.power.precedence hs r ks) :
    StartsWith (.unary op r Option.none) ((.operator op, op.sign) :: gs) ks := by
  intro context tokens rest unknown spelled follows
  obtain ⟨place, tokens, rfl, spelled_gs⟩ := exists_of_map_cons spelled
  obtain ⟨first, middle, e', later, read, plain, copy, spelled_hs, chain⟩ :=
    operand context tokens rest unknown spelled_gs follows
  obtain ⟨r', later', read', copy', spelled_ks⟩ :=
    powers context later rest e' unknown spelled_hs follows copy
  have same : (op.alike op && r'.same r) = true := by
    rw [Operator.alike_refl, copy'.same]
    rfl
  refine ⟨_, ⟨later' ++ rest, []⟩, .unary op r' (some ⟨.operator op, place, op.sign⟩), later', ?_,
    rfl, ⟨same, rfl⟩, spelled_ks, fun _ _ => rfl⟩
  have step : full.operand context ⟨⟨.operator op, place, op.sign⟩ :: (tokens ++ rest), []⟩ =
      Grammar.signed full full.operand context
        ⟨⟨.operator op, place, op.sign⟩ :: (tokens ++ rest), []⟩ := by
    conv_lhs => rw [full_operand, operandStep, peek_bind]
    rfl
  rw [List.cons_append, step, Grammar.signed, next_bind]
  show (if op.isSign then _ else _ : Parser Expr) context ⟨tokens ++ rest, []⟩ = _
  rw [if_pos sign, bind_of_done read, plain]
  refine bind_of_done ?_ _
  exact (chain _ (precedence_lt_tightest .power).le).trans read'

/-- Where nothing follows a chain ends. -/
theorem goesOn_nil (l : Expr) (least : Nat) : GoesOn l least [] l [] := by
  intro context tokens rest l' _ spelled follows copy
  obtain rfl := List.map_eq_nil_iff.1 spelled
  refine ⟨l', [], full_operators_of_lt fun op seen => ?_, copy, rfl⟩
  exact absurd (follows.loose op seen) (Nat.not_le.2 (precedence_pos op))

/-- An operator that is too loose is left. -/
theorem goesOn_of_lt (glued : Glues gs op glue) (loose : op.precedence < least) (l : Expr) :
    GoesOn l least (glue ++ gs) l (glue ++ gs) := by
  intro context tokens rest l' _ spelled _ copy
  obtain ⟨-, seen, -⟩ := glued.operatorToken context rest spelled
  refine ⟨l', tokens, full_operators_of_lt fun op' seen' => ?_, copy, spelled⟩
  cases seen.symm.trans seen'
  exact loose

/-- An operator that is tight enough is read with its right operand and what that goes on with. -/
theorem StartsWith.goesOn {s : Expr} {ks ms : List Glyph} (glued : Glues gs op glue)
    (tight : least ≤ op.precedence) (start : StartsWith e gs hs)
    (inner : GoesOn e (op.precedence + 1) hs r ks)
    (outer : GoesOn (.binary op l r Option.none) least ks s ms) :
    GoesOn l least (glue ++ gs) s ms := by
  intro context tokens rest l' unknown spelled follows copy
  obtain ⟨-, seen, sign, later, spelled_gs, taken⟩ := glued.operatorToken context rest spelled
  obtain ⟨first, middle, e', after, read, plain, copy_e, spelled_hs, chain⟩ :=
    start context later rest unknown spelled_gs follows
  obtain ⟨r', after', read_r, copy_r, spelled_ks⟩ :=
    inner context after rest e' unknown spelled_hs follows copy_e
  have same : (op.alike op && l'.same l && r'.same r) = true := by
    rw [Operator.alike_refl, copy.same, copy_r.same]
    rfl
  obtain ⟨s', after'', read_s, copy_s, spelled_ms⟩ :=
    outer context after' rest (.binary op l' r' (some sign)) unknown spelled_ks follows ⟨same, rfl⟩
  refine ⟨s', after'', ?_, copy_s, spelled_ms⟩
  rw [full_operators_of_le seen tight, bind_of_done taken, bind_of_done read, plain]
  exact (bind_of_done ((chain _ (precedence_lt_tightest op)).trans read_r) _).trans read_s

/-! ## Every chain is read -/

/-- Whether any expression goes on with the tokens, and leaves none of them if it takes all
operators. -/
def GoesOnWith (gs : List Glyph) : Prop :=
  ∀ l least, ∃ r hs, GoesOn l least gs r hs ∧ IsTail hs ∧ hs.length ≤ gs.length ∧
    (least = 0 → hs = [])

/-- A unit has a token. -/
theorem IsUnit.length_pos (h : IsUnit gs) : 0 < gs.length := by
  obtain ⟨g, first, -⟩ := h.first
  exact List.length_pos_of_mem (List.mem_of_head? first)

/-- A chain starts with an operand, if all shorter tails are gone on with. -/
theorem IsChain.exists_startsWith {n : Nat} (h : IsChain gs) (short : gs.length ≤ n)
    (tails : ∀ hs, IsTail hs → hs.length < n → GoesOnWith hs) :
    ∃ e hs, StartsWith e gs hs ∧ IsTail hs ∧ hs.length < gs.length := by
  induction h with
  | @unit gs unit =>
    obtain ⟨e, starts⟩ := unit.exists_startsWith .nil
    rw [List.append_nil] at starts
    exact ⟨e, [], starts, .nil, unit.length_pos⟩
  | @sign op gs sign _ ih =>
    rw [List.length_cons] at short ⊢
    obtain ⟨e, hs, starts, tail, shorter⟩ := ih (by omega)
    obtain ⟨r, ks, goesOn, tail', shorter', -⟩ :=
      tails hs tail (by omega) e Operator.power.precedence
    exact ⟨_, ks, starts.signed sign goesOn, tail', by omega⟩
  | @operation gs op glue hs unit glued later _ =>
    have tail := IsTail.cons glued later
    obtain ⟨e, starts⟩ := unit.exists_startsWith tail
    have positive := unit.length_pos
    exact ⟨e, glue ++ hs, starts, tail, by simp only [List.length_append]; omega⟩

/-- Any expression goes on with a tail. -/
theorem IsTail.goesOnWith (h : IsTail gs) : GoesOnWith gs := by
  -- by induction on the length of the tail: what is left behind a right operand is shorter
  induction gs using (measure List.length).wf.induction with
  | _ gs ih =>
    intro l least
    cases h with
    | nil => exact ⟨l, [], goesOn_nil l least, .nil, le_rfl, fun _ => rfl⟩
    | @cons op glue gs glued later =>
      have tail := IsTail.cons glued later
      by_cases tight : least ≤ op.precedence
      · have behind := @List.length_append _ glue gs
        obtain ⟨e, hs, starts, tail_e, shorter⟩ :=
          later.exists_startsWith (n := (glue ++ gs).length) (by omega)
            fun hs tail shorter => ih hs shorter tail
        obtain ⟨r, ks, inner, tail_r, shorter', -⟩ :=
          ih hs (show hs.length < _ by omega) tail_e e (op.precedence + 1)
        obtain ⟨s, ms, outer, tail_s, shorter'', all⟩ :=
          ih ks (show ks.length < _ by omega) tail_r (.binary op l r Option.none) least
        exact ⟨s, ms, starts.goesOn glued tight inner outer, tail_s, by omega, all⟩
      · have loose := Nat.not_le.1 tight
        exact ⟨l, glue ++ gs, goesOn_of_lt glued loose l, tail, le_rfl, by omega⟩

/-- **Every chain is read as one expression**, wherever nothing goes on with it. -/
theorem IsChain.exists_reads (h : IsChain gs) : ∃ e, ReadsAs e 0 0 gs := by
  obtain ⟨e, hs, starts, tail, -⟩ :=
    h.exists_startsWith (n := gs.length) le_rfl fun hs tail _ => tail.goesOnWith
  obtain ⟨r, ks, goesOn, -, -, all⟩ := tail.goesOnWith e 0
  obtain rfl := all rfl
  refine ⟨r, fun context tokens rest unknown spelled follows => ?_⟩
  obtain ⟨first, middle, e', later, read, plain, copy, spelled_hs, chain⟩ :=
    starts context tokens rest unknown spelled follows
  obtain ⟨r', later', read_r, copy_r, spelled'⟩ :=
    goesOn context later rest e' unknown spelled_hs follows copy
  obtain rfl := List.map_eq_nil_iff.1 spelled'
  refine ⟨first, middle, r', read, plain, copy_r, fun least zero => ?_⟩
  obtain rfl := Nat.le_zero.1 zero
  have ended : full.operators r' 0 context ⟨rest, []⟩ = .done r' ⟨rest, []⟩ :=
    full_operators_of_lt fun op seen =>
      absurd (follows.loose op seen) (Nat.not_le.2 (precedence_pos op))
  rw [chain 0 (Nat.zero_le _), read_r, ended]
  rfl

/-! ## Chains in a row -/

/-- Whether the tokens are chains, one after the other, with a control word at the start of each but
the first. -/
inductive IsSeries : List Glyph → Prop
  | chain {gs : List Glyph} (chain : IsChain gs) : IsSeries gs
  | cons {gs hs : List Glyph} {name : String} (first : IsChain gs)
      (later : IsSeries ((.controlWord, name) :: hs)) : IsSeries (gs ++ (.controlWord, name) :: hs)

/-- What starts like an operand without a sign is a factor of what precedes it, unless it starts
with a control word. -/
theorem glues_or_word {g : Glyph} (first : gs.head? = some g) (opens : opensUnit g.1 = true) :
    Glues gs .juxtaposed [] ∨ ∃ name later, gs = (.controlWord, name) :: later := by
  obtain ⟨kind, text⟩ := g
  cases kind with
  | controlWord =>
    obtain ⟨later, rfl⟩ := List.head?_eq_some_iff.1 first
    exact .inr ⟨text, later, rfl⟩
  | identifier => exact .inl (.nothing _ first (.inl rfl))
  | number => exact .inl (.nothing _ first (.inr (.inl rfl)))
  | parenOpen => exact .inl (.nothing _ first (.inr (.inr rfl)))
  | _ => cases opens

/-- Two chains side by side are a longer one, unless a control word parts them. -/
theorem IsChain.beside (first : IsChain gs) (second : IsChain hs) :
    IsChain (gs ++ hs) ∨ ∃ name later, hs = (.controlWord, name) :: later := by
  cases second with
  | unit unit =>
    obtain ⟨g, head, opens⟩ := unit.first
    exact (glues_or_word head opens).imp_left fun glued => first.append glued (.unit unit)
  | @sign op hs sign operand => exact .inl (first.append (.sign op) operand)
  | @operation us op glue vs unit glued later =>
    obtain ⟨g, head, opens⟩ := unit.first
    have head : (us ++ (glue ++ vs)).head? = some g := by
      rw [List.head?_append, head]
      rfl
    refine (glues_or_word head opens).imp_left fun glued' => ?_
    have longer := first.append glued' (.operation unit glued later)
    exact longer

/-- A chain in front of a series makes its first chain longer or the series itself. -/
theorem IsSeries.prepend (first : IsChain gs) (later : IsSeries hs) : IsSeries (gs ++ hs) := by
  cases later with
  | chain chain =>
    obtain longer | ⟨name, rest, rfl⟩ := first.beside chain
    · exact .chain longer
    · exact .cons first (.chain chain)
  | @cons us vs name second later =>
    obtain longer | ⟨name', rest, rfl⟩ := first.beside second
    · rw [← List.append_assoc]
      exact .cons longer later
    · exact .cons first (.cons second later)

/-- A series is read as the expressions of a group. -/
theorem IsSeries.exists_readsList (h : IsSeries gs) :
    ∃ es, ReadsList (full.items false) (fun _ => True) es (gs ++ [(.braceClose, "\x7d")]) := by
  induction h with
  | chain chain =>
    obtain ⟨e, reads⟩ := chain.exists_reads
    exact ⟨[e], reads.readsList_items (readsList_no_items false) (.inr (.inl rfl))⟩
  | cons first _ ih =>
    obtain ⟨e, reads⟩ := first.exists_reads
    obtain ⟨es, later⟩ := ih
    refine ⟨e :: es, ?_⟩
    rw [List.append_assoc]
    exact reads.readsList_items later (.inr (.inr rfl))

end Grammar

end TexAlgebra
