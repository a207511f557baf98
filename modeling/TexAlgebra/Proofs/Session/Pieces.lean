import TexAlgebra.Proofs.Grammar.Longer
import TexAlgebra.Proofs.Session.Runs
import TexAlgebra.Proofs.Token.Joined
import TexAlgebra.Proofs.Unplaced.Session
/-!
# Documents and their pieces

A document can be a piece of a longer one, in which the names of more functions are noted. If each
statement of the piece is read alike with these names (`Session.ReadsAlike`), the longer document
has the outcomes of the piece, up to places, and then goes on with what is behind it
(`Session.process_of_leads`). So several texts with lines between them that hold only a double
backslash have together the outcomes that they have one after the other, if each of them can be read
and `Session.Remembers` holds (`Session.process_joined`).
-/

namespace TexAlgebra

/-! ## Tokens -/

/-- The token with a kind and a text at the start of a text. -/
def Glyph.token (g : Glyph) : Token := ⟨g.1, .start, g.2⟩

/-- Without places tokens are what their glyphs make. -/
theorem map_unplaced (tokens : List Token) :
    tokens.map Token.unplaced = (tokens.map Token.glyph).map Glyph.token := by
  rw [List.map_map]
  rfl

namespace Document

/-- The tokens from the next statement on. -/
def dropEnds (tokens : List Token) : List Token := tokens.dropWhile (·.kind = .endOfStatement)

/-- Behind a statement nothing is dropped. -/
theorem dropEnds_append {tokens : List Token} (h : dropEnds tokens ≠ []) (more : List Token) :
    dropEnds (tokens ++ more) = dropEnds tokens ++ more :=
  List.dropWhile_append.trans (if_neg (mt List.isEmpty_iff.1 h))

/-- Tokens that are all ends of statements can be dropped in front of others. -/
theorem dropEnds_append_of_eq_nil {tokens : List Token} (h : dropEnds tokens = [])
    (more : List Token) : dropEnds (tokens ++ more) = dropEnds more :=
  List.dropWhile_append.trans (if_pos (List.isEmpty_iff.2 h))

/-- Places do not matter for where a statement starts. -/
theorem dropEnds_unplaced (tokens : List Token) :
    (dropEnds tokens).map Token.unplaced = dropEnds (tokens.map Token.unplaced) := by
  rw [dropEnds, dropEnds, List.dropWhile_map]
  rfl

/-- Tokens that are made of glyphs end statements where the glyphs do. -/
theorem dropEnds_token (gs : List Glyph) :
    dropEnds (gs.map Glyph.token) = (gs.dropWhile Lexer.isEnd).map Glyph.token := by
  rw [dropEnds, List.dropWhile_map]
  rfl

/-! ## Documents in longer ones -/

/-- Whether `d'` goes on where `d` does, and with `more` behind it, after `names` were noted. -/
structure Leads (names : List Expr) (more : List Token) (d d' : Document) : Prop where
  rest : (dropEnds (d.cursor.rest ++ more)).map Token.unplaced =
    (dropEnds d'.cursor.rest).map Token.unplaced
  functions : Expr.AllAlike (names ++ d.cursor.functions) d'.cursor.functions

section

variable {names : List Expr} {more : List Token} {d d' rest : Document} {known known' : Expr → Bool}

/-- A statement of a document is a statement of the longer one. -/
theorem Leads.next? (h : d.Leads names more d')
    (closed : ∀ t ∈ more.head?, t.kind = .endOfStatement)
    (same : ∀ {x x' : Expr}, x.Alike x' → known x = (known' x' || names.any (· == x))) {e : Expr}
    (next : d.next? known = some (.ok e, rest)) :
    ∃ e' rest', d'.next? known' = some (.ok e', rest') ∧ e.Alike e' ∧
      rest.Leads names more rest' := by
  -- to the grammar the longer document is an extension of the other one
  let E : Extension := ⟨⟨d.ending, known⟩, ⟨d'.ending, known'⟩, names, more, closed, same⟩
  simp only [Document.next?] at next
  split at next
  · cases next
  · next present =>
    split at next
    · next _ after reading =>
      cases next
      have present : dropEnds d.cursor.rest ≠ [] := present
      have starts : (dropEnds d.cursor.rest ++ more).map Token.unplaced =
          (dropEnds d'.cursor.rest).map Token.unplaced := by
        rw [← h.rest, dropEnds_append present]
      have continues : E.Continues (atStatement d.cursor) (atStatement d'.cursor) :=
        ⟨starts, h.functions⟩
      obtain ⟨e', after', reading', alike, continues'⟩ :=
        Parser.extends_expression continues reading
      have present' : (atStatement d'.cursor).rest ≠ [] := by
        intro none
        have none : dropEnds d'.cursor.rest = [] := none
        rw [none] at starts
        exact present (List.append_eq_nil_iff.1 (List.map_eq_nil_iff.1 starts)).1
      refine ⟨e', { d' with cursor := after' }, ?_, alike, ?_, continues'.functions⟩
      · simp only [Document.next?, if_neg present']
        rw [reading']
      · rw [dropEnds_unplaced, continues'.rest, ← dropEnds_unplaced]
    · cases next
    · cases next

/-- Where a document is at its end, the longer one goes on with what is behind it. -/
theorem Leads.ended (h : d.Leads names more d') (next : d.next? known = none) :
    (dropEnds more).map Token.unplaced = (dropEnds d'.cursor.rest).map Token.unplaced := by
  have none : dropEnds d.cursor.rest = [] := next?_eq_none_iff.1 next
  rw [← h.rest, dropEnds_append_of_eq_nil none]

end

end Document

namespace Session

open Document

/-- The text made of several texts, with a double backslash on a line of its own between them. -/
def joined (sources : List String) : String := "\n\\\\\n".intercalate sources

/-- No texts make a document without statements. -/
theorem rest_joined_nil : (ofText (joined [])).cursor.rest = [] := by
  have glyphs : (ofText (joined [])).cursor.rest.map Token.glyph = Lexer.glyphs [] := by
    rw [joined, String.intercalate_nil]
    rfl
  rwa [Lexer.glyphs_nil, List.map_eq_nil_iff] at glyphs

/-- The first of several texts leads to the document of them all, and what is behind it there is the
document of the others. -/
theorem leads_joined (source : String) (sources : List String) : ∃ more : List Token,
    (∀ t ∈ more.head?, t.kind = .endOfStatement) ∧
    ((ofText source).cursor.rest ++ more).map Token.unplaced =
      (ofText (joined (source :: sources))).cursor.rest.map Token.unplaced ∧
    (dropEnds more).map Token.unplaced =
      (dropEnds (ofText (joined sources)).cursor.rest).map Token.unplaced := by
  have glyphs (source : String) : (ofText source).cursor.rest.map Token.unplaced =
      (Lexer.glyphs source.toList).map Glyph.token := map_unplaced _
  have unplaced (gs : List Glyph) :
      (gs.map Glyph.token).map Token.unplaced = gs.map Glyph.token := List.map_map
  cases sources with
  | nil =>
    refine ⟨[], by simp, ?_, ?_⟩
    · rw [List.append_nil, joined, String.intercalate_singleton]
    · rw [rest_joined_nil]
  | cons other others =>
    have text : (joined (source :: other :: others)).toList =
        source.toList ++ '\n' :: '\\' :: '\\' :: '\n' :: (joined (other :: others)).toList := by
      rw [joined, String.intercalate_cons_cons, String.toList_append, String.toList_append]
      simp [joined]
    obtain ⟨ends, nonempty, all, split⟩ :=
      Lexer.glyphs_append_line source.toList ('\n' :: (joined (other :: others)).toList)
    let behind := ends ++ Lexer.glyphs ('\n' :: (joined (other :: others)).toList)
    refine ⟨behind.map Glyph.token, ?_, ?_, ?_⟩
    · intro t first
      obtain ⟨g, ends, rfl⟩ := List.exists_cons_of_ne_nil nonempty
      cases first
      exact of_decide_eq_true (all g List.mem_cons_self)
    · rw [List.map_append, unplaced, glyphs, glyphs, text, split, ← List.map_append]
    · -- marks and line breaks in front of the other texts are skipped
      have skipped : behind.dropWhile Lexer.isEnd =
          (Lexer.glyphs (joined (other :: others)).toList).dropWhile Lexer.isEnd := by
        rw [List.dropWhile_append_of_pos all, Lexer.dropEnds_glyphs_newline]
      rw [dropEnds_unplaced, dropEnds_unplaced, unplaced, glyphs, dropEnds_token, dropEnds_token,
        skipped]

/-! ## Stages of a run -/

/-- What is left of a document and the session, before each of its statements and at its end. An
obstacle ends the run. -/
def stages (d : Document) (s : Session) : List (Document × Session) :=
  match _h : d.next? s.knowsFunction with
  | none => [(d, s)]
  | some (statement, rest) =>
    match s.carryOut statement with
    | (.ok _, after) => (d, s) :: stages rest after
    | (.error _, _) => [(d, s)]
termination_by d.size
decreasing_by exact Document.size_lt_of_next? ‹_›

/-- The names that a document has noted as those of functions when its run ends. -/
def noted (d : Document) (s : Session) : List Expr :=
  ((stages d s).getLast?.map (·.1.cursor.functions)).getD []

/-- Whether the next statement is read alike when some names are taken for those of functions. -/
def ReadsAlike (names : List Expr) (stage : Document × Session) : Prop :=
  stage.1.next? (fun x => stage.2.knowsFunction x || names.any (· == x)) =
    stage.1.next? stage.2.knowsFunction

/-- Whether every statement of several texts is read alike when the names that the texts before its
own have noted are taken for those of functions. At the start these are `names`. -/
def Remembers (names : List Expr) : List String → Session → Prop
  | [], _ => True
  | source :: sources, s =>
    (∀ stage ∈ stages (ofText source) s, ReadsAlike names stage) ∧
      ((∀ o ∈ s.run source, o.1.isOk) →
        Remembers (names ++ noted (ofText source) s) sources (s.after (s.run source)))

/-- Whether a statement could be read. -/
def isRead (o : Except Obstacle Outcome × Session) : Bool :=
  match o.1 with
  | .ok outcome => outcome.parsed.isSome
  | .error _ => true

section

variable {d rest : Document} {s after : Session} {statement : Statement} {outcome : Outcome}
  {l : List (Except Obstacle Outcome × Session)}

/-- A document without statements has one stage. -/
theorem stages_of_none (next : d.next? s.knowsFunction = none) : stages d s = [(d, s)] := by
  rw [stages]
  split
  · rfl
  · next found =>
    rw [next] at found
    cases found

/-- Behind a statement the stages are those of the rest. -/
theorem stages_of_ok (next : d.next? s.knowsFunction = some (statement, rest))
    (carried : s.carryOut statement = (.ok outcome, after)) :
    stages d s = (d, s) :: stages rest after := by
  rw [stages]
  split
  · next none =>
    rw [next] at none
    cases none
  · next found =>
    rw [next] at found
    cases found
    rw [carried]

/-- The first stage is the document itself. -/
theorem mem_stages_self : (d, s) ∈ stages d s := by
  rw [stages]
  split
  · exact List.mem_cons_self
  · split <;> exact List.mem_cons_self

/-- A document without statements has noted what it has at its cursor. -/
theorem noted_of_none (next : d.next? s.knowsFunction = none) :
    noted d s = d.cursor.functions := by
  rw [noted, stages_of_none next]
  rfl

/-- Behind a statement the rest notes on. -/
theorem noted_of_ok (next : d.next? s.knowsFunction = some (statement, rest))
    (carried : s.carryOut statement = (.ok outcome, after)) : noted d s = noted rest after := by
  rw [noted, stages_of_ok next carried, List.getLast?_cons]
  obtain ⟨stage, last⟩ := Option.isSome_iff_exists.1
    (List.getLast?_isSome.2 (List.ne_nil_of_mem (mem_stages_self (d := rest) (s := after))))
  rw [noted, last]
  rfl

/-- A run goes on behind an outcome. -/
theorem untilObstacle_ok : untilObstacle ((.ok outcome, s) :: l) =
    (.ok outcome, s) :: untilObstacle l := rfl

end

/-! ## Documents of pieces -/

/-- A statement that is read alike is read in the longer document, and carried out there with the
same result. -/
theorem next?_of_leads {names : List Expr} {more : List Token} {d d' rest : Document}
    {s s' : Session} {e : Expr} (leads : d.Leads names more d')
    (closed : ∀ t ∈ more.head?, t.kind = .endOfStatement) (alike : s.unplaced = s'.unplaced)
    (read : ReadsAlike names (d, s)) (next : d.next? s.knowsFunction = some (.ok e, rest)) :
    ∃ e' rest', d'.next? s'.knowsFunction = some (.ok e', rest') ∧
      unplacedResult (s.carryOut (.ok e)) = unplacedResult (s'.carryOut (.ok e')) ∧
      rest.Leads names more rest' := by
  have same : ∀ {x x' : Expr}, x.Alike x' → (s.knowsFunction x || names.any (· == x)) =
      (s'.knowsFunction x' || names.any (· == x)) := fun h => by
    rw [knowsFunction_congr h alike]
  obtain ⟨e', rest', next', alike_e, leads'⟩ := leads.next? closed same (read.trans next)
  exact ⟨e', rest', next', execute_congr alike_e alike, leads'⟩

/-- A document has the outcomes of a piece that it goes on with, followed by those of what is behind
the piece. -/
theorem process_of_leads {names : List Expr} {more : List Token} {d d' : Document} {s s' : Session}
    {tail : List (Except Obstacle Outcome × Session)} (leads : d.Leads names more d')
    (closed : ∀ t ∈ more.head?, t.kind = .endOfStatement) (alike : s.unplaced = s'.unplaced)
    (readable : ∀ o ∈ untilObstacle (d.process knowsFunction carryOut s), isRead o = true)
    (remembered : ∀ stage ∈ stages d s, ReadsAlike names stage)
    (behind : (∀ o ∈ untilObstacle (d.process knowsFunction carryOut s), o.1.isOk) →
      ∀ (d₁ : Document) (s₁ : Session),
        (dropEnds more).map Token.unplaced = (dropEnds d₁.cursor.rest).map Token.unplaced →
        Expr.AllAlike (names ++ noted d s) d₁.cursor.functions →
        (s.after (untilObstacle (d.process knowsFunction carryOut s))).unplaced = s₁.unplaced →
        (untilObstacle (d₁.process knowsFunction carryOut s₁)).map unplacedResult =
          (untilObstacle tail).map unplacedResult) :
    (untilObstacle (d'.process knowsFunction carryOut s')).map unplacedResult =
      (untilObstacle (untilObstacle (d.process knowsFunction carryOut s) ++ tail)).map
        unplacedResult := by
  -- by induction on what is left of the piece: each statement leaves documents and sessions that
  -- correspond again, until the piece ends or an obstacle ends both runs
  cases next : d.next? s.knowsFunction with
  | none =>
    rw [process_of_next?_eq_none next] at behind ⊢
    refine behind (fun o h => (List.not_mem_nil h).elim) d' s' (leads.ended next) ?_ alike
    rw [noted_of_none next]
    exact leads.functions
  | some found =>
    obtain ⟨statement, rest⟩ := found
    cases statement with
    | error fault =>
      -- a piece that cannot be read is not among those in question
      have unread := readable (.ok ⟨none, .error fault.toFault⟩, s) (by
        rw [process_of_next?_eq_some next]
        exact List.mem_cons_self)
      cases unread
    | ok e =>
      obtain ⟨e', rest', next', results, leads'⟩ :=
        next?_of_leads leads closed alike (remembered _ mem_stages_self) next
      rcases carried : s.carryOut (.ok e) with ⟨result, after⟩
      rcases carried' : s'.carryOut (.ok e') with ⟨result', after'⟩
      rw [carried, carried'] at results
      have first : d.process knowsFunction carryOut s =
          (result, after) :: rest.process knowsFunction carryOut after := by
        rw [process_of_next?_eq_some next, carried]
      have first' : d'.process knowsFunction carryOut s' =
          (result', after') :: rest'.process knowsFunction carryOut after' := by
        rw [process_of_next?_eq_some next', carried']
      rw [first']
      rw [first] at readable behind ⊢
      cases result with
      | error o =>
        cases result' with
        | ok outcome' => cases congrArg Prod.fst results
        | error o' => exact congrArg ([·]) results.symm
      | ok outcome =>
        cases result' with
        | error o' => cases congrArg Prod.fst results
        | ok outcome' =>
          rw [untilObstacle_ok] at readable behind
          rw [after_cons, noted_of_ok next carried] at behind
          have sessions : after.unplaced = after'.unplaced := congrArg Prod.snd results
          have later := process_of_leads leads' closed sessions
            (fun o h => readable o (List.mem_cons_of_mem _ h))
            (fun stage h => remembered stage (by
              rw [stages_of_ok next carried]
              exact List.mem_cons_of_mem _ h))
            (fun fine => behind fun o h => (List.mem_cons.1 h).elim (fun h => h ▸ rfl) (fine o))
          rw [untilObstacle_ok, untilObstacle_ok, List.cons_append, untilObstacle_ok, List.map_cons,
            List.map_cons, later, results]
termination_by d.size
decreasing_by exact Document.size_lt_of_next? next

/-- The outcomes up to the first obstacle are the first ones whatever is done afterwards. -/
theorem untilObstacle_isPrefix_append (l l' : List (Except Obstacle Outcome × Session)) :
    untilObstacle l <+: untilObstacle (untilObstacle l ++ l') := by
  induction l with
  | nil => exact List.nil_prefix
  | cons first l ih =>
    obtain ⟨result, after⟩ := first
    cases result with
    | error _ => exact List.prefix_refl _
    | ok outcome =>
      rw [untilObstacle_ok, List.cons_append, untilObstacle_ok]
      exact (List.prefix_append_right_inj [_]).2 ih

/-- A run goes on behind outcomes without an obstacle. -/
theorem untilObstacle_append_of_ok {l : List (Except Obstacle Outcome × Session)}
    (fine : ∀ o ∈ l, o.1.isOk) (l' : List (Except Obstacle Outcome × Session)) :
    untilObstacle (l ++ l') = l ++ untilObstacle l' := by
  induction l with
  | nil => rfl
  | cons first l ih =>
    obtain ⟨result, after⟩ := first
    cases result with
    | error _ => cases fine _ List.mem_cons_self
    | ok outcome =>
      rw [List.cons_append, untilObstacle_ok, ih fun o h => fine o (List.mem_cons_of_mem _ h),
        List.cons_append]

/-- A document that goes on as the document of several texts does has the outcomes of the texts. -/
theorem process_joined (sources : List String) {names : List Expr} {d' : Document}
    {s s' : Session} (rest : (dropEnds (ofText (joined sources)).cursor.rest).map Token.unplaced =
      (dropEnds d'.cursor.rest).map Token.unplaced)
    (functions : Expr.AllAlike names d'.cursor.functions) (alike : s.unplaced = s'.unplaced)
    (readable : ∀ o ∈ untilObstacle (s.runAll sources), isRead o = true)
    (remembered : Remembers names sources s) :
    (untilObstacle (d'.process knowsFunction carryOut s')).map unplacedResult =
      (untilObstacle (s.runAll sources)).map unplacedResult := by
  induction sources generalizing names d' s s' with
  | nil =>
    rw [rest_joined_nil] at rest
    rw [process_of_next?_eq_none (next?_eq_none_iff.2 (List.map_eq_nil_iff.1 rest.symm))]
    rfl
  | cons source sources ih =>
    obtain ⟨more, closed, text, others⟩ := leads_joined source sources
    have leads : (ofText source).Leads names more d' := by
      refine ⟨?_, ?_⟩
      · rw [← rest, dropEnds_unplaced, text, ← dropEnds_unplaced]
      · rw [show (ofText source).cursor.functions = [] from rfl, List.append_nil]
        exact functions
    refine process_of_leads leads closed alike
      (fun o h => readable o ((untilObstacle_isPrefix_append _ _).mem h)) remembered.1 ?_
    intro fine d₁ s₁ rest₁ functions₁ alike₁
    have split := untilObstacle_append_of_ok fine ((s.after (s.run source)).runAll sources)
    refine ih (others.symm.trans rest₁) functions₁ alike₁ (fun o h => readable o ?_)
      (remembered.2 fine)
    rw [runAll]
    exact split ▸ List.mem_append_right _ h

end Session

end TexAlgebra
