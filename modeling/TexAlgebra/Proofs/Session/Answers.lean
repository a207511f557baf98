import TexAlgebra.Proofs.Session.Runs
import TexAlgebra.Proofs.Sourced.Document
import TexAlgebra.Proofs.Sourced.Evaluation
import TexAlgebra.Proofs.Sourced.Typing
/-!
# Answers of a session

A session answers all that is read of a document, in order: a statement has a value or a fault, and
a fault blames a token of the texts that were run, or the product that is implied in front of one.
Nothing but a number that cannot be given a sign or written out ends a document before, and that is
one of the numbers in the texts or comes of these by signs and operations (`Session.answers_run`).

The invariant is that all expressions of a session come from its texts. Reading, checking and
evaluating keep it, and from such expressions no other obstacle comes.
-/

namespace TexAlgebra

variable {S : Token → Prop}

namespace Session

/-! ## Statements -/

/-- Whether all that is bound comes from texts. -/
structure IsSourced (S : Token → Prop) (s : Session) : Prop where
  types : s.types.IsSourced S (Classification.IsSourced S)
  evaluator : s.evaluator.IsSourced S

/-- What can become of a statement. -/
inductive IsAnswer (S : Token → Prop) : Statement → Except Obstacle Outcome → Prop
  /-- It could not be read, and the fault in its place is at a token. -/
  | unread (fault : ParseFault) (placed : S fault.token) :
    IsAnswer S (.error fault) (.ok ⟨none, .error fault.toFault⟩)
  /-- It has a fault, at a token or at the product in front of one. -/
  | failed (e : Expr) {fault : Fault} (placed : IsPlaced S fault.token) :
    IsAnswer S (.ok e) (.ok ⟨some e, .error fault⟩)
  /-- It has a value. -/
  | valued (e v : Expr) : IsAnswer S (.ok e) (.ok ⟨some e, .ok v⟩)
  /-- A number that comes of those in the texts could not be given a sign or written out. -/
  | stopped (e : Expr) {o : Obstacle} (number : o.IsOfNumber (numbersOf S)) :
    IsAnswer S (.ok e) (.error o)

variable {s : Session}

/-- Nothing in the initial session has a token. -/
theorem isSourced_initial : initial.IsSourced S :=
  ⟨Environment.isSourced_empty, Environment.isSourced_empty⟩

/-- To leave the scopes adds no token. -/
theorem IsSourced.unwind (h : s.IsSourced S) : s.unwind.IsSourced S :=
  ⟨h.types.unwind, Environment.IsSourced.unwind h.evaluator⟩

/-- A failure that comes from the texts is an answer to its statement. -/
theorem IsSourced.isAnswer_fail {e : Expr} {failure : Failure} (h : s.IsSourced S)
    (he : e.IsSourced S) (hf : failure.IsSourced S) :
    IsAnswer S (.ok e) (fail e failure s).1 ∧ (fail e failure s).2.IsSourced S := by
  cases failure with
  | fault fault => exact ⟨.failed e hf, h⟩
  | obstacle o =>
    cases o with
    | tooDeep => exact ⟨.failed e he.placed, h.unwind⟩
    | _ => exact ⟨.stopped e (hf.resolve_left nofun), h⟩

/-- A statement whose tokens are in the source is answered by the source, and so is the session
behind it. -/
theorem Executed.isAnswer {e : Expr} {r : Except Obstacle Outcome × Session}
    (h : Executed e s r) (he : e.IsSourced S) (hs : s.IsSourced S) :
    IsAnswer S (.ok e) r.1 ∧ r.2.IsSourced S := by
  have check := Typing.sources_check he s.types hs.types
  have evaluate := Evaluation.sources_evaluate he s.evaluator hs.evaluator
  cases h with
  | @refused failure types checked =>
    obtain ⟨kept, blamed⟩ := check.of_error checked
    exact IsSourced.isAnswer_fail ⟨kept, hs.evaluator⟩ he blamed
  | @failed c types failure evaluator checked evaluated =>
    obtain ⟨kept, blamed⟩ := evaluate.of_error evaluated
    exact IsSourced.isAnswer_fail ⟨(check.of_ok checked).1, kept⟩ he blamed
  | succeeded checked evaluated =>
    exact ⟨.valued e _, (check.of_ok checked).1, (evaluate.of_ok evaluated).1⟩

/-- Carrying out a statement answers it. -/
theorem IsSourced.isAnswer_carryOut {statement : Statement} (h : s.IsSourced S)
    (hs : statement.IsSourced S) :
    IsAnswer S statement (s.carryOut statement).1 ∧ (s.carryOut statement).2.IsSourced S := by
  cases statement with
  | error fault => exact ⟨.unread fault hs, h⟩
  | ok e => exact (executed e s).isAnswer hs h

/-! ## Runs -/

/-- What is read of a document while its statements are carried out. -/
def readings (d : Document) (s : Session) : List Statement :=
  (d.process knowsFunction (fun statement s => (statement, (s.carryOut statement).2)) s).map (·.1)

/-- Whether some results answer statements, one each and in order, unless an obstacle is the last of
the results. -/
inductive Answers (S : Token → Prop) : List Statement → List (Except Obstacle Outcome) → Prop
  | nil : Answers S [] []
  | cons {statement : Statement} {outcome : Outcome} {statements : List Statement}
      {results : List (Except Obstacle Outcome)} (first : IsAnswer S statement (.ok outcome))
      (later : Answers S statements results) :
    Answers S (statement :: statements) (.ok outcome :: results)
  | last {statement : Statement} {o : Obstacle} (statements : List Statement)
      (stopped : IsAnswer S statement (.error o)) :
    Answers S (statement :: statements) [.error o]

/-- The statements of a document are answered, and all that the session has then comes from texts.
-/
theorem answers_process (lexed : ∀ t, S t → t.IsLexed) {d : Document} {s : Session}
    (hd : d.IsIn S) (hs : s.IsSourced S) :
    Answers S (readings d s) ((untilObstacle (d.process knowsFunction carryOut s)).map (·.1)) ∧
      (s.after (untilObstacle (d.process knowsFunction carryOut s))).IsSourced S := by
  unfold readings
  cases next : d.next? s.knowsFunction with
  | none =>
    rw [Document.process_of_next?_eq_none next, Document.process_of_next?_eq_none next]
    exact ⟨.nil, hs⟩
  | some found =>
    obtain ⟨statement, rest⟩ := found
    obtain ⟨sourced, left⟩ := hd.next? lexed next
    obtain ⟨answer, kept⟩ := hs.isAnswer_carryOut sourced
    rw [Document.process_of_next?_eq_some next, Document.process_of_next?_eq_some next]
    cases carried : s.carryOut statement with
    | mk result s' =>
      rw [carried] at answer kept
      cases result with
      | error o => exact ⟨.last _ answer, kept⟩
      | ok outcome =>
        obtain ⟨later, after⟩ := answers_process lexed left kept
        refine ⟨.cons answer later, ?_⟩
        rw [untilObstacle, after_cons]
        exact after
termination_by d.size
decreasing_by exact Document.size_lt_of_next? next

/-- Whether a token is one of some texts, in which the end of a text counts as a token. -/
def IsTokenOf (texts : List String) (t : Token) : Prop :=
  ∃ text ∈ texts, t ∈ (tokenize text).tokens

/-- After some texts, all that a session has comes from them. -/
theorem isSourced_runAll (lexed : ∀ t, S t → t.IsLexed) {sources : List String}
    (hs : s.IsSourced S) (all : ∀ text ∈ sources, ∀ t ∈ (tokenize text).tokens, S t) :
    (s.after (s.runAll sources)).IsSourced S := by
  induction sources generalizing s with
  | nil => exact hs
  | cons source sources ih =>
    obtain ⟨first, rest⟩ := List.forall_mem_cons.1 all
    rw [Session.runAll, after_append]
    exact ih (answers_process lexed (Document.isIn_ofText first) hs).2 rest

/-- However many texts were run before, all that is read of a text is answered, in order: with a
value, or with a fault that blames a token of the texts so far or the product that is implied in
front of one. Only one thing ends the answers before: that a number in these texts, or one that
comes of them by signs and operations, is given a sign or written out, and just this fails for it.
-/
theorem answers_run (earlier : List String) (source : String) :
    Answers (IsTokenOf (earlier ++ [source]))
      (readings (Document.ofText source) (initial.after (initial.runAll earlier)))
      (((initial.after (initial.runAll earlier)).run source).map (·.1)) := by
  have lexed : ∀ t, IsTokenOf (earlier ++ [source]) t → t.IsLexed := by
    rintro t ⟨text, -, ht⟩
    exact Lexer.isLexed_tokenize ht
  have own : (Document.ofText source).IsIn (IsTokenOf (earlier ++ [source])) :=
    Document.isIn_ofText fun t ht =>
      ⟨source, List.mem_append_right _ (List.mem_singleton_self _), ht⟩
  have before : ∀ text ∈ earlier, ∀ t ∈ (tokenize text).tokens,
      IsTokenOf (earlier ++ [source]) t := fun text ht t mem =>
    ⟨text, List.mem_append_left _ ht, mem⟩
  exact (answers_process lexed own (isSourced_runAll lexed isSourced_initial before)).1

end Session

end TexAlgebra
