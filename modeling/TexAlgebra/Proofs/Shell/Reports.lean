import TexAlgebra.Proofs.Report.Highlight
import TexAlgebra.Proofs.Session.Answers
import TexAlgebra.Proofs.Shell.Continuation
/-!
# What the reports of a shell highlight

A fault of a text names one of the tokens of the texts so far, or the product that is implied in
front of one. If it is a token of the text that is read, the report highlights it. The body of a
function keeps the tokens of the text in which the function was defined, though, and a fault in it
is shown against the text in which the function is called (`Shell.shows_reports`). What could not be
read is always at a token of its own text (`Session.token_of_unread`).
-/

namespace TexAlgebra

/-! ## Faults of a text -/

namespace Session

variable {S : Token → Prop}

/-- The faults of a document are at its tokens, or at those of what was bound before. -/
theorem isPlaced_process (lexed : ∀ t, S t → t.IsLexed) {d : Document} {s : Session}
    (hd : d.IsIn S) (hs : s.IsSourced S) :
    ∀ r ∈ d.process knowsFunction carryOut s,
      (∀ parsed fault, r.1 = .ok ⟨parsed, .error fault⟩ → IsPlaced S fault.token) ∧
        r.2.IsSourced S := by
  refine hd.forall_process (Expr.isMade_isSourced lexed) (fun statement s read faulty hs => ?_) hs
  obtain ⟨answer, kept⟩ := hs.isAnswer_carryOut (Statement.isSourced_of_cases read faulty)
  refine ⟨⟨fun parsed fault failed => ?_, kept⟩, kept⟩
  rw [failed] at answer
  cases answer with
  | unread _ placed => exact isPlaced_of_mem placed
  | failed _ placed => exact placed

/-- Whatever was bound before, what cannot be read of a document has a fault at one of its tokens.
-/
theorem exists_of_unread_process (lexed : ∀ t, S t → t.IsLexed) {d : Document} {s : Session}
    (hd : d.IsIn S) :
    ∀ r ∈ d.process knowsFunction carryOut s, ∀ fault, r.1 = .ok ⟨none, .error fault⟩ →
      ∃ t, fault.token = some t ∧ S t := by
  refine hd.forall_process (I := fun _ => True) (Expr.isMade_isSourced lexed)
    (fun statement s _ faulty _ => ⟨fun fault failed => ?_, trivial⟩) trivial
  cases statement with
  | error fault' =>
    cases failed
    exact ⟨_, rfl, faulty fault' rfl⟩
  | ok e => exact absurd ((executed e s).parsed failed) nofun

/-- Tokens of texts come from the lexer. -/
theorem isLexed_of_isTokenOf {texts : List String} : ∀ t, IsTokenOf texts t → t.IsLexed := by
  rintro t ⟨text, -, ht⟩
  exact Lexer.isLexed_tokenize ht

/-- The tokens of the last text are among those of all. -/
theorem isTokenOf_last {earlier : List String} {source : String} :
    ∀ t ∈ (tokenize source).tokens, IsTokenOf (earlier ++ [source]) t := fun _ ht =>
  ⟨source, List.mem_append_right _ (List.mem_singleton_self _), ht⟩

variable {s : Session}

/-- The outcomes of a text are those of its document. -/
theorem mem_process_of_mem_run {source : String} {r : Except Obstacle Outcome × Session}
    (h : r ∈ s.run source) : r ∈ (Document.ofText source).process knowsFunction carryOut s :=
  (untilObstacle_sublist _).subset h

/-- What cannot be read of a text has a fault at one of its own tokens. -/
theorem token_of_unread {source : String} {fault : Fault} {s' : Session}
    (h : (.ok ⟨none, .error fault⟩, s') ∈ s.run source) :
    ∃ t ∈ (tokenize source).tokens, fault.token = some t := by
  obtain ⟨t, named, mem⟩ := exists_of_unread_process (fun _ => Lexer.isLexed_tokenize)
    (Document.isIn_ofText fun _ ht => ht) _ (mem_process_of_mem_run h) fault rfl
  exact ⟨t, mem, named⟩

end Session

/-! ## Tokens of reports -/

/-- What becomes of a token that a report of a text names, where other texts were read before. -/
inductive Reporter.Shows (r : Reporter) (earlier : List String) (source : String) (t : Token) : Prop
  /-- It is one of the text, and is highlighted. -/
  | own (mem : t ∈ (tokenize source).tokens) (shown : r.Highlights t)
  /-- It is the product that is implied in front of one of the text, and is highlighted only if that
  one begins with the sign of a product. -/
  | implied (u : Token) (mem : u ∈ (tokenize source).tokens) (product : t = u.impliedProduct)
      (shown : r.Highlights t ↔ u.text.toList.head? = some '*')
  /-- It is of one of the other texts. -/
  | past (of : t.IsOf (Session.IsTokenOf earlier))

namespace Presentation

variable {p : Presentation} {s : Session} {earlier : List String} {source : String}
  {notice : Notice} {t : Token}

/-- The reports of a text, where all that is bound comes from it and from earlier texts. -/
theorem shows_of_mem_log (r : Reporter) (hs : s.IsSourced (Session.IsTokenOf (earlier ++ [source])))
    (h : .report notice ∈ p.log (s.run source)) (named : notice.token = some t) :
    (r.register source).Shows earlier source t := by
  obtain none | ⟨parsed, fault, s', mem, rfl⟩ := exists_of_mem_log h
  · rw [none] at named
    cases named
  obtain ⟨u, placed, of⟩ := (Session.isPlaced_process Session.isLexed_of_isTokenOf
    (Document.isIn_ofText Session.isTokenOf_last) hs _
    (Session.mem_process_of_mem_run mem)).1 parsed fault rfl
  obtain rfl := Option.some_inj.1 (named.symm.trans placed)
  rcases of with ⟨text, ht, token⟩ | ⟨v, ⟨text, ht, token⟩, rfl⟩
  · rcases List.mem_append.1 ht with before | own
    · exact .past (.inl ⟨text, before, token⟩)
    · obtain rfl := List.mem_singleton.1 own
      exact .own token (Reporter.highlights_of_mem r token)
  · rcases List.mem_append.1 ht with before | own
    · exact .past (.inr ⟨v, ⟨text, before, token⟩, rfl⟩)
    · obtain rfl := List.mem_singleton.1 own
      exact .implied v token rfl (Reporter.highlights_impliedProduct_iff r token)

end Presentation

/-! ## Texts of a shell -/

namespace Shell

/-- The texts that a shell carries out while it is given lines, each with the shell that does. -/
def texts (sh : Shell) : List String → List (Shell × String)
  | [] => []
  | line :: rest =>
    let later := (sh.step line).2.texts rest
    match command line with
    | .text line =>
      if continues (sh.pending ++ line) then later else (sh, sh.pending ++ line) :: later
    | _ => later

/-- Whether a shell goes on after a fault, and all that is bound in it comes from texts. -/
structure IsSourced (S : Token → Prop) (sh : Shell) : Prop where
  goes : sh.reporter.fatal = false
  session : sh.session.IsSourced S

variable {S : Token → Prop} {sh : Shell} {text line : String}

/-- Behind a text the shell has the session of its last outcome, and a reporter that has counted its
faults. -/
theorem after_of_presentAll {written : String} {e : Ending} {r : Reporter} {s : Session}
    (shown : sh.presentation.presentAll (sh.reporter.register text) sh.session
      (sh.session.run text) = (written, e, r, s)) :
    (sh.carryOut text).2.reporter = (r.close e).2.2 ∧ (sh.carryOut text).2.session = s := by
  rw [carryOut]
  simp only [shown, and_self]

/-- To report how a text ended does not make errors fatal. -/
theorem fatal_close (r : Reporter) (e : Ending) : (r.close e).2.2.fatal = r.fatal := by
  rw [Reporter.close]
  cases e.notice? <;> rfl

/-- A text is answered with its log, and leaves a session that one of its statements left, unless it
has none. -/
theorem carryOut_spec (goes : sh.reporter.fatal = false) (text : String) :
    (sh.carryOut text).1.output = Entry.texts (sh.reporter.register text)
      (sh.presentation.log (sh.session.run text)) ∧
    (sh.carryOut text).2.reporter.fatal = false ∧
    (sh.carryOut text).2.session ∈ sh.session :: (sh.session.run text).map (·.2) := by
  have going : (sh.reporter.register text).fatal = false := goes
  obtain ⟨s', reached, shown⟩ := @Presentation.presentAll_of_going sh.presentation _ sh.session
    (sh.session.run text) going
  obtain ⟨reporter, session⟩ := after_of_presentAll shown
  refine ⟨?_, ?_, session ▸ reached⟩
  · rw [output_of_presentAll shown, Ending.close_fst, Presentation.log, Entry.texts_append,
      Entry.texts_counting]
  · rw [reporter, fatal_close, Reporter.fatal_counting]
    exact going

/-- Behind a text whatever the shell holds comes from this text or from earlier ones. -/
theorem IsSourced.carryOut (lexed : ∀ t, S t → t.IsLexed) (h : sh.IsSourced S)
    (own : ∀ t ∈ (tokenize text).tokens, S t) : (sh.carryOut text).2.IsSourced S := by
  obtain ⟨-, goes, reached⟩ := carryOut_spec h.goes text
  refine ⟨goes, ?_⟩
  rcases List.mem_cons.1 reached with same | later
  · exact same ▸ h.session
  · obtain ⟨r, hr, left⟩ := List.mem_map.1 later
    have placed := Session.isPlaced_process lexed (Document.isIn_ofText own) h.session r
      (Session.mem_process_of_mem_run hr)
    exact left ▸ placed.2

/-- A line leaves a shell as it is but for its pending lines, or completes a text. -/
theorem step_cases (sh : Shell) (line : String) (rest : List String) :
    ((sh.step line).2.session = sh.session ∧ (sh.step line).2.reporter = sh.reporter ∧
      sh.texts (line :: rest) = (sh.step line).2.texts rest) ∨
    ∃ text, (sh.step line).2 = (sh.carryOut text).2 ∧
      sh.texts (line :: rest) = (sh, text) :: (sh.step line).2.texts rest := by
  cases asked : command line with
  | text given =>
    have step_eq : sh.step line = sh.take given := by rw [step, asked]
    cases goes : continues (sh.pending ++ given) with
    | true =>
      refine .inl ⟨?_, ?_, by simp only [texts, asked, goes, if_true]⟩
      all_goals rw [step_eq, take_of_continues goes]
    | false =>
      refine .inr ⟨sh.pending ++ given, by rw [step_eq, take_of_not_continues goes], ?_⟩
      simp only [texts, asked, goes, Bool.false_eq_true, if_false]
  | _ =>
    have same : (sh.step line).2 = sh := by rw [step, asked]
    exact .inl ⟨by rw [same], by rw [same], by simp only [texts, asked]⟩

/-- Two lines that are a text each. -/
theorem texts_pair {first second : String} (asked : command first = .text first)
    (asked' : command second = .text second) (whole : continues first = false)
    (whole' : continues second = false) (ready : sh.pending = "") :
    sh.texts [first, second] = [(sh, first), ((sh.carryOut first).2, second)] := by
  have goes : continues (sh.pending ++ first) = false := by rw [ready, String.empty_append, whole]
  have left : (sh.step first).2 = (sh.carryOut first).2 := by
    rw [step, asked]
    simp only [take_of_not_continues goes, ready, String.empty_append]
  have empty : (sh.carryOut first).2.pending = "" := rfl
  simp only [texts, asked, asked', left, ready, empty, String.empty_append, whole, whole',
    Bool.false_eq_true, if_false]

/-- All that is bound in a shell comes from the texts that were carried out before. -/
theorem isSourced_of_texts (lexed : ∀ t, S t → t.IsLexed) {lines : List String}
    {before after : List (Shell × String)} {sh' : Shell} (h : sh.IsSourced S)
    (ran : sh.texts lines = before ++ (sh', text) :: after)
    (all : ∀ r ∈ before, ∀ t ∈ (tokenize r.2).tokens, S t) : sh'.IsSourced S := by
  induction lines generalizing sh before with
  | nil =>
    rw [texts] at ran
    exact absurd ran.symm (List.append_ne_nil_of_right_ne_nil _ (List.cons_ne_nil _ _))
  | cons line rest ih =>
    rcases sh.step_cases line rest with ⟨session, reporter, same⟩ | ⟨text', left, made⟩
    · have kept : (sh.step line).2.IsSourced S :=
        ⟨by rw [reporter]; exact h.goes, by rw [session]; exact h.session⟩
      rw [same] at ran
      exact ih kept ran all
    · rw [made] at ran
      cases before with
      | nil =>
        rw [List.nil_append, List.cons.injEq, Prod.mk.injEq] at ran
        exact ran.1.1 ▸ h
      | cons first before =>
        rw [List.cons_append, List.cons.injEq] at ran
        obtain ⟨rfl, later⟩ := ran
        obtain ⟨own, others⟩ := List.forall_mem_cons.1 all
        have kept : (sh.step line).2.IsSourced S := by
          rw [left]
          exact h.carryOut lexed own
        exact ih kept later others

/-- Every report that a shell makes while it is given lines, and every report of a file, names no
token, or a token of the text that is read, which it highlights, or the product implied in front of
such a token, or else what comes from a text that was carried out before. -/
theorem shows_reports {reporter : Reporter} {presentation : Presentation} {lines : List String}
    {before after : List (Shell × String)}
    (ran : (initial reporter presentation).texts lines = before ++ (sh, text) :: after) :
    (sh.carryOut text).1.output = Entry.texts (sh.reporter.register text)
      (sh.presentation.log (sh.session.run text)) ∧
    (∀ notice t, .report notice ∈ sh.presentation.log (sh.session.run text) →
      notice.token = some t → (sh.reporter.register text).Shows (before.map (·.2)) text t) ∧
    (∀ fault s, (.ok ⟨none, .error fault⟩, s) ∈ sh.session.run text →
      ∃ t ∈ (tokenize text).tokens, fault.token = some t ∧
        (sh.reporter.register text).Highlights t) ∧
    ∀ (o : CommandLine.Options) (palette : Palette) (path source : String),
      (∃ written rest, CommandLine.fileLog o source = written ++ rest ∧
        (CommandLine.runFile o palette path source).output =
          Entry.texts (CommandLine.fileReporter palette path source true) written) ∧
      ∀ notice t, .report notice ∈ CommandLine.fileLog o source → notice.token = some t →
        (CommandLine.fileReporter palette path source true).Shows [] source t := by
  have sourced : sh.IsSourced (Session.IsTokenOf (before.map (·.2) ++ [text])) :=
    isSourced_of_texts Session.isLexed_of_isTokenOf ⟨rfl, Session.isSourced_initial⟩ ran
      fun r hr t ht => ⟨r.2, List.mem_append_left _ (List.mem_map_of_mem hr), ht⟩
  refine ⟨(carryOut_spec sourced.goes text).1, fun notice t reported named =>
    Presentation.shows_of_mem_log sh.reporter sourced.session reported named,
    fun fault s unread => ?_, fun o palette path source => ⟨?_, fun notice t reported named =>
      Presentation.shows_of_mem_log _ Session.isSourced_initial reported named⟩⟩
  · obtain ⟨t, mem, named⟩ := Session.token_of_unread unread
    exact ⟨t, mem, named, Reporter.highlights_of_mem _ mem⟩
  · cases goes : o.keepsGoing with
    | true => exact ⟨_, [], (List.append_nil _).symm, (CommandLine.runFile_going goes).1⟩
    | false =>
      obtain ⟨rest, split⟩ := Entry.exists_untilReport (CommandLine.fileLog o source)
      exact ⟨_, rest, split, (CommandLine.runFile_stopping goes).1⟩

/-- An unexpected sign in the second of two texts, which is highlighted. -/
theorem shows_reports_sign :
    let first := initial (.initial true "<in>" .plain) CommandLine.Options.default.presentation
    let second := (first.carryOut "1 + 1").2
    let notice := Notice.ofFault
      ⟨.parsing .unexpectedToken, some ⟨.operator .times, ⟨1, 4, 4⟩, "*"⟩⟩
    first.texts ["1 + 1", "x + * y"] = [(first, "1 + 1"), (second, "x + * y")] ∧
      .report notice ∈ second.presentation.log (second.session.run "x + * y") ∧
      (∀ t, notice.token = some t →
        (second.reporter.register "x + * y").Shows ["1 + 1"] "x + * y" t) ∧
      (second.carryOut "x + * y").1.output = Entry.texts (second.reporter.register "x + * y")
        (second.presentation.log (second.session.run "x + * y")) := by
  intro first second notice
  have ran : first.texts ["1 + 1", "x + * y"] = [(first, "1 + 1"), (second, "x + * y")] :=
    texts_pair (by decide) (by decide) (by decide) (by decide) rfl
  have log : second.presentation.log (second.session.run "x + * y") = [.report notice] := by
    decide +kernel
  obtain ⟨output, reported, -⟩ := @shows_reports second "x + * y" _ _ _ [(first, "1 + 1")] [] ran
  have mem : .report notice ∈ second.presentation.log (second.session.run "x + * y") := by
    rw [log]
    exact List.mem_singleton_self _
  exact ⟨ran, mem, fun t => reported notice t mem, output⟩

/-- A fault in the body of a function is shown against the text in which the function is called.
There is nothing at the column of the parameter, and nothing is highlighted. -/
theorem highlights_nothing_of_past :
    let first := initial (.initial true "<in>" .plain) CommandLine.Options.default.presentation
    let second := (first.carryOut "\\func\x7bf(x)\x7d\x7bx + 1\x7d").2
    let parameter : Token := ⟨.identifier, ⟨1, 12, 12⟩, "x"⟩
    let shown := second.reporter.register "f(f)"
    first.texts ["\\func\x7bf(x)\x7d\x7bx + 1\x7d", "f(f)"] =
        [(first, "\\func\x7bf(x)\x7d\x7bx + 1\x7d"), (second, "f(f)")] ∧
      second.presentation.log (second.session.run "f(f)") =
        [.report ⟨.citing "" "x" " cannot be used as an operand here", parameter, false, true⟩] ∧
      shown.excerpt? parameter = some "  f(f)\n              ^" ∧ ¬shown.Highlights parameter := by
  intro first second parameter shown
  refine ⟨texts_pair (by decide) (by decide) (by decide) (by decide) rfl, by decide +kernel,
    by decide +kernel, ?_⟩
  rintro ⟨before, after, line, column, -⟩
  have only : shown.lines = ["f(f)"] := by decide +kernel
  rw [only] at line
  have length := congrArg String.length (Option.some_inj.1 line)
  rw [String.length_append, String.length_append, column] at length
  have short : "f(f)".length = 4 := by decide
  have within : parameter.position.column = 12 := rfl
  omega

end Shell

end TexAlgebra
