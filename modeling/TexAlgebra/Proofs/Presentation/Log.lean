import TexAlgebra.Presentation
import TexAlgebra.Proofs.Printer.Obstacles
/-!
# Logs of presentations

What is written for the outcomes of a text is a log of results and reports, in order. A reporter
that keeps going writes all of it (`Presentation.presentAll_of_going`). One that stops at the first
report writes it up to there (`Presentation.presentAll_of_stopping`), and then nothing more. Every
report that names a token is that of a fault of the text (`Presentation.exists_of_mem_log`).
-/

namespace TexAlgebra

/-! ## Counts -/

/-- The reporter after some more reports. -/
def Reporter.counting (r : Reporter) (more : Nat) : Reporter := { r with errors := r.errors + more }

/-- To count errors does not make them fatal. -/
@[simp] theorem Reporter.fatal_counting (r : Reporter) (more : Nat) :
    (r.counting more).fatal = r.fatal := rfl

/-- Errors are counted one after the other. -/
theorem Reporter.counting_counting (r : Reporter) (m n : Nat) :
    (r.counting m).counting n = r.counting (n + m) := by
  rw [counting, counting, counting, Nat.add_comm n m, ← Nat.add_assoc]

/-! ## Entries -/

deriving instance DecidableEq for Notice

/-- A piece of what is written for a text: the lines of a result, or the report of a notice. -/
inductive Entry where
  | result (lines : String)
  | report (notice : Notice)
  deriving DecidableEq

namespace Entry

/-- Whether an entry is a report. -/
def isReport : Entry → Bool
  | result _ => false
  | report _ => true

/-- An entry as a reporter writes it. -/
def text (r : Reporter) : Entry → String
  | result lines => lines
  | report notice => r.format notice ++ "\n"

/-- What is written for several entries. -/
def texts (r : Reporter) (entries : List Entry) : String := String.join (entries.map (text r))

/-- The entries up to the first report, which is the last of them. -/
def untilReport : List Entry → List Entry
  | [] => []
  | result lines :: rest => result lines :: untilReport rest
  | report notice :: _ => [report notice]

variable {r r' : Reporter} {entries later : List Entry} {e : Entry}

@[simp] theorem texts_nil : texts r [] = "" := rfl

@[simp] theorem texts_cons : texts r (e :: entries) = e.text r ++ texts r entries := by
  rw [texts, texts, List.map_cons, String.join_cons]

/-- Entries are written one after the other. -/
theorem texts_append : texts r (entries ++ later) = texts r entries ++ texts r later := by
  rw [texts, texts, texts, List.map_append, String.join_append]

/-- What a reporter writes depends on its text and its colours alone: not on what it has reported
before, nor on whether it stops. -/
theorem texts_congr (path : r.path = r'.path) (lines : r.lines = r'.lines)
    (palette : r.palette = r'.palette) : texts r = texts r' := by
  obtain ⟨fatal, path, lines, errors, palette⟩ := r
  obtain ⟨fatal', path', lines', errors', palette'⟩ := r'
  cases path
  cases lines
  cases palette
  funext entries
  refine congrArg String.join (List.map_congr_left fun e _ => ?_)
  cases e <;> rfl

/-- What is written does not depend on the count. -/
@[simp] theorem texts_counting (r : Reporter) (more : Nat) : texts (r.counting more) = texts r :=
  texts_congr rfl rfl rfl

/-- Whether nothing is reported. -/
def IsQuiet (entries : List Entry) : Prop := ∀ e ∈ entries, e.isReport = false

/-- A log without entries is quiet. -/
theorem isQuiet_nil : IsQuiet [] := fun _ h => (List.not_mem_nil h).elim

/-- A result is quiet. -/
theorem isQuiet_result {lines : String} : IsQuiet (result lines :: entries) ↔ IsQuiet entries := by
  rw [IsQuiet, List.forall_mem_cons]
  exact and_iff_right rfl

/-- A report is not quiet. -/
theorem not_isQuiet_report {notice : Notice} : ¬IsQuiet (report notice :: entries) :=
  fun quiet => Bool.noConfusion (quiet _ List.mem_cons_self)

/-- Two logs are quiet together if both are. -/
theorem isQuiet_append : IsQuiet (entries ++ later) ↔ IsQuiet entries ∧ IsQuiet later :=
  List.forall_mem_append

/-- A log is quiet if it counts no report. -/
theorem isQuiet_iff_countP : IsQuiet entries ↔ entries.countP isReport = 0 := by
  rw [List.countP_eq_zero]
  exact forall₂_congr fun e _ => Bool.not_eq_true _ ▸ Iff.rfl

/-- A log that starts without a report is written to the first report behind. -/
theorem untilReport_append (quiet : IsQuiet entries) :
    untilReport (entries ++ later) = entries ++ untilReport later := by
  induction entries with
  | nil => rfl
  | cons e entries ih =>
    cases e with
    | result lines => rw [List.cons_append, untilReport, ih (isQuiet_result.1 quiet)]; rfl
    | report notice => exact absurd quiet not_isQuiet_report

/-- What follows a report is not reached. -/
theorem untilReport_append_of_not_isQuiet (loud : ¬IsQuiet entries) :
    untilReport (entries ++ later) = untilReport entries := by
  induction entries with
  | nil => exact absurd isQuiet_nil loud
  | cons e entries ih =>
    cases e with
    | result lines =>
      rw [List.cons_append, untilReport, untilReport, ih (mt isQuiet_result.2 loud)]
    | report notice => rfl

/-- A quiet log is not cut off. -/
theorem untilReport_of_isQuiet (quiet : IsQuiet entries) : untilReport entries = entries := by
  have whole : untilReport (entries ++ []) = entries ++ [] := untilReport_append quiet
  rwa [List.append_nil] at whole

/-- A log starts with what comes before its first report and the report. -/
theorem exists_untilReport (entries : List Entry) :
    ∃ rest, entries = untilReport entries ++ rest := by
  induction entries with
  | nil => exact ⟨[], rfl⟩
  | cons e entries ih =>
    cases e with
    | result lines =>
      obtain ⟨rest, split⟩ := ih
      exact ⟨rest, congrArg (_ :: ·) split⟩
    | report notice => exact ⟨entries, rfl⟩

end Entry

/-! ## Logs -/

namespace Ending

/-- The entries of a log that an end accounts for. -/
def entries (e : Ending) : List Entry := (e.notice?.map .report).toList

/-- A regular end reports nothing. -/
theorem entries_regular : regular.entries = [] := rfl

/-- What is written about an end is what is written for its entries. -/
theorem close_fst (r : Reporter) (e : Ending) : (r.close e).1 = Entry.texts r e.entries := by
  unfold Reporter.close entries
  cases e.notice? with
  | none => rfl
  | some notice =>
    rw [Option.map_some, Option.toList_some, Entry.texts_cons, Entry.texts_nil, String.append_empty]
    rfl

end Ending

namespace Presentation

variable {p : Presentation}

/-- What is written for the outcomes of a text if no report stops it: the entries, and the end that
an obstacle brings about. -/
def outline (p : Presentation) :
    List (Except Obstacle Outcome × Session) → List Entry × Ending
  | [] => ([], .regular)
  | (.error o, _) :: _ => ([], .ofObstacle o)
  | (.ok outcome, _) :: rest =>
    match outcome.result with
    | .error fault => (.report (.ofFault fault) :: (outline p rest).1, (outline p rest).2)
    | .ok value =>
      match written (p.due outcome.parsed value) with
      | (lines, .regular) => (.result lines :: (outline p rest).1, (outline p rest).2)
      | (lines, e) => ([.result lines], e)

/-- All that is written for the outcomes of a text if no report stops it, the report of an obstacle
included. -/
def log (p : Presentation) (outcomes : List (Except Obstacle Outcome × Session)) : List Entry :=
  (p.outline outcomes).1 ++ (p.outline outcomes).2.entries

variable {r : Reporter} {s : Session}

/-! ## Steps -/

section

variable {outcome : Outcome} {rest : List (Except Obstacle Outcome × Session)} {s' : Session}
  {text : String} {e : Ending} {r' : Reporter}

/-- After an outcome that ends in the regular way the next one is presented. -/
theorem presentAll_cons (h : p.present outcome r = (text, .regular, r')) :
    p.presentAll r s ((.ok outcome, s') :: rest) =
      (text ++ (p.presentAll r' s' rest).1, (p.presentAll r' s' rest).2) := by
  rw [presentAll, h]

/-- An outcome that ends otherwise is the last one. -/
theorem presentAll_last (h : p.present outcome r = (text, e, r')) (ended : e ≠ .regular) :
    p.presentAll r s ((.ok outcome, s') :: rest) = (text, e, r', s') := by
  rw [presentAll, h]
  cases e with
  | regular => exact absurd rfl ended
  | _ => rfl

variable {parsed : Option Expr} {fault : Fault} {value : Expr} {lines : String}

/-- A fault is reported and counted. -/
theorem present_fault : p.present ⟨parsed, .error fault⟩ r =
    (Entry.text r (.report (.ofFault fault)), if r.fatal then .exit 1 else .regular,
      r.counting 1) := rfl

/-- A value is shown in its lines. -/
theorem present_value (h : written (p.due parsed value) = (lines, e)) :
    p.present ⟨parsed, .ok value⟩ r = (lines, e, r) := by
  show ((written (p.due parsed value)).1, (written (p.due parsed value)).2, r) = _
  rw [h]

/-- A fault is an entry of the log, and the rest goes on. -/
theorem outline_fault : p.outline ((.ok ⟨parsed, .error fault⟩, s') :: rest) =
    (.report (.ofFault fault) :: (p.outline rest).1, (p.outline rest).2) := rfl

/-- A value is an entry of the log, and the rest goes on. -/
theorem outline_value (h : written (p.due parsed value) = (lines, .regular)) :
    p.outline ((.ok ⟨parsed, .ok value⟩, s') :: rest) =
      (.result lines :: (p.outline rest).1, (p.outline rest).2) := by
  rw [outline]
  simp only [h]

/-- A value that cannot be shown to its end is the last entry of the log. -/
theorem outline_last (h : written (p.due parsed value) = (lines, e)) (ended : e ≠ .regular) :
    p.outline ((.ok ⟨parsed, .ok value⟩, s') :: rest) = ([.result lines], e) := by
  rw [outline]
  simp only [h]

end

/-! ## Runs -/

variable {outcomes : List (Except Obstacle Outcome × Session)}

/-- A reporter that keeps going writes the outline of a text, counts its reports, and ends where the
outline does. -/
theorem presentAll_of_going (going : r.fatal = false) : ∃ s' ∈ s :: outcomes.map (·.2),
    p.presentAll r s outcomes =
      (Entry.texts r (p.outline outcomes).1, (p.outline outcomes).2,
        r.counting ((p.outline outcomes).1.countP Entry.isReport), s') := by
  induction outcomes generalizing r s with
  | nil => exact ⟨s, List.mem_cons_self, rfl⟩
  | cons first rest ih =>
    obtain ⟨result, after⟩ := first
    cases result with
    | error o => exact ⟨after, List.mem_cons_of_mem _ List.mem_cons_self, rfl⟩
    | ok outcome =>
      obtain ⟨parsed, result⟩ := outcome
      cases result with
      | error fault =>
        have here : p.present ⟨parsed, .error fault⟩ r = (_, _, r.counting 1) := present_fault
        rw [going, if_neg Bool.false_ne_true] at here
        -- the report is counted, and the run goes on
        obtain ⟨s', reached, later⟩ := @ih (r.counting 1) after going
        refine ⟨s', List.mem_cons_of_mem _ reached, ?_⟩
        rw [presentAll_cons here, later, outline_fault, Entry.texts_cons, Entry.texts_counting,
          Reporter.counting_counting, List.countP_cons_of_pos rfl]
      | ok value =>
        cases wrote : written (p.due parsed value) with
        | mk lines e =>
          have here : p.present ⟨parsed, .ok value⟩ r = (lines, e, r) := present_value wrote
          by_cases ended : e = .regular
          · subst ended
            obtain ⟨s', reached, later⟩ := @ih r after going
            refine ⟨s', List.mem_cons_of_mem _ reached, ?_⟩
            rw [presentAll_cons here, later, outline_value wrote, Entry.texts_cons,
              List.countP_cons_of_neg Bool.false_ne_true]
            rfl
          · refine ⟨after, List.mem_cons_of_mem _ List.mem_cons_self, ?_⟩
            rw [presentAll_last here ended, outline_last wrote ended, Entry.texts_cons,
              Entry.texts_nil, String.append_empty]
            rfl

/-- A reporter that stops at the first report writes the outline up to there. -/
theorem presentAll_of_stopping (stops : r.fatal = true) :
    (Entry.IsQuiet (p.outline outcomes).1 ∧ ∃ s', p.presentAll r s outcomes =
      (Entry.texts r (p.outline outcomes).1, (p.outline outcomes).2, r, s')) ∨
    (¬Entry.IsQuiet (p.outline outcomes).1 ∧ ∃ s', p.presentAll r s outcomes =
      (Entry.texts r (Entry.untilReport (p.outline outcomes).1), .exit 1, r.counting 1, s')) := by
  induction outcomes generalizing s with
  | nil => exact .inl ⟨Entry.isQuiet_nil, s, rfl⟩
  | cons first rest ih =>
    obtain ⟨result, after⟩ := first
    cases result with
    | error o => exact .inl ⟨Entry.isQuiet_nil, after, rfl⟩
    | ok outcome =>
      obtain ⟨parsed, result⟩ := outcome
      cases result with
      | error fault =>
        have here : p.present ⟨parsed, .error fault⟩ r = (_, _, r.counting 1) := present_fault
        rw [stops, if_pos rfl] at here
        rw [outline_fault]
        -- the first report ends the run
        refine .inr ⟨Entry.not_isQuiet_report, after, ?_⟩
        rw [presentAll_last here nofun, Entry.untilReport, Entry.texts_cons, Entry.texts_nil,
          String.append_empty]
      | ok value =>
        cases wrote : written (p.due parsed value) with
        | mk lines e =>
          have here : p.present ⟨parsed, .ok value⟩ r = (lines, e, r) := present_value wrote
          by_cases ended : e = .regular
          · subst ended
            rw [outline_value wrote, Entry.isQuiet_result, Entry.untilReport, presentAll_cons here,
              Entry.texts_cons, Entry.texts_cons]
            rcases @ih after with ⟨quiet, s', later⟩ | ⟨loud, s', later⟩
            · exact .inl ⟨quiet, s', by rw [later]; rfl⟩
            · exact .inr ⟨loud, s', by rw [later]; rfl⟩
          · rw [outline_last wrote ended, presentAll_last here ended]
            refine .inl ⟨Entry.isQuiet_result.2 Entry.isQuiet_nil, after, ?_⟩
            rw [Entry.texts_cons, Entry.texts_nil, String.append_empty]
            rfl

/-! ## Ends -/

/-- Whether no value among some outcomes is expanded too deeply. -/
def ExpandsAll (p : Presentation) (outcomes : List (Except Obstacle Outcome × Session)) : Prop :=
  ∀ extent ∈ p.expansion, ∀ o ∈ outcomes, ∀ parsed value, o.1 = .ok ⟨parsed, .ok value⟩ →
    IsShallow (value.expandBy extent)

/-- A line that is not written meets an obstacle. -/
theorem exists_of_line {e : Expr} {ending : Ending} (h : p.line e = .error ending) :
    ∃ o, o ≠ .tooDeep ∧ ending = .ofObstacle o := by
  rw [line] at h
  split at h
  · cases h
  · next o meets =>
    cases h
    exact ⟨o, fun deep => e.isShallow_tex p.style (deep ▸ meets), rfl⟩

/-- Lines that are due end with an obstacle only, and go too deep only in an expansion. -/
theorem exists_of_due {parsed : Option Expr} {value : Expr} {ending : Ending}
    (h : .error ending ∈ p.due parsed value) : ∃ o, ending = .ofObstacle o ∧
      (o = .tooDeep → ∃ extent ∈ p.expansion, ¬IsShallow (value.expandBy extent)) := by
  have of_line {e : Expr} (h : p.line e = .error ending) : ∃ o, ending = .ofObstacle o ∧
      (o = .tooDeep → ∃ extent ∈ p.expansion, ¬IsShallow (value.expandBy extent)) := by
    obtain ⟨o, shallow, met⟩ := exists_of_line h
    exact ⟨o, met, fun deep => absurd deep shallow⟩
  rcases List.mem_append.1 h with read | rest
  · split at read
    · split at read
      · exact of_line (List.mem_singleton.1 read).symm
      · cases read
    · cases read
  rcases List.mem_cons.1 rest with own | expanded
  · exact of_line own.symm
  · split at expanded
    · cases expanded
    · next extent asked =>
      split at expanded
      · exact of_line (List.mem_singleton.1 expanded).symm
      · next o meets =>
        cases List.mem_singleton.1 expanded
        exact ⟨o, rfl, fun deep => ⟨extent, asked, fun shallow => shallow (deep ▸ meets)⟩⟩

/-- Lines are written to the end, or as far as the first that ends otherwise. -/
theorem written_cases (lines : List (Except Ending String)) :
    (written lines).2 = .regular ∨ .error (written lines).2 ∈ lines := by
  induction lines with
  | nil => exact .inl rfl
  | cons line rest ih =>
    cases line with
    | error e => exact .inr List.mem_cons_self
    | ok line => exact ih.imp_right (List.mem_cons_of_mem _)

/-- A text ends in the regular way or with an obstacle, and goes too deep only where one of its
statements or an expansion does. -/
theorem outline_ending (p : Presentation) (outcomes : List (Except Obstacle Outcome × Session)) :
    (p.outline outcomes).2 = .regular ∨ ∃ o, (p.outline outcomes).2 = .ofObstacle o ∧
      (o = .tooDeep → (∃ r ∈ outcomes, ¬IsShallow r.1) ∨ ¬p.ExpandsAll outcomes) := by
  induction outcomes with
  | nil => exact .inl rfl
  | cons first rest ih =>
    -- what is said of the rest is said of the whole
    have later : (p.outline rest).2 = .regular ∨ ∃ o, (p.outline rest).2 = .ofObstacle o ∧
        (o = .tooDeep → (∃ r ∈ first :: rest, ¬IsShallow r.1) ∨ ¬p.ExpandsAll (first :: rest)) := by
      refine ih.imp_right fun ⟨o, met, deep⟩ => ⟨o, met, fun same => (deep same).imp ?_ ?_⟩
      · exact fun ⟨r, hr, deep⟩ => ⟨r, List.mem_cons_of_mem _ hr, deep⟩
      · exact mt fun expands extent asked r hr =>
          expands extent asked r (List.mem_cons_of_mem _ hr)
    obtain ⟨result, s⟩ := first
    cases result with
    | error o =>
      exact .inr ⟨o, rfl, fun deep => .inl ⟨_, List.mem_cons_self, fun shallow =>
        shallow (congrArg Except.error deep)⟩⟩
    | ok outcome =>
      obtain ⟨parsed, result⟩ := outcome
      cases result with
      | error fault => exact later
      | ok value =>
        cases wrote : written (p.due parsed value) with
        | mk lines e =>
          by_cases ended : e = .regular
          · subst ended
            rw [outline_value wrote]
            exact later
          · rw [outline_last wrote ended]
            have met := (written_cases (p.due parsed value)).resolve_left
            rw [wrote] at met
            obtain ⟨o, rfl, deep⟩ := exists_of_due (met ended)
            refine .inr ⟨o, rfl, fun same => .inr fun expands => ?_⟩
            obtain ⟨extent, asked, deep⟩ := deep same
            exact deep (expands extent asked _ List.mem_cons_self parsed value rfl)

/-- A text whose statements and expansions do not go too deep ends in the regular way, or with
another obstacle. -/
theorem outline_cases (shallow : ∀ o ∈ outcomes, IsShallow o.1) (expands : p.ExpandsAll outcomes) :
    (p.outline outcomes).2 = .regular ∨
      ∃ o, o ≠ .tooDeep ∧ (p.outline outcomes).2 = .ofObstacle o := by
  refine (p.outline_ending outcomes).imp_right fun ⟨o, met, deep⟩ => ⟨o, fun same => ?_, met⟩
  rcases deep same with ⟨r, hr, deep⟩ | deep
  · exact deep (shallow r hr)
  · exact deep expands

/-! ## Reports of a text -/

variable {notice : Notice}

/-- A report of a log is one of a fault. -/
theorem exists_of_mem_outline (h : .report notice ∈ (p.outline outcomes).1) :
    ∃ parsed fault s, (.ok ⟨parsed, .error fault⟩, s) ∈ outcomes ∧ notice = .ofFault fault := by
  induction outcomes with
  | nil => exact (List.not_mem_nil h).elim
  | cons first rest ih =>
    -- the rest of the log belongs to the rest of the outcomes
    have later (h : .report notice ∈ (p.outline rest).1) : ∃ parsed fault s,
        (.ok ⟨parsed, .error fault⟩, s) ∈ first :: rest ∧ notice = .ofFault fault := by
      obtain ⟨parsed, fault, s, mem, made⟩ := ih h
      exact ⟨parsed, fault, s, List.mem_cons_of_mem _ mem, made⟩
    obtain ⟨result, s⟩ := first
    cases result with
    | error o => exact (List.not_mem_nil h).elim
    | ok outcome =>
      obtain ⟨parsed, result⟩ := outcome
      cases result with
      | error fault =>
        rw [outline_fault] at h
        rcases List.mem_cons.1 h with own | rest
        · exact ⟨parsed, fault, s, List.mem_cons_self, Entry.report.inj own⟩
        · exact later rest
      | ok value =>
        cases wrote : written (p.due parsed value) with
        | mk lines e =>
          by_cases ended : e = .regular
          · subst ended
            rw [outline_value wrote] at h
            exact later ((List.mem_cons.1 h).resolve_left nofun)
          · rw [outline_last wrote ended] at h
            cases List.mem_singleton.1 h

/-- What is reported of a text is a fault of one of its statements, or names no token. -/
theorem exists_of_mem_log (h : .report notice ∈ p.log outcomes) : notice.token = none ∨
    ∃ parsed fault s, (.ok ⟨parsed, .error fault⟩, s) ∈ outcomes ∧ notice = .ofFault fault := by
  rcases List.mem_append.1 h with outlined | ended
  · exact .inr (exists_of_mem_outline outlined)
  · left
    obtain regular | ⟨o, met, -⟩ := p.outline_ending outcomes
    · rw [regular] at ended
      exact (List.not_mem_nil ended).elim
    · rw [met] at ended
      cases o <;> (obtain rfl := Entry.report.inj (List.mem_singleton.1 ended)) <;> rfl

end Presentation

end TexAlgebra
