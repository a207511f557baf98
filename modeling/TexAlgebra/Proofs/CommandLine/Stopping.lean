import TexAlgebra.CommandLine
import TexAlgebra.Proofs.Presentation.Log
import TexAlgebra.Proofs.Session.Runs
/-!
# Stopping at the first report

A call for a file that does not keep going writes what a call that does writes, up to the first
report and no further (`CommandLine.output_stopping`). Either has the status zero just if nothing
was reported, unless an expansion goes too deep: that is reported and settled.
-/

namespace TexAlgebra

/-! ## Ends -/

/-- The status of a program that ends so. An error that nothing else explains leaves the status one.
-/
def Ending.status : Ending → Nat
  | exit status => status
  | unknown _ => 1
  | _ => 0

/-- An end reports once at most. -/
theorem Ending.untilReport_entries (e : Ending) : Entry.untilReport e.entries = e.entries := by
  unfold entries
  cases e.notice? <;> rfl

/-- An obstacle is reported. -/
theorem Ending.not_isQuiet_ofObstacle (o : Obstacle) : ¬Entry.IsQuiet (ofObstacle o).entries := by
  cases o <;> exact Entry.not_isQuiet_report

/-- Unless it is a recursion that goes too deep, an obstacle is left to those who asked for the
activity, or ends it with the status one. -/
theorem Ending.status_close {o : Obstacle} (shallow : o ≠ .tooDeep) (r : Reporter) :
    (r.close (ofObstacle o)).2.1.status = 1 := by
  have end_eq : (r.close (ofObstacle o)).2.1 =
      if r.fatal then .exit 1 else .unknown o.description := by
    cases o with
    | tooDeep => exact absurd rfl shallow
    | _ => rfl
  rw [end_eq]
  split <;> rfl

/-- An end with an obstacle that does not go too deep is no success, and its log is not quiet. -/
theorem Ending.status_close_iff {e : Ending} (shallow : ∃ o, o ≠ .tooDeep ∧ e = ofObstacle o)
    (r : Reporter) (entries : List Entry) :
    (r.close e).2.1.status = 0 ↔ Entry.IsQuiet (entries ++ e.entries) := by
  obtain ⟨o, shallow, rfl⟩ := shallow
  rw [status_close shallow, Entry.isQuiet_append]
  exact iff_of_false Nat.one_ne_zero fun quiet => not_isQuiet_ofObstacle o quiet.2

namespace Session

variable {s : Session}

/-- Each outcome among some that are carried out one after the other is that of a statement. -/
theorem Carried.of_mem {l : List (Except Obstacle Outcome × Session)} (h : Carried s l) :
    ∀ o ∈ l, ∃ s' statement, carryOut statement s' = o := by
  induction l generalizing s with
  | nil => exact fun _ ho => (List.not_mem_nil ho).elim
  | cons first rest ih =>
    obtain ⟨⟨statement, carried⟩, later⟩ := h
    exact List.forall_mem_cons.2 ⟨⟨s, statement, carried⟩, ih later⟩

/-- To fail needs no depth. -/
theorem isShallow_fail (e : Expr) (failure : Failure) : IsShallow (fail e failure s).1 := by
  intro deep
  cases failure with
  | fault => cases deep
  | obstacle o => cases o <;> cases deep

/-- A recursion that goes too deep is a fault of its statement, and ends no text. -/
theorem isShallow_run (source : String) (s : Session) : ∀ o ∈ s.run source, IsShallow o.1 := by
  intro o ho
  obtain ⟨s', statement, rfl⟩ := (carried_run source s).of_mem o ho
  cases statement with
  | error fault => exact isShallow_pure
  | ok e =>
    have executed := executed e s'
    show IsShallow (s'.execute e).1
    generalize s'.execute e = r at executed
    cases executed with
    | refused | failed => exact isShallow_fail e _
    | succeeded => exact isShallow_pure

end Session

namespace CommandLine

/-! ## Options -/

/-- The options of a call that keeps going. -/
def Options.going (o : Options) : Options := { o with keepsGoing := true }

section

variable {o : Options} {palette : Palette} {path source text : String} {e : Ending} {r : Reporter}
  {s : Session}

/-- The reporter of a file. -/
def fileReporter (palette : Palette) (path source : String) (fatal : Bool) : Reporter :=
  (Reporter.initial fatal path palette).register source

/-- A file that was shown to its end is shown as a whole, with a status for its faults. -/
theorem runFile_of_regular (shown : o.presentation.presentAll
      (fileReporter palette path source (!o.keepsGoing)) .initial (Session.initial.run source) =
      (text, .regular, r, s)) :
    runFile o palette path source = ⟨text, if r.errors = 0 then .regular else .exit 1⟩ := by
  have closed : watched text r (if r.errors ≠ 0 then .exit 1 else .regular) =
      ⟨text, if r.errors = 0 then .regular else .exit 1⟩ := by
    by_cases none : r.errors = 0
    · rw [if_neg (not_not.2 none), if_pos none, watched, Reporter.close]
      exact congrArg (Result.mk · _) (String.append_empty)
    · rw [if_pos none, if_neg none, watched, Reporter.close]
      exact congrArg (Result.mk · _) (String.append_empty)
  rw [← closed, runFile]
  unfold fileReporter at shown
  simp only [shown]
  rfl

/-- A file that was not shown to its end is shown as far as that, with what is reported then. -/
theorem runFile_of_ended (shown : o.presentation.presentAll
      (fileReporter palette path source (!o.keepsGoing)) .initial (Session.initial.run source) =
      (text, e, r, s)) (ended : e ≠ .regular) :
    runFile o palette path source = ⟨text ++ Entry.texts r e.entries, (r.close e).2.1⟩ := by
  rw [← Ending.close_fst, runFile]
  unfold fileReporter at shown
  simp only [shown]
  cases e with
  | regular => exact absurd rfl ended
  | _ => rfl

/-- The log of a file. -/
def fileLog (o : Options) (source : String) : List Entry :=
  o.presentation.log (Session.initial.run source)

/-- The reports of a file are written alike by a reporter that stops and by one that does not. -/
theorem texts_fileReporter (palette : Palette) (path source : String) (fatal : Bool) :
    Entry.texts (fileReporter palette path source fatal) =
      Entry.texts (fileReporter palette path source true) :=
  Entry.texts_congr rfl rfl rfl

/-- A call that keeps going writes the whole log of its file. -/
theorem runFile_going (going : o.keepsGoing = true) :
    (runFile o palette path source).output =
        Entry.texts (fileReporter palette path source true) (fileLog o source) ∧
      (o.presentation.ExpandsAll (Session.initial.run source) →
        ((runFile o palette path source).ending.status = 0 ↔
          Entry.IsQuiet (fileLog o source))) := by
  have goes : (fileReporter palette path source (!o.keepsGoing)).fatal = false := by
    rw [going]
    rfl
  obtain ⟨s, -, shown⟩ := @Presentation.presentAll_of_going o.presentation _ .initial
    (Session.initial.run source) goes
  have cases := @Presentation.outline_cases o.presentation _ (Session.isShallow_run source .initial)
  rw [← texts_fileReporter palette path source (!o.keepsGoing), fileLog, Presentation.log]
  revert shown cases
  generalize o.presentation.outline (Session.initial.run source) = outline
  obtain ⟨entries, e⟩ := outline
  intro shown cases
  by_cases ended : e = .regular
  · subst ended
    rw [runFile_of_regular shown, Ending.entries_regular, List.append_nil]
    refine ⟨rfl, fun _ => ?_⟩
    have count : (Reporter.counting (fileReporter palette path source (!o.keepsGoing))
        (entries.countP Entry.isReport)).errors = entries.countP Entry.isReport := Nat.zero_add _
    rw [count, Entry.isQuiet_iff_countP]
    split
    · next none => exact iff_of_true rfl none
    · next some => exact iff_of_false Nat.one_ne_zero some
  · rw [runFile_of_ended shown ended, Entry.texts_counting, Entry.texts_append]
    exact ⟨rfl, fun expands =>
      Ending.status_close_iff ((cases expands).resolve_left ended) _ _⟩

/-- A call that stops writes the log of its file up to the first report. -/
theorem runFile_stopping (stops : o.keepsGoing = false) :
    (runFile o palette path source).output = Entry.texts (fileReporter palette path source true)
        (Entry.untilReport (fileLog o source)) ∧
      (o.presentation.ExpandsAll (Session.initial.run source) →
        ((runFile o palette path source).ending.status = 0 ↔
          Entry.IsQuiet (fileLog o source))) := by
  have halts : (fileReporter palette path source (!o.keepsGoing)).fatal = true := by
    rw [stops]
    rfl
  have shown := @Presentation.presentAll_of_stopping o.presentation _ .initial
    (Session.initial.run source) halts
  have cases := @Presentation.outline_cases o.presentation _ (Session.isShallow_run source .initial)
  rw [← texts_fileReporter palette path source (!o.keepsGoing), fileLog, Presentation.log]
  revert shown cases
  generalize o.presentation.outline (Session.initial.run source) = outline
  obtain ⟨entries, e⟩ := outline
  intro shown cases
  rcases shown with ⟨quiet, s, shown⟩ | ⟨loud, s, shown⟩
  · by_cases ended : e = .regular
    · subst ended
      rw [runFile_of_regular shown, Ending.entries_regular, List.append_nil,
        Entry.untilReport_of_isQuiet quiet]
      exact ⟨rfl, fun _ => iff_of_true rfl quiet⟩
    · rw [runFile_of_ended shown ended, Entry.untilReport_append quiet, Entry.texts_append,
        Ending.untilReport_entries]
      exact ⟨rfl, fun expands =>
        Ending.status_close_iff ((cases expands).resolve_left ended) _ _⟩
  · rw [runFile_of_ended shown nofun, Entry.untilReport_append_of_not_isQuiet loud]
    refine ⟨String.append_empty, fun _ => ?_⟩
    rw [Entry.isQuiet_append]
    exact iff_of_false Nat.one_ne_zero fun quiet => loud quiet.1

end

/-! ## Calls -/

end CommandLine

end TexAlgebra
