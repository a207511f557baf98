import Mathlib.Data.List.DropRight
import TexAlgebra.Proofs.CommandLine.Stopping
/-!
# Continued lines

A shell runs several lines as one text where a line ends in a single backslash or leaves braces
open. Which lines belong together can be told from the lines alone (`Shell.goesOn`). The text that
is run is those lines with line breaks between them, but a continued line loses all the backslashes
at its end (`Shell.stepAll_joined`): not only the one that asks for the next line, but also a mark
between two statements. Where no continued line ends in such a mark, every text is run as it was
given.
-/

namespace TexAlgebra.Shell

/-! ## Lines as they are taken -/

/-- Whether a line has no white space at its end, and is not empty. -/
def IsTaken (line : String) : Prop :=
  ∃ cs c, line.toList = cs ++ [c] ∧ Text.isBlank c = false

variable {line : String} {front : List String}

/-- A line that is not blank is taken. -/
theorem IsTaken.of_trimEnd {s : String} (h : Text.trimEnd s ≠ "") : IsTaken (Text.trimEnd s) := by
  have toList_eq : (Text.trimEnd s).toList = s.toList.rdropWhile Text.isBlank :=
    String.toList_ofList
  have some : s.toList.rdropWhile Text.isBlank ≠ [] := fun none =>
    h (String.toList_inj.1 (toList_eq.trans none))
  refine ⟨_, _, toList_eq.trans (List.dropLast_append_getLast some).symm, ?_⟩
  exact Bool.eq_false_iff.2 (List.rdropWhile_last_not _ _ some)

/-- A line is spelled out as it is, or as one that asks for help. -/
theorem spelledOut_cases (s : String) :
    spelledOut s = s ∨ ∃ rest, spelledOut s = "help " ++ rest := by
  unfold spelledOut
  split
  · exact .inr ⟨_, rfl⟩
  · exact .inl rfl

/-- A line that is not a command is taken. -/
theorem IsTaken.of_command (h : command line = .text line) : IsTaken line := by
  suffices trimmed : Text.trim line ≠ "" ∧ Text.trim line = line by
    rw [← trimmed.2]
    exact .of_trimEnd trimmed.1
  rw [command] at h
  by_cases none : Text.trim line = ""
  · rw [if_pos none] at h
    cases h
  rw [if_neg none] at h
  refine ⟨none, ?_⟩
  rcases spelledOut_cases (Text.trim line) with same | ⟨rest, asks⟩
  · simp only [same] at h
    split at h
    iterate 4 · cases h
    exact Command.text.inj h
  · -- A question mark is spelled out as a command, whatever follows it.
    have word : String.ofList (("help " ++ rest).toList.takeWhile isWordChar) = "help" := by
      rw [String.toList_append]
      exact congrArg String.ofList (by simp [isWordChar])
    simp only [asks, word] at h
    cases h

/-- Nothing is trimmed off a line that is taken, whatever is in front of it. -/
theorem IsTaken.trimEnd_append (h : IsTaken line) (s : String) :
    Text.trimEnd (s ++ line) = s ++ line := by
  obtain ⟨cs, c, toList_eq, solid⟩ := h
  apply String.toList_inj.1
  show (String.ofList ((s ++ line).toList.rdropWhile Text.isBlank)).toList = _
  rw [String.toList_ofList, String.toList_append, toList_eq, ← List.append_assoc,
    List.rdropWhile_concat_neg _ _ _ (by simp [solid])]

/-! ## Texts that go on -/

/-- Whether a line ends in two backslashes, as a mark between two statements does. -/
def EndsInMark (line : String) : Prop := ['\\', '\\'] <:+ line.toList

instance (line : String) : Decidable (EndsInMark line) :=
  inferInstanceAs (Decidable (['\\', '\\'] <:+ line.toList))

/-- Whether a line goes on with the next one, behind others that did: it ends in a single backslash,
or some brace among these lines is open. -/
def goesOn (front : List String) (line : String) : Bool :=
  let chars := (front ++ [line]).flatMap String.toList
  endsInBackslash line || chars.count '\x7d' < chars.count '\x7b'

/-- What a line that goes on says: everything but the single backslash at its end. -/
def kept (line : String) : String :=
  if endsInBackslash line then String.ofList line.toList.dropLast else line

/-- What some lines that go on are in front of the next one, where each says a part of it. -/
def opened (part : String → String) : List String → String
  | [] => ""
  | line :: rest => part line ++ "\n" ++ opened part rest

variable {part : String → String}

/-- One more line is added at the end. -/
theorem opened_concat (part : String → String) (front : List String) (line : String) :
    opened part (front ++ [line]) = opened part front ++ part line ++ "\n" := by
  induction front with
  | nil => simp [opened]
  | cons first rest ih => simp [opened, ih, String.append_assoc]

/-- Only what is kept of the lines matters. -/
theorem opened_congr {part' : String → String} (h : ∀ l ∈ front, part l = part' l) :
    opened part front = opened part' front := by
  induction front with
  | nil => rfl
  | cons first rest ih =>
    obtain ⟨here, later⟩ := List.forall_mem_cons.1 h
    rw [opened, opened, here, ih later]

/-! ## Backslashes at the end -/

/-- A text ends in a single backslash if it ends in a backslash and not in two, apart from white
space. -/
theorem endsInBackslash_iff (text : String) : endsInBackslash text = true ↔
    ['\\'] <:+ (Text.trimEnd text).toList ∧ ¬EndsInMark (Text.trimEnd text) := by
  rw [endsInBackslash, EndsInMark, ← List.reverse_prefix, ← List.reverse_prefix]
  split
  · next rest two =>
    rw [two]
    exact iff_of_false Bool.false_ne_true fun h => h.2 (List.prefix_append ['\\', '\\'] rest)
  · next rest other one =>
    rw [one]
    refine iff_of_true rfl ⟨List.prefix_append ['\\'] rest, ?_⟩
    rintro ⟨tail, split⟩
    cases split
    exact other _ rfl
  · next none =>
    refine iff_of_false Bool.false_ne_true ?_
    rintro ⟨⟨rest, one⟩, -⟩
    exact none _ one.symm

/-- What is in front of a line does not matter for whether the line ends in a single backslash,
unless it ends in a backslash itself. -/
theorem endsInBackslash_append (h : IsTaken line) {s : String} (apart : ¬['\\'] <:+ s.toList) :
    endsInBackslash (s ++ line) = endsInBackslash line := by
  have trimmed := h.trimEnd_append ""
  rw [String.empty_append] at trimmed
  rw [Bool.eq_iff_iff, endsInBackslash_iff, endsInBackslash_iff, h.trimEnd_append, trimmed]
  obtain ⟨cs, c, toList_eq, -⟩ := h
  simp only [EndsInMark, ← List.reverse_prefix, String.toList_append, List.reverse_append,
    toList_eq] at apart ⊢
  cases cs.reverse with
  | nil => simpa [List.cons_prefix_cons] using fun _ => apart
  | cons b bs => simp [List.cons_prefix_cons]

/-- All backslashes at the end are dropped. -/
theorem toList_withoutBackslashes (line : String) :
    (withoutBackslashes line).toList = line.toList.rdropWhile (· = '\\') := String.toList_ofList

/-- A line without its backslashes is the line as it should be kept, unless it ends in a mark. Then
it is shorter. -/
theorem withoutBackslashes_cases (h : IsTaken line) :
    (¬EndsInMark line ∧ withoutBackslashes line = kept line) ∨
      (EndsInMark line ∧ (withoutBackslashes line).length < (kept line).length) := by
  have ends := endsInBackslash_iff line
  have trimmed := h.trimEnd_append ""
  rw [String.empty_append] at trimmed
  rw [trimmed] at ends
  by_cases mark : EndsInMark line
  · refine .inr ⟨mark, ?_⟩
    -- a line that ends in a mark is kept as it is, both its backslashes included
    rw [kept, if_neg fun single => (ends.1 single).2 mark]
    obtain ⟨cs, toList_eq⟩ := mark
    have two : cs ++ ['\\', '\\'] = cs ++ ['\\'] ++ ['\\'] := by rw [List.append_assoc]; rfl
    have shorter := (List.rdropWhile_prefix (· = '\\') cs).length_le
    rw [← String.length_toList, ← String.length_toList, toList_withoutBackslashes, ← toList_eq, two,
      List.rdropWhile_concat_pos _ _ _ rfl, List.rdropWhile_concat_pos _ _ _ rfl]
    simp only [List.length_append, List.length_singleton]
    omega
  · refine .inl ⟨mark, String.toList_inj.1 ?_⟩
    obtain ⟨cs, c, toList_eq, -⟩ := h
    rw [toList_withoutBackslashes, toList_eq, kept]
    -- otherwise at most one backslash ends it, and that is not kept either
    by_cases one : c = '\\'
    · subst one
      rw [if_pos (ends.2 ⟨⟨cs, toList_eq.symm⟩, mark⟩), String.toList_ofList, toList_eq,
        List.rdropWhile_concat_pos _ _ _ rfl, List.dropLast_concat, List.rdropWhile_eq_self_iff]
      intro some last
      refine mark ⟨cs.dropLast, ?_⟩
      rw [toList_eq, ← List.dropLast_append_getLast some, of_decide_eq_true last, List.append_assoc,
        List.dropLast_concat]
      rfl
    · have solid : ¬endsInBackslash line = true := fun single => by
        obtain ⟨front, split⟩ := (ends.1 single).1
        exact one (List.singleton_inj.1 (List.append_inj' (toList_eq.symm.trans split.symm) rfl).2)
      rw [if_neg solid, toList_eq, List.rdropWhile_concat_neg _ _ _ (by simpa using one)]

/-! ## Joined lines -/

/-- Nothing but backslashes is dropped. -/
theorem count_withoutBackslashes {c : Char} (other : c ≠ '\\') (line : String) :
    (withoutBackslashes line).toList.count c = line.toList.count c := by
  have none : (line.toList.rtakeWhile (· = '\\')).count c = 0 := by
    refine List.count_eq_zero_of_not_mem fun mem => other ?_
    have := List.mem_rtakeWhile_imp mem
    exact of_decide_eq_true this
  have split : line.toList.rdropWhile (· = '\\') ++ line.toList.rtakeWhile (· = '\\') =
    line.toList := List.rdropWhile_append_rtakeWhile
  rw [← split, List.count_append, none, ← toList_withoutBackslashes, Nat.add_zero]

/-- Joined lines have the characters of the lines, but for backslashes and line breaks. -/
theorem count_opened {c : Char} (other : c ≠ '\\') (within : c ≠ '\n') (front : List String) :
    (opened withoutBackslashes front).toList.count c = (front.flatMap String.toList).count c := by
  induction front with
  | nil => rfl
  | cons first rest ih =>
    have feed : "\n".toList.count c = 0 :=
      List.count_eq_zero_of_not_mem fun mem => within (List.mem_singleton.1 mem)
    rw [opened, String.toList_append, String.toList_append, List.count_append, List.count_append,
      count_withoutBackslashes other, feed, ih, List.flatMap_cons, List.count_append, Nat.add_zero]

/-- Joined lines do not end with a backslash. -/
theorem not_suffix_opened (part : String → String) (front : List String) :
    ¬['\\'] <:+ (opened part front).toList := by
  rcases front.eq_nil_or_concat with rfl | ⟨before, last, rfl⟩
  · exact fun h => List.cons_ne_nil _ _ (List.suffix_nil.1 h)
  · rw [List.concat_eq_append, opened_concat, String.toList_append]
    rintro ⟨cs, split⟩
    cases (List.append_inj' split rfl).2

/-- The backslashes at the end of joined lines are those of the last line. -/
theorem withoutBackslashes_append {s : String} (apart : ¬['\\'] <:+ s.toList) (line : String) :
    withoutBackslashes (s ++ line) = s ++ withoutBackslashes line := by
  have whole : s.toList.rdropWhile (· = '\\') = s.toList := by
    rw [List.rdropWhile_eq_self_iff]
    intro some last
    refine apart ⟨s.toList.dropLast, ?_⟩
    rw [← of_decide_eq_true last, List.dropLast_append_getLast]
  apply String.toList_inj.1
  rw [toList_withoutBackslashes, String.toList_append, String.toList_append,
    toList_withoutBackslashes]
  generalize line.toList = cs
  induction cs using List.reverseRecOn with
  | nil => rw [List.append_nil, whole, List.rdropWhile_nil, List.append_nil]
  | append_singleton cs c ih =>
    rw [← List.append_assoc, List.rdropWhile_concat, List.rdropWhile_concat, ih]
    split
    · rfl
    · rw [List.append_assoc]

/-- Whether the joined lines go on can be told from the lines. -/
theorem continues_joined (h : IsTaken line) (front : List String) :
    continues (opened withoutBackslashes front ++ line) = goesOn front line := by
  simp only [continues, goesOn, endsInBackslash_append h (not_suffix_opened _ _),
    String.toList_append, List.count_append, List.flatMap_append, List.flatMap_singleton,
    count_opened (c := '\x7d') (by decide) (by decide),
    count_opened (c := '\x7b') (by decide) (by decide)]

/-- Lines without their backslashes are never longer than as they should be kept, and shorter if one
of them ends in a mark. -/
theorem length_opened (taken : ∀ l ∈ front, IsTaken l) :
    (opened withoutBackslashes front).length ≤ (opened kept front).length ∧
      ((∃ l ∈ front, EndsInMark l) →
        (opened withoutBackslashes front).length < (opened kept front).length) := by
  induction front with
  | nil =>
    rw [opened, opened]
    exact ⟨Nat.le_refl _, fun ⟨l, hl, _⟩ => (List.not_mem_nil hl).elim⟩
  | cons first rest ih =>
    obtain ⟨here, later⟩ := List.forall_mem_cons.1 taken
    obtain ⟨longer, shorter⟩ := ih later
    rw [opened, opened]
    simp only [String.length_append]
    rcases withoutBackslashes_cases here with ⟨unmarked, same⟩ | ⟨-, less⟩
    · rw [same]
      refine ⟨by omega, fun ⟨l, hl, mark⟩ => ?_⟩
      rcases List.mem_cons.1 hl with rfl | hl
      · exact absurd mark unmarked
      · have := shorter ⟨l, hl, mark⟩
        omega
    · exact ⟨by omega, fun _ => by omega⟩

/-- Lines are joined as they should be kept just if none of them ends in a mark. -/
theorem opened_eq_iff (taken : ∀ l ∈ front, IsTaken l) :
    opened withoutBackslashes front = opened kept front ↔ ∀ l ∈ front, ¬EndsInMark l := by
  constructor
  · intro same l hl mark
    have shorter := (length_opened taken).2 ⟨l, hl, mark⟩
    rw [same] at shorter
    exact Nat.lt_irrefl _ shorter
  · intro unmarked
    exact opened_congr fun l hl => ((withoutBackslashes_cases (taken l hl)).resolve_right
      fun marked => unmarked l hl marked.1).2

/-! ## Runs -/

/-- What the shell makes of lines, one after the other. -/
def stepAll (sh : Shell) : List String → List Reply × Shell
  | [] => ([], sh)
  | line :: rest =>
    let (reply, after) := sh.step line
    let (later, last) := after.stepAll rest
    (reply :: later, last)

/-- Carries out a text. -/
def carryOut (sh : Shell) (text : String) : Reply × Shell :=
  let (output, ending, reporter, session) :=
    sh.presentation.presentAll (sh.reporter.register text) sh.session (sh.session.run text)
  let (complaint, ending, reporter) := reporter.close ending
  (⟨output ++ complaint, false, ending⟩,
    { sh with
      session := session
      reporter := reporter
      pending := ""
      prompt := firstPrompt })

/-- The shell that awaits the next line behind some that go on. -/
def holding (sh : Shell) (part : String → String) (front : List String) : Shell :=
  { sh with
    pending := opened part front
    prompt := if front = [] then firstPrompt else nextPrompt }

/-- What a shell should make of lines: each group of lines that go on is answered at its end, as the
text that the lines are together. -/
def answers (part : String → String) (sh : Shell) (front : List String) :
    List String → List Reply × Shell
  | [] => ([], sh.holding part front)
  | line :: rest =>
    if goesOn front line then
      let (later, last) := answers part sh (front ++ [line]) rest
      (⟨"", false, .regular⟩ :: later, last)
    else
      let (reply, after) := sh.carryOut (opened part front ++ line)
      let (later, last) := answers part after [] rest
      (reply :: later, last)

/-- The lines that go on, among some lines behind others that go on. -/
def continued (front : List String) : List String → List String
  | [] => front
  | line :: rest =>
    if goesOn front line then continued (front ++ [line]) rest else front ++ continued [] rest

/-- Whether the shell awaits a new text. -/
def IsReady (sh : Shell) : Prop := sh.pending = "" ∧ sh.prompt = firstPrompt

/-- A shell that is ready holds no lines. -/
theorem IsReady.holding_nil {sh : Shell} (h : sh.IsReady) : sh.holding part [] = sh := by
  obtain ⟨session, reporter, presentation, pending, prompt⟩ := sh
  obtain ⟨rfl, rfl⟩ := h
  rfl

/-- Behind a text a shell is ready. -/
theorem isReady_carryOut (sh : Shell) (text : String) : (sh.carryOut text).2.IsReady := ⟨rfl, rfl⟩

/-- A line that goes on is held. -/
theorem take_of_continues {sh : Shell} (h : continues (sh.pending ++ line) = true) :
    sh.take line = (⟨"", false, .regular⟩,
      { sh with
        pending := withoutBackslashes (sh.pending ++ line) ++ "\n"
        prompt := nextPrompt }) := by
  simp only [take, h, if_true]

/-- A line that does not go on is carried out with those that are held. -/
theorem take_of_not_continues {sh : Shell} (h : continues (sh.pending ++ line) = false) :
    sh.take line = sh.carryOut (sh.pending ++ line) := by
  simp only [take, h, Bool.false_eq_true, if_false]
  rfl

/-- A line that goes on is held with those before it. -/
theorem take_of_goesOn (sh : Shell) (h : IsTaken line) (on : goesOn front line = true) :
    (sh.holding withoutBackslashes front).take line =
      (⟨"", false, .regular⟩, sh.holding withoutBackslashes (front ++ [line])) := by
  have on : continues ((sh.holding withoutBackslashes front).pending ++ line) = true :=
    (continues_joined h front).trans on
  have prompts : (if front ++ [line] = [] then firstPrompt else nextPrompt) = nextPrompt :=
    if_neg (List.append_ne_nil_of_right_ne_nil _ (List.cons_ne_nil _ _))
  rw [take_of_continues on, holding, holding, prompts, opened_concat,
    withoutBackslashes_append (not_suffix_opened _ _)]

/-- A line that does not go on completes a text, which is carried out. -/
theorem take_of_not_goesOn (sh : Shell) (h : IsTaken line) (last : ¬goesOn front line = true) :
    (sh.holding withoutBackslashes front).take line =
      sh.carryOut (opened withoutBackslashes front ++ line) := by
  have ended : continues ((sh.holding withoutBackslashes front).pending ++ line) = false :=
    (continues_joined h front).trans (Bool.eq_false_iff.2 last)
  rw [take_of_not_continues ended]
  rfl

/-- Held lines are answered as the text that they make together with the lines after them. -/
theorem stepAll_holding {lines : List String}
    (texts : ∀ line ∈ lines, command line = .text line) (sh : Shell) (front : List String) :
    (sh.holding withoutBackslashes front).stepAll lines =
      answers withoutBackslashes sh front lines := by
  induction lines generalizing sh front with
  | nil => rfl
  | cons line rest ih =>
    obtain ⟨here, later⟩ := List.forall_mem_cons.1 texts
    have step_eq : (sh.holding withoutBackslashes front).step line =
        (sh.holding withoutBackslashes front).take line := by
      rw [step, here]
    by_cases on : goesOn front line = true
    · simp only [stepAll, step_eq, take_of_goesOn sh (.of_command here) on, ih later, answers,
        if_pos on]
    · have ready := isReady_carryOut sh (opened withoutBackslashes front ++ line)
      simp only [stepAll, step_eq, take_of_not_goesOn sh (.of_command here) on, answers, if_neg on,
        ← ih later, ready.holding_nil]

/-- What is made of the lines that do not go on does not matter. -/
theorem answers_congr {part' : String → String} {lines : List String} (sh : Shell)
    (h : ∀ l ∈ continued front lines, part l = part' l) :
    answers part sh front lines = answers part' sh front lines := by
  induction lines generalizing sh front with
  | nil =>
    rw [continued] at h
    rw [answers, answers, holding, holding, opened_congr h]
  | cons line rest ih =>
    rw [continued] at h
    rw [answers, answers]
    split at h
    · next on => rw [if_pos on, if_pos on, ih sh h]
    · next last =>
      obtain ⟨before, after⟩ := List.forall_mem_append.1 h
      rw [if_neg last, if_neg last, opened_congr before]
      simp only [ih _ after]

/-- Held lines come from the input. -/
theorem mem_of_mem_continued {lines : List String} {l : String} (h : l ∈ continued front lines) :
    l ∈ front ∨ l ∈ lines := by
  induction lines generalizing front with
  | nil => exact .inl h
  | cons line rest ih =>
    rw [continued] at h
    split at h
    · rcases ih h with before | after
      · exact (List.mem_append.1 before).imp_right fun same => List.mem_cons.2 <|
          .inl (List.mem_singleton.1 same)
      · exact .inr (List.mem_cons_of_mem _ after)
    · rcases List.mem_append.1 h with before | after
      · exact .inl before
      · exact .inr (List.mem_cons_of_mem _ ((ih after).resolve_left List.not_mem_nil))

/-- The output of a text is what was shown, and the report of how it ended. -/
theorem output_of_presentAll {sh : Shell} {text written : String} {e : Ending} {r : Reporter}
    {s : Session} (shown : sh.presentation.presentAll (sh.reporter.register text) sh.session
      (sh.session.run text) = (written, e, r, s)) :
    (sh.carryOut text).1.output = written ++ (r.close e).1 := by
  rw [carryOut]
  simp only [shown]

/-- A text is run like a file of that text that keeps going. -/
theorem output_carryOut {o : CommandLine.Options} (going : o.keepsGoing = true) (palette : Palette)
    (path text : String) :
    ((initial (.initial true path palette) o.presentation).carryOut text).1.output =
      (CommandLine.runFile o palette path text).output := by
  cases shown : o.presentation.presentAll (CommandLine.fileReporter palette path text
    (!o.keepsGoing)) .initial (Session.initial.run text) with
  | mk written rest =>
    obtain ⟨e, r, s⟩ := rest
    have here : o.presentation.presentAll ((Reporter.initial false path palette).register text)
        .initial (Session.initial.run text) = (written, e, r, s) := by
      rw [← shown, going]
      rfl
    refine (output_of_presentAll here).trans ?_
    by_cases ended : e = .regular
    · subst ended
      rw [CommandLine.runFile_of_regular shown]
      exact String.append_empty
    · rw [CommandLine.runFile_of_ended shown ended, Ending.close_fst]

/-- A shell that is given lines, none of them a command, runs those that belong together as one
text. A line that goes on says everything but the backslashes at its end. That is everything but the
single backslash by which it asks for the next line, unless it ends in a mark between two
statements: just then the text is another one. A text is run like a file of that text that keeps
going. -/
theorem stepAll_joined {lines : List String} (texts : ∀ line ∈ lines, command line = .text line)
    (sh : Shell) (ready : sh.IsReady) :
    sh.stepAll lines = answers withoutBackslashes sh [] lines ∧
    (∀ front ⊆ lines, ∀ line,
      opened withoutBackslashes front ++ line = opened kept front ++ line ↔
        ∀ l ∈ front, ¬EndsInMark l) ∧
    ((∀ l ∈ continued [] lines, ¬EndsInMark l) → sh.stepAll lines = answers kept sh [] lines) ∧
    ∀ (o : CommandLine.Options) (palette : Palette) (path text : String), o.keepsGoing = true →
      ((initial (.initial true path palette) o.presentation).carryOut text).1.output =
        (CommandLine.runFile o palette path text).output := by
  have taken : ∀ l ∈ lines, IsTaken l := fun l hl => .of_command (texts l hl)
  have all := stepAll_holding texts sh []
  rw [ready.holding_nil] at all
  refine ⟨all, fun front within line => ?_, fun unmarked => ?_, fun o palette path text going =>
    output_carryOut going palette path text⟩
  · rw [← opened_eq_iff fun l hl => taken l (within hl)]
    exact String.append_left_inj line
  · rw [all]
    refine answers_congr sh fun l hl => ?_
    have given := (mem_of_mem_continued hl).resolve_left List.not_mem_nil
    exact ((withoutBackslashes_cases (taken l given)).resolve_right
      fun marked => unmarked l hl marked.1).2

/-- A function is defined on two lines, and a sum is continued behind its sign. Nothing is lost, and
what is run is what a file of those lines would be. -/
theorem stepAll_joined_definition :
    let o := { CommandLine.Options.default with keepsGoing := true }
    let sh := initial (.initial true "<in>" .plain) o.presentation
    let lines := ["\\func\x7bf(x)\x7d\x7b", "x + 1\x7d", "f(2) +\\", "1"]
    (∀ line ∈ lines, command line = .text line) ∧ sh.IsReady ∧
      (∀ l ∈ continued [] lines, ¬EndsInMark l) ∧ sh.stepAll lines = answers kept sh [] lines ∧
      opened kept ["f(2) +\\"] ++ "1" = "f(2) +\n1" ∧
      (sh.carryOut "1 + 1").1.output =
        (CommandLine.runFile o .plain "<in>" "1 + 1").output := by
  intro o sh lines
  have texts : ∀ line ∈ lines, command line = .text line := by decide
  have unmarked : ∀ l ∈ continued [] lines, ¬EndsInMark l := by decide
  have ready : sh.IsReady := ⟨rfl, rfl⟩
  obtain ⟨-, -, joined, files⟩ := stepAll_joined texts sh ready
  exact ⟨texts, ready, unmarked, joined unmarked, by decide, files o .plain "<in>" "1 + 1" rfl⟩

/-- The mark at the end of a line with an open brace is lost: what stands in front of it is not a
statement of its own any more. -/
theorem stepAll_mark :
    let sh := initial (.initial true "<in>" .plain) CommandLine.Options.default.presentation
    let lines := ["\\text\x7b1 \\\\", "2\x7d"]
    (∀ line ∈ lines, command line = .text line) ∧ sh.IsReady ∧
      (sh.stepAll lines).1.map Reply.output = ["", "\\text\x7b 2 \x7d\n"] ∧
      (answers kept sh [] lines).1.map Reply.output = ["", "\\text\x7b 1 2 \x7d\n"] ∧
      sh.stepAll lines ≠ answers kept sh [] lines := by
  intro sh lines
  have ran : (sh.stepAll lines).1.map Reply.output = ["", "\\text\x7b 2 \x7d\n"] := by
    decide +kernel
  have due : (answers kept sh [] lines).1.map Reply.output = ["", "\\text\x7b 1 2 \x7d\n"] := by
    decide +kernel
  refine ⟨by decide, ⟨rfl, rfl⟩, ran, due, fun same => ?_⟩
  rw [same, due] at ran
  exact absurd ran (by decide)

end TexAlgebra.Shell
