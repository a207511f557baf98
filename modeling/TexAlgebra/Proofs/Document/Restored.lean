import TexAlgebra.Proofs.Document.Trail
import TexAlgebra.Proofs.Grammar.Noted
/-!
# Names behind a fault

The name of a function is noted as soon as its head was read. If the statement fails after that, the
name stays known, and what follows is read with it (`Document.failed_function_stays_known`).

`Document.restored` reads a document in another way: it forgets the names of a statement that fails.
Both ways come to the same where no statement fails behind a completed head
(`Document.statements_eq_restored`).
-/

namespace TexAlgebra

namespace Document

variable {known : Expr → Bool} {d rest : Document} {s : Statement}

/-! ## Single statements -/

/-- The tokens that are read for the next statement, up to its end or to where it fails. -/
def attempt (known : Expr → Bool) (d : Document) : List Token :=
  let start := atStatement d.cursor
  match Parser.expression ⟨d.ending, known⟩ start with
  | .done _ after => start.rest.take (start.rest.length - after.rest.length)
  | .failed _ after => start.rest.take (start.rest.length - after.rest.length)
  | .exhausted => []

/-- Whether the next statement fails behind the completed head of a function. -/
def failsBehindHead (known : Expr → Bool) (d : Document) : Bool :=
  match d.next? known with
  | some (.error _, _) => completesHead false (d.attempt known)
  | _ => false

/-- What is read in front of a tail is all that is not in the tail. -/
theorem take_of_eq_append {tokens read left : List Token} (h : tokens = read ++ left) :
    tokens.take (tokens.length - left.length) = read := by
  rw [h, List.length_append, Nat.add_sub_cancel, List.take_left]

/-- Names are only added, and none is if no head is completed. -/
theorem exists_names_of_next? (h : d.next? known = some (s, rest)) :
    ∃ names, rest.cursor.functions = d.cursor.functions ++ names ∧
      (completesHead false (d.attempt known) = false → names = []) := by
  have noted := Parser.notes_expression ⟨d.ending, known⟩ (atStatement d.cursor)
  simp only [next?] at h
  split at h
  · cases h
  cases reading : Parser.expression ⟨d.ending, known⟩ (atStatement d.cursor) with
  | done e after =>
    rw [reading] at noted h
    obtain ⟨read, names, split, added, none⟩ := noted
    cases h
    refine ⟨names, added, fun incomplete => ?_⟩
    simp only [attempt, reading, take_of_eq_append split] at incomplete
    exact (none trivial incomplete).1
  | failed fault after =>
    rw [reading] at noted h
    obtain ⟨read, names, split, added, none⟩ := noted
    cases h
    refine ⟨names, added, fun incomplete => ?_⟩
    simp only [attempt, reading, take_of_eq_append split] at incomplete
    exact (none trivial incomplete).1
  | exhausted =>
    rw [reading] at h
    cases h

/-- A fault before the head of a function is complete notes no name. -/
theorem functions_of_failed {fault : ParseFault} (h : d.next? known = some (.error fault, rest))
    (headless : d.failsBehindHead known = false) :
    rest.cursor.functions = d.cursor.functions := by
  obtain ⟨names, added, none⟩ := exists_names_of_next? h
  rw [failsBehindHead, h] at headless
  rw [added, none headless, List.append_nil]

/-! ## Whole documents -/

/-- The document with the names that were known in another one. -/
def knowing (rest d : Document) : Document :=
  { rest with cursor := { rest.cursor with functions := d.cursor.functions } }

/-- The statements of a document, where the names that are noted in a statement are forgotten if it
fails. -/
def restored (known : Expr → Bool) (d : Document) : List Statement :=
  match _h : d.next? known with
  | none => []
  | some (.ok e, rest) => .ok e :: restored known rest
  | some (.error fault, rest) => .error fault :: restored known (rest.knowing d)
termination_by d.size
decreasing_by
  · exact size_lt_of_next? ‹_›
  · have smaller : rest.size < d.size := size_lt_of_next? ‹_›
    exact smaller

/-- A document and what is left of it after each of its statements. -/
def stops (known : Expr → Bool) (d : Document) : List Document :=
  trail (fun _ => known) (fun s _ => (s, ())) () d

/-- A document stops at itself. -/
theorem mem_stops (known : Expr → Bool) (d : Document) : d ∈ d.stops known := by
  rw [stops, trail]
  split
  · exact List.mem_singleton_self d
  · exact List.mem_cons_self

/-- A document without a next statement has none. -/
theorem restored_of_next?_eq_none (h : d.next? known = none) : d.restored known = [] := by
  rw [restored]
  split
  · rfl
  · next found => cases found.symm.trans h
  · next found => cases found.symm.trans h

/-- Behind an expression the rest goes on as it is. -/
theorem restored_of_done {e : Expr} (h : d.next? known = some (.ok e, rest)) :
    d.restored known = .ok e :: rest.restored known := by
  rw [restored]
  split
  · next found => cases found.symm.trans h
  · next found =>
    cases found.symm.trans h
    rfl
  · next found => cases found.symm.trans h

/-- Behind a fault the rest goes on with what was noted before it. -/
theorem restored_of_failed {fault : ParseFault} (h : d.next? known = some (.error fault, rest)) :
    d.restored known = .error fault :: (rest.knowing d).restored known := by
  rw [restored]
  split
  · next found => cases found.symm.trans h
  · next found => cases found.symm.trans h
  · next found =>
    cases found.symm.trans h
    rfl

/-- Forgetting the names of a statement that fails changes nothing if there are none. -/
theorem knowing_eq (same : rest.cursor.functions = d.cursor.functions) : rest.knowing d = rest := by
  obtain ⟨⟨tokens, functions⟩, ending⟩ := rest
  cases same
  rfl

/-- **Where no statement fails behind a completed head, a failing statement defines nothing**: the
names that are known behind it are those that were known before it, and what follows is read as if
only the statements that can be read had noted their names. -/
theorem statements_eq_restored
    (headless : ∀ stop ∈ d.stops known, stop.failsBehindHead known = false) :
    (∀ stop ∈ d.stops known, ∀ fault rest, stop.next? known = some (.error fault, rest) →
      rest.cursor.functions = stop.cursor.functions) ∧
    d.statements known = d.restored known := by
  refine ⟨fun stop mem fault rest h => functions_of_failed h (headless stop mem), ?_⟩
  rw [stops] at headless
  generalize () = state at headless
  induction state, d using
      trail_induction (fun _ => known) fun (s : Statement) (_ : Unit) => (s, ()) with
  | ended _ d h => rw [statements_of_next?_eq_none h, restored_of_next?_eq_none h]
  | more _ d s rest h ih =>
    rw [trail_of_next?_eq_some h] at headless
    obtain ⟨here, later⟩ := List.forall_mem_cons.1 headless
    rw [statements_of_next?_eq_some h, ih later]
    cases s with
    | ok e => rw [restored_of_done h]
    | error fault => rw [restored_of_failed h, knowing_eq (functions_of_failed h here)]

/-- A head that breaks off notes no name, so `f` is no function behind it. -/
theorem statements_eq_restored_open :
    let d := ofText "\\func\x7bf(x\n\nf(3)"
    (∀ stop ∈ d.stops fun _ => false, stop.failsBehindHead (fun _ => false) = false) ∧
      d.statements (fun _ => false) = d.restored fun _ => false := by
  intro d
  have headless : ∀ stop ∈ d.stops fun _ => false,
      stop.failsBehindHead (fun _ => false) = false := by
    decide +kernel
  exact ⟨headless, (statements_eq_restored headless).2⟩

/-- Whether a statement is a call. -/
def isCall : Statement → Bool
  | .ok (.call _ _ _) => true
  | _ => false

/-- A function whose body is empty stays known though its statement fails, and the statement behind
it is read as a call of it. -/
theorem failed_function_stays_known :
    (¬ ∀ tokens : List Token, ∀ stop ∈ (ofTokens tokens).stops fun _ => false,
      ∀ fault rest, stop.next? (fun _ => false) = some (.error fault, rest) →
        ∀ x ∈ rest.cursor.functions, x ∈ stop.cursor.functions) ∧
    ¬ ∀ tokens : List Token, (ofTokens tokens).statements (fun _ => false) =
      (ofTokens tokens).restored fun _ => false := by
  let tokens := (tokenize "\\func{f(x)}{}\n\nf(3)").tokens
  constructor
  · intro claim
    have fails : ((ofTokens tokens).next? fun _ => false).any
        (fun r => !r.1.isOk && !r.2.cursor.functions.isEmpty) := by decide +kernel
    obtain ⟨⟨s, rest⟩, next, fails⟩ := (Option.any_eq_true _ _).1 fails
    cases s with
    | ok e => cases fails
    | error fault =>
      have none : rest.cursor.functions = [] :=
        List.eq_nil_iff_forall_not_mem.2 fun x mem =>
          List.not_mem_nil (claim tokens _ (mem_stops _ _) fault rest next x mem)
      rw [none] at fails
      cases fails
  · intro claim
    have same := congrArg (List.map isCall) (claim tokens)
    exact absurd same (by decide +kernel)

end Document

end TexAlgebra
