import TexAlgebra.Fault
/-!
# Reports

How a fault is shown: the place, the message, and the line of the text in which it is, with the
token underlined. A `Reporter` knows the text that is being read, counts the faults, and may be told
to stop at the first one. `Reporter.close` says what it makes of an activity that ends early.
-/

namespace TexAlgebra

/-! ## Notices -/

/-- Something to be reported. -/
structure Notice where
  message : Message
  token : Option Token
  /-- Whether the cause lies in the program and not in a formula. -/
  isInternal : Bool
  /-- Whether the line of the token may be shown. -/
  showsLine : Bool
  deriving Repr, Inhabited

namespace Notice

/-- The notice about a fault of a statement. -/
def ofFault (f : Fault) : Notice := ⟨f.message, f.token, false, true⟩

/-- A notice without a place. -/
def ofText (text : String) : Notice := ⟨.ofText text, none, false, true⟩

/-- The notice about a file that cannot be read. -/
def unreadable (path : String) : Notice :=
  ⟨.citing "" path " could not be opened", none, false, false⟩

/-- The notice about an error that has no other explanation. -/
def unknown (description : String) : Notice :=
  ⟨.citing "unknown error: " description "", none, true, true⟩

end Notice

/-! ## Colours -/

/-- Whether a terminal shows colours. -/
inductive Palette where
  | plain
  | coloured
  deriving DecidableEq, Repr, Inhabited

namespace Palette

/-- The text in bold. -/
def bold : Palette → String → String
  | plain, s => s
  | coloured, s => "\x1b[1m" ++ s ++ "\x1b[0m"

/-- The text in bold red. -/
def alarm : Palette → String → String
  | plain, s => s
  | coloured, s => "\x1b[1m\x1b[31m" ++ s ++ "\x1b[0m"

/-- A message with what it cites in bold. -/
def message (palette : Palette) (m : Message) : String :=
  String.join (m.map fun
    | .words text => text
    | .cited text => palette.bold text)

end Palette

/-! ## Underlined lines -/

/-- The number of characters of a line of `length` characters before a column, which counts from the
end of the line if it is negative. -/
def charactersBefore (length : Nat) (column : Int) : Nat :=
  if column < 0 then (length + column).toNat else column.toNat

/-- The characters of `line` before, within and after the columns from `first` up to `last`. -/
def spans (line : List Char) (first last : Int) : List Char × List Char × List Char :=
  let start := charactersBefore line.length first
  let stop := charactersBefore line.length last
  (line.take start, (line.take stop).drop start, line.drop stop)

/-- A line with the columns from `first` up to `last` highlighted and underlined. At least one
column is underlined, even beyond the end of the line. -/
def diagnose (palette : Palette) (line : String) (first last : Int) : String :=
  let last := max last (first + 1)
  let (before, within, after) := spans line.toList first last
  let marks := '^' :: List.replicate (last - first - 1).toNat '~'
  "  " ++ String.ofList before ++ palette.alarm (String.ofList within) ++ String.ofList after
    ++ "\n  " ++ String.ofList (List.replicate first.toNat ' ')
    ++ palette.alarm (String.ofList marks)

/-! ## Reporters -/

/-- How faults are reported: whether the first one is the last one, the name and the lines of the
text that is being read, and the number of faults so far. -/
structure Reporter where
  fatal : Bool
  path : String
  lines : List String
  errors : Nat
  palette : Palette
  deriving Repr, Inhabited

/-- The lines of a text. -/
def linesOf (source : String) : List String :=
  (source.toList.splitOn '\n').map String.ofList

namespace Reporter

/-- The reporter that knows no text yet. -/
def initial (fatal : Bool) (path : String) (palette : Palette) : Reporter :=
  ⟨fatal, path, [], 0, palette⟩

/-- The reporter for another text. -/
def register (r : Reporter) (source : String) : Reporter := { r with lines := linesOf source }

/-- The place of a token in the text that is being read. -/
def location (r : Reporter) : Option Token → String
  | none => r.path
  | some t => r.path ++ ":" ++ t.position.line.repr ++ ":" ++ t.position.column.repr

/-- The underlined line of a token, if the text has that line. -/
def excerpt? (r : Reporter) (t : Token) : Option String :=
  if t.position.line = 0 then none
  else
    (r.lines[t.position.line - 1]?).map fun line =>
      let width := (t.text.toList.takeWhile (· ≠ '\n')).length
      diagnose r.palette line t.position.column (t.position.column + width)

/-- The report of a notice. -/
def format (r : Reporter) (n : Notice) : String :=
  let origin := if n.isInternal then r.palette.alarm "[internal] " else ""
  let head := r.palette.bold (r.location n.token ++ ": ") ++ origin ++ r.palette.alarm "error: "
    ++ r.palette.message n.message
  let excerpt := if n.isInternal || !n.showsLine then none else n.token.bind r.excerpt?
  match excerpt with
  | some shown => head ++ "\n" ++ shown
  | none => head

/-- The report of a notice as a line of output, and the reporter after it. -/
def throw (r : Reporter) (n : Notice) : String × Reporter :=
  (r.format n ++ "\n", { r with errors := r.errors + 1 })

end Reporter

/-! ## Early ends -/

/-- How an activity ends. -/
inductive Ending where
  | regular
  | interrupted
  | exit (status : Nat)
  | tooDeep
  | fault (notice : Notice)
  /-- Any other error, with its description. -/
  | unknown (description : String)
  deriving Repr, Inhabited

namespace Ending

/-- The end that an obstacle brings about. -/
def ofObstacle : Obstacle → Ending
  | .tooDeep => tooDeep
  | o => unknown o.description

/-- What is reported of an end. -/
def notice? : Ending → Option Notice
  | regular => none
  | interrupted => some (.ofText "keyboard interrupt")
  | exit _ => none
  | tooDeep => some (.ofText "maximum recursion depth exceeded")
  | fault notice => some notice
  | unknown description => some (.unknown description)

/-- Whether the end is settled once it was reported. -/
def isSettled : Ending → Bool
  | exit _ => false
  | unknown _ => false
  | _ => true

end Ending

namespace Reporter

/-- Reports how an activity ended: the output, the end that is left to those who asked for the
activity, and the reporter afterwards. A fatal reporter ends with status one once it has reported.
-/
def close (r : Reporter) (e : Ending) : String × Ending × Reporter :=
  match e.notice? with
  | none => ("", e, r)
  | some notice =>
    let (text, r) := r.throw notice
    (text, if r.fatal then .exit 1 else if e.isSettled then .regular else e, r)

end Reporter

end TexAlgebra
