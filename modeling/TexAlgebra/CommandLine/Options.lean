import TexAlgebra.Presentation
import TexAlgebra.Text.Character
/-!
# Options of the command line

The arguments of a call: at most one file, and options that may stand before or after it. The name
of an option may be cut short as long as it stays clear which one is meant, and a value may follow
an equality sign. After `--` every argument is a file.
-/

namespace TexAlgebra.CommandLine

/-- What the arguments of a call ask for. -/
structure Options where
  file : Option String
  inline : Bool
  expansion : Option Expr.Expansion
  showsParsed : Bool
  keepsGoing : Bool
  verbose : Bool
  help : Bool
  deriving Repr, Inhabited

namespace Options

/-- The options of a call without arguments. -/
def default : Options := ⟨none, false, none, false, false, false, false⟩

/-- How results are written. -/
def presentation (o : Options) : Presentation where
  style := ⟨o.inline, false⟩
  expansion := o.expansion
  showsParsed := o.showsParsed

end Options

/-- The names of the options. -/
inductive Name where
  | help
  | inline
  | foil
  | parsed
  | keepGoing
  | verbose
  deriving DecidableEq, Repr, Inhabited

/-- The options with the names they go by in full. -/
def names : List (String × Name) :=
  [("--help", .help), ("--inline", .inline), ("--foil", .foil), ("--parsed", .parsed),
   ("--keep-going", .keepGoing), ("--verbose", .verbose)]

/-- The option that a name means: one that goes by the name in full, or the only one whose name
starts so. -/
def named? (s : String) : Option Name :=
  if s = "-h" then some .help
  else
    match names.find? (·.1 == s) with
    | some (_, name) => some name
    | none =>
      match names.filter fun n => s.toList.isPrefixOf n.1.toList with
      | [(_, name)] => some name
      | _ => none

/-- An argument as it is understood. -/
inductive Argument where
  /-- An option, perhaps with a value after an equality sign. -/
  | option (name : Name) (value : Option String)
  | operand (text : String)
  /-- The mark `--`, after which every argument is an operand. -/
  | separator
  /-- What looks like an option and is none. -/
  | unknown
  deriving DecidableEq, Repr, Inhabited

/-- Whether the characters after a minus sign make a number. -/
def isNumber (cs : List Char) : Bool :=
  let isDecimal (c : Char) : Bool := (Text.decimalValue? c).isSome
  let rest := cs.dropWhile isDecimal
  match rest with
  | [] => !cs.isEmpty
  | '.' :: fraction => !fraction.isEmpty && fraction.all isDecimal
  | _ => false

/-- An argument that starts with a minus sign and is not the mark `--`. -/
def ofDashed (arg : String) : Argument :=
  let name := arg.toList.takeWhile (· ≠ '=')
  let value := (arg.toList.drop name.length).drop 1
  let long := ['-', '-'].isPrefixOf name
  let hasValue := name.length < arg.length
  match named? (if long then String.ofList name else arg) with
  | some name => .option name (if long && hasValue then some (String.ofList value) else none)
  | none =>
    if isNumber (arg.toList.drop 1) then .operand arg
    else if arg.toList.contains ' ' then .operand arg
    else .unknown

/-- The arguments of a call as they are understood. -/
def understood : List String → List Argument
  | [] => []
  | arg :: rest =>
    if arg = "--" then .separator :: rest.map .operand
    else if arg = "-" || arg.toList.head? ≠ some '-' then .operand arg :: understood rest
    else ofDashed arg :: understood rest

/-- How far the one operand has been found. -/
inductive Stage where
  | awaited
  /-- It is the argument just before. -/
  | found
  | past
  deriving DecidableEq, Repr, Inhabited

/-- The extent of an expansion by its name; `off` is none. -/
def extent? : String → Option (Option Expr.Expansion)
  | "off" => some none
  | "full" => some (some .full)
  | "step" => some (some .once)
  | _ => none

/-- The options with one more, unless it cannot be given so. -/
def Options.with? (o : Options) (name : Name) (value : Option String) : Option Options :=
  match name, value with
  | .help, none => some { o with help := true }
  | .inline, none => some { o with inline := true }
  | .parsed, none => some { o with showsParsed := true }
  | .keepGoing, none => some { o with keepsGoing := true }
  | .verbose, none => some { o with verbose := true }
  | .foil, some value => (extent? value).map fun extent => { o with expansion := extent }
  | _, _ => none

/-- The options that a list of arguments sets, if it is well formed. -/
def collect (o : Options) (stage : Stage) : List Argument → Option Options
  | [] => some o
  | .option .foil none :: .operand value :: rest => do
    let o ← o.with? .foil (some value)
    collect o (if stage = .found then .past else stage) rest
  | .option name value :: rest => do
    let o ← o.with? name value
    collect o (if stage = .found then .past else stage) rest
  | .operand text :: rest =>
    if stage = .awaited then collect { o with file := some text } .found rest else none
  | .separator :: rest => if stage = .past then none else collect o stage rest
  | .unknown :: _ => none

/-- The options of a call, if its arguments are well formed. -/
def options? (argv : List String) : Option Options :=
  collect .default .awaited (understood argv)

end TexAlgebra.CommandLine
