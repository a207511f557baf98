import TexAlgebra.CommandLine.Options
import TexAlgebra.Shell
/-!
# The command line

A call with a file carries out the file, and ends with status one if a statement fails; unless it is
told to keep going, it ends at the first such statement. A call without a file runs the shell. A
call that makes no sense ends with status two.

The environment of a call is given by its values: the file, if it can be read, and the input.
-/

namespace TexAlgebra.CommandLine

/-- What a call writes, and how it ends. -/
structure Result where
  output : String
  ending : Ending
  deriving Repr, Inhabited

/-- The name of the input where a file has none. -/
def unnamed : String := "<in>"

/-- How the program is called, in lines of at most 78 characters. -/
def usage : String :=
  "usage: texcalc [-h] [--inline] [--foil \x7boff,full,step\x7d] [--parsed]\n" ++
  "               [--keep-going] [--verbose]\n" ++
  "               [file]\n"

/-- What a call for help is told. -/
def help : String :=
  usage ++
  "\nEvaluate algebra written in TeX notation.\n" ++
  "\npositional arguments:\n" ++
  "  file                  file to evaluate (if empty, goes to interactive mode)\n" ++
  "\noptions:\n" ++
  "  -h, --help            show this help message and exit\n" ++
  "  --inline              write fractions as a / b instead of \\frac\x7ba\x7d\x7bb\x7d\n" ++
  "  --foil \x7boff,full,step\x7d\n" ++
  "                        also print each result expanded (fully, or by a single\n" ++
  "                        step)\n" ++
  "  --parsed              also print each statement as it was parsed\n" ++
  "  --keep-going          do not stop at the first failing statement\n" ++
  "  --verbose             log every step of the evaluation\n"

/-- The status of a call that makes no sense. -/
def usageStatus : Nat := 2

/-- What a file contains, with every line break of whatever kind as a single character. -/
def unifyBreaks : List Char → List Char
  | [] => []
  | '\r' :: '\n' :: rest => '\n' :: unifyBreaks rest
  | '\r' :: rest => '\n' :: unifyBreaks rest
  | c :: rest => c :: unifyBreaks rest

/-- The result of an activity that a reporter watches over. -/
def watched (output : String) (r : Reporter) (e : Ending) : Result :=
  let (complaint, e, _) := r.close e
  ⟨output ++ complaint, e⟩

/-- Carries out the text of a file. -/
def runFile (o : Options) (palette : Palette) (path source : String) : Result :=
  let reporter := (Reporter.initial (!o.keepsGoing) path palette).register source
  let outcomes := Session.initial.run source
  let (output, e, r, _) := o.presentation.presentAll reporter .initial outcomes
  let failed := r.errors ≠ reporter.errors
  match e with
  | .regular => watched output r (if failed then .exit 1 else .regular)
  | e => watched output r e

/-- The reporter of a call before anything is read. -/
def reporter (palette : Palette) : Reporter := .initial true unnamed palette

/-- The result of a call for a file that cannot be read. -/
def unreadable (palette : Palette) (path : String) : Result :=
  watched "" (reporter palette) (.fault (.unreadable path))

/-- The shell that a call starts. -/
def shell (o : Options) (palette : Palette) : Shell :=
  .initial (reporter palette) { o.presentation with showsParsed := false }

/-- Runs the shell on the lines of an input. -/
def runShell (o : Options) (palette : Palette) (lines : List String) : Result :=
  let (output, e, sh) := (shell o palette).interact lines
  watched (Shell.intro ++ output) sh.reporter e

/-- The lines of an input. A line break at its end starts no further line. -/
def inputLines (input : String) : List String :=
  let lines := linesOf input
  if lines.getLast? = some "" then lines.dropLast else lines

/-- The result of a call, where `read` gives the contents of files and `input` is the input. -/
def run (argv : List String) (read : String → Option String) (input : String)
    (palette : Palette) : Result :=
  match options? argv with
  | none => ⟨"", .exit usageStatus⟩
  | some o =>
    if o.help then ⟨help, .exit 0⟩
    else
      match o.file with
      | none => runShell o palette (inputLines input)
      | some path =>
        match read path with
        | none => unreadable palette path
        | some source => runFile o palette path (String.ofList (unifyBreaks source.toList))

end TexAlgebra.CommandLine
