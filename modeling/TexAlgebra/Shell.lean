import TexAlgebra.Presentation
import TexAlgebra.Text.Character
/-!
# The interactive shell

A shell takes lines. A line is a command word, or part of a text of statements: a line that ends in
a single backslash, or that leaves braces open, goes on with the next one. What was bound stays
bound from one line to the next.
-/

namespace TexAlgebra

/-- A shell between two lines. -/
structure Shell where
  session : Session
  reporter : Reporter
  presentation : Presentation
  /-- The lines that are still to be continued. -/
  pending : String
  prompt : String

/-- What a shell makes of a line: what it writes, whether it stops, and the end that is left to
those who gave it the line. -/
structure Shell.Reply where
  output : String
  stops : Bool
  ending : Ending

namespace Shell

/-! ## Texts -/

/-- The prompt for a new text. -/
def firstPrompt : String := "> "

/-- The prompt for the continuation of a text. -/
def nextPrompt : String := ". "

/-- What is written when the shell starts. -/
def intro : String :=
  "texcalc :: TeX formula interpreter\nType '?' or 'help' for more information.\n"

/-- The answer to the command for help. -/
def help : String :=
  "Welcome to texcalc!\n\n" ++
  "texcalc evaluates algebra written the way it is typeset in TeX. Try typing \n" ++
  "'\\frac\x7b1\x7d\x7b4\x7d + 2^3'. Numbers are folded, anything else is kept symbolic: \n" ++
  "'(4 + 1)(x + 2)' gives '5(x + 2)'.\n\n" ++
  "Bind names with '\\let\x7bx\x7d\x7b2\x7d' and define functions with " ++
  "'\\func\x7bf(x, y)\x7d\x7bx + y\x7d'. \n" ++
  "Calling a function with fewer arguments curries it: " ++
  "'\\let\x7bg\x7d\x7bf(2)\x7d' then 'g(5)'.\n\n" ++
  "Type 'env' to list every binding and 'exit' to quit.\n"

/-- The shell in which nothing is bound. -/
def initial (reporter : Reporter) (presentation : Presentation) : Shell where
  session := .initial
  reporter := { reporter with fatal := false }
  presentation := presentation
  pending := ""
  prompt := firstPrompt

/-! ## Continued lines -/

/-- The text without the backslashes at its end. -/
def withoutBackslashes (line : String) : String :=
  String.ofList (line.toList.reverse.dropWhile (· = '\\')).reverse

/-- Whether a line ends in a backslash that is not one of two. White space at its end is ignored. -/
def endsInBackslash (line : String) : Bool :=
  match (Text.trimEnd line).toList.reverse with
  | '\\' :: '\\' :: _ => false
  | '\\' :: _ => true
  | _ => false

/-- Whether a text goes on with the next line. -/
def continues (line : String) : Bool :=
  endsInBackslash line || line.toList.count '\x7d' < line.toList.count '\x7b'

/-! ## Commands -/

/-- A line as the shell understands it. -/
inductive Command where
  | nothing
  | environment
  | help
  | exit
  | endOfInput
  | text (line : String)
  deriving DecidableEq, Repr, Inhabited

/-- Whether a character can be part of a command word. -/
def isWordChar (c : Char) : Bool :=
  ('a' ≤ c ∧ c ≤ 'z') ∨ ('A' ≤ c ∧ c ≤ 'Z') ∨ ('0' ≤ c ∧ c ≤ '9') ∨ c = '_'

/-- The line with a question mark at its start spelled out as the command for help. -/
def spelledOut (line : String) : String :=
  match line.toList with
  | '?' :: rest => "help " ++ String.ofList rest
  | _ => line

/-- What a line asks for. The command word is the longest run of word characters at its start. -/
def command (line : String) : Command :=
  let line := Text.trim line
  if line = "" then .nothing
  else
    let line := spelledOut line
    match String.ofList (line.toList.takeWhile isWordChar) with
    | "env" => .environment
    | "help" => .help
    | "exit" => .exit
    | "EOF" => .endOfInput
    | _ => .text line

/-! ## Steps -/

/-- Carries out a text, or keeps it if it is to be continued. -/
def take (sh : Shell) (line : String) : Reply × Shell :=
  let text := sh.pending ++ line
  if continues text then
    (⟨"", false, .regular⟩,
      { sh with pending := withoutBackslashes text ++ "\n", prompt := nextPrompt })
  else
    let (output, ending, reporter, session) :=
      sh.presentation.presentAll (sh.reporter.register text) sh.session (sh.session.run text)
    let (complaint, ending, reporter) := reporter.close ending
    (⟨output ++ complaint, false, ending⟩,
      { sh with
        session := session
        reporter := reporter
        pending := ""
        prompt := firstPrompt })

/-- The listing of the bindings. -/
def listing (sh : Shell) : Reply :=
  let text := Expr.tex .oneLine
  match sh.session.environment.listing text text with
  | .ok lines => ⟨lines ++ "\n", false, .regular⟩
  | .error o => ⟨"", false, .ofObstacle o⟩

/-- What the shell makes of a line. -/
def step (sh : Shell) (line : String) : Reply × Shell :=
  match command line with
  | .nothing => (⟨"", false, .regular⟩, sh)
  | .environment => (sh.listing, sh)
  | .help => (⟨help, false, .regular⟩, sh)
  | .exit => (⟨"", true, .regular⟩, sh)
  | .endOfInput => (⟨"\n", true, .regular⟩, sh)
  | .text line => sh.take line

/-- What is written while the shell takes lines, each after a prompt, and how that ends. At the end
of the input the shell is told so. -/
def interact (sh : Shell) : List String → String × Ending × Shell
  | [] =>
    let (reply, after) := sh.step "EOF"
    (sh.prompt ++ reply.output, reply.ending, after)
  | line :: rest =>
    let (reply, after) := sh.step line
    match reply.ending, reply.stops with
    | .regular, false =>
      let (later, last) := interact after rest
      (sh.prompt ++ reply.output ++ later, last)
    | ending, _ => (sh.prompt ++ reply.output, ending, after)

end Shell

end TexAlgebra
