import TexAlgebra.CommandLine
/-!
# The program

The thin outer layer: it reads files and lines, calls `CommandLine` and `Shell`, and writes what
they answer.
-/

namespace TexAlgebra.CommandLine

/-- Writes what is reported about an ending, and gives the status of the program. -/
def conclude (r : Result) : IO UInt32 := do
  let out ← IO.getStdout
  out.putStr r.output
  out.flush
  match r.ending with
  | .exit status => return status.toUInt32
  | .unknown description => do
    IO.eprintln description
    return 1
  | _ => return 0

/-- Takes lines from the input until the shell stops. -/
partial def converse (sh : Shell) : IO UInt32 := do
  let out ← IO.getStdout
  out.putStr sh.prompt
  out.flush
  let line ← (← IO.getStdin).getLine
  let atEnd := line.isEmpty
  let text := if atEnd then "EOF" else (line.dropEndWhile (· = '\n')).toString
  let (reply, after) := sh.step text
  out.putStr reply.output
  match reply.ending, reply.stops || atEnd with
  | .regular, false => converse after
  | e, _ => conclude (watched "" after.reporter e)

/-- The text of a file, if it can be read. -/
def contents? (path : String) : IO (Option String) := do
  try
    return some (← IO.FS.readFile path)
  catch _ => return none

end TexAlgebra.CommandLine

open TexAlgebra CommandLine in
/-- Runs the program. -/
def main (argv : List String) : IO UInt32 := do
  match options? argv with
  | some o =>
    match o.help, o.file with
    | false, none => do
      IO.print Shell.intro
      converse (shell o .plain)
    | _, file => do
      let path := file.getD ""
      let text ← contents? path
      conclude (run argv (fun _ => text) "" .plain)
  | none => do
    IO.eprint usage
    conclude (run argv (fun _ => none) "" .plain)
