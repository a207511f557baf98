import TexAlgebra.Expr.Expansion
import TexAlgebra.Expr.Printer
import TexAlgebra.Report
import TexAlgebra.Session
/-!
# Presentation of results

What is written for the outcome of a statement: its value, if asked for also the statement as it was
read and the value expanded, or the report of its fault. Writing can meet an obstacle half-way; then
what was written before it stands.
-/

namespace TexAlgebra

/-- What is written for a result. -/
structure Presentation where
  style : Style
  expansion : Option Expr.Expansion
  /-- Whether the statement is written as it was read. -/
  showsParsed : Bool
  deriving Repr, Inhabited

namespace Presentation

/-- The line with the text of an expression, or the end that an obstacle brings about. -/
def line (p : Presentation) (e : Expr) : Except Ending String :=
  match e.tex p.style with
  | .ok text => .ok (text ++ "\n")
  | .error o => .error (.ofObstacle o)

/-- The lines that are due for a result. -/
def due (p : Presentation) (parsed : Option Expr) (value : Expr) : List (Except Ending String) :=
  let read := match parsed with
    | some e => if p.showsParsed then [p.line e] else []
    | none => []
  let expanded := match p.expansion with
    | none => []
    | some extent =>
      match value.expandBy extent with
      | .ok e => [p.line e]
      | .error o => [.error (.ofObstacle o)]
  read ++ p.line value :: expanded

/-- What is written of the lines that are due, and how that ends. -/
def written : List (Except Ending String) → String × Ending
  | [] => ("", .regular)
  | .error e :: _ => ("", e)
  | .ok line :: rest =>
    let (later, e) := written rest
    (line ++ later, e)

/-- What is written for an outcome, how that ends, and the reporter afterwards. -/
def present (p : Presentation) (outcome : Outcome) (r : Reporter) :
    String × Ending × Reporter :=
  match outcome.result with
  | .ok value =>
    let (text, e) := written (p.due outcome.parsed value)
    (text, e, r)
  | .error fault =>
    let (text, r) := r.throw (.ofFault fault)
    (text, if r.fatal then .exit 1 else .regular, r)

/-- What is written for the outcomes of a text, one after the other, until one of them does not end
in the regular way. The session and the reporter are those after the last outcome that was taken. -/
def presentAll (p : Presentation) (r : Reporter) (s : Session) :
    List (Except Obstacle Outcome × Session) → String × Ending × Reporter × Session
  | [] => ("", .regular, r, s)
  | (.error o, s) :: _ => ("", .ofObstacle o, r, s)
  | (.ok outcome, s) :: rest =>
    let (text, e, r) := p.present outcome r
    match e with
    | .regular =>
      let (later, last) := presentAll p r s rest
      (text ++ later, last)
    | e => (text, e, r, s)

end Presentation

end TexAlgebra
