import Archivist.Screen.Tally
import Archivist.Screen.Verbosity

/-!
# Showing a Turn

The pieces of the answer go to the standard output as they come; stages, citations, errors and the
summary go to the standard error, so that the answer can be used by itself. A line that the answer
has begun is ended before citations or an error are shown.
-/

namespace Archivist

/-- What has been written to the two outputs. -/
structure Screen where
  out : String := ""
  err : String := ""
  /-- Whether the answer has begun a line. -/
  midAnswer : Bool := false

/-- The lines that show citations. -/
def citationLines (citations : List Citation) : List String :=
  citations.zipIdx.map fun (c, i) => s!"[{i + 1}] {c.label} ({c.documentId})"

/-- The line that shows a status. -/
def Event.statusLine (v : Verbosity) : Event → Option String
  | status stage detail =>
    if !v.showsProgress then none
    else
      let name := "[" ++ stage.displayName ++ "]"
      match detail with
      | some detail => some (if v.showsEvents then name ++ " " ++ detail else name)
      | none => some name
  | _ => none

namespace Screen

/-- Writes lines to the standard error. -/
def complain (s : Screen) (lines : List String) : Screen :=
  { s with err := lines.foldl (fun err line => err ++ line ++ "\n") s.err }

/-- Ends the line that the answer has begun. -/
def endAnswer (s : Screen) : Screen :=
  if s.midAnswer then { s with out := s.out ++ "\n", midAnswer := false } else s

/-- Shows an event. -/
def print (v : Verbosity) (s : Screen) (e : Event) : Screen :=
  match e with
  | .status .. => s.complain (e.statusLine v).toList
  | .token text => { s with out := s.out ++ text, midAnswer := true }
  | .done citations _ _ =>
    let s := s.endAnswer
    if citations.isEmpty || !v.showsProgress then s
    else s.complain (["", "來源："] ++ (citationLines citations).map ("  " ++ ·))
  | .error message code => s.endAnswer.complain [s!"Error: {message} ({code})"]

/-- Shows the tally of a turn, after an empty line. -/
def summarize (v : Verbosity) (s : Screen) (t : Tally) (elapsed : Nat) : Screen :=
  if v.showsEvents then s.complain ("" :: t.lines elapsed) else s

/-- Shows a turn and its tally. -/
def ofEvents (v : Verbosity) (events : List Event) : Screen :=
  (events.foldl (print v) {}).summarize v (.ofEvents events) 0

end Screen

end Archivist
