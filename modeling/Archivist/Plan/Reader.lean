import Archivist.Json.Reader
import Archivist.Json.Splitter
import Archivist.Plan.Basic

/-!
# Reading Plans

A language model is asked for a plan as a JSON object and may put other text around it. Three
readings are tried in turn: the whole text is the object, the first fenced block holds it, or it
is the first balanced object in the text. The first reading that gives a plan counts.
-/

namespace Archivist

/-- Why a text is no plan. -/
inductive PlanFault where
  | empty
  | noObject
  /-- The object is not well-formed. -/
  | malformed
  /-- The object is something else than a plan. -/
  | mismatch (m : Mismatch)

namespace PlanFault

/-- The text of a fault. What is wrong with a malformed object is not told. -/
def message : PlanFault → String
  | empty => "planner returned empty output"
  | noObject => "no JSON object found in planner output"
  | malformed => "planner JSON does not match the plan shape"
  | mismatch m => "planner JSON does not match the plan shape: " ++ m.message

/-- Whether an object has been found that is no plan. -/
def isShape : PlanFault → Bool
  | malformed | mismatch _ => true
  | empty | noObject => false

end PlanFault

namespace Plan

/-- Reads the text of a plan object. -/
def decode (cs : List Char) : Except PlanFault Plan :=
  match Json.readChars? cs with
  | none => .error .malformed
  | some v => (ofJson v.canonical).mapError .mismatch

/-- Reads a text that begins with an opening brace. -/
def decodeObject (cs : List Char) : Except PlanFault Plan :=
  if cs.head? = some '\x7b' then decode cs else .error .noObject

/-- The whole text is the object. -/
def readDirect (cs : List Char) : Except PlanFault Plan := decodeObject (Text.trim cs)

/-- Three back quotes, the mark of a fenced block. -/
def fence : List Char := List.replicate 3 (Char.ofNat 0x60)

/-- The content of the first fenced block, without the word that may name its language. -/
def fenced? (cs : List Char) : Option (List Char) := do
  let (_, rest) ← Text.breakOn fence cs
  let (body, _) ← Text.breakOn fence (Text.trimStart (rest.dropWhile Char.isAlpha))
  some (Text.trim body)

/-- The first fenced block holds the object. -/
def readFenced (cs : List Char) : Except PlanFault Plan :=
  match fenced? cs with
  | some body => decodeObject body
  | none => .error .noObject

/-- The first balanced object in the text. -/
def readBalanced (cs : List Char) : Except PlanFault Plan :=
  match firstObject? cs with
  | some span => decode span
  | none => .error .noObject

/-- Tries readings in turn; if all fail, the last object that was no plan tells why. -/
def firstOf (cs : List Char) (fault : PlanFault) :
    List (List Char → Except PlanFault Plan) → Except PlanFault Plan
  | [] => .error fault
  | read :: rest =>
    match read cs with
    | .ok plan => .ok plan
    | .error e => firstOf cs (if e.isShape then e else fault) rest

/-- Reads a plan from the answer of a language model. -/
def read (output : String) : Except PlanFault Plan :=
  let cs := Text.trim output.toList
  if cs = [] then .error .empty
  else firstOf cs .noObject [readDirect, readFenced, readBalanced]

end Plan

end Archivist
