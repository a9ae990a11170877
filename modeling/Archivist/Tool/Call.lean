import Archivist.Json.Shape
import Archivist.Text.Blank
import Archivist.Tool.Name

/-!
# Tool Calls

A tool call as a plan states it: a name, which may or may not be that of a tool, and arguments,
which may or may not be what the tool takes.
-/

namespace Archivist

/-- A call of a tool. -/
structure ToolCall where
  name : String
  /-- The arguments, sorted by name. -/
  arguments : Members

namespace ToolCall

/-- A call with the members of an object as arguments; with none if it is no object. -/
def ofParts (name : String) (arguments : Json) : ToolCall where
  name := name
  arguments := match arguments.canonical with
    | .obj members => members
    | _ => []

/-- A call of one of the tools. -/
def ofTool (tool : ToolName) (arguments : Members) : ToolCall := ofParts tool.word (.obj arguments)

/-- The tool that is called. -/
def tool? (c : ToolCall) : Option ToolName := ToolName.read? c.name

/-- Whether a tool is called. -/
def isTo (c : ToolCall) (tool : ToolName) : Bool := c.tool? = some tool

/-- A textual argument that is not blank. -/
def text? (c : ToolCall) (key : String) : Option String :=
  ((c.arguments.get? key).bind (·.str?)).bind Text.unlessBlank

/-- Whether an argument is given and not null. -/
def has (c : ToolCall) (key : String) : Bool := (c.arguments.get? key).any (!·.isNull)

/-- The call with an argument set. -/
def set (c : ToolCall) (key : String) (value : Json) : ToolCall :=
  { c with arguments := c.arguments.insert key value }

/-- The call without an argument. -/
def without (c : ToolCall) (key : String) : ToolCall :=
  { c with arguments := c.arguments.erase key }

/-- The members of a call. -/
def shape : Shape where
  name := "struct ToolCall"
  slots := [
    { key := "name", optional := false, check := Slot.checking Json.asString },
    { key := "arguments", check := Slot.checking (Json.asMap (Except.ok ·)) }]

/-- Reads a call. -/
def ofJson (v : Json) : Except Mismatch ToolCall := do
  let ms ← shape.gather v
  let name ← ms.read "name" "" Json.asString
  let arguments ← ms.read "arguments" [] (Json.asMap (Except.ok ·))
  .ok { name, arguments }

/-- A call as it travels. -/
def toJson (c : ToolCall) : Json :=
  .obj [("arguments", .obj c.arguments), ("name", .str c.name)]

end ToolCall

end Archivist
