import Archivist.Json.Shape

/-!
# Fields of Loosely Written Objects

Access to objects that people write by hand, where a field that is missing, null or of another type
counts as not given.
-/

namespace Archivist.Json

/-- A field of an object; null if it is missing. -/
def field (v : Json) (key : String) : Json := (v.get? key).getD .null

/-- The text in a field. -/
def text? (v : Json) (key : String) : Option String := (v.field key).str?

/-- The text in a field; empty if there is none. -/
def text (v : Json) (key : String) : String := (v.text? key).getD ""

/-- The truth value in a field; false if there is none. -/
def flag (v : Json) (key : String) : Bool :=
  match v.field key with
  | .bool b => b
  | _ => false

/-- The count in a field. -/
def count? (v : Json) (key : String) : Option Nat := (v.field key).asCount.toOption

/-- The count in a field, or another one if there is none. -/
def countOr (v : Json) (key : String) (other : Nat) : Nat := (v.count? key).getD other

/-- The items of an array; none if the value is no array. -/
def toItems : Json → List Json
  | .arr items => items
  | _ => []

/-- The members of an object; none if the value is no object. -/
def toMembers : Json → Members
  | .obj members => members
  | _ => []

/-- The items of the array in a field. -/
def items (v : Json) (key : String) : List Json := (v.field key).toItems

/-- The texts in the array in a field. -/
def texts (v : Json) (key : String) : List String := (v.items key).filterMap (·.str?)

/-- The number that a value is, rounded to double and then to single precision. -/
def single? (v : Json) : Option Float32 := (v.asFloat.map Float.toFloat32).toOption

/-- Single-precision numbers in an array; zero stands in for anything else. -/
def toFloats (v : Json) : List Float32 := v.toItems.map fun x => x.single?.getD 0

/-- What `read` makes of the value in a field, or a default if the field is null or missing. -/
def readOr {α : Type} (v : Json) (key : String) (default : α)
    (read : Json → Except Mismatch α) : Except Mismatch α :=
  match v.field key with
  | .null => .ok default
  | x => read x

end Archivist.Json
