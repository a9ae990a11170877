import Archivist.Json.Layout
import Archivist.Json.Printer
import Archivist.Text.Quoted

/-!
# Reading Typed Data from JSON

A `Mismatch` says why a JSON value does not have the shape that is asked for, and
`Mismatch.message` words it. Readers of the plain types stand beside it, and `Shape` describes
the members of a record: which keys it has, under which other names each may be given, whether it
may be missing and how its value is checked.

`Shape.gather` goes through the members of an object in their order. The first member with a
wrong value or given twice decides, whatever comes after it; a missing member is noticed at the
end. A record may also be given as an array of its values in the order of the shape.
-/

namespace Archivist

/-- Why a JSON value does not have the expected shape. -/
inductive Mismatch where
  /-- A value of another type. -/
  | wrongType (found : Json) (expected : String)
  /-- A number outside the expected range. -/
  | wrongNumber (n : Int) (expected : String)
  /-- An object that should have exactly one member. -/
  | notSingle
  /-- A required member is missing. -/
  | missing (key : String)
  /-- A member is given twice, perhaps under two names. -/
  | repeated (key : String)
  /-- An array with too few values for a record. -/
  | tooShort (length : Nat) (expected : String)
  /-- An array with too many values for a record. -/
  | tooLong (length : Nat)
  /-- A word that is none of the expected ones. -/
  | unknownWord (word : String) (expected : List String)

namespace Mismatch

/-- How a message names a value that it did not expect. -/
def describe : Json → String
  | .null => "null"
  | .bool b => if b then "boolean `true`" else "boolean `false`"
  | .num (.whole n) => "integer `" ++ toString n ++ "`"
  | .num (.real x) => "floating point `" ++ Json.renderFloat x ++ "`"
  | .str s => "string " ++ Text.quoted s
  | .arr _ => "sequence"
  | .obj _ => "map"

/-- A word in back quotes. -/
def backQuoted (word : String) : String := "`" ++ word ++ "`"

/-- The words that were expected, two joined by "or", more listed after "one of". -/
def alternatives : List String → String
  | [a, b] => backQuoted a ++ " or " ++ backQuoted b
  | words => "one of " ++ ", ".intercalate (words.map backQuoted)

/-- The text of a mismatch. -/
def message : Mismatch → String
  | .wrongType found expected => "invalid type: " ++ describe found ++ ", expected " ++ expected
  | .wrongNumber n expected =>
    "invalid value: integer `" ++ toString n ++ "`, expected " ++ expected
  | .notSingle => "invalid value: map, expected map with a single key"
  | .missing key => "missing field `" ++ key ++ "`"
  | .repeated key => "duplicate field `" ++ key ++ "`"
  | .tooShort length expected => s!"invalid length {length}, expected {expected}"
  | .tooLong length => s!"invalid length {length}, expected fewer elements in array"
  | .unknownWord word expected =>
    "unknown variant `" ++ word ++ "`, expected " ++ alternatives expected

end Mismatch

namespace Json

/-- A string. -/
def asString : Json → Except Mismatch String
  | .str s => .ok s
  | v => .error (.wrongType v "a string")

/-- A truth value. -/
def asBool : Json → Except Mismatch Bool
  | .bool b => .ok b
  | v => .error (.wrongType v "a boolean")

/-- A whole number from `low` to `high`; `name` is what a message calls this range. -/
def asWhole (low high : Int) (name : String) : Json → Except Mismatch Int
  | .num (.whole n) => if low ≤ n ∧ n ≤ high then .ok n else .error (.wrongNumber n name)
  | v => .error (.wrongType v name)

/-- A count. -/
def asCount (v : Json) : Except Mismatch Nat :=
  (asWhole 0 (Count.size 64 - 1) "usize" v).map Int.toNat

/-- A number in double precision. -/
def asFloat : Json → Except Mismatch Float
  | .num (.whole n) => .ok (Float.ofInt n)
  | .num (.real x) => .ok x
  | v => .error (.wrongType v "f64")

/-- A number in single precision. -/
def asFloat32 : Json → Except Mismatch Float32
  | .num (.whole n) => .ok (Float32.ofInt n)
  | .num (.real x) => .ok x.toFloat32
  | v => .error (.wrongType v "f32")

/-- `null`, or a value that `read` accepts. -/
def asOption {α : Type} (read : Json → Except Mismatch α) : Json → Except Mismatch (Option α)
  | .null => .ok none
  | v => (read v).map some

/-- An array whose items `read` accepts. -/
def asList {α : Type} (read : Json → Except Mismatch α) : Json → Except Mismatch (List α)
  | .arr items => items.mapM read
  | v => .error (.wrongType v "a sequence")

/-- An object with values that `read` accepts, as a sorted list of members. -/
def asMap {α : Type} (read : Json → Except Mismatch α) (v : Json) :
    Except Mismatch (List (String × α)) :=
  match v with
  | .obj members => do
    for (_, v) in members do
      let _ ← read v
    (canonicalMembers members []).mapM fun (k, v) => do
      let v ← read v
      .ok (k, v)
  | v => .error (.wrongType v "a map")

/-- One of the given words, alone or as the only key of an object with the value `null`. -/
def asWord (words : List String) : Json → Except Mismatch String
  | .str s => if s ∈ words then .ok s else .error (.unknownWord s words)
  | .obj [(s, v)] =>
    if s ∉ words then .error (.unknownWord s words)
    else if v.isNull then .ok s
    else .error (.wrongType v "unit")
  | .obj _ => .error .notSingle
  | v => .error (.wrongType v "string or map")

end Json

/-- One member of a record. -/
structure Slot where
  key : String
  /-- Other names under which the member may be given. -/
  aliases : List String := []
  /-- Whether the record may be given without this member. -/
  optional : Bool := true
  /-- Which parts of the value count. -/
  layout : Layout := .whole
  /-- Refuses a wrong value. -/
  check : Json → Except Mismatch Unit

/-- A reader as the check of a slot. -/
def Slot.checking {α : Type} (read : Json → Except Mismatch α) (v : Json) :
    Except Mismatch Unit :=
  (read v).map fun _ => ()

/-- The members of a record, in the order of an array that gives it. -/
structure Shape where
  /-- What a message calls the record. -/
  name : String
  slots : List Slot

namespace Shape

/-- The layout of the record: members that belong to no slot do not count. -/
def layout (shape : Shape) : Layout :=
  .record (shape.slots.map fun slot => (slot.key :: slot.aliases, slot.layout))

/-- The slot that a key of an object belongs to. -/
def slot? (shape : Shape) (key : String) : Option Slot :=
  shape.slots.find? fun slot => slot.key = key || key ∈ slot.aliases

/-- Goes through the members of an object; `done` are those read so far under their own keys.
Members that belong to no slot are passed over. -/
def visit (shape : Shape) (done : Members) : List (String × Json) → Except Mismatch Members
  | [] => .ok done
  | (key, v) :: rest =>
    match shape.slot? key with
    | none => visit shape done rest
    | some slot =>
      if (Members.get? slot.key done).isSome then .error (.repeated slot.key)
      else do
        slot.check v
        visit shape (done ++ [(slot.key, v)]) rest

/-- Goes through the items of an array and gives each the key of its slot. -/
def visitItems (total : Nat) (record : String) : List Slot → List Json → Members →
    Except Mismatch Members
  | [], [], done => .ok done
  | [], _ :: _, _ => .error (.tooLong total)
  | slot :: slots, [], done =>
    if slot.optional then visitItems total record slots [] done
    else .error (.tooShort total record)
  | slot :: slots, v :: rest, done => do
    slot.check v
    visitItems total record slots rest (done ++ [(slot.key, v)])

/-- The members of a record, under their own keys. -/
def gather (shape : Shape) : Json → Except Mismatch Members
  | .obj members => do
    let done ← visit shape [] members
    for slot in shape.slots do
      if !slot.optional && (Members.get? slot.key done).isNone then
        throw (.missing slot.key)
    .ok done
  | .arr items =>
    visitItems items.length
      s!"{shape.name} with {shape.slots.length} elements" shape.slots items []
  | v => .error (.wrongType v shape.name)

end Shape

namespace Members

/-- Reads the member with this key, or takes the default if the record was given without it. -/
def read {α : Type} (ms : Members) (key : String) (default : α)
    (read : Json → Except Mismatch α) : Except Mismatch α :=
  match get? key ms with
  | some v => read v
  | none => .ok default

end Members

end Archivist
