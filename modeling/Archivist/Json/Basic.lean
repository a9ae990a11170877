/-!
# JSON Values

A JSON value as it is written: an object is the list of its members in the order of the text, so
a key may occur twice. `Json.canonical` is the value that the text stands for: members sorted by
key, of two members with one key the later one. Whole numbers and numbers with a fraction or an
exponent are kept apart, because a reader of typed data treats `1` and `1.0` differently.
-/

namespace Archivist

/-- A number of a JSON text. -/
inductive JsonNumber where
  /-- A whole number between `-2 ^ 63` and `2 ^ 64 - 1`. -/
  | whole (n : Int)
  /-- Any other number, and a whole one outside that range. -/
  | real (x : Float)

/-- A JSON value. -/
inductive Json where
  | null
  | bool (b : Bool)
  | num (n : JsonNumber)
  | str (s : String)
  | arr (items : List Json)
  | obj (members : List (String × Json))

/-- An association list from strings, sorted by key without repetition. -/
abbrev Members := List (String × Json)

namespace Members

/-- The value of the first member with this key. -/
def get? (key : String) : Members → Option Json
  | [] => none
  | (k, v) :: rest => if k = key then some v else get? key rest

/-- Sets the value of a key and keeps the members sorted by key. -/
def insert (key : String) (value : Json) : Members → Members
  | [] => [(key, value)]
  | (k, v) :: rest =>
    if key < k then (key, value) :: (k, v) :: rest
    else if key = k then (key, value) :: rest
    else (k, v) :: insert key value rest

/-- Removes every member with this key. -/
def erase (key : String) (ms : Members) : Members := ms.filter (·.1 ≠ key)

end Members

namespace Json

/-- A whole number as a JSON value. -/
def int (n : Int) : Json := .num (.whole n)

/-- A natural number as a JSON value. -/
def nat (n : Nat) : Json := .int n

mutual
/-- The value a text stands for: members sorted, the last of several with one key. -/
def canonical : Json → Json
  | .arr items => .arr (canonicalItems items)
  | .obj members => .obj (canonicalMembers members [])
  | v => v

/-- `canonical` on the items of an array. -/
def canonicalItems : List Json → List Json
  | [] => []
  | v :: rest => v.canonical :: canonicalItems rest

/-- Inserts members in the order of the text, so that a later one replaces an earlier. -/
def canonicalMembers : List (String × Json) → Members → Members
  | [], done => done
  | (k, v) :: rest, done => canonicalMembers rest (done.insert k v.canonical)
end

/-- The member of an object with this key. -/
def get? (key : String) : Json → Option Json
  | .obj members => Members.get? key members
  | _ => none

/-- The text of a string value. -/
def str? : Json → Option String
  | .str s => some s
  | _ => none

/-- Whether the value is `null`. -/
def isNull : Json → Bool
  | .null => true
  | _ => false

/-- Whether the value is an object. -/
def isObj : Json → Bool
  | .obj _ => true
  | _ => false

/-- Texts as an array. -/
def strings (texts : List String) : Json := .arr (texts.map .str)

/-- A value that may be missing; null if it is. -/
def ofOption {α : Type} (toJson : α → Json) : Option α → Json
  | some a => toJson a
  | none => .null

/-- An object whose members are sorted by key. -/
def ofMembers (members : List (String × Json)) : Json := .obj (canonicalMembers members [])

end Json

end Archivist
