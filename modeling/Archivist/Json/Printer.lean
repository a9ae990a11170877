import Archivist.Json.Basic
import Archivist.Number.Decimal

/-!
# Printing JSON

The compact text of a JSON value: no white space, members in the order of the value. In a string
the quote, the backslash and the control characters below U+0020 are escaped, everything else
stands for itself. A number that is no whole number has the fewest digits that read back.
-/

namespace Archivist.Json

/-- A hexadecimal digit in lower case. -/
def hexDigit (n : Nat) : Char := (Nat.toDigits 16 (n % 16)).headD '0'

/-- A character inside a string. -/
def escapeChar (c : Char) : List Char :=
  match c with
  | '"' => ['\\', '"']
  | '\\' => ['\\', '\\']
  | '\x08' => ['\\', 'b']
  | '\x0c' => ['\\', 'f']
  | '\n' => ['\\', 'n']
  | '\r' => ['\\', 'r']
  | '\t' => ['\\', 't']
  | c =>
    if c.toNat < 0x20 then ['\\', 'u', '0', '0', hexDigit (c.toNat / 16), hexDigit c.toNat]
    else [c]

/-- A string in quotes. -/
def renderString (s : String) : String :=
  "\"" ++ String.ofList (s.toList.flatMap escapeChar) ++ "\""

/-- Numbers from 0.00001 up to below 10 ^ 16 are written without an exponent. -/
def pointRange : Decimal.PointRange := ⟨-4, 16⟩

/-- The text of a number in double precision. -/
def renderFloat (x : Float) : String := Decimal.floating pointRange (.ofFloat x)

/-- The text of a number. -/
def renderNumber : JsonNumber → String
  | .whole n => toString n
  | .real x => renderFloat x

mutual
/-- The compact text of a value. -/
def render : Json → String
  | .null => "null"
  | .bool b => if b then "true" else "false"
  | .num n => renderNumber n
  | .str s => renderString s
  | .arr items => "[" ++ renderItems true items ++ "]"
  | .obj members => "\x7b" ++ renderMembers true members ++ "\x7d"

/-- The items of an array, a comma before each but the first. -/
def renderItems (first : Bool) : List Json → String
  | [] => ""
  | v :: rest => (if first then "" else ",") ++ v.render ++ renderItems false rest

/-- The members of an object, a comma before each but the first. -/
def renderMembers (first : Bool) : List (String × Json) → String
  | [] => ""
  | (k, v) :: rest =>
    (if first then "" else ",") ++ renderString k ++ ":" ++ v.render ++ renderMembers false rest
end

end Archivist.Json
