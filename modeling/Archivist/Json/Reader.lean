import Archivist.Json.Basic
import Archivist.Number.Count
import Archivist.Text.Digit

/-!
# Reading JSON

`Json.read?` accepts exactly one JSON value with white space around it. Arrays and objects may
nest `nesting` levels deep. A string holds no raw control character and no lone surrogate
escape; a number has no leading zero, and one beyond the range of double precision is refused.

A whole number of 64 bits is exact. Any other number is the product of its digits, as far as 64 bits
hold them, and a power of ten in double precision, so it is not always the double nearest to it.

Every step returns the unread rest of the text. The number of items of an array is bounded by the
length of the text, which is what `size` counts down from.
-/

namespace Archivist.Json

/-- Levels of arrays and objects that a text may nest. -/
def nesting : Nat := 127

/-- The four characters that may stand between tokens. -/
def isSpace (c : Char) : Bool := c = ' ' || c = '\n' || c = '\t' || c = '\r'

/-- The text from its next token on. -/
def skipSpace (cs : List Char) : List Char := cs.dropWhile isSpace

/-- The value of a hexadecimal digit. -/
def hexValue? (c : Char) : Option Nat :=
  if '0' ≤ c ∧ c ≤ '9' then some (c.toNat - '0'.toNat)
  else if 'a' ≤ c ∧ c ≤ 'f' then some (c.toNat - 'a'.toNat + 10)
  else if 'A' ≤ c ∧ c ≤ 'F' then some (c.toNat - 'A'.toNat + 10)
  else none

/-- Four hexadecimal digits. -/
def readHex4 : List Char → Option (Nat × List Char)
  | a :: b :: c :: d :: rest => do
    let a ← hexValue? a
    let b ← hexValue? b
    let c ← hexValue? c
    let d ← hexValue? d
    some (((a * 16 + b) * 16 + c) * 16 + d, rest)
  | _ => none

/-- The character that a single-letter escape stands for. -/
def simpleEscape? : Char → Option Char
  | '"' => some '"'
  | '\\' => some '\\'
  | '/' => some '/'
  | 'b' => some '\x08'
  | 'f' => some '\x0c'
  | 'n' => some '\n'
  | 'r' => some '\r'
  | 't' => some '\t'
  | _ => none

/-- The rest of an escape after its backslash: one character, of two escapes if the first is a
leading surrogate. -/
def readEscape : List Char → Option (Char × List Char)
  | 'u' :: rest => do
    let (high, rest) ← readHex4 rest
    if 0xD800 ≤ high ∧ high < 0xDC00 then
      match rest with
      | '\\' :: 'u' :: rest =>
        let (low, rest) ← readHex4 rest
        if 0xDC00 ≤ low ∧ low < 0xE000 then
          some (Char.ofNat (0x10000 + (high - 0xD800) * 0x400 + (low - 0xDC00)), rest)
        else none
      | _ => none
    else if 0xDC00 ≤ high ∧ high < 0xE000 then none
    else some (Char.ofNat high, rest)
  | c :: rest => (simpleEscape? c).map (·, rest)
  | [] => none

/-- The characters up to the closing quote, last one first. -/
def readChars : Nat → List Char → List Char → Option (List Char × List Char)
  | 0, _, _ => none
  | _ + 1, _, [] => none
  | _ + 1, done, '"' :: rest => some (done, rest)
  | size + 1, done, '\\' :: rest => do
    let (c, rest) ← readEscape rest
    readChars size (c :: done) rest
  | size + 1, done, c :: rest =>
    if c.toNat < 0x20 then none else readChars size (c :: done) rest

/-- A string after its opening quote. -/
def readString (size : Nat) (cs : List Char) : Option (String × List Char) :=
  (readChars (size + 1) [] cs).map fun (done, rest) => (String.ofList done.reverse, rest)

/-- The digits at the front of the text. -/
def spanDigits (cs : List Char) : List Char × List Char := cs.span Text.isAsciiDigit

/-- The whole part of a number: `0`, or digits that do not begin with `0`. -/
def readWhole (cs : List Char) : Option (List Char × List Char) :=
  match spanDigits cs with
  | ([], _) => none
  | (['0'], rest) => some (['0'], rest)
  | ('0' :: _, _) => none
  | (digits, rest) => some (digits, rest)

/-- The digits after a decimal point, if there is one. -/
def readFraction : List Char → Option (Option (List Char) × List Char)
  | '.' :: rest =>
    match spanDigits rest with
    | ([], _) => none
    | (digits, rest) => some (some digits, rest)
  | cs => some (none, cs)

/-- The sign of an exponent, if there is one, and whether it is a minus. -/
def readSign : List Char → Bool × List Char
  | '-' :: rest => (true, rest)
  | '+' :: rest => (false, rest)
  | rest => (false, rest)

/-- The signed exponent, if there is one. -/
def readExponent : List Char → Option (Option Int × List Char)
  | c :: rest =>
    if c = 'e' ∨ c = 'E' then
      let (negative, rest) := readSign rest
      match spanDigits rest with
      | ([], _) => none
      | (digits, rest) =>
        let n : Int := Text.natOfDigits digits
        some (some (if negative then -n else n), rest)
    else some (none, c :: rest)
  | [] => some (none, [])

/-- Adds digits to a whole number as far as 64 bits hold it; the digits from the first one on that
they do not hold are left. -/
def addDigits (n : Nat) : List Char → Nat × List Char
  | [] => (n, [])
  | c :: cs =>
    let m := 10 * n + Text.asciiDigitValue c
    if m < Count.size 64 then addDigits m cs else (n, c :: cs)

/-- The power of ten in double precision. -/
def tenTo (e : Nat) : Float := Float.ofScientific 1 false e

/-- `n · 10 ^ e` in double precision, unless it is too large. Each step rounds: the whole number,
the power of ten, and the product or quotient of the two. The greatest power is 308, so a small
number may take two divisions. -/
def scaled (n : Nat) (e : Int) : Option Float :=
  let x := Float.ofNat n
  if n = 0 then some 0.0
  else if 308 < e then none
  else if 0 ≤ e then
    let y := x * tenTo e.toNat
    if y.isInf then none else some y
  else if -308 ≤ e then some (x / tenTo (-e).toNat)
  else if -616 ≤ e then some (x / tenTo 308 / tenTo (-e - 308).toNat)
  else some 0.0

/-- The number with these digits in double precision, unless it is too large. Of the whole part and
of the fraction as many digits count as 64 bits hold; of the others only their number counts, and
that only in the whole part. -/
def realOf (negative : Bool) (whole fraction : List Char) (exponent : Int) : Option Float :=
  let (n, surplus) := addDigits 0 whole
  let (n, ignored) := addDigits n fraction
  let places : Int := fraction.length - ignored.length
  (scaled n (exponent + surplus.length - places)).map fun x => if negative then -x else x

/-- The number with these digits, unless it is too large for double precision. -/
def makeNumber (negative : Bool) (whole : List Char) (fraction : Option (List Char))
    (exponent : Option Int) : Option JsonNumber :=
  let n := Text.natOfDigits whole
  let i : Int := if negative then -n else n
  if fraction.isNone ∧ exponent.isNone ∧ ¬(negative ∧ n = 0) ∧
      -Count.size 63 ≤ i ∧ i < Count.size 64 then
    some (.whole i)
  else (realOf negative whole (fraction.getD []) (exponent.getD 0)).map .real

/-- The minus in front of a number, if there is one. -/
def readMinus : List Char → Bool × List Char
  | '-' :: rest => (true, rest)
  | rest => (false, rest)

/-- A number. -/
def readNumber (cs : List Char) : Option (JsonNumber × List Char) := do
  let (negative, cs) := readMinus cs
  let (whole, cs) ← readWhole cs
  let (fraction, cs) ← readFraction cs
  let (exponent, cs) ← readExponent cs
  let n ← makeNumber negative whole fraction exponent
  some (n, cs)

/-- `word` at the front of the text. -/
def readWord (word : List Char) (v : Json) (cs : List Char) : Option (Json × List Char) :=
  if word.isPrefixOf cs then some (v, cs.drop word.length) else none

/-- The parts of an array or object after the first one, up to the closing bracket; `read` is the
reader of one part. -/
def readListed {α : Type} (close : Char) (read : List Char → Option (α × List Char)) :
    Nat → List α → List Char → Option (List α × List Char)
  | 0, _, _ => none
  | size + 1, done, cs =>
    match skipSpace cs with
    | [] => none
    | c :: rest =>
      if c = close then some (done.reverse, rest)
      else if c = ',' then do
        let (a, rest) ← read (skipSpace rest)
        readListed close read size (a :: done) rest
      else none

/-- The parts of an array or object after its opening bracket. -/
def readEnclosed {α : Type} (close : Char) (size : Nat)
    (read : List Char → Option (α × List Char)) (cs : List Char) : Option (List α × List Char) :=
  match skipSpace cs with
  | [] => none
  | c :: rest =>
    if c = close then some ([], rest)
    else do
      let (a, rest) ← read (c :: rest)
      readListed close read size [a] rest

/-- One member of an object. -/
def readMember (size : Nat) (read : List Char → Option (Json × List Char)) :
    List Char → Option ((String × Json) × List Char)
  | '"' :: rest => do
    let (key, rest) ← readString size rest
    match skipSpace rest with
    | ':' :: rest =>
      let (v, rest) ← read (skipSpace rest)
      some ((key, v), rest)
    | _ => none
  | _ => none

/-- A value that starts at the front of the text and nests at most `depth` levels. -/
def readValue (size : Nat) : Nat → List Char → Option (Json × List Char)
  | depth, cs =>
    match cs with
    | 'n' :: _ => readWord ['n', 'u', 'l', 'l'] .null cs
    | 't' :: _ => readWord ['t', 'r', 'u', 'e'] (.bool true) cs
    | 'f' :: _ => readWord ['f', 'a', 'l', 's', 'e'] (.bool false) cs
    | '"' :: rest => (readString size rest).map fun (s, rest) => (.str s, rest)
    | '[' :: rest =>
      match depth with
      | 0 => none
      | depth + 1 =>
        (readEnclosed ']' size (readValue size depth) rest).map fun (items, rest) =>
          (.arr items, rest)
    | '\x7b' :: rest =>
      match depth with
      | 0 => none
      | depth + 1 =>
        (readEnclosed '\x7d' size (readMember size (readValue size depth)) rest).map
          fun (members, rest) => (.obj members, rest)
    | _ => (readNumber cs).map fun (n, rest) => (.num n, rest)

/-- The value that the whole text is. -/
def readChars? (cs : List Char) : Option Json :=
  match readValue cs.length nesting (skipSpace cs) with
  | some (v, rest) => if skipSpace rest = [] then some v else none
  | none => none

/-- The value written by a string. -/
def read? (s : String) : Option Json := readChars? s.toList

end Archivist.Json
