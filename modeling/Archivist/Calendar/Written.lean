import Archivist.Calendar.Date
import Archivist.Text.Blank
import Archivist.Text.Digit

/-!
# Written Dates

A date is written as `YYYY-MM-DD`. The year has four digits; a year before 0 or after 9999 has a
sign, and more digits if it needs them.

Reading is more lenient. Each number may have white space before it, month and day may have one
digit, the year one to four, and after a sign the year may have any number of digits. The two
separators are both hyphens or both slashes and follow the number at once. `read?` also passes
over white space around the whole date; `readSpaced?` is the reading of dates in data files, which
allows white space before a separator but only hyphens.
-/

namespace Archivist

namespace Date

/-- A number with leading zeros up to a width. -/
def padded (width n : Nat) : String :=
  let digits := Nat.toDigits 10 n
  String.ofList (List.replicate (width - digits.length) '0' ++ digits)

/-- The written form of a year. -/
def writtenYear (year : Int) : String :=
  if 0 ≤ year ∧ year ≤ 9999 then padded 4 year.toNat
  else (if year < 0 then "-" else "+") ++ padded 4 year.natAbs

/-- The written form of a date. -/
def written (d : Date) : String :=
  writtenYear d.year ++ "-" ++ padded 2 d.month ++ "-" ++ padded 2 d.day

/-- Between one and `most` ASCII digits at the front of the text, as many as there are. -/
def readDigits (most : Nat) (cs : List Char) : Option (Nat × List Char) :=
  let digits := (cs.take most).takeWhile Text.isAsciiDigit
  if digits = [] then none else some (Text.natOfDigits digits, cs.drop digits.length)

/-- A year at the front of the text. -/
def readYear (cs : List Char) : Option (Int × List Char) :=
  match Text.trimStart cs with
  | '-' :: rest => (readDigits rest.length rest).map fun (n, rest) => (-(n : Int), rest)
  | '+' :: rest => (readDigits rest.length rest).map fun (n, rest) => ((n : Int), rest)
  | rest => (readDigits 4 rest).map fun (n, rest) => ((n : Int), rest)

/-- A month or a day at the front of the text. -/
def readPart (cs : List Char) : Option (Nat × List Char) := readDigits 2 (Text.trimStart cs)

/-- The text after a separator. -/
def readMark (mark : Char) : List Char → Option (List Char)
  | c :: rest => if c = mark then some rest else none
  | [] => none

/-- Reads a date with the given separator; `loosen` is applied to the text before each separator
and at the end. -/
def readWith (mark : Char) (loosen : List Char → List Char) (cs : List Char) : Option Date := do
  let (year, cs) ← readYear cs
  let cs ← readMark mark (loosen cs)
  let (month, cs) ← readPart cs
  let cs ← readMark mark (loosen cs)
  let (day, cs) ← readPart cs
  if loosen cs = [] then ofParts? year month day else none

/-- Reads a date that a user or a record gives. -/
def readChars? (cs : List Char) : Option Date :=
  let cs := Text.trim cs
  (readWith '-' id cs).or (readWith '/' id cs)

/-- Reads a date that a user or a record gives. -/
def read? (s : String) : Option Date := readChars? s.toList

/-- Reads a date of a data file. -/
def readSpaced? (s : String) : Option Date := readWith '-' Text.trimStart s.toList

end Date

end Archivist
