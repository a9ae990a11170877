import Archivist.Calendar.Date
import Archivist.Json.Reader
import Archivist.Number.Decimal
import Archivist.Text.Search

/-!
# Tokens of TOML

The parts of a TOML document below the level of tables: white space and comments, the four kinds
of strings, and unquoted values, which are whole numbers, floating-point numbers, truth values and
points in time. Each reader takes a token from the front of the text and gives the rest.

Values are read as JSON values; a point in time becomes an object, because no setting is one.
-/

namespace Archivist.Toml

/-- White space within a line. -/
def isSpace (c : Char) : Bool := c = ' ' || c = '\t'

/-- The text without the white space in front. -/
def skipSpace (cs : List Char) : List Char := cs.dropWhile isSpace

/-- A character that may stand in a comment or a string: no control character but the tab. -/
def isPlain (c : Char) : Bool := c = '\t' || (decide (0x20 ≤ c.toNat) && c.toNat ≠ 0x7F)

/-- The text behind the end of a line. -/
def newline? : List Char → Option (List Char)
  | '\n' :: rest => some rest
  | '\r' :: '\n' :: rest => some rest
  | _ => none

/-- The text behind the end of a line, before which white space and a comment may stand. -/
def lineEnd? (cs : List Char) : Option (List Char) :=
  let cs := match skipSpace cs with
    | '#' :: rest => rest.dropWhile isPlain
    | cs => cs
  if cs = [] then some [] else newline? cs

/-- The text without white space, comments and line ends in front; `comment` tells whether it
begins within a comment. -/
def skipLines (comment : Bool) : List Char → List Char
  | [] => []
  | c :: rest =>
    if c = '\n' then skipLines false rest
    else if c = '\r' && rest.head? = some '\n' then skipLines comment rest
    else if comment then if isPlain c then skipLines true rest else c :: rest
    else if isSpace c then skipLines false rest
    else if c = '#' then skipLines true rest
    else c :: rest

/-- The text without white space and line ends in front. -/
def skipBlank : List Char → List Char
  | [] => []
  | c :: rest =>
    if c = '\n' || isSpace c then skipBlank rest
    else if c = '\r' && rest.head? = some '\n' then skipBlank rest
    else c :: rest

/-- A number of hexadecimal digits. -/
def readHex : Nat → Nat → List Char → Option (Nat × List Char)
  | 0, n, cs => some (n, cs)
  | _ + 1, _, [] => none
  | left + 1, n, c :: cs => (Json.hexValue? c).bind fun d => readHex left (16 * n + d) cs

/-- A character given by its number. -/
def readCode (digits : Nat) (cs : List Char) : Option (Char × List Char) := do
  let (n, rest) ← readHex digits 0 cs
  if n < 0xD800 ∨ (0xE000 ≤ n ∧ n < 0x110000) then some (Char.ofNat n, rest) else none

/-- The rest of an escape after its backslash. -/
def readEscape : List Char → Option (Char × List Char)
  | 'b' :: rest => some ('\x08', rest)
  | 't' :: rest => some ('\t', rest)
  | 'n' :: rest => some ('\n', rest)
  | 'f' :: rest => some ('\x0c', rest)
  | 'r' :: rest => some ('\r', rest)
  | '"' :: rest => some ('"', rest)
  | '\\' :: rest => some ('\\', rest)
  | 'u' :: rest => readCode 4 rest
  | 'U' :: rest => readCode 8 rest
  | _ => none

/-- The characters of a string in one line up to its closing quote, last one first. -/
def readLine (mark : Char) (escapes : Bool) :
    Nat → List Char → List Char → Option (List Char × List Char)
  | 0, _, _ => none
  | _ + 1, _, [] => none
  | size + 1, done, c :: rest =>
    if c = mark then some (done, rest)
    else if c = '\\' && escapes then do
      let (c, rest) ← readEscape rest
      readLine mark escapes size (c :: done) rest
    else if isPlain c then readLine mark escapes size (c :: done) rest
    else none

/-- The characters of a string of several lines up to its three closing quotes, last one first.
Up to two quotes in front of the closing ones belong to the string. -/
def readLines (mark : Char) (escapes : Bool) :
    Nat → List Char → List Char → Option (List Char × List Char)
  | 0, _, _ => none
  | _ + 1, _, [] => none
  | size + 1, done, c :: rest =>
    if c = mark then
      let quotes := ((c :: rest).take 5).takeWhile (· = mark)
      let rest := (c :: rest).drop quotes.length
      if 3 ≤ quotes.length then some (quotes.drop 3 ++ done, rest)
      else readLines mark escapes size (quotes ++ done) rest
    else if c = '\\' && escapes then
      match newline? (skipSpace rest) with
      | some rest => readLines mark escapes size done (skipBlank rest)
      | none => do
        let (c, rest) ← readEscape rest
        readLines mark escapes size (c :: done) rest
    else match newline? (c :: rest) with
      | some rest => readLines mark escapes size ('\n' :: done) rest
      | none => if isPlain c then readLines mark escapes size (c :: done) rest else none

/-- A string after its first quote. -/
def readString (mark : Char) (cs : List Char) : Option (String × List Char) :=
  let escapes := mark = '"'
  let read := match cs with
    | a :: b :: rest =>
      if a = mark ∧ b = mark then
        readLines mark escapes (cs.length + 1) [] ((newline? rest).getD rest)
      else readLine mark escapes (cs.length + 1) [] cs
    | cs => readLine mark escapes (cs.length + 1) [] cs
  read.map fun (done, rest) => (String.ofList done.reverse, rest)

/-- Digits without the underscores that stand between two of them. -/
def digits? (isDigit : Char → Bool) (cs : List Char) : Option (List Char) :=
  let pieces := Text.splitAt (· = '_') cs
  if pieces.all fun p => p ≠ [] && p.all isDigit then some pieces.flatten else none

/-- The number written by digits of a base. -/
def natOfBase (base : Nat) (cs : List Char) : Nat :=
  cs.foldl (fun n c => base * n + (Json.hexValue? c).getD 0) 0

/-- A digit of a base up to 16. -/
def isDigitOf (base : Nat) (c : Char) : Bool := (Json.hexValue? c).any (decide <| · < base)

/-- The sign in front of a number, and the rest. -/
def splitSign : List Char → Bool × List Char
  | '-' :: rest => (true, rest)
  | '+' :: rest => (false, rest)
  | cs => (false, cs)

/-- Decimal digits that do not begin with a superfluous zero. -/
def whole? (cs : List Char) : Option (List Char) :=
  match digits? Text.isAsciiDigit cs with
  | some ('0' :: _ :: _) => none
  | digits => digits

/-- The whole number that a word is. -/
def intOf? (cs : List Char) : Option Int :=
  let n : Option Int := match cs with
    | '0' :: 'x' :: rest => (digits? (isDigitOf 16) rest).map fun d => natOfBase 16 d
    | '0' :: 'o' :: rest => (digits? (isDigitOf 8) rest).map fun d => natOfBase 8 d
    | '0' :: 'b' :: rest => (digits? (isDigitOf 2) rest).map fun d => natOfBase 2 d
    | cs =>
      let (negative, rest) := splitSign cs
      (whole? rest).map fun d =>
        let n : Int := Text.natOfDigits d
        if negative then -n else n
  n.filter fun n => decide (-Count.size 63 ≤ n ∧ n < Count.size 63)

/-- The exponent of a number. -/
def exponentOf? (cs : List Char) : Option Int :=
  let (negative, rest) := splitSign cs
  (digits? Text.isAsciiDigit rest).map fun d =>
    let n : Int := Text.natOfDigits d
    if negative then -n else n

/-- The floating-point number that a word is; one too large is refused unless it is negative. -/
def floatOf? (cs : List Char) : Option Float := do
  let (negative, rest) := splitSign cs
  let signed (x : Float) : Float := if negative then -x else x
  if rest = ['i', 'n', 'f'] then return signed (1.0 / 0.0)
  if rest = ['n', 'a', 'n'] then return 0.0 / 0.0
  let isMark (c : Char) : Bool := c = 'e' || c = 'E'
  let mantissa := rest.takeWhile (!isMark ·)
  let exponent ← match rest.dropWhile (!isMark ·) with
    | [] => pure 0
    | _ :: e => exponentOf? e
  let whole ← whole? (mantissa.takeWhile (· ≠ '.'))
  let fraction ← match mantissa.dropWhile (· ≠ '.') with
    | [] => if mantissa = rest then none else pure []
    | _ :: f => digits? Text.isAsciiDigit f
  let x := signed (Decimal.nearest (Text.natOfDigits (whole ++ fraction))
    (exponent - fraction.length))
  if x.isInf && !negative then none else some x

/-- Two digits with a value in a range. -/
def twoDigits? (low high : Nat) : List Char → Option Nat
  | [a, b] => do
    let n ← Text.readNat [a, b]
    if low ≤ n ∧ n ≤ high then some n else none
  | _ => none

/-- Whether a word is a day. -/
def isDay (cs : List Char) : Bool :=
  match Text.splitAt (· = '-') cs with
  | [year, month, day] => year.length = 4 && ((do
      let year ← Text.readNat year
      let month ← twoDigits? 1 12 month
      let day ← twoDigits? 1 31 day
      Date.ofParts? year month day).isSome)
  | _ => false

/-- Whether a word is a time of day. -/
def isTime (cs : List Char) : Bool :=
  match Text.splitAt (· = ':') cs with
  | [hour, minute, second] =>
    (twoDigits? 0 23 hour).isSome && (twoDigits? 0 59 minute).isSome &&
    (twoDigits? 0 60 (second.take 2)).isSome &&
    (match second.drop 2 with
      | [] => true
      | '.' :: fraction => fraction ≠ [] && fraction.all Text.isAsciiDigit
      | _ => false)
  | _ => false

/-- Whether a word is a time of day, perhaps with an offset from universal time. -/
def isTimeWithOffset (cs : List Char) : Bool :=
  let time := cs.takeWhile fun c => c ∉ ['Z', 'z', '+', '-']
  isTime time && match cs.drop time.length with
    | [] => true
    | ['Z'] | ['z'] => true
    | sign :: offset => sign ∈ ['+', '-'] && match Text.splitAt (· = ':') offset with
      | [hour, minute] => (twoDigits? 0 23 hour).isSome && (twoDigits? 0 59 minute).isSome
      | _ => false

/-- Whether a word is a point in time. -/
def isMoment (cs : List Char) : Bool :=
  isTime cs || isDay cs || match cs.drop 10 with
    | mark :: time => mark ∈ ['T', 't', ' '] && isDay (cs.take 10) && isTimeWithOffset time
    | [] => false

/-- A character of an unquoted value. -/
def isWordChar (c : Char) : Bool := c.isAlphanum || c ∈ ['_', '+', '-', '.', ':']

/-- The value that a word is. -/
def valueOf? (cs : List Char) : Option Json :=
  if cs = ['t', 'r', 'u', 'e'] then some (.bool true)
  else if cs = ['f', 'a', 'l', 's', 'e'] then some (.bool false)
  else if isMoment cs then some (.obj [("moment", .str (String.ofList cs))])
  else ((intOf? cs).map Json.int).or ((floatOf? cs).map fun x => .num (.real x))

/-- An unquoted value; a day may be followed by a blank and a time. -/
def readWord (cs : List Char) : Option (Json × List Char) :=
  let word := cs.takeWhile isWordChar
  let rest := cs.drop word.length
  let later := match rest with
    | ' ' :: more => ' ' :: more.takeWhile isWordChar
    | _ => []
  match if isMoment (word ++ later) then valueOf? (word ++ later) else none with
  | some v => some (v, rest.drop later.length)
  | none => (valueOf? word).map (·, rest)

end Archivist.Toml
