import Archivist.Json.Reader

/-!
# Reading the Parts That Count

A record may be written with members that nobody asks for. A `Layout` tells which parts of a value
count, and `Json.readBy?` reads a text by it: the members that do not count are passed over and do
not appear in the value.

What is passed over must be well formed, but it need not denote anything. It may hold numbers that
are too large, escapes of lone surrogates and any number of levels of arrays and objects. The keys
of members that do not count are read like all others.
-/

namespace Archivist

/-- Which parts of a JSON value count. -/
inductive Layout where
  /-- Every part. -/
  | whole
  /-- Every item of an array as far as the layout of the items goes. -/
  | list (item : Layout)
  /-- Some members of a record, each with the names under which it may be given, in the order of an
  array that gives the record. -/
  | record (members : List (List String × Layout))

namespace Json

/-- What a bracket has opened. -/
inductive Bracket where
  | array
  | object

/-- The text behind the closing quote of a string. -/
def passChars : Nat → List Char → Option (List Char)
  | 0, _ => none
  | _ + 1, [] => none
  | _ + 1, '"' :: rest => some rest
  | size + 1, '\\' :: 'u' :: rest => (readHex4 rest).bind fun (_, rest) => passChars size rest
  | size + 1, '\\' :: c :: rest =>
    if (simpleEscape? c).isSome then passChars size rest else none
  | size + 1, c :: rest => if c.toNat < 0x20 then none else passChars size rest

/-- The text behind a number of any size. -/
def passNumber (cs : List Char) : Option (List Char) := do
  let (_, cs) ← readWhole (readMinus cs).2
  let (_, cs) ← readFraction cs
  let (_, cs) ← readExponent cs
  some cs

/-- The text behind a value that is no array and no object. -/
def passScalar (cs : List Char) : Option (List Char) :=
  match cs with
  | 'n' :: _ => (readWord ['n', 'u', 'l', 'l'] .null cs).map (·.2)
  | 't' :: _ => (readWord ['t', 'r', 'u', 'e'] .null cs).map (·.2)
  | 'f' :: _ => (readWord ['f', 'a', 'l', 's', 'e'] .null cs).map (·.2)
  | '"' :: rest => passChars (rest.length + 1) rest
  | _ => passNumber cs

/-- The text behind a key and its colon. -/
def passKey (cs : List Char) : Option (List Char) :=
  match skipSpace cs with
  | '"' :: rest => do
    match skipSpace (← passChars (rest.length + 1) rest) with
    | ':' :: rest => some rest
    | _ => none
  | _ => none

/-- The text behind all that is open, the innermost bracket first; `atValue` tells whether a value
comes next. Every step but the last takes a character. -/
def passOpen : Nat → Bool → List Bracket → List Char → Option (List Char)
  | 0, _, _, _ => none
  | size + 1, true, brackets, cs =>
    match skipSpace cs with
    | '[' :: rest =>
      match skipSpace rest with
      | ']' :: rest => passOpen size false brackets rest
      | rest => passOpen size true (.array :: brackets) rest
    | '\x7b' :: rest =>
      match skipSpace rest with
      | '\x7d' :: rest => passOpen size false brackets rest
      | rest => (passKey rest).bind (passOpen size true (.object :: brackets))
    | cs => (passScalar cs).bind (passOpen size false brackets)
  | _ + 1, false, [], cs => some cs
  | size + 1, false, .array :: brackets, cs =>
    match skipSpace cs with
    | ']' :: rest => passOpen size false brackets rest
    | ',' :: rest => passOpen size true (.array :: brackets) rest
    | _ => none
  | size + 1, false, .object :: brackets, cs =>
    match skipSpace cs with
    | '\x7d' :: rest => passOpen size false brackets rest
    | ',' :: rest => (passKey rest).bind (passOpen size true (.object :: brackets))
    | _ => none

/-- The text behind a value. -/
def passValue (cs : List Char) : Option (List Char) := passOpen (cs.length + 2) true [] cs

/-- One member of an object, unless it does not count; `reader?` tells how the value of a member
that counts is read. -/
def readMemberBy (size : Nat) (reader? : String → Option (List Char → Option (Json × List Char))) :
    List Char → Option (Option (String × Json) × List Char)
  | '"' :: rest => do
    let (key, rest) ← readString size rest
    match skipSpace rest, reader? key with
    | ':' :: rest, some read =>
      let (v, rest) ← read (skipSpace rest)
      some (some (key, v), rest)
    | ':' :: rest, none => (passValue rest).map fun rest => (none, rest)
    | _, _ => none
  | _ => none

/-- The members after the first of an object. -/
def readMembersBy (whole : Nat)
    (reader? : String → Option (List Char → Option (Json × List Char))) :
    Nat → List (String × Json) → List Char → Option (List (String × Json) × List Char)
  | 0, _, _ => none
  | size + 1, done, cs =>
    match skipSpace cs with
    | '\x7d' :: rest => some (done.reverse, rest)
    | ',' :: rest => do
      let (m, rest) ← readMemberBy whole reader? (skipSpace rest)
      readMembersBy whole reader? size (m.toList ++ done) rest
    | _ => none

/-- The items after the first of an array, each with a reader of its own; `read` is the reader of
those beyond. -/
def readPlaces (size : Nat) (read : List Char → Option (Json × List Char)) :
    List (List Char → Option (Json × List Char)) → List Json → List Char →
    Option (List Json × List Char)
  | [], done, cs => readListed ']' read size done cs
  | first :: others, done, cs =>
    match skipSpace cs with
    | ']' :: rest => some (done.reverse, rest)
    | ',' :: rest => do
      let (v, rest) ← first (skipSpace rest)
      readPlaces size read others (v :: done) rest
    | _ => none

/-- The parts that count of a value that starts at the front of the text and nests at most `depth`
levels. -/
def readBy (size : Nat) : Nat → Layout → List Char → Option (Json × List Char)
  | depth + 1, .list item, '[' :: rest =>
    (readEnclosed ']' size (readBy size depth item) rest).map fun (items, rest) =>
      (.arr items, rest)
  | depth + 1, .record members, '[' :: rest =>
    match skipSpace rest, members.map fun m => readBy size depth m.2 with
    | ']' :: rest, _ => some (.arr [], rest)
    | rest, readers => do
      let (v, rest) ← readers.headD (readValue size depth) rest
      let (items, rest) ← readPlaces size (readValue size depth) readers.tail [v] rest
      some (.arr items, rest)
  | depth + 1, .record members, '\x7b' :: rest =>
    let reader? (key : String) : Option (List Char → Option (Json × List Char)) :=
      (members.find? (key ∈ ·.1)).map fun m => readBy size depth m.2
    match skipSpace rest with
    | '\x7d' :: rest => some (.obj [], rest)
    | rest => do
      let (m, rest) ← readMemberBy size reader? rest
      let (members, rest) ← readMembersBy size reader? size m.toList rest
      some (.obj members, rest)
  | depth, _, cs => readValue size depth cs

/-- The parts that count of the value written by a string. -/
def readBy? (layout : Layout) (s : String) : Option Json :=
  let cs := s.toList
  match readBy cs.length nesting layout (skipSpace cs) with
  | some (v, rest) => if skipSpace rest = [] then some v else none
  | none => none

end Json

end Archivist
