import Archivist.Text.Search

/-!
# Splitting a Stream into JSON Objects

The scanner finds the first object in a sequence of symbols by counting braces. It looks only at
braces, quotes and backslashes, which a `Symbol` instance recognises, so that it runs on the bytes
of a stream as well as on the characters of a text. Braces inside a string do not count, a quote
or a backslash outside an object means nothing, and closing braces before the first opening one
are passed over.

A `Splitter` collects bytes up to a limit and hands out the objects one by one.
-/

namespace Archivist

/-- What the scanner sees in a symbol. -/
inductive Brace where
  | opening
  | closing
  | quote
  | backslash
  | other
  deriving DecidableEq

/-- A kind of symbol in which the scanner can recognise braces and quotes. -/
class Symbol (α : Type) where
  brace : α → Brace

instance : Symbol Char where
  brace
    | '\x7b' => .opening
    | '\x7d' => .closing
    | '"' => .quote
    | '\\' => .backslash
    | _ => .other

instance : Symbol UInt8 where
  brace b :=
    if b = 0x7b then .opening
    else if b = 0x7d then .closing
    else if b = 0x22 then .quote
    else if b = 0x5c then .backslash
    else .other

namespace Scan

/-- Where the scanner stands. -/
structure State where
  /-- Open braces that are not closed yet, counted in a word of 32 bits. -/
  depth : Int32 := 0
  /-- The position of the brace that opened the object. -/
  start : Option Nat := none
  inString : Bool := false
  /-- The next symbol is escaped. -/
  escaped : Bool := false

/-- What one symbol leads to. -/
inductive Step where
  | go (state : State)
  /-- The object that began at `start` ends with this symbol. -/
  | found (start : Nat)
  /-- A brace closes that was never opened, inside an object. -/
  | mismatch

/-- The scanner's step on the symbol at position `i`. -/
def step (s : State) (i : Nat) (b : Brace) : Step :=
  if s.escaped then .go { s with escaped := false }
  else match b with
    | .backslash => if s.inString then .go { s with escaped := true } else .go s
    | .quote => if s.start.isSome then .go { s with inString := !s.inString } else .go s
    | .other => .go s
    | .opening =>
      if s.inString then .go s
      else .go { s with
        depth := s.depth + 1
        start := if s.depth = 0 then some i else s.start }
    | .closing =>
      if s.inString then .go s
      else if s.depth = 0 then if s.start.isSome then .mismatch else .go s
      else
        let depth := s.depth - 1
        match s.start with
        | some start => if depth = 0 then .found start else .go { s with depth }
        | none => .go { s with depth }

/-- Why a scan fails. -/
inductive Mismatch where
  | tooManyClosing
  deriving DecidableEq

/-- The positions of the first and the last symbol of the first object from position `i` on. -/
def run {α : Type} [Symbol α] (s : State) (i : Nat) :
    List α → Except Mismatch (Option (Nat × Nat))
  | [] => .ok none
  | x :: xs =>
    match step s i (Symbol.brace x) with
    | .go s => run s (i + 1) xs
    | .found start => .ok (some (start, i))
    | .mismatch => .error .tooManyClosing

/-- The positions of the first and the last symbol of the first object. -/
def object {α : Type} [Symbol α] (xs : List α) : Except Mismatch (Option (Nat × Nat)) :=
  run {} 0 xs

end Scan

/-- The first object in a text, from its first opening brace on. -/
def firstObject? (cs : List Char) : Option (List Char) :=
  let from_ := cs.dropWhile (· ≠ '\x7b')
  match Scan.object from_ with
  | .ok (some (start, stop)) => some ((from_.take (stop + 1)).drop start)
  | _ => none

/-- A stream of bytes that is being split into JSON objects. -/
structure Splitter where
  /-- The bytes after the last object that was handed out. -/
  buffer : List UInt8 := []
  /-- The most bytes that the buffer may hold. -/
  limit : Nat := 1048576

namespace Splitter

/-- Why bytes are refused, or no object can be handed out. -/
inductive Fault where
  | overflow (size limit : Nat)
  | tooManyClosing
  deriving DecidableEq

/-- The text of a fault. -/
def Fault.message : Fault → String
  | overflow size limit => s!"Buffer overflow: {size} bytes exceeds maximum {limit}"
  | tooManyClosing => "Mismatched braces: too many closing braces"

/-- Takes in more bytes, unless they exceed the limit together with those it holds. -/
def feed (s : Splitter) (bytes : List UInt8) : Except Fault Splitter :=
  let size := s.buffer.length + bytes.length
  if s.limit < size then .error (.overflow size s.limit)
  else .ok { s with buffer := s.buffer ++ bytes }

/-- Hands out the first complete object and forgets everything up to its end. -/
def next (s : Splitter) : Except Fault (Option (List UInt8) × Splitter) :=
  match Scan.object s.buffer with
  | .ok (some (start, stop)) =>
    .ok (some ((s.buffer.take (stop + 1)).drop start),
      { s with buffer := s.buffer.drop (stop + 1) })
  | .ok none => .ok (none, s)
  | .error .tooManyClosing => .error .tooManyClosing

/-- Forgets every byte. -/
def clear (s : Splitter) : Splitter := { s with buffer := [] }

/-- What a splitter can be asked to do. -/
inductive Request where
  | feed (bytes : List UInt8)
  | next
  /-- Takes in bytes and hands out the first complete object. -/
  | add (bytes : List UInt8)
  | clear

/-- An answer and the splitter after it, which is `s` if there is none. -/
def after {α : Type} (s : Splitter) : Except Fault (α × Splitter) → Except Fault α × Splitter
  | .ok (a, s) => (.ok a, s)
  | .error e => (.error e, s)

/-- Answers a request. Bytes that have been taken in stay, also if no object can be handed out. -/
def answer (s : Splitter) : Request → Except Fault (Option (List UInt8)) × Splitter
  | .feed bytes => s.after ((s.feed bytes).map (none, ·))
  | .next => s.after s.next
  | .add bytes =>
    match s.feed bytes with
    | .ok fed => fed.after fed.next
    | .error e => (.error e, s)
  | .clear => (.ok none, s.clear)

/-- The number of bytes that are held. -/
def size (s : Splitter) : Nat := s.buffer.length

/-- ASCII white space. -/
def isSpaceByte (b : UInt8) : Bool :=
  b = 0x20 || b = 0x09 || b = 0x0a || b = 0x0c || b = 0x0d

/-- Whether only white space is held. -/
def isEmpty (s : Splitter) : Bool := s.buffer.all isSpaceByte

end Splitter

end Archivist
