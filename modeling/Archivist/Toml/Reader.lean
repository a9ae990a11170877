import Archivist.Toml.Token

/-!
# Reading TOML

A TOML document as a JSON object. Keys may be dotted, and tables may be opened by headers, written
inline or arise from dotted keys. A table that has a header of its own is not opened twice, one
that arose from dotted keys is not opened by a header, and nothing is defined twice.
-/

namespace Archivist.Toml

/-- How a table came about. -/
inductive Origin where
  /-- From a header of its own, or as the document itself. -/
  | header
  /-- As the parent of a table with a header. -/
  | implied
  /-- From a dotted key. -/
  | dotted
  deriving DecidableEq

/-- A part of a document that is being read. -/
inductive Node where
  | leaf (v : Json)
  | table (origin : Origin) (entries : List (String × Node))
  /-- A list of tables, the last one first. -/
  | tables (items : List Node)

namespace Node

mutual
/-- A part of a document that has been read. -/
def toJson : Node → Json
  | leaf v => v
  | table _ entries => .obj (entriesToJson entries)
  | tables items => .arr (itemsToJson items).reverse

/-- The entries of a table. -/
def entriesToJson : List (String × Node) → List (String × Json)
  | [] => []
  | (k, n) :: rest => (k, n.toJson) :: entriesToJson rest

/-- The tables of a list. -/
def itemsToJson : List Node → List Json
  | [] => []
  | n :: rest => n.toJson :: itemsToJson rest
end

/-- The entry of a key. -/
def find? (key : String) (entries : List (String × Node)) : Option Node :=
  (entries.find? (·.1 = key)).map (·.2)

/-- Sets the entry of a key. -/
def put (key : String) (n : Node) (entries : List (String × Node)) : List (String × Node) :=
  entries.filter (·.1 ≠ key) ++ [(key, n)]

/-- A table without entries. -/
def empty (origin : Origin) : Node := table origin []

/-- Changes the table at a path, which arises on the way as needed; a list of tables stands for
its last one. Dotted keys do not lead into tables that have a header. -/
def modifyAt (isDotted : Bool) (change : Node → Option Node) : List String → Node → Option Node
  | [], n => change n
  | key :: path, table origin entries =>
    match find? key entries with
    | none =>
      (modifyAt isDotted change path (empty (if isDotted then .dotted else .implied))).map fun n =>
        table origin (put key n entries)
    | some (table inner members) =>
      if isDotted && inner = .header then none
      else (modifyAt isDotted change path (table inner members)).map fun n =>
        table origin (put key n entries)
    | some (tables (last :: earlier)) =>
      (modifyAt isDotted change path last).map fun n =>
        table origin (put key (tables (n :: earlier)) entries)
    | some _ => none
  | _ :: _, _ => none

/-- Defines a key in a table, which must have arisen from dotted keys just if the key is
dotted. -/
def define (isDotted : Bool) (key : String) (v : Node) : Node → Option Node
  | table origin entries =>
    if (origin = .dotted) ≠ isDotted || (find? key entries).isSome then none
    else some (table origin (put key v entries))
  | _ => none

/-- Defines a key that may be dotted. -/
def assign (n : Node) (path : List String) (v : Node) : Option Node :=
  match path.reverse with
  | [] => none
  | key :: front => modifyAt true (define (!front.isEmpty) key v) front.reverse n

/-- Opens a table by its header. -/
def openTable (key : String) : Node → Option Node
  | table origin entries =>
    match find? key entries with
    | none => some (table origin (put key (empty .header) entries))
    | some (table .implied members) =>
      some (table origin (put key (table .header members) entries))
    | some _ => none
  | _ => none

/-- Opens the next table of a list by its header. -/
def openNext (key : String) : Node → Option Node
  | table origin entries =>
    match find? key entries with
    | none => some (table origin (put key (tables [empty .header]) entries))
    | some (tables items) =>
      some (table origin (put key (tables (empty .header :: items)) entries))
    | some _ => none
  | _ => none

/-- Opens the table that a header names. -/
def openPath (isList : Bool) (path : List String) (n : Node) : Option Node :=
  match path.reverse with
  | [] => none
  | key :: front =>
    modifyAt false (if isList then openNext key else openTable key) front.reverse n

end Node

/-- A character of a bare key. -/
def isKeyChar (c : Char) : Bool := c.isAlphanum || c = '_' || c = '-'

/-- One part of a key. -/
def readPart : List Char → Option (String × List Char)
  | '"' :: rest =>
    (readLine '"' true (rest.length + 1) [] rest).map fun (done, rest) =>
      (String.ofList done.reverse, rest)
  | '\'' :: rest =>
    (readLine '\'' false (rest.length + 1) [] rest).map fun (done, rest) =>
      (String.ofList done.reverse, rest)
  | cs =>
    let key := cs.takeWhile isKeyChar
    if key = [] then none else some (String.ofList key, cs.drop key.length)

/-- The levels that arrays and inline tables may nest, and the parts that a key may have. -/
def nesting : Nat := 79

/-- The parts of a key up to the last one. -/
def readParts : Nat → List Char → Option (List String × List Char)
  | 0, _ => none
  | most + 1, cs => do
    let (part, rest) ← readPart (skipSpace cs)
    match skipSpace rest with
    | '.' :: rest =>
      let (parts, rest) ← readParts most rest
      some (part :: parts, rest)
    | rest => some ([part], rest)

/-- A key, which may be dotted. -/
def readKey (cs : List Char) : Option (List String × List Char) := readParts nesting cs

/-- The items of an array. -/
def readItems (read : List Char → Option (Json × List Char)) :
    Nat → List Json → List Char → Option (List Json × List Char)
  | 0, _, _ => none
  | size + 1, done, cs =>
    match skipLines false cs with
    | ']' :: rest => some (done.reverse, rest)
    | cs => do
      let (v, rest) ← read cs
      match skipLines false rest with
      | ',' :: rest => readItems read size (v :: done) rest
      | ']' :: rest => some ((v :: done).reverse, rest)
      | _ => none

/-- A key with its value. -/
def readPair (read : List Char → Option (Json × List Char)) (cs : List Char) :
    Option ((List String × Json) × List Char) := do
  let (path, rest) ← readKey cs
  match rest with
  | '=' :: rest =>
    let (v, rest) ← read (skipSpace rest)
    some ((path, v), rest)
  | _ => none

/-- The pairs of an inline table. -/
def readPairs (read : List Char → Option (Json × List Char)) :
    Nat → Node → List Char → Option (Node × List Char)
  | 0, _, _ => none
  | size + 1, n, cs => do
    let ((path, v), rest) ← readPair read cs
    let n ← n.assign path (.leaf v)
    match skipSpace rest with
    | ',' :: rest => readPairs read size n rest
    | '\x7d' :: rest => some (n, rest)
    | _ => none

/-- A value that nests at most `depth` levels. -/
def readValue (size : Nat) : Nat → List Char → Option (Json × List Char)
  | depth, cs =>
    match cs with
    | '"' :: rest => (readString '"' rest).map fun (s, rest) => (.str s, rest)
    | '\'' :: rest => (readString '\'' rest).map fun (s, rest) => (.str s, rest)
    | '[' :: rest =>
      match depth with
      | 0 => none
      | depth + 1 => (readItems (readValue size depth) size [] rest).map fun (items, rest) =>
        (.arr items, rest)
    | '\x7b' :: rest =>
      match depth with
      | 0 => none
      | depth + 1 =>
        match skipSpace rest with
        | '\x7d' :: rest => some (.obj [], rest)
        | rest => (readPairs (readValue size depth) size (.empty .header) rest).map
          fun (n, rest) => (n.toJson, rest)
    | cs => readWord cs

/-- The header at the front of the text: whether it is that of a list, and the path. -/
def readHeader (cs : List Char) : Option ((Bool × List String) × List Char) :=
  match cs with
  | '[' :: '[' :: rest => do
    let (path, rest) ← readKey rest
    match rest with
    | ']' :: ']' :: rest => some ((true, path), rest)
    | _ => none
  | '[' :: rest => do
    let (path, rest) ← readKey rest
    match rest with
    | ']' :: rest => some ((false, path), rest)
    | _ => none
  | _ => none

/-- Reads line after line; `path` is that of the table that is open. -/
def readTables : Nat → List String → Node → List Char → Option Node
  | 0, _, _, _ => none
  | size + 1, path, n, cs =>
    match skipSpace cs with
    | [] => some n
    | '[' :: rest => do
      let ((isList, path), rest) ← readHeader ('[' :: rest)
      let n ← n.openPath isList path
      readTables size path n (← lineEnd? rest)
    | cs =>
      match lineEnd? cs with
      | some rest => readTables size path n rest
      | none => do
        let ((key, v), rest) ← readPair (readValue cs.length nesting) cs
        let n ← Node.modifyAt false (·.assign key (.leaf v)) path n
        readTables size path n (← lineEnd? rest)

/-- The object that a document describes. -/
def read? (text : String) : Option Json :=
  let cs := match text.toList with
    | '\uFEFF' :: rest => rest
    | cs => cs
  (readTables (cs.length + 1) [] (.empty .header) cs).map (·.toJson)

end Archivist.Toml
