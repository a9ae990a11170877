import Archivist.Collaborator
import Archivist.Json.Printer
import Archivist.Json.Reader
import Archivist.Json.Splitter
import Archivist.Text.Utf8

/-!
# The Provider's Data

The JSON that is exchanged with a provider: the body of a request for a completion or an embedding,
the completion as a whole, the embedding, and the stream of objects in which a completion arrives
piece by piece. A stream ends with the object that says so, with the first fault, or with its last
byte.
-/

namespace Archivist.Provider

/-- A single-precision number with the fewest digits; null if it is not finite. -/
def float32Json (x : Float32) : Json :=
  (Json.read? (Decimal.floating Json.pointRange (.ofFloat32 x))).getD .null

/-- A message as it is sent. -/
def messageJson (m : ChatMessage) : Json :=
  .obj [("role", .str m.role.word), ("content", .str m.content)]

/-- The body of a request for a completion. -/
def chatBody (model : String) (r : ChatRequest) (streamed : Bool) : Json := .obj [
  ("model", .str model), ("messages", .arr (r.messages.map messageJson)),
  ("stream", .bool streamed),
  ("options", .obj [
    ("temperature", float32Json r.temperature), ("num_predict", .nat r.maxTokens)])]

/-- The body of a request for an embedding. -/
def embeddingBody (model text : String) : Json :=
  .obj [("model", .str model), ("prompt", .str text)]

/-- A completion, or a piece of one. -/
structure Piece where
  content : String
  /-- Whether the completion ends here. -/
  isLast : Bool

/-- The members of the message in a piece. -/
def contentShape : Shape where
  name := "a message"
  slots := [{ key := "content", check := Slot.checking Json.asString }]

/-- Reads the content of the message in a piece. -/
def readContent (v : Json) : Except Mismatch String := do
  let ms ← contentShape.gather v
  ms.read "content" "" Json.asString

/-- The members of a piece. -/
def pieceShape : Shape where
  name := "a piece"
  slots := [
    { key := "message", layout := contentShape.layout
      check := Slot.checking (Json.asOption readContent) },
    { key := "done", check := Slot.checking Json.asBool }]

/-- Reads a piece. -/
def Piece.ofJson (v : Json) : Except Mismatch Piece := do
  let ms ← pieceShape.gather v
  let message ← ms.read "message" none (Json.asOption readContent)
  let isLast ← ms.read "done" false Json.asBool
  .ok { content := message.getD "", isLast }

/-- Reads the text of a piece. -/
def Piece.read (text : String) : Except Failure Piece :=
  match Json.readBy? pieceShape.layout text with
  | none => .error (.malformed "not a JSON text")
  | some v => (Piece.ofJson v).mapError fun m => .malformed m.message

/-- The JSON value in a whole body. -/
def jsonOf? (shape : Shape) (pieces : List (List UInt8)) (isCut : Bool) : Option Json :=
  if isCut then none
  else do
    let text ← String.fromUTF8? (ByteArray.mk pieces.flatten.toArray)
    Json.readBy? shape.layout text

/-- Reads a completion as a whole. -/
def readCompletion (pieces : List (List UInt8)) (isCut : Bool) : Except Failure String :=
  match (jsonOf? pieceShape pieces isCut).map Piece.ofJson with
  | some (.ok piece) => .ok piece.content
  | some (.error m) => .error (.completion ("Failed to parse response: " ++ m.message))
  | none => .error (.completion "Failed to parse response: error decoding response body")

/-- The members of an answer with an embedding. -/
def embeddingShape : Shape where
  name := "an embedding"
  slots := [{ key := "embedding", check := Slot.checking (Json.asList Json.asFloat32) }]

/-- Reads an embedding; an empty one is none. -/
def readEmbedding (pieces : List (List UInt8)) (isCut : Bool) :
    Except Failure (Option Embedding) :=
  let vector (v : Json) : Except Mismatch Embedding := do
    let ms ← embeddingShape.gather v
    ms.read "embedding" [] (Json.asList Json.asFloat32)
  match (jsonOf? embeddingShape pieces isCut).map vector with
  | some (.ok v) => .ok (if v.isEmpty then none else some v)
  | some (.error m) => .error (.embedding ("Failed to parse embedding: " ++ m.message))
  | none => .error (.embedding "Failed to parse embedding: error decoding response body")

/-- The piece that a splitter hands out next, if there is a complete one. -/
def nextPiece (s : Splitter) : Except Failure (Option (Piece × Splitter)) :=
  match s.next with
  | .error e => .error (.unsplittable e.message)
  | .ok (none, _) => .ok none
  | .ok (some bytes, s) => (Piece.read (Text.decodeBytes bytes)).map fun p => some (p, s)

/-- The content of a piece, unless it is empty. -/
def Piece.chunks (p : Piece) : List Chunk := if p.content = "" then [] else [.text p.content]

/-- The pieces that are complete, at most `most` of them, and what remains to be split; nothing
remains if the stream has ended. -/
def drain : Nat → Splitter → List Chunk × Option Splitter
  | 0, s => ([], some s)
  | most + 1, s =>
    match nextPiece s with
    | .error e => ([.failure e], none)
    | .ok none => ([], some s)
    | .ok (some (p, s)) =>
      if p.isLast then (p.chunks, none)
      else
        let (chunks, s) := drain most s
        (p.chunks ++ chunks, s)

/-- Reads a stream; every object takes at least one byte of what is held. -/
def readStream (isCut : Bool) : Splitter → List (List UInt8) → List Chunk
  | s, [] =>
    match drain (s.size + 1) s with
    | (chunks, none) => chunks
    | (chunks, some _) =>
      chunks ++ if isCut then [.failure (.stream "error reading a body from connection")] else []
  | s, bytes :: rest =>
    match drain (s.size + 1) s with
    | (chunks, none) => chunks
    | (chunks, some s) =>
      match s.feed bytes with
      | .error e => chunks ++ [.failure (.unsplittable e.message)]
      | .ok s => chunks ++ readStream isCut s rest

end Archivist.Provider
