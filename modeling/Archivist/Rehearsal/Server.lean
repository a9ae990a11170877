import Archivist.Json.Field
import Archivist.Json.Reader
import Archivist.Provider.Exchange

/-!
# A Rehearsed Server

A server that answers the queries it gets with prepared responses, one after the other, and notes
the queries. When no response is left, nobody can reach it.

Bytes are written down as a text, as hexadecimal digits under `hex`, or as a text that is repeated,
under `repeat` and `times`.
-/

namespace Archivist

/-- The bytes that pairs of hexadecimal digits stand for. -/
def Text.ofHex : List Char → List UInt8
  | a :: b :: rest =>
    UInt8.ofNat ((Json.hexValue? a).getD 0 * 16 + (Json.hexValue? b).getD 0) :: ofHex rest
  | _ => []

/-- Reads bytes. -/
def Json.toBytes : Json → List UInt8
  | .str s => Text.encodeText s
  | v =>
    match v.text? "hex" with
    | some digits => Text.ofHex digits.toList
    | none => (List.replicate (v.countOr "times" 0) (Text.encodeText (v.text "repeat"))).flatten

namespace Provider

/-- Reads a response. -/
def Response.ofJson (v : Json) : Response :=
  if v.flag "drop" then .unreachable
  else if (v.count? "stall_ms").isSome then .late
  else
    let pieces := match v.field "chunks" with
      | .null => [(v.field "body").toBytes]
      | chunks => chunks.toItems.map Json.toBytes
    .answer (v.countOr "status" 200) pieces (v.countOr "missing_bytes" 0 ≠ 0)

/-- A server in a rehearsal. -/
structure Rehearsed where
  /-- The responses that are left. -/
  responses : List Response
  /-- The queries that it got. -/
  queries : List Query := []

/-- Answers a query with the next response. -/
def Rehearsed.serve : Server Rehearsed := fun q s =>
  match s.responses with
  | [] => (.unreachable, s)
  | r :: rest => (r, { responses := rest, queries := s.queries ++ [q] })

end Provider

end Archivist
