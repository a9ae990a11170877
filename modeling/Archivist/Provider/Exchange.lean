import Archivist.Failure
import Archivist.Json.Basic
import Archivist.Text.Utf16

/-!
# Exchanges with a Provider

A provider is spoken to over HTTP. A `Query` is what is sent, a `Response` what comes back: the
body arrives in pieces, and the connection may end before the body does. The server at the other
end is a function that may answer each query differently.
-/

namespace Archivist.Provider

/-- What is sent to a provider. -/
structure Query where
  /-- Whether a body is posted; otherwise the query only asks. -/
  posts : Bool
  url : String
  body : Json

/-- What comes back from a provider. -/
inductive Response where
  /-- There is no connection, or it ends before there is an answer. -/
  | unreachable
  /-- There is no answer in time. -/
  | late
  /-- A status and a body in pieces; `isCut` if the body ends too early. -/
  | answer (status : Nat) (pieces : List (List UInt8)) (isCut : Bool)

/-- A provider that may answer each query differently. -/
abbrev Server (σ : Type) : Type := Query → σ → Response × σ

/-- Whether a status says that a query has succeeded. -/
def isSuccess (status : Nat) : Bool := 200 ≤ status && status < 300

/-- Whether a status only announces an answer. An announcement ends the exchange, for no answer
comes after it. -/
def isAnnouncement (status : Nat) : Bool := status < 200 && status ≠ 101

/-- Whether a status rules out a body; the bytes after it are not looked at. -/
def hasNoBody (status : Nat) : Bool := status ∈ [101, 204, 304]

/-- The text of a body, with a replacement for bytes that are no text. A mark at the beginning says
how it is encoded. -/
def textOf : List UInt8 → String
  | 0xEF :: 0xBB :: 0xBF :: bytes => Text.decodeBytes bytes
  | 0xFF :: 0xFE :: bytes => Text.decodePairs .leastFirst bytes
  | 0xFE :: 0xFF :: bytes => Text.decodePairs .greatestFirst bytes
  | bytes => Text.decodeBytes bytes

/-- The failure of a query that nobody answers. -/
def unanswered : Failure := .transport true "error sending request"

/-- The body of an answer that tells success, in pieces, or the failure that the response amounts
to. -/
def Response.body (timeoutMs : Nat) : Response → Except Failure (List (List UInt8) × Bool)
  | .unreachable => .error unanswered
  | .late => .error (.timeout timeoutMs)
  | .answer status pieces isCut =>
    let (pieces, isCut) := if hasNoBody status then ([], false) else (pieces, isCut)
    if isAnnouncement status then .error unanswered
    else if isSuccess status then .ok (pieces, isCut)
    else .error (.status status (if isCut then "Unknown error" else textOf pieces.flatten))

end Archivist.Provider
