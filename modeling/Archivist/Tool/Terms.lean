import Archivist.Text.Blank
import Archivist.Text.Search

/-!
# Search Terms of a Query

A query is split into search terms at blanks, line ends and the punctuation of Chinese and
English. Terms are trimmed, and none comes twice.
-/

namespace Archivist

/-- The characters between search terms. -/
def termSeparators : List Char :=
  [' ', '\t', '\n', ',', '，', '、', ';', '；', '。', '?', '？', '!', '！']

/-- Adds a piece of a query to its terms, unless it is blank or there already. -/
def addPiece (terms : List String) (piece : List Char) : List String :=
  let term := String.ofList (Text.trim piece)
  if term = "" || term ∈ terms then terms else terms ++ [term]

/-- The search terms of a query. -/
def termsOf (query : String) : List String :=
  (Text.splitAt (· ∈ termSeparators) query.toList).foldl addPiece []

end Archivist
