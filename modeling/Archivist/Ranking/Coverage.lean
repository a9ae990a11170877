import Archivist.Number.Scalar
import Archivist.Text.Blank
import Archivist.Text.Case
import Archivist.Text.Search

/-!
# Keyword Coverage

How much of the search terms a text covers. Terms of one character and stop words do not count,
longer terms weigh more up to a limit. A term that occurs in the text earns its whole weight, one
of which only two neighbouring characters occur together earns part of it. The coverage is the
earned part of the total weight.
-/

namespace Archivist.Coverage

variable {α : Type} [Scalar α]

/-- Words that say nothing about what is searched for. -/
def stopWords : List String := [
  "一下", "相關", "有關", "關於", "資料", "哪些", "什麼", "請問", "幫我", "我們", "你們", "這個",
  "那個", "以及", "還有", "可以", "是否", "the", "and", "for", "with", "about", "what", "which",
  "from", "that", "this", "are", "is", "of", "to", "in", "on"]

/-- The length beyond which a term weighs no more. -/
def lengthCap : Nat := 6

/-- The form in which a term is looked for. -/
def foldTerm (term : String) : List Char := Text.lower (Text.trim term.toList)

/-- Whether a term, already folded, counts. -/
def isEffective (term : List Char) : Bool :=
  decide (2 ≤ term.length) && !stopWords.any (·.toList = term)

/-- The neighbouring pairs of characters. -/
def bigrams (cs : List Char) : List (Char × Char) := cs.zip cs.tail

/-- Whether two texts have a pair of neighbouring characters in common. -/
def sharesBigram (term text : List Char) : Bool :=
  let pairs := bigrams text
  (bigrams term).any (· ∈ pairs)

/-- The weight of a term by its length. -/
def weight (length : Nat) : α := 1.0 + 0.25 * (Scalar.ofNat (min length lengthCap) - 2.0)

/-- What a term earns. -/
def earned (term text : List Char) : α :=
  let w := weight term.length
  if Text.occurs term text then w
  else if sharesBigram term text then w * 0.7
  else Scalar.ofNat 0

/-- The total weight of the terms that count and what they earn, added up in order. -/
def totals (terms : List (List Char)) (text : List Char) : α × α :=
  terms.foldl (fun (total, sum) term =>
    if isEffective term then
      let sum := if Text.occurs term text || sharesBigram term text then sum + earned term text
        else sum
      (total + weight term.length, sum)
    else (total, sum)) (Scalar.ofNat 0, Scalar.ofNat 0)

/-- The part of the search terms that a text covers. -/
def score (terms : List String) (text : String) : α :=
  let terms := terms.map foldTerm
  if terms.any isEffective then
    let (total, sum) := totals terms (Text.lower text.toList)
    Scalar.clampUnit (sum / total)
  else Scalar.ofNat 0

end Archivist.Coverage
