import Archivist.Text.CaseTable

/-!
# Lower Case

The full Unicode lower-case mapping of a text. Two rules go beyond a map on characters: the
dotted capital `İ` becomes two characters, and the capital `Σ` becomes the final form `ς` at the
end of a word, that is, after a cased letter and before none, where the characters of
`ignorableRanges` do not count.
-/

namespace Archivist.Text

/-- A letter with case that is not passed over. -/
def isCased (c : Char) : Bool := inRanges c.toNat casedRanges

/-- A character that is passed over when a cased neighbour is looked for. -/
def isIgnorable (c : Char) : Bool := inRanges c.toNat ignorableRanges

/-- Whether the next character that counts is a cased letter. -/
def casedNext (cs : List Char) : Bool :=
  match cs.dropWhile isIgnorable with
  | [] => false
  | c :: _ => isCased c

/-- The first run that holds `n` decides; the runs are in increasing order. -/
def lowerCode (n : Nat) : List CaseRun → Nat
  | [] => n
  | r :: rest => if n < r.first then n else (r.lower? n).getD (lowerCode n rest)

/-- The lower-case form of a character on its own. -/
def lowerChar (c : Char) : List Char :=
  if c.toNat < 0x80 then
    [if 'A' ≤ c ∧ c ≤ 'Z' then Char.ofNat (c.toNat + 32) else c]
  else if c = 'İ' then ['i', '\u0307']
  else [Char.ofNat (lowerCode c.toNat lowerRuns)]

/-- Lower case of `rest`, where `before` is the text in front of it, last character first. -/
def lowerAfter (before : List Char) : List Char → List Char
  | [] => []
  | c :: rest =>
    (if c = 'Σ' then
      [if casedNext before && !casedNext rest then 'ς' else 'σ']
    else lowerChar c) ++ lowerAfter (c :: before) rest

/-- The lower-case form of a text. -/
def lower (cs : List Char) : List Char := lowerAfter [] cs

/-- `lower` on strings. -/
def lowered (s : String) : String := String.ofList (lower s.toList)

end Archivist.Text
