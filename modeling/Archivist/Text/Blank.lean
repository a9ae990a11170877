/-!
# White Space

White space is the Unicode property `White_Space`: the ideographic space and the no-break space
belong to it, the zero-width space and the byte-order mark do not. Trimming removes it from
either end of a text, and a text is blank when nothing is left.
-/

namespace Archivist.Text

/-- A character with the property `White_Space`. -/
def isBlank (c : Char) : Bool :=
  let n := c.toNat
  decide ((9 ≤ n ∧ n ≤ 13) ∨ n = 0x20 ∨ n = 0x85 ∨ n = 0xA0 ∨ n = 0x1680 ∨
    (0x2000 ≤ n ∧ n ≤ 0x200A) ∨ n = 0x2028 ∨ n = 0x2029 ∨ n = 0x202F ∨ n = 0x205F ∨ n = 0x3000)

/-- The text without its leading white space. -/
def trimStart (cs : List Char) : List Char := cs.dropWhile isBlank

/-- The text without trailing characters that satisfy `p`. -/
def dropEndWhile (p : Char → Bool) (cs : List Char) : List Char :=
  (cs.reverse.dropWhile p).reverse

/-- The text without its trailing white space. -/
def trimEnd (cs : List Char) : List Char := dropEndWhile isBlank cs

/-- The text without white space at either end. -/
def trim (cs : List Char) : List Char := trimEnd (trimStart cs)

/-- A text that holds white space only; the empty text is one. -/
def allBlank (cs : List Char) : Bool := cs.all isBlank

/-- `trim` on strings. -/
def trimmed (s : String) : String := String.ofList (trim s.toList)

/-- `allBlank` on strings. -/
def blank (s : String) : Bool := allBlank s.toList

/-- A string, unless it is blank. -/
def unlessBlank (s : String) : Option String := if blank s then none else some s

end Archivist.Text
