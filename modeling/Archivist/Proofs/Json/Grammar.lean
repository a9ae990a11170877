import Archivist.Json.Reader
import Mathlib.Data.List.Infix

/-!
# The Grammar of JSON

The texts of JSON values, by the grammar and without a reader. A number has no leading zero, a
string has no raw control character, and white space stands between tokens only. What a text means
plays no part: a number may be out of any range, an escape may be half of a surrogate pair, and a
key may occur twice.

Arrays and objects are the same thing with other brackets and other parts (`IsEnclosed`).
`IsValue n` is the texts of values that nest at most `n` levels of them, `IsObject n` the objects
whose values do.
-/

namespace Archivist.Json.Grammar

/-- White space between tokens. -/
def IsSpace (cs : List Char) : Prop := ∀ c ∈ cs, isSpace c = true

/-- At least one digit. -/
def IsDigits (cs : List Char) : Prop := cs ≠ [] ∧ ∀ c ∈ cs, Text.isAsciiDigit c = true

/-- The whole part of a number. -/
def IsWhole (cs : List Char) : Prop := IsDigits cs ∧ (cs.head? = some '0' → cs = ['0'])

/-- The fraction of a number, if it has one. -/
def IsFraction (cs : List Char) : Prop := cs = [] ∨ ∃ digits, cs = '.' :: digits ∧ IsDigits digits

/-- The exponent of a number, if it has one. -/
def IsExponent (cs : List Char) : Prop :=
  cs = [] ∨ ∃ e sign digits, cs = e :: (sign ++ digits) ∧ e ∈ ['e', 'E'] ∧
    sign ∈ [[], ['-'], ['+']] ∧ IsDigits digits

/-- A number. -/
def IsNumber (cs : List Char) : Prop :=
  ∃ sign whole fraction exponent, cs = sign ++ whole ++ fraction ++ exponent ∧
    sign ∈ [[], ['-']] ∧ IsWhole whole ∧ IsFraction fraction ∧ IsExponent exponent

/-- The characters of a string between its quotes. -/
inductive IsChars : List Char → Prop
  | nil : IsChars []
  | plain {c : Char} {cs : List Char} : 0x20 ≤ c.toNat → c ≠ '"' → c ≠ '\\' → IsChars cs →
      IsChars (c :: cs)
  | escape {c : Char} {cs : List Char} : (simpleEscape? c).isSome → IsChars cs →
      IsChars ('\\' :: c :: cs)
  | unicode {digits cs : List Char} : digits.length = 4 → (∀ c ∈ digits, (hexValue? c).isSome) →
      IsChars cs → IsChars ('\\' :: 'u' :: (digits ++ cs))

/-- A string. -/
def IsString (cs : List Char) : Prop := ∃ body, cs = '"' :: (body ++ ['"']) ∧ IsChars body

/-- A value that is no array and no object. -/
def IsScalar (cs : List Char) : Prop :=
  cs ∈ ["null".toList, "true".toList, "false".toList] ∨ IsNumber cs ∨ IsString cs

/-- Parts with commas between them. -/
inductive IsListed (IsPart : List Char → Prop) : List Char → Prop
  | one {part : List Char} : IsPart part → IsListed IsPart part
  | more {parts before after part : List Char} : IsListed IsPart parts → IsSpace before →
      IsSpace after → IsPart part → IsListed IsPart (parts ++ (before ++ ',' :: (after ++ part)))

/-- Brackets with nothing between them or parts with commas. -/
inductive IsEnclosed (first last : Char) (IsPart : List Char → Prop) : List Char → Prop
  | empty {space : List Char} : IsSpace space →
      IsEnclosed first last IsPart (first :: (space ++ [last]))
  | parts {before parts after : List Char} : IsSpace before → IsListed IsPart parts →
      IsSpace after → IsEnclosed first last IsPart (first :: (before ++ parts ++ after ++ [last]))

/-- A key, a colon and a value. -/
def IsMember (IsPart : List Char → Prop) (cs : List Char) : Prop :=
  ∃ key before after part, cs = key ++ (before ++ ':' :: (after ++ part)) ∧ IsString key ∧
    IsSpace before ∧ IsSpace after ∧ IsPart part

/-- A value with at most so many levels of arrays and objects. -/
def IsValue : ℕ → List Char → Prop
  | 0, cs => IsScalar cs
  | n + 1, cs => IsScalar cs ∨ IsEnclosed '[' ']' (IsValue n) cs ∨
      IsEnclosed '\x7b' '\x7d' (IsMember (IsValue n)) cs

/-- An object whose values have at most `n` levels. -/
def IsObject (n : ℕ) : List Char → Prop := IsEnclosed '\x7b' '\x7d' (IsMember (IsValue n))

/-- An object. -/
def IsObjectText (s : String) : Prop := ∃ n, IsObject n s.toList

/-- A value without parts is a value at any depth. -/
theorem IsScalar.isValue {cs : List Char} (h : IsScalar cs) : ∀ n, IsValue n cs
  | 0 => h
  | _ + 1 => .inl h

/-- An object begins with a brace and ends with one. -/
theorem IsEnclosed.eq_cons {first last : Char} {IsPart : List Char → Prop} {cs : List Char}
    (h : IsEnclosed first last IsPart cs) : ∃ body, cs = first :: (body ++ [last]) := by
  cases h with
  | empty hs => exact ⟨_, rfl⟩
  | parts hb hp ha => exact ⟨_, rfl⟩

end Archivist.Json.Grammar
