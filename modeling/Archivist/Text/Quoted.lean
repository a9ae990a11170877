import Archivist.Text.CaseTable
import Archivist.Text.HiddenTable

/-!
# Quoted Text

How a message shows a text that it talks about: in double quotes, with a backslash before a quote
or a backslash, the usual letters for tab, line feed, carriage return and the null character, and
the number in braces for any other character that would not be seen.
-/

namespace Archivist.Text

/-- The hexadecimal number of a character. -/
def escapeNumber (c : Char) : List Char :=
  ['\\', 'u', '\x7b'] ++ Nat.toDigits 16 c.toNat ++ ['\x7d']

/-- A character inside a quoted text. -/
def quotedChar (c : Char) : List Char :=
  match c with
  | '\x00' => ['\\', '0']
  | '\t' => ['\\', 't']
  | '\n' => ['\\', 'n']
  | '\r' => ['\\', 'r']
  | '"' => ['\\', '"']
  | '\\' => ['\\', '\\']
  | c => if inRanges c.toNat hiddenRanges then escapeNumber c else [c]

/-- The text in double quotes. -/
def quoted (s : String) : String := "\"" ++ String.ofList (s.toList.flatMap quotedChar) ++ "\""

end Archivist.Text
