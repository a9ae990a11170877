import Archivist.Json.Printer

/-!
# Printing TOML

A document of one level: tables with a header and a line for each value. A string stands in double
quotes if nothing in it has to be escaped; otherwise it is quoted in the first of three other ways
in which nothing has to be, and if there is none, with escapes.
-/

namespace Archivist.Toml

/-- A value of a setting. -/
inductive Value where
  | str (s : String)
  | int (n : Int)
  | float (x : Float)
  | bool (b : Bool)

/-- The longest run of a character; `run` is the length of the one that goes on. -/
def longestRun (mark : Char) (run best : Nat) : List Char → Nat
  | [] => max run best
  | c :: cs =>
    if c = mark then longestRun mark (run + 1) best cs else longestRun mark 0 (max run best) cs

/-- A control character that a string without escapes cannot hold. -/
def needsEscape (c : Char) : Bool :=
  c ≠ '\t' && c ≠ '\n' && (decide (c.toNat < 0x20) || c.toNat = 0x7F)

/-- The four ways to quote a string. -/
inductive Quoting where
  /-- Double quotes, with escapes. -/
  | basic
  /-- Single quotes, without escapes. -/
  | literal
  /-- Three double quotes, with escapes. -/
  | longBasic
  /-- Three single quotes, without escapes. -/
  | longLiteral

namespace Quoting

/-- How a string is quoted: the first way, in the order of the constructors, in which nothing has to
be escaped but a tab, and double quotes with escapes if there is none. -/
def ofChars (cs : List Char) : Quoting :=
  let isLong := cs.contains '\n'
  let hasControl := cs.any needsEscape
  let hasBackslash := cs.contains '\\'
  let doubles := longestRun '"' 0 0 cs
  let singles := longestRun '\'' 0 0 cs
  if !hasControl && !hasBackslash && doubles = 0 && !isLong then basic
  else if !hasControl && singles = 0 && !isLong then literal
  else if !hasControl && !hasBackslash && decide (doubles ≤ 2) then longBasic
  else if !hasControl && decide (singles ≤ 2) then longLiteral
  else if isLong then longBasic
  else basic

/-- The quotes at either end. -/
def delimiter : Quoting → String
  | basic => "\""
  | literal => "'"
  | longBasic => "\"\"\""
  | longLiteral => "'''"

/-- Whether a string may go over several lines. -/
def isLong : Quoting → Bool
  | basic | literal => false
  | longBasic | longLiteral => true

/-- Whether a string has escapes. -/
def escapes : Quoting → Bool
  | basic | longBasic => true
  | literal | longLiteral => false

/-- The double quotes that may follow one another without an escape. -/
def freeQuotes : Quoting → Nat
  | basic => 0
  | _ => 2

end Quoting

/-- A character of a string with escapes that is no double quote. -/
def escapeChar (isLong : Bool) (c : Char) : List Char :=
  match c with
  | '\x08' => ['\\', 'b']
  | '\t' => ['\\', 't']
  | '\n' => if isLong then ['\n'] else ['\\', 'n']
  | '\x0c' => ['\\', 'f']
  | '\r' => ['\\', 'r']
  | '\\' => ['\\', '\\']
  | c =>
    if needsEscape c then
      ['\\', 'u', '0', '0', (Json.hexDigit (c.toNat / 16)).toUpper, (Json.hexDigit c.toNat).toUpper]
    else [c]

/-- The characters of a string with escapes; `run` is the number of double quotes that have just
been written without one. -/
def escapeChars (q : Quoting) (run : Nat) : List Char → List Char
  | [] => []
  | c :: cs =>
    if c ≠ '"' then escapeChar q.isLong c ++ escapeChars q 0 cs
    else if run < q.freeQuotes then '"' :: escapeChars q (run + 1) cs
    else '\\' :: '"' :: escapeChars q 0 cs

/-- A string. One that goes over several lines begins on a line of its own. -/
def renderString (s : String) : String :=
  let cs := s.toList
  let q := Quoting.ofChars cs
  let first := if q.isLong && cs.contains '\n' then "\n" else ""
  let body := if q.escapes then String.ofList (escapeChars q 0 cs) else s
  q.delimiter ++ first ++ body ++ q.delimiter

/-- A floating-point number, which always shows what it is. -/
def renderFloat (x : Float) : String :=
  if x.isNaN then "nan"
  else if x.isInf then (if x < 0 then "-inf" else "inf")
  else Decimal.withPoint (Decimal.shortest (.ofFloat x))

/-- A value. -/
def Value.render : Value → String
  | str s => renderString s
  | int n => toString n
  | float x => renderFloat x
  | bool b => if b then "true" else "false"

/-- A table with its header. -/
def renderTable (name : String) (values : List (String × Value)) : String :=
  "[" ++ name ++ "]\n" ++ String.join (values.map fun (k, v) => k ++ " = " ++ v.render ++ "\n")

/-- Tables with an empty line between them. -/
def render (tables : List (String × List (String × Value))) : String :=
  "\n".intercalate (tables.map fun (name, values) => renderTable name values)

end Archivist.Toml
