import Archivist.Calendar.Date
import Archivist.Plan.Hints
import Archivist.Text.Blank
import Archivist.Text.Digit
import Archivist.Text.Search

/-!
# Periods in a Question

Dates and periods that a question mentions. A date is written with three numbers and hyphens or
slashes between them; if there is any, the dates decide and the range goes from the earliest to
the latest of them. Otherwise the range spans all years and months that are mentioned.

A year is a number of two to four digits before `年`; a month may follow. A year with the mark
`民國` or of fewer than four digits counts from 1912 as year 1. A year of two digits needs the mark
or a month. A number of years that is counted from now, such as `近10年` or `10年以來`, is no year.
-/

namespace Archivist

/-- A year that is mentioned, perhaps with a month. -/
structure PeriodMention where
  /-- Whether the year has the mark `民國`. -/
  marked : Bool
  year : List Char
  month : Option (List Char)
  /-- The text in front of the year, last character first. -/
  before : List Char
  /-- The text behind the mention. -/
  after : List Char

namespace Period

/-- A run of digits with between `least` and `most` characters, and the text behind it. -/
def readDigits (least most : Nat) (cs : List Char) : Option (List Char × List Char) :=
  let digits := cs.takeWhile Text.isDigit
  if least ≤ digits.length ∧ digits.length ≤ most then some (digits, cs.dropWhile Text.isDigit)
  else none

/-- The text behind one of the separators of a date. -/
def skipSeparator : List Char → Option (List Char)
  | '-' :: rest | '/' :: rest => some rest
  | _ => none

/-- A date at the front of the text, if it exists, and the number of characters it takes: four
digits, and twice a separator and one or two digits. -/
def readLiteral (cs : List Char) : Option (Option Date × Nat) := do
  let year := cs.take 4
  if year.length ≠ 4 || !year.all Text.isDigit then none
  let rest ← skipSeparator (cs.drop 4)
  let (month, rest) ← readDigits 1 2 rest
  let rest ← skipSeparator rest
  let day := (rest.take 2).takeWhile Text.isDigit
  if day = [] then none
  let date := do
    let year ← Text.readNat year
    let month ← Text.readNat month
    let day ← Text.readNat day
    Date.ofParts? year month day
  some (date, 4 + 1 + month.length + 1 + day.length)

/-- The dates that are written out in a text. -/
def literals (cs : List Char) : List Date :=
  (Text.scan (fun _ cs => readLiteral cs) cs).filterMap id

/-- A month at the front of the text: one or two digits and `月`. -/
def readMonth (cs : List Char) : Option (List Char × List Char) := do
  let (digits, rest) ← readDigits 1 2 (Text.trimStart cs)
  match Text.trimStart rest with
  | '月' :: rest => some (digits, rest)
  | _ => none

/-- A mention at the front of the text. -/
def readMention (before cs : List Char) : Option PeriodMention := do
  let (marked, before, cs) := match cs with
    | '民' :: '國' :: rest => (true, '國' :: '民' :: before, rest)
    | cs => (false, before, cs)
  let before := (cs.takeWhile Text.isBlank).reverse ++ before
  let (year, rest) ← readDigits 2 4 (Text.trimStart cs)
  match Text.trimStart rest with
  | '年' :: rest =>
    match readMonth rest with
    | some (month, after) => some { marked, year, month := some month, before, after }
    | none => some { marked, year, month := none, before, after := rest }
  | _ => none

/-- A mention that begins the text, or one behind a character that is no digit. -/
def findMention (before cs : List Char) : Option (PeriodMention × Nat) :=
  let atStart := if before = [] then readMention [] cs else none
  let found := atStart.or (match cs with
    | c :: rest => if Text.isDigit c then none else readMention (c :: before) rest
    | [] => none)
  found.map fun m => (m, cs.length - m.after.length)

/-- Words before a number of years that is counted from now. -/
def relativeBefore : List String := ["近", "過去", "最近", "未來", "前", "後", "這"]

/-- Words after a number of years that is counted from now. -/
def relativeAfter : List String := ["來", "內", "以來", "多", "前", "後"]

/-- Whether the years are counted from now. -/
def isRelative (m : PeriodMention) : Bool :=
  relativeBefore.any (fun w => w.toList.reverse.isPrefixOf (Text.trimStart m.before)) ||
    relativeAfter.any (fun w => w.toList.isPrefixOf (Text.trimStart m.after))

/-- The difference between a year of the Republic and a year of the calendar. -/
def republicOffset : Nat := 1911

/-- The year of the calendar that is meant. -/
def gregorianYear (m : PeriodMention) : Option Nat := do
  let year ← Text.readNat m.year
  let year := if m.marked || m.year.length < 4 then year + republicOffset else year
  if 1912 ≤ year ∧ year ≤ 2200 then some year else none

/-- The first and the last day that a mention stands for. -/
def bounds (m : PeriodMention) : Option (Date × Date) := do
  let month := m.month.bind Text.readNat
  if !m.marked && ((m.year.length = 2 && month.isNone) || isRelative m) then none
  let year ← gregorianYear m
  match month with
  | some month => Date.boundsOfMonth? year month
  | none => Date.boundsOfYear? year

/-- The periods that a text mentions. -/
def mentioned (cs : List Char) : List (Date × Date) := (Text.scan findMention cs).filterMap bounds

/-- The range of dates that a question mentions. -/
def detect (question : String) : DateRange :=
  let dates := literals question.toList
  if dates.isEmpty then
    let periods := mentioned question.toList
    { first := Date.earliest (periods.map (·.1)), last := Date.latest (periods.map (·.2)) }
  else { first := Date.earliest dates, last := Date.latest dates }

end Period

/-- The hints that a question gives by itself. -/
def Hints.detect (question : String) : Hints := { dates := Period.detect question }

end Archivist
