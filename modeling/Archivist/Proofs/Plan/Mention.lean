import Archivist.Plan.Period
import Archivist.Proofs.Calendar.Date
import Mathlib.Data.List.Infix

/-!
# Mentions That Are Read Back

A period is written as a year, perhaps with a month (`WrittenPeriod`), and it stands behind other
text that has no digits (`Plain`). The pattern for a mention allows for the mark of the Republic and
for white space in front of the year, so it also begins at white space ahead of a year without a
mark, but at no other text (`Period.Ready`). A mention without a month looks for one behind white
space, where a number that is no month may stand. Words for years that are counted from now are in
no other text, and no period ends with one (`Period.Quiet`).

## Main results

* `Period.readMention_chars`: a period is read back where it stands.
* `Period.readMention_front`: it is not read from further ahead.
* `Period.spans_mention`: a mention stands for the days of the period.
-/

namespace Archivist

/-! ### Written periods -/

/-- A period as it is written: a year of the Republic or of the calendar, perhaps with a month. A
year of two digits has the mark of the Republic or a month. -/
structure WrittenPeriod where
  /-- Whether the year has the mark of the Republic. -/
  marked : Bool
  year : ℕ
  month : Option ℕ
  month_mem : ∀ m ∈ month, 1 ≤ m ∧ m ≤ 12
  year_mem : if marked then 10 ≤ year ∧ year ≤ 289
    else 100 ≤ year ∧ year ≤ 289 ∨ 1912 ≤ year ∧ year ≤ 2200 ∨
      10 ≤ year ∧ year ≤ 99 ∧ month.isSome

namespace WrittenPeriod

/-- The mark in front of the year. -/
def mark (p : WrittenPeriod) : List Char := if p.marked then ['民', '國'] else []

/-- What is written behind the year. -/
def monthChars (p : WrittenPeriod) : List Char :=
  match p.month with
  | some m => Nat.toDigits 10 m ++ ['月']
  | none => []

/-- The written form. -/
def chars (p : WrittenPeriod) : List Char :=
  p.mark ++ (Nat.toDigits 10 p.year ++ '年' :: p.monthChars)

/-- The year of the calendar. -/
def calendarYear (p : WrittenPeriod) : ℕ :=
  if p.marked ∨ p.year < 1000 then p.year + 1911 else p.year

/-- The days of the period. -/
def days (p : WrittenPeriod) : Set Date :=
  {d | d.year = p.calendarYear ∧ ∀ m ∈ p.month, d.month = m}

end WrittenPeriod

/-- The characters of the words for years that are counted from now. -/
def relativeChars : List Char :=
  ['近', '過', '去', '最', '未', '來', '前', '後', '這', '內', '以', '多']

/-- Text around mentions: it has no digits, no mark of the Republic and nothing that could count
years from now. -/
structure Plain (cs : List Char) : Prop where
  isDigit : ∀ c ∈ cs, Text.isDigit c = false
  unmarked : ¬ ['民', '國'] <:+: cs
  notMem : ∀ c ∈ cs, c ∉ relativeChars

/-- Whether a text is plain can be seen from its characters. -/
theorem plain_iff {cs : List Char} : Plain cs ↔
    (cs.all fun c => !Text.isDigit c && c ∉ relativeChars) = true ∧ ¬ ['民', '國'] <:+: cs := by
  simp only [List.all_eq_true, Bool.and_eq_true, Bool.not_eq_true', decide_eq_true_iff]
  exact ⟨fun h => ⟨fun c hc => ⟨h.isDigit c hc, h.notMem c hc⟩, h.unmarked⟩,
    fun h => ⟨fun c hc => (h.1 c hc).1, h.2, fun c hc => (h.1 c hc).2⟩⟩

instance (cs : List Char) : Decidable (Plain cs) := decidable_of_iff _ plain_iff.symm

/-- A part of plain text is plain. -/
theorem Plain.of_isInfix {part cs : List Char} (h : Plain cs) (hpart : part <:+: cs) :
    Plain part where
  isDigit c hc := h.isDigit c (hpart.mem hc)
  unmarked hmark := h.unmarked (hmark.trans hpart)
  notMem c hc := h.notMem c (hpart.mem hc)

/-! ### Digits -/

namespace Text

variable {c : Char} {cs : List Char}

/-- The digits of ASCII are among those of all scripts. -/
theorem isDigit_of_isAsciiDigit (h : isAsciiDigit c = true) : isDigit c = true := by
  have hc : 48 ≤ c.toNat ∧ c.toNat ≤ 57 := of_decide_eq_true h
  have hzero : 48 ∈ digitZeros := List.mem_cons_self
  rw [isDigit, digitValue?, Option.isSome_map, List.find?_isSome]
  exact ⟨48, hzero, decide_eq_true (by omega)⟩

/-- A number is written with digits of ASCII. -/
theorem isAsciiDigit_of_mem_toDigits {n : ℕ} (h : c ∈ Nat.toDigits 10 n) :
    isAsciiDigit c = true :=
  isAsciiDigit_of_isDigit (Nat.isDigit_of_mem_toDigits (by decide) (by decide) h)

/-- A number is read back from its digits. -/
theorem readNat_toDigits (n : ℕ) : readNat (Nat.toDigits 10 n) = some n := by
  have hall : (Nat.toDigits 10 n).all isAsciiDigit = true :=
    List.all_eq_true.2 fun c => isAsciiDigit_of_mem_toDigits
  rw [readNat, if_pos ⟨Nat.toDigits_ne_nil, hall⟩, natOfDigits_eq,
    Nat.ofDigitChars_toDigits (by decide) (by decide)]

/-- A written number begins with a digit. -/
theorem head?_toDigits (n : ℕ) : ∃ c ds, Nat.toDigits 10 n = c :: ds ∧ isAsciiDigit c = true :=
  exists_cons_of_digits Nat.toDigits_ne_nil fun _ => isAsciiDigit_of_mem_toDigits

/-- There is nothing to trim in front of a written number. -/
theorem trimStart_toDigits (n : ℕ) (rest : List Char) :
    trimStart (Nat.toDigits 10 n ++ rest) = Nat.toDigits 10 n ++ rest :=
  trimStart_digits Nat.toDigits_ne_nil (fun _ => isAsciiDigit_of_mem_toDigits) rest

/-- What comes behind white space. -/
def next? (cs : List Char) : Option Char := (trimStart cs).head?

/-- The first character that is not blank is one of the text. -/
theorem mem_of_next? (h : next? cs = some c) : c ∈ cs :=
  (trimStart_isSuffix cs).mem (List.mem_of_mem_head? h)

/-- The first character that is not blank is in the first part, unless that is blank as a whole. -/
theorem next?_append {front rest : List Char} (h : next? (front ++ rest) = some c) :
    c ∈ front ∨ allBlank front = true ∧ next? rest = some c := by
  cases hb : allBlank front with
  | true => exact .inr ⟨rfl, by rwa [next?, trimStart_append_of_allBlank hb, ← next?] at h⟩
  | false =>
      refine .inl ((trimStart_isSuffix front).mem ?_)
      have hne : trimStart front ≠ [] := fun hnil => by
        have hall := List.all_eq_true.2 (List.dropWhile_eq_nil_iff.1 hnil)
        rw [← allBlank, hb] at hall
        cases hall
      rw [next?, trimStart_append hb, List.head?_append_of_ne_nil _ hne] at h
      exact List.mem_of_mem_head? h

end Text

namespace WrittenPeriod

open Text

variable {text : List Char}

/-- The years that can be written, of the Republic or of the calendar. -/
theorem year_bounds (p : WrittenPeriod) : 10 ≤ p.year ∧ p.year ≤ 2200 := by
  have hyear := p.year_mem
  split_ifs at hyear <;> omega

/-- The years of the calendar that can be meant. -/
theorem calendarYear_bounds (p : WrittenPeriod) :
    1912 ≤ p.calendarYear ∧ p.calendarYear ≤ 2200 := by
  have hyear := p.year_mem
  rw [calendarYear]
  split at hyear
  · rw [if_pos (.inl ‹_›)]
    omega
  · simp only [or_iff_right ‹¬ p.marked = true›]
    split <;> omega

/-- A year has two digits, three or four. -/
theorem length_toDigits_year (p : WrittenPeriod) :
    2 ≤ (Nat.toDigits 10 p.year).length ∧ (Nat.toDigits 10 p.year).length ≤ 4 := by
  have hyear := p.year_bounds
  have hmost : (Nat.toDigits 10 p.year).length ≤ 4 ↔ p.year < 10 ^ 4 :=
    Nat.length_toDigits_le_iff (by decide) (by decide)
  have hleast : (Nat.toDigits 10 p.year).length ≤ 1 ↔ p.year < 10 ^ 1 :=
    Nat.length_toDigits_le_iff (by decide) (by decide)
  omega

/-- The parts of a period in their order, in front of other text. -/
theorem chars_append (p : WrittenPeriod) (text : List Char) : p.chars ++ text =
    p.mark ++ (Nat.toDigits 10 p.year ++ '年' :: (p.monthChars ++ text)) := by
  rw [chars, List.append_assoc, List.append_assoc, List.cons_append]

/-- A period is not written with nothing. -/
theorem chars_ne_nil (p : WrittenPeriod) : p.chars ≠ [] := by
  rw [chars]
  exact List.append_ne_nil_of_right_ne_nil _
    (List.append_ne_nil_of_right_ne_nil _ (List.cons_ne_nil _ _))

/-- The mark of a year that has one. -/
theorem mark_of_marked {p : WrittenPeriod} (h : p.marked = true) : p.mark = ['民', '國'] := if_pos h

/-- A year without a mark has nothing in front of it. -/
theorem mark_of_unmarked {p : WrittenPeriod} (h : p.marked = false) : p.mark = [] :=
  if_neg (by rw [h]; decide)

/-- What is read where the period stands. -/
def mention (p : WrittenPeriod) (before after : List Char) : PeriodMention where
  marked := p.marked
  year := Nat.toDigits 10 p.year
  month := p.month.map (Nat.toDigits 10)
  before := p.mark.reverse ++ before
  after := after

/-- A period begins with the mark of the Republic or with a digit. -/
theorem head?_chars (p : WrittenPeriod) (text : List Char) : ∃ c, (p.chars ++ text).head? = some c ∧
    isBlank c = false ∧ if p.marked then c = '民' else isAsciiDigit c = true := by
  rw [chars_append, mark]
  cases p.marked with
  | true => exact ⟨'民', rfl, rfl, rfl⟩
  | false =>
      obtain ⟨c, ds, hds, hc⟩ := head?_toDigits p.year
      exact ⟨c, by rw [hds]; rfl, isBlank_of_isAsciiDigit hc, hc⟩

/-- A period begins with what tells whether its year has a mark. -/
theorem next?_chars (p : WrittenPeriod) (text : List Char) : ∃ c, next? (p.chars ++ text) = some c ∧
    isBlank c = false ∧ if p.marked then c = '民' else isAsciiDigit c = true := by
  obtain ⟨c, hc, hblank, hmark⟩ := p.head?_chars text
  refine ⟨c, ?_, hblank, hmark⟩
  rw [next?, trimStart_eq_self_iff.2 (by rw [hc]; exact hblank), hc]

end WrittenPeriod

namespace Period

open Text

variable {cs before rest front more text : List Char} {p : WrittenPeriod}

/-- A run of digits ends where a character comes that is none. -/
theorem readDigits_append {least most : ℕ} {ds : List Char} (hds : ∀ c ∈ ds, isDigit c = true)
    (hstop : rest.head?.any isDigit = false) : readDigits least most (ds ++ rest) =
      if least ≤ ds.length ∧ ds.length ≤ most then some (ds, rest) else none := by
  have htake : rest.takeWhile isDigit = [] ∧ rest.dropWhile isDigit = rest := by
    cases rest with
    | nil => exact ⟨rfl, rfl⟩
    | cons c rest =>
        have hc : ¬ isDigit c = true := by simpa using hstop
        exact ⟨List.takeWhile_cons_of_neg hc, List.dropWhile_cons_of_neg hc⟩
  rw [readDigits, List.takeWhile_append_of_pos hds, List.dropWhile_append_of_pos hds, htake.1,
    htake.2, List.append_nil]

/-- The digits of a number are read as far as they go, if there are neither too few nor too many. -/
theorem readDigits_toDigits {least most : ℕ} (n : ℕ) (rest : List Char)
    (hstop : rest.head?.any isDigit = false) : readDigits least most (Nat.toDigits 10 n ++ rest) =
      if least ≤ (Nat.toDigits 10 n).length ∧ (Nat.toDigits 10 n).length ≤ most then
        some (Nat.toDigits 10 n, rest) else none :=
  readDigits_append (fun _ hc => isDigit_of_isAsciiDigit (isAsciiDigit_of_mem_toDigits hc)) hstop

/-- Where no digit comes, no number is read. -/
theorem readDigits_of_not_isDigit {least most : ℕ} (hleast : 0 < least)
    (h : cs.head?.any isDigit = false) : readDigits least most cs = none := by
  have hnone : readDigits least most ([] ++ cs) = _ := readDigits_append (List.forall_mem_nil _) h
  rwa [List.nil_append, if_neg fun hlen => absurd hlen.1 (Nat.not_le_of_lt hleast)] at hnone

/-! ### Reading a mention -/

/-- No digit comes, perhaps behind white space. -/
def Undated (cs : List Char) : Prop := ∀ c, next? cs = some c → isDigit c = false

/-- Text without a date does not begin with a digit, blanks aside. -/
theorem Undated.head (h : Undated cs) : (trimStart cs).head?.any isDigit = false := by
  show (next? cs).any isDigit = false
  cases hc : next? cs with
  | none => rfl
  | some c => exact h c hc

/-- Plain text has no date. -/
theorem undated_of_plain (h : Plain cs) : Undated cs :=
  fun c hc => h.isDigit c (mem_of_next? hc)

/-- No month is read where there is no digit. -/
theorem readMonth_of_undated (h : Undated cs) : readMonth cs = none := by
  rw [readMonth, readDigits_of_not_isDigit (by decide) h.head]
  rfl

/-- What is read behind the mark of a year, or without one. -/
def readFrom (marked : Bool) (before cs : List Char) : Option PeriodMention := do
  let before := (cs.takeWhile isBlank).reverse ++ before
  let (year, rest) ← readDigits 2 4 (trimStart cs)
  match trimStart rest with
  | '年' :: rest =>
    match readMonth rest with
    | some (month, after) => some { marked, year, month := some month, before, after }
    | none => some { marked, year, month := none, before, after := rest }
  | _ => none

/-- Behind the mark of the Republic a year is read as one of the Republic. -/
theorem readMention_mark (before rest : List Char) :
    readMention before ('民' :: '國' :: rest) = readFrom true ('國' :: '民' :: before) rest := rfl

/-- Without the mark a year is read where it stands. -/
theorem readMention_of_unmarked (h : ¬ ['民', '國'] <+: cs) (before : List Char) :
    readMention before cs = readFrom false before cs := by
  rw [readMention]
  · rfl
  · rintro rest rfl
    exact h ⟨rest, rfl⟩

/-- Where neither a mark nor a digit comes, nothing is mentioned. -/
theorem readMention_eq_none (hmark : ¬ ['民', '國'] <+: cs) (h : Undated cs) (before : List Char) :
    readMention before cs = none := by
  rw [readMention_of_unmarked hmark, readFrom, readDigits_of_not_isDigit (by decide) h.head]
  rfl

/-- A month is read back. -/
theorem readMonth_monthChars (p : WrittenPeriod) (htext : readMonth text = none) :
    readMonth (p.monthChars ++ text) = p.month.map fun m => (Nat.toDigits 10 m, text) := by
  rw [WrittenPeriod.monthChars]
  cases hm : p.month with
  | none => exact htext
  | some m =>
      have hlength : (Nat.toDigits 10 m).length ≤ 2 := by
        have hle := (p.month_mem m hm).2
        exact (Nat.length_toDigits_le_iff (by decide) (by decide)).2 (by omega)
      have hpos : 1 ≤ (Nat.toDigits 10 m).length := List.length_pos_iff.2 Nat.toDigits_ne_nil
      have hmonth : isDigit '月' = false := by decide +kernel
      have hstop : ('月' :: text).head?.any isDigit = false := hmonth
      simp only [List.append_assoc, List.singleton_append]
      rw [readMonth, trimStart_toDigits, readDigits_toDigits m _ hstop, if_pos ⟨hpos, hlength⟩]
      rfl

/-- What does not begin with the first character of the mark does not begin with the mark. -/
theorem not_mark_isPrefix (h : cs.head? ≠ some '民') : ¬ ['民', '國'] <+: cs := by
  rintro ⟨rest, rfl⟩
  exact h rfl

/-- A year is read back, behind white space and with what follows it. -/
theorem readFrom_year (p : WrittenPeriod) (hfront : allBlank front = true)
    (htext : readMonth text = none) (before : List Char) :
    readFrom p.marked before
        (front ++ (Nat.toDigits 10 p.year ++ '年' :: (p.monthChars ++ text))) =
      some {
        marked := p.marked
        year := Nat.toDigits 10 p.year
        month := p.month.map (Nat.toDigits 10)
        before := front.reverse ++ before
        after := text } := by
  have hblank : (front ++ (Nat.toDigits 10 p.year ++ '年' :: (p.monthChars ++ text))).takeWhile
      isBlank = front := by
    obtain ⟨c, ds, hds, hc⟩ := head?_toDigits p.year
    have hneg : ¬ isBlank c = true := by rw [isBlank_of_isAsciiDigit hc]; decide
    rw [List.takeWhile_append_of_pos (List.all_eq_true.1 hfront), hds, List.cons_append,
      List.takeWhile_cons_of_neg hneg, List.append_nil]
  have hstop : isDigit '年' = false := by decide +kernel
  have hyear : trimStart ('年' :: (p.monthChars ++ text)) = '年' :: (p.monthChars ++ text) := rfl
  rw [readFrom, hblank, trimStart_append_of_allBlank hfront, trimStart_toDigits,
    readDigits_toDigits _ ('年' :: (p.monthChars ++ text)) hstop,
    if_pos p.length_toDigits_year]
  simp only [Option.bind_eq_bind, Option.bind_some, hyear, readMonth_monthChars p htext]
  cases hm : p.month with
  | none => simp [WrittenPeriod.monthChars, hm]
  | some m => rfl

/-- A mention begins at a text in front of a period: at nothing, or at white space if the year has
no mark. -/
structure Ready (p : WrittenPeriod) (front : List Char) : Prop where
  blank : allBlank front = true
  eq_nil : p.marked = true → front = []

/-- **A period is read back where it stands.** -/
theorem readMention_chars (h : Ready p front) (htext : readMonth text = none)
    (before : List Char) : readMention before (front ++ (p.chars ++ text)) =
      some (p.mention (front.reverse ++ before) text) := by
  have hread := readFrom_year p h.blank htext
  rw [WrittenPeriod.chars_append, WrittenPeriod.mention]
  cases hp : p.marked with
  | true =>
      obtain rfl := h.eq_nil hp
      rw [hp] at hread
      rw [WrittenPeriod.mark_of_marked hp]
      exact (readMention_mark ..).trans (hread _)
  | false =>
      have hhead : (front ++ (Nat.toDigits 10 p.year ++ '年' :: (p.monthChars ++ text))).head? ≠
          some '民' := by
        intro hc
        cases front with
        | nil =>
            obtain ⟨c, ds, hds, hdigit⟩ := head?_toDigits p.year
            rw [hds] at hc
            cases hc
            cases hdigit
        | cons c front =>
            cases hc
            cases h.blank
      rw [hp] at hread
      rw [WrittenPeriod.mark_of_unmarked hp, List.nil_append, readMention_of_unmarked
        (not_mark_isPrefix hhead)]
      exact hread _

/-- Plain text that a period does not follow at once has no date in front. -/
theorem undated_of_not_ready (h : Plain front) (hready : ¬ Ready p front) :
    Undated (front ++ (p.chars ++ text)) := fun d hd => by
  rcases next?_append hd with hmem | ⟨hblank, hd⟩
  · exact h.isDigit d hmem
  · obtain ⟨c, hc, -, hmark⟩ := p.next?_chars text
    obtain rfl := Option.some.inj (hc.symm.trans hd)
    cases hp : p.marked with
    | true =>
        rw [hp] at hmark
        obtain rfl : c = '民' := hmark
        decide +kernel
    | false => exact absurd ⟨hblank, fun hm => absurd hm (by rw [hp]; decide)⟩ hready

/-- A period is not read from further ahead, or from where only other text stands. -/
theorem readMention_front (h : Plain front) (hready : ¬ Ready p front) (before : List Char) :
    readMention before (front ++ (p.chars ++ text)) = none := by
  refine readMention_eq_none ?_ ?_ before
  · -- The mark is in this text or begins behind it, but it is not cut in two.
    obtain ⟨c, hc, -, hmark⟩ := p.head?_chars text
    have hcut : c ≠ '國' := by
      rintro rfl
      cases hp : p.marked <;> rw [hp] at hmark <;> cases hmark
    rintro ⟨rest, hrest⟩
    match front, hrest with
    | [], _ => exact hready ⟨rfl, fun _ => rfl⟩
    | [d], hrest =>
        have hrest : '國' :: rest = p.chars ++ text := (List.cons.inj hrest).2
        rw [← hrest] at hc
        exact hcut (Option.some.inj hc).symm
    | d :: e :: front, hrest =>
        cases hrest
        exact h.unmarked ⟨[], front, rfl⟩
  · exact undated_of_not_ready h hready

/-- Other text has no mention. -/
theorem readMention_of_plain (h : Plain cs) (before : List Char) : readMention before cs = none :=
  readMention_eq_none (fun hmark => h.unmarked hmark.isInfix) (undated_of_plain h) before

/-! ### What a mention stands for -/

/-- What comes, perhaps behind white space, belongs to no word for years counted from now. -/
def Quiet (cs : List Char) : Prop := ∀ c, next? cs = some c → c ∉ relativeChars

/-- Text is quiet if its parts are. -/
theorem Quiet.append (hfront : ∀ c ∈ front, c ∉ relativeChars) (hmore : Quiet more) :
    Quiet (front ++ more) := fun c hc => by
  rcases next?_append hc with hmem | ⟨-, hnext⟩
  · exact hfront c hmem
  · exact hmore c hnext

/-- Quiet text begins with no word for a year that is counted from now. -/
theorem Quiet.not_isPrefixOf {word : List Char} (h : Quiet cs)
    (hword : (word.head?.any (decide <| · ∈ relativeChars)) = true) :
    word.isPrefixOf (trimStart cs) = false := by
  obtain ⟨c, hhead, hc⟩ := (Option.any_eq_true _ _).1 hword
  refine Bool.eq_false_iff.2 fun hprefix => h c ?_ (of_decide_eq_true hc)
  obtain ⟨rest, hrest⟩ := List.isPrefixOf_iff_prefix.1 hprefix
  obtain ⟨d, word, rfl⟩ := List.exists_cons_of_ne_nil (l := word) (by rintro rfl; cases hhead)
  rw [next?, ← hrest]
  exact hhead

/-- A year between quiet texts is not counted from now. -/
theorem isRelative_eq_false {m : PeriodMention} (hbefore : Quiet m.before)
    (hafter : Quiet m.after) : isRelative m = false := by
  have hwords : ∀ w ∈ relativeBefore,
      (w.toList.reverse.head?.any (decide <| · ∈ relativeChars)) = true := by decide +kernel
  have hwords' : ∀ w ∈ relativeAfter,
      (w.toList.head?.any (decide <| · ∈ relativeChars)) = true := by decide +kernel
  rw [isRelative, Bool.or_eq_false_iff, List.any_eq_false, List.any_eq_false]
  refine ⟨fun w hw => ?_, fun w hw => ?_⟩
  · exact Bool.not_eq_true _ ▸ hbefore.not_isPrefixOf (hwords w hw)
  · exact Bool.not_eq_true _ ▸ hafter.not_isPrefixOf (hwords' w hw)

/-- A written year in range is a year of the calendar, that of the Republic with its offset. -/
theorem gregorianYear_eq {m : PeriodMention} {year written : ℕ}
    (hread : readNat m.year = some written)
    (hyear : (if m.marked || m.year.length < 4 then written + republicOffset else written) = year)
    (hrange : 1912 ≤ year ∧ year ≤ 2200) : gregorianYear m = some year := by
  subst hyear
  rw [gregorianYear, hread]
  exact if_pos hrange

/-- The bounds of a mention are those of its month, or of its year if it has none. -/
theorem bounds_eq {m : PeriodMention} {year : ℕ}
    (hstands : m.marked = false → (m.year.length = 2 → (m.month.bind readNat).isSome) ∧
      isRelative m = false) (hyear : gregorianYear m = some year) :
    bounds m = match m.month.bind readNat with
      | some month => Date.boundsOfMonth? year month
      | none => Date.boundsOfYear? year := by
  have hcond : ¬ (!m.marked && ((m.year.length = 2 && (m.month.bind readNat).isNone) ||
      isRelative m)) = true := by
    cases hm : m.marked with
    | true =>
        rw [Bool.not_true, Bool.false_and]
        exact Bool.false_ne_true
    | false =>
        obtain ⟨hmonth, hrelative⟩ := hstands hm
        rw [hrelative, Bool.or_false, Bool.not_false, Bool.true_and, Bool.and_eq_true,
          decide_eq_true_iff, Option.isNone_iff_eq_none]
        rintro ⟨hlength, hnone⟩
        have hsome := hmonth hlength
        rw [hnone] at hsome
        cases hsome
  rw [bounds, if_neg hcond, hyear]
  cases m.month.bind readNat <;> rfl

/-- A written period is read as the year of the calendar that it means. -/
theorem gregorianYear_mention (p : WrittenPeriod) (before after : List Char) :
    gregorianYear (p.mention before after) = some p.calendarYear := by
  have hlength : (Nat.toDigits 10 p.year).length ≤ 3 ↔ p.year < 10 ^ 3 :=
    Nat.length_toDigits_le_iff (by decide) (by decide)
  have hshort : (p.marked || decide ((Nat.toDigits 10 p.year).length < 4)) = true ↔
      p.marked ∨ p.year < 1000 := by
    rw [Bool.or_eq_true, decide_eq_true_iff]
    exact or_congr_right (by omega)
  exact gregorianYear_eq (readNat_toDigits p.year) (if_congr hshort rfl rfl) p.calendarYear_bounds

/-- **A mention stands for the days of the period that is written.** -/
theorem spans_mention (p : WrittenPeriod) {before after : List Char} (hbefore : Quiet before)
    (hafter : Quiet after) : ∃ first last, bounds (p.mention before after) = some (first, last) ∧
      Date.Spans first last p.days := by
  have hmonth : (p.month.map (Nat.toDigits 10)).bind readNat = p.month := by
    cases p.month with
    | none => rfl
    | some m => exact readNat_toDigits m
  have hstands : p.marked = false →
      ((Nat.toDigits 10 p.year).length = 2 →
        ((p.month.map (Nat.toDigits 10)).bind readNat).isSome) ∧
      isRelative (p.mention before after) = false := by
    intro hp
    refine ⟨fun hlength => ?_, isRelative_eq_false ?_ hafter⟩
    · have hyear := p.year_mem
      have hle : (Nat.toDigits 10 p.year).length ≤ 2 ↔ p.year < 10 ^ 2 :=
        Nat.length_toDigits_le_iff (by decide) (by decide)
      rw [hp, if_neg (by decide)] at hyear
      rw [hmonth]
      rcases hyear with hyear | hyear | ⟨-, -, hm⟩
      · omega
      · omega
      · exact hm
    · rwa [WrittenPeriod.mention, WrittenPeriod.mark_of_unmarked hp]
  have hyear : Calendar.firstYear ≤ (p.calendarYear : ℤ) ∧
      (p.calendarYear : ℤ) ≤ Calendar.lastYear := by
    have hrange := p.calendarYear_bounds
    rw [Calendar.firstYear, Calendar.lastYear]
    omega
  have hbounds := bounds_eq (m := p.mention before after) hstands (gregorianYear_mention p _ _)
  rw [WrittenPeriod.mention, hmonth, ← WrittenPeriod.mention] at hbounds
  rw [hbounds, WrittenPeriod.days]
  cases hm : p.month with
  | none =>
      obtain ⟨first, last, h⟩ := Date.exists_boundsOfYear? hyear
      exact ⟨first, last, h, by simpa using Date.spans_of_boundsOfYear? h⟩
  | some m =>
      obtain ⟨first, last, h⟩ := Date.exists_boundsOfMonth? hyear (p.month_mem m hm)
      exact ⟨first, last, h, by simpa using Date.spans_of_boundsOfMonth? h⟩

/-! ### The text around a mention -/

/-- A period is written with digits and four other characters. -/
theorem mem_chars {c : Char} (h : c ∈ p.chars) :
    isAsciiDigit c = true ∨ c ∈ ['民', '國', '年', '月'] := by
  rw [WrittenPeriod.chars, List.mem_append, List.mem_append, List.mem_cons] at h
  rcases h with h | h | rfl | h
  · cases hp : p.marked with
    | true =>
        rw [WrittenPeriod.mark_of_marked hp] at h
        exact .inr (List.mem_append_left ['年', '月'] h)
    | false =>
        rw [WrittenPeriod.mark_of_unmarked hp] at h
        cases h
  · exact .inl (isAsciiDigit_of_mem_toDigits h)
  · exact .inr (by decide)
  · rw [WrittenPeriod.monthChars] at h
    split at h
    · rcases List.mem_append.1 h with h | h
      · exact .inl (isAsciiDigit_of_mem_toDigits h)
      · obtain rfl := List.mem_singleton.1 h
        exact .inr (by decide)
    · cases h

/-- A period does not end with a digit. -/
theorem getLast?_chars (p : WrittenPeriod) : ∀ c ∈ p.chars.getLast?, isDigit c = false := by
  obtain ⟨front, c, hchars, hc⟩ : ∃ front c, p.chars = front ++ [c] ∧ isDigit c = false := by
    rw [WrittenPeriod.chars, WrittenPeriod.monthChars]
    cases p.month with
    | none => exact ⟨_, '年', (List.append_assoc ..).symm, by decide +kernel⟩
    | some m =>
        refine ⟨p.mark ++ (Nat.toDigits 10 p.year ++ '年' :: Nat.toDigits 10 m), '月', ?_,
          by decide +kernel⟩
        simp only [List.append_assoc, List.cons_append]
  rw [hchars, List.getLast?_concat]
  rintro d ⟨⟩
  exact hc

/-- What is neither a digit nor one of these does not stand in a period. -/
theorem notMem_of_mem_chars {c : Char} (h : c ∈ p.chars)
    (hcs : (cs.all fun d => !isAsciiDigit d && d ∉ ['民', '國', '年', '月']) = true) : c ∉ cs := by
  intro hc
  have hneg := List.all_eq_true.1 hcs c hc
  rw [Bool.and_eq_true, Bool.not_eq_true', decide_eq_true_iff] at hneg
  rcases mem_chars h with h | h
  · rw [hneg.1] at h
    cases h
  · exact hneg.2 h

/-- A period is quiet if the text behind it is. -/
theorem quiet_chars (h : Quiet text) : Quiet (p.chars ++ text) :=
  .append (fun _ hc => notMem_of_mem_chars hc (by decide)) h

/-- Plain text, read backwards, keeps the text before it quiet. -/
theorem quiet_reverse_append (h : Plain front) (hbefore : Quiet before) :
    Quiet (front.reverse ++ before) :=
  .append (fun c hc => h.notMem c (List.mem_reverse.1 hc)) hbefore

end Period

end Archivist
