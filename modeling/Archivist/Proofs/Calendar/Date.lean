import Archivist.Calendar.Date
import Archivist.Calendar.Written
import Archivist.Proofs.Text.Trim
import Mathlib.Algebra.Group.Nat.Defs
import Mathlib.Data.Int.Notation
import Mathlib.Data.Nat.Notation
import Mathlib.Order.Bounds.Defs
import Mathlib.Tactic.IntervalCases

/-!
# Dates

The count of days is taken apart into a year, a month and a day, and a date that comes out has the
number that was taken apart (`Date.dayNumber_of_ofDayNumber?`). So a date that is shifted lies as
many days away as it is shifted by, wherever the calendar has it (`Date.dayNumber_of_shift`). That
the year is the right one does not matter for this: if it were not, the day would not be valid.

The first and the last of some days are a least and a greatest of them (`Date.isLeast_earliest`,
`Date.isGreatest_latest`), and between the bounds of a month or a year lie its days
(`Date.spans_of_boundsOfMonth?`, `Date.spans_of_boundsOfYear?`).

A date is written with digits, separators and perhaps a sign, and it is read back as it was
(`Date.readChars?_writtenWith`): the digits of a number end where a character comes that is none, or
where there are as many as may be read. The separators tell the two readers apart, and white space
around a date makes no difference.
-/

/-! ### Counting days -/

namespace Archivist

namespace Date

open Calendar

variable {d d' first last : Date} {n year : ℤ} {month : ℕ} {dates : List Date}

/-- A month adds its own days to those before it. -/
theorem daysBeforeMonth_succ (h : 1 ≤ month) (year : ℤ) :
    daysBeforeMonth year (month + 1) = daysBeforeMonth year month + daysInMonth year month := by
  obtain ⟨month, rfl⟩ := Nat.exists_eq_add_of_le' h
  rfl

/-- Going on from month to month, the days that are left and those passed by add up. -/
theorem daysBeforeMonth_monthOfDay (year : ℤ) (n month left : ℕ) (hmonth : 1 ≤ month) :
    daysBeforeMonth year (monthOfDay year n month left).1 + (monthOfDay year n month left).2 =
      daysBeforeMonth year month + n := by
  induction left generalizing n month with
  | zero => rfl
  | succ left ih =>
      rw [monthOfDay]
      split
      · rfl
      · rw [ih _ _ (by omega), daysBeforeMonth_succ hmonth]
        omega

/-- A date is put together from its own year, month and day, and from nothing else. -/
theorem ofParts?_eq_some_iff {day : ℕ} :
    ofParts? year month day = some d ↔ d.year = year ∧ d.month = month ∧ d.day = day := by
  constructor
  · intro h
    rw [ofParts?] at h
    split at h
    · cases h
      exact ⟨rfl, rfl, rfl⟩
    · cases h
  · rintro ⟨rfl, rfl, rfl⟩
    exact dif_pos d.valid

/-- The place of a date that is put together is that of its day in its month; days are counted from
1. -/
theorem dayNumber_of_ofParts? {day : ℕ} (h : ofParts? year month day = some d) :
    d.dayNumber = daysBeforeYear year + daysBeforeMonth year month + day ∧ 1 ≤ day := by
  obtain ⟨rfl, rfl, rfl⟩ := ofParts?_eq_some_iff.1 h
  exact ⟨rfl, d.valid.2.2.1⟩

/-- **The date of a day has the number of that day.** -/
theorem dayNumber_of_ofDayNumber? (h : ofDayNumber? n = some d) : d.dayNumber = n := by
  obtain ⟨year, hyear⟩ : ∃ year, year = yearOfDay n := ⟨_, rfl⟩
  obtain ⟨count, hcount⟩ : ∃ count, count = (n - daysBeforeYear year).toNat := ⟨_, rfl⟩
  have hparts : ofParts? year (monthOfDay year count 1 11).1 (monthOfDay year count 1 11).2 =
      some d := by
    rw [hcount, hyear]
    exact h
  obtain ⟨hnumber, hday⟩ := dayNumber_of_ofParts? hparts
  have hsum := daysBeforeMonth_monthOfDay year count 1 11 (Nat.le_refl 1)
  have hfirst : daysBeforeMonth year 1 = 0 := rfl
  -- On a day before the year there would be nothing left to count in it.
  have hpos : count ≠ 0 := by
    rintro rfl
    rw [monthOfDay, if_pos (Nat.zero_le _)] at hday
    omega
  omega

/-- **A date that is shifted lies that many days away.** -/
theorem dayNumber_of_shift (h : d.shift n = some d') : d'.dayNumber = d.dayNumber + n :=
  dayNumber_of_ofDayNumber? h

/-! ### The first and the last of some days -/

/-- Going through a list for the best element, one keeps the best so far. -/
theorem foldl_select {α : Type} (better : α → α → Prop) [DecidableRel better]
    (hasymm : ∀ a b, better a b → ¬ better b a)
    (htrans : ∀ a b c, ¬ better a b → ¬ better b c → ¬ better a c) (a : α) (rest : List α) :
    rest.foldl (fun a b => if better b a then b else a) a ∈ a :: rest ∧
      ∀ b ∈ a :: rest, ¬ better b (rest.foldl (fun a b => if better b a then b else a) a) := by
  induction rest generalizing a with
  | nil => exact ⟨List.mem_cons_self, List.forall_mem_singleton.2 fun h => hasymm a a h h⟩
  | cons b rest ih =>
      rw [List.foldl_cons]
      obtain ⟨hmem, hbest⟩ := ih (if better b a then b else a)
      rw [List.forall_mem_cons] at hbest
      rw [List.forall_mem_cons, List.forall_mem_cons]
      by_cases hb : better b a
      · rw [if_pos hb] at hmem hbest ⊢
        exact ⟨List.mem_cons_of_mem a hmem, htrans _ _ _ (hasymm b a hb) hbest.1, hbest⟩
      · rw [if_neg hb] at hmem hbest ⊢
        refine ⟨?_, hbest.1, htrans _ _ _ hb hbest.1, hbest.2⟩
        rcases List.mem_cons.1 hmem with h | h
        · exact List.mem_cons.2 (.inl h)
        · exact List.mem_cons_of_mem a (List.mem_cons_of_mem b h)

/-- The earliest of some dates is one of them, and no later than any other. -/
theorem isLeast_earliest (h : earliest dates = some first) : IsLeast {d | d ∈ dates} first := by
  cases dates with
  | nil => cases h
  | cons d dates =>
      cases h
      obtain ⟨hmem, hle⟩ := foldl_select (fun a b : Date => a < b)
        (fun a b hab hba => Int.lt_asymm hab hba)
        (fun a b c hab hbc => Int.not_lt.2 (Int.le_trans (Int.not_lt.1 hbc) (Int.not_lt.1 hab)))
        d dates
      exact ⟨hmem, fun e he => Int.not_lt.1 (hle e he)⟩

/-- The latest of some dates is one of them, and no earlier than any other. -/
theorem isGreatest_latest (h : latest dates = some last) : IsGreatest {d | d ∈ dates} last := by
  cases dates with
  | nil => cases h
  | cons d dates =>
      cases h
      obtain ⟨hmem, hle⟩ := foldl_select (fun a b : Date => b < a)
        (fun a b hab hba => Int.lt_asymm hab hba)
        (fun a b c hab hbc => Int.not_lt.2 (Int.le_trans (Int.not_lt.1 hab) (Int.not_lt.1 hbc)))
        d dates
      exact ⟨hmem, fun e he => Int.not_lt.1 (hle e he)⟩

/-- There is an earliest date unless there are no dates. -/
theorem earliest_eq_none_iff : earliest dates = none ↔ dates = [] := by
  cases dates <;> simp [earliest]

/-- There is a latest date unless there are no dates. -/
theorem latest_eq_none_iff : latest dates = none ↔ dates = [] := by
  cases dates <;> simp [latest]

/-! ### Months and years -/

/-- A date has one of the twelve months. -/
theorem month_mem (d : Date) : 1 ≤ d.month ∧ d.month ≤ 12 := by
  have hday := d.valid.2.2.1.trans d.valid.2.2.2
  by_contra hmonth
  have hnone : daysInMonth d.year d.month = 0 := by
    rw [daysInMonth]
    all_goals omega
  omega

/-- Later months have no fewer days before them. -/
theorem daysBeforeMonth_le {month month' : ℕ} (h : month ≤ month') (year : ℤ) :
    daysBeforeMonth year month ≤ daysBeforeMonth year month' := by
  induction month' with
  | zero => rw [Nat.le_zero.1 h]
  | succ n ih =>
      rcases Nat.le_succ_iff.1 h with h | rfl
      · refine (ih h).trans ?_
        rcases Nat.eq_zero_or_pos n with rfl | hn
        · exact Nat.le_refl _
        · rw [daysBeforeMonth_succ hn]
          exact Nat.le_add_right _ _
      · exact Nat.le_refl _

/-- A month has twenty-eight days at least. -/
theorem daysInMonth_pos (year : ℤ) {month : ℕ} (h : 1 ≤ month ∧ month ≤ 12) :
    1 ≤ daysInMonth year month := by
  obtain ⟨hfirst, hlast⟩ := h
  interval_cases month <;> simp only [daysInMonth] <;> first | decide | (split <;> decide)

/-- The days of a period and no others lie between its first and its last day. -/
structure Spans (first last : Date) (period : Set Date) : Prop where
  first : IsLeast period first
  last : IsGreatest period last

/-- A period that is spanned is not turned around. -/
theorem Spans.le {period : Set Date} (h : Spans first last period) : first ≤ last :=
  h.last.2 h.first.1

/-- Days of one year are in the order of their places in it. -/
theorem le_iff_of_year_eq (h : d.year = d'.year) : d ≤ d' ↔
    daysBeforeMonth d.year d.month + d.day ≤ daysBeforeMonth d.year d'.month + d'.day := by
  show d.dayNumber ≤ d'.dayNumber ↔ _
  rw [dayNumber, dayNumber, ← h]
  omega

/-- The bounds of a month are its first and its last day. -/
theorem spans_of_boundsOfMonth? (h : boundsOfMonth? year month = some (first, last)) :
    Spans first last {d | d.year = year ∧ d.month = month} := by
  obtain ⟨first', hfirst, h⟩ := Option.bind_eq_some_iff.1 h
  obtain ⟨last', hlast, ⟨⟩⟩ := Option.bind_eq_some_iff.1 h
  obtain ⟨rfl, rfl, hday⟩ := ofParts?_eq_some_iff.1 hfirst
  obtain ⟨hyear, hmonth, hday'⟩ := ofParts?_eq_some_iff.1 hlast
  refine ⟨⟨⟨rfl, rfl⟩, fun d ⟨hy, hm⟩ => ?_⟩, ⟨⟨hyear, hmonth⟩, fun d ⟨hy, hm⟩ => ?_⟩⟩
  · have hpos := d.valid.2.2.1
    rw [le_iff_of_year_eq hy.symm, hm, hday]
    omega
  · have hle := d.valid.2.2.2
    rw [hy, hm] at hle
    rw [le_iff_of_year_eq (hy.trans hyear.symm), hm, hmonth, hday']
    omega

/-- No day of a year comes after the end of December. -/
theorem placeInYear_le (d : Date) :
    daysBeforeMonth d.year d.month + d.day ≤ daysBeforeMonth d.year 12 + 31 :=
  calc daysBeforeMonth d.year d.month + d.day
      ≤ daysBeforeMonth d.year d.month + daysInMonth d.year d.month :=
        Nat.add_le_add_left d.valid.2.2.2 _
    _ = daysBeforeMonth d.year (d.month + 1) := (daysBeforeMonth_succ d.month_mem.1 _).symm
    _ ≤ daysBeforeMonth d.year 13 := daysBeforeMonth_le (Nat.succ_le_succ d.month_mem.2) _
    _ = daysBeforeMonth d.year 12 + 31 := rfl

/-- The bounds of a year are its first and its last day. -/
theorem spans_of_boundsOfYear? (h : boundsOfYear? year = some (first, last)) :
    Spans first last {d | d.year = year} := by
  obtain ⟨first', hfirst, h⟩ := Option.bind_eq_some_iff.1 h
  obtain ⟨last', hlast, ⟨⟩⟩ := Option.bind_eq_some_iff.1 h
  obtain ⟨rfl, hmonth, hday⟩ := ofParts?_eq_some_iff.1 hfirst
  obtain ⟨hyear, hmonth', hday'⟩ := ofParts?_eq_some_iff.1 hlast
  refine ⟨⟨rfl, fun d hy => ?_⟩, ⟨hyear, fun d hy => ?_⟩⟩
  · have hpos := d.valid.2.2.1
    have hnone : daysBeforeMonth first.year 1 = 0 := rfl
    rw [le_iff_of_year_eq (Eq.symm hy), hmonth, hday, hnone]
    omega
  · have hle := d.placeInYear_le
    rwa [le_iff_of_year_eq (Eq.trans hy hyear.symm), hmonth', hday']

/-- Every month of the calendar has bounds. -/
theorem exists_boundsOfMonth? (hyear : firstYear ≤ year ∧ year ≤ lastYear)
    (hmonth : 1 ≤ month ∧ month ≤ 12) :
    ∃ first last, boundsOfMonth? year month = some (first, last) := by
  have hdays := daysInMonth_pos year hmonth
  have hfirst : Valid year month 1 := ⟨hyear.1, hyear.2, Nat.le_refl 1, hdays⟩
  have hlast : Valid year month (daysInMonth year month) :=
    ⟨hyear.1, hyear.2, hdays, Nat.le_refl _⟩
  exact ⟨⟨year, month, 1, hfirst⟩, ⟨year, month, _, hlast⟩, by
    rw [boundsOfMonth?, ofParts?, ofParts?, dif_pos hfirst, dif_pos hlast]; rfl⟩

/-- Every year of the calendar has bounds. -/
theorem exists_boundsOfYear? (hyear : firstYear ≤ year ∧ year ≤ lastYear) :
    ∃ first last, boundsOfYear? year = some (first, last) := by
  have hfirst : Valid year 1 1 := ⟨hyear.1, hyear.2, Nat.le_refl 1, show 1 ≤ 31 by decide⟩
  have hlast : Valid year 12 31 := ⟨hyear.1, hyear.2, by decide, Nat.le_refl 31⟩
  exact ⟨⟨year, 1, 1, hfirst⟩, ⟨year, 12, 31, hlast⟩, by
    rw [boundsOfYear?, ofParts?, ofParts?, dif_pos hfirst, dif_pos hlast]; rfl⟩

end Date

/-! ### Digits -/

namespace Text

variable {c : Char} {ds : List Char}

/-- What the library takes for a digit is one of the ten of ASCII. -/
theorem isAsciiDigit_of_isDigit (h : c.isDigit = true) : isAsciiDigit c = true := by
  rw [Char.isDigit, Bool.and_eq_true, decide_eq_true_iff, decide_eq_true_iff] at h
  exact decide_eq_true h

/-- Digits are read as the library reads them, to the base of ten. -/
theorem natOfDigits_eq (ds : List Char) : natOfDigits ds = Nat.ofDigitChars 10 ds 0 := rfl

/-- No digit is white space. -/
theorem isBlank_of_isAsciiDigit (h : isAsciiDigit c = true) : isBlank c = false := by
  have hc : 48 ≤ c.toNat ∧ c.toNat ≤ 57 := of_decide_eq_true h
  simp only [isBlank, decide_eq_false_iff_not]
  omega

/-- A number that is written has a first digit. -/
theorem exists_cons_of_digits (hne : ds ≠ []) (hds : ∀ c ∈ ds, isAsciiDigit c = true) :
    ∃ c cs, ds = c :: cs ∧ isAsciiDigit c = true := by
  obtain ⟨c, cs, rfl⟩ := List.exists_cons_of_ne_nil hne
  exact ⟨c, cs, rfl, hds c List.mem_cons_self⟩

/-- Nothing is taken off the front of a number. -/
theorem trimStart_digits (hne : ds ≠ []) (hds : ∀ c ∈ ds, isAsciiDigit c = true)
    (rest : List Char) : trimStart (ds ++ rest) = ds ++ rest := by
  obtain ⟨c, cs, rfl, hc⟩ := exists_cons_of_digits hne hds
  exact trimStart_eq_self_iff.2 (isBlank_of_isAsciiDigit hc)

/-- A text without white space is trimmed. -/
theorem trim_of_forall {cs : List Char} (h : ∀ c ∈ cs, isBlank c = false) : trim cs = cs := by
  have hends : ∀ {cs : List Char}, (∀ c ∈ cs, isBlank c = false) → trimStart cs = cs := by
    intro cs h
    cases cs with
    | nil => rfl
    | cons c cs => exact List.dropWhile_cons_of_neg (by simp [h c List.mem_cons_self])
  have hreverse : trimStart cs.reverse = cs.reverse :=
    hends fun c hc => h c (List.mem_reverse.1 hc)
  rw [trim, hends h, trimEnd, dropEndWhile, ← trimStart, hreverse, List.reverse_reverse]

end Text

namespace Date

open Archivist.Text

/-- The digits of a number, with zeros in front up to a width. -/
def digitsOf (width n : ℕ) : List Char :=
  List.replicate (width - (Nat.toDigits 10 n).length) '0' ++ Nat.toDigits 10 n

/-- A padded number is made of its digits. -/
theorem toList_padded (width n : ℕ) : (padded width n).toList = digitsOf width n :=
  String.toList_ofList

/-- A written number consists of digits. -/
theorem isAsciiDigit_digitsOf {width n : ℕ} {c : Char} (h : c ∈ digitsOf width n) :
    isAsciiDigit c = true := by
  rcases List.mem_append.1 h with h | h
  · obtain rfl := (List.mem_replicate.1 h).2
    rfl
  · exact isAsciiDigit_of_isDigit (Nat.isDigit_of_mem_toDigits (by decide) (by decide) h)

/-- A written number is read back, whatever it is padded with. -/
theorem natOfDigits_digitsOf (width n : ℕ) : natOfDigits (digitsOf width n) = n := by
  rw [natOfDigits_eq, digitsOf, Nat.ofDigitChars_append, Nat.ofDigitChars_replicate_zero,
    Nat.mul_zero, Nat.ofDigitChars_toDigits (by decide) (by decide)]

/-- A number is never written without digits. -/
theorem digitsOf_ne_nil (width n : ℕ) : digitsOf width n ≠ [] :=
  List.append_ne_nil_of_right_ne_nil _ Nat.toDigits_ne_nil

/-- A number that fits has as many digits as the width. -/
theorem length_digitsOf {width n : ℕ} (hwidth : 0 < width) (h : n < 10 ^ width) :
    (digitsOf width n).length = width := by
  have hle : (Nat.toDigits 10 n).length ≤ width :=
    (Nat.length_toDigits_le_iff (by decide) hwidth).2 h
  rw [digitsOf, List.length_append, List.length_replicate]
  omega

/-- Digits are read up to a character that is none, or as many as may be read. -/
theorem readDigits_append {most : ℕ} {ds rest : List Char} (hds : ∀ c ∈ ds, isAsciiDigit c = true)
    (hne : ds ≠ []) (hlength : ds.length ≤ most)
    (hstop : ds.length = most ∨ rest.head?.any isAsciiDigit = false) :
    readDigits most (ds ++ rest) = some (natOfDigits ds, rest) := by
  have hrest : (rest.take (most - ds.length)).takeWhile isAsciiDigit = [] := by
    rcases hstop with hstop | hstop
    · rw [hstop, Nat.sub_self, List.take_zero, List.takeWhile_nil]
    · cases rest with
      | nil => rw [List.take_nil, List.takeWhile_nil]
      | cons c rest =>
          cases most - ds.length with
          | zero => rw [List.take_zero, List.takeWhile_nil]
          | succ n => exact List.takeWhile_cons_of_neg (by simpa using hstop)
  have hdigits : ((ds ++ rest).take most).takeWhile isAsciiDigit = ds := by
    rw [List.take_append, List.take_of_length_le hlength, List.takeWhile_append_of_pos hds, hrest,
      List.append_nil]
  simp only [readDigits, hdigits, if_neg hne, List.drop_left]

/-- A written number begins with a digit. -/
theorem head?_digitsOf (width n : ℕ) :
    ∃ c ds, digitsOf width n = c :: ds ∧ isAsciiDigit c = true :=
  exists_cons_of_digits (digitsOf_ne_nil width n) fun _ => isAsciiDigit_digitsOf

/-- There is nothing to trim in front of a written number. -/
theorem trimStart_digitsOf (width n : ℕ) (rest : List Char) :
    trimStart (digitsOf width n ++ rest) = digitsOf width n ++ rest :=
  trimStart_digits (digitsOf_ne_nil width n) (fun _ => isAsciiDigit_digitsOf) rest

/-- A month or a day is read back. -/
theorem readPart_digitsOf {n : ℕ} (h : n < 10 ^ 2) (rest : List Char) :
    readPart (digitsOf 2 n ++ rest) = some (n, rest) := by
  have hlength := length_digitsOf (by decide) h
  rw [readPart, trimStart_digitsOf, readDigits_append (fun _ => isAsciiDigit_digitsOf)
    (digitsOf_ne_nil 2 n) hlength.le (.inl hlength), natOfDigits_digitsOf]

/-- A number after a sign is read back, up to the separator behind it. -/
theorem readDigits_digitsOf (n : ℕ) {mark : Char} (hmark : isAsciiDigit mark = false)
    (rest : List Char) : readDigits (digitsOf 4 n ++ mark :: rest).length
      (digitsOf 4 n ++ mark :: rest) = some (n, mark :: rest) := by
  have hle : (digitsOf 4 n).length ≤ (digitsOf 4 n ++ mark :: rest).length := by
    rw [List.length_append]
    exact Nat.le_add_right _ _
  have hstop : (mark :: rest).head?.any isAsciiDigit = false := hmark
  rw [readDigits_append (fun _ => isAsciiDigit_digitsOf) (digitsOf_ne_nil 4 n) hle (.inr hstop),
    natOfDigits_digitsOf]

/-- **A year is read back**, up to the separator behind it. -/
theorem readYear_writtenYear (year : ℤ) {mark : Char} (hmark : isAsciiDigit mark = false)
    (rest : List Char) :
    readYear ((writtenYear year).toList ++ mark :: rest) = some (year, mark :: rest) := by
  rw [writtenYear]
  split_ifs with hplain hneg
  · -- Four digits: no sign is in front, and no fifth digit is read.
    have hlength : (digitsOf 4 year.toNat).length = 4 := length_digitsOf (by decide) (by omega)
    have hread : readDigits 4 (digitsOf 4 year.toNat ++ mark :: rest) =
        some (year.toNat, mark :: rest) := by
      rw [readDigits_append (fun _ => isAsciiDigit_digitsOf) (digitsOf_ne_nil _ _) hlength.le
        (.inl hlength), natOfDigits_digitsOf]
    have hyear : (year.toNat : ℤ) = year := Int.toNat_of_nonneg hplain.1
    obtain ⟨c, ds, hds, hc⟩ := head?_digitsOf 4 year.toNat
    rw [toList_padded, readYear, trimStart_digitsOf]
    split
    · rename_i hsign
      rw [hds] at hsign
      cases hsign
      cases hc
    · rename_i hsign
      rw [hds] at hsign
      cases hsign
      cases hc
    · rw [hread]
      exact congrArg (fun y => some (y, mark :: rest)) hyear
  · have hyear : -(year.natAbs : ℤ) = year := by omega
    rw [String.toList_append, toList_padded, List.append_assoc, readYear]
    show (readDigits (digitsOf 4 year.natAbs ++ mark :: rest).length
      (digitsOf 4 year.natAbs ++ mark :: rest)).map _ = _
    rw [readDigits_digitsOf _ hmark]
    exact congrArg (fun y => some (y, mark :: rest)) hyear
  · have hyear : (year.natAbs : ℤ) = year := by omega
    rw [String.toList_append, toList_padded, List.append_assoc, readYear]
    show (readDigits (digitsOf 4 year.natAbs ++ mark :: rest).length
      (digitsOf 4 year.natAbs ++ mark :: rest)).map _ = _
    rw [readDigits_digitsOf _ hmark]
    exact congrArg (fun y => some (y, mark :: rest)) hyear

/-! ### Dates -/

/-- The separators that a date may have. -/
def marks : List Char := ['-', '/']

/-- No separator of dates is a digit. -/
theorem isAsciiDigit_of_mem_marks {mark : Char} (h : mark ∈ marks) : isAsciiDigit mark = false := by
  rcases List.mem_pair.1 h with rfl | rfl <;> rfl

/-- No separator of dates is white space. -/
theorem isBlank_of_mem_marks {mark : Char} (h : mark ∈ marks) : isBlank mark = false := by
  rcases List.mem_pair.1 h with rfl | rfl <;> rfl

/-- A date as it is written, with a separator of one's choice. -/
def writtenWith (mark : Char) (d : Date) : List Char :=
  (writtenYear d.year).toList ++ mark :: (digitsOf 2 d.month ++ mark :: digitsOf 2 d.day)

/-- Dates are written with hyphens. -/
theorem toList_written (d : Date) : d.written.toList = d.writtenWith '-' := by
  simp [written, writtenWith, toList_padded]

/-- The characters of a date are digits, signs and separators. -/
theorem isBlank_of_mem_writtenWith {d : Date} {mark c : Char} (hmark : mark ∈ marks)
    (h : c ∈ d.writtenWith mark) : isBlank c = false := by
  have hdigits : ∀ {width n : ℕ}, c ∈ digitsOf width n → isBlank c = false := fun hc =>
    isBlank_of_isAsciiDigit (isAsciiDigit_digitsOf hc)
  have hyear : c ∈ (writtenYear d.year).toList → isBlank c = false := by
    intro hc
    rw [writtenYear] at hc
    split_ifs at hc
    · exact hdigits (toList_padded .. ▸ hc)
    all_goals
      rw [String.toList_append, toList_padded] at hc
      rcases List.mem_append.1 hc with hc | hc
      · obtain rfl := List.mem_singleton.1 hc
        rfl
      · exact hdigits hc
  simp only [writtenWith, List.mem_append, List.mem_cons] at h
  rcases h with h | rfl | h | rfl | h
  · exact hyear h
  · exact isBlank_of_mem_marks hmark
  · exact hdigits h
  · exact isBlank_of_mem_marks hmark
  · exact hdigits h

/-- A month fits into two places. -/
theorem month_lt (d : Date) : d.month < 10 ^ 2 := by
  have hmonth := d.month_mem
  omega

/-- A day fits into two places. -/
theorem day_lt (d : Date) : d.day < 10 ^ 2 := by
  have hday := d.valid.2.2.2
  have hmost : Calendar.daysInMonth d.year d.month ≤ 31 := by
    rw [Calendar.daysInMonth.eq_def]
    split <;> try split
    all_goals decide
  omega

/-- A date is put together again from its parts. -/
theorem ofParts?_self (d : Date) : ofParts? d.year d.month d.day = some d :=
  ofParts?_eq_some_iff.2 ⟨rfl, rfl, rfl⟩

/-- A date with these separators is read by a reader for them. -/
theorem readWith_writtenWith {mark : Char} (hmark : mark ∈ marks) (d : Date) :
    readWith mark id (d.writtenWith mark) = some d := by
  have hday : readPart (digitsOf 2 d.day) = some (d.day, []) := by
    simpa using readPart_digitsOf d.day_lt []
  rw [writtenWith, readWith, readYear_writtenYear _ (isAsciiDigit_of_mem_marks hmark)]
  simp only [Option.bind_eq_bind, Option.bind_some, id, readMark, if_pos,
    readPart_digitsOf d.month_lt, hday, ofParts?_self]

/-- A date with other separators is not: the year does not end with a separator. -/
theorem readWith_of_ne {mark other : Char} (hmark : mark ∈ marks) (hne : mark ≠ other)
    (d : Date) : readWith other id (d.writtenWith mark) = none := by
  rw [writtenWith, readWith, readYear_writtenYear _ (isAsciiDigit_of_mem_marks hmark)]
  simp only [Option.bind_eq_bind, Option.bind_some, id, readMark, if_neg hne, Option.bind_none]

/-- **A date is read back as it was written**, with hyphens or slashes and with white space around
it or none. -/
theorem readChars?_writtenWith {mark : Char} (hmark : mark ∈ marks) (d : Date)
    {front behind : List Char} (hfront : allBlank front = true) (hbehind : allBlank behind = true) :
    readChars? (front ++ d.writtenWith mark ++ behind) = some d := by
  have htrim : trim (front ++ d.writtenWith mark ++ behind) = d.writtenWith mark := by
    rw [trim_append_of_allBlank hbehind, trim, trimStart_append_of_allBlank hfront, ← trim,
      trim_of_forall fun _ => isBlank_of_mem_writtenWith hmark]
  rw [readChars?, htrim]
  rcases List.mem_pair.1 hmark with rfl | rfl
  · rw [readWith_writtenWith hmark, Option.some_or]
  · rw [readWith_of_ne hmark (by decide), readWith_writtenWith hmark, Option.none_or]

/-- The text is a date as it is written, or with slashes, and perhaps with white space around it. -/
def SpelledBy (d : Date) (s : String) : Prop :=
  ∃ mark ∈ marks, ∃ front behind, allBlank front = true ∧ allBlank behind = true ∧
    s.toList = front ++ d.writtenWith mark ++ behind

/-- A date is spelled by its usual form. -/
theorem spelledBy_written (d : Date) : d.SpelledBy d.written :=
  ⟨'-', by decide, [], [], rfl, rfl, by rw [toList_written, List.nil_append, List.append_nil]⟩

/-- Whatever spells a date is read as that date. -/
theorem read?_of_spelledBy {d : Date} {s : String} (h : d.SpelledBy s) : read? s = some d := by
  obtain ⟨mark, hmark, front, behind, hfront, hbehind, hs⟩ := h
  rw [read?, hs, readChars?_writtenWith hmark d hfront hbehind]

example : read? " +262142/12/31\n" = some ⟨262142, 12, 31, by decide⟩ := by decide +kernel

/-- The usual form of a date is read back. -/
theorem read?_written (d : Date) : read? d.written = some d :=
  read?_of_spelledBy d.spelledBy_written

/-- White space around a date makes no difference. -/
theorem read?_trimmed (s : String) : read? (trimmed s) = read? s := by
  rw [read?, read?, readChars?, readChars?, trimmed, String.toList_ofList, trim_trim]

end Date

end Archivist
