import Archivist.Proofs.Calendar.Date
import Archivist.Proofs.Text.Trim
import Archivist.Proofs.Tool.Request
import Archivist.Store.Corpus
import Archivist.Tool.Toolbox

/-!
# Filters of Requests

A request that takes dates asks the store for the records that pass a filter, or for a count of
records. The filter is made of the arguments and of the dates, once these are read. Dates that are
written as a date is written are read as that date (`ToolRequest.readDates_written`).

A request is relaxed by another if every record that passes the filter of the first passes that of
the second, or, for counts, if no corpus has fewer records to count.
-/

namespace Archivist

/-! ### Dates -/

namespace ToolRequest

variable {tool : ToolName} {key raw : String} {value first last : Option String} {d : Option Date}
  {dates : DateRange} {r : ToolRequest} {ms : Members}

/-- A blank date is none. -/
theorem readDate_of_blank (tool : ToolName) (key : String) (h : Text.blank raw = true) :
    readDate tool key (some raw) = .ok none := by
  rw [readDate, Option.map_some, Option.filter_some,
    if_neg (by simpa using Text.trimmed_of_blank h)]

/-- A text that is not blank is read as a date or refused. -/
theorem readDate_of_not_blank (tool : ToolName) (key : String) (h : Text.blank raw = false) :
    readDate tool key (some raw) = match Date.read? raw with
      | some date => .ok (some date)
      | none => .error (.badArguments tool.word s!"{key} is not a date: {Text.trimmed raw}") := by
  rw [readDate, Option.map_some, Option.filter_some,
    if_pos (by simpa using Text.trimmed_ne_empty h)]
  have htrimmed := Date.read?_trimmed raw
  cases hread : Date.read? raw with
  | none => simp only [htrimmed.trans hread]
  | some date => simp only [htrimmed.trans hread]

/-- A date that is read is that of its text, if there is one. -/
theorem readDate_eq_ok (h : readDate tool key value = .ok d) :
    (value.bind Text.unlessBlank).bind Date.read? = d := by
  cases value with
  | none =>
      cases h
      rfl
  | some raw =>
      rw [Option.bind_some, Text.unlessBlank]
      cases hblank : Text.blank raw with
      | true =>
          rw [readDate_of_blank tool key hblank] at h
          cases h
          rfl
      | false =>
          rw [readDate_of_not_blank tool key hblank] at h
          cases hread : Date.read? raw with
          | none =>
              rw [hread] at h
              cases h
          | some date =>
              rw [hread] at h
              cases h
              exact hread

/-- A text that is read as a date is not blank, so it is read as an argument as well. -/
theorem readDate_of_read? {s : String} {d : Date} (tool : ToolName) (key : String)
    (h : Date.read? s = some d) : readDate tool key (some s) = .ok (some d) := by
  have hblank : Text.blank s = false := by
    refine Bool.eq_false_iff.2 fun hblank => ?_
    rw [← Date.read?_trimmed, Text.trimmed_of_blank hblank] at h
    have hempty : Date.read? "" = none := by decide
    exact nomatch hempty.symm.trans h
  rw [readDate_of_not_blank tool key hblank, h]

/-- **A date that is written is read.** -/
theorem readDate_written (tool : ToolName) (key : String) (d : Option Date) :
    readDate tool key (d.map Date.written) = .ok d := by
  cases d with
  | none => rfl
  | some d => exact readDate_of_read? tool key d.read?_written

/-- Two dates that are read are those of their texts. -/
theorem readDates_eq_ok (h : readDates tool first last = .ok dates) :
    (first.bind Text.unlessBlank).bind Date.read? = dates.first ∧
      (last.bind Text.unlessBlank).bind Date.read? = dates.last := by
  obtain ⟨d, hd, h⟩ := bind_eq_ok_iff.1 h
  obtain ⟨d', hd', ⟨⟩⟩ := bind_eq_ok_iff.1 h
  exact ⟨readDate_eq_ok hd, readDate_eq_ok hd'⟩

/-- **Dates that are written are read.** -/
theorem readDates_written (tool : ToolName) (dates : DateRange) :
    readDates tool (dates.first.map Date.written) (dates.last.map Date.written) = .ok dates := by
  rw [readDates, readDate_written, readDate_written]
  rfl

/-- The dates of a request as they are read. -/
def range (r : ToolRequest) : Except Failure DateRange := readDates r.tool r.dates.1 r.dates.2

/-- The dates of a request are found in two of its arguments. -/
theorem dates_of_ofParts (ht : tool ∈ Plan.dateTools) (h : ofParts tool ms = .ok r) :
    (ms.get? "date_from").bind (·.str?) = r.dates.1 ∧
      (ms.get? "date_to").bind (·.str?) = r.dates.2 :=
  (texts_of_ofParts ht h).imp Members.str?_of_text Members.str?_of_text

/-! ### Relaxed requests -/

/-- With these dates each, what passes the first filter passes the second, and no corpus has fewer
records to count. -/
def RelaxesOn (dates dates' : DateRange) : ToolRequest → ToolRequest → Prop
  | .searchDocuments args, .searchDocuments args' => ∀ record,
      (args.filter dates).admits record = true → (args'.filter dates').admits record = true
  | .searchDispatchOrders args, .searchDispatchOrders args' => ∀ record,
      (args.filter dates).admits record = true → (args'.filter dates').admits record = true
  | .getStatistics args, .getStatistics args' => ∀ corpus : Corpus,
      (corpus.statistics (args.query dates)).total ≤
        (corpus.statistics (args'.query dates')).total
  | _, _ => False

/-- **The second request relaxes the first**, whatever the corpus: the dates of both can be read,
what passes the filter of the first passes that of the second, and no fewer records are counted. -/
def RelaxedTo (r r' : ToolRequest) : Prop :=
  ∃ dates dates', r.range = .ok dates ∧ r'.range = .ok dates' ∧ RelaxesOn dates dates' r r'

/-- The request with other dates. -/
def withDates (r : ToolRequest) (dates : DateRange) : ToolRequest :=
  (r.withDate "date_from" (dates.first.map Date.written)).withDate "date_to"
    (dates.last.map Date.written)

/-- A range that admits more relaxes a request. -/
theorem relaxedTo_withDates {dates' : DateRange} (ht : r.tool ∈ Plan.dateTools)
    (hrange : r.range = .ok dates)
    (h : ∀ record, dates.admits record = true → dates'.admits record = true) :
    r.RelaxedTo (r.withDates dates') := by
  have hread := readDates_written r.tool dates'
  cases r with
  | searchDocuments args =>
      refine ⟨dates, dates', hrange, hread, fun record hrecord => ?_⟩
      rw [DocumentFilter.admits_eq, Bool.and_eq_true, Bool.and_eq_true] at hrecord ⊢
      exact ⟨⟨h record hrecord.1.1, hrecord.1.2⟩, hrecord.2⟩
  | searchDispatchOrders args =>
      refine ⟨dates, dates', hrange, hread, fun record hrecord => ?_⟩
      rw [DispatchFilter.admits, Bool.and_eq_true] at hrecord ⊢
      exact ⟨hrecord.1, h record hrecord.2⟩
  | getStatistics args =>
      exact ⟨dates, dates', hrange, hread, fun corpus =>
        (List.monotone_filter_right _ h).length_le⟩
  | searchEntities | getEntityDetail | findSimilar => simp [tool, Plan.dateTools] at ht

end ToolRequest

end Archivist
