import Archivist.Proofs.Calendar.Date
import Archivist.Proofs.Plan.Correcting
import Archivist.Proofs.Store.Search
import Archivist.Proofs.Tool.Filter

/-!
# Corrections Relax Filters

A range of dates that is broadened admits all that it admitted before: an end that moves outward
admits more, and so does an end that leaves the calendar and is dropped. A range without ends also
admits records without a date. Dates are moved in the arguments of a call, as text; they are read
back as they were moved, so the request of the corrected call is that of the call with another range
(`Correction.ofCall_withDates`), or without its filter by a person or an agency.

## Main results

* `DateRange.admits_of_broaden`: a broadened range admits all that the range admits.
* `Correction.relaxes_filter`: what passes the filter of a call passes that of the corrected call,
  and no fewer records are counted.
-/

namespace Archivist

namespace DateRange

variable {r r' : DateRange} {days : ℤ} {d : Date} {record : Record}

/-- A range is broadened by moving both ends, the first one back and the last one forward. -/
theorem broaden_eq_some (h : r.broaden days = some r') : ∃ n, 0 ≤ n ∧
    r'.first = r.first.bind (·.shift (-n)) ∧ r'.last = r.last.bind (·.shift n) := by
  simp only [broaden] at h
  split at h
  · cases h
  · cases h
    exact ⟨max days 0, le_max_right _ _, rfl, rfl⟩

/-- A range with an end after broadening had one before. -/
theorem isBounded_of_broaden (h : r.broaden days = some r') (hbounded : r'.isBounded = true) :
    r.isBounded = true := by
  obtain ⟨n, -, hfirst, hlast⟩ := broaden_eq_some h
  rw [isBounded, hfirst, hlast] at hbounded
  rw [isBounded]
  cases hf : r.first with
  | some first => rfl
  | none =>
      cases hl : r.last with
      | some last => rfl
      | none =>
          rw [hf, hl] at hbounded
          cases hbounded

/-- An end that is moved outward keeps what is on its inner side. -/
theorem contains_of_broaden (h : r.broaden days = some r') (hd : r.contains d = true) :
    r'.contains d = true := by
  obtain ⟨n, hn, hfirst, hlast⟩ := broaden_eq_some h
  rw [contains_iff] at hd ⊢
  constructor
  · intro first' hfirst'
    rw [hfirst, Option.bind_eq_some_iff] at hfirst'
    obtain ⟨first, hf, hshift⟩ := hfirst'
    have hle := hd.1 first hf
    have hnumber := Date.dayNumber_of_shift hshift
    omega
  · intro last' hlast'
    rw [hlast, Option.bind_eq_some_iff] at hlast'
    obtain ⟨last, hl, hshift⟩ := hlast'
    have hle := hd.2 last hl
    have hnumber := Date.dayNumber_of_shift hshift
    omega

/-- **A broadened range admits all that the range admits.** -/
theorem admits_of_broaden (h : r.broaden days = some r') (hrecord : r.admits record = true) :
    r'.admits record = true := by
  rw [admits_iff] at hrecord ⊢
  cases hbounded : r'.isBounded with
  | false => exact .inl rfl
  | true =>
      rw [isBounded_of_broaden h hbounded] at hrecord
      obtain ⟨d, hdate, hd⟩ := hrecord.resolve_left Bool.false_ne_true.symm
      exact .inr ⟨d, hdate, contains_of_broaden h hd⟩

end DateRange

namespace Correction

variable {c c' : ToolCall} {days : ℤ} {r : ToolRequest} {dates : DateRange}

/-- The dates that a correction reads are those that the request reads. -/
theorem dates_of_range (ht : r.tool ∈ Plan.dateTools) (hr : ToolRequest.ofCall c = .ok r)
    (hrange : r.range = .ok dates) : c.dates = dates := by
  obtain ⟨-, hparts⟩ := ToolRequest.ofCall_eq_ok_iff.1 hr
  obtain ⟨hfrom, hto⟩ := ToolRequest.dates_of_ofParts ht hparts
  obtain ⟨hfirst, hlast⟩ := ToolRequest.readDates_eq_ok hrange
  have hdates : c.dates = ⟨dates.first, dates.last⟩ := by
    rw [← hfirst, ← hlast, ← hfrom, ← hto]
    rfl
  exact hdates

/-- Setting a date is setting an argument to its written form. -/
theorem arguments_setDate (c : ToolCall) (key : String) (d : Option Date) :
    (c.setDate key d).arguments =
      c.arguments.assign key ((d.map Date.written).map .str) := by
  cases d <;> rfl

/-- **A call with other dates** makes the same request with these dates. -/
theorem ofCall_withDates (hsorted : c.arguments.Sorted) (ht : r.tool ∈ Plan.dateTools)
    (hr : ToolRequest.ofCall c = .ok r) (dates : DateRange) :
    ToolRequest.ofCall (c.withDates dates) = .ok (r.withDates dates) := by
  obtain ⟨htool, hparts⟩ := ToolRequest.ofCall_eq_ok_iff.1 hr
  have hfrom := ToolRequest.ofParts_assign_date hsorted ht (by decide : "date_from" ∈ _) hparts
    (dates.first.map Date.written)
  have hto := ToolRequest.ofParts_assign_date (hsorted.assign _ _) ht (by decide : "date_to" ∈ _)
    hfrom (dates.last.map Date.written)
  have htool' : (c.withDates dates).tool? = some r.tool :=
    (agreeExcept_withDates c dates).tool?.trans htool
  rw [ToolRequest.ofCall, htool']
  show ToolRequest.ofParts r.tool (c.withDates dates).arguments = _
  rwa [ToolCall.withDates, arguments_setDate, arguments_setDate]

/-- A search without a sender or an assignee is relaxed. -/
theorem relaxedTo_of_unfiltered (hsorted : c.arguments.Sorted)
    (hr : ToolRequest.ofCall c = .ok r) (hrange : r.range = .ok dates)
    (h : unfiltered c = some c') : ∃ r', ToolRequest.ofCall c' = .ok r' ∧ r.RelaxedTo r' := by
  obtain ⟨htool, hparts⟩ := ToolRequest.ofCall_eq_ok_iff.1 hr
  rcases unfiltered_eq_some_iff.1 h with ⟨hc, -, rfl⟩ | ⟨hc, -, rfl⟩
  · cases r with
    | searchDocuments args =>
        obtain ⟨hargs, henough⟩ := ToolRequest.ofParts_searchDocuments_iff.1 hparts
        have hargs' := DocumentsArgs.ofJson_erase_sender hsorted hargs
        refine ⟨.searchDocuments { args with sender := none }, ToolRequest.ofCall_eq_ok_iff.2
          ⟨hc, ToolRequest.ofParts_searchDocuments_iff.2 ⟨hargs', henough⟩⟩, dates, dates, hrange,
          hrange, fun record hrecord => ?_⟩
        rw [DocumentFilter.admits, Bool.and_eq_true, Bool.and_eq_true] at hrecord ⊢
        exact ⟨⟨hrecord.1.1, rfl⟩, hrecord.2⟩
    | _ => cases htool.symm.trans hc
  · cases r with
    | searchDispatchOrders args =>
        have hargs := ToolRequest.ofParts_searchDispatchOrders_iff.1 hparts
        have hargs' := DispatchArgs.ofJson_erase_assignee hsorted hargs
        refine ⟨.searchDispatchOrders { args with assignee := none },
          ToolRequest.ofCall_eq_ok_iff.2
          ⟨hc, ToolRequest.ofParts_searchDispatchOrders_iff.2 hargs'⟩, dates, dates, hrange,
          hrange, fun record hrecord => ?_⟩
        rw [DispatchFilter.admits, Bool.and_eq_true, Bool.and_eq_true] at hrecord ⊢
        exact ⟨⟨hrecord.1.1, rfl⟩, hrecord.2⟩
    | _ => cases htool.symm.trans hc

/-- A request with broadened dates is relaxed. -/
theorem relaxedTo_of_broadened (hsorted : c.arguments.Sorted)
    (hr : ToolRequest.ofCall c = .ok r) (hrange : r.range = .ok dates)
    (h : broadened days c = some (some c')) :
    ∃ r', ToolRequest.ofCall c' = .ok r' ∧ r.RelaxedTo r' := by
  obtain ⟨⟨tool, ht, hc⟩, -, dates', hbroaden, rfl⟩ := broadened_eq_some_iff.1 h
  have htool : r.tool = tool := Option.some.inj
    ((ToolRequest.ofCall_eq_ok_iff.1 hr).1.symm.trans hc)
  have ht' : r.tool ∈ Plan.dateTools := htool ▸ ht
  rw [dates_of_range ht' hr hrange] at hbroaden
  exact ⟨_, ofCall_withDates hsorted ht' hr dates', ToolRequest.relaxedTo_withDates ht' hrange
    fun record => DateRange.admits_of_broaden hbroaden⟩

/-- **A correction by dates, sender or assignee relaxes the filter of a call.** The corrected call
makes a request, what passes the filter of the call passes its filter, and no fewer records are
counted. -/
theorem relaxes_filter (hsorted : c.arguments.Sorted) (hr : ToolRequest.ofCall c = .ok r)
    (hrange : r.range = .ok dates)
    (h : broadened days c = some (some c') ∨ unfiltered c = some c') :
    ∃ r', ToolRequest.ofCall c' = .ok r' ∧ r.RelaxedTo r' := by
  rcases h with h | h
  · exact relaxedTo_of_broadened hsorted hr hrange h
  · exact relaxedTo_of_unfiltered hsorted hr hrange h

/-- The last day of the calendar. -/
def lastDay : Date := ⟨262142, 12, 31, by decide⟩

/-- A count of what there is up to the last day. -/
def countToLastDay : ToolCall := ⟨"get_statistics", [("date_to", .str lastDay.written)]⟩

/-- The last day cannot be moved on; what is counted in its place is no less. -/
theorem relaxes_count : ∃ c' r, countToLastDay.arguments.Sorted ∧
    ToolRequest.ofCall countToLastDay = .ok r ∧ r.range = .ok ⟨none, some lastDay⟩ ∧
    broadened 1 countToLastDay = some (some c') ∧
    ∃ r', ToolRequest.ofCall c' = .ok r' ∧ r.RelaxedTo r' := by
  have htool : countToLastDay.tool? = some .getStatistics := by decide +kernel
  have hr : ToolRequest.ofCall countToLastDay =
      .ok (.getStatistics ⟨none, none, none, some lastDay.written⟩) :=
    ToolRequest.ofCall_eq_ok_iff.2 ⟨htool, rfl⟩
  have hrange : ToolRequest.range (.getStatistics ⟨none, none, none, some lastDay.written⟩) =
      .ok ⟨none, some lastDay⟩ := ToolRequest.readDates_written .getStatistics ⟨none, some lastDay⟩
  have hdates : countToLastDay.dates = ⟨none, some lastDay⟩ :=
    dates_of_range (by decide) hr hrange
  have hdays : 1 ≤ maxShift := by decide
  obtain ⟨dates', hbroaden⟩ := exists_broaden hdays countToLastDay.dates
  have hsorted : countToLastDay.arguments.Sorted := by decide
  have hlast : (countToLastDay.date? "date_to").isSome := by
    show countToLastDay.dates.last.isSome
    rw [hdates]
    rfl
  have h := broadened_eq_some_iff.2
    ⟨⟨.getStatistics, by decide, htool⟩, .inr hlast, dates', hbroaden, rfl⟩
  exact ⟨_, _, hsorted, hr, hrange, h, relaxes_filter hsorted hr hrange (.inl h)⟩

end Correction

end Archivist
