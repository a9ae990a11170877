import Archivist.Proofs.Plan.Merging
import Archivist.Proofs.Plan.Relaxing

/-!
# Ranges of Merged Plans

A range of dates contains a date unless its ends cross. Hints are filled in end by end, so a call
that gives one end of its range is given the other by the hints, and ends that come from different
ranges may cross: `ToolCall.Crosses` says when. Hints themselves are not mixed in this way, since
`Hints.orElse` takes over a range whole or not at all.

Dates travel as text. What a merge fills in, what a forced search asks for and what a correction has
moved is read back by the tool as the date that was meant (`ToolCall.Dated`, `ToolCall.Gives`).

## Main results

* `DateRange.satisfiable_iff`: a range contains a date unless its ends cross.
* `ToolRequest.range_eq_ok_iff`: the range of a request is the one that the arguments give.
* `Plan.satisfiable_merge_iff`: a merged call has a range that contains a date unless an end that is
  filled in crosses the end that the call gives.
* `Plan.dates_read_back`: dates survive the trip through the arguments of tools.
-/

namespace Archivist

namespace DateRange

variable {r : DateRange}

/-- The range contains a date. -/
def Satisfiable (r : DateRange) : Prop := ∃ d, r.contains d = true

/-- A range contains a date unless its ends cross. -/
theorem satisfiable_iff : r.Satisfiable ↔
    ∀ first last, r.first = some first → r.last = some last → first ≤ last := by
  constructor
  · rintro ⟨d, hd⟩ first last hfirst hlast
    rw [contains_iff] at hd
    exact (hd.1 first hfirst).trans (hd.2 last hlast)
  · intro h
    cases hfirst : r.first with
    | some first =>
        refine ⟨first, contains_iff.2 ⟨fun d hd => ?_, fun last hlast => h first last hfirst hlast⟩⟩
        rw [hfirst, Option.some.injEq] at hd
        exact hd ▸ le_refl _
    | none =>
        cases hlast : r.last with
        | some last =>
            refine ⟨last, contains_iff.2 ⟨fun d hd => ?_, fun d hd => ?_⟩⟩
            · exact nomatch hfirst.symm.trans hd
            · rw [hlast, Option.some.injEq] at hd
              exact hd ▸ le_refl _
        | none =>
            refine ⟨⟨1970, 1, 1, by decide⟩, contains_iff.2 ⟨fun d hd => ?_, fun d hd => ?_⟩⟩
            · exact nomatch hfirst.symm.trans hd
            · exact nomatch hlast.symm.trans hd

/-- A range that contains no date admits no record. -/
theorem admits_of_not_satisfiable (h : ¬ r.Satisfiable) (record : Record) :
    r.admits record = false := by
  refine Bool.eq_false_iff.2 fun hadmits => h ?_
  rcases admits_iff.1 hadmits with hbounded | ⟨d, -, hd⟩
  · -- A range without ends contains every date.
    rw [isBounded, Bool.or_eq_false_iff, Option.isSome_eq_false_iff, Option.isNone_iff_eq_none]
      at hbounded
    exact satisfiable_iff.2 fun first _ hfirst =>
      absurd (hfirst.symm.trans hbounded.1) (Option.some_ne_none first)
  · exact ⟨d, hd⟩

end DateRange

/-! ### Dates in arguments -/

namespace ToolCall

variable {c c' : ToolCall} {tool : ToolName} {key : String} {d own hinted : Option Date} {h : Hints}

/-- The date that is read from an argument. -/
def GivesDate (c : ToolCall) (tool : ToolName) (key : String) (d : Option Date) : Prop :=
  ∃ value, c.arguments.text key = .ok value ∧ ToolRequest.readDate tool key value = .ok d

/-- The range of dates that is read from the arguments. -/
structure Gives (c : ToolCall) (tool : ToolName) (dates : DateRange) : Prop where
  first : c.GivesDate tool "date_from" dates.first
  last : c.GivesDate tool "date_to" dates.last

/-- The date that an argument gives depends on that argument alone. -/
theorem givesDate_congr (hget : c'.arguments.get? key = c.arguments.get? key) :
    c'.GivesDate tool key d ↔ c.GivesDate tool key d := by
  simp only [GivesDate, Members.text, Members.maybe, Members.read, hget]

/-- An argument that is a text gives the date that is read from it. -/
theorem givesDate_of_text {s : String} (hget : c.arguments.get? key = some (.str s)) :
    c.GivesDate tool key d ↔ ToolRequest.readDate tool key (some s) = .ok d := by
  have htext : c.arguments.text key = .ok (some s) := by
    rw [Members.text, Members.maybe, Members.read, hget]
    rfl
  simp [GivesDate, htext]

/-- An argument that is missing or null gives no date. -/
theorem givesDate_iff_of_not_has (hhas : c.has key = false) :
    c.GivesDate tool key d ↔ d = none := by
  have htext : c.arguments.text key = .ok none := by
    rw [Members.text, Members.maybe, Members.read]
    cases hget : c.arguments.get? key with
    | none => rfl
    | some v =>
        rw [has, hget] at hhas
        cases v <;> first | rfl | cases hhas
  simp [GivesDate, htext, ToolRequest.readDate, eq_comm]

/-- **A date that is filled in is the date that is read**, and a date that the call gives is read as
before. -/
theorem givesDate_fillHints (hc : c.tool? = some tool) (hown : c.GivesDate tool key own)
    (hoffer : h.offer? tool key = hinted.map Date.written) :
    (c.fillHints h).GivesDate tool key (if c.has key then own else hinted) := by
  have hget := get?_fillHints h hc key
  cases hhas : c.has key with
  | true =>
      rw [if_neg (by simp [hhas])] at hget
      exact (givesDate_congr hget).2 hown
  | false =>
      rw [if_pos hhas, hoffer] at hget
      cases hinted with
      | none => exact (givesDate_congr hget).2 ((givesDate_iff_of_not_has hhas).2 rfl)
      | some d =>
          exact (givesDate_of_text hget).2 (ToolRequest.readDate_written tool key (some d))

/-- The range that a call has with these dates once others have been filled in. -/
def mixed (c : ToolCall) (own hinted : DateRange) : DateRange where
  first := if c.has "date_from" then own.first else hinted.first
  last := if c.has "date_to" then own.last else hinted.last

/-- A call that hints fill in gives the mixture of its own range and that of the hints. -/
theorem gives_fillHints (hc : c.tool? = some tool) (ht : tool ∈ Plan.dateTools) {own : DateRange}
    (hown : c.Gives tool own) : (c.fillHints h).Gives tool (c.mixed own h.dates) where
  first := givesDate_fillHints hc hown.first (by simp [Hints.offer?, ht])
  last := givesDate_fillHints hc hown.last (by simp [Hints.offer?, ht])

/-- An end that is filled in lies beyond the end that the call gives. -/
def Crosses (c : ToolCall) (own hinted : DateRange) : Prop :=
  (∃ first last, own.first = some first ∧ hinted.last = some last ∧ c.has "date_to" = false ∧
    last < first) ∨
  ∃ first last, hinted.first = some first ∧ own.last = some last ∧ c.has "date_from" = false ∧
    last < first

/-- **Two ranges with a date each are mixed into one with a date** unless their ends cross. -/
theorem Gives.satisfiable_mixed_iff {own hinted : DateRange} (hgives : c.Gives tool own)
    (hown : own.Satisfiable) (hhinted : hinted.Satisfiable) :
    (c.mixed own hinted).Satisfiable ↔ ¬ c.Crosses own hinted := by
  rw [DateRange.satisfiable_iff] at hown hhinted ⊢
  have hfirst (hhas : c.has "date_from" = false) : own.first = none :=
    (givesDate_iff_of_not_has hhas).1 hgives.first
  have hlast (hhas : c.has "date_to" = false) : own.last = none :=
    (givesDate_iff_of_not_has hhas).1 hgives.last
  have hle {first last : Date} : first ≤ last ↔ ¬ last < first := Int.not_lt.symm
  cases hfrom : c.has "date_from" <;> cases hto : c.has "date_to"
  · -- The call gives no dates: its range is the hinted one.
    simpa [mixed, Crosses, hfrom, hto, hfirst hfrom, hlast hto] using hhinted
  · simp only [mixed, Crosses, hfrom, hto, hle]
    grind
  · simp only [mixed, Crosses, hfrom, hto, hle]
    grind
  · -- The call gives both: its range stays.
    simpa [mixed, Crosses, hfrom, hto] using hown

end ToolCall

namespace ToolRequest

variable {r : ToolRequest} {c : ToolCall} {dates : DateRange}

/-- **The range of a request is the one that the arguments of the call give.** -/
theorem range_eq_ok_iff (ht : r.tool ∈ Plan.dateTools) (hr : ofCall c = .ok r) :
    r.range = .ok dates ↔ c.Gives r.tool dates := by
  obtain ⟨-, hparts⟩ := ofCall_eq_ok_iff.1 hr
  obtain ⟨hfrom, hto⟩ := texts_of_ofParts ht hparts
  have hfirst : c.GivesDate r.tool "date_from" dates.first ↔
      readDate r.tool "date_from" r.dates.1 = .ok dates.first := by
    simp [ToolCall.GivesDate, hfrom]
  have hlast : c.GivesDate r.tool "date_to" dates.last ↔
      readDate r.tool "date_to" r.dates.2 = .ok dates.last := by
    simp [ToolCall.GivesDate, hto]
  constructor
  · intro h
    obtain ⟨first, hd, h⟩ := bind_eq_ok_iff.1 h
    obtain ⟨last, hd', ⟨⟩⟩ := bind_eq_ok_iff.1 h
    exact ⟨hfirst.2 hd, hlast.2 hd'⟩
  · rintro ⟨hd, hd'⟩
    exact bind_eq_ok_iff.2 ⟨_, hfirst.1 hd, bind_eq_ok_iff.2 ⟨_, hlast.1 hd', rfl⟩⟩

end ToolRequest

namespace Plan

variable {p : Plan} {h : Hints} {i : ℕ} {c : ToolCall} {tool : ToolName} {own : DateRange}

/-- Merging hints into a plan fills in each call at its place. -/
theorem getElem?_merge (question : String) (hc : p.calls[i]? = some c) :
    (p.merge h question).calls[i]? = some (c.fillHints h) := by
  rw [calls_merge, List.getElem?_append_left, List.getElem?_map, hc, Option.map_some]
  rw [List.length_map]
  exact (List.getElem?_eq_some_iff.1 hc).1

/-- **When a merged call can find something.** A call to a tool that takes dates gives a range, and
so do the hints, and both contain a date. The merged call has the range that its requests run with;
it contains a date unless an end that is filled in crosses the end that the call gives, and then no
record is admitted. -/
theorem satisfiable_merge_iff (question : String) (hc : p.calls[i]? = some c)
    (htool : c.tool? = some tool) (ht : tool ∈ dateTools) (hgives : c.Gives tool own)
    (hown : own.Satisfiable) (hhints : h.dates.Satisfiable) :
    ∃ c' merged, (p.merge h question).calls[i]? = some c' ∧ c'.Gives tool merged ∧
      (∀ r, ToolRequest.ofCall c' = .ok r → r.range = .ok merged) ∧
      (merged.Satisfiable ↔ ¬ c.Crosses own h.dates) ∧
      (c.Crosses own h.dates → ∀ record, merged.admits record = false) := by
  have hmerged : (c.fillHints h).Gives tool (c.mixed own h.dates) :=
    ToolCall.gives_fillHints htool ht hgives
  have hiff := hgives.satisfiable_mixed_iff hown hhints
  refine ⟨c.fillHints h, c.mixed own h.dates, getElem?_merge question hc, hmerged, fun r hr => ?_,
    hiff, fun hcross => DateRange.admits_of_not_satisfiable fun hsat => hiff.1 hsat hcross⟩
  have heq : tool = r.tool := Option.some.inj <|
    ((c.tool?_fillHints h).trans htool).symm.trans (ToolRequest.ofCall_eq_ok_iff.1 hr).1
  subst heq
  exact (ToolRequest.range_eq_ok_iff ht hr).2 hmerged

/-- A search for what there is since a day. -/
def searchSince (d : Date) : ToolCall :=
  ⟨"search_documents", [("date_from", .str d.written), ("query", .str "道路")]⟩

/-- A search since a day is a search for documents. -/
theorem tool?_searchSince (d : Date) : (searchSince d).tool? = some .searchDocuments :=
  ToolCall.tool?_ofTool .searchDocuments [("date_from", .str d.written), ("query", .str "道路")]

/-- It gives this day as the first, and no last day. -/
theorem gives_searchSince (d : Date) :
    (searchSince d).Gives .searchDocuments ⟨some d, none⟩ where
  first := (ToolCall.givesDate_of_text rfl).2 (ToolRequest.readDate_written _ _ (some d))
  last := (ToolCall.givesDate_iff_of_not_has rfl).2 rfl

/-- A range without a last day contains a date. -/
theorem satisfiable_since (d : Date) : DateRange.Satisfiable ⟨some d, none⟩ :=
  DateRange.satisfiable_iff.2 fun _ _ _ hlast => nomatch hlast

/-- The year 2024. -/
def year2024 : DateRange := ⟨some ⟨2024, 1, 1, by decide⟩, some ⟨2024, 12, 31, by decide⟩⟩

/-- The year contains a date. -/
theorem satisfiable_year2024 : year2024.Satisfiable :=
  ⟨⟨2024, 6, 1, by decide⟩, by decide⟩

/-- A day before that year. -/
def june2023 : Date := ⟨2023, 6, 1, by decide⟩

/-- A day after it. -/
def june2025 : Date := ⟨2025, 6, 1, by decide⟩

/-- A search since June 2025 is given the end of the year before, and finds nothing. -/
theorem crossed_merge : ∃ c' r,
    (searchSince june2025).Gives .searchDocuments ⟨some june2025, none⟩ ∧
    DateRange.Satisfiable ⟨some june2025, none⟩ ∧ year2024.Satisfiable ∧
    (merge ⟨"", [searchSince june2025]⟩ { dates := year2024 } "道路").calls = [c'] ∧
    ToolRequest.ofCall c' = .ok r ∧ r.range = .ok ⟨some june2025, year2024.last⟩ ∧
    ¬ DateRange.Satisfiable ⟨some june2025, year2024.last⟩ := by
  have htool := tool?_searchSince june2025
  have hmerged := ToolCall.gives_fillHints (h := { dates := year2024 }) htool (by decide)
    (gives_searchSince june2025)
  have hcalls : (merge ⟨"", [searchSince june2025]⟩ { dates := year2024 } "道路").calls =
      [(searchSince june2025).fillHints { dates := year2024 }] := by
    have haddresses : addresses ⟨"", [searchSince june2025]⟩ dateTools = true :=
      addresses_of_mem List.mem_cons_self htool (by decide) ""
    rw [calls_merge, added, haddresses]
    rfl
  obtain ⟨r, hr⟩ : ∃ r,
      ToolRequest.ofCall ((searchSince june2025).fillHints { dates := year2024 }) = .ok r := by
    refine ToolCall.accepted_fillHints (r := .searchDocuments ⟨"道路", [], some june2025.written,
      none, none, none, none, none, none, none⟩) ?_ ?_ fun _ => rfl
    · decide
    · rw [ToolCall.ofCall_of_tool? htool]
      rfl
  have ht : r.tool = .searchDocuments := Option.some.inj <|
    (ToolRequest.ofCall_eq_ok_iff.1 hr).1.symm.trans ((ToolCall.tool?_fillHints _ _).trans htool)
  refine ⟨_, r, gives_searchSince june2025, satisfiable_since june2025, satisfiable_year2024,
    hcalls, hr, ?_, fun hsat => ?_⟩
  · rw [ToolRequest.range_eq_ok_iff (ht ▸ by decide) hr, ht]
    exact hmerged
  · exact absurd (DateRange.satisfiable_iff.1 hsat _ _ rfl rfl) (by decide)

/-- A search since June 2023 is given the end of the year after, and can find something. -/
theorem satisfiable_merge_since : ∃ c' merged,
    (merge ⟨"", [searchSince june2023]⟩ { dates := year2024 } "道路").calls[0]? = some c' ∧
      c'.Gives .searchDocuments merged ∧ merged.Satisfiable := by
  obtain ⟨c', merged, hc', hmerged, -, hiff, -⟩ := satisfiable_merge_iff
    (p := ⟨"", [searchSince june2023]⟩) (h := { dates := year2024 }) (i := 0) "道路" rfl
    (tool?_searchSince june2023) (by decide) (gives_searchSince june2023)
    (satisfiable_since june2023) satisfiable_year2024
  refine ⟨c', merged, hc', hmerged, hiff.2 ?_⟩
  rintro (⟨first, last, hfirst, hlast, -, hlt⟩ | ⟨first, last, -, hlast, -⟩)
  · cases hfirst
    cases hlast
    exact absurd hlt (by decide)
  · cases hlast

end Plan

/-! ### Dates that are read back -/

namespace ToolCall

variable {c c' : ToolCall} {tool : ToolName} {key k : String} {h : Hints}

/-- Setting a date leaves the other arguments alone. -/
theorem get?_setDate_of_ne (hk : key ≠ k) (c : ToolCall) (d : Option Date) :
    (c.setDate k d).arguments.get? key = c.arguments.get? key := by
  cases d with
  | none => exact (Members.updated_erase k c.arguments).other key hk
  | some d => exact (Members.updated_insert k (.str d.written) c.arguments).other key hk

/-- A date that is set is read back, and so is none. -/
theorem givesDate_setDate (c : ToolCall) (tool : ToolName) (key : String) (d : Option Date) :
    (c.setDate key d).GivesDate tool key d := by
  cases d with
  | none =>
      refine (givesDate_iff_of_not_has ?_).2 rfl
      rw [setDate, has, get?_without]
      rfl
  | some d =>
      exact (givesDate_of_text (get?_set c key _)).2
        (ToolRequest.readDate_written tool key (some d))

/-- A call gives the range of dates that it is given. -/
theorem gives_withDates (c : ToolCall) (tool : ToolName) (r : DateRange) :
    (c.withDates r).Gives tool r where
  first := (givesDate_congr (get?_setDate_of_ne (by decide) _ r.last)).2
    (givesDate_setDate c tool "date_from" r.first)
  last := givesDate_setDate _ tool "date_to" r.last

/-- The call with dates filled in: a tool that takes dates reads back those that the call did not
give, and whatever else stands there stays. -/
structure Dated (dates : DateRange) (c c' : ToolCall) : Prop where
  tool?_eq : c'.tool? = c.tool?
  first : ∀ tool ∈ Plan.dateTools, c.tool? = some tool → c.has "date_from" = false →
    c'.GivesDate tool "date_from" dates.first
  last : ∀ tool ∈ Plan.dateTools, c.tool? = some tool → c.has "date_to" = false →
    c'.GivesDate tool "date_to" dates.last
  kept : ∀ key ∈ ["date_from", "date_to"],
    (c.has key = true ∨ ∀ tool ∈ Plan.dateTools, c.tool? ≠ some tool) →
      c'.arguments.get? key = c.arguments.get? key

/-- A date that a call does not give is filled in and read back. -/
theorem givesDate_fillHints_of_not_has (hc : c.tool? = some tool) (hhas : c.has key = false)
    {hinted : Option Date} (hoffer : h.offer? tool key = hinted.map Date.written) :
    (c.fillHints h).GivesDate tool key hinted := by
  have hgives := givesDate_fillHints hc ((givesDate_iff_of_not_has hhas).2 rfl) hoffer
  rwa [if_neg (by rw [hhas]; decide)] at hgives

/-- Filling in hints gives a call the dates that it lacks, and changes none that it has. -/
theorem dated_fillHints (c : ToolCall) (h : Hints) : c.Dated h.dates (c.fillHints h) where
  tool?_eq := c.tool?_fillHints h
  first tool ht hc hhas := givesDate_fillHints_of_not_has hc hhas (by simp [Hints.offer?, ht])
  last tool ht hc hhas := givesDate_fillHints_of_not_has hc hhas (by simp [Hints.offer?, ht])
  kept key hkey hkept := by
    have hgains := c.gains_fillHints h
    cases hhas : c.has key with
    | true => exact hgains.kept key hhas
    | false =>
        have hnone : (c.tool?.bind fun tool => h.offer? tool key) = none := by
          have hother := hkept.resolve_left (by rw [hhas]; decide)
          have hname : key ≠ "name" := ne_of_mem_of_not_mem hkey (by decide)
          refine Option.bind_eq_none_iff.2 fun tool hc => ?_
          rw [Hints.offer?, if_neg fun ht => hother tool ht hc,
            if_neg fun hentity => hname hentity.2]
        rw [hgains.filled key hhas, hnone, Option.map_none, Option.none_or]

end ToolCall

/-- What comes out of a list was made from one of its elements. -/
theorem exists_of_mapM_eq_some {α β : Type} {f : α → Option β} {xs : List α} {ys : List β}
    (h : xs.mapM f = some ys) {y : β} (hy : y ∈ ys) : ∃ x ∈ xs, f x = some y := by
  induction xs generalizing ys with
  | nil =>
      cases h
      cases hy
  | cons x xs ih =>
      rw [List.mapM_cons] at h
      obtain ⟨z, hz, h⟩ := Option.bind_eq_some_iff.1 h
      obtain ⟨zs, hzs, ⟨⟩⟩ := Option.bind_eq_some_iff.1 h
      rcases List.mem_cons.1 hy with rfl | hy
      · exact ⟨x, List.mem_cons_self, hz⟩
      · obtain ⟨x', hx', hfx'⟩ := ih hzs hy
        exact ⟨x', List.mem_cons_of_mem x hx', hfx'⟩

/-- A correction moves the dates of calls that give some, and they are read back as moved. -/
theorem Correction.gives_of_mem_broaden {days : ℤ} {results : List ToolResult}
    {calls : List ToolCall} (h : broaden days results = some calls) {c' : ToolCall}
    (hc' : c' ∈ calls) : ∃ r ∈ results, ∃ tool ∈ Plan.dateTools, ∃ moved,
      r.call.tool? = some tool ∧ r.call.dates.broaden days = some moved ∧
        c'.tool? = some tool ∧ c'.Gives tool moved := by
  obtain ⟨tried, htried, rfl⟩ := Option.map_eq_some_iff.1 h
  obtain ⟨c'', hc'', rfl⟩ := List.mem_filterMap.1 hc'
  obtain ⟨c, hc, hbroadened⟩ := exists_of_mapM_eq_some htried hc''
  obtain ⟨r, hr, rfl⟩ := List.mem_map.1 hc
  obtain ⟨⟨tool, ht, htool⟩, -, moved, hmoved, rfl⟩ := broadened_eq_some_iff.1 hbroadened
  exact ⟨r, List.mem_of_mem_filter hr, tool, ht, moved, htool, hmoved,
    (agreeExcept_withDates r.call moved).tool?.trans htool, r.call.gives_withDates tool moved⟩

namespace Plan

variable {p : Plan} {h : Hints} {question : String}

/-- What a call that merging adds is about: the hinted dates, or no dates. -/
theorem forced_or_undated_of_mem_added {c : ToolCall} (hc : c ∈ p.added h question) :
    c ∈ forced question h ∨ c.has "date_from" = false ∧ c.has "date_to" = false := by
  rcases List.mem_append.1 hc with hc | hc
  · split_ifs at hc
    · exact .inl hc
    · cases hc
  · split_ifs at hc
    · cases hc
    · obtain ⟨entity, -, rfl⟩ := List.mem_map.1 hc
      refine .inr ⟨?_, ?_⟩ <;> rw [ToolCall.has, ToolCall.arguments_searchEntity] <;> rfl

/-- A call that is forced upon a plan gives the dates of the hints. -/
theorem gives_of_mem_forced {c : ToolCall} (hc : c ∈ forced question h) :
    c.Gives .searchDocuments h.dates := by
  obtain rfl := List.mem_singleton.1 hc
  have htool := ToolCall.tool?_searchFor question
  have hsearch : (ToolCall.searchFor question).fillDates h.dates =
      (ToolCall.searchFor question).fillHints h := by
    rw [ToolCall.fillHints_of_tool? h htool]
    rfl
  have hhas : ∀ key ∈ ["date_from", "date_to"],
      (ToolCall.searchFor question).has key = false := by
    intro key hkey
    rw [ToolCall.has, ToolCall.arguments_searchFor]
    rcases List.mem_pair.1 hkey with rfl | rfl <;> rfl
  have hdated := (ToolCall.searchFor question).dated_fillHints h
  rw [hsearch]
  exact ⟨hdated.first _ (by decide) htool (hhas _ (by decide)),
    hdated.last _ (by decide) htool (hhas _ (by decide))⟩

/-- The dates of hints in a merged plan: they are filled into the calls of the plan, and the calls
behind these have all of them or no dates. -/
structure CarriesDates (p : Plan) (h : Hints) (question : String) : Prop where
  merged : ∀ (i : ℕ) (c : ToolCall), p.calls[i]? = some c →
    ∃ c', (p.merge h question).calls[i]? = some c' ∧ c.Dated h.dates c'
  added : ∀ c ∈ (p.merge h question).calls.drop p.calls.length,
    c ∈ forced question h ∨ c.has "date_from" = false ∧ c.has "date_to" = false
  forced : ∀ c ∈ forced question h,
    c.tool? = some .searchDocuments ∧ c.Gives .searchDocuments h.dates

/-- A plan that is merged with hints carries their dates. -/
theorem carriesDates (p : Plan) (h : Hints) (question : String) : p.CarriesDates h question where
  merged _ c hc := ⟨c.fillHints h, getElem?_merge question hc, c.dated_fillHints h⟩
  added c hc := by
    rw [calls_merge, List.drop_left' (List.length_map _)] at hc
    exact forced_or_undated_of_mem_added hc
  forced c hc := ⟨tool?_of_mem_forced h question hc, gives_of_mem_forced hc⟩

/-- **Dates survive the trip through the arguments of tools.** Every date is read back as it is
written, with slashes, and with white space around it. So are the hinted dates that are merged into
a plan, those of a search that is forced, and the dates that a correction has moved. -/
theorem dates_read_back (p : Plan) (h : Hints) (question : String) (days : ℤ)
    (results : List ToolResult) :
    (∀ d : Date, d.SpelledBy d.written ∧ ∀ s, d.SpelledBy s →
      Date.read? s = some d ∧ ∀ tool key, ToolRequest.readDate tool key (some s) = .ok (some d)) ∧
    p.CarriesDates h question ∧
    ∀ calls, Correction.broaden days results = some calls → ∀ c' ∈ calls,
      ∃ r ∈ results, ∃ tool ∈ dateTools, ∃ moved, r.call.tool? = some tool ∧
        r.call.dates.broaden days = some moved ∧ c'.tool? = some tool ∧ c'.Gives tool moved := by
  refine ⟨fun d => ⟨d.spelledBy_written, fun s hs => ?_⟩, p.carriesDates h question,
    fun calls hcalls c' hc' => Correction.gives_of_mem_broaden hcalls hc'⟩
  have hread := Date.read?_of_spelledBy hs
  exact ⟨hread, fun tool key => ToolRequest.readDate_of_read? tool key hread⟩

/-- A search since the last day of the calendar fails and is made again since thirty days before. -/
theorem moved_last_day : ∃ c',
    Correction.broaden 30 [.failed (searchSince Correction.lastDay) "offline"] = some [c'] ∧
      c'.Gives .searchDocuments ⟨some ⟨262142, 12, 1, by decide⟩, none⟩ := by
  have hdates : (searchSince Correction.lastDay).dates.broaden 30 =
      some ⟨some ⟨262142, 12, 1, by decide⟩, none⟩ := by decide +kernel
  obtain ⟨c', hmoved⟩ : ∃ c',
      Correction.broadened 30 (searchSince Correction.lastDay) = some (some c') :=
    ⟨_, Correction.broadened_eq_some_iff.2 ⟨⟨.searchDocuments, by decide, tool?_searchSince _⟩,
      .inl (by decide +kernel), _, hdates, rfl⟩⟩
  have hcalls :
      Correction.broaden 30 [.failed (searchSince Correction.lastDay) "offline"] = some [c'] := by
    show ([searchSince Correction.lastDay].mapM (Correction.broadened 30)).map _ = _
    rw [List.mapM_cons, hmoved]
    rfl
  obtain ⟨r, hr, tool, -, moved, htool, hmoved, -, hgives⟩ :=
    (dates_read_back ⟨"", []⟩ {} "" 30 _).2.2 [c'] hcalls c' List.mem_cons_self
  obtain rfl := List.mem_singleton.1 hr
  obtain rfl := Option.some.inj (hmoved.symm.trans hdates)
  obtain rfl := Option.some.inj ((tool?_searchSince _).symm.trans htool)
  exact ⟨c', hcalls, hgives⟩

end Plan

end Archivist
