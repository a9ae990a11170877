import Archivist.Plan.Merge
import Archivist.Proofs.Tool.Request

/-!
# Hints in a Call

Hints are filled in where a call says nothing. What a call says stands, and what has been filled in
is not filled in again.

A call that makes a request goes on to make one, with a single exception: a search for entities may
be given its name under another key than the one that hints are filled in under, and then it has two
names and is refused.

## Main results

* `gains_fillHints`: hints are added and replace nothing.
* `fillHints_fillHints`: they are added once.
* `accepted_fillHints`, `refused_fillHints`: which calls go on to make a request.
-/

namespace Archivist

/-- What the hints have for an argument of a tool. -/
def Hints.offer? (h : Hints) (tool : ToolName) (key : String) : Option String :=
  if tool ∈ Plan.dateTools then
    if key = "date_from" then h.dates.first.map Date.written
    else if key = "date_to" then h.dates.last.map Date.written
    else none
  else if tool ∈ Plan.entityTools ∧ key = "name" then h.entity
  else none

namespace ToolCall

variable {c : ToolCall} {key k : String} {value : Option String} {h : Hints} {tool : ToolName}

/-! ### Filling in one argument -/

/-- An argument that is there is kept, and nothing is filled in for nothing. -/
theorem fill_eq_self (hfill : value = none ∨ c.has key = true) : c.fill key value = c := by
  rcases hfill with rfl | hhas
  · rfl
  · cases value with
    | none => rfl
    | some v => exact if_pos hhas

/-- An argument that is missing is set. -/
theorem fill_eq_set {v : String} (hhas : c.has key = false) :
    c.fill key (some v) = c.set key (.str v) := by
  simp [fill, hhas]

/-- Filling in does not change which tool is called. -/
@[simp] theorem name_fill (c : ToolCall) (key : String) (value : Option String) :
    (c.fill key value).name = c.name := by
  cases value with
  | none => rfl
  | some v =>
      simp only [fill]
      split <;> rfl

/-- What an argument is after something has been filled in. -/
theorem get?_fill (c : ToolCall) (key : String) (value : Option String) (k : String) :
    (c.fill key value).arguments.get? k =
      if c.has key = false ∧ key = k then (value.map .str).or (c.arguments.get? k)
      else c.arguments.get? k := by
  cases value with
  | none => simp [fill]
  | some v =>
      cases hhas : c.has key with
      | true => simp [fill_eq_self (.inr hhas)]
      | false => simp [fill_eq_set hhas, set, Members.get?_insert]

/-- The arguments that there are once something has been filled in. -/
theorem has_fill (c : ToolCall) (key : String) (value : Option String) (k : String) :
    (c.fill key value).has k = (c.has k || key = k && value.isSome) := by
  rw [has, get?_fill]
  by_cases hk : key = k
  · subst hk
    cases hhas : c.has key <;> cases value <;> simp_all [has, Json.isNull]
  · simp [hk, has]

/-- Filling in keeps arguments in order. -/
theorem sorted_fill (hc : c.arguments.Sorted) (key : String) (value : Option String) :
    (c.fill key value).arguments.Sorted := by
  cases value with
  | none => exact hc
  | some v =>
      cases hhas : c.has key with
      | true => rwa [fill_eq_self (.inr hhas)]
      | false =>
          rw [fill_eq_set hhas]
          exact hc.insert key _

/-- What has been filled in is not filled in again. -/
@[simp] theorem fill_fill (c : ToolCall) (key : String) (value : Option String) :
    (c.fill key value).fill key value = c.fill key value := by
  refine fill_eq_self ?_
  cases value with
  | none => exact .inl rfl
  | some v => exact .inr (by simp [has_fill])

/-! ### Filling in hints -/

/-- Dates that have been filled in are not filled in again. -/
theorem fillDates_fillDates (c : ToolCall) (dates : DateRange) :
    (c.fillDates dates).fillDates dates = c.fillDates dates := by
  have hfirst : ((c.fillDates dates).fill "date_from" (dates.first.map Date.written)) =
      c.fillDates dates := by
    refine fill_eq_self ?_
    cases hd : dates.first with
    | none => exact .inl rfl
    | some d => exact .inr (by simp [fillDates, has_fill, hd])
  rw [fillDates, hfirst, fillDates, fill_fill]

/-- Dates are filled in for a tool that takes dates, a name for one that looks for an entity, and
nothing for any other. -/
theorem fillHints_of_tool? (h : Hints) (hc : c.tool? = some tool) :
    c.fillHints h =
      if tool ∈ Plan.dateTools then c.fillDates h.dates
      else if tool ∈ Plan.entityTools then c.fill "name" h.entity
      else c := by
  cases tool <;> simp [fillHints, hc, Plan.dateTools, Plan.entityTools]

/-- A call of no tool gains nothing. -/
theorem fillHints_of_none (h : Hints) (hc : c.tool? = none) : c.fillHints h = c := by
  rw [fillHints, hc]

/-- Filling in dates does not change which tool is called. -/
@[simp] theorem name_fillDates (c : ToolCall) (dates : DateRange) :
    (c.fillDates dates).name = c.name := by
  rw [fillDates, name_fill, name_fill]

/-- Filling in hints does not change which tool is called. -/
@[simp] theorem name_fillHints (c : ToolCall) (h : Hints) : (c.fillHints h).name = c.name := by
  cases hc : c.tool? with
  | none => rw [fillHints_of_none h hc]
  | some tool =>
      rw [fillHints_of_tool? h hc]
      split_ifs <;> simp

/-- A call remains a call of its tool. -/
@[simp] theorem tool?_fillHints (c : ToolCall) (h : Hints) : (c.fillHints h).tool? = c.tool? := by
  rw [tool?, name_fillHints, tool?]

/-- **What the hints have filled in, they do not fill in again.** -/
theorem fillHints_fillHints (c : ToolCall) (h : Hints) :
    (c.fillHints h).fillHints h = c.fillHints h := by
  cases hc : c.tool? with
  | none => rw [fillHints_of_none h hc, fillHints_of_none h hc]
  | some tool =>
      rw [fillHints_of_tool? h ((c.tool?_fillHints h).trans hc), fillHints_of_tool? h hc]
      split_ifs
      · exact c.fillDates_fillDates h.dates
      · exact c.fill_fill "name" h.entity
      · rfl

/-- A call that hints have been merged into: it calls what it called, what its arguments say stands,
and where they say nothing stands what the hints have for the tool, if anything. -/
structure Gains (h : Hints) (c c' : ToolCall) : Prop where
  name : c'.name = c.name
  kept : ∀ key, c.has key = true → c'.arguments.get? key = c.arguments.get? key
  filled : ∀ key, c.has key = false → c'.arguments.get? key =
    ((c.tool?.bind fun tool => h.offer? tool key).map .str).or (c.arguments.get? key)

/-- What an argument is after dates have been filled in. -/
theorem get?_fillDates (c : ToolCall) (dates : DateRange) (key : String) :
    (c.fillDates dates).arguments.get? key =
      if c.has key = false ∧ key = "date_from" then
        ((dates.first.map Date.written).map .str).or (c.arguments.get? key)
      else if c.has key = false ∧ key = "date_to" then
        ((dates.last.map Date.written).map .str).or (c.arguments.get? key)
      else c.arguments.get? key := by
  simp only [fillDates, get?_fill, has_fill]
  by_cases hfirst : key = "date_from"
  · subst hfirst
    simp
  · by_cases hlast : key = "date_to"
    · subst hlast
      simp
    · simp [hfirst, hlast, Ne.symm hfirst, Ne.symm hlast]

/-- What an argument is after the hints have been filled in. -/
theorem get?_fillHints (h : Hints) (hc : c.tool? = some tool) (key : String) :
    (c.fillHints h).arguments.get? key =
      if c.has key = false then ((h.offer? tool key).map .str).or (c.arguments.get? key)
      else c.arguments.get? key := by
  rw [fillHints_of_tool? h hc, Hints.offer?]
  by_cases hdates : tool ∈ Plan.dateTools
  · rw [if_pos hdates, if_pos hdates, get?_fillDates]
    by_cases hfirst : key = "date_from"
    · simp [hfirst]
    · by_cases hlast : key = "date_to" <;> simp [hfirst, hlast]
  · rw [if_neg hdates, if_neg hdates]
    by_cases hentity : tool ∈ Plan.entityTools
    · rw [if_pos hentity, get?_fill]
      by_cases hname : key = "name"
      · simp [hname, hentity]
      · simp [hname, Ne.symm hname]
    · simp [hentity]

/-- **Hints are added and never replace what a call says.** -/
theorem gains_fillHints (c : ToolCall) (h : Hints) : Gains h c (c.fillHints h) := by
  cases hc : c.tool? with
  | none =>
      rw [fillHints_of_none h hc]
      exact ⟨rfl, fun _ _ => rfl, fun _ _ => by simp [hc]⟩
  | some tool =>
      refine ⟨c.name_fillHints h, fun key hkey => ?_, fun key hkey => ?_⟩
      · rw [get?_fillHints h hc, if_neg (by simp [hkey])]
      · rw [get?_fillHints h hc, if_pos hkey, hc, Option.bind_some]

/-! ### Calls that are made for hints -/

/-- A call of a tool is a call of that tool. -/
@[simp] theorem tool?_ofTool (tool : ToolName) (arguments : Members) :
    (ofTool tool arguments).tool? = some tool := by
  show ToolName.read? tool.word = some tool
  cases tool <;> decide +kernel

/-- A search for a question is a search for documents. -/
@[simp] theorem tool?_searchFor (question : String) :
    (searchFor question).tool? = some .searchDocuments :=
  tool?_ofTool _ _

/-- A search for a question has the question for its query, and nothing else. -/
theorem arguments_searchFor (question : String) :
    (searchFor question).arguments = [("query", .str question)] := rfl

/-- A search for the entity of a hint. -/
def searchEntity (entity : String) : ToolCall := .ofTool .searchEntities [("name", .str entity)]

/-- A look for an entity is one by its tool. -/
@[simp] theorem tool?_searchEntity (entity : String) :
    (searchEntity entity).tool? = some .searchEntities :=
  tool?_ofTool _ _

/-- A look for an entity has the name, and nothing else. -/
theorem arguments_searchEntity (entity : String) :
    (searchEntity entity).arguments = [("name", .str entity)] := rfl

/-! ### Requests -/

/-- A call of a known tool is a request if its arguments say so. -/
theorem ofCall_of_tool? (hc : c.tool? = some tool) :
    ToolRequest.ofCall c = ToolRequest.ofParts tool c.arguments := by
  rw [ToolRequest.ofCall, hc]

/-- A call with something filled in is a call of the same tool. -/
@[simp] theorem tool?_fill (c : ToolCall) (key : String) (value : Option String) :
    (c.fill key value).tool? = c.tool? := by
  rw [tool?, name_fill, tool?]

/-- A call that makes a request goes on to make one when a date is filled in. -/
theorem accepted_fill_date {key : String} (hsorted : c.arguments.Sorted) (hc : c.tool? = some tool)
    (ht : tool ∈ Plan.dateTools) (hkey : key ∈ ToolRequest.dateKeys)
    (hr : ToolRequest.ofCall c = .ok r) (value : Option String) :
    ∃ r', ToolRequest.ofCall (c.fill key value) = .ok r' := by
  cases value with
  | none => exact ⟨r, hr⟩
  | some d =>
      cases hhas : c.has key with
      | true => exact ⟨r, by rwa [fill_eq_self (.inr hhas)]⟩
      | false =>
          rw [ofCall_of_tool? hc] at hr
          rw [ofCall_of_tool? ((c.tool?_fill key _).trans hc), fill_eq_set hhas]
          exact ToolRequest.ofParts_insert_date hsorted ht hkey hr d

/-- A call that makes a request goes on to make one when both dates are filled in. -/
theorem accepted_fillDates (hsorted : c.arguments.Sorted) (hc : c.tool? = some tool)
    (ht : tool ∈ Plan.dateTools) (hr : ToolRequest.ofCall c = .ok r) (dates : DateRange) :
    ∃ r', ToolRequest.ofCall (c.fillDates dates) = .ok r' := by
  obtain ⟨r', hr'⟩ := accepted_fill_date hsorted hc ht
    (show "date_from" ∈ ToolRequest.dateKeys by decide) hr (dates.first.map Date.written)
  exact accepted_fill_date (sorted_fill hsorted _ _) ((c.tool?_fill _ _).trans hc) ht
    (by decide) hr' _

/-- The call says whom it searches for, but not under the key that hints are filled in under. -/
def NamedElsewhere (c : ToolCall) : Prop :=
  c.tool? = some .searchEntities ∧ c.arguments.get? "name" = none

/-- A call that makes a request goes on to make one when a name is filled in, unless it names its
entity elsewhere. -/
theorem accepted_fill_name (hsorted : c.arguments.Sorted) (hc : c.tool? = some tool)
    (ht : tool ∈ Plan.entityTools) {entity : Option String} (hr : ToolRequest.ofCall c = .ok r)
    (hname : c.NamedElsewhere → entity = none) :
    ∃ r', ToolRequest.ofCall (c.fill "name" entity) = .ok r' := by
  cases entity with
  | none => exact ⟨r, hr⟩
  | some name =>
      cases hhas : c.has "name" with
      | true => exact ⟨r, by rwa [fill_eq_self (.inr hhas)]⟩
      | false =>
          have hparts := hr
          rw [ofCall_of_tool? hc] at hparts
          rw [ofCall_of_tool? ((c.tool?_fill _ _).trans hc), fill_eq_set hhas]
          rcases List.mem_pair.1 ht with rfl | rfl
          · -- The search has a name, and it is not null.
            obtain ⟨args, hargs, -⟩ := ToolRequest.map_eq_ok_iff.1 hparts
            cases hv : c.arguments.get? "name" with
            | none => exact absurd (hname ⟨hc, hv⟩) (Option.some_ne_none name)
            | some v =>
                have hnull := EntitiesArgs.isNull_of_ofJson
                  (ToolRequest.readArgs_eq_ok_iff.1 hargs) hv
                simp [has, hv, hnull] at hhas
          · exact ToolRequest.ofParts_insert_name hsorted hparts name

/-- **A call that makes a request goes on to make one** when the hints are filled in, unless they
have a name for a search that is given it under another key. -/
theorem accepted_fillHints (hsorted : c.arguments.Sorted) {h : Hints}
    (hr : ToolRequest.ofCall c = .ok r) (hname : c.NamedElsewhere → h.entity = none) :
    ∃ r', ToolRequest.ofCall (c.fillHints h) = .ok r' := by
  cases hc : c.tool? with
  | none => exact ⟨r, by rwa [fillHints_of_none h hc]⟩
  | some tool =>
      rw [fillHints_of_tool? h hc]
      split_ifs with hdates hentity
      · exact accepted_fillDates hsorted hc hdates hr h.dates
      · exact accepted_fill_name hsorted hc hentity hr hname
      · exact ⟨r, hr⟩

/-- **A search for entities is refused** when a name is filled in beside the one that it gives under
another key. -/
theorem refused_fillHints (hsorted : c.arguments.Sorted) {h : Hints} {entity : String}
    (hr : ToolRequest.ofCall c = .ok r) (hname : c.NamedElsewhere) (he : h.entity = some entity) :
    ToolRequest.ofCall (c.fillHints h) = .error
      (.badArguments ToolName.searchEntities.word (Mismatch.repeated "name").message) := by
  obtain ⟨hc, hmissing⟩ := hname
  have hhas : c.has "name" = false := by simp [has, hmissing]
  rw [ofCall_of_tool? hc] at hr
  rw [ofCall_of_tool? ((c.tool?_fillHints h).trans hc), fillHints_of_tool? h hc,
    if_neg (by decide), if_pos (by decide), he, fill_eq_set hhas]
  exact ToolRequest.ofParts_insert_repeated hsorted hr hmissing entity

/-- A search for a question that is not blank makes a request. -/
theorem accepted_searchFor {question : String} (hq : Text.blank question = false) :
    ∃ r, ToolRequest.ofCall (searchFor question) = .ok r := by
  rw [ofCall_of_tool? (tool?_searchFor _), arguments_searchFor]
  have hargs : DocumentsArgs.ofJson (.obj [("query", .str question)]) =
      .ok ⟨question, [], none, none, none, none, none, none, none, none⟩ := rfl
  refine ⟨.searchDocuments ⟨question, [], none, none, none, none, none, none, none, none⟩,
    bind_eq_ok_iff.2 ⟨_, ToolRequest.readArgs_eq_ok_iff.2 hargs, ?_⟩⟩
  refine bind_eq_ok_iff.2 ⟨(), ToolRequest.orRefuse_eq_ok_iff.2 ?_, rfl⟩
  simp [hq]

/-- A look for an entity makes a request. -/
theorem accepted_searchEntity (entity : String) :
    ∃ r, ToolRequest.ofCall (searchEntity entity) = .ok r := by
  rw [ofCall_of_tool? (tool?_searchEntity _), arguments_searchEntity]
  have hargs : EntitiesArgs.ofJson (.obj [("name", .str entity)]) =
      .ok ⟨entity, none, none, none⟩ := rfl
  have hread : ToolRequest.readArgs EntitiesArgs.ofJson .searchEntities [("name", .str entity)] =
      .ok ⟨entity, none, none, none⟩ := ToolRequest.readArgs_eq_ok_iff.2 hargs
  exact ⟨.searchEntities ⟨entity, none, none, none⟩, ToolRequest.map_eq_ok_iff.2 ⟨_, hread, rfl⟩⟩

end ToolCall

end Archivist
