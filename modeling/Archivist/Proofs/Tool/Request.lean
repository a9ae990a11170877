import Archivist.Plan.Basic
import Archivist.Proofs.Json.Record
import Archivist.Tool.Request

/-!
# Arguments of Requests

Arguments are read member by member, so a date or a name that is filled in under a key without other
names leaves everything else as it was read (`DocumentsArgs.ofJson_assign_date` and its like), and a
request remains a request (`ToolRequest.ofParts_assign_date`, `ToolRequest.ofParts_insert_name`).
A search for entities takes its name under two keys, so a name that is filled in beside one of the
other key is refused (`ToolRequest.ofParts_insert_repeated`).
-/

namespace Archivist

namespace Shape

variable {shape : Shape} {slot : Slot}

/-- A key without another name stands for its slot alone. -/
theorem plain_of_aliases (hslot : shape.slot? slot.key = some slot)
    (haliases : ∀ s ∈ shape.slots, s.key = slot.key → s.aliases = []) : shape.Plain slot := by
  refine ⟨hslot, fun k s hs hkey => ?_⟩
  have hname := List.find?_some hs
  rw [haliases s (List.mem_of_find?_eq_some hs) hkey] at hname
  simpa [hkey, eq_comm] using hname

/-- A text under a plain key can always be filled in. -/
theorem gather_insert_string {ms out : Members} {key : String} (hms : ms.Sorted)
    (hkey : shape.Plain (.string key)) (h : shape.gather (.obj ms) = .ok out) (d : String) :
    ∃ out', shape.gather (.obj (ms.insert key (.str d))) = .ok out' ∧
      Members.Updated key (some (.str d)) out out' :=
  gather_insert hms hkey rfl h

/-- A text under a plain key can be set and, if it may be missing, taken out. -/
theorem gather_assign_string {ms out : Members} {key : String} (hms : ms.Sorted)
    (hkey : shape.Plain (.string key)) (hoptional : ∀ s ∈ shape.slots, s.key = key → s.optional)
    (h : shape.gather (.obj ms) = .ok out) (d : Option String) :
    ∃ out', shape.gather (.obj (ms.assign key (d.map .str))) = .ok out' ∧
      Members.Updated key (d.map .str) out out' := by
  refine gather_assign hms hkey hoptional (fun v hv => ?_) h
  obtain ⟨s, -, rfl⟩ := Option.map_eq_some_iff.1 hv
  rfl

/-- A text that is read under a plain key is the text that stands there. -/
theorem text_of_gather {ms out : Members} {key : String} {value : Option String}
    (hkey : shape.Plain (.string key)) (h : shape.gather (.obj ms) = .ok out)
    (htext : out.text key = .ok value) : ms.text key = .ok value := by
  obtain ⟨-, -, -, rfl⟩ := gather_eq_ok_iff.1 h
  have hout : (shape.named ms).get? key = ms.get? key := hkey.get?_named ms
  rwa [Members.text, Members.maybe, Members.read, hout] at htext

end Shape

namespace Members

/-- What is read as a text is a text, null, or nothing. -/
theorem str?_of_text {ms : Members} {key : String} {value : Option String}
    (h : ms.text key = .ok value) : (ms.get? key).bind (·.str?) = value := by
  rw [text, maybe, read] at h
  cases hv : ms.get? key with
  | none =>
      rw [hv] at h
      cases h
      rfl
  | some v =>
      rw [hv] at h
      cases v <;> cases h <;> rfl

end Members

/-- A text that is set is the text that is read. -/
theorem Members.Updated.text {ms ms' : Members} {key : String} {d : Option String}
    (h : Members.Updated key (d.map .str) ms ms') : ms'.text key = .ok d := by
  rw [Members.text, Members.maybe, Members.read, h.self]
  cases d <;> rfl

/-- A member that is filled in leaves the texts under other keys alone. -/
theorem Members.Updated.text_of_ne {ms ms' : Members} {key other : String} {v : Option Json}
    (h : Members.Updated key v ms ms') (hne : other ≠ key) : ms'.text other = ms.text other := by
  rw [Members.text, Members.maybe, Members.read, h.other _ hne]
  rfl

/-- The arguments that are dates. -/
def ToolRequest.dateKeys : List String := ["date_from", "date_to"]

variable {ms : Members} {key : String} {v : Json}

namespace DocumentsArgs

variable {args : DocumentsArgs}

/-- Which arguments a search for documents is read from. -/
theorem ofJson_eq_ok_iff : ofJson v = .ok args ↔ ∃ ms, shape.gather v = .ok ms ∧
    ms.read "query" "" Json.asString = .ok args.query ∧
    ms.read "keywords" [] (Json.asList Json.asString) = .ok args.keywords ∧
    ms.text "date_from" = .ok args.dateFrom ∧
    ms.text "date_to" = .ok args.dateTo ∧
    ms.text "sender" = .ok args.sender ∧
    ms.text "doc_type" = .ok args.docType ∧
    ms.maybe "limit" Json.asCount = .ok args.limit ∧
    ms.maybe "strategy" SearchStrategy.ofJson = .ok args.strategy ∧
    ms.maybe "expand" Json.asBool = .ok args.expand ∧
    ms.maybe "llm_rerank" Json.asBool = .ok args.judged := by
  cases args
  simp only [ofJson, bind_eq_ok_iff, Except.ok.injEq, mk.injEq]
  grind

/-- Dates have one name in a search for documents. -/
theorem plain_date (h : key ∈ ToolRequest.dateKeys) : shape.Plain (.string key) := by
  rcases List.mem_pair.1 h with rfl | rfl <;> exact Shape.plain_of_aliases rfl (by decide)

/-- The arguments with another date. -/
def withDate (args : DocumentsArgs) (key : String) (d : Option String) : DocumentsArgs :=
  if key = "date_from" then { args with dateFrom := d } else { args with dateTo := d }

/-- A date that is set changes nothing else. -/
theorem ofJson_assign_date (hms : ms.Sorted) (hkey : key ∈ ToolRequest.dateKeys)
    (h : ofJson (.obj ms) = .ok args) (d : Option String) :
    ofJson (.obj (ms.assign key (d.map .str))) = .ok (args.withDate key d) := by
  obtain ⟨out, hout, hargs⟩ := ofJson_eq_ok_iff.1 h
  have hoptional : ∀ s ∈ shape.slots, s.key = key → s.optional := by
    rcases List.mem_pair.1 hkey with rfl | rfl <;> decide
  obtain ⟨out', hout', hset⟩ :=
    Shape.gather_assign_string hms (plain_date hkey) hoptional hout d
  obtain ⟨hquery, hkeywords, hfrom, hto, hrest⟩ := hargs
  refine ofJson_eq_ok_iff.2 ⟨out', hout', ?_⟩
  rcases List.mem_pair.1 hkey with rfl | rfl
  · simp (disch := decide) only [Members.maybe, Members.read, hset.other, hset.text_of_ne]
      at hquery hkeywords hrest ⊢
    exact ⟨hquery, hkeywords, hset.text, hto, hrest⟩
  · simp (disch := decide) only [Members.maybe, Members.read, hset.other, hset.text_of_ne]
      at hquery hkeywords hrest ⊢
    exact ⟨hquery, hkeywords, hfrom, hset.text, hrest⟩

/-- A sender that is taken out changes nothing else. -/
theorem ofJson_erase_sender (hms : ms.Sorted) (h : ofJson (.obj ms) = .ok args) :
    ofJson (.obj (ms.erase "sender")) = .ok { args with sender := none } := by
  obtain ⟨out, hout, hargs⟩ := ofJson_eq_ok_iff.1 h
  have hplain : shape.Plain (.string "sender") := Shape.plain_of_aliases rfl (by decide)
  obtain ⟨out', hout', hset⟩ := Shape.gather_assign_string hms hplain (by decide) hout none
  obtain ⟨hquery, hkeywords, hfrom, hto, hsender, hrest⟩ := hargs
  refine ofJson_eq_ok_iff.2 ⟨out', hout', ?_⟩
  simp (disch := decide) only [Members.maybe, Members.read, hset.other, hset.text_of_ne]
    at hquery hkeywords hrest ⊢
  exact ⟨hquery, hkeywords, hfrom, hto, hset.text, hrest⟩

/-- The arguments with these keywords for all kinds of candidates, not to be widened again. -/
def withKeywords (args : DocumentsArgs) (keywords : List String) : DocumentsArgs :=
  { args with keywords, expand := some false, strategy := some .hybrid }

/-- A list of words is read back. -/
theorem mapM_asString (keywords : List String) :
    (keywords.map Json.str).mapM Json.asString = .ok keywords := by
  induction keywords with
  | nil => rfl
  | cons keyword rest ih =>
      rw [List.map_cons, List.mapM_cons, ih]
      rfl

/-- Keywords that are set are the keywords that are read. -/
theorem ofJson_insert_keywords (hms : ms.Sorted) (h : ofJson (.obj ms) = .ok args)
    (keywords : List String) :
    ofJson (.obj (((ms.insert "keywords" (.arr (keywords.map .str))).insert "expand"
      (.bool false)).insert "strategy" (.str "hybrid"))) = .ok (args.withKeywords keywords) := by
  obtain ⟨out, hout, hargs⟩ := ofJson_eq_ok_iff.1 h
  have hread : Json.asList Json.asString (.arr (keywords.map .str)) = .ok keywords :=
    mapM_asString keywords
  have hcheck : (Slot.strings "keywords").check (.arr (keywords.map .str)) = .ok () := by
    show (Json.asList Json.asString _).map _ = _
    rw [hread]
    rfl
  have hplain₁ : shape.Plain (.strings "keywords") := Shape.plain_of_aliases rfl (by decide)
  have hplain₂ : shape.Plain (.maybe "expand" Json.asBool) :=
    Shape.plain_of_aliases rfl (by decide)
  have hplain₃ : shape.Plain (.maybe "strategy" SearchStrategy.ofJson) :=
    Shape.plain_of_aliases rfl (by decide)
  obtain ⟨out₁, hout₁, hset₁⟩ := Shape.gather_insert hms hplain₁ hcheck hout
  obtain ⟨out₂, hout₂, hset₂⟩ := Shape.gather_insert (v := .bool false) (hms.insert _ _) hplain₂ rfl
    hout₁
  obtain ⟨out₃, hout₃, hset₃⟩ := Shape.gather_insert (v := .str "hybrid")
    ((hms.insert _ _).insert _ _) hplain₃ rfl hout₂
  have hself₁ : out₁.get? "keywords" = some (.arr (keywords.map .str)) := hset₁.self
  have hself₂ : out₂.get? "expand" = some (.bool false) := hset₂.self
  have hself₃ : out₃.get? "strategy" = some (.str "hybrid") := hset₃.self
  obtain ⟨hquery, -, hfrom, hto, hsender, htype, hlimit, -, -, hjudged⟩ := hargs
  refine ofJson_eq_ok_iff.2 ⟨out₃, hout₃, ?_⟩
  simp (disch := decide) only [Members.text, Members.maybe, Members.read, hset₁.other, hset₂.other,
    hset₃.other, hself₁, hself₂, hself₃] at hquery hfrom hto hsender htype hlimit hjudged ⊢
  exact ⟨hquery, hread, hfrom, hto, hsender, htype, hlimit, rfl, rfl, hjudged⟩

end DocumentsArgs

namespace DispatchArgs

variable {args : DispatchArgs}

/-- Which arguments a search for dispatch orders is read from. -/
theorem ofJson_eq_ok_iff : ofJson v = .ok args ↔ ∃ ms, shape.gather v = .ok ms ∧
    ms.text "query" = .ok args.query ∧
    ms.read "keywords" [] (Json.asList Json.asString) = .ok args.keywords ∧
    ms.text "status" = .ok args.status ∧
    ms.text "assignee" = .ok args.assignee ∧
    ms.text "date_from" = .ok args.dateFrom ∧
    ms.text "date_to" = .ok args.dateTo ∧
    ms.maybe "limit" Json.asCount = .ok args.limit := by
  cases args
  simp only [ofJson, bind_eq_ok_iff, Except.ok.injEq, mk.injEq]
  grind

/-- Dates have one name in a search for dispatch orders. -/
theorem plain_date (h : key ∈ ToolRequest.dateKeys) : shape.Plain (.string key) := by
  rcases List.mem_pair.1 h with rfl | rfl <;> exact Shape.plain_of_aliases rfl (by decide)

/-- The arguments with another date. -/
def withDate (args : DispatchArgs) (key : String) (d : Option String) : DispatchArgs :=
  if key = "date_from" then { args with dateFrom := d } else { args with dateTo := d }

/-- A date that is set or taken out changes nothing else. -/
theorem ofJson_assign_date (hms : ms.Sorted) (hkey : key ∈ ToolRequest.dateKeys)
    (h : ofJson (.obj ms) = .ok args) (d : Option String) :
    ofJson (.obj (ms.assign key (d.map .str))) = .ok (args.withDate key d) := by
  obtain ⟨out, hout, hargs⟩ := ofJson_eq_ok_iff.1 h
  have hoptional : ∀ s ∈ shape.slots, s.key = key → s.optional := by
    rcases List.mem_pair.1 hkey with rfl | rfl <;> decide
  obtain ⟨out', hout', hset⟩ :=
    Shape.gather_assign_string hms (plain_date hkey) hoptional hout d
  obtain ⟨hquery, hkeywords, hstatus, hassignee, hfrom, hto, hlimit⟩ := hargs
  refine ofJson_eq_ok_iff.2 ⟨out', hout', ?_⟩
  rcases List.mem_pair.1 hkey with rfl | rfl
  · simp (disch := decide) only [Members.maybe, Members.read, hset.other, hset.text_of_ne]
      at hkeywords hlimit ⊢
    exact ⟨hquery, hkeywords, hstatus, hassignee, hset.text, hto, hlimit⟩
  · simp (disch := decide) only [Members.maybe, Members.read, hset.other, hset.text_of_ne]
      at hkeywords hlimit ⊢
    exact ⟨hquery, hkeywords, hstatus, hassignee, hfrom, hset.text, hlimit⟩

/-- An assignee that is taken out changes nothing else. -/
theorem ofJson_erase_assignee (hms : ms.Sorted) (h : ofJson (.obj ms) = .ok args) :
    ofJson (.obj (ms.erase "assignee")) = .ok { args with assignee := none } := by
  obtain ⟨out, hout, hargs⟩ := ofJson_eq_ok_iff.1 h
  have hplain : shape.Plain (.string "assignee") := Shape.plain_of_aliases rfl (by decide)
  obtain ⟨out', hout', hset⟩ := Shape.gather_assign_string hms hplain (by decide) hout none
  obtain ⟨hquery, hkeywords, hstatus, hassignee, hrest⟩ := hargs
  refine ofJson_eq_ok_iff.2 ⟨out', hout', ?_⟩
  simp (disch := decide) only [Members.maybe, Members.read, hset.other, hset.text_of_ne]
    at hkeywords hrest ⊢
  exact ⟨hquery, hkeywords, hstatus, hset.text, hrest⟩

end DispatchArgs

namespace StatisticsArgs

variable {args : StatisticsArgs}

/-- Which arguments a count is read from. -/
theorem ofJson_eq_ok_iff : ofJson v = .ok args ↔ ∃ ms, shape.gather v = .ok ms ∧
    ms.maybe "record_kind" RecordKind.ofJson = .ok args.kind ∧
    ms.text "group_by" = .ok args.groupBy ∧
    ms.text "date_from" = .ok args.dateFrom ∧
    ms.text "date_to" = .ok args.dateTo := by
  cases args
  simp only [ofJson, bind_eq_ok_iff, Except.ok.injEq, mk.injEq]
  grind

/-- Dates have one name in a count. -/
theorem plain_date (h : key ∈ ToolRequest.dateKeys) : shape.Plain (.string key) := by
  rcases List.mem_pair.1 h with rfl | rfl <;> exact Shape.plain_of_aliases rfl (by decide)

/-- The arguments with another date. -/
def withDate (args : StatisticsArgs) (key : String) (d : Option String) : StatisticsArgs :=
  if key = "date_from" then { args with dateFrom := d } else { args with dateTo := d }

/-- A date that is set or taken out changes nothing else. -/
theorem ofJson_assign_date (hms : ms.Sorted) (hkey : key ∈ ToolRequest.dateKeys)
    (h : ofJson (.obj ms) = .ok args) (d : Option String) :
    ofJson (.obj (ms.assign key (d.map .str))) = .ok (args.withDate key d) := by
  obtain ⟨out, hout, hargs⟩ := ofJson_eq_ok_iff.1 h
  have hoptional : ∀ s ∈ shape.slots, s.key = key → s.optional := by
    rcases List.mem_pair.1 hkey with rfl | rfl <;> decide
  obtain ⟨out', hout', hset⟩ :=
    Shape.gather_assign_string hms (plain_date hkey) hoptional hout d
  obtain ⟨hkind, hgroup, hfrom, hto⟩ := hargs
  refine ofJson_eq_ok_iff.2 ⟨out', hout', ?_⟩
  rcases List.mem_pair.1 hkey with rfl | rfl
  · simp (disch := decide) only [Members.maybe, Members.read, hset.other, hset.text_of_ne]
      at hkind ⊢
    exact ⟨hkind, hgroup, hset.text, hto⟩
  · simp (disch := decide) only [Members.maybe, Members.read, hset.other, hset.text_of_ne]
      at hkind ⊢
    exact ⟨hkind, hgroup, hfrom, hset.text⟩

end StatisticsArgs

namespace DetailArgs

variable {args : DetailArgs}

/-- Which arguments a look at an entity is read from. -/
theorem ofJson_eq_ok_iff : ofJson v = .ok args ↔ ∃ ms, shape.gather v = .ok ms ∧
    ms.text "entity_id" = .ok args.entityId ∧ ms.text "name" = .ok args.name := by
  cases args
  simp only [ofJson, bind_eq_ok_iff, Except.ok.injEq, mk.injEq]
  grind

/-- Names have one key in a look at an entity. -/
theorem plain_name : shape.Plain (.string "name") := Shape.plain_of_aliases rfl (by decide)

/-- A name that is filled in is the name that is read. -/
theorem ofJson_insert_name (hms : ms.Sorted) (h : ofJson (.obj ms) = .ok args) (name : String) :
    ofJson (.obj (ms.insert "name" (.str name))) = .ok { args with name := some name } := by
  obtain ⟨out, hout, hargs⟩ := ofJson_eq_ok_iff.1 h
  obtain ⟨out', hout', hself, hother⟩ := Shape.gather_insert_string hms plain_name hout name
  refine ofJson_eq_ok_iff.2 ⟨out', hout', ?_⟩
  simp (disch := decide) only [Members.text, Members.maybe, Members.read, hself, hother] at hargs ⊢
  exact ⟨hargs.1, rfl⟩

end DetailArgs

namespace EntitiesArgs

variable {args : EntitiesArgs}

/-- **A name cannot be filled in** where one is given under its other key. -/
theorem ofJson_insert_repeated (hms : ms.Sorted) (h : ofJson (.obj ms) = .ok args)
    (hmissing : ms.get? "name" = none) (name : String) :
    ofJson (.obj (ms.insert "name" (.str name))) = .error (.repeated "name") := by
  obtain ⟨out, hout, -⟩ := bind_eq_ok_iff.1 h
  obtain ⟨-, -, hrequired, rfl⟩ := Shape.gather_eq_ok_iff.1 hout
  have hgiven : (shape.named ms).get? "name" ≠ none := fun hnone =>
    Members.get?_eq_none_iff.1 hnone (hrequired _ List.mem_cons_self rfl)
  have hslot : ∃ slot, shape.slot? "name" = some slot ∧ slot.key = "name" ∧
      slot.check (.str name) = .ok () := ⟨_, rfl, rfl, rfl⟩
  obtain ⟨slot, hslot, hkey, hcheck⟩ := hslot
  rw [ofJson, Shape.gather_insert_repeated hms hslot hkey hcheck hout hmissing hgiven]
  rfl

/-- A name that is given under its own key is text. -/
theorem isNull_of_ofJson (h : ofJson (.obj ms) = .ok args) (hv : ms.get? "name" = some v) :
    v.isNull = false := by
  obtain ⟨out, hout, -⟩ := bind_eq_ok_iff.1 h
  have hchecks := (Shape.gather_eq_ok_iff.1 hout).1
  have hcheck := hchecks _ (Members.mem_of_get? hv) _ rfl
  cases v with
  | str s => rfl
  | _ => cases hcheck

end EntitiesArgs

namespace ToolRequest

variable {tool : ToolName} {r : ToolRequest}

/-- The tools that take dates. -/
theorem mem_dateTools : tool ∈ Plan.dateTools ↔
    tool = .searchDocuments ∨ tool = .searchDispatchOrders ∨ tool = .getStatistics := by
  simp [Plan.dateTools]

/-- Arguments are accepted if they can be read. -/
theorem readArgs_eq_ok_iff {α : Type} {read : Json → Except Mismatch α} {a : α} :
    readArgs read tool ms = .ok a ↔ read (.obj ms) = .ok a := by
  rw [readArgs]
  cases read (.obj ms) with
  | error m => exact iff_of_false nofun nofun
  | ok a' => exact ⟨fun h => by cases h; rfl, fun h => by cases h; rfl⟩

/-- Arguments that are enough are not refused. -/
theorem orRefuse_eq_ok_iff {enough : Bool} {reason : String} {u : Unit} :
    orRefuse enough tool reason = .ok u ↔ enough = true := by
  cases enough with
  | false => exact iff_of_false nofun nofun
  | true => exact iff_of_true rfl rfl

/-- A value that is mapped comes from a value. -/
theorem map_eq_ok_iff {ε α β : Type} {x : Except ε α} {f : α → β} {b : β} :
    x.map f = .ok b ↔ ∃ a, x = .ok a ∧ f a = b := by
  cases x with
  | error e => exact iff_of_false nofun fun ⟨_, h, _⟩ => nomatch h
  | ok a => exact ⟨fun h => ⟨a, rfl, by cases h; rfl⟩, fun ⟨_, h, h'⟩ => by cases h; rw [← h']; rfl⟩

/-- A request is for the tool that it is read for. -/
theorem tool_of_ofParts (h : ofParts tool ms = .ok r) : r.tool = tool := by
  cases tool with
  | searchDocuments | getEntityDetail | findSimilar =>
      obtain ⟨args, -, h⟩ := bind_eq_ok_iff.1 h
      obtain ⟨-, -, ⟨⟩⟩ := bind_eq_ok_iff.1 h
      rfl
  | searchDispatchOrders | searchEntities | getStatistics =>
      obtain ⟨args, -, rfl⟩ := map_eq_ok_iff.1 h
      rfl

/-- A call is a request if its tool is known and its arguments are those of a request. -/
theorem ofCall_eq_ok_iff {c : ToolCall} :
    ofCall c = .ok r ↔ c.tool? = some r.tool ∧ ofParts r.tool c.arguments = .ok r := by
  rw [ofCall]
  cases htool : c.tool? with
  | none => exact iff_of_false nofun fun h => nomatch h.1
  | some tool =>
      refine ⟨fun h => ?_, ?_⟩
      · obtain rfl := tool_of_ofParts h
        exact ⟨rfl, h⟩
      · rintro ⟨⟨⟩, h⟩
        exact h

/-- A search for documents needs a query or a keyword. -/
theorem ofParts_searchDocuments_iff {args : DocumentsArgs} :
    ofParts .searchDocuments ms = .ok (.searchDocuments args) ↔
      DocumentsArgs.ofJson (.obj ms) = .ok args ∧
        (!Text.blank args.query || !args.keywords.isEmpty) = true := by
  constructor
  · intro h
    obtain ⟨args', hargs, h⟩ := bind_eq_ok_iff.1 h
    obtain ⟨u, henough, ⟨⟩⟩ := bind_eq_ok_iff.1 h
    exact ⟨readArgs_eq_ok_iff.1 hargs, orRefuse_eq_ok_iff.1 henough⟩
  · rintro ⟨hargs, henough⟩
    exact bind_eq_ok_iff.2 ⟨args, readArgs_eq_ok_iff.2 hargs,
      bind_eq_ok_iff.2 ⟨(), orRefuse_eq_ok_iff.2 henough, rfl⟩⟩

/-- A search for dispatch orders needs nothing. -/
theorem ofParts_searchDispatchOrders_iff {args : DispatchArgs} :
    ofParts .searchDispatchOrders ms = .ok (.searchDispatchOrders args) ↔
      DispatchArgs.ofJson (.obj ms) = .ok args := by
  refine map_eq_ok_iff.trans ⟨?_, fun h => ⟨args, readArgs_eq_ok_iff.2 h, rfl⟩⟩
  rintro ⟨args', hargs, ⟨⟩⟩
  exact readArgs_eq_ok_iff.1 hargs

/-- The request with another date. -/
def withDate : ToolRequest → String → Option String → ToolRequest
  | .searchDocuments args, key, d => .searchDocuments (args.withDate key d)
  | .searchDispatchOrders args, key, d => .searchDispatchOrders (args.withDate key d)
  | .getStatistics args, key, d => .getStatistics (args.withDate key d)
  | r, _, _ => r

/-- **A request for a tool that takes dates remains one** if a date is set or taken out, and nothing
but this date changes. -/
theorem ofParts_assign_date (hms : ms.Sorted) (ht : tool ∈ Plan.dateTools) (hkey : key ∈ dateKeys)
    (h : ofParts tool ms = .ok r) (d : Option String) :
    ofParts tool (ms.assign key (d.map .str)) = .ok (r.withDate key d) := by
  rcases mem_dateTools.1 ht with rfl | rfl | rfl
  · obtain ⟨args, hargs, h⟩ := bind_eq_ok_iff.1 h
    obtain ⟨u, henough, ⟨⟩⟩ := bind_eq_ok_iff.1 h
    have hargs' := DocumentsArgs.ofJson_assign_date hms hkey (readArgs_eq_ok_iff.1 hargs) d
    refine bind_eq_ok_iff.2 ⟨_, readArgs_eq_ok_iff.2 hargs', bind_eq_ok_iff.2 ⟨u, ?_, rfl⟩⟩
    rw [DocumentsArgs.withDate]
    split_ifs <;> exact henough
  · obtain ⟨args, hargs, rfl⟩ := map_eq_ok_iff.1 h
    have hargs' := DispatchArgs.ofJson_assign_date hms hkey (readArgs_eq_ok_iff.1 hargs) d
    exact map_eq_ok_iff.2 ⟨_, readArgs_eq_ok_iff.2 hargs', rfl⟩
  · obtain ⟨args, hargs, rfl⟩ := map_eq_ok_iff.1 h
    have hargs' := StatisticsArgs.ofJson_assign_date hms hkey (readArgs_eq_ok_iff.1 hargs) d
    exact map_eq_ok_iff.2 ⟨_, readArgs_eq_ok_iff.2 hargs', rfl⟩

/-- A date can be filled in for every tool that takes dates. -/
theorem ofParts_insert_date (hms : ms.Sorted) (ht : tool ∈ Plan.dateTools) (hkey : key ∈ dateKeys)
    (h : ofParts tool ms = .ok r) (d : String) :
    ∃ r', ofParts tool (ms.insert key (.str d)) = .ok r' :=
  ⟨_, ofParts_assign_date hms ht hkey h (some d)⟩

/-- **A look at an entity remains one** if the name is filled in. -/
theorem ofParts_insert_name (hms : ms.Sorted) (h : ofParts .getEntityDetail ms = .ok r)
    (name : String) : ∃ r', ofParts .getEntityDetail (ms.insert "name" (.str name)) = .ok r' := by
  obtain ⟨args, hargs, -⟩ := bind_eq_ok_iff.1 h
  have hargs' := DetailArgs.ofJson_insert_name hms (readArgs_eq_ok_iff.1 hargs) name
  refine ⟨.getEntityDetail { args with name := some name },
    bind_eq_ok_iff.2 ⟨_, readArgs_eq_ok_iff.2 hargs', ?_⟩⟩
  exact bind_eq_ok_iff.2 ⟨(), orRefuse_eq_ok_iff.2 (Bool.or_true _), rfl⟩

/-- **A search for entities is one no longer** if the name is filled in beside one that is given
under its other key. -/
theorem ofParts_insert_repeated (hms : ms.Sorted) (h : ofParts .searchEntities ms = .ok r)
    (hmissing : ms.get? "name" = none) (name : String) :
    ofParts .searchEntities (ms.insert "name" (.str name)) =
      .error (.badArguments ToolName.searchEntities.word (Mismatch.repeated "name").message) := by
  obtain ⟨args, hargs, -⟩ := map_eq_ok_iff.1 h
  have hrepeated :=
    EntitiesArgs.ofJson_insert_repeated hms (readArgs_eq_ok_iff.1 hargs) hmissing name
  simp only [ofParts, readArgs, hrepeated]
  rfl

/-- The dates of a request, as they are written. -/
def dates : ToolRequest → Option String × Option String
  | .searchDocuments args => (args.dateFrom, args.dateTo)
  | .searchDispatchOrders args => (args.dateFrom, args.dateTo)
  | .getStatistics args => (args.dateFrom, args.dateTo)
  | .searchEntities _ | .getEntityDetail _ | .findSimilar _ => (none, none)

/-- The dates of a request are the texts of two of its arguments. -/
theorem texts_of_ofParts (ht : tool ∈ Plan.dateTools) (h : ofParts tool ms = .ok r) :
    ms.text "date_from" = .ok r.dates.1 ∧ ms.text "date_to" = .ok r.dates.2 := by
  have hfrom : "date_from" ∈ dateKeys := by decide
  have hto : "date_to" ∈ dateKeys := by decide
  rcases mem_dateTools.1 ht with rfl | rfl | rfl
  · obtain ⟨args, hargs, h⟩ := bind_eq_ok_iff.1 h
    obtain ⟨-, -, ⟨⟩⟩ := bind_eq_ok_iff.1 h
    obtain ⟨out, hout, hread⟩ := DocumentsArgs.ofJson_eq_ok_iff.1 (readArgs_eq_ok_iff.1 hargs)
    exact ⟨Shape.text_of_gather (DocumentsArgs.plain_date hfrom) hout hread.2.2.1,
      Shape.text_of_gather (DocumentsArgs.plain_date hto) hout hread.2.2.2.1⟩
  · obtain ⟨args, hargs, rfl⟩ := map_eq_ok_iff.1 h
    obtain ⟨out, hout, hread⟩ := DispatchArgs.ofJson_eq_ok_iff.1 (readArgs_eq_ok_iff.1 hargs)
    exact ⟨Shape.text_of_gather (DispatchArgs.plain_date hfrom) hout hread.2.2.2.2.1,
      Shape.text_of_gather (DispatchArgs.plain_date hto) hout hread.2.2.2.2.2.1⟩
  · obtain ⟨args, hargs, rfl⟩ := map_eq_ok_iff.1 h
    obtain ⟨out, hout, hread⟩ := StatisticsArgs.ofJson_eq_ok_iff.1 (readArgs_eq_ok_iff.1 hargs)
    exact ⟨Shape.text_of_gather (StatisticsArgs.plain_date hfrom) hout hread.2.2.1,
      Shape.text_of_gather (StatisticsArgs.plain_date hto) hout hread.2.2.2⟩

/-- A date that a call gives is one of its request. -/
theorem date_of_ofParts {s : String} (ht : tool ∈ Plan.dateTools) (hkey : key ∈ dateKeys)
    (h : ofParts tool ms = .ok r) (hs : ms.get? key = some (.str s)) :
    r.dates.1 = some s ∨ r.dates.2 = some s := by
  obtain ⟨hfrom, hto⟩ := texts_of_ofParts ht h
  have hstr : (ms.get? key).bind (·.str?) = some s := by rw [hs]; rfl
  rcases List.mem_pair.1 hkey with rfl | rfl
  · exact .inl ((Members.str?_of_text hfrom).symm.trans hstr)
  · exact .inr ((Members.str?_of_text hto).symm.trans hstr)

end ToolRequest

end Archivist
