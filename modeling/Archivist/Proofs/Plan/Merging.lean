import Archivist.Plan.Reader
import Archivist.Proofs.Plan.Filling

/-!
# Hints in a Plan

To merge hints into a plan is to fill them in call by call and to add calls for what no call of the
plan takes up (`Plan.merge_eq`). The added calls are calls that take the hints up, so a second time
nothing is left to add.

Plans that are read from a text have their arguments sorted (`Plan.sorted_of_read`). Of such a plan
merging can refuse a call that made a request, namely a search for entities that is given its name
under another key; it does so to no other (`Plan.accepted_merge_iff`).

## Main results

* `Plan.merge_additive`: merging adds, and adds once; the final plan is never empty.
* `Plan.accepted_merge_iff`: which calls of a plan go on to make a request.
-/

namespace Archivist

/-- The arguments of a call that has been read are in order. -/
theorem ToolCall.sorted_of_ofJson {v : Json} {c : ToolCall} (h : ofJson v = .ok c) :
    c.arguments.Sorted := by
  obtain ⟨ms, -, h⟩ := bind_eq_ok_iff.1 h
  obtain ⟨name, -, h⟩ := bind_eq_ok_iff.1 h
  obtain ⟨arguments, harguments, ⟨⟩⟩ := bind_eq_ok_iff.1 h
  rw [Members.read] at harguments
  split at harguments
  · rename_i v hv
    cases v <;> try cases harguments
    rename_i members
    obtain ⟨-, -, h⟩ := bind_eq_ok_iff.1 harguments
    have hself : (Json.canonicalMembers members []).mapM
        (fun m => (pure (id m) : Except Mismatch _)) =
          .ok ((Json.canonicalMembers members []).map id) := List.mapM_pure
    obtain rfl := Except.ok.inj (hself.symm.trans h)
    rw [List.map_id]
    exact Members.sorted_canonicalMembers members [] List.Pairwise.nil
  · cases harguments
    exact List.Pairwise.nil

namespace Plan

variable (p : Plan) (h : Hints) (question : String)

/-- The calls that merging adds to a plan: a search for the question if there are dates and no call
takes any, and a search for the entity if there is one and no call looks for any. -/
def added : List ToolCall :=
  (if h.dates.isBounded && !p.addresses dateTools then forced question h else []) ++
    (if p.addresses entityTools then [] else h.entity.toList.map ToolCall.searchEntity)

/-- Filling in hints does not change which tools are called. -/
theorem addresses_fillHints (tools : List ToolName) (reasoning : String) :
    addresses ⟨reasoning, p.calls.map (·.fillHints h)⟩ tools = p.addresses tools := by
  simp [addresses, List.any_map, Function.comp_def]

/-- A plan calls a tool if one of its parts does. -/
theorem addresses_append (reasoning : String) (calls more : List ToolCall)
    (tools : List ToolName) : addresses ⟨reasoning, calls ++ more⟩ tools =
      (addresses ⟨reasoning, calls⟩ tools || addresses ⟨reasoning, more⟩ tools) :=
  List.any_append

/-- What is forced upon a plan are searches for documents. -/
theorem tool?_of_mem_forced {c : ToolCall} (hc : c ∈ forced question h) :
    c.tool? = some .searchDocuments := by
  obtain rfl := List.mem_singleton.1 hc
  rw [ToolCall.tool?, ToolCall.name_fillDates]
  exact ToolCall.tool?_ofTool _ _

/-- A plan that is forced calls one tool. -/
theorem addresses_forced (reasoning : String) (tools : List ToolName) :
    addresses ⟨reasoning, forced question h⟩ tools = decide (.searchDocuments ∈ tools) := by
  simp [addresses, forced, tool?_of_mem_forced h question List.mem_cons_self]

/-- The calls that merging adds for the dates are no calls for an entity. -/
theorem addresses_entityTools_append (calls : List ToolCall) (b : Bool) :
    addresses { p with calls := calls ++ if b then forced question h else [] } entityTools =
      addresses { p with calls } entityTools := by
  have hforced : ∀ reasoning, addresses ⟨reasoning, if b then forced question h else []⟩
      entityTools = false := by
    intro reasoning
    split
    · rw [addresses_forced]
      decide
    · rfl
  rw [addresses_append, hforced, Bool.or_false]

/-- **Merging fills in the hints and adds calls behind those of the plan.** -/
theorem merge_eq : p.merge h question =
    { p with calls := p.calls.map (·.fillHints h) ++ p.added h question } := by
  have hdated : ∀ (b : Bool) (reasoning : String) (calls : List ToolCall),
      (if b then Plan.mk reasoning (calls ++ forced question h) else ⟨reasoning, calls⟩) =
        ⟨reasoning, calls ++ if b then forced question h else []⟩ := by
    intro b reasoning calls
    cases b <;> simp
  simp only [merge, addresses_fillHints, hdated]
  cases hentity : h.entity with
  | none => simp [added, hentity]
  | some entity =>
      simp only [addresses_entityTools_append, addresses_fillHints]
      by_cases haddresses : p.addresses entityTools = true
      · rw [if_pos haddresses, added, if_pos haddresses, List.append_nil]
      · simp only [haddresses, added, hentity, ToolCall.searchEntity, List.append_assoc,
          Option.toList_some, List.map_singleton, if_false, Bool.false_eq_true]

/-- The calls of a merged plan are its own, filled in, and those that are added. -/
theorem calls_merge :
    (p.merge h question).calls = p.calls.map (·.fillHints h) ++ p.added h question := by
  rw [merge_eq]

/-- The added calls have all that the hints have for them. -/
theorem fillHints_of_mem_added {c : ToolCall} (hc : c ∈ p.added h question) :
    c.fillHints h = c := by
  rcases List.mem_append.1 hc with hc | hc
  · split_ifs at hc
    · rw [ToolCall.fillHints_of_tool? h (tool?_of_mem_forced h question hc), if_pos (by decide)]
      obtain rfl := List.mem_singleton.1 hc
      exact ToolCall.fillDates_fillDates _ _
    · cases hc
  · split_ifs at hc
    · cases hc
    · obtain ⟨entity, hentity, rfl⟩ := List.mem_map.1 hc
      rw [ToolCall.fillHints_of_tool? h (ToolCall.tool?_searchEntity _), if_neg (by decide),
        if_pos (by decide), ToolCall.fill_eq_self (.inr ?_)]
      rw [ToolCall.has, ToolCall.arguments_searchEntity]
      rfl

/-- A merged plan calls the tools of its own calls and of those that are added. -/
theorem addresses_merge (tools : List ToolName) : (p.merge h question).addresses tools =
    (p.addresses tools || addresses ⟨p.reasoning, p.added h question⟩ tools) := by
  rw [merge_eq, addresses_append, addresses_fillHints]

/-- A plan calls the tools of its calls. -/
theorem addresses_of_mem {calls : List ToolCall} {c : ToolCall} {tool : ToolName}
    {tools : List ToolName} (hc : c ∈ calls) (htool : c.tool? = some tool) (ht : tool ∈ tools)
    (reasoning : String) : addresses ⟨reasoning, calls⟩ tools = true :=
  List.any_eq_true.2 ⟨c, hc, by simpa [htool] using ht⟩

/-- After merging, the hints add no more. -/
theorem added_merge (question' : String) : (p.merge h question).added h question' = [] := by
  rw [added, addresses_merge, addresses_merge, List.append_eq_nil_iff]
  constructor
  · by_cases hdates : (h.dates.isBounded && !p.addresses dateTools) = true
    · have hforced : ∀ c ∈ forced question h, c ∈ p.added h question := fun c hc =>
        List.mem_append_left _ (by rwa [if_pos hdates])
      have hadded : addresses ⟨p.reasoning, p.added h question⟩ dateTools = true :=
        addresses_of_mem (hforced _ List.mem_cons_self)
          (tool?_of_mem_forced h question List.mem_cons_self) (by decide) p.reasoning
      simp [hadded]
    · refine if_neg fun hno => hdates ?_
      rw [Bool.and_eq_true, Bool.not_eq_true', Bool.or_eq_false_iff] at hno
      rw [hno.1, hno.2.1]
      rfl
  · by_cases hentity : p.addresses entityTools = true
    · simp [hentity]
    · cases he : h.entity with
      | none => simp
      | some entity =>
          have hmem : ToolCall.searchEntity entity ∈ p.added h question :=
            List.mem_append_right _ (by simp [hentity, he])
          have hadded : addresses ⟨p.reasoning, p.added h question⟩ entityTools = true :=
            addresses_of_mem hmem (ToolCall.tool?_searchEntity entity) (by decide) p.reasoning
          simp [hadded]

/-- **Merging again changes nothing.** -/
theorem merge_again (question' : String) :
    (p.merge h question).merge h question' = p.merge h question := by
  have hkept : (p.calls.map (·.fillHints h)).map (·.fillHints h) = p.calls.map (·.fillHints h) := by
    simp only [List.map_map, Function.comp_def, ToolCall.fillHints_fillHints]
  have hadded : (p.added h question).map (·.fillHints h) = p.added h question := by
    have hsame := fun c => p.fillHints_of_mem_added h question (c := c)
    rw [List.map_congr_left hsame, List.map_id']
  rw [merge_eq (p.merge h question), added_merge, calls_merge, List.map_append, hkept, hadded,
    List.append_nil, merge_eq]

/-! ### Empty plans -/

/-- A forced call makes a request if the question is not blank. -/
theorem accepted_forced {question : String} (hq : Text.blank question = false) {c : ToolCall}
    (hc : c ∈ forced question h) : ∃ r, ToolRequest.ofCall c = .ok r := by
  obtain rfl := List.mem_singleton.1 hc
  obtain ⟨r, hr⟩ := ToolCall.accepted_searchFor hq
  refine ToolCall.accepted_fillDates ?_ (ToolCall.tool?_searchFor question) (by decide) hr h.dates
  rw [ToolCall.arguments_searchFor]
  exact List.pairwise_singleton _ _

/-- The calls that merging adds make requests. -/
theorem accepted_added {question : String} (hq : Text.blank question = false) {c : ToolCall}
    (hc : c ∈ p.added h question) : ∃ r, ToolRequest.ofCall c = .ok r := by
  rcases List.mem_append.1 hc with hc | hc
  · split_ifs at hc
    · exact accepted_forced h hq hc
    · cases hc
  · split_ifs at hc
    · cases hc
    · obtain ⟨entity, -, rfl⟩ := List.mem_map.1 hc
      exact ToolCall.accepted_searchEntity entity

/-- Which tools are called in addition, and when. -/
theorem names_added : (p.added h question).map (·.name) =
    (if h.dates.isBounded && !p.addresses dateTools then [ToolName.searchDocuments.word] else []) ++
      (if h.entity.isSome && !p.addresses entityTools then [ToolName.searchEntities.word]
        else []) := by
  have hforced : (forced question h).map (·.name) = [ToolName.searchDocuments.word] := by
    rw [forced, List.map_singleton, ToolCall.name_fillDates]
    rfl
  rw [added, List.map_append, apply_ite (List.map _), hforced]
  refine congrArg _ ?_
  cases h.entity with
  | none => simp
  | some entity => cases p.addresses entityTools <;> rfl

/-- A plan that has calls once it is merged is left at that. -/
theorem finalize_of_ne_nil (hne : (p.merge h question).calls ≠ []) :
    p.finalize h question = p.merge h question := by
  rw [finalize, isEmpty, if_neg (by simpa using hne)]

/-- A plan that has none has the forced calls. -/
theorem calls_finalize_of_nil (hnil : (p.merge h question).calls = []) :
    (p.finalize h question).calls = forced question h := by
  rw [finalize, isEmpty, if_pos (by simpa using hnil)]

/-- Each call gains what hints offer it. -/
theorem forall₂_gains : List.Forall₂ (ToolCall.Gains h) p.calls (p.calls.map (·.fillHints h)) := by
  rw [List.forall₂_map_right_iff]
  exact List.forall₂_same.2 fun c _ => c.gains_fillHints h

/-- **Hints are merged by adding.** The calls of the plan come first, with what the hints have for
them; a search for documents is added for dates that no call takes and a search for entities for an
entity that no call looks for; and merging again changes nothing. The final plan is never empty, it
is the merged one if that is not empty, and what it adds to a plan makes requests. -/
theorem merge_additive :
    (∃ kept added, (p.merge h question).calls = kept ++ added ∧
      List.Forall₂ (ToolCall.Gains h) p.calls kept ∧
      added.map (·.name) =
        (if h.dates.isBounded && !p.addresses dateTools then [ToolName.searchDocuments.word]
          else []) ++
        (if h.entity.isSome && !p.addresses entityTools then [ToolName.searchEntities.word]
          else [])) ∧
    (p.merge h question).reasoning = p.reasoning ∧
    (∀ question', (p.merge h question).merge h question' = p.merge h question) ∧
    (p.finalize h question).calls ≠ [] ∧
    ((p.merge h question).calls ≠ [] → p.finalize h question = p.merge h question) ∧
    ∃ kept more, (p.finalize h question).calls = kept ++ more ∧
      List.Forall₂ (ToolCall.Gains h) p.calls kept ∧
      (Text.blank question = false → ∀ c ∈ more, ∃ r, ToolRequest.ofCall c = .ok r) := by
  refine ⟨⟨_, _, p.calls_merge h question, p.forall₂_gains h, p.names_added h question⟩, ?_,
    p.merge_again h question, ?_, p.finalize_of_ne_nil h question, ?_⟩
  · rw [merge_eq]
  · by_cases hnil : (p.merge h question).calls = []
    · rw [calls_finalize_of_nil p h question hnil]
      exact List.cons_ne_nil _ _
    · rwa [finalize_of_ne_nil p h question hnil]
  · by_cases hnil : (p.merge h question).calls = []
    · refine ⟨[], forced question h, calls_finalize_of_nil p h question hnil, ?_,
        fun hq c => accepted_forced h hq⟩
      rw [calls_merge, List.append_eq_nil_iff, List.map_eq_nil_iff] at hnil
      rw [hnil.1]
      exact .nil
    · refine ⟨_, p.added h question, ?_, p.forall₂_gains h, fun hq c => p.accepted_added h hq⟩
      rw [finalize_of_ne_nil p h question hnil, calls_merge]

/-! ### Plans that are read -/

variable {p h question}

/-- The arguments of a plan that has been read from JSON are in order. -/
theorem sorted_of_ofJson {v : Json} {p : Plan} (h : ofJson v = .ok p) :
    ∀ c ∈ p.calls, c.arguments.Sorted := by
  obtain ⟨ms, -, h⟩ := bind_eq_ok_iff.1 h
  obtain ⟨reasoning, -, h⟩ := bind_eq_ok_iff.1 h
  obtain ⟨calls, hcalls, ⟨⟩⟩ := bind_eq_ok_iff.1 h
  rw [Members.read] at hcalls
  split at hcalls
  · rename_i v hv
    cases v <;> try cases hcalls
    intro c hc
    obtain ⟨v, -, hv⟩ := exists_of_mapM hcalls hc
    exact ToolCall.sorted_of_ofJson hv
  · cases hcalls
    exact List.forall_mem_nil _

/-- So are those of a plan that has been read from a text. -/
theorem sorted_of_decode {cs : List Char} {p : Plan} (h : decode cs = .ok p) :
    ∀ c ∈ p.calls, c.arguments.Sorted := by
  rw [decode] at h
  split at h
  · cases h
  · rename_i v hv
    cases hj : ofJson v.canonical with
    | error m =>
        rw [hj] at h
        cases h
    | ok p' =>
        rw [hj] at h
        cases h
        exact sorted_of_ofJson hj

/-- And of one that one of several readers has read. -/
theorem sorted_of_firstOf {cs : List Char} {fault : PlanFault} {p : Plan}
    {reads : List (List Char → Except PlanFault Plan)}
    (hreads : ∀ read ∈ reads, ∀ {p}, read cs = .ok p → ∀ c ∈ p.calls, c.arguments.Sorted)
    (h : firstOf cs fault reads = .ok p) : ∀ c ∈ p.calls, c.arguments.Sorted := by
  induction reads generalizing fault with
  | nil => cases h
  | cons read rest ih =>
      obtain ⟨hfirst, hrest⟩ := List.forall_mem_cons.1 hreads
      rw [firstOf] at h
      split at h
      · rename_i hread
        cases h
        exact hfirst hread
      · exact ih hrest h

/-- **A plan that is read from a text has its arguments sorted.** -/
theorem sorted_of_read {output : String} {p : Plan} (h : read output = .ok p) :
    ∀ c ∈ p.calls, c.arguments.Sorted := by
  have hobject : ∀ {cs p}, decodeObject cs = .ok p → ∀ c ∈ p.calls, c.arguments.Sorted := by
    intro cs p h
    rw [decodeObject] at h
    split at h
    · exact sorted_of_decode h
    · cases h
  rw [read] at h
  split at h
  · cases h
  · refine sorted_of_firstOf (fun read hread p hp => ?_) h
    simp only [List.mem_cons, List.not_mem_nil, or_false] at hread
    obtain rfl | rfl | rfl := hread
    · exact hobject hp
    · rw [readFenced] at hp
      split at hp
      · exact hobject hp
      · cases hp
    · rw [readBalanced] at hp
      split at hp
      · exact sorted_of_decode hp
      · cases hp

/-! ### Requests of merged plans -/

/-- **A call that makes a request goes on to make one when hints are merged**, unless it is a search
that is given its name under another key and the hints have a name for it. Then it is refused, since
it has two. -/
theorem accepted_merge_iff (hsorted : ∀ c ∈ p.calls, c.arguments.Sorted) {i : ℕ} {c : ToolCall}
    {r : ToolRequest} (hc : p.calls[i]? = some c) (hr : ToolRequest.ofCall c = .ok r) :
    ∃ c', (p.merge h question).calls[i]? = some c' ∧
      ((∃ r', ToolRequest.ofCall c' = .ok r') ↔ ¬ (c.NamedElsewhere ∧ h.entity ≠ none)) ∧
      (c.NamedElsewhere ∧ h.entity ≠ none → ToolRequest.ofCall c' = .error
        (.badArguments ToolName.searchEntities.word (Mismatch.repeated "name").message)) := by
  have hc' : (p.merge h question).calls[i]? = some (c.fillHints h) := by
    rw [calls_merge, List.getElem?_append_left, List.getElem?_map, hc, Option.map_some]
    rw [List.length_map]
    exact (List.getElem?_eq_some_iff.1 hc).1
  have hsorted := hsorted c (List.mem_of_getElem? hc)
  have hrefused : c.NamedElsewhere ∧ h.entity ≠ none → ToolRequest.ofCall (c.fillHints h) = .error
      (.badArguments ToolName.searchEntities.word (Mismatch.repeated "name").message) := by
    rintro ⟨hname, hentity⟩
    obtain ⟨entity, he⟩ := Option.ne_none_iff_exists'.1 hentity
    exact ToolCall.refused_fillHints hsorted hr hname he
  refine ⟨c.fillHints h, hc', ⟨?_, fun hno => ?_⟩, hrefused⟩
  · rintro ⟨r', hr'⟩ hboth
    rw [hrefused hboth] at hr'
    cases hr'
  · refine ToolCall.accepted_fillHints hsorted hr fun hname => ?_
    by_contra hentity
    exact hno ⟨hname, hentity⟩

/-- A look at an entity without a name is given one. -/
theorem accepted_merge_detail : ∃ c',
    (merge ⟨"", [⟨"get_entity_detail", [("entity_id", .str "e1")]⟩]⟩ { entity := some "工務局" }
      "").calls[0]? = some c' ∧ ∃ r', ToolRequest.ofCall c' = .ok r' := by
  have htool : ToolCall.tool? ⟨"get_entity_detail", [("entity_id", .str "e1")]⟩ =
      some .getEntityDetail := by decide +kernel
  have hcall : ToolRequest.ofCall ⟨"get_entity_detail", [("entity_id", .str "e1")]⟩ =
      .ok (.getEntityDetail ⟨some "e1", none⟩) := by
    rw [ToolCall.ofCall_of_tool? htool]
    rfl
  obtain ⟨c', hc', hiff, -⟩ : ∃ c', (merge ⟨"", [⟨"get_entity_detail", [("entity_id", .str "e1")]⟩]⟩
      { entity := some "工務局" } "").calls[0]? = some c' ∧ _ ∧ _ :=
    accepted_merge_iff (p := ⟨"", [⟨"get_entity_detail", [("entity_id", .str "e1")]⟩]⟩)
      (List.forall_mem_singleton.2 (List.pairwise_singleton _ _)) rfl hcall
  refine ⟨c', hc', hiff.2 fun hname => ?_⟩
  rw [ToolCall.NamedElsewhere, htool] at hname
  cases hname.1.1

/-- A search that gives its name as the query is given another, and is refused. -/
theorem refused_merge_query : ∃ r c',
    ToolRequest.ofCall ⟨"search_entities", [("query", .str "工務局")]⟩ = .ok r ∧
      (merge ⟨"", [⟨"search_entities", [("query", .str "工務局")]⟩]⟩ { entity := some "工務局" }
        "查詢工務局").calls = [c'] ∧
      c'.arguments = [("name", .str "工務局"), ("query", .str "工務局")] ∧
      ToolRequest.ofCall c' =
        .error (.badArguments "search_entities" (Mismatch.repeated "name").message) := by
  have htool : ToolCall.tool? ⟨"search_entities", [("query", .str "工務局")]⟩ =
      some .searchEntities := by decide +kernel
  have hcall : ToolRequest.ofCall ⟨"search_entities", [("query", .str "工務局")]⟩ =
      .ok (.searchEntities ⟨"工務局", none, none, none⟩) := by
    rw [ToolCall.ofCall_of_tool? htool]
    rfl
  have hrefused := ToolCall.refused_fillHints (c := ⟨"search_entities", [("query", .str "工務局")]⟩)
    (List.pairwise_singleton _ _) hcall ⟨htool, rfl⟩ (h := { entity := some "工務局" }) rfl
  refine ⟨_, _, hcall, ?_, ?_, hrefused⟩
  · have haddresses : addresses ⟨"", [⟨"search_entities", [("query", .str "工務局")]⟩]⟩ entityTools =
        true := addresses_of_mem List.mem_cons_self htool (by decide) ""
    rw [calls_merge, added, if_pos haddresses]
    rfl
  · rw [ToolCall.fillHints_of_tool? _ htool, if_neg (by decide), if_pos (by decide),
      ToolCall.fill_eq_set rfl]
    rfl

end Plan

end Archivist
