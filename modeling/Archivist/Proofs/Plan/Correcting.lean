import Archivist.Proofs.Plan.Filling
import Archivist.Proofs.Tool.Call
import Archivist.Proofs.Turn.Promise

/-!
# What Corrections Do

For each correction there are two things to say: which results it applies to, and how its calls come
from the calls of the round. Three of the corrections rewrite calls one by one. Their calls come
from a part of the calls of the round, in order, and each differs from its origin in the arguments
that the correction is about and in no other. A fallback makes searches of its own, and widened
terms go into one search.

## Main results

* `Correction.rewrites_of_rewrite?`: the calls of the corrections that rewrite calls.
* `Correction.exists_fallBack`: a fallback searches for no query twice.
* `Corrector.meets_correct_first`: a correction is the first that applies; where there is none, the
  round has a search for documents.
-/

namespace Archivist

namespace Correction

open Archivist.ToolCall

/-- The corrections in the order in which they are tried. -/
def order : List Correction :=
  [.broadenDates, .dropEntityFilter, .switchToHybrid, .fallbackTool, .expandTerms]

/-- The call is a look for an entity. -/
def LooksForEntity (c : ToolCall) : Prop := ∃ tool ∈ Plan.entityTools, c.tool? = some tool

/-- The results that a correction which rewrites calls is about. -/
def Concerns : Correction → ToolResult → Prop
  | .broadenDates, r => r.hasData = false ∧ (∃ tool ∈ Plan.dateTools, r.call.tool? = some tool) ∧
      ((r.call.date? "date_from").isSome ∨ (r.call.date? "date_to").isSome)
  | .dropEntityFilter, r => r.hasData = false ∧
      (r.call.tool? = some .searchDocuments ∧ (r.call.text? "sender").isSome ∨
        r.call.tool? = some .searchDispatchOrders ∧ (r.call.text? "assignee").isSome)
  | .switchToHybrid, r => r.call.tool? = some .searchDocuments ∧
      ∃ word, r.call.text? "strategy" = some word ∧ sameWord word "hybrid" = false
  | .fallbackTool, _ | .expandTerms, _ => False

/-- When a correction applies. Widened terms are what is left if no other does. -/
def Applies (results : List ToolResult) : Correction → Prop
  | .fallbackTool => (∃ r ∈ results, LooksForEntity r.call) ∧
      ∀ r ∈ results, LooksForEntity r.call → r.hasData = false
  | .expandTerms => True
  | c => ∃ r ∈ results, c.Concerns r

/-- What a correction that rewrites calls makes of a call. -/
def Rewrites : Correction → ToolCall → ToolCall → Prop
  | .broadenDates, c, c' => (∃ tool ∈ Plan.dateTools, c.tool? = some tool) ∧
      AgreeExcept ["date_from", "date_to"] c c'
  | .dropEntityFilter, c, c' =>
      c.tool? = some .searchDocuments ∧ AgreeExcept ["sender"] c c' ∧
        c'.arguments.get? "sender" = none ∨
      c.tool? = some .searchDispatchOrders ∧ AgreeExcept ["assignee"] c c' ∧
        c'.arguments.get? "assignee" = none
  | .switchToHybrid, c, c' => c.tool? = some .searchDocuments ∧ AgreeExcept ["strategy"] c c' ∧
      c'.arguments.get? "strategy" = some (.str "hybrid")
  | .fallbackTool, _, _ | .expandTerms, _, _ => False

/-- The calls search documents for these queries, each query once. -/
structure SearchFor (queries : List String) (calls : List ToolCall) : Prop where
  tool? : ∀ c ∈ calls, c.tool? = some .searchDocuments
  text? : calls.map (·.text? "query") = queries.map some
  nodup : queries.Nodup

/-- What the calls of a correction are like. -/
def Shapes (results : List ToolResult) : Correction → List ToolCall → Prop
  | .fallbackTool, calls => ∃ queries, SearchFor queries calls
  | .expandTerms, calls => ∃ c, calls = [c] ∧ c.tool? = some .searchDocuments
  | k, calls => ∃ kept, kept.Sublist (results.map (·.call)) ∧ List.Forall₂ k.Rewrites kept calls

variable {c c' : ToolCall} {days : Int} {k : Correction} {question query : String}
  {r : ToolResult} {results : List ToolResult} {calls : List ToolCall} {queries : List String}

/-! ### Calls that are rewritten -/

/-- The call that a correction makes of a result. -/
def rewrite? (days : Int) : Correction → ToolResult → Option ToolCall
  | .broadenDates, r => if r.hasData then none else (broadened days r.call).join
  | .dropEntityFilter, r => if r.hasData then none else unfiltered r.call
  | .switchToHybrid, r => hybridized r.call
  | .fallbackTool, _ | .expandTerms, _ => none

/-- A test of the tool is whether it is one of some tools. -/
theorem any_mem_iff {tools : List ToolName} :
    c.tool?.any (· ∈ tools) = true ↔ ∃ tool ∈ tools, c.tool? = some tool := by
  cases c.tool? <;> simp

/-- A range has an end if one of its two dates can be read. -/
theorem isBounded_dates_iff : c.dates.isBounded = true ↔
    (c.date? "date_from").isSome ∨ (c.date? "date_to").isSome := by
  simp [DateRange.isBounded, ToolCall.dates]

/-- Moving dates changes no other argument. -/
theorem agreeExcept_withDates (c : ToolCall) (r : DateRange) :
    AgreeExcept ["date_from", "date_to"] c (c.withDates r) := by
  have hset : ∀ (c : ToolCall) (key : String) (d : Option Date), key ∈ ["date_from", "date_to"] →
      AgreeExcept ["date_from", "date_to"] c (c.setDate key d) := by
    intro c key d hkey
    cases d with
    | none => exact agreeExcept_without hkey c
    | some d => exact agreeExcept_set hkey c _
  exact (hset c "date_from" r.first (by decide)).trans (hset _ "date_to" r.last (by decide))

/-- Dates can be moved if the days are not too many. -/
theorem exists_broaden (hdays : days ≤ maxShift) (r : DateRange) :
    ∃ r', r.broaden days = some r' := by
  have hmax : (0 : Int) ≤ maxShift := by decide
  rw [DateRange.broaden, if_neg (by omega)]
  exact ⟨_, rfl⟩

/-- Dates are moved in calls that take dates and have one that can be read. -/
theorem broadened_eq_some_iff : broadened days c = some (some c') ↔
    (∃ tool ∈ Plan.dateTools, c.tool? = some tool) ∧
      ((c.date? "date_from").isSome ∨ (c.date? "date_to").isSome) ∧
      ∃ r', c.dates.broaden days = some r' ∧ c.withDates r' = c' := by
  rw [broadened, ← any_mem_iff, ← isBounded_dates_iff]
  split_ifs with h
  · rw [Bool.and_eq_true] at h
    simp [h]
  · rw [Bool.and_eq_true] at h
    refine iff_of_false (fun hnone => ?_) fun hc' => h ⟨hc'.1, hc'.2.1⟩
    cases hnone

/-- Unless the days are too many, there is an answer for every call. -/
theorem broadened_eq_some (hdays : days ≤ maxShift) (c : ToolCall) :
    broadened days c = some (broadened days c).join := by
  rw [broadened]
  split
  · obtain ⟨r', hr'⟩ := exists_broaden hdays c.dates
    rw [hr']
    rfl
  · rfl

/-- A call with moved dates, in either form of the answer. -/
theorem join_broadened_eq_some_iff (hdays : days ≤ maxShift) :
    (broadened days c).join = some c' ↔ broadened days c = some (some c') := by
  rw [broadened_eq_some hdays c, Option.join_some, Option.some.injEq]

/-- Which calls have a filter by a person or an agency, and what they are without it. -/
theorem unfiltered_eq_some_iff : unfiltered c = some c' ↔
    c.tool? = some .searchDocuments ∧ (c.text? "sender").isSome ∧ c.without "sender" = c' ∨
    c.tool? = some .searchDispatchOrders ∧ (c.text? "assignee").isSome ∧
      c.without "assignee" = c' := by
  have hread : ∀ key, ((c.text? key).bind fun _ => some (c.without key)) = some c' ↔
      (c.text? key).isSome ∧ c.without key = c' := by
    intro key
    cases c.text? key <;> simp
  rw [unfiltered]
  cases htool : c.tool? with
  | none => simp
  | some tool => cases tool <;> simp [entityFilter?, hread]

/-- Which searches ask for one kind of candidates, and what they are with both. -/
theorem hybridized_eq_some_iff : hybridized c = some c' ↔ c.tool? = some .searchDocuments ∧
    (∃ word, c.text? "strategy" = some word ∧ sameWord word "hybrid" = false) ∧
    c.set "strategy" (.str "hybrid") = c' := by
  rw [hybridized]
  cases c.text? "strategy" <;> simp [ToolCall.isTo, and_assoc]

/-- **What is made of a call** differs from it in what the correction is about. -/
theorem rewrites_of_rewrite? (hdays : days ≤ maxShift) (h : rewrite? days k r = some c') :
    k.Concerns r ∧ k.Rewrites r.call c' := by
  cases k with
  | broadenDates =>
      rw [rewrite?] at h
      split_ifs at h with hdata
      rw [join_broadened_eq_some_iff hdays, broadened_eq_some_iff] at h
      obtain ⟨htool, hdates, r', -, rfl⟩ := h
      exact ⟨⟨Bool.eq_false_iff.2 hdata, htool, hdates⟩, htool, agreeExcept_withDates _ r'⟩
  | dropEntityFilter =>
      rw [rewrite?] at h
      split_ifs at h with hdata
      have hdata := Bool.eq_false_iff.2 hdata
      rcases unfiltered_eq_some_iff.1 h with ⟨htool, hkey, rfl⟩ | ⟨htool, hkey, rfl⟩
      · exact ⟨⟨hdata, .inl ⟨htool, hkey⟩⟩,
          .inl ⟨htool, agreeExcept_without (by decide) _, get?_without _ _⟩⟩
      · exact ⟨⟨hdata, .inr ⟨htool, hkey⟩⟩,
          .inr ⟨htool, agreeExcept_without (by decide) _, get?_without _ _⟩⟩
  | switchToHybrid =>
      obtain ⟨htool, hword, rfl⟩ := hybridized_eq_some_iff.1 h
      exact ⟨⟨htool, hword⟩, htool, agreeExcept_set (by decide) _ _, get?_set _ _ _⟩
  | fallbackTool => cases h
  | expandTerms => cases h

/-- Something is made of each result that the correction is about. -/
theorem exists_rewrite? (hdays : days ≤ maxShift) (h : k.Concerns r) :
    ∃ c', rewrite? days k r = some c' := by
  cases k with
  | broadenDates =>
      obtain ⟨hdata, htool, hdates⟩ := h
      obtain ⟨r', hr'⟩ := exists_broaden hdays r.call.dates
      refine ⟨r.call.withDates r', ?_⟩
      rw [rewrite?, hdata]
      exact (join_broadened_eq_some_iff hdays).2
        (broadened_eq_some_iff.2 ⟨htool, hdates, r', hr', rfl⟩)
  | dropEntityFilter =>
      obtain ⟨hdata, h⟩ := h
      simp only [rewrite?, hdata]
      rcases h with ⟨htool, hkey⟩ | ⟨htool, hkey⟩
      · exact ⟨_, unfiltered_eq_some_iff.2 (.inl ⟨htool, hkey, rfl⟩)⟩
      · exact ⟨_, unfiltered_eq_some_iff.2 (.inr ⟨htool, hkey, rfl⟩)⟩
  | switchToHybrid => exact ⟨_, hybridized_eq_some_iff.2 ⟨h.1, h.2, rfl⟩⟩
  | fallbackTool => exact h.elim
  | expandTerms => exact h.elim

/-- What is made of the elements of a list comes from a part of the list, in order. -/
theorem exists_forall₂_filterMap {α β : Type} {R : α → β → Prop} {f : α → Option β}
    (h : ∀ a b, f a = some b → R a b) (xs : List α) :
    ∃ kept, kept.Sublist xs ∧ List.Forall₂ R kept (xs.filterMap f) := by
  induction xs with
  | nil => exact ⟨[], .slnil, .nil⟩
  | cons x xs ih =>
      obtain ⟨kept, hkept, hall⟩ := ih
      cases hx : f x with
      | none => exact ⟨kept, hkept.cons x, by rwa [List.filterMap_cons_none hx]⟩
      | some b =>
          refine ⟨x :: kept, hkept.cons_cons x, ?_⟩
          rw [List.filterMap_cons_some hx]
          exact .cons (h x b hx) hall

/-- The calls of a correction that rewrites calls come from calls of the round, in order. -/
theorem exists_rewritten (hdays : days ≤ maxShift) (k : Correction) (results : List ToolResult) :
    ∃ kept, kept.Sublist (results.map (·.call)) ∧
      List.Forall₂ k.Rewrites kept (results.filterMap (rewrite? days k)) := by
  obtain ⟨kept, hkept, hall⟩ := exists_forall₂_filterMap
    (R := fun r c' => k.Rewrites r.call c') (fun r c' h => (rewrites_of_rewrite? hdays h).2) results
  exact ⟨kept.map (·.call), hkept.map _, List.forall₂_map_left_iff.2 hall⟩

/-- A rule has no calls if it concerns no result. -/
theorem filterMap_rewrite?_eq_nil_iff (hdays : days ≤ maxShift) :
    results.filterMap (rewrite? days k) = [] ↔ ¬ ∃ r ∈ results, k.Concerns r := by
  rw [List.filterMap_eq_nil_iff]
  constructor
  · rintro h ⟨r, hr, hconcerns⟩
    obtain ⟨c', hc'⟩ := exists_rewrite? hdays hconcerns
    exact nomatch (h r hr).symm.trans hc'
  · intro h r hr
    cases hr' : rewrite? days k r with
    | none => rfl
    | some c' => exact (h ⟨r, hr, (rewrites_of_rewrite? hdays hr').1⟩).elim

/-! ### Fallbacks -/

/-- A search about an entity is a search for documents. -/
theorem tool?_entitySearch (query : String) : (entitySearch query).tool? = some .searchDocuments :=
  tool?_ofTool _ _

/-- A search about an entity has it for its query. -/
theorem text?_entitySearch (hquery : Text.blank query = false) :
    (entitySearch query).text? "query" = some query :=
  text?_of_get? rfl hquery

/-- A further search is added under its own query, or there is one already. -/
theorem SearchFor.addSearch (h : SearchFor queries calls) (hquery : Text.blank query = false) :
    ∃ queries', SearchFor queries' (addSearch calls query) := by
  rw [Correction.addSearch]
  split_ifs with hmem
  · exact ⟨queries, h⟩
  · have hnew : query ∉ queries := by
      intro hin
      have hsome : some query ∈ calls.map (·.text? "query") :=
        h.text? ▸ List.mem_map_of_mem hin
      obtain ⟨c, hc, htext⟩ := List.mem_map.1 hsome
      exact hmem (List.any_eq_true.2 ⟨c, hc, decide_eq_true htext⟩)
    refine ⟨queries ++ [query], ?_, ?_, ?_⟩
    · intro c hc
      rcases List.mem_append.1 hc with hc | hc
      · exact h.tool? c hc
      · obtain rfl := List.mem_singleton.1 hc
        exact tool?_entitySearch query
    · rw [List.map_append, List.map_append, h.text?, List.map_singleton, List.map_singleton,
        text?_entitySearch hquery]
    · exact (List.perm_append_singleton _ _).nodup_iff.2 (List.nodup_cons.2 ⟨hnew, h.nodup⟩)

/-- So are further searches, one after the other. -/
theorem SearchFor.foldl_addSearch {more : List String} (h : SearchFor queries calls)
    (hmore : ∀ q ∈ more, Text.blank q = false) :
    ∃ queries', SearchFor queries' (more.foldl Correction.addSearch calls) := by
  induction more generalizing queries calls with
  | nil => exact ⟨queries, h⟩
  | cons q more ih =>
      obtain ⟨hq, hmore⟩ := List.forall_mem_cons.1 hmore
      obtain ⟨queries', h'⟩ := h.addSearch hq
      exact ih h' hmore

/-- After a search has been added there is one. -/
theorem addSearch_ne_nil (calls : List ToolCall) (query : String) : addSearch calls query ≠ [] := by
  rw [addSearch]
  split_ifs with hmem
  · rintro rfl
    cases hmem
  · exact List.append_ne_nil_of_right_ne_nil _ (List.cons_ne_nil _ _)

/-- After searches have been added there is one. -/
theorem foldl_addSearch_ne_nil {more : List String} (h : calls ≠ [] ∨ more ≠ []) :
    more.foldl addSearch calls ≠ [] := by
  induction more generalizing calls with
  | nil => exact h.resolve_right fun hne => hne rfl
  | cons q more ih => exact ih (.inl (addSearch_ne_nil calls q))

/-- An entity is looked for by something that is not blank. -/
theorem blank_entityQuery (hq : Text.blank question = false) (c : ToolCall) :
    Text.blank (entityQuery question c) = false := by
  rw [entityQuery]
  cases hname : c.text? "name" with
  | some name => exact (text?_eq_some hname).2
  | none =>
      cases hquery : c.text? "query" with
      | some query => exact (text?_eq_some hquery).2
      | none => exact hq

/-- **A fallback searches for no query twice.** -/
theorem exists_fallBack (hq : Text.blank question = false) (results : List ToolResult) :
    ∃ queries, SearchFor queries (fallBack question results) := by
  have hnone : SearchFor [] [] := ⟨List.forall_mem_nil _, rfl, List.nodup_nil⟩
  simp only [fallBack]
  split
  · exact ⟨[], hnone⟩
  · refine hnone.foldl_addSearch fun q hmem => ?_
    obtain ⟨r, -, rfl⟩ := List.mem_map.1 hmem
    exact blank_entityQuery hq r.call

/-- There is no search in place of looks for entities unless there are such looks and none of them
has found anything. -/
theorem fallBack_eq_nil_iff : fallBack question results = [] ↔ ¬ fallbackTool.Applies results := by
  have hlooks : ∀ r, r ∈ results.filter (fun r => r.call.tool?.any (·.isEntityTool)) ↔
      r ∈ results ∧ LooksForEntity r.call := by
    intro r
    have hentity : (·.isEntityTool) = fun tool : ToolName => decide (tool ∈ Plan.entityTools) := by
      funext tool
      cases tool <;> rfl
    rw [List.mem_filter, LooksForEntity, ← any_mem_iff, hentity]
  simp only [fallBack, Applies]
  split_ifs with hdata
  · refine iff_of_true rfl fun h => ?_
    obtain ⟨r, hr, hsome⟩ := List.any_eq_true.1 hdata
    obtain ⟨hr, hlook⟩ := (hlooks r).1 hr
    exact nomatch (h.2 r hr hlook).symm.trans hsome
  · refine ⟨fun hnil => ?_, fun h => ?_⟩
    · rintro ⟨⟨r, hr, hlook⟩, -⟩
      refine foldl_addSearch_ne_nil (.inr ?_) hnil
      exact List.ne_nil_of_mem (List.mem_map_of_mem ((hlooks r).2 ⟨hr, hlook⟩))
    · have hempty : results.filter (fun r => r.call.tool?.any (·.isEntityTool)) = [] := by
        refine List.eq_nil_iff_forall_not_mem.2 fun r hr => h ⟨⟨r, (hlooks r).1 hr⟩, ?_⟩
        intro r hr hlook
        refine Bool.eq_false_iff.2 fun hsome => hdata ?_
        exact List.any_eq_true.2 ⟨r, (hlooks r).2 ⟨hr, hlook⟩, hsome⟩
      rw [hempty]
      rfl

/-! ### Widened terms -/

/-- The first search for documents is one of the calls. -/
theorem tool?_of_firstSearch? (h : firstSearch? results = some c) :
    c.tool? = some .searchDocuments ∧ ∃ r ∈ results, r.call = c := by
  have hto := List.find?_some (p := fun c : ToolCall => c.isTo .searchDocuments) h
  obtain ⟨r, hr, hc⟩ := List.mem_map.1 (List.mem_of_find?_eq_some h)
  exact ⟨of_decide_eq_true hto, r, hr, hc⟩

open Archivist.Action in
/-- **Widened terms make one search**, or none if there is a search already. -/
theorem meets_expand_shape (x : Expander) (question : String) (results : List ToolResult) :
    (expand x question results).Meets Ask.IsGraph fun o => ∃ calls, o = some (.ok calls) ∧
      (Shapes results .expandTerms calls ∨
        calls = [] ∧ ∃ r ∈ results, r.call.tool? = some .searchDocuments) := by
  refine (x.meets_expand _).bind_ok fun expanded => ?_
  split
  · rename_i c hc
    obtain ⟨htool, r, hr, rfl⟩ := tool?_of_firstSearch? hc
    refine meets_pure ⟨_, rfl, ?_⟩
    split_ifs
    · exact .inr ⟨rfl, r, hr, htool⟩
    · exact .inl ⟨_, rfl, htool⟩
  · exact meets_pure ⟨_, rfl, .inl ⟨_, rfl, tool?_searchFor question⟩⟩

/-! ### The order of corrections -/

/-- The calls of the corrections by rule. -/
def rules (days : Int) (question : String) (results : List ToolResult) :
    List (Correction × List ToolCall) :=
  [(.broadenDates, results.filterMap (rewrite? days .broadenDates)),
    (.dropEntityFilter, results.filterMap (rewrite? days .dropEntityFilter)),
    (.switchToHybrid, results.filterMap (rewrite? days .switchToHybrid)),
    (.fallbackTool, fallBack question results)]

/-- Unless the days are too many, there is a list of rules. -/
theorem byRule_eq_some (hdays : days ≤ maxShift) (question : String) (results : List ToolResult) :
    byRule days question results = some (rules days question results) := by
  have hbroadened : broadened days = fun c => pure (broadened days c).join :=
    funext (broadened_eq_some hdays)
  have hbroaden : broaden days results =
      some (results.filterMap (rewrite? days .broadenDates)) := by
    rw [broaden, hbroadened, List.mapM_pure, Option.pure_def, Option.map_some, List.map_map,
      List.filterMap_map, List.filterMap_filter]
    refine congrArg some (List.filterMap_congr fun r _ => ?_)
    rw [rewrite?]
    cases r.hasData <;> rfl
  have hdrop : dropFilters results = results.filterMap (rewrite? days .dropEntityFilter) := by
    rw [dropFilters, List.filterMap_filter]
    refine List.filterMap_congr fun r _ => ?_
    rw [rewrite?]
    cases r.hasData <;> rfl
  rw [byRule, hbroaden, hdrop]
  rfl

/-- **A rule has calls if it applies**, and they are as the rule shapes them. -/
theorem shapes_rules (hdays : days ≤ maxShift) (hq : Text.blank question = false)
    {k : Correction} {calls : List ToolCall} (h : (k, calls) ∈ rules days question results) :
    k.Shapes results calls ∧ (calls = [] ↔ ¬ k.Applies results) := by
  simp only [rules, List.mem_cons, Prod.mk.injEq, List.not_mem_nil, or_false] at h
  rcases h with ⟨rfl, rfl⟩ | ⟨rfl, rfl⟩ | ⟨rfl, rfl⟩ | ⟨rfl, rfl⟩
  · exact ⟨exists_rewritten hdays _ results, filterMap_rewrite?_eq_nil_iff hdays⟩
  · exact ⟨exists_rewritten hdays _ results, filterMap_rewrite?_eq_nil_iff hdays⟩
  · exact ⟨exists_rewritten hdays _ results, filterMap_rewrite?_eq_nil_iff hdays⟩
  · exact ⟨exists_fallBack hq results, fallBack_eq_nil_iff⟩

/-- The correction applies to the results, and none that is tried earlier does. -/
structure IsFirst (results : List ToolResult) (k : Correction) : Prop where
  applies : k.Applies results
  earlier : ∃ before after, order = before ++ k :: after ∧ ∀ k' ∈ before, ¬ k'.Applies results

/-- The rules come in the order of corrections, and widened terms last. -/
theorem order_eq (days : Int) (question : String) (results : List ToolResult) :
    order = (rules days question results).map Prod.fst ++ [.expandTerms] := rfl

/-- The first rule that has calls is the first correction that applies. -/
theorem isFirst_of_find? (hdays : days ≤ maxShift) (hq : Text.blank question = false)
    (h : (rules days question results).find? (!·.2.isEmpty) = some (k, calls)) :
    k.IsFirst results ∧ k.Shapes results calls ∧ calls ≠ [] := by
  obtain ⟨hcalls, before, after, hrules, hbefore⟩ := List.find?_eq_some_iff_append.1 h
  have hmem : ∀ x ∈ before ++ (k, calls) :: after, x ∈ rules days question results :=
    fun x hx => hrules ▸ hx
  have hne : calls ≠ [] := by simpa using hcalls
  obtain ⟨hshapes, hnil⟩ := shapes_rules hdays hq
    (hmem _ (List.mem_append_right _ List.mem_cons_self))
  refine ⟨⟨?_, before.map Prod.fst, after.map Prod.fst ++ [.expandTerms], ?_, ?_⟩, hshapes, hne⟩
  · exact not_not.1 fun hnot => hne (hnil.2 hnot)
  · rw [order_eq days question results, hrules]
    simp
  · intro k' hk'
    obtain ⟨⟨k', calls'⟩, hx, rfl⟩ := List.mem_map.1 hk'
    refine (shapes_rules hdays hq (hmem _ (List.mem_append_left _ hx))).2.1 ?_
    simpa using hbefore _ hx

/-- If no rule has calls, no correction by rule applies. -/
theorem not_applies_of_find? (hdays : days ≤ maxShift) (hq : Text.blank question = false)
    (h : (rules days question results).find? (!·.2.isEmpty) = none) (hk : k ≠ .expandTerms) :
    ¬ k.Applies results := by
  have hin : k ∈ (rules days question results).map Prod.fst := by
    cases k with
    | expandTerms => exact absurd rfl hk
    | _ => simp [rules]
  obtain ⟨⟨k', calls⟩, hx, rfl⟩ := List.mem_map.1 hin
  refine (shapes_rules hdays hq hx).2.1 ?_
  simpa using List.find?_eq_none.1 h _ hx

end Correction

/-- A plan that corrects results: the correction is the first that applies, and the calls are as it
shapes them. -/
structure Replan.Corrects (shortfall : Shortfall) (results : List ToolResult) (p : Replan) :
    Prop where
  shortfall : p.shortfall = shortfall
  isFirst : p.correction.IsFirst results
  calls_ne_nil : p.plan.calls ≠ []
  shapes : p.correction.Shapes results p.plan.calls

namespace Corrector

open Archivist.Action

variable {question : String} {results : List ToolResult}

/-- What there is to know of the calls that are chosen. -/
def Chosen (results : List ToolResult) (found : Correction × List ToolCall) : Prop :=
  found.1.IsFirst results ∧ found.1.Shapes results found.2 ∧ found.2 ≠ [] ∨
    found.2 = [] ∧ (∀ k, k ≠ .expandTerms → ¬ Correction.Applies results k) ∧
      ∃ r ∈ results, r.call.tool? = some .searchDocuments

/-- What is chosen is always known to be one of the corrections, or widened terms. -/
theorem meets_choose_chosen (c : Corrector) (hdays : c.broadenDays ≤ maxShift)
    (hq : Text.blank question = false) (results : List ToolResult) :
    (c.choose question results (Correction.rules c.broadenDays question results)).Meets
      Ask.IsGraph fun o => ∃ found, o = some (.ok found) ∧ Chosen results found := by
  rw [choose]
  split
  · rename_i found h
    exact meets_pure ⟨_, rfl, .inl (Correction.isFirst_of_find? hdays hq h)⟩
  · rename_i h
    have hnone : ∀ k, k ≠ .expandTerms → ¬ Correction.Applies results k :=
      fun k hk => Correction.not_applies_of_find? hdays hq h hk
    have hfirst : Correction.IsFirst results .expandTerms :=
      ⟨trivial, _, [], Correction.order_eq c.broadenDays question results, fun k hk =>
        hnone k (by rintro rfl; simp [Correction.rules] at hk)⟩
    refine (Correction.meets_expand_shape c.expander question results).bind ?_ ?_ ?_
    · rintro calls ⟨_, ⟨⟩, hshapes | hnil⟩
      · obtain ⟨call, rfl, -⟩ := id hshapes
        exact meets_pure ⟨_, rfl, .inl ⟨hfirst, hshapes, List.cons_ne_nil _ _⟩⟩
      · exact meets_pure ⟨_, rfl, .inr ⟨hnil.1, hnone, hnil.2⟩⟩
    · rintro e ⟨_, ⟨⟩, -⟩
    · rintro ⟨_, ⟨⟩, -⟩

/-- **A correction is the first that applies**, and its calls are as it shapes them. Where there is
no correction, no rule applies, and the round has a search for documents. -/
theorem meets_correct_first (c : Corrector) (hdays : c.broadenDays ≤ maxShift)
    (hq : Text.blank question = false) (shortfall : Shortfall) (results : List ToolResult) :
    (c.correct question shortfall results).Meets Ask.IsGraph fun o => ∃ p, o = some (.ok p) ∧
      p.elim ((∀ k, k ≠ .expandTerms → ¬ Correction.Applies results k) ∧
        ∃ r ∈ results, r.call.tool? = some .searchDocuments)
        (Replan.Corrects shortfall results) := by
  rw [correct, Correction.byRule_eq_some hdays]
  refine (c.meets_choose_chosen hdays hq results).bind ?_ ?_ ?_
  · rintro ⟨k, calls⟩ ⟨_, ⟨⟩, ⟨hfirst, hshapes, hne⟩ | ⟨hnil, hnone, hsearch⟩⟩
    · refine meets_pure ⟨_, rfl, ?_⟩
      rw [Correction.replan, if_neg (by simpa using hne)]
      exact ⟨rfl, hfirst, hne, hshapes⟩
    · refine meets_pure ⟨_, rfl, ?_⟩
      rw [Correction.replan, if_pos (by simpa using hnil)]
      exact ⟨hnone, hsearch⟩
  · rintro e ⟨_, ⟨⟩, -⟩
  · rintro ⟨_, ⟨⟩, -⟩

/-- A look for an entity that fails: whatever the graph says, there is a correction. -/
theorem corrects_failed_look : (365 ≤ maxShift ∧ Text.blank "道路工程" = false) ∧
    (Corrector.correct ⟨{ index := ⟨[]⟩ }, 365⟩ "道路工程" (.noResults 1 0)
      [.failed (.searchEntity "工務局") "offline"]).Meets Ask.IsGraph fun o =>
        ∃ p, o = some (.ok (some p)) ∧
          p.Corrects (.noResults 1 0) [.failed (.searchEntity "工務局") "offline"] := by
  have hdays : (365 : Int) ≤ maxShift := by decide
  have hq : Text.blank "道路工程" = false := by decide
  refine ⟨⟨hdays, hq⟩, Program.Meets.mono (meets_correct_first _ hdays hq _ _) (fun _ => id) ?_⟩
  rintro _ ⟨p, rfl, hp⟩
  cases p with
  | some p => exact ⟨p, rfl, hp⟩
  | none =>
      obtain ⟨-, r, hr, htool⟩ := hp
      obtain rfl := List.mem_singleton.1 hr
      have hlook := ToolCall.tool?_searchEntity "工務局"
      exact nomatch hlook.symm.trans htool

end Corrector

end Archivist
