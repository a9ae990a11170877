import Archivist.Proofs.Plan.Correcting
import Archivist.Proofs.Tool.Terms

/-!
# Widened Searches

Widening keeps the terms that it starts from and adds to them, whatever the dictionary and the graph
say. But what it starts from is the query of the first search for documents, read under one of its
keys, or the question if there is none. The search itself may take its terms from elsewhere: from
keywords, or from a query under another key. So the corrected search covers the terms of the first
search if they are covered by what widening starts from, and a search with keywords can lose them.

## Main results

* `Expander.meets_expand_keeps`: widening keeps terms, and adds their synonyms.
* `Corrector.meets_correct_widens`: when the corrected search covers the terms of the first one.
* `Corrector.keyword_lost`: a keyword that the corrected search does not look for.
-/

namespace Archivist

namespace Expander

open Archivist.Action

/-- A term keeps its place among its synonyms. -/
theorem mem_withSynonyms (x : Expander) {term : String} {asked : List String} (h : term ∈ asked) :
    term ∈ x.withSynonyms asked :=
  mem_foldl_pushTerm h _

/-- What the graph says is added to the terms that are there. -/
theorem meets_addAliases_keeps (x : Expander) (terms names : List String) :
    (x.addAliases terms names).Meets Ask.IsGraph fun o =>
      ∃ found, o = some (.ok found) ∧ ∀ term ∈ names, term ∈ found := by
  induction terms generalizing names with
  | nil => exact meets_pure ⟨names, rfl, fun _ => id⟩
  | cons term rest ih =>
      refine (x.meets_aliases term).caught.bind_ok fun found => ?_
      refine Program.Meets.mono (ih _) (fun _ => id) ?_
      rintro o ⟨found', rfl, hkeeps⟩
      refine ⟨found', rfl, fun name hname => hkeeps name ?_⟩
      cases found with
      | error e => exact hname
      | ok others => exact mem_foldl_pushTerm hname others

/-- **Widening keeps terms**, and adds their synonyms, whatever the graph says. -/
theorem meets_expand_keeps (x : Expander) (query : String) :
    (x.expand (termsOf query)).Meets Ask.IsGraph fun o => ∃ found, o = some (.ok found) ∧
      ∀ term ∈ x.withSynonyms (termsOf query), term ∈ found := by
  have hexpand : x.expand (termsOf query) =
      x.addAliases (termsOf query) (x.withSynonyms (termsOf query)) := by
    simp only [expand, foldl_pushTerm_termsOf]
  rw [hexpand]
  exact x.meets_addAliases_keeps _ _

end Expander

/-! ### Searches -/

namespace Correction

open Archivist.ToolCall

variable {c : ToolCall} {args : DocumentsArgs}

/-- What widening takes for the query of a search. -/
def readQuery (question : String) (c : ToolCall) : String := (c.text? "query").getD question

/-- The keywords of a corrected search are those that it is given. -/
theorem ofCall_withKeywords (hsorted : c.arguments.Sorted)
    (hr : ToolRequest.ofCall c = .ok (.searchDocuments args)) {keywords : List String}
    (hne : keywords ≠ []) :
    ToolRequest.ofCall (withKeywords c keywords) =
      .ok (.searchDocuments (args.withKeywords keywords)) := by
  obtain ⟨htool, hparts⟩ := ToolRequest.ofCall_eq_ok_iff.1 hr
  have hargs := (ToolRequest.ofParts_searchDocuments_iff.1 hparts).1
  refine ToolRequest.ofCall_eq_ok_iff.2
    ⟨htool, ToolRequest.ofParts_searchDocuments_iff.2 ⟨?_, ?_⟩⟩
  · exact DocumentsArgs.ofJson_insert_keywords hsorted hargs keywords
  · rw [Bool.or_eq_true, Bool.not_eq_true', Bool.not_eq_true', List.isEmpty_eq_false_iff]
    exact .inr hne

open Archivist.Action in
/-- A corrected search has the terms that widening starts from, and their synonyms. -/
theorem meets_expand_first (x : Expander) (question : String) {results : List ToolResult}
    (hfirst : firstSearch? results = some c) :
    (expand x question results).Meets Ask.IsGraph fun o => ∃ calls, o = some (.ok calls) ∧
      (calls = [] ∨ ∃ keywords, calls = [withKeywords c keywords] ∧ keywords ≠ [] ∧
        ∀ term ∈ x.withSynonyms (termsOf (readQuery question c)), term ∈ keywords) := by
  simp only [expand, hfirst]
  refine (x.meets_expand_keeps (readQuery question c)).bind ?_ ?_ ?_
  · rintro keywords ⟨_, ⟨⟩, hkeeps⟩
    refine meets_pure ⟨_, rfl, ?_⟩
    split_ifs with hsame
    · exact .inl rfl
    · rw [Bool.or_eq_true, decide_eq_true_iff, not_or, not_le] at hsame
      exact .inr ⟨keywords, rfl, List.ne_nil_of_length_pos (Nat.zero_lt_of_lt hsame.2), hkeeps⟩
  · rintro e ⟨_, ⟨⟩, -⟩
  · rintro ⟨_, ⟨⟩, -⟩

/-- Widening terms is no rule. -/
theorem ne_expandTerms_of_byRule {days : Int} {question : String} {results : List ToolResult}
    {rules : List (Correction × List ToolCall)} {rule : Correction × List ToolCall}
    (h : byRule days question results = some rules) (hrule : rule ∈ rules) :
    rule.1 ≠ .expandTerms := by
  obtain ⟨calls, -, rfl⟩ := Option.map_eq_some_iff.1 h
  simp only [List.mem_cons, List.not_mem_nil, or_false] at hrule
  rcases hrule with rfl | rfl | rfl | rfl <;> exact nofun

/-- A corrected plan is of the correction and has its calls. -/
theorem eq_of_replan {k : Correction} {shortfall : Shortfall} {calls : List ToolCall} {p : Replan}
    (h : k.replan shortfall calls = some p) : p.correction = k ∧ p.plan.calls = calls := by
  rw [replan] at h
  split at h
  · cases h
  · cases h
    exact ⟨rfl, rfl⟩

end Correction

namespace Corrector

open Archivist.Action

variable {question : String} {results : List ToolResult} {call : ToolCall} {args : DocumentsArgs}

/-- The plan searches for all terms of these arguments, by itself. -/
def Covers (args : DocumentsArgs) (p : Replan) : Prop :=
  ∃ call' args', p.plan.calls = [call'] ∧
    ToolRequest.ofCall call' = .ok (.searchDocuments args') ∧
    ∀ term ∈ Toolbox.searchTerms args, term ∈ Toolbox.searchTerms args'

/-- A search that gives its query under its own key and no keywords looks for what widening starts
from. -/
theorem searchTerms_of_query (question : String) (hkeywords : args.keywords = [])
    (hquery : call.text? "query" = some args.query) :
    Toolbox.searchTerms args = termsOf (Correction.readQuery question call) := by
  rw [Toolbox.searchTerms, hkeywords, Correction.readQuery, hquery]
  rfl

/-- If terms are widened, the calls are a corrected search with the terms that widening starts
from. -/
theorem meets_choose_widens (c : Corrector) {rules : List (Correction × List ToolCall)}
    (hrules : Correction.byRule c.broadenDays question results = some rules)
    (hfirst : Correction.firstSearch? results = some call) :
    (c.choose question results rules).Meets Ask.IsGraph fun o => ∃ found, o = some (.ok found) ∧
      (found.1 = .expandTerms → found.2 = [] ∨ ∃ keywords,
        found.2 = [Correction.withKeywords call keywords] ∧ keywords ≠ [] ∧
          ∀ term ∈ c.expander.withSynonyms (termsOf (Correction.readQuery question call)),
            term ∈ keywords) := by
  rw [choose]
  split
  · rename_i found hfound
    have hne := Correction.ne_expandTerms_of_byRule hrules (List.mem_of_find?_eq_some hfound)
    exact meets_pure ⟨found, rfl, fun hexpand => absurd hexpand hne⟩
  · refine (Correction.meets_expand_first c.expander question hfirst).bind ?_ ?_ ?_
    · rintro calls ⟨_, ⟨⟩, hcalls⟩
      exact meets_pure ⟨_, rfl, fun _ => hcalls⟩
    · rintro e ⟨_, ⟨⟩, -⟩
    · rintro ⟨_, ⟨⟩, -⟩

/-- **A widened search covers the first search** of the round if widening starts from the terms of
that search, or from terms that have them as synonyms. -/
theorem meets_correct_widens (c : Corrector) (question : String) (shortfall : Shortfall)
    (hfirst : Correction.firstSearch? results = some call) (hsorted : call.arguments.Sorted)
    (hr : ToolRequest.ofCall call = .ok (.searchDocuments args))
    (hread : ∀ term ∈ Toolbox.searchTerms args,
      term ∈ c.expander.withSynonyms (termsOf (Correction.readQuery question call))) :
    (c.correct question shortfall results).Meets Ask.IsGraph fun o =>
      ∀ p, o = some (.ok (some p)) → p.correction = .expandTerms → Covers args p := by
  rw [correct]
  split
  · intro p hp
    cases hp
  · rename_i rules hrules
    refine (c.meets_choose_widens hrules hfirst).bind ?_ ?_ ?_
    · rintro ⟨k, calls⟩ ⟨_, ⟨⟩, hcalls⟩
      refine meets_pure fun p hp hexpand => ?_
      rw [Option.some.injEq, Except.ok.injEq] at hp
      obtain ⟨rfl, rfl⟩ := Correction.eq_of_replan hp
      have hplan := Correction.calls_ne_nil_of_replan hp
      obtain ⟨keywords, hcalls, hne, hkeeps⟩ := (hcalls hexpand).resolve_left hplan
      refine ⟨_, _, hcalls, Correction.ofCall_withKeywords hsorted hr hne, fun term hterm => ?_⟩
      have hterms : Toolbox.searchTerms (args.withKeywords keywords) = keywords := by
        rw [Toolbox.searchTerms, if_neg (by simpa [DocumentsArgs.withKeywords] using hne)]
        rfl
      rw [hterms]
      exact hkeeps term (hread term hterm)
    · rintro e ⟨_, ⟨⟩, -⟩
    · rintro ⟨_, ⟨⟩, -⟩

/-- Two pairs of words that mean the same. -/
def roadDictionary : SynonymIndex := ⟨[["道路", "馬路"], ["工務局", "臺北市政府工務局"]]⟩

/-- A search for an agency by its name. -/
def agencySearch : ToolCall := ⟨"search_documents", [("query", .str "工務局")]⟩

/-- A search by name is covered. -/
theorem agency_covered :
    (Correction.firstSearch? [.succeeded agencySearch (.documents [])] = some agencySearch ∧
      agencySearch.arguments.Sorted) ∧
    ∃ args, ToolRequest.ofCall agencySearch = .ok (.searchDocuments args) ∧
      (∀ term ∈ Toolbox.searchTerms args, term ∈ Expander.withSynonyms { index := roadDictionary }
        (termsOf (Correction.readQuery "道路工程" agencySearch))) ∧
      (Corrector.correct ⟨{ index := roadDictionary }, 365⟩ "道路工程" (.noResults 0 1)
        [.succeeded agencySearch (.documents [])]).Meets Ask.IsGraph fun o =>
          ∀ p, o = some (.ok (some p)) → p.correction = .expandTerms → Covers args p := by
  have htool : agencySearch.tool? = some .searchDocuments := by decide +kernel
  have hfirst : Correction.firstSearch? [.succeeded agencySearch (.documents [])] =
      some agencySearch := by
    have hto : agencySearch.isTo .searchDocuments = true := decide_eq_true htool
    rw [Correction.firstSearch?, List.map_singleton]
    exact List.find?_cons_of_pos hto
  have hsorted : agencySearch.arguments.Sorted := by decide
  have hr : ToolRequest.ofCall agencySearch = .ok (.searchDocuments
      ⟨"工務局", [], none, none, none, none, none, none, none, none⟩) :=
    ToolRequest.ofCall_eq_ok_iff.2 ⟨htool, rfl⟩
  have hread : ∀ term ∈ Toolbox.searchTerms
      ⟨"工務局", [], none, none, none, none, none, none, none, none⟩,
      term ∈ Expander.withSynonyms { index := roadDictionary }
        (termsOf (Correction.readQuery "道路工程" agencySearch)) := by
    rw [searchTerms_of_query "道路工程" rfl
      (ToolCall.text?_of_get? (c := agencySearch) rfl (by decide))]
    exact fun term hterm => Expander.mem_withSynonyms _ hterm
  -- All arguments are given: otherwise Lean runs the correction to see if it takes another one.
  have hcovered := @meets_correct_widens [.succeeded agencySearch (.documents [])] agencySearch _
    ⟨{ index := roadDictionary }, 365⟩ "道路工程" (.noResults 0 1) hfirst hsorted hr hread
  exact ⟨⟨hfirst, hsorted⟩, _, hr, hread, hcovered⟩

/-- A search for an agency among what there is about roads. -/
def keywordSearch : ToolCall :=
  ⟨"search_documents", [("keywords", .arr [.str "工務局"]), ("query", .str "道路")]⟩

open Archivist.Action in
/-- Widening starts from the query of this search, for which there is one other word. -/
theorem expand_keywordSearch : Correction.expand { index := roadDictionary } "道路工程"
    [.succeeded keywordSearch (.documents [])] = (do
      let expanded ← Expander.addAliases { index := roadDictionary } ["道路"] ["道路", "馬路"]
      return if Correction.isExpanded keywordSearch || expanded.length ≤ 1 then []
        else [Correction.withKeywords keywordSearch expanded]) := by
  have hfirst : Correction.firstSearch? [.succeeded keywordSearch (.documents [])] =
      some keywordSearch := rfl
  have hterms : termsOf ((keywordSearch.text? "query").getD "道路工程") = ["道路"] := rfl
  have hasked : ["道路"].foldl pushTerm [] = ["道路"] := rfl
  have hsynonyms : Expander.withSynonyms { index := roadDictionary } ["道路"] =
      ["道路", "馬路"] := by decide +kernel
  simp only [Correction.expand, hfirst, Option.bind_some, hterms, Expander.expand, hasked,
    hsynonyms]
  rfl

/-- A keyword that the corrected search does not look for: widening starts from the query. -/
theorem keyword_lost : ∃ args, ToolRequest.ofCall keywordSearch = .ok (.searchDocuments args) ∧
    ¬ (Corrector.correct ⟨{ index := roadDictionary }, 365⟩ "道路工程" (.noResults 0 1)
      [.succeeded keywordSearch (.documents [])]).Meets Ask.IsGraph fun o =>
        ∀ p, o = some (.ok (some p)) → p.correction = .expandTerms → Covers args p := by
  have htool : keywordSearch.tool? = some .searchDocuments := by decide +kernel
  have hr : ToolRequest.ofCall keywordSearch = .ok (.searchDocuments
      ⟨"道路", ["工務局"], none, none, none, none, none, none, none, none⟩) :=
    ToolRequest.ofCall_eq_ok_iff.2 ⟨htool, rfl⟩
  -- No other correction applies.
  have hrules : Correction.byRule 365 "道路工程" [.succeeded keywordSearch (.documents [])] =
      some [(.broadenDates, []), (.dropEntityFilter, []), (.switchToHybrid, []),
        (.fallbackTool, [])] := by
    rw [Correction.byRule]
    exact congrArg some rfl
  refine ⟨_, hr, fun h => ?_⟩
  have hend := Program.Meets.endWith h fun _ => .error (.store "offline")
  have hplan : (Corrector.correct ⟨{ index := roadDictionary }, 365⟩ "道路工程" (.noResults 0 1)
      [.succeeded keywordSearch (.documents [])]).run.endWith
        (fun _ => .error (.store "offline")) = some (.ok (Correction.expandTerms.replan
          (.noResults 0 1) [Correction.withKeywords keywordSearch ["道路", "馬路"]])) := by
    rw [correct, hrules]
    simp only [choose, expand_keywordSearch]
    rfl
  obtain ⟨call', args', hcalls, hr', hcovers⟩ := hend _ hplan rfl
  obtain rfl := List.singleton_inj.1 hcalls
  have hwidened := Correction.ofCall_withKeywords (by decide) hr
    (List.cons_ne_nil "道路" ["馬路"])
  cases hwidened.symm.trans hr'
  exact absurd (hcovers "工務局" (by decide)) (by decide)

end Corrector

end Archivist
