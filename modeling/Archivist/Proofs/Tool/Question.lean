import Archivist.Proofs.Wording
import Archivist.Tool.Toolbox
import Mathlib.Data.Nat.Notation

/-!
# What Tools Ask

Tools ask the document store, the knowledge graph and the embedding provider, and the language model
for nothing but an order of documents (`Toolbox.asks_run`). If one of these fails, what it says of
its failure makes no difference to what a tool asks and finds (`Toolbox.wordless_run`). Widening
search terms asks the knowledge graph alone (`Expander.meets_expand`).
-/

namespace Archivist

namespace Ask

/-- What the language model is asked for, if it is asked. -/
def task? : Ask → Option Task
  | complete request | stream request => some request.task
  | _ => none

/-- A question to the knowledge graph. -/
def IsGraph : Ask → Prop
  | aliasesNamed _ | entitiesNamed _ | entitiesById _ | aliasesFor _ | searchEntities ..
  | entityDetail _ => True
  | _ => False

/-- A question as tools ask them: the language model at most for an order of documents. -/
def IsForTool (q : Ask) : Prop := ∀ task, q.task? = some task → task = .rerank

/-- The knowledge graph is not the language model. -/
theorem IsGraph.task?_eq_none {q : Ask} (h : q.IsGraph) : q.task? = none := by
  cases q <;> first | rfl | cases h

/-- Tools may ask everybody but the language model. -/
theorem isForTool_of_task? {q : Ask} (h : q.task? = none) : q.IsForTool := fun task ht => by
  rw [h] at ht
  cases ht

/-- Tools may ask the knowledge graph. -/
theorem IsGraph.isForTool {q : Ask} (h : q.IsGraph) : q.IsForTool :=
  isForTool_of_task? h.task?_eq_none

/-- A question to the graph is no embedding. -/
theorem IsGraph.ne_embedding {q : Ask} (h : q.IsGraph) (text : String) : q ≠ .embedding text := by
  rintro rfl
  cases h

end Ask

/-- A question to anyone but the language model is as tools ask them, and answered by one value. -/
theorem Action.wordless_plain {q : Ask} (h : q.task? = none) : (ask q).Wordless Ask.IsForTool := by
  refine wordless_ask (Ask.isForTool_of_task? h) ?_
  rintro request rfl
  cases h

namespace Expander

open Archivist.Action

/-- A term is widened by what the graph knows. -/
theorem meets_aliases (x : Expander) (term : String) :
    (x.aliases term).Meets Ask.IsGraph (·.isSome) := by
  have hask : ∀ q : Ask, q.IsGraph → (ask q).Meets Ask.IsGraph (·.isSome) := fun q h =>
    meets_ask h fun _ => rfl
  simp only [aliases]
  split
  · exact meets_pure rfl
  · refine (hask (.aliasesNamed term) trivial).bind (fun named _ => ?_) (fun _ _ => rfl) id
    refine (hask (.entitiesNamed term) trivial).bind (fun canonical _ => ?_) (fun _ _ => rfl) id
    split
    · exact meets_pure rfl
    · refine (hask (.entitiesById _) trivial).bind (fun entities _ => ?_) (fun _ _ => rfl) id
      exact (hask (.aliasesFor _) trivial).bind (fun others _ => meets_pure rfl) (fun _ _ => rfl) id

/-- Names are added term by term; the graph may fail for a term, but adding names does not. -/
theorem meets_addAliases (x : Expander) (terms names : List String) :
    (x.addAliases terms names).Meets Ask.IsGraph fun o => ∃ found, o = some (.ok found) := by
  induction terms generalizing names with
  | nil => exact meets_pure ⟨names, rfl⟩
  | cons term rest ih => exact (x.meets_aliases term).caught.bind_ok fun found => ih _

/-- **Terms are widened without fail**, whatever becomes of the graph. -/
theorem meets_expand (x : Expander) (terms : List String) :
    (x.expand terms).Meets Ask.IsGraph fun o => ∃ found, o = some (.ok found) :=
  x.meets_addAliases _ _

/-- The names of an entity are gathered alike, whatever failures say. -/
theorem wordless_aliases (x : Expander) (term : String) :
    (x.aliases term).Wordless Ask.IsForTool := by
  simp only [aliases]
  split
  · exact wordless_pure _
  · refine (wordless_plain rfl).bind fun named => ?_
    refine (wordless_plain rfl).bind fun canonical => ?_
    split
    · exact wordless_pure _
    · refine (wordless_plain rfl).bind fun entities => ?_
      exact (wordless_plain rfl).bind fun others => wordless_pure _

/-- Whatever the graph says of its failure, the term gains nothing. -/
theorem wordless_addAliases (x : Expander) (terms names : List String) :
    (x.addAliases terms names).Wordless Ask.IsForTool := by
  induction terms generalizing names with
  | nil => exact wordless_pure names
  | cons term rest ih =>
      refine (x.wordless_aliases term).caught.bind fun r r' h => ?_
      cases h with
      | error _ => exact ih names
      | ok h => exact h ▸ ih _

/-- Terms are widened alike, whatever failures say. -/
theorem wordless_expand (x : Expander) (terms : List String) :
    (x.expand terms).Wordless Ask.IsForTool :=
  x.wordless_addAliases _ _

end Expander

namespace Retrieval

open Archivist.Action

/-- Candidates by embedding are looked for alike, whatever failures say. -/
theorem wordless_vectorCandidates (query : String) (filter : DocumentFilter) (limit : ℕ) :
    (vectorCandidates query filter limit).Wordless Ask.IsForTool := by
  refine (rewords_attempt (Ask.isForTool_of_task? rfl)).bind fun r r' h => ?_
  cases h with
  | error _ => exact wordless_pure []
  | @ok v v' h =>
      obtain rfl : v = v' := h
      cases v with
      | none => exact wordless_pure []
      | some vector => exact (wordless_plain rfl).bind fun _ => wordless_pure _

/-- Candidates by keyword are added alike, whatever failures say. -/
theorem wordless_withKeywords (terms : List String) (filter : DocumentFilter) (limit : ℕ)
    (strategy : SearchStrategy) (near : List Document) :
    (withKeywords terms filter limit strategy near).Wordless Ask.IsForTool := by
  rw [withKeywords]
  split
  · exact (wordless_plain rfl).bind fun _ => wordless_pure _
  · exact wordless_pure _

/-- All candidates are gathered alike, whatever failures say. -/
theorem wordless_candidates (query : String) (terms : List String) (filter : DocumentFilter)
    (limit : ℕ) (strategy : SearchStrategy) :
    (candidates query terms filter limit strategy).Wordless Ask.IsForTool := by
  have hwords := wordless_withKeywords terms filter limit strategy
  simp only [candidates]
  split
  · exact (wordless_vectorCandidates query filter limit).bind hwords
  · exact (wordless_pure _).bind hwords

end Retrieval

namespace Ranker

open Archivist.Action

/-- A judge that fails gives no order, whatever it says. -/
theorem wordless_judge (r : Ranker) (question : String) (documents : List Document) :
    (r.judge question documents).Wordless Ask.IsForTool := by
  simp only [judge]
  split
  · exact wordless_pure _
  · have hrerank : ∀ messages, (Ask.complete (.forTask .rerank messages)).IsForTool :=
      fun messages task h => (Option.some.inj h).symm
    refine (rewords_attempt (hrerank _)).bind fun r r' h => ?_
    cases h with
    | error _ => exact wordless_pure none
    | @ok output output' h =>
        obtain rfl : output = output' := h
        exact wordless_pure _

/-- Documents are ranked alike, whatever a judge that fails says. -/
theorem wordless_rankWithJudge (r : Ranker) (question : String) (terms : List String)
    (documents : List Document) :
    (r.rankWithJudge question terms documents).Wordless Ask.IsForTool := by
  refine (r.wordless_judge question documents).bind fun order => ?_
  split <;> exact wordless_pure _

end Ranker

namespace Retrieval

open Archivist.Action

/-- A search goes alike, whatever failures say. -/
theorem wordless_search (ranker : Ranker) (query : String) (terms : List String)
    (filter : DocumentFilter) (params : SearchParams) :
    (search ranker query terms filter params).Wordless Ask.IsForTool := by
  refine (wordless_candidates query terms filter _ params.strategy).bind fun found => ?_
  split
  · exact (ranker.wordless_rankWithJudge query terms found).bind fun _ => wordless_pure _
  · exact (wordless_pure _).bind fun _ => wordless_pure _

/-- A comparison goes alike, whatever failures say. -/
theorem wordless_similar (text : String) (filter : DocumentFilter) (limit : ℕ)
    (exclude : Option String) : (similar text filter limit exclude).Wordless Ask.IsForTool := by
  refine (wordless_plain rfl).bind fun vector => ?_
  split
  · exact wordless_pure _
  · exact (wordless_plain rfl).bind fun _ => wordless_pure _

end Retrieval

namespace Toolbox

open Archivist.Action

/-- The terms of a search are the same, whatever failures say. -/
theorem wordless_documentTerms (t : Toolbox) (args : DocumentsArgs) :
    (t.documentTerms args).Wordless Ask.IsForTool := by
  rw [documentTerms]
  split
  · exact t.expander.wordless_expand _
  · exact wordless_pure _

/-- The tool that searches documents comes out alike. -/
theorem wordless_searchDocuments (t : Toolbox) (args : DocumentsArgs) :
    (t.searchDocuments args).Wordless Ask.IsForTool :=
  (t.wordless_documentTerms args).bind fun _ => (wordless_ofExcept _).bind fun _ =>
    (Retrieval.wordless_search ..).bind fun _ => wordless_pure _

/-- The tool that searches dispatch orders comes out alike. -/
theorem wordless_searchDispatchOrders (t : Toolbox) (args : DispatchArgs) :
    (t.searchDispatchOrders args).Wordless Ask.IsForTool :=
  (wordless_ofExcept _).bind fun _ =>
    (wordless_plain rfl).bind fun _ => wordless_pure _

/-- The terms of a look for an entity are the same, whatever failures say. -/
theorem wordless_entityTerms (t : Toolbox) (args : EntitiesArgs) :
    (t.entityTerms args).Wordless Ask.IsForTool := by
  rw [entityTerms]
  split
  · exact t.expander.wordless_expand _
  · exact wordless_pure _

/-- The tool that looks for entities comes out alike. -/
theorem wordless_searchEntities (t : Toolbox) (args : EntitiesArgs) :
    (t.searchEntities args).Wordless Ask.IsForTool :=
  (t.wordless_entityTerms args).bind fun _ => (wordless_plain rfl).bind fun _ => wordless_pure _

/-- A name is resolved alike, whatever failures say. -/
theorem wordless_resolve (name : String) : (resolve name).Wordless Ask.IsForTool := by
  refine (wordless_plain rfl).bind fun named => ?_
  split
  · exact wordless_pure _
  · refine (wordless_plain rfl).bind fun others => ?_
    split
    · exact wordless_pure _
    · exact (wordless_plain rfl).bind fun _ => wordless_pure _

/-- Related entities are listed alike, whatever failures say. -/
theorem wordless_linked (ids : List String) : (linked ids).Wordless Ask.IsForTool := by
  induction ids with
  | nil => exact wordless_pure _
  | cons id rest ih =>
      exact (wordless_plain rfl).bind fun record =>
        ih.bind fun _ => wordless_pure _

/-- Which entity is meant is found out alike, whatever failures say. -/
theorem wordless_subject (args : DetailArgs) : (subject args).Wordless Ask.IsForTool := by
  rw [subject]
  split
  · exact wordless_pure _
  · exact wordless_resolve _
  · exact wordless_pure _

/-- An entity is described alike, whatever failures say. -/
theorem wordless_describe (id : Option String) : (describe id).Wordless Ask.IsForTool := by
  cases id with
  | none => exact wordless_pure _
  | some id =>
      refine (wordless_plain rfl).bind fun detail => ?_
      split
      · exact wordless_pure _
      · exact (wordless_linked _).bind fun _ => wordless_pure _

/-- The tool that tells about an entity comes out alike. -/
theorem wordless_getEntityDetail (args : DetailArgs) :
    (getEntityDetail args).Wordless Ask.IsForTool :=
  (wordless_subject args).bind wordless_describe

/-- The tool that finds similar documents comes out alike. -/
theorem wordless_findSimilar (t : Toolbox) (args : SimilarArgs) :
    (t.findSimilar args).Wordless Ask.IsForTool := by
  simp only [findSimilar]
  split
  · refine (wordless_plain rfl).bind fun record => ?_
    split
    · exact wordless_throw _
    · exact (Retrieval.wordless_similar ..).bind fun _ => wordless_pure _
  · exact (Retrieval.wordless_similar ..).bind fun _ => wordless_pure _
  · exact wordless_throw _

/-- The tool that counts comes out alike. -/
theorem wordless_getStatistics (args : StatisticsArgs) :
    (getStatistics args).Wordless Ask.IsForTool :=
  (wordless_ofExcept _).bind fun _ =>
    (wordless_plain rfl).bind fun _ => wordless_pure _

/-- **What a tool asks and finds has no words of a failure in it.** -/
theorem wordless_run (t : Toolbox) (request : ToolRequest) :
    (t.run request).Wordless Ask.IsForTool := by
  cases request with
  | searchDocuments args => exact t.wordless_searchDocuments args
  | searchDispatchOrders args => exact t.wordless_searchDispatchOrders args
  | searchEntities args => exact t.wordless_searchEntities args
  | getEntityDetail args => exact wordless_getEntityDetail args
  | findSimilar args => exact t.wordless_findSimilar args
  | getStatistics args => exact wordless_getStatistics args

/-- **A tool asks the language model at most for an order of documents.** -/
theorem asks_run (t : Toolbox) (request : ToolRequest) : (t.run request).Asks Ask.IsForTool :=
  (t.wordless_run request).asks

end Toolbox

end Archivist
