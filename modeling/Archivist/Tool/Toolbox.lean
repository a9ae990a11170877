import Archivist.Expansion
import Archivist.Tool.Output
import Archivist.Tool.Request
import Archivist.Tool.Terms

/-!
# Running Tools

What each tool does with its arguments. Tools only ask and change nothing. An order of steps shows
in the answers: search terms are widened before dates are read, and dates are read before the
store is asked.
-/

namespace Archivist

/-- What tools work with. -/
structure Toolbox where
  ranker : Ranker
  expander : Expander
  /-- The number of results when a call does not give a limit. -/
  defaultLimit : Nat
  /-- Whether a language model judges documents when a call does not say. -/
  judged : Bool

/-- The text that a search for documents is about; `terms` are what it looks for. -/
def DocumentsArgs.text (args : DocumentsArgs) (terms : List String) : String :=
  if Text.blank args.query then Text.joined " " terms else args.query

/-- The structured filter of a search for documents. -/
def DocumentsArgs.filter (args : DocumentsArgs) (dates : DateRange) : DocumentFilter where
  dates := dates
  sender := args.sender.bind Text.unlessBlank
  docType := args.docType.bind Text.unlessBlank

/-- The filter of a search for dispatch orders. -/
def DispatchArgs.filter (args : DispatchArgs) (dates : DateRange) : DispatchFilter where
  keywords := if args.keywords.isEmpty then args.query.elim [] termsOf else args.keywords
  status := args.status.bind Text.unlessBlank
  assignee := args.assignee.bind Text.unlessBlank
  dates := dates

/-- What a request for statistics is to count. -/
def StatisticsArgs.query (args : StatisticsArgs) (dates : DateRange) : StatisticsQuery where
  kind := args.kind.getD .documents
  groupBy := args.groupBy.bind Text.unlessBlank
  dates := dates

namespace Toolbox

/-- No call has more results than this. -/
def maxLimit : Nat := 50

/-- The number of linked documents that are shown with an entity. -/
def maxLinked : Nat := 10

/-- The number of results of a call. -/
def limit (t : Toolbox) (requested : Option Nat) : Nat :=
  min (max (requested.getD t.defaultLimit) 1) maxLimit

/-- The terms that a search for documents looks for before they are widened. -/
def searchTerms (args : DocumentsArgs) : List String :=
  if args.keywords.isEmpty then termsOf args.query else args.keywords

/-- The terms that a search for documents looks for, widened if the call says so. -/
def documentTerms (t : Toolbox) (args : DocumentsArgs) : Action (List String) :=
  if args.expand.getD false then t.expander.expand (searchTerms args) else pure (searchTerms args)

/-- Searches documents. -/
def searchDocuments (t : Toolbox) (args : DocumentsArgs) : Action ToolOutput := do
  let terms ← t.documentTerms args
  let dates ← Action.ofExcept (ToolRequest.readDates .searchDocuments args.dateFrom args.dateTo)
  let documents ← Retrieval.search t.ranker (args.text terms) terms (args.filter dates) {
    limit := t.limit args.limit
    strategy := args.strategy.getD .hybrid
    judged := args.judged.getD t.judged }
  return .documents documents

/-- A dispatch order that has been found; it matches the filter exactly, so it is relevant. -/
def dispatchOrder (keywords : List String) (r : Record) : Document :=
  { Document.ofRecord r .keyword 0 with
    keywordScore := Coverage.score keywords r.text
    rerankScore := 1 }

/-- Searches dispatch orders. -/
def searchDispatchOrders (t : Toolbox) (args : DispatchArgs) : Action ToolOutput := do
  let dates ← Action.ofExcept
    (ToolRequest.readDates .searchDispatchOrders args.dateFrom args.dateTo)
  let records ← Action.ask (.searchDispatchOrders (args.filter dates) (t.limit args.limit))
  return .documents (records.map (dispatchOrder (args.filter dates).keywords))

/-- The names that a search for entities looks for: widened, unless the call says otherwise. -/
def entityTerms (t : Toolbox) (args : EntitiesArgs) : Action (List String) :=
  if args.expand.getD true then t.expander.expand [args.name] else pure [args.name]

/-- Searches entities. -/
def searchEntities (t : Toolbox) (args : EntitiesArgs) : Action ToolOutput := do
  let terms ← t.entityTerms args
  let entities ← Action.ask (.searchEntities terms args.entityType (t.limit args.limit))
  return .entities entities

/-- The entity with a name: by canonical name, by another name, or by a part of a name. -/
def resolve (name : String) : Action (Option String) := do
  match ← Action.ask (.entitiesNamed name) with
  | entity :: _ => return some entity.id
  | [] =>
    match ← Action.ask (.aliasesNamed name) with
    | other :: _ => return some other.entityId
    | [] =>
      let found ← Action.ask (.searchEntities [name] none 1)
      return found.head?.map (·.id)

/-- The documents with some identifiers; those that do not exist are passed over. -/
def linked : List String → Action (List Document)
  | [] => return []
  | id :: rest => do
    let record ← Action.ask (.document id)
    let others ← linked rest
    return (record.map fun r => { Document.ofRecord r .graph 0 with rerankScore := 1 }).toList ++
      others

/-- The entity that a call is about, if there is one. -/
def subject (args : DetailArgs) : Action (Option String) :=
  match args.entityId, args.name with
  | some id, _ => pure (some id)
  | none, some name => resolve name
  | none, none => pure none

/-- What is known of an entity, with its documents. -/
def describe : Option String → Action ToolOutput
  | none => return .entities []
  | some id => do
    match ← Action.ask (.entityDetail id) with
    | none => return .entities []
    | some detail =>
      let documents ← linked (detail.documentIds.take maxLinked)
      return .entityDetail detail documents

/-- Looks at one entity. -/
def getEntityDetail (args : DetailArgs) : Action ToolOutput := do
  describe (← subject args)

/-- Finds documents like one of the store or like a text. -/
def findSimilar (t : Toolbox) (args : SimilarArgs) : Action ToolOutput := do
  let limit := t.limit args.limit
  match args.documentId, args.text with
  | some id, _ =>
    match ← Action.ask (.document id) with
    | none => throw (.badArguments ToolName.findSimilar.word ("no document with id " ++ id))
    | some record => return .documents (← Retrieval.similar record.text {} limit (some id))
  | none, some text => return .documents (← Retrieval.similar text {} limit none)
  | none, none =>
    throw (.badArguments ToolName.findSimilar.word "document_id or text is required")

/-- Counts records. -/
def getStatistics (args : StatisticsArgs) : Action ToolOutput := do
  let dates ← Action.ofExcept
    (ToolRequest.readDates .getStatistics args.dateFrom args.dateTo)
  let stats ← Action.ask (.statistics (args.query dates))
  return .statistics (args.query dates) stats

/-- Runs a tool. -/
def run (t : Toolbox) : ToolRequest → Action ToolOutput
  | .searchDocuments args => t.searchDocuments args
  | .searchDispatchOrders args => t.searchDispatchOrders args
  | .searchEntities args => t.searchEntities args
  | .getEntityDetail args => getEntityDetail args
  | .findSimilar args => t.findSimilar args
  | .getStatistics args => getStatistics args

end Toolbox

end Archivist
