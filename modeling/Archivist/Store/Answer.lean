import Archivist.Collaborator
import Archivist.Embedding.Batch
import Archivist.Store.Corpus

/-!
# The Corpus as a Collaborator

A corpus answers the questions that go to the document store and to the knowledge graph. It also
keeps the embeddings of its documents: those that have none are embedded in one go, and either all
of them get what came of it or none does.
-/

namespace Archivist

/-- The name of a question to the store or to the graph; other questions have none. -/
def Ask.storeWord? : Ask → Option String
  | keywordSearch .. => some "keyword_search"
  | vectorSearch .. => some "vector_search"
  | document _ => some "get_document"
  | searchDispatchOrders .. => some "search_dispatch_orders"
  | statistics _ => some "statistics"
  | aliasesNamed _ => some "aliases_named"
  | entitiesNamed _ => some "entities_named"
  | entitiesById _ => some "entities_by_id"
  | aliasesFor _ => some "aliases_for"
  | searchEntities .. => some "search_entities"
  | entityDetail _ => some "entity_detail"
  | complete _ | stream _ | embedding _ => none

namespace Corpus

/-- The answer to a question to the store or to the graph. -/
def value? (c : Corpus) : (q : Ask) → Option q.Value
  | .keywordSearch filter limit => some (c.keywordSearch filter limit)
  | .vectorSearch vector filter limit => some (c.vectorSearch vector filter limit)
  | .document id => some (c.document? id)
  | .searchDispatchOrders filter limit => some (c.searchDispatchOrders filter limit)
  | .statistics query => some (c.statistics query)
  | .aliasesNamed name => some (c.aliasesNamed name)
  | .entitiesNamed name => some (c.entitiesNamed name)
  | .entitiesById ids => some (c.entitiesById ids)
  | .aliasesFor ids => some (c.aliasesFor ids)
  | .searchEntities terms entityType limit => some (c.searchEntities terms entityType limit)
  | .entityDetail id => some (c.entityDetail? id)
  | .complete _ | .stream _ | .embedding _ => none

/-- The texts of the documents without an embedding. -/
def unembedded (c : Corpus) : List String :=
  (c.documents.filter (·.embedding.isNone)).map (·.record.text)

/-- Gives the documents without an embedding what was found for them, in order. -/
def fillEmbeddings : List StoredDocument → List (Option Embedding) → List StoredDocument
  | [], _ => []
  | d :: rest, found =>
    match d.embedding, found with
    | none, v :: found => { d with embedding := v } :: fillEmbeddings rest found
    | _, _ => d :: fillEmbeddings rest found

/-- The corpus with embeddings for the documents that had none. -/
def withEmbeddings (c : Corpus) (found : List (Option Embedding)) : Corpus :=
  { c with documents := fillEmbeddings c.documents found }

/-- What becomes of a corpus whose documents without an embedding have been embedded, and the number
of those that have one then. -/
def indexed (c : Corpus) : Ending (List (Option Embedding)) → Ending Nat × Corpus
  | .value (.ok found) => (.value (.ok (found.filter (·.isSome)).length), c.withEmbeddings found)
  | .value (.error e) => (.value (.error e), c)
  | .crashed => (.crashed, c)
  | .late => (.late, c)

/-- Embeds the documents that have no embedding. -/
def embed {env : Environment} (c : Corpus) (w : World env) : (Ending Nat × Corpus) × World env :=
  let texts := c.unembedded
  if texts.isEmpty then ((.value (.ok 0), c), w)
  else
    let (found, w) := Batch.run texts w
    (c.indexed found, w)

end Corpus

end Archivist
