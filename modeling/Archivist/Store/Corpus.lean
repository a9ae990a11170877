import Archivist.Embedding.Similarity
import Archivist.Json.Reader
import Archivist.Order.Stable
import Archivist.Store.Entity
import Archivist.Store.Filter
import Archivist.Text.Case

/-!
# The Corpus

Everything that questions are answered from, held in memory: documents, some of them with an
embedding, dispatch orders, the tables of the knowledge graph and groups of synonyms. The
operations of the document store and of the knowledge graph are the queries that tools make.

Keyword search finds the documents in whose text at least one keyword occurs, regardless of case,
and puts those with more keywords first, then the newer ones; vector search orders the documents
that have an embedding by similarity.
-/

namespace Archivist

/-- A document with its embedding, if it has one. -/
structure StoredDocument where
  record : Record
  embedding : Option Embedding

/-- Everything that questions are answered from. -/
structure Corpus where
  documents : List StoredDocument := []
  dispatchOrders : List Record := []
  entities : List Entity := []
  aliases : List AliasName := []
  relations : List Relation := []
  mentions : List Mention := []
  synonyms : List (List String) := []

/-- The number of keywords that occur in the text of a record; blank ones do not count. -/
def Record.keywordHits (r : Record) (keywords : List String) : Nat :=
  let text := Text.lower r.text.toList
  keywords.countP fun k => !Text.blank k && Text.occurs (Text.lower k.toList) text

/-- Whether `a` is dated later than `b`; a record without a date is earlier than all others. -/
def Record.newer (a b : Record) : Bool :=
  match a.date?, b.date? with
  | some d, some e => decide (e < d)
  | some _, none => true
  | none, _ => false

namespace Corpus

/-- The order of keyword search: more hits first, then the newer record. -/
def betterHit (a b : Nat × Record) : Bool :=
  decide (b.1 < a.1) || (a.1 = b.1 && a.2.newer b.2)

/-- The documents that pass a filter and hold one of its keywords, best first. -/
def keywordSearch (c : Corpus) (filter : DocumentFilter) (limit : Nat) : List Record :=
  let passing := (c.documents.map (·.record)).filter filter.admits
  let hits := (passing.map fun r => (r.keywordHits filter.keywords, r)).filter fun (n, _) =>
    filter.keywords.isEmpty || decide (0 < n)
  ((stableSort betterHit hits).take limit).map (·.2)

/-- The documents that pass a filter with their similarity to a vector, most similar first. -/
def vectorSearch (c : Corpus) (vector : Embedding) (filter : DocumentFilter) (limit : Nat) :
    List (Record × Score) :=
  let scored := (c.documents.filter (filter.admits ·.record)).filterMap fun d =>
    d.embedding.map fun v => (d.record, similarity vector v)
  (stableSort (fun a b => decide (b.2 < a.2)) scored).take limit

/-- The first document with this identifier. -/
def document? (c : Corpus) (id : String) : Option Record :=
  (c.documents.find? (·.record.id = id)).map (·.record)

/-- The dispatch orders that pass a filter, newest first. -/
def searchDispatchOrders (c : Corpus) (filter : DispatchFilter) (limit : Nat) : List Record :=
  let passing := c.dispatchOrders.filter fun r =>
    (filter.keywords.isEmpty || decide (0 < r.keywordHits filter.keywords)) && filter.admits r
  (stableSort Record.newer passing).take limit

/-- The label under which records without a value are counted. -/
def unknownGroup : String := "未知"

/-- Counts one more under a label; the labels stay sorted. -/
def countUnder (label : String) : List (String × Nat) → List (String × Nat)
  | [] => [(label, 1)]
  | (l, n) :: rest =>
    if label < l then (label, 1) :: (l, n) :: rest
    else if label = l then (l, n + 1) :: rest
    else (l, n) :: countUnder label rest

/-- The records of a kind. -/
def records (c : Corpus) : RecordKind → List Record
  | .documents => c.documents.map (·.record)
  | .dispatchOrders => c.dispatchOrders

/-- The value under which a record is counted. -/
def groupLabel (field : String) (r : Record) : String :=
  ((r.field? field).bind Text.unlessBlank).getD unknownGroup

/-- Counts the records of a kind in a range of dates. -/
def statistics (c : Corpus) (query : StatisticsQuery) : Statistics :=
  let counted := (c.records query.kind).filter query.dates.admits
  { total := counted.length
    groups := match query.groupBy with
      | none => []
      | some field => counted.foldl (fun groups r => countUnder (groupLabel field r) groups) [] }

/-- The aliases with this name. -/
def aliasesNamed (c : Corpus) (name : String) : List AliasName :=
  c.aliases.filter (·.name = name)

/-- The entities with this canonical name. -/
def entitiesNamed (c : Corpus) (name : String) : List Entity :=
  c.entities.filter (·.canonicalName = name)

/-- The entities with one of these identifiers. -/
def entitiesById (c : Corpus) (ids : List String) : List Entity := c.entities.filter (·.id ∈ ids)

/-- The aliases of the entities with one of these identifiers. -/
def aliasesFor (c : Corpus) (ids : List String) : List AliasName :=
  c.aliases.filter (·.entityId ∈ ids)

/-- The other names of one entity. -/
def aliasesOf (c : Corpus) (id : String) : List String :=
  (c.aliases.filter (·.entityId = id)).map (·.name)

/-- The entities whose canonical name or one of whose other names holds one of the terms,
regardless of case; of several entities with one identifier the first. -/
def searchEntities (c : Corpus) (terms : List String) (entityType : Option String)
    (limit : Nat) : List Entity :=
  let terms := (terms.filter (!Text.blank ·)).map fun t => Text.lower t.toList
  let holds (name : String) : Bool :=
    let name := Text.lower name.toList
    terms.any fun t => Text.occurs t name
  let found := c.entities.filter fun e =>
    entityType.all (e.entityType = ·) &&
    (holds e.canonicalName || (c.aliasesOf e.id).any holds)
  (firstOfEach Entity.id [] found).take limit

/-- All that is known of one entity. -/
def entityDetail? (c : Corpus) (id : String) : Option EntityDetail :=
  (c.entities.find? (·.id = id)).map fun entity => {
    entity
    aliases := c.aliasesOf id
    relations := c.relations.filter fun r => r.sourceId = id || r.targetId = id
    documentIds := (c.mentions.filter (·.entityId = id)).map (·.documentId) }

end Corpus

/-- Reads a document of the corpus: the members of a record and perhaps an embedding. -/
def StoredDocument.ofJson (v : Json) : Except Mismatch StoredDocument := do
  if !v.isObj then throw (.wrongType v "a map")
  let readVector := Json.asOption (Json.asList Json.asFloat32)
  let ms ← Shape.gather ⟨"a document",
    Record.slots ++ [{ key := "embedding", check := Slot.checking readVector }]⟩ v
  let record ← Record.ofMembers ms
  let embedding ← ms.read "embedding" none readVector
  .ok { record, embedding }

namespace Corpus

/-- The slot of a table whose rows `read` accepts. -/
def table {α : Type} (key : String) (read : Json → Except Mismatch α)
    (row : Layout := .whole) : Slot :=
  { key, layout := .list row, check := Slot.checking (Json.asList read) }

/-- The tables of a corpus. Of a document every member counts, of other rows those of the shape. -/
def shape : Shape := ⟨"a corpus", [
  table "documents" StoredDocument.ofJson,
  table "dispatch_orders" Record.ofJson Record.shape.layout,
  table "entities" Entity.ofJson Entity.shape.layout,
  table "aliases" AliasName.ofJson AliasName.shape.layout,
  table "relations" Relation.ofJson Relation.shape.layout,
  table "entity_documents" Mention.ofJson Mention.shape.layout,
  table "synonyms" (Json.asList Json.asString)]⟩

/-- Reads a corpus. -/
def ofJson (v : Json) : Except Mismatch Corpus := do
  let ms ← shape.gather v
  let documents ← ms.read "documents" [] (Json.asList StoredDocument.ofJson)
  let dispatchOrders ← ms.read "dispatch_orders" [] (Json.asList Record.ofJson)
  let entities ← ms.read "entities" [] (Json.asList Entity.ofJson)
  let aliases ← ms.read "aliases" [] (Json.asList AliasName.ofJson)
  let relations ← ms.read "relations" [] (Json.asList Relation.ofJson)
  let mentions ← ms.read "entity_documents" [] (Json.asList Mention.ofJson)
  let synonyms ← ms.read "synonyms" [] (Json.asList (Json.asList Json.asString))
  .ok { documents, dispatchOrders, entities, aliases, relations, mentions, synonyms }

/-- Reads the text of a corpus. -/
def read? (text : String) : Option Corpus := do
  let v ← Json.readBy? shape.layout text
  (ofJson v).toOption

end Corpus

end Archivist
