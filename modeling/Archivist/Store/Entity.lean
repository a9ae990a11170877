import Archivist.Json.Shape

/-!
# Entities

The knowledge graph knows entities such as agencies and persons, other names for them, relations
between two of them, and the documents that mention them.
-/

namespace Archivist

/-- An entity under its canonical name. -/
structure Entity where
  id : String
  canonicalName : String
  entityType : String
  deriving DecidableEq

/-- Another name of an entity. -/
structure AliasName where
  name : String
  entityId : String
  deriving DecidableEq

/-- A directed relation between two entities. -/
structure Relation where
  sourceId : String
  targetId : String
  relation : String
  deriving DecidableEq

/-- A document that mentions an entity. -/
structure Mention where
  entityId : String
  documentId : String
  deriving DecidableEq

/-- All that is known of one entity. -/
structure EntityDetail where
  entity : Entity
  aliases : List String
  relations : List Relation
  documentIds : List String
  deriving DecidableEq

/-- The slot of a required string. -/
def Slot.required (key : String) : Slot :=
  { key, optional := false, check := Slot.checking Json.asString }

/-- The members of an entity. -/
def Entity.shape : Shape := ⟨"an entity", [.required "id", .required "canonical_name",
  { key := "entity_type", check := Slot.checking Json.asString }]⟩

/-- Reads an entity. -/
def Entity.ofJson (v : Json) : Except Mismatch Entity := do
  let ms ← shape.gather v
  let id ← ms.read "id" "" Json.asString
  let canonicalName ← ms.read "canonical_name" "" Json.asString
  let entityType ← ms.read "entity_type" "" Json.asString
  .ok { id, canonicalName, entityType }

/-- The members of another name. -/
def AliasName.shape : Shape := ⟨"an alias", [.required "alias", .required "entity_id"]⟩

/-- Reads another name of an entity. -/
def AliasName.ofJson (v : Json) : Except Mismatch AliasName := do
  let ms ← shape.gather v
  let name ← ms.read "alias" "" Json.asString
  let entityId ← ms.read "entity_id" "" Json.asString
  .ok { name, entityId }

/-- The members of a relation. -/
def Relation.shape : Shape :=
  ⟨"a relation", [.required "source_id", .required "target_id", .required "relation"]⟩

/-- Reads a relation. -/
def Relation.ofJson (v : Json) : Except Mismatch Relation := do
  let ms ← shape.gather v
  let sourceId ← ms.read "source_id" "" Json.asString
  let targetId ← ms.read "target_id" "" Json.asString
  let relation ← ms.read "relation" "" Json.asString
  .ok { sourceId, targetId, relation }

/-- The members of a mention. -/
def Mention.shape : Shape := ⟨"a mention", [.required "entity_id", .required "document_id"]⟩

/-- Reads a mention. -/
def Mention.ofJson (v : Json) : Except Mismatch Mention := do
  let ms ← shape.gather v
  let entityId ← ms.read "entity_id" "" Json.asString
  let documentId ← ms.read "document_id" "" Json.asString
  .ok { entityId, documentId }

/-- Reads all that is known of one entity. -/
def EntityDetail.ofJson (v : Json) : Except Mismatch EntityDetail := do
  let required {α : Type} (key : String) (read : Json → Except Mismatch α) : Slot :=
    { key, optional := false, check := Slot.checking read }
  let ms ← Shape.gather ⟨"a detailed entity", [required "entity" Entity.ofJson,
    required "aliases" (Json.asList Json.asString),
    required "relations" (Json.asList Relation.ofJson),
    required "document_ids" (Json.asList Json.asString)]⟩ v
  let entity ← ms.read "entity" ⟨"", "", ""⟩ Entity.ofJson
  let aliases ← ms.read "aliases" [] (Json.asList Json.asString)
  let relations ← ms.read "relations" [] (Json.asList Relation.ofJson)
  let documentIds ← ms.read "document_ids" [] (Json.asList Json.asString)
  .ok { entity, aliases, relations, documentIds }

/-- An entity as it travels. -/
def Entity.toJson (e : Entity) : Json := .obj [
  ("id", .str e.id), ("canonical_name", .str e.canonicalName), ("entity_type", .str e.entityType)]

/-- Another name as it travels. -/
def AliasName.toJson (a : AliasName) : Json := .obj [
  ("alias", .str a.name), ("entity_id", .str a.entityId)]

/-- A relation as it travels. -/
def Relation.toJson (r : Relation) : Json := .obj [
  ("source_id", .str r.sourceId), ("target_id", .str r.targetId), ("relation", .str r.relation)]

/-- All that is known of one entity as it travels. -/
def EntityDetail.toJson (d : EntityDetail) : Json := .obj [
  ("entity", d.entity.toJson), ("aliases", .strings d.aliases),
  ("relations", .arr (d.relations.map Relation.toJson)), ("document_ids", .strings d.documentIds)]

end Archivist
