import Archivist.Calendar.Written
import Archivist.Json.Shape
import Archivist.Text.Blank
import Archivist.Text.Search

/-!
# Records

A record of the store, an official document or a dispatch order, is an identifier with named
fields of text, sorted by name. Its label is what a citation shows, its text is what is searched.
-/

namespace Archivist

/-- Named texts, sorted by name. -/
abbrev Fields := List (String × String)

/-- The text of a field. -/
def Fields.get? (fields : Fields) (name : String) : Option String :=
  (fields.find? (·.1 = name)).map (·.2)

/-- The texts of all fields, one to a line. -/
def Fields.text (fields : Fields) : String := Text.joined "\n" (fields.map (·.2))

/-- What a citation shows: number and subject, or title if there is no subject. -/
def Fields.heading (fields : Fields) : String :=
  let number := (fields.get? "doc_number").getD ""
  let title := ((fields.get? "subject").or (fields.get? "title")).getD ""
  Text.trimmed (number ++ " " ++ title)

/-- The fields as they travel. -/
def Fields.toJson (fields : Fields) : Json := .obj (fields.map fun (name, v) => (name, .str v))

/-- A record of the store. -/
structure Record where
  id : String
  fields : Fields
  deriving DecidableEq

namespace Record

/-- The text of a field. -/
def field? (r : Record) (name : String) : Option String := r.fields.get? name

/-- The date of a record, if it has one that can be read. -/
def date? (r : Record) : Option Date := (r.field? "date").bind Date.read?

/-- The heading of a record, or its identifier if that is empty. -/
def label (r : Record) : String :=
  let heading := r.fields.heading
  if heading = "" then r.id else heading

/-- The searchable text of a record. -/
def text (r : Record) : String := r.fields.text

/-- The members of a record. -/
def slots : List Slot := [
  { key := "id", optional := false, check := Slot.checking Json.asString },
  { key := "fields", check := Slot.checking (Json.asMap Json.asString) }]

/-- A record with these members. -/
def ofMembers (ms : Members) : Except Mismatch Record := do
  let id ← ms.read "id" "" Json.asString
  let fields ← ms.read "fields" [] (Json.asMap Json.asString)
  .ok { id, fields }

/-- The shape of a record by itself. -/
def shape : Shape := ⟨"a record", slots⟩

/-- Reads a record. -/
def ofJson (v : Json) : Except Mismatch Record := do
  let ms ← shape.gather v
  ofMembers ms

/-- A record as it travels. -/
def toJson (r : Record) : Json :=
  .obj [("id", .str r.id), ("fields", r.fields.toJson)]

end Record

end Archivist
