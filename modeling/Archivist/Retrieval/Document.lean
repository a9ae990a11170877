import Archivist.Embedding.Similarity
import Archivist.Event
import Archivist.Store.Record

/-!
# Retrieved Documents

A document that a search has found, with its scores: how similar it is to the query, how many of
the search terms it covers, and the score that it is ranked by. Scores may be any kind of scalar;
searches use single-precision numbers.
-/

namespace Archivist

/-- How a document was found. -/
inductive DocumentSource where
  | vector
  | keyword
  | graph
  deriving DecidableEq

/-- The word for a source. -/
def DocumentSource.word : DocumentSource → String
  | vector => "vector"
  | keyword => "keyword"
  | graph => "graph"

/-- A document with scores in `S`. -/
structure Scored (S : Type) where
  id : String
  fields : Fields
  similarity : S
  keywordScore : S
  rerankScore : S
  source : DocumentSource

/-- A document that a search has found. -/
abbrev Document : Type := Scored Score

namespace Scored

variable {S : Type}

/-- The document as a record of the store. -/
def record (d : Scored S) : Record := { id := d.id, fields := d.fields }

/-- What a citation shows. -/
def label (d : Scored S) : String := d.record.label

/-- The searchable text. -/
def text (d : Scored S) : String := d.fields.text

/-- The text of a field. -/
def field? (d : Scored S) (name : String) : Option String := d.fields.get? name

/-- The document as a source of an answer. -/
def citation (d : Scored S) : Citation := { documentId := d.id, label := d.label }

end Scored

namespace Document

/-- A record that has just been found. -/
def ofRecord (r : Record) (source : DocumentSource) (similarity : Score) : Document :=
  { id := r.id, fields := r.fields, similarity, keywordScore := 0, rerankScore := 0, source }

/-- The strongest of the three scores. -/
def relevance (d : Document) : Score :=
  larger (larger d.similarity d.keywordScore) d.rerankScore

end Document

end Archivist
