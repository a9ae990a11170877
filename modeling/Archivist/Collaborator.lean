import Archivist.Conversation
import Archivist.Embedding.Similarity
import Archivist.Failure
import Archivist.Program
import Archivist.Store.Entity
import Archivist.Store.Filter

/-!
# Collaborators

The outside that questions are answered with: a document store, a knowledge graph, a language
model and an embedding provider. `Ask` lists what they can be asked, `Reply` what they may answer;
each may also fail. An `Environment` decides the answers. It has a state of its own, so that it
may answer the same question differently the next time, and says for each answer how long it takes
and whether there is one at all: a collaborator may also break down and take the task that asked
down with it.

An `Action` is a program over these questions that may fail.
-/

namespace Archivist

/-- A piece of a streamed completion. -/
inductive Chunk where
  | text (text : String)
  /-- The stream fails here. -/
  | failure (e : Failure)
  /-- The collaborator breaks down here. -/
  | breakdown

/-- A question to a collaborator. -/
inductive Ask where
  /-- Documents that pass a filter and hold one of its keywords. -/
  | keywordSearch (filter : DocumentFilter) (limit : Nat)
  /-- Documents that pass a filter, nearest to a vector first. -/
  | vectorSearch (vector : Embedding) (filter : DocumentFilter) (limit : Nat)
  /-- The document with an identifier. -/
  | document (id : String)
  /-- Dispatch orders that pass a filter. -/
  | searchDispatchOrders (filter : DispatchFilter) (limit : Nat)
  /-- Counts. -/
  | statistics (query : StatisticsQuery)
  /-- The aliases with a name. -/
  | aliasesNamed (name : String)
  /-- The entities with a canonical name. -/
  | entitiesNamed (name : String)
  /-- The entities with some identifiers. -/
  | entitiesById (ids : List String)
  /-- The aliases of some entities. -/
  | aliasesFor (ids : List String)
  /-- Entities with a name that holds one of the terms. -/
  | searchEntities (terms : List String) (entityType : Option String) (limit : Nat)
  /-- All that is known of an entity. -/
  | entityDetail (id : String)
  /-- A completion as a whole. -/
  | complete (request : ChatRequest)
  /-- A completion piece by piece. -/
  | stream (request : ChatRequest)
  /-- The embedding of a text. -/
  | embedding (text : String)

/-- The value that answers a question. -/
def Ask.Value : Ask → Type
  | keywordSearch .. => List Record
  | vectorSearch .. => List (Record × Score)
  | document _ => Option Record
  | searchDispatchOrders .. => List Record
  | statistics _ => Statistics
  | aliasesNamed _ => List AliasName
  | entitiesNamed _ => List Entity
  | entitiesById _ => List Entity
  | aliasesFor _ => List AliasName
  | searchEntities .. => List Entity
  | entityDetail _ => Option EntityDetail
  | complete _ => String
  | stream _ => List Chunk
  | embedding _ => Option Embedding

/-- What a collaborator may answer. -/
abbrev Reply (q : Ask) : Type := Except Failure q.Value

/-- A program over questions to collaborators that may fail. -/
abbrev Action (α : Type) : Type := ExceptT Failure (Program Reply) α

namespace Action

/-- Asks a collaborator; its failure is the failure of the action. -/
def ask (q : Ask) : Action q.Value := ExceptT.mk (Program.question q)

/-- Asks a collaborator; its failure is part of the answer. -/
def attempt (q : Ask) : Action (Reply q) := ExceptT.lift (Program.question q)

/-- An action whose failure is part of its value. -/
def caught {α : Type} (m : Action α) : Action (Except Failure α) :=
  ExceptT.mk (m.run.bind fun r => .done (.ok r))

/-- A value or a failure without a question. -/
def ofExcept {α : Type} (r : Except Failure α) : Action α := ExceptT.mk (.done r)

end Action

/-- How a question is answered. -/
structure Response (q : Ask) where
  /-- Milliseconds until the answer. -/
  delay : Nat
  /-- The answer, or nothing if the collaborator breaks down. -/
  outcome : Option (Reply q)

/-- A question that has been asked, and how it is answered. -/
structure Exchange where
  question : Ask
  response : Response question

/-- The behaviour of all collaborators. -/
structure Environment where
  State : Type
  /-- Answers a question and remembers that it was asked. -/
  respond : (q : Ask) → State → Response q × State

end Archivist
