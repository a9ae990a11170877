import Archivist.Concurrency.Lane
import Archivist.Store.Answer

/-!
# Rehearsals

In a rehearsal the collaborators follow a script. The store and the graph are a corpus, except
that a question may be answered late, with a failure or not at all; the language model has a cue
for each request of a task in turn; the embedding provider goes by rules on the text. Everything
that is asked is noted in a `Transcript`, in the order in which it is asked.

`Script.environment` is the environment of a rehearsal.
-/

namespace Archivist

/-- What the language model does with a request. -/
inductive Cue where
  /-- It answers in these pieces. -/
  | chunks (chunks : List Chunk)
  /-- It refuses. -/
  | failure (e : Failure)
  /-- It breaks down. -/
  | breakdown

/-- A cue and how long it takes. -/
structure TimedCue where
  delay : Nat := 0
  cue : Cue

/-- What the embedding provider does with a text. -/
inductive EmbeddingCue where
  | vector (v : Option Embedding)
  /-- The vector of the number of characters and one. -/
  | count
  | failure (e : Failure)

/-- Which texts a rule of the embedding provider is for. -/
inductive TextTest where
  | equals (text : String)
  | contains (part : String)
  | always
  | never

/-- What goes wrong with a question to the store or to the graph. -/
inductive Mishap where
  /-- Nothing but the delay. -/
  | none
  | failure (e : Failure)
  | breakdown

/-- A disturbance of the questions with one name. -/
structure Fault where
  word : String
  delay : Nat := 0
  mishap : Mishap := .none

/-- How the collaborators behave in a rehearsal. -/
structure Script where
  /-- The cues for the requests of each task. -/
  cues : Task → List TimedCue := fun _ => []
  /-- Whether the language model streams nothing but whole completions. -/
  plain : Bool := false
  rules : List (TextTest × EmbeddingCue) := []
  /-- What the embedding provider does with a text that no rule is for. -/
  otherwise : EmbeddingCue := .vector none
  embeddingDelay : Nat := 0
  faults : List Fault := []

/-- What has been asked in a rehearsal. -/
structure Transcript where
  corpus : Corpus
  /-- The names of the questions to the store and to the graph. -/
  storeCalls : List String := []
  /-- The texts that the embedding provider was given. -/
  embedded : List String := []
  /-- The requests to the language model. -/
  requests : List ChatRequest := []

namespace TextTest

/-- Whether the rule is for a text. -/
def passes (text : String) : TextTest → Bool
  | equals t => text = t
  | contains part => Text.contains text part
  | always => true
  | never => false

end TextTest

/-- What the embedding provider answers. -/
def EmbeddingCue.reply (text : String) : EmbeddingCue → Reply (.embedding text)
  | vector v => .ok v
  | count => .ok (some [Float32.ofNat (Text.size text), 1])
  | failure e => .error e

namespace Cue

/-- The pieces joined, unless one of them is no text. -/
def joinChunks (done : String) : List Chunk → Option (Except Failure String)
  | [] => some (.ok done)
  | .text t :: rest => joinChunks (done ++ t) rest
  | .failure e :: _ => some (.error e)
  | .breakdown :: _ => none

/-- The completion as a whole. -/
def complete : Cue → Option (Except Failure String)
  | chunks cs => joinChunks "" cs
  | failure e => some (.error e)
  | breakdown => none

/-- The completion piece by piece. -/
def stream (plain : Bool) (cue : Cue) : Option (Except Failure (List Chunk)) :=
  if plain then cue.complete.map fun r => r.map fun t => [.text t]
  else match cue with
    | chunks cs => some (.ok cs)
    | failure e => some (.error e)
    | breakdown => none

end Cue

namespace Script

/-- The cue of a language model that has none left. -/
def exhausted : TimedCue := { cue := .failure (.completion "script exhausted") }

/-- The cue for a request: the number of earlier requests of its task is that of its cue. -/
def cueFor (s : Script) (t : Transcript) (r : ChatRequest) : TimedCue :=
  let earlier := (t.requests.filter (·.task = r.task)).length
  ((s.cues r.task)[earlier]?).getD exhausted

/-- What the embedding provider does with a text. -/
def embeddingCue (s : Script) (text : String) : EmbeddingCue :=
  ((s.rules.find? (·.1.passes text)).map (·.2)).getD s.otherwise

/-- The disturbance of the questions with a name. -/
def fault (s : Script) (word : String) : Fault :=
  (s.faults.find? (·.word = word)).getD { word }

/-- The answer to a question to the store or to the graph. -/
def storeResponse (s : Script) (t : Transcript) (q : Ask) (word : String) : Response q :=
  let fault := s.fault word
  { delay := fault.delay
    outcome := match fault.mishap with
      | .none => (t.corpus.value? q).map .ok
      | .failure e => some (.error e)
      | .breakdown => none }

/-- Answers a question and notes it. -/
def respond (s : Script) : (q : Ask) → Transcript → Response q × Transcript
  | .complete r, t =>
    let cue := s.cueFor t r
    (⟨cue.delay, cue.cue.complete⟩, { t with requests := t.requests ++ [r] })
  | .stream r, t =>
    let cue := s.cueFor t r
    (⟨cue.delay, cue.cue.stream s.plain⟩, { t with requests := t.requests ++ [r] })
  | .embedding text, t =>
    (⟨s.embeddingDelay, some ((s.embeddingCue text).reply text)⟩,
      { t with embedded := t.embedded ++ [text] })
  | q, t =>
    let word := q.storeWord?.getD ""
    (s.storeResponse t q word, { t with storeCalls := t.storeCalls ++ [word] })

/-- The environment of a rehearsal. -/
def environment (s : Script) : Environment where
  State := Transcript
  respond := s.respond

/-- A world at its beginning. -/
def world (s : Script) (corpus : Corpus) (limits : CacheLimits) (parallel : Nat) :
    World s.environment where
  cache := .fresh limits
  permits := { free := parallel }
  state := { corpus }

/-- Embeds the documents that have no embedding; the number of those that have one then. -/
def embedCorpus (s : Script) (w : World s.environment) :
    Ending Nat × World s.environment :=
  let ((ending, corpus), w) := (Transcript.corpus w.state).embed w
  let t : Transcript := w.state
  (ending, { w with state := { t with corpus } })

end Script

end Archivist
