import Archivist.Json.Field
import Archivist.Json.Printer
import Archivist.Rehearsal.Progress

/-!
# Reading Rehearsals

A rehearsal is written down as a JSON object: the settings under `config`, the corpus under `corpus`
or as a text under `corpus_json`, the cues of the language model for each task under `llm`, the
rules of the embedding provider under `embedder` and what goes wrong with the store and the graph
under `faults`. How failures are written is left to the caller.
-/

namespace Archivist

variable (readFailure : Json → Failure)

/-- Reads a piece of a completion: a text, or an object with the failure in its place. -/
def Chunk.ofJson : Json → Chunk
  | .str s => .text s
  | v => .failure (readFailure (v.field "error"))

/-- Reads a cue: a text, or an object that says how long it takes and what comes of it. -/
def TimedCue.ofJson : Json → TimedCue
  | .str s => { cue := .chunks [.text s] }
  | v => {
    delay := v.countOr "delay_ms" 0
    cue :=
      if v.flag "panic" then .breakdown
      else match v.field "error", v.field "chunks" with
        | .null, .null => .chunks [.text (v.text "text")]
        | .null, chunks => .chunks (chunks.toItems.map (Chunk.ofJson readFailure))
        | e, _ => .failure (readFailure e) }

/-- Reads what the embedding provider does: a vector, nothing, a word for counting characters, or
an object with a failure. -/
def EmbeddingCue.ofJson : Json → EmbeddingCue
  | .null => .vector none
  | .str _ => .count
  | .arr xs => .vector (some (Json.arr xs).toFloats)
  | v => .failure (readFailure (v.field "error"))

/-- Reads which texts a rule is for. -/
def TextTest.ofJson (v : Json) : TextTest :=
  match v.text? "equals", v.text? "contains" with
  | some text, _ => .equals text
  | none, some part => .contains part
  | none, none => .never

/-- Reads what goes wrong with the questions of one name. -/
def Fault.ofJson (word : String) (v : Json) : Fault where
  word := word
  delay := v.countOr "delay_ms" 0
  mishap :=
    if v.flag "panic" then .breakdown
    else match v.field "error" with
      | .null => .none
      | e => .failure (readFailure e)

/-- Reads a script. -/
def Script.ofJson (v : Json) : Script where
  cues task := ((v.field "llm").items task.word).map (TimedCue.ofJson readFailure)
  plain := (v.field "llm").flag "plain"
  rules := ((v.field "embedder").items "rules").map fun r =>
    (TextTest.ofJson r, EmbeddingCue.ofJson readFailure (r.field "vector"))
  otherwise := EmbeddingCue.ofJson readFailure ((v.field "embedder").field "default")
  embeddingDelay := (v.field "embedder").countOr "delay_ms" 0
  faults := (v.field "faults").toMembers.map fun (word, f) => Fault.ofJson readFailure word f

/-- Reads the corpus of a rehearsal; without any it is empty. -/
def Corpus.ofRehearsal? (v : Json) : Option Corpus :=
  match v.field "corpus", v.text? "corpus_json" with
  | .null, some text => Corpus.read? text
  | .null, none => some {}
  | c, _ => Corpus.read? c.render

/-- A rehearsal with what is needed to run tools and turns in it. -/
structure Scene where
  config : Config
  expander : Expander
  start : Rehearsal
  /-- What came of embedding the corpus, if that was asked for. -/
  embedded : Option (Ending Nat)

/-- Reads a scene. -/
def Scene.ofJson (v : Json) : Except Mismatch Scene := do
  let config ← v.readOr "config" {} Config.ofJson
  let some corpus := Corpus.ofRehearsal? v | throw (.missing "corpus")
  let parallel := if v.flag "default_concurrency" then Workshop.defaultParallel
    else config.agent.maxConcurrentTools
  let config := { config with agent := { config.agent with maxConcurrentTools := parallel } }
  let start := Rehearsal.start (Script.ofJson readFailure v) corpus config.cache.limits
    (max parallel 1)
  let (embedded, start) := if v.flag "index" then
      let (n, r) := start.embedCorpus
      (some n, r)
    else (none, start)
  return { config, start, embedded
           expander := config.expander (.ofGroups corpus.synonyms) (!v.flag "no_graph") }

end Archivist
