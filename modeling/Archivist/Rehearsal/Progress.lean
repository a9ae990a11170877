import Archivist.Rehearsal.Script
import Archivist.Turn.Assembly

/-!
# Rehearsals in Progress

A `Rehearsal` is a script with the world as it has become. Actions, rounds of tool calls and turns
are performed in it one after the other, and each leaves a rehearsal in which the next one finds
what has been asked, cached and embedded before.
-/

namespace Archivist

/-- What has been asked since an earlier moment. -/
def Transcript.since (before after : Transcript) : Transcript where
  corpus := after.corpus
  storeCalls := after.storeCalls.drop before.storeCalls.length
  embedded := after.embedded.drop before.embedded.length
  requests := after.requests.drop before.requests.length

/-- A rehearsal in progress. -/
structure Rehearsal where
  script : Script
  world : World script.environment

namespace Rehearsal

/-- A rehearsal at its beginning. -/
def start (script : Script) (corpus : Corpus) (limits : CacheLimits) (parallel : Nat) :
    Rehearsal where
  script := script
  world := script.world corpus limits parallel

/-- What has been asked so far. -/
def transcript (r : Rehearsal) : Transcript := r.world.state

/-- Performs an action by itself. -/
def perform {α : Type} (r : Rehearsal) (p : Action α) : Ending α × Rehearsal :=
  let (ending, world) := r.world.perform none p
  (ending.getD .late, { r with world })

/-- Performs actions one after the other. -/
def performAll {α : Type} (r : Rehearsal) : List (Action α) → List (Ending α) × Rehearsal
  | [] => ([], r)
  | p :: rest =>
    let (ending, r) := r.perform p
    let (endings, r) := r.performAll rest
    (ending :: endings, r)

/-- Performs actions side by side. -/
def together {α : Type} (r : Rehearsal) (ps : List (Action α)) : List (Ending α) × Rehearsal :=
  let (endings, world) := r.world.join none (ps.map fun p => .running false none p.run)
  (endings.getD [], { r with world })

/-- Embeds many texts at once. -/
def embedAll (r : Rehearsal) (texts : List String) :
    Ending (List (Option Embedding)) × Rehearsal :=
  let (ending, world) := Batch.run texts r.world
  (ending, { r with world })

/-- Embeds the documents that have no embedding. -/
def embedCorpus (r : Rehearsal) : Ending Nat × Rehearsal :=
  let (ending, world) := r.script.embedCorpus r.world
  (ending, { r with world })

/-- Runs calls of tools side by side. -/
def round (r : Rehearsal) (s : Workshop) (calls : List ToolCall) :
    List ToolResult × Rehearsal :=
  let (results, world) := s.round none calls r.world
  (results.getD [], { r with world })

/-- Moves the clock on the wall. -/
def advance (r : Rehearsal) (nanoseconds : Nat) : Rehearsal :=
  { r with world := { r.world with clock := r.world.clock + nanoseconds } }

/-- Changes the embedding cache. -/
def withCache (r : Rehearsal) (cache : Cache) : Rehearsal :=
  { r with world := { r.world with cache } }

/-- Runs a turn: the events, and the limiter as the turn leaves it. -/
def turn (r : Rehearsal) (a : Assistant) (limiter : Limiter Float) (request : TurnRequest) :
    List Event × Limiter Float × Rehearsal :=
  let desk := a.turn request { world := r.world, limiter }
  (desk.events, desk.session.limiter, { r with world := desk.session.world })

end Rehearsal

end Archivist
