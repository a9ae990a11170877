import Archivist.Collaborator
import Archivist.Embedding.Cache

/-!
# Lookups in Flight

A lookup of an embedding goes through several phases, and others may run between any two of them.
It first looks into the cache. If there is nothing, it opens the cell of its text, or joins the one
that is already open, and waits until the cell has a value or it is its turn to fill it. To fill a
cell it needs a provider permit; with the permit in hand it looks into the cache once more, and
only then asks the provider. The outcome goes into the cache and into the cell, where all who wait
find it; a failure is for the asking lookup alone, and the next in line tries again.

`Flight.step` is one step of a lookup, `Flight.land` the arrival of the provider's answer and
`Flight.abandon` what happens when a lookup is dropped before it has an answer. Each of them is what
happens between two points at which a lookup can be suspended: lookups take turns and give way to
each other at such points only.
-/

namespace Archivist

/-- How far a lookup has come. -/
inductive Phase where
  /-- It has not looked into the cache yet. -/
  | arriving
  /-- It has found nothing in the cache. -/
  | missed
  /-- It waits for the value of a cell, or for its turn to fill it. -/
  | boarding (cell : Nat)
  /-- It is its turn to fill the cell. -/
  | admitted (cell : Nat)
  /-- It waits in line for a provider permit. -/
  | queuing (cell : Nat)
  /-- It holds a permit and the provider has been asked. -/
  | asking (cell : Nat)
  deriving DecidableEq

/-- A lookup in progress. -/
structure Flight where
  text : String
  key : String
  phase : Phase

/-- The outcome of a lookup. -/
abbrev Landing : Type := Except Failure (Option Embedding)

namespace Flight

/-- A lookup that begins. -/
def start (text : String) : Flight := { text, key := Digest.ofText text, phase := .arriving }

/-- The phases count down. -/
def rank (f : Flight) : Nat :=
  match f.phase with
  | .arriving => 6
  | .missed => 5
  | .boarding _ => 4
  | .admitted _ => 3
  | .queuing _ => 2
  | .asking _ => 1

/-- What a step leads to. -/
inductive Move where
  /-- The lookup cannot go on now. -/
  | wait
  /-- It goes on in another phase. -/
  | go (phase : Phase) (cache : Cache)
  /-- It has its outcome. -/
  | land (result : Landing) (cache : Cache)

/-- The lookup leaves its cell with an outcome. One that filled the cell, or failed to, says so;
one that only waited for it counts as a hit. -/
def depart (f : Flight) (cell : Nat) (filler : Bool) (result : Landing) (c : Cache) : Cache :=
  let c :=
    if filler then
      match result with
      | .ok v => c.updateCell cell fun x => { x with value := some v }
      | .error _ => c.updateCell cell fun x => { x with gate := x.gate.release }
    else c
  let c := c.closeCell f.key cell
  if !filler && result.isOk then c.countHit else c

/-- With a permit in hand: one more look into the cache, then the provider is asked. -/
def board (f : Flight) (now cell : Nat) (c : Cache) : Move :=
  match c.lookUp now f.key with
  | (some v, c) =>
    let c := c.countHit
    let c := { c with provider := c.provider.release }
    .land (.ok (some v)) (f.depart cell true (.ok (some v)) c)
  | (none, c) =>
    .go (.asking cell)
      { c with misses := c.misses + 1, providerCalls := c.providerCalls + 1 }

/-- One step of lookup number `me`. A lookup that has asked the provider takes no step of its
own. -/
def step (now me : Nat) (f : Flight) (c : Cache) : Move :=
  match f.phase with
  | .arriving =>
    if Text.blank f.text then .land (.ok none) c
    else match c.lookUp now f.key with
      | (some v, c) => .land (.ok (some v)) c.countHit
      | (none, c) => .go .missed c
  | .missed =>
    let (cell, c) := c.openCell f.key
    match (c.cell cell).value with
    | some v => .land (.ok v) (f.depart cell false (.ok v) c)
    | none =>
      let (entered, gate) := (c.cell cell).gate.enter me
      let c := c.updateCell cell fun x => { x with gate }
      .go (if entered then .admitted cell else .boarding cell) c
  | .boarding cell =>
    match (c.cell cell).value with
    | some v => .land (.ok v) (f.depart cell false (.ok v) c)
    | none =>
      match (c.cell cell).gate.pickUp me with
      | some gate => .go (.admitted cell) (c.updateCell cell fun x => { x with gate })
      | none => .wait
  | .admitted cell =>
    let (entered, provider) := c.provider.enter me
    let c := { c with provider }
    if entered then f.board now cell c else .go (.queuing cell) c
  | .queuing cell =>
    match c.provider.pickUp me with
    | some provider => f.board now cell { c with provider }
    | none => .wait
  | .asking _ => .wait

/-- What the provider's answer amounts to: an empty vector is no embedding. -/
def outcome (reply : Landing) : Landing := reply.map (·.filter (!·.isEmpty))

/-- The provider's answer arrives. -/
def land (now : Nat) (f : Flight) (cell : Nat) (reply : Landing) (c : Cache) : Landing × Cache :=
  let result := outcome reply
  let c := match result with
    | .ok (some v) => c.remember now f.key v
    | _ => c
  let c := { c with provider := c.provider.release }
  (result, f.depart cell true result c)

/-- Gives back the turn to fill a cell. -/
def yieldCell (cell : Nat) (c : Cache) : Cache :=
  c.updateCell cell fun x => { x with gate := x.gate.release }

/-- Lookup number `me` is dropped: it gives back what it holds and leaves the lines it is in. -/
def abandon (me : Nat) (f : Flight) (c : Cache) : Cache :=
  match f.phase with
  | .arriving | .missed => c
  | .boarding cell => c.updateCell cell fun x => { x with gate := x.gate.leave me }
  | .admitted cell => yieldCell cell c
  | .queuing cell => yieldCell cell { c with provider := c.provider.leave me }
  | .asking cell => yieldCell cell { c with provider := c.provider.release }

end Flight

end Archivist
