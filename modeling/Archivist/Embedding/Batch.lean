import Archivist.Concurrency.Lane
import Archivist.Order.Stable

/-!
# Embedding Many Texts

Many texts are embedded at once. All of them are looked up first; then each text that was not
found is fetched once, side by side, whatever its number of occurrences. If fetching fails for
some texts, the failure of the first of them is the failure of the batch.
-/

namespace Archivist

/-- What the first look has found for one text of a batch. -/
inductive BatchSlot where
  /-- The text is blank or known. -/
  | settled (vector : Option Embedding)
  /-- The text has to be fetched. -/
  | open (text : String)

namespace Batch

/-- Looks up each text. -/
def lookUp (now : Nat) (c : Cache) : List String → List BatchSlot × Cache
  | [] => ([], c)
  | text :: rest =>
    if Text.blank text then
      let (slots, c) := lookUp now c rest
      (.settled none :: slots, c)
    else match c.lookUp now (Digest.ofText text) with
      | (some v, c) =>
        let (slots, c) := lookUp now c.countHit rest
        (.settled (some v) :: slots, c)
      | (none, c) =>
        let (slots, c) := lookUp now c rest
        (.open text :: slots, c)

/-- The text that a slot waits for. -/
def slotText? : BatchSlot → Option String
  | .open text => some text
  | .settled _ => none

/-- The texts that have to be fetched, each once. -/
def openTexts (slots : List BatchSlot) : List String :=
  firstOfEach Digest.ofText [] (slots.filterMap slotText?)

/-- A lookup that goes on after the first look. -/
def lane (text : String) : Lane (Option Embedding) :=
  .looking false none text (fun reply => .done reply)
    { Flight.start text with phase := .missed } none

/-- The vector of a slot, given those that were fetched. -/
def fill (fetched : List (String × Option Embedding)) : BatchSlot → Option Embedding
  | .settled v => v
  | .open text =>
    ((fetched.find? fun (t, _) => Digest.ofText t = Digest.ofText text).map (·.2)).getD none

/-- The vectors that were fetched, or what went wrong first. -/
def gather : List (String × Ending (Option Embedding)) →
    Ending (List (String × Option Embedding))
  | [] => .value (.ok [])
  | (text, .value (.ok v)) :: rest =>
    match gather rest with
    | .value (.ok fetched) => .value (.ok ((text, v) :: fetched))
    | other => other
  | (_, .value (.error e)) :: _ => .value (.error e)
  | (_, .crashed) :: _ => .crashed
  | (_, .late) :: _ => .late

/-- Embeds many texts; the vectors stand in the order of the texts. -/
def run {env : Environment} (texts : List String) (w : World env) :
    Ending (List (Option Embedding)) × World env :=
  let (slots, cache) := lookUp w.clock w.cache texts
  let w := { w with cache }
  let missing := openTexts slots
  let (endings, w) := w.join none (missing.map lane)
  match endings.map fun endings => gather (missing.zip endings) with
  | some (.value (.ok fetched)) => (.value (.ok (slots.map (fill fetched))), w)
  | some (.value (.error e)) => (.value (.error e), w)
  | some .late => (.late, w)
  | some .crashed | none => (.crashed, w)

end Batch

end Archivist
