import Archivist.Concurrency.Gate
import Archivist.Embedding.Similarity
import Archivist.Text.Blank
import Archivist.Text.Digest

/-!
# The Embedding Cache

Embeddings are remembered under the digest of their text. An entry is good for a fixed time after
it was made; when the cache is full, the entry that was used longest ago makes room. Time is
counted in nanoseconds and handed in by the caller.

Besides the entries the cache keeps what lookups in progress share: for each text that is being
looked up the number of a cell, and for each cell its value, once it has one, and the line of
those who wait for it. How lookups use these is described in `Archivist.Embedding.Flight`.
-/

namespace Archivist

/-- The limits of a cache. -/
structure CacheLimits where
  /-- The most entries; a cache holds at least one. -/
  capacity : Nat
  /-- Nanoseconds for which an entry is good. -/
  lifetime : Nat
  /-- The most provider calls at a time; at least one is possible. -/
  maxInFlight : Nat

/-- A remembered embedding. -/
structure CacheEntry where
  /-- The digest of the text that was embedded. -/
  textHash : String
  vector : Embedding
  createdAt : Nat

/-- What the lookups of one text wait for. -/
structure Cell where
  /-- The outcome, once a lookup has filled the cell. -/
  value : Option (Option Embedding) := none
  /-- Lets one lookup at a time try to fill the cell. -/
  gate : Gate := { free := 1 }

/-- The state of an embedding cache. -/
structure Cache where
  limits : CacheLimits
  /-- Whether the cache has been used. -/
  started : Bool := false
  /-- The entries under their keys, most recently used first. -/
  entries : List (String × CacheEntry) := []
  /-- The cells of texts that are being looked up. -/
  pending : List (String × Nat) := []
  /-- All cells there have been; a cell is known by its position. -/
  cells : List Cell := []
  /-- Limits the provider calls. -/
  provider : Gate
  hits : Nat := 0
  misses : Nat := 0
  providerCalls : Nat := 0
  evictions : Nat := 0

namespace Cache

/-- A cache that has not been used. -/
def fresh (limits : CacheLimits) : Cache :=
  { limits, provider := { free := max limits.maxInFlight 1 } }

/-- The most entries that the cache holds. -/
def room (c : Cache) : Nat := max c.limits.capacity 1

/-- Whether an entry is too old. -/
def isExpired (c : Cache) (now : Nat) (e : CacheEntry) : Bool :=
  decide (c.limits.lifetime ≤ now - e.createdAt)

/-- The entry of a key. -/
def find? (c : Cache) (key : String) : Option CacheEntry :=
  (c.entries.find? (·.1 = key)).map (·.2)

/-- Looks up a key. A good entry becomes the most recently used one, an expired one is thrown
away. -/
def lookUp (c : Cache) (now : Nat) (key : String) : Option Embedding × Cache :=
  let c := { c with started := true }
  match c.find? key with
  | none => (none, c)
  | some e =>
    let others := c.entries.filter (·.1 ≠ key)
    if c.isExpired now e then
      (none, { c with entries := others, evictions := c.evictions + 1 })
    else (some e.vector, { c with entries := (key, e) :: others })

/-- Remembers an embedding as the most recently used one; if there is no room, the one used
longest ago goes. -/
def remember (c : Cache) (now : Nat) (key : String) (vector : Embedding) : Cache :=
  let others := c.entries.filter (·.1 ≠ key)
  let entries := (key, { textHash := key, vector, createdAt := now }) :: others
  if c.room < entries.length then
    { c with entries := entries.dropLast, evictions := c.evictions + 1 }
  else { c with entries }

/-- Throws away every expired entry; the number of entries thrown away. -/
def purge (c : Cache) (now : Nat) : Nat × Cache :=
  let good := c.entries.filter fun (_, e) => !c.isExpired now e
  let gone := c.entries.length - good.length
  (gone, { c with started := true, entries := good, evictions := c.evictions + gone })

/-- Throws away every entry and sets the counters to zero. -/
def invalidate (c : Cache) : Cache :=
  { c with entries := [], hits := 0, misses := 0, providerCalls := 0, evictions := 0 }

/-- Counts a lookup that was served without a provider call of its own. -/
def countHit (c : Cache) : Cache := { c with hits := c.hits + 1 }

/-- Whether there is an entry for a text, expired or not. -/
def holds (c : Cache) (text : String) : Bool := (c.find? (Digest.ofText text)).isSome

/-- The capacity that is reported: the configured one as long as the cache has not been used. -/
def reportedCapacity (c : Cache) : Nat := if c.started then c.room else c.limits.capacity

/-- The fraction of lookups that were served without a provider call. -/
def hitRate (c : Cache) : Float :=
  if c.hits + c.misses = 0 then 0
  else Float.ofNat c.hits / Float.ofNat (c.hits + c.misses)

/-- The cell with this number. -/
def cell (c : Cache) (n : Nat) : Cell := c.cells.getD n {}

/-- Changes the cell with this number. -/
def updateCell (c : Cache) (n : Nat) (f : Cell → Cell) : Cache :=
  { c with cells := c.cells.modify n f }

/-- The cell in which a key is being looked up, a new one if there is none. -/
def openCell (c : Cache) (key : String) : Nat × Cache :=
  match c.pending.find? (·.1 = key) with
  | some (_, n) => (n, c)
  | none =>
    let n := c.cells.length
    (n, { c with pending := (key, n) :: c.pending, cells := c.cells ++ [{}] })

/-- Forgets that a key is being looked up in this cell. -/
def closeCell (c : Cache) (key : String) (n : Nat) : Cache :=
  { c with pending := c.pending.filter (· ≠ (key, n)) }

end Cache

end Archivist
