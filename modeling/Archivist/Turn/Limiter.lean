import Archivist.Failure
import Archivist.Number.Decimal
import Archivist.Number.Scalar

/-!
# Rate Limits

Each caller has a bucket of tokens that is full at first and refills at a constant rate; a question
costs a token. A caller without a whole token is told how long it takes until there is one. Buckets
that are full again are forgotten every so many checks, which does not show, because a new bucket
is full as well.

Tokens are counted in any kind of scalar, time in nanoseconds.
-/

namespace Archivist

/-- The tokens of a caller. -/
structure Bucket (α : Type) where
  caller : String
  tokens : α
  refilledAt : Nat

/-- The buckets of all callers. -/
structure Limiter (α : Type) where
  /-- The tokens of a full bucket. -/
  burst : α
  /-- The tokens that a bucket gains in a second. -/
  rate : α
  buckets : List (Bucket α) := []
  /-- The number of checks so far. -/
  checks : Nat := 0

namespace Limiter

variable {α : Type} [Scalar α]

/-- Full buckets are forgotten every so many checks. -/
def pruneEvery : Nat := 256

/-- Time is counted in nanoseconds. -/
def nanosPerSecond : Nat := 1_000_000_000

/-- The longest wait that can be told, in nanoseconds. -/
def longestWait : Nat := Count.size 64 * nanosPerSecond - 1

/-- The longest wait in milliseconds that a failure tells. -/
def longestMs : Nat := Count.size 64 - 1

/-- A limiter; a full bucket holds at least one token. A rate that is not positive, or no number at
all, is a rate of zero. -/
def fresh (burst : Nat) (rate : α) : Limiter α :=
  { burst := Scalar.ofNat (max burst 1)
    rate := if Scalar.less (Scalar.ofNat 0) rate then rate else Scalar.ofNat 0 }

/-- A number of nanoseconds in seconds. -/
def seconds (ns : Nat) : α :=
  Scalar.ofNat (ns / nanosPerSecond) +
    Scalar.ofNat (ns % nanosPerSecond) / Scalar.ofNat nanosPerSecond

/-- The tokens of a bucket now. -/
def refilled (l : Limiter α) (now : Nat) (b : Bucket α) : α :=
  Scalar.least (b.tokens + seconds (now - b.refilledAt) * l.rate) l.burst

/-- The bucket of a caller; a new one is full. -/
def bucketOf (l : Limiter α) (caller : String) (now : Nat) : Bucket α :=
  (l.buckets.find? (·.caller = caller)).getD { caller, tokens := l.burst, refilledAt := now }

/-- Forgets buckets that are full; the number of those forgotten. -/
def prune (l : Limiter α) (now : Nat) : Nat × Limiter α :=
  let kept := l.buckets.filter fun b => Scalar.less (l.refilled now b) l.burst
  (l.buckets.length - kept.length, { l with buckets := kept })

/-- Counts a check, and forgets full buckets when it is time to. -/
def count (l : Limiter α) (now : Nat) : Limiter α :=
  let l := { l with checks := l.checks + 1 }
  if l.checks % pruneEvery = 0 then (l.prune now).2 else l

/-- Replaces the bucket of a caller. -/
def put (l : Limiter α) (b : Bucket α) : Limiter α :=
  { l with buckets := b :: l.buckets.filter (·.caller ≠ b.caller) }

/-- The nanoseconds in some seconds, to the nearest, a half to the even neighbour; the longest
wait if there are too many. -/
def toNanoseconds (s : α) : Nat :=
  match Scalar.rational? s with
  | none => longestWait
  | some q =>
    let ns := q * nanosPerSecond
    min (Decimal.roundDiv ns.num.toNat ns.den) longestWait

/-- The wait until there is a whole token, in nanoseconds. -/
def waitFor (l : Limiter α) (tokens : α) : Nat :=
  if Scalar.less (Scalar.ofNat 0) l.rate then toNanoseconds ((Scalar.ofNat 1 - tokens) / l.rate)
  else longestWait

/-- Takes a token of a caller, or tells the wait in nanoseconds. -/
def check (l : Limiter α) (caller : String) (now : Nat) : Except Nat Unit × Limiter α :=
  let l := l.count now
  let tokens := l.refilled now (l.bucketOf caller now)
  if Scalar.less tokens (Scalar.ofNat 1) then
    (.error (l.waitFor tokens), l.put { caller, tokens, refilledAt := now })
  else (.ok (), l.put { caller, tokens := tokens - Scalar.ofNat 1, refilledAt := now })

/-- The failure of a caller who has to wait. -/
def rejection (caller : String) (wait : Nat) : Failure :=
  .rateLimited caller (min (wait / 1_000_000) longestMs)

/-- Takes a token of a caller, or fails. -/
def acquire (l : Limiter α) (caller : String) (now : Nat) : Except Failure Unit × Limiter α :=
  let (granted, l) := l.check caller now
  (granted.mapError (rejection caller), l)

/-- The tokens that a caller has. -/
def available (l : Limiter α) (caller : String) (now : Nat) : α :=
  match l.buckets.find? (·.caller = caller) with
  | some b => l.refilled now b
  | none => l.burst

/-- Forgets all buckets. -/
def reset (l : Limiter α) : Limiter α := { l with buckets := [] }

end Limiter

end Archivist
