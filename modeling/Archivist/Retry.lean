import Archivist.Failure
import Archivist.Number.Count

/-!
# Retrying

A request that fails in a way that may pass is repeated, up to a number of attempts, with waits in
between that double each time up to a limit. The random part by which waits are spread when requests
are really sent is left out.
-/

namespace Archivist

/-- How often and how fast requests are repeated. -/
structure RetryPolicy where
  /-- The most attempts; there is always one. -/
  maxAttempts : Nat := 3
  /-- The first wait in milliseconds. -/
  baseDelay : Nat := 250

/-- What came of the attempts. -/
structure Retried (α : Type) where
  outcome : Except Failure α
  /-- The waits between the attempts, in milliseconds. -/
  waits : List Nat

namespace RetryPolicy

/-- The longest wait in milliseconds. -/
def maxDelay : Nat := 4000

/-- The wait before a repetition, the first one having number 0. The power and the product stay at
the largest number of 64 bits. -/
def delay (p : RetryPolicy) (repetition : Nat) : Nat :=
  min (Count.cap (p.baseDelay * Count.cap (Nat.pow 2 repetition))) maxDelay

/-- The number of attempts that are possible. -/
def attempts (p : RetryPolicy) : Nat := max p.maxAttempts 1

/-- Attempts an operation and repeats it at most `left` times, `done` repetitions having been
made. -/
def runFrom {σ α : Type} (p : RetryPolicy) (operation : σ → Except Failure α × σ) :
    Nat → Nat → σ → Retried α × σ
  | left, done, s =>
    match operation s with
    | (.ok a, s) => ({ outcome := .ok a, waits := [] }, s)
    | (.error e, s) =>
      match left with
      | 0 => ({ outcome := .error e, waits := [] }, s)
      | left + 1 =>
        if e.isTransient then
          let (r, s) := runFrom p operation left (done + 1) s
          ({ r with waits := p.delay done :: r.waits }, s)
        else ({ outcome := .error e, waits := [] }, s)

/-- Attempts an operation and repeats it as long as its failure may pass. -/
def run {σ α : Type} (p : RetryPolicy) (operation : σ → Except Failure α × σ) (s : σ) :
    Retried α × σ := p.runFrom operation (p.attempts - 1) 0 s

end RetryPolicy

/-- The number of attempts that were made. -/
def Retried.attempts {α : Type} (r : Retried α) : Nat := r.waits.length + 1

end Archivist
