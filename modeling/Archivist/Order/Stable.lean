/-!
# Stable Sorting

Insertion sort by a test `less`: each element moves towards the front past those that it is less
than, so elements of which neither is less keep their order.
-/

namespace Archivist

/-- Puts `x` into a list that is sorted from its end to its front. -/
def placeLast {α : Type} (less : α → α → Bool) (x : α) : List α → List α
  | [] => [x]
  | y :: ys => if less x y then y :: placeLast less x ys else x :: y :: ys

/-- The list in the order of `less`; ties keep their order. -/
def stableSort {α : Type} (less : α → α → Bool) (xs : List α) : List α :=
  (xs.foldl (fun sorted x => placeLast less x sorted) []).reverse

/-- The elements of a list without repetitions of their keys; the first of each key stays. -/
def firstOfEach {α κ : Type} [DecidableEq κ] (key : α → κ) : List κ → List α → List α
  | _, [] => []
  | seen, x :: xs =>
    if key x ∈ seen then firstOfEach key seen xs else x :: firstOfEach key (key x :: seen) xs

end Archivist
