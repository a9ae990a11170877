import Archivist.Text.Digit

/-!
# Rankings in Words

A language model that is asked to order numbered candidates answers in its own words. The ranking
is read from the numbers in its answer: positions counted from 1, of which those that name no
candidate and those named before are passed over. Full-width digits count as ASCII digits; a number
with other digits is passed over.
-/

namespace Archivist.Ranking

/-- A full-width digit as an ASCII digit. -/
def narrowDigit (c : Char) : Char :=
  if '０' ≤ c ∧ c ≤ '９' then Char.ofNat (c.toNat - '０'.toNat + '0'.toNat) else c

/-- The runs of digits in a text; `run` is the one that is being read, last digit first. -/
def digitRuns (run : List Char) : List Char → List (List Char)
  | [] => if run = [] then [] else [run.reverse]
  | c :: cs =>
    if Text.isDigit c then digitRuns (c :: run) cs
    else if run = [] then digitRuns [] cs
    else run.reverse :: digitRuns [] cs

/-- The positions, counted from 0, that the numbers name, each once. -/
def distinctPositions (candidates : Nat) : List Nat → List Nat → List Nat
  | _, [] => []
  | seen, n :: rest =>
    if 1 ≤ n ∧ n ≤ candidates ∧ n - 1 ∉ seen then
      (n - 1) :: distinctPositions candidates ((n - 1) :: seen) rest
    else distinctPositions candidates seen rest

/-- The ranking that a text gives of some candidates, as positions counted from 0. -/
def read (output : String) (candidates : Nat) : List Nat :=
  let runs := digitRuns [] (output.toList.map narrowDigit)
  distinctPositions candidates [] (runs.filterMap Text.readNat)

end Archivist.Ranking
