/-!
# Gates

A gate lets a limited number of participants through at a time. Those that find it full wait in
line; a permit that is given back goes to the first in line at once, who picks it up when it is
next looked at. Participants are numbered.
-/

namespace Archivist

/-- A gate with its permits. -/
structure Gate where
  /-- Permits that nobody holds and nobody has been given. -/
  free : Nat
  /-- Those in line, first to be served first. -/
  waiting : List Nat := []
  /-- Those who have been given a permit and have not picked it up. -/
  granted : List Nat := []
  deriving DecidableEq

namespace Gate

/-- Gives back a permit: to the first in line, if there is one. -/
def release (g : Gate) : Gate :=
  match g.waiting with
  | [] => { g with free := g.free + 1 }
  | i :: rest => { g with waiting := rest, granted := g.granted ++ [i] }

/-- Takes a permit, or gets in line if there is none. -/
def enter (i : Nat) (g : Gate) : Bool × Gate :=
  match g.free with
  | 0 => (false, { g with waiting := g.waiting ++ [i] })
  | free + 1 => (true, { g with free })

/-- Picks up a permit that was given while in line. -/
def pickUp (i : Nat) (g : Gate) : Option Gate :=
  if i ∈ g.granted then some { g with granted := g.granted.erase i } else none

/-- Gives up the place in line, and a permit that was given and not picked up. -/
def leave (i : Nat) (g : Gate) : Gate :=
  if i ∈ g.granted then release { g with granted := g.granted.erase i }
  else { g with waiting := g.waiting.erase i }

end Gate

end Archivist
