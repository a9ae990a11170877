/-!
# Verbosity

How much of a turn is shown on the screen besides the answer itself.
-/

namespace Archivist

/-- How much is shown. -/
inductive Verbosity where
  /-- The answer only. -/
  | quiet
  | normal
  | verbose
  | veryVerbose
  deriving DecidableEq

namespace Verbosity

/-- Every level. -/
def all : List Verbosity := [quiet, normal, verbose, veryVerbose]

/-- The word for a level. -/
def word : Verbosity → String
  | quiet => "quiet"
  | normal => "normal"
  | verbose => "verbose"
  | veryVerbose => "very_verbose"

/-- The level that a number of requests for more amounts to; a request for silence outweighs
them. -/
def ofFlags (isQuiet : Bool) (more : Nat) : Verbosity :=
  if isQuiet then quiet
  else match more with
    | 0 => normal
    | 1 => verbose
    | _ => veryVerbose

/-- Whether the stages of a turn are shown. -/
def showsProgress (v : Verbosity) : Bool := v ≠ quiet

/-- Whether the details of stages and a summary are shown. -/
def showsEvents (v : Verbosity) : Bool := v = verbose || v = veryVerbose

/-- Which log records are kept. -/
def logFilter : Verbosity → String
  | quiet => "error"
  | normal => "warn"
  | verbose => "docseeker=info,warn"
  | veryVerbose => "docseeker=debug,info"

end Verbosity

end Archivist
