import Archivist.Event
import Archivist.Failure

/-!
# What a Turn Tells

A turn tells its listener one event after the other, and the last of them ends the stream: the
sources of the answer, or an error. A `Sink` is the sending end of such a stream. If it is given up
before an ending has been sent, it sends one by itself, so a listener never waits in vain.
-/

namespace Archivist

/-- The event that tells a failure. -/
def Event.ofFailure (e : Failure) : Event := .error e.userMessage e.code

/-- The sending end of a stream of events. -/
structure Sink where
  /-- What has been sent so far. -/
  events : List Event := []
  /-- Whether an ending has been sent. -/
  finished : Bool := false

namespace Sink

/-- Sends an event. -/
def send (s : Sink) (e : Event) : Sink := { s with events := s.events ++ [e] }

/-- Sends the ending. -/
def finish (s : Sink) (e : Event) : Sink := { s.send e with finished := true }

/-- Sends the ending of a turn that has failed. -/
def fail (s : Sink) (e : Failure) : Sink := s.finish (.ofFailure e)

/-- Gives the stream up; a stream without an ending gets one. -/
def drop (s : Sink) : Sink := if s.finished then s else s.send (.ofFailure (.other ""))

end Sink

end Archivist
