import Archivist.CommandLine.Reader
import Archivist.CommandLine.Usage
import Archivist.Expansion
import Archivist.Provider.Client
import Archivist.Screen.Printer
import Archivist.Store.File
import Archivist.Turn.Assembly
import Archivist.Turn.Smalltalk
import Std.Time.DateTime.Timestamp

/-!
# The Program

Carries out a command line: reads the files that it names, and prints. The command `ask` works on
the corpus alone, with a language model that cannot be reached.
-/

namespace Archivist.CommandLine

/-- The text of a file, if there is one. -/
def readFile? (path : String) : IO (Option String) := do
  try return some (← IO.FS.readFile path) catch _ => return none

/-- The home directory. -/
def home : IO String := return (← IO.getEnv "HOME").getD ""

/-- The first day of the clock of the system. -/
def epoch : Date := ⟨1970, 1, 1, by decide⟩

/-- The day on which the program runs. -/
def today : IO Date := do
  let now ← Std.Time.Timestamp.now
  return (epoch.shift (now.toSecondsSinceUnixEpoch.val / 86400)).getD epoch

/-- The settings of the file that the command line names, or else of the default file, which is
written, if possible, where there is none. -/
def loadConfig (l : CommandLine) : IO (Except Failure Config) := do
  let loaded ← match l.configFile with
    | some path =>
      let text ← readFile? path
      pure (text.elim (.error Config.missingFile) Config.load)
    | none =>
      let folder := (← home) ++ "/.docseeker"
      let path := folder ++ "/config.toml"
      match ← readFile? path with
      | some text => pure (Config.load text)
      | none =>
        try
          IO.FS.createDirAll folder
          (({} : Config).render.toOption).forM (IO.FS.writeFile path)
        catch _ => pure ()
        pure (.ok {})
  return loaded.bind fun c => { c with llm := l.override c.llm }.validate

/-- The dictionary of synonyms: that of the file in the settings, or else that of the corpus. -/
def loadSynonyms (c : Config) (corpus : Corpus) : IO SynonymIndex := do
  let own := SynonymIndex.ofGroups corpus.synonyms
  match c.synonymsFile (← home) with
  | none => return own
  | some path =>
    return ((StoreFile.synonyms path (← readFile? path)).map .ofGroups).toOption.getD own

/-- Prints the failure of a command. -/
def fail (e : Failure) : IO UInt32 := do
  IO.eprintln s!"Error: {e.message}"
  return 1

/-- Answers a question from a corpus. -/
def ask (c : Config) (v : Verbosity) (path : String) (r : TurnRequest) : IO UInt32 := do
  match StoreFile.corpus path (← readFile? path) with
  | .error e => fail e
  | .ok corpus =>
    let x := c.expander (← loadSynonyms c corpus) true
    let client := Provider.Client.ofConfig c
    let world : World (client.environment (σ := Unit) Provider.unreachable) := {
      cache := .fresh c.cache.limits
      permits := { free := (c.workshop x).parallel }
      state := (corpus, ()) }
    let events := ((c.assistant x (← today)).turn r
      { world, limiter := c.rateLimit.limiter }).events
    let screen := Screen.ofEvents v events
    IO.print screen.out
    IO.eprint screen.err
    return if events.any (·.isError) then 1 else 0

/-- Carries out a command. -/
def run (l : CommandLine) : IO UInt32 := do
  match ← loadConfig l with
  | .error e => fail e
  | .ok c =>
    match l.command with
    | .ask question corpus caller hints =>
      ask c l.verbosity corpus { question, caller, hints }
    | .classify text =>
      (Smalltalk.classify text).lines.forM (IO.println ·)
      return 0
    | .config =>
      match c.render with
      | .ok text => IO.println text; return 0
      | .error e => fail e

end Archivist.CommandLine

open Archivist in
/-- Carries out the command line. -/
def main (args : List String) : IO UInt32 := do
  match CommandLine.read args with
  | .ok l => l.run
  | .error fault =>
    if fault.isWish then
      IO.println fault.message
      return 0
    else
      IO.eprintln fault.message
      return 2
