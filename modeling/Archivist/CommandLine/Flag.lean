import Archivist.Json.Reader
import Archivist.Text.Search

/-!
# Options of the Command Line

The options of the program, their spellings and the values that they accept. Most options may be
given before or after the command; some belong to one command.
-/

namespace Archivist

/-- An option of the command line. -/
inductive Flag where
  | config
  | model
  | host
  | port
  | verbose
  | quiet
  | help
  | version
  | corpus
  | caller
  | hints
  deriving DecidableEq

/-- Where an argument stands: before the command, or after one. -/
inductive Scope where
  | program
  | ask
  | classify
  | showConfig
  deriving DecidableEq

/-- Why a command line is not carried out. -/
inductive CommandFault where
  /-- Help is asked for. -/
  | help
  /-- The version is asked for. -/
  | version
  /-- There is nothing on the command line. -/
  | nothing
  | missingCommand
  | unknownCommand
  | unknownArgument
  | missingArgument
  /-- An option that takes no value has one. -/
  | needlessValue
  /-- An option is given without its value. -/
  | missingValue
  /-- A value cannot be read. -/
  | badValue
  /-- An option is given twice. -/
  | repeated
  deriving DecidableEq

namespace Flag

/-- The long spelling. -/
def long : Flag → String
  | config => "config"
  | model => "model"
  | host => "host"
  | port => "port"
  | verbose => "verbose"
  | quiet => "quiet"
  | help => "help"
  | version => "version"
  | corpus => "corpus"
  | caller => "caller"
  | hints => "hints"

/-- The short spelling. -/
def short? : Flag → Option Char
  | config => some 'c'
  | model => some 'm'
  | verbose => some 'v'
  | quiet => some 'q'
  | help => some 'h'
  | version => some 'V'
  | host | port | corpus | caller | hints => none

/-- Whether the option takes a value. -/
def takesValue : Flag → Bool
  | verbose | quiet | help | version => false
  | config | model | host | port | corpus | caller | hints => true

/-- A network port: a number from 0 to 65535, perhaps with a sign. -/
def readPort (text : String) : Option Nat :=
  let (negative, digits) := match text.toList with
    | '-' :: cs => (true, cs)
    | '+' :: cs => (false, cs)
    | cs => (false, cs)
  if digits.isEmpty || !digits.all Char.isDigit then none
  else
    let n := digits.foldl (fun n c => 10 * n + (c.toNat - '0'.toNat)) 0
    if negative then if n = 0 then some 0 else none
    else if n < Count.size 16 then some n else none

/-- Why a text gives no hints. -/
inductive HintsFault where
  | malformed
  | noObject

/-- The text of a fault. -/
def HintsFault.message : HintsFault → String
  | malformed => "invalid JSON"
  | noObject => "hints must be a JSON object"

/-- Hints about a question: a JSON object. -/
def readHints (text : String) : Except HintsFault Json :=
  match Json.read? text with
  | none => .error .malformed
  | some v => if v.isObj then .ok v.canonical else .error .noObject

/-- Why an option does not accept a value, if it does not. A path must not be empty. -/
def refusal (f : Flag) (value : String) : Option CommandFault :=
  match f with
  | config | corpus => if value = "" then some .missingValue else none
  | port => if (readPort value).isNone then some .badValue else none
  | hints => if (readHints value).isOk then none else some .badValue
  | _ => none

end Flag

namespace Scope

/-- The options that can be given everywhere. -/
def everywhere : List Flag := [.config, .model, .host, .port, .verbose, .quiet, .help]

/-- The options that can be given in a place. -/
def flags : Scope → List Flag
  | program => everywhere ++ [.version]
  | ask => everywhere ++ [.corpus, .caller, .hints]
  | classify | showConfig => everywhere

/-- Whether an argument that is no option can be given in a place. -/
def takesText : Scope → Bool
  | ask | classify => true
  | program | showConfig => false

/-- The commands with their names. -/
def commands : List (String × Scope) :=
  [("ask", ask), ("classify", classify), ("config", showConfig)]

/-- The name of the command that shows help. -/
def helpWord : String := "help"

/-- The command with a name. -/
def command? (name : String) : Option Scope := (commands.find? (·.1 = name)).map (·.2)

/-- Whether a name is that of a command, the one that shows help among them. -/
def isCommand (name : String) : Bool := name = helpWord || (command? name).isSome

end Scope

end Archivist
