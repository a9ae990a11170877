import Archivist.CommandLine.Flag
import Archivist.Config
import Archivist.Screen.Verbosity

/-!
# Reading the Command Line

The arguments are read from left to right, first those before the command, then those after it.
An option takes its value from the next argument or from the rest of its own; what it has taken is
checked when the next option or text is read, or at the end. So of two faults it is not always the
one further left that is told: an argument that nobody knows is told at once, and the options before
the command are checked last.

An option after the command outweighs the same one before it.
-/

namespace Archivist

/-- What a command line asks for. -/
inductive Command where
  | ask (question corpus caller : String) (hints : Option Json)
  | classify (text : String)
  | config

/-- A command line that can be carried out. -/
structure CommandLine where
  command : Command
  configFile : Option String
  model : Option String
  host : Option String
  port : Option Nat
  verbosity : Verbosity

/-- The arguments in one place that have been read. -/
structure Given where
  /-- The values of options. -/
  values : List (Flag × String) := []
  verbose : Nat := 0
  quiet : Bool := false
  /-- The argument that is no option. -/
  text : Option String := none
  /-- An option whose value has not been checked, or not even been read. -/
  pending : Option (Flag × Option String) := none

namespace Given

/-- The value of an option. -/
def value? (g : Given) (f : Flag) : Option String := (g.values.find? (·.1 = f)).map (·.2)

/-- Whether no option has been given. -/
def isEmpty (g : Given) : Bool := g.values.isEmpty && g.verbose = 0 && !g.quiet

/-- Accepts the value of an option. -/
def put (g : Given) (f : Flag) (value : String) : Except CommandFault Given :=
  if (g.value? f).isSome then .error .repeated
  else match f.refusal value with
    | some fault => .error fault
    | none => .ok { g with values := g.values ++ [(f, value)] }

/-- Checks the value of the last option. -/
def settle (g : Given) : Except CommandFault Given :=
  match g.pending with
  | none => .ok g
  | some (_, none) => .error .missingValue
  | some (f, some value) => put { g with pending := none } f value

/-- Accepts an option without a value. -/
def raise (g : Given) (f : Flag) : Except CommandFault Given := do
  let g ← g.settle
  match f with
  | .help => throw .help
  | .version => throw .version
  | .quiet => if g.quiet then throw .repeated else return { g with quiet := true }
  | _ => return { g with verbose := g.verbose + 1 }

/-- Reads an option that takes a value; `rest` is what its own argument says of the value. -/
def begin (g : Given) (f : Flag) (rest : Option String) : Except CommandFault Given := do
  let g ← g.settle
  match rest with
  | some value => g.put f value
  | none => return { g with pending := some (f, none) }

/-- Reads a long option, the characters after the two hyphens. -/
def readLong (g : Given) (scope : Scope) (cs : List Char) : Except CommandFault Given :=
  let (name, rest) := cs.span (· ≠ '=')
  match scope.flags.find? (·.long = String.ofList name) with
  | none => .error .unknownArgument
  | some f =>
    if f.takesValue then g.begin f (rest.tail?.map String.ofList)
    else if rest.isEmpty then g.raise f
    else .error .needlessValue

/-- Reads short options, the characters after the hyphen. -/
def readShort (g : Given) (scope : Scope) : List Char → Except CommandFault Given
  | [] => .ok g
  | c :: rest =>
    match scope.flags.find? (·.short? = some c) with
    | none => .error .unknownArgument
    | some f =>
      if f.takesValue then
        let value := match rest with
          | [] => none
          | '=' :: rest => some (String.ofList rest)
          | rest => some (String.ofList rest)
        g.begin f value
      else do
        let g ← g.raise f
        readShort g scope rest

/-- Reads an argument that is no option. -/
def readText (g : Given) (scope : Scope) (text : String) : Except CommandFault Given :=
  if scope.takesText && g.text.isNone then do
    let g ← g.settle
    return { g with text := some text }
  else if scope = .program && !(Scope.isCommand text) then .error .unknownCommand
  else .error .unknownArgument

/-- What the command that shows help amounts to, given its arguments. -/
def readHelp : List String → CommandFault
  | [] => .help
  | [name] => if Scope.isCommand name then .help else .unknownCommand
  | _ => .unknownCommand

/-- Reads arguments; after two hyphens alone none is an option. The command, once there is one,
comes with the arguments after it. -/
def read (scope : Scope) (verbatim : Bool) (g : Given) :
    List String → Except CommandFault (Given × Option (Scope × List String))
  | [] => .ok (g, none)
  | arg :: rest =>
    if verbatim then do
      let g ← g.readText scope arg
      read scope true g rest
    else match g.pending, arg.toList with
      | _, ['-', '-'] => read scope true g rest
      | _, '-' :: '-' :: cs => do
        let g ← g.readLong scope cs
        read scope false g rest
      | some (f, none), ['-'] => read scope false { g with pending := some (f, some arg) } rest
      | _, '-' :: c :: cs => do
        let g ← g.readShort scope (c :: cs)
        read scope false g rest
      | some (f, none), _ => read scope false { g with pending := some (f, some arg) } rest
      | _, _ =>
        if scope = .program && arg = Scope.helpWord then .error (readHelp rest)
        else match if scope = .program then Scope.command? arg else none with
          | some command => .ok (g, some (command, rest))
          | none => do
            let g ← g.readText scope arg
            read scope false g rest

/-- The command of a place, once its arguments have been read. -/
def command (g : Given) : Scope → Except CommandFault Command
  | .ask =>
    match g.text, g.value? .corpus with
    | some question, some corpus =>
      .ok (.ask question corpus ((g.value? .caller).getD "cli")
        ((g.value? .hints).bind fun h => (Flag.readHints h).toOption))
    | _, _ => .error .missingArgument
  | .classify =>
    match g.text with
    | some text => .ok (.classify text)
    | none => .error .missingArgument
  | .showConfig => .ok .config
  | .program => .error (if g.isEmpty then .nothing else .missingCommand)

end Given

namespace CommandLine

/-- Reads a command line, without the name of the program. -/
def read (args : List String) : Except CommandFault CommandLine := do
  let (before, found) ← Given.read .program false {} args
  match found with
  | none =>
    let before ← before.settle
    throw (if before.isEmpty then .nothing else .missingCommand)
  | some (scope, rest) =>
    let (after, _) ← Given.read scope false {} rest
    let after ← after.settle
    let command ← after.command scope
    let before ← before.settle
    let value? (f : Flag) : Option String := (after.value? f).or (before.value? f)
    return {
      command
      configFile := value? .config
      model := value? .model
      host := value? .host
      port := (value? .port).bind Flag.readPort
      verbosity := .ofFlags (after.quiet || before.quiet)
        (if after.verbose = 0 then before.verbose else after.verbose) }

/-- The settings of the language model with those that the command line gives in their place. -/
def override (l : CommandLine) (s : ModelSettings) : ModelSettings :=
  { s with
    chatModel := l.model.getD s.chatModel
    host := l.host.getD s.host
    port := l.port.getD s.port }

end CommandLine

end Archivist
