import Archivist.CommandLine.Flag

/-!
# Usage

What is said to somebody who asks for help, or whose command line cannot be carried out.
-/

namespace Archivist

/-- The name of the program and its version. -/
def versionLine : String := "docseeker 0.3.0"

/-- How the program is used. -/
def usageLines : List String := [
  "Agentic document retrieval and answer synthesis over local Ollama models", "",
  "Usage: docseeker [OPTIONS] <COMMAND>", "",
  "Commands:",
  "  ask <QUESTION> --corpus <FILE> [--caller <CALLER>] [--hints <JSON>]",
  "                   Answer a question from a JSON corpus",
  "  classify <TEXT>  Show how a message would be classified (chit-chat or retrieval)",
  "  config           Display current configuration", "",
  "Options:",
  "  -c, --config <CONFIG>  Configuration file path",
  "  -m, --model <MODEL>    Override the chat model",
  "      --host <HOST>      Override the Ollama host",
  "      --port <PORT>      Override the Ollama port",
  "  -v, --verbose          Tell more (twice: still more)",
  "  -q, --quiet            Quiet mode (answer only)",
  "  -h, --help             Print help",
  "  -V, --version          Print version"]

namespace CommandFault

/-- What is said about a command line. -/
def message : CommandFault → String
  | help | nothing => "\n".intercalate usageLines
  | version => versionLine
  | missingCommand => "error: a command is missing"
  | unknownCommand => "error: unrecognized command"
  | unknownArgument => "error: unexpected argument"
  | missingArgument => "error: a required argument is missing"
  | needlessValue => "error: an option that takes no value has one"
  | missingValue => "error: an option has no value"
  | badValue => "error: a value is invalid"
  | repeated => "error: an option is given more than once"

/-- Whether somebody gets what they asked for. -/
def isWish (f : CommandFault) : Bool := f = help || f = version

end CommandFault

end Archivist
