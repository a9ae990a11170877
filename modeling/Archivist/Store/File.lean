import Archivist.Failure
import Archivist.Store.Corpus

/-!
# Files of the Store

A corpus and a dictionary of synonyms are kept in JSON files. What is read here is the text of a
file, or nothing if there is no such file; the path is only for the messages.
-/

namespace Archivist.StoreFile

/-- The failure to read a file that does not exist. -/
def missing : Failure := .file "No such file or directory (os error 2)"

/-- Reads a corpus. -/
def corpus (path : String) (text : Option String) : Except Failure Corpus :=
  match text with
  | none => .error (.other s!"Failed to read corpus {path}")
  | some text =>
    match Corpus.read? text with
    | some c => .ok c
    | none => .error (.other s!"Failed to parse corpus {path}")

/-- Reads groups of synonyms. -/
def synonyms (path : String) (text : Option String) : Except Failure (List (List String)) :=
  match text with
  | none => .error missing
  | some text =>
    let refuse (reason : String) : Except Failure (List (List String)) :=
      .error (.store s!"invalid synonym file {path}: {reason}")
    match Json.read? text with
    | none => refuse "not a JSON text"
    | some v =>
      match v.asList (Json.asList Json.asString) with
      | .ok groups => .ok groups
      | .error m => refuse m.message

end Archivist.StoreFile
