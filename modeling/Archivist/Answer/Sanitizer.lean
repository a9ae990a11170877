import Archivist.Text.Blank
import Archivist.Text.Case
import Archivist.Text.Search

/-!
# Sanitizing Answers

What a language model writes before it comes to the answer is removed: blocks between the tags
`<think>` and `</think>`, and lines at the beginning that only announce the answer. An answer
arrives in pieces, and what has been passed on cannot be taken back, so a sanitizer holds back what
may still turn out to be a tag or such a line.

A sanitizer works in two stages. `Thinking` removes the blocks: it looks for the next tag in what
has arrived and keeps the end of it in which a tag may have begun. `Leading` removes the lines at
the beginning: it drops complete lines, and keeps a line that has only begun as long as it may turn
out to be dropped. `sanitizeAnswer` applies both to a whole text.
-/

namespace Archivist.Sanitize

/-- The tag that opens a block. -/
def openTag : List Char := ['<', 't', 'h', 'i', 'n', 'k', '>']

/-- The tag that closes a block. -/
def closeTag : List Char := ['<', '/', 't', 'h', 'i', 'n', 'k', '>']

/-- The length of the longest proper beginning of `mark` in which the text ends. -/
def heldLength (mark cs : List Char) : Nat :=
  ((List.range mark.length).reverse.find? fun k => (mark.take k).isSuffixOf cs).getD 0

/-- Where the text stands with respect to blocks. -/
structure Thinking where
  /-- Whether the text is inside a block. -/
  inside : Bool := false
  /-- What has arrived and is not sorted out: a tag may have begun in it. -/
  pending : List Char := []
  deriving DecidableEq

namespace Thinking

/-- The tag that comes next. -/
def tag (t : Thinking) : List Char := if t.inside then closeTag else openTag

/-- Goes past the next tag, if it has arrived; gives the visible text in front of it. -/
def pass? (t : Thinking) : Option (List Char × Thinking) :=
  (Text.breakOn t.tag t.pending).map fun (front, rest) =>
    (if t.inside then [] else front, { inside := !t.inside, pending := rest })

/-- Keeps the end in which a tag may have begun; gives the visible text in front of it. -/
def hold (t : Thinking) : List Char × Thinking :=
  let cut := t.pending.length - heldLength t.tag t.pending
  (if t.inside then [] else t.pending.take cut, { t with pending := t.pending.drop cut })

/-- Either tag has a first character. -/
theorem tag_ne_nil (t : Thinking) : t.tag ≠ [] := by
  simp only [tag]
  split <;> simp [openTag, closeTag]

/-- Going past a tag leaves less to sort out. -/
theorem length_pending_lt {t t' : Thinking} {front : List Char}
    (h : t.pass? = some (front, t')) : t'.pending.length < t.pending.length := by
  obtain ⟨⟨before, after⟩, hb, heq⟩ := Option.map_eq_some_iff.1 h
  obtain ⟨-, rfl⟩ := Prod.mk.inj heq
  exact Text.length_after_lt t.tag_ne_nil hb

/-- Takes the visible text out of what has arrived. -/
def strip (t : Thinking) : List Char × Thinking :=
  match _h : t.pass? with
  | some (front, t') =>
    let (later, last) := t'.strip
    (front ++ later, last)
  | none => t.hold
  termination_by t.pending.length
  decreasing_by exact length_pending_lt _h

/-- Takes in text; gives the visible text that is certain now. -/
def feed (t : Thinking) (cs : List Char) : List Char × Thinking :=
  strip { t with pending := t.pending ++ cs }

/-- The visible text that is left at the end: a tag that was begun outside a block. -/
def rest (t : Thinking) : List Char := if t.inside then [] else t.pending

end Thinking

/-- The beginnings of lines that only announce the answer. -/
def announcements : List String := [
  "好的，讓我", "好的,讓我", "好的，我來", "好的，我將", "讓我來", "讓我先", "讓我想", "我需要先",
  "根據工具結果，我將", "根據工具結果,我將", "根據以上工具結果，我將", "首先，我需要", "let me",
  "okay, let me", "ok, let me", "alright, let me", "i will now", "thinking:"]

/-- Whether a line only announces the answer. -/
def announces (line : List Char) : Bool :=
  let line := Text.lower (Text.trim line)
  announcements.any (·.toList.isPrefixOf line)

/-- Whether a line that has only begun may turn out to announce the answer. -/
def mayAnnounce (line : List Char) : Bool :=
  let line := Text.lower (Text.trimStart line)
  announcements.any fun a => line.isPrefixOf a.toList || a.toList.isPrefixOf line

/-- Whether a line at the beginning is dropped. -/
def isDropped (line : List Char) : Bool := Text.allBlank line || announces line

/-- What lies before the answer. -/
inductive Leading where
  /-- The answer has not begun; this is the line that has begun. -/
  | before (line : List Char)
  /-- The answer has begun. -/
  | begun
  deriving DecidableEq

namespace Leading

/-- The text behind the first line, if that is complete and dropped. -/
def dropLine? (cs : List Char) : Option (List Char) :=
  match Text.breakOn ['\n'] cs with
  | some (line, rest) => if isDropped (line ++ ['\n']) then some rest else none
  | none => none

/-- What is certain of a text with no complete line to drop. -/
def begin (cs : List Char) : List Char × Leading :=
  match Text.breakOn ['\n'] cs with
  | some (line, rest) => (Text.trimStart (line ++ ['\n']) ++ rest, begun)
  | none =>
    if Text.allBlank cs || mayAnnounce cs then ([], before cs) else (Text.trimStart cs, begun)

/-- Dropping a line leaves less text. -/
theorem length_lt_of_dropLine? {cs rest : List Char} (h : dropLine? cs = some rest) :
    rest.length < cs.length := by
  simp only [dropLine?] at h
  split at h
  · rename_i line after hb
    split at h
    · cases h
      exact Text.length_after_lt (by simp) hb
    · cases h
  · cases h

/-- Drops the complete lines at the beginning of a text that are to be dropped. -/
def feedLine (cs : List Char) : List Char × Leading :=
  match _h : dropLine? cs with
  | some rest => feedLine rest
  | none => begin cs
  termination_by cs.length
  decreasing_by exact length_lt_of_dropLine? _h

/-- Takes in text; gives the text that is certainly part of the answer. -/
def feed (l : Leading) (cs : List Char) : List Char × Leading :=
  match l with
  | begun => (cs, begun)
  | before line => feedLine (line ++ cs)

/-- What is left at the end: a line that does not announce anything after all. -/
def rest : Leading → List Char
  | begun => []
  | before line => if isDropped line then [] else Text.trimStart line

end Leading

/-- A sanitizer at work. -/
structure Sanitizer where
  thinking : Thinking := {}
  leading : Leading := .before []
  deriving DecidableEq

namespace Sanitizer

/-- Takes in a piece; gives the text that can be passed on. -/
def push (s : Sanitizer) (piece : String) : String × Sanitizer :=
  let (visible, thinking) := s.thinking.feed piece.toList
  let (out, leading) := s.leading.feed visible
  (String.ofList out, { thinking, leading })

/-- Gives what has been held back at the end of the text. -/
def finish (s : Sanitizer) : String × Sanitizer :=
  let (out, leading) := s.leading.feed s.thinking.rest
  (String.ofList (out ++ leading.rest),
    { thinking := { s.thinking with pending := [] }, leading := .begun })

/-- Takes in pieces; gives what each of them lets pass. -/
def pushAll (s : Sanitizer) : List String → List String × Sanitizer
  | [] => ([], s)
  | piece :: rest =>
    let (out, s) := s.push piece
    let (outs, s) := pushAll s rest
    (out :: outs, s)

end Sanitizer

/-- The text behind a closing tag that comes before any opening one. -/
def dropUnopened (cs : List Char) : List Char :=
  match Text.breakOn closeTag cs with
  | some (front, rest) => if Text.occurs openTag front then cs else rest
  | none => cs

/-- A whole answer without what comes before it. -/
def sanitizeAnswer (text : String) : String :=
  let (out, s) := Sanitizer.push {} (String.ofList (dropUnopened text.toList))
  Text.trimmed (out ++ s.finish.1)

end Archivist.Sanitize
