import Archivist.Answer.Synthesis
import Archivist.Proofs.Answer.Pieces

/-!
# Streamed Answers

What a language model streams is passed on while it arrives. What has been passed on at any moment
and what the sanitizer still has to pass on make up the sanitized text of all that may follow
(`Sanitize.Sanitizer.push_due`), so a stream that breaks off has passed on nothing that a longer one
would not have. A stream that comes to its end has passed on its sanitized text, and if that is
empty, the fixed sentence: sanitized text that is blank is empty, so the answer is never blank.

## Main results

* `Synthesis.passesOn_stream`: what is passed on of a stream, and how that ends.
-/

namespace Archivist

namespace Sanitize

/-- What sanitizing leaves of a whole text. -/
def sanitized (text : String) : String := String.ofList (lead (visible text.toList))

/-- Sanitized text begins with something else than white space. -/
theorem blank_sanitized_iff {text : String} :
    Text.blank (sanitized text) = true ↔ sanitized text = "" := by
  rw [Text.blank, sanitized, String.toList_ofList, ← String.toList_inj, String.toList_ofList]
  constructor
  · intro h
    have hnil := Text.trimStart_of_allBlank h
    rwa [lead, Text.trimStart_trimStart, ← lead] at hnil
  · intro h
    rw [h]
    rfl

end Sanitize

namespace Synthesis

open Sanitize (Sanitizer sanitized)

variable {s : Sanitizer} {chunks : List Chunk} {sent : List String}

/-- The texts that a stream gives before it ends. -/
def received : List Chunk → List String
  | .text text :: rest => text :: received rest
  | _ => []

/-- How a stream ends. -/
def ending : List Chunk → Ended
  | [] => .complete
  | .failure e :: _ => .failed e
  | .breakdown :: _ => .brokenDown
  | .text _ :: rest => ending rest

/-- The answer to a question of which the language model has written this. -/
def answerOf (text : String) : String :=
  if sanitized text = "" then emptyAnswer else sanitized text

/-- An answer as it stands once the stream is over: if it is blank, the fixed sentence is added. -/
def concluded (answer : String) : String :=
  if Text.blank answer then answer ++ emptyAnswer else answer

/-- What is passed on of a stream: no empty piece; of a stream that comes to its end the sanitized
text, or the fixed sentence in place of an empty one; of one that breaks off a beginning of what
sanitizing leaves of everything that it might have become. -/
structure PassesOn (chunks : List Chunk) (s : Streamed) : Prop where
  ended : s.ended = ending chunks
  pieces_ne_empty : ∀ piece ∈ s.pieces, piece ≠ ""
  complete : ending chunks = .complete →
    s.text = answerOf (String.join (received chunks)) ∧ Text.blank s.text = false
  broken_off : ending chunks ≠ .complete → ∀ more : List String,
    s.text.toList <+: (sanitized (String.join (received chunks ++ more))).toList

/-! ### Pieces -/

/-- Texts that are joined with nothing in between. -/
theorem joined_empty (parts : List String) : Text.joined "" parts = String.join parts := by
  rw [Text.joined]
  induction parts with
  | nil => simp
  | cons part rest ih => cases rest <;> simp_all

/-- An answer is what its pieces say. -/
theorem text_eq_join (s : Streamed) : s.text = String.join s.pieces := joined_empty s.pieces

/-- A piece is passed on as it is. -/
theorem join_pieceOf (text : String) : String.join (pieceOf text) = text := by
  rw [pieceOf]
  split
  · rename_i h
    rw [h]
    rfl
  · simp

/-- No empty piece is passed on. -/
theorem ne_empty_of_mem_pieceOf {text piece : String} (h : piece ∈ pieceOf text) : piece ≠ "" := by
  rw [pieceOf] at h
  split at h
  · cases h
  · rename_i hne
    rwa [List.mem_singleton.1 h]

/-- Pieces are blank together if each of them is. -/
theorem blank_join (pieces : List String) :
    Text.blank (String.join pieces) = pieces.all Text.blank := by
  rw [Text.blank, String.toList_join, Text.allBlank, List.all_flatMap]
  rfl

/-- The fixed sentence is not empty. -/
theorem emptyAnswer_ne_empty : emptyAnswer ≠ "" := by decide

/-- The fixed sentence is not blank. -/
theorem blank_emptyAnswer : Text.blank emptyAnswer = false := by decide

/-- No empty piece ends an answer. -/
theorem ne_empty_of_mem_close {piece : String} (h : piece ∈ close s sent) : piece ≠ "" := by
  have htail : piece ∈ pieceOf s.finish.1 → piece ≠ "" := ne_empty_of_mem_pieceOf
  simp only [close] at h
  split at h
  · rcases List.mem_append.1 h with h | h
    · exact htail h
    · exact List.mem_singleton.1 h ▸ emptyAnswer_ne_empty
  · exact htail h

/-- Sanitized text is concluded with the fixed sentence or as it is. -/
theorem concluded_sanitized (text : String) : concluded (sanitized text) = answerOf text := by
  rw [concluded, answerOf]
  by_cases hempty : sanitized text = ""
  · rw [if_pos hempty, if_pos (Sanitize.blank_sanitized_iff.2 hempty), hempty, String.empty_append]
  · rw [if_neg hempty, if_neg (mt Sanitize.blank_sanitized_iff.1 hempty)]

/-- No answer is blank. -/
theorem blank_answerOf (text : String) : Text.blank (answerOf text) = false := by
  rw [answerOf]
  split
  · exact blank_emptyAnswer
  · rename_i hne
    exact Bool.eq_false_iff.2 (mt Sanitize.blank_sanitized_iff.1 hne)

/-- At the end everything has been passed on that was due. -/
theorem join_close (hs : s.Settled) (sent : List String) :
    String.join (sent ++ close s sent) =
      concluded (String.join sent ++ String.ofList (s.due [])) := by
  have hdue : String.ofList (s.due []) = s.finish.1 := by
    rw [← Sanitizer.toList_finish hs, String.ofList_toList]
  have hanswer : String.join (sent ++ pieceOf s.finish.1) = String.join sent ++ s.finish.1 := by
    rw [String.join_append, join_pieceOf]
  simp only [close, concluded, hdue, ← hanswer, blank_join]
  split
  · rw [← List.append_assoc, String.join_append, String.join_cons, String.join_nil,
      String.append_empty]
  · rfl

/-! ### The stream -/

/-- A stream ends as what has been received of it ends. -/
theorem ended_streamFrom (s : Sanitizer) (sent : List String) (chunks : List Chunk) :
    (streamFrom s sent chunks).ended = ending chunks := by
  fun_induction streamFrom s sent chunks with
  | case1 => rfl
  | case2 => rfl
  | case3 => rfl
  | case4 s sent text rest out s' h now later ih => exact ih

/-- No piece of an answer is empty. -/
theorem pieces_streamFrom_ne_empty {piece : String}
    (h : piece ∈ (streamFrom s sent chunks).pieces) : piece ≠ "" := by
  fun_induction streamFrom s sent chunks with
  | case1 => exact ne_empty_of_mem_close h
  | case2 => cases h
  | case3 => cases h
  | case4 s sent text rest out s' _ now later ih =>
      rcases List.mem_append.1 h with h | h
      · exact ne_empty_of_mem_pieceOf h
      · exact ih h

/-- **A stream that comes to its end** has passed on all that was due. -/
theorem join_streamFrom_of_complete (hs : s.Settled) (sent : List String)
    (h : ending chunks = .complete) :
    String.join (sent ++ (streamFrom s sent chunks).pieces) = concluded (String.join sent ++
      String.ofList (s.due (String.join (received chunks)).toList)) := by
  induction chunks generalizing s sent with
  | nil => exact join_close hs sent
  | cons chunk rest ih =>
      cases chunk with
      | failure e => cases h
      | breakdown => cases h
      | text text =>
          have hpush := s.push_due text (String.join (received rest)).toList
          have hnow : String.join (sent ++ pieceOf (s.push text).1) =
              String.join sent ++ (s.push text).1 := by
            rw [String.join_append, join_pieceOf]
          have hrest := ih (s.push_settled text) (sent ++ pieceOf (s.push text).1) h
          have hdue : (s.push text).1 ++
              String.ofList ((s.push text).2.due (String.join (received rest)).toList) =
                String.ofList (s.due (String.join (received (.text text :: rest))).toList) := by
            rw [received, String.join_cons, String.toList_append, ← hpush, String.ofList_append,
              String.ofList_toList]
          rw [List.append_assoc, hnow, String.append_assoc, hdue] at hrest
          exact hrest

/-- **A stream that breaks off** has passed on a beginning of what was due, whatever follows. -/
theorem join_streamFrom_isPrefix (s : Sanitizer) (sent : List String)
    (h : ending chunks ≠ .complete) (more : List String) :
    (String.join (streamFrom s sent chunks).pieces).toList <+:
      s.due (String.join (received chunks ++ more)).toList := by
  induction chunks generalizing s sent with
  | nil => exact absurd rfl h
  | cons chunk rest ih =>
      cases chunk with
      | failure e => exact List.nil_prefix
      | breakdown => exact List.nil_prefix
      | text text =>
          have hpush := s.push_due text (String.join (received rest ++ more)).toList
          have hrest := ih (s.push text).2 (sent ++ pieceOf (s.push text).1) h
          rw [received, List.cons_append, String.join_cons, String.toList_append, ← hpush]
          have hpieces : (streamFrom s sent (.text text :: rest)).pieces =
              pieceOf (s.push text).1 ++
                (streamFrom (s.push text).2 (sent ++ pieceOf (s.push text).1) rest).pieces := rfl
          rw [hpieces, String.join_append, join_pieceOf, String.toList_append,
            List.prefix_append_right_inj]
          exact hrest

/-- **What is passed on of a stream**: however it is cut into pieces and wherever it breaks off. -/
theorem passesOn_stream (chunks : List Chunk) : PassesOn chunks (stream chunks) where
  ended := ended_streamFrom {} [] chunks
  pieces_ne_empty := fun _ => pieces_streamFrom_ne_empty
  complete h := by
    have hjoin := join_streamFrom_of_complete Sanitizer.settled_fresh [] h
    rw [Sanitizer.due_fresh, List.nil_append, String.join_nil, String.empty_append, ← sanitized,
      concluded_sanitized] at hjoin
    have htext : (stream chunks).text = answerOf (String.join (received chunks)) := by
      rw [text_eq_join, stream, hjoin]
    exact ⟨htext, htext ▸ blank_answerOf _⟩
  broken_off h more := by
    rw [text_eq_join, sanitized, String.toList_ofList, ← Sanitizer.due_fresh]
    exact join_streamFrom_isPrefix {} [] h more

/-- A beginning of a tag is held back, and a line that only announces the answer is dropped. -/
example : (stream [.text "好的，讓我", .text "想想\n共 <th", .text "ink>嗯</think>3 筆"]).pieces =
    ["共 ", "3 筆"] := by
  decide +kernel

end Synthesis

end Archivist
