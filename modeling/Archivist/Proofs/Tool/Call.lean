import Archivist.Proofs.Json.Record
import Archivist.Tool.Call

/-!
# Changes to Calls

Two calls agree except for some arguments if they have the same name and the same values for all
others, read by key. Setting an argument and removing one are such changes, also if the argument was
there before.
-/

namespace Archivist.ToolCall

variable {c c' c'' : ToolCall} {keys : List String} {key raw : String} {v : Json}

/-- The calls have the same name and agree in all arguments but these. -/
structure AgreeExcept (keys : List String) (c c' : ToolCall) : Prop where
  name : c'.name = c.name
  get? : ∀ key ∉ keys, c'.arguments.get? key = c.arguments.get? key

namespace AgreeExcept

theorem trans (h : AgreeExcept keys c c') (h' : AgreeExcept keys c' c'') :
    AgreeExcept keys c c'' where
  name := h'.name.trans h.name
  get? := fun key hkey => (h'.get? key hkey).trans (h.get? key hkey)

/-- Calls that agree but for some arguments are of one tool. -/
theorem tool? (h : AgreeExcept keys c c') : c'.tool? = c.tool? := by
  rw [ToolCall.tool?, ToolCall.tool?, h.name]

end AgreeExcept

/-- Setting an argument changes no other. -/
theorem agreeExcept_set (hkey : key ∈ keys) (c : ToolCall) (v : Json) :
    AgreeExcept keys c (c.set key v) where
  name := rfl
  get? := fun _ hother =>
    (Members.updated_insert key v c.arguments).other _ (ne_of_mem_of_not_mem hkey hother).symm

/-- Taking out an argument changes no other. -/
theorem agreeExcept_without (hkey : key ∈ keys) (c : ToolCall) :
    AgreeExcept keys c (c.without key) where
  name := rfl
  get? := fun _ hother => by
    rw [without, Members.get?_erase, if_neg (ne_of_mem_of_not_mem hkey hother)]

/-- An argument that is set is there. -/
theorem get?_set (c : ToolCall) (key : String) (v : Json) :
    (c.set key v).arguments.get? key = some v :=
  (Members.updated_insert key v c.arguments).self

/-- An argument that is taken out is not there. -/
theorem get?_without (c : ToolCall) (key : String) : (c.without key).arguments.get? key = none := by
  rw [without, Members.get?_erase, if_pos rfl]

/-- A text that is read is the argument as it stands, and not blank. -/
theorem text?_eq_some (h : c.text? key = some raw) :
    c.arguments.get? key = some (.str raw) ∧ Text.blank raw = false := by
  obtain ⟨text, htext, hblank⟩ := Option.bind_eq_some_iff.1 h
  obtain ⟨v, hv, hstr⟩ := Option.bind_eq_some_iff.1 htext
  cases v <;> cases hstr
  rw [Text.unlessBlank] at hblank
  split at hblank
  · cases hblank
  · rename_i hnot
    cases hblank
    exact ⟨hv, Bool.eq_false_iff.2 hnot⟩

/-- A text that is not blank is read as it stands. -/
theorem text?_of_get? (h : c.arguments.get? key = some (.str raw)) (hraw : Text.blank raw = false) :
    c.text? key = some raw := by
  rw [text?, h, Option.bind_some, Json.str?, Option.bind_some, Text.unlessBlank, hraw]
  rfl

end Archivist.ToolCall
