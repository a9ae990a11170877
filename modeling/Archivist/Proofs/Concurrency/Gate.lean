import Archivist.Concurrency.Gate
import Mathlib.Data.List.Nodup
import Mathlib.Data.Nat.Notation

/-!
# Permits in Order

A gate never loses a permit: those that are free, those that have been given to somebody in line and
those that are held make up all there are. `Gate.Serves` says so, together with who is in line; each
operation on a gate keeps it, with one holder more or less. Nobody waits without a reason: somebody
else has a permit then (`Gate.Serves.busy`).
-/

namespace Archivist.Gate

variable {g g' : Gate} {total held i : ℕ} {line : ℕ → Prop}

/-- A gate with `total` permits, `held` of which are held, and with the participants of `line` in
line. -/
structure Serves (g : Gate) (total held : ℕ) (line : ℕ → Prop) : Prop where
  total_eq : g.free + g.granted.length + held = total
  /-- Nobody waits while a permit is free. -/
  free_eq_zero : g.waiting ≠ [] → g.free = 0
  nodup : (g.waiting ++ g.granted).Nodup
  mem_iff : ∀ j, j ∈ g.waiting ++ g.granted ↔ line j

namespace Serves

/-- A gate with all its permits free. -/
theorem of_free (total : ℕ) : Serves { free := total } total 0 fun _ => False where
  total_eq := rfl
  free_eq_zero := fun h => absurd rfl h
  nodup := List.nodup_nil
  mem_iff := fun _ => by simp

theorem congr {held' : ℕ} {line' : ℕ → Prop} (h : g.Serves total held line) (hheld : held = held')
    (hline : ∀ j, line j ↔ line' j) : g.Serves total held' line' where
  total_eq := hheld ▸ h.total_eq
  free_eq_zero := h.free_eq_zero
  nodup := h.nodup
  mem_iff := fun j => (h.mem_iff j).trans (hline j)

/-- No more permits are held than there are. -/
theorem held_le (h : g.Serves total held line) : held ≤ total := by
  have := h.total_eq
  omega

/-- A permit that is free is taken. -/
theorem enter_true (h : g.Serves total held line) (he : g.enter i = (true, g')) :
    g'.Serves total (held + 1) line := by
  obtain ⟨free, waiting, granted⟩ := g
  cases free with
  | zero => cases he
  | succ free =>
      cases he
      have hwaiting : waiting = [] := by
        by_contra hne
        exact absurd (h.free_eq_zero hne) (Nat.succ_ne_zero free)
      refine ⟨?_, fun hne => absurd hwaiting hne, h.nodup, h.mem_iff⟩
      have := h.total_eq
      simp only at this ⊢
      omega

/-- Without a free permit a participant gets in line. -/
theorem enter_false (h : g.Serves total held line) (he : g.enter i = (false, g'))
    (hi : ¬ line i) : g'.Serves total held fun j => line j ∨ j = i := by
  obtain ⟨free, waiting, granted⟩ := g
  cases free with
  | succ free => cases he
  | zero =>
      cases he
      have hmem : i ∉ waiting ++ granted := fun hmem => hi ((h.mem_iff i).1 hmem)
      have hperm : List.Perm (waiting ++ [i] ++ granted) (i :: (waiting ++ granted)) := by
        rw [List.append_assoc]
        exact List.perm_middle
      refine ⟨h.total_eq, fun _ => rfl, hperm.nodup_iff.2 (h.nodup.cons hmem), fun j => ?_⟩
      rw [← h.mem_iff j, or_comm]
      exact hperm.mem_iff.trans List.mem_cons

/-- A permit that was given in line is picked up. -/
theorem pickUp (h : g.Serves total held line) (hp : g.pickUp i = some g') :
    g'.Serves total (held + 1) fun j => line j ∧ j ≠ i := by
  obtain ⟨free, waiting, granted⟩ := g
  rw [Gate.pickUp] at hp
  split at hp
  · rename_i hi
    cases hp
    simp only at hi
    have hnodup := List.nodup_append.1 h.nodup
    have htotal := h.total_eq
    have hlength := List.length_erase_of_mem hi
    have hpos := List.length_pos_of_mem hi
    refine ⟨?_, h.free_eq_zero, ?_, fun j => ?_⟩
    · simp only at htotal ⊢
      omega
    · exact h.nodup.sublist (List.Sublist.append_left (List.erase_sublist) _)
    · -- The line has no one twice, so nobody else goes and `i` is not left over.
      have hwaiting : i ∉ waiting := fun hmem => hnodup.2.2 i hmem i hi rfl
      have hline := h.mem_iff j
      simp only [List.mem_append, hnodup.2.1.mem_erase_iff] at hline ⊢
      rw [← hline]
      constructor
      · rintro (hj | ⟨hne, hj⟩)
        · exact ⟨.inl hj, fun heq => hwaiting (heq ▸ hj)⟩
        · exact ⟨.inr hj, hne⟩
      · rintro ⟨hj | hj, hne⟩
        · exact .inl hj
        · exact .inr ⟨hne, hj⟩
  · cases hp

/-- A permit that is given back is free, or the first in line is given it. -/
theorem release (h : g.Serves total (held + 1) line) : g.release.Serves total held line := by
  obtain ⟨free, waiting, granted⟩ := g
  have htotal := h.total_eq
  cases waiting with
  | nil =>
      refine ⟨?_, fun hne => absurd rfl hne, h.nodup, h.mem_iff⟩
      simp only [Gate.release] at htotal ⊢
      omega
  | cons k rest =>
      have hperm : List.Perm (rest ++ (granted ++ [k])) (k :: rest ++ granted) := by
        rw [← List.append_assoc]
        exact List.perm_append_singleton k (rest ++ granted)
      refine ⟨?_, fun _ => h.free_eq_zero (List.cons_ne_nil k rest), hperm.nodup_iff.2 h.nodup,
        fun j => ?_⟩
      · simp only [Gate.release, List.length_append, List.length_singleton] at htotal ⊢
        omega
      · rw [← h.mem_iff j]
        exact hperm.mem_iff

/-- A participant leaves the line, with or without a permit. -/
theorem leave (h : g.Serves total held line) (hi : line i) :
    (g.leave i).Serves total held fun j => line j ∧ j ≠ i := by
  rw [Gate.leave]
  split
  · rename_i hgranted
    exact (h.pickUp (if_pos hgranted)).release
  · rename_i hgranted
    have hwaiting : i ∈ g.waiting := by
      have hmem := (h.mem_iff i).2 hi
      exact (List.mem_append.1 hmem).resolve_right hgranted
    have hnodup := List.nodup_append.1 h.nodup
    refine ⟨h.total_eq, fun hne => h.free_eq_zero (List.ne_nil_of_mem hwaiting),
      h.nodup.sublist (List.Sublist.append_right List.erase_sublist _), fun j => ?_⟩
    have hline := h.mem_iff j
    simp only [List.mem_append, hnodup.1.mem_erase_iff] at hline ⊢
    rw [← hline]
    constructor
    · rintro (⟨hne, hj⟩ | hj)
      · exact ⟨.inl hj, hne⟩
      · exact ⟨.inr hj, fun heq => hgranted (heq ▸ hj)⟩
    · rintro ⟨hj | hj, hne⟩
      · exact .inl ⟨hne, hj⟩
      · exact .inr hj

/-- With nobody there, all permits are free. -/
theorem eq_of_nobody (h : g.Serves total 0 line) (hline : ∀ j, ¬ line j) :
    g = { free := total } := by
  obtain ⟨free, waiting, granted⟩ := g
  have hnil : waiting ++ granted = [] :=
    List.eq_nil_iff_forall_not_mem.2 fun j hj => hline j ((h.mem_iff j).1 hj)
  obtain ⟨rfl, rfl⟩ := List.append_eq_nil_iff.1 hnil
  obtain rfl : free = total := h.total_eq
  rfl

/-- Where nobody holds a permit and nobody waits, one is free. -/
theorem enter_ne_false (h : g.Serves total 0 line) (hline : ∀ j, ¬ line j) (htotal : 0 < total) :
    g.enter i ≠ (false, g') := by
  obtain ⟨n, rfl⟩ := Nat.exists_eq_add_of_lt htotal
  rw [h.eq_of_nobody hline]
  nofun

/-- **Who is in line and has not been given a permit waits for somebody**: for a holder, or for
somebody in line who has been given one and can go on. -/
theorem busy (h : g.Serves total held line) (htotal : 0 < total) (hi : line i)
    (hp : g.pickUp i = none) : 0 < held ∨ ∃ j, line j ∧ g.pickUp j ≠ none := by
  have hgranted : i ∉ g.granted := fun hmem => by
    rw [Gate.pickUp, if_pos hmem] at hp
    cases hp
  have hwaiting : g.waiting ≠ [] :=
    List.ne_nil_of_mem ((List.mem_append.1 ((h.mem_iff i).2 hi)).resolve_right hgranted)
  have hsum := h.total_eq
  rw [h.free_eq_zero hwaiting, Nat.zero_add] at hsum
  cases hg : g.granted with
  | nil =>
      rw [hg, List.length_nil] at hsum
      exact .inl (by omega)
  | cons j rest =>
      have hj : j ∈ g.granted := hg ▸ List.mem_cons_self
      refine .inr ⟨j, (h.mem_iff j).1 (List.mem_append_right _ hj), ?_⟩
      rw [Gate.pickUp, if_pos hj]
      exact Option.some_ne_none _

end Serves

end Archivist.Gate
