import Archivist.Order.Stable
import Mathlib.Data.List.Basic

/-!
# Sorted Lists

What is left of a list without repetitions of keys is part of it (`mem_of_mem_firstOfEach`) and has
each key once (`nodup_map_firstOfEach`); a list that is put together by adding elements whose key is
new is of this kind (`foldl_eq_append_firstOfEach`). Sorting rearranges a list (`stableSort_perm`).
What comes out is in order as far as the test orders the elements at all: among scores there is one
that no test orders, and nothing is said of what stands on either side of it. `Sorts less good le`
says that the test `less` decides the order `le` between elements that are `good`; a beginning of
the sorted list that consists of such elements is in this order (`Sorts.pairwise_of_prefix`).
-/

namespace Archivist

variable {α : Type} {less : α → α → Bool} {good : α → Prop} {le : α → α → Prop} {x : α}
  {xs ys : List α}

/-- The first of each key is one of all. -/
theorem mem_of_mem_firstOfEach {α κ : Type} [DecidableEq κ] {key : α → κ} {seen : List κ}
    {xs : List α} {x : α} (h : x ∈ firstOfEach key seen xs) : x ∈ xs := by
  induction xs generalizing seen with
  | nil => cases h
  | cons y ys ih =>
      rw [firstOfEach] at h
      split at h
      · exact List.mem_cons_of_mem _ (ih h)
      · exact (List.mem_cons.1 h).elim (fun heq => heq ▸ List.mem_cons_self) fun h =>
          List.mem_cons_of_mem _ (ih h)

/-- The first of each key has none of the keys that have been seen before. -/
theorem key_notMem_of_mem_firstOfEach {α κ : Type} [DecidableEq κ] {key : α → κ} {seen : List κ}
    {xs : List α} {x : α} (h : x ∈ firstOfEach key seen xs) : key x ∉ seen := by
  induction xs generalizing seen with
  | nil => cases h
  | cons y ys ih =>
      rw [firstOfEach] at h
      split at h
      · exact ih h
      · rename_i hy
        rcases List.mem_cons.1 h with rfl | h
        · exact hy
        · exact fun hseen => ih h (List.mem_cons_of_mem _ hseen)

/-- No key is left twice. -/
theorem nodup_map_firstOfEach {α κ : Type} [DecidableEq κ] (key : α → κ) (seen : List κ)
    (xs : List α) : ((firstOfEach key seen xs).map key).Nodup := by
  induction xs generalizing seen with
  | nil => exact List.nodup_nil
  | cons y ys ih =>
      rw [firstOfEach]
      split
      · exact ih seen
      · rw [List.map_cons, List.nodup_cons]
        refine ⟨fun hmem => ?_, ih _⟩
        obtain ⟨x, hx, heq⟩ := List.mem_map.1 hmem
        exact key_notMem_of_mem_firstOfEach hx (heq ▸ List.mem_cons_self)

/-- Of each key that has not been seen before the first is left. -/
theorem exists_mem_firstOfEach {α κ : Type} [DecidableEq κ] {key : α → κ} {seen : List κ}
    {xs : List α} {x : α} (hx : x ∈ xs) (hseen : key x ∉ seen) :
    ∃ y ∈ firstOfEach key seen xs, key y = key x := by
  induction xs generalizing seen with
  | nil => cases hx
  | cons y ys ih =>
      rw [firstOfEach]
      split
      · rename_i hy
        refine ih ((List.mem_cons.1 hx).resolve_left ?_) hseen
        rintro rfl
        exact hseen hy
      · by_cases hkey : key x = key y
        · exact ⟨y, List.mem_cons_self, hkey.symm⟩
        · have hx' : x ∈ ys := (List.mem_cons.1 hx).resolve_left fun heq => hkey (heq ▸ rfl)
          have hseen' : key x ∉ key y :: seen := List.not_mem_cons_of_ne_of_not_mem hkey hseen
          obtain ⟨z, hz, heq⟩ := ih hx' hseen'
          exact ⟨z, List.mem_cons_of_mem _ hz, heq⟩

/-- What is left keeps its order: all that stood before one of them has been seen before or has a
key that is left before it. -/
theorem exists_of_firstOfEach_eq_append {α κ : Type} [DecidableEq κ] {key : α → κ} {seen : List κ}
    {xs before after : List α} {x : α} (h : firstOfEach key seen xs = before ++ x :: after) :
    ∃ ys zs, xs = ys ++ x :: zs ∧ ∀ y ∈ ys, key y ∈ seen ∨ key y ∈ before.map key := by
  induction xs generalizing seen before with
  | nil => simp [firstOfEach] at h
  | cons y ys ih =>
      rw [firstOfEach] at h
      split at h
      · rename_i hy
        obtain ⟨us, zs, rfl, hus⟩ := ih h
        exact ⟨y :: us, zs, rfl, List.forall_mem_cons.2 ⟨.inl hy, hus⟩⟩
      · cases before with
        | nil =>
            cases h
            exact ⟨[], ys, rfl, nofun⟩
        | cons b before =>
            obtain ⟨rfl, hrest⟩ := List.cons.inj h
            obtain ⟨us, zs, rfl, hus⟩ := ih hrest
            refine ⟨y :: us, zs, rfl, List.forall_mem_cons.2 ⟨.inr List.mem_cons_self, ?_⟩⟩
            intro u hu
            rcases hus u hu with hseen | hmem
            · rcases List.mem_cons.1 hseen with heq | hseen
              · exact .inr (heq ▸ List.mem_cons_self)
              · exact .inl hseen
            · exact .inr (List.mem_cons_of_mem _ hmem)

/-- Nothing is left out where no key is repeated and none has been seen before. -/
theorem firstOfEach_eq_self {α κ : Type} [DecidableEq κ] {key : α → κ} {seen : List κ} {xs : List α}
    (hnodup : (xs.map key).Nodup) (hseen : ∀ x ∈ xs, key x ∉ seen) :
    firstOfEach key seen xs = xs := by
  induction xs generalizing seen with
  | nil => rfl
  | cons x xs ih =>
      rw [List.map_cons, List.nodup_cons] at hnodup
      rw [List.forall_mem_cons] at hseen
      have hrest : ∀ y ∈ xs, key y ∉ key x :: seen := by
        intro y hy hmem
        rcases List.mem_cons.1 hmem with heq | hmem
        · exact hnodup.1 (heq ▸ List.mem_map_of_mem hy)
        · exact hseen.2 y hy hmem
      rw [firstOfEach, if_neg hseen.1, ih hnodup.2 hrest]

/-- Whatever is left out before, the elements that are left stand in the order in which they come
first. -/
theorem pairwise_idxOf_firstOfEach {α : Type} [DecidableEq α] (p : α → Bool) (seen xs : List α) :
    (firstOfEach id seen (xs.filter p)).Pairwise fun a b => xs.idxOf a < xs.idxOf b := by
  induction xs generalizing seen with
  | nil => exact .nil
  | cons x xs ih =>
      -- Elements other than the head are all one place further behind.
      have hshift : ∀ {ys : List α}, x ∉ ys → ys.Pairwise (fun a b => xs.idxOf a < xs.idxOf b) →
          ys.Pairwise fun a b => (x :: xs).idxOf a < (x :: xs).idxOf b := by
        intro ys hx hys
        refine hys.imp_of_mem fun ha hb hlt => ?_
        rw [List.idxOf_cons_ne _ (ne_of_mem_of_not_mem ha hx).symm,
          List.idxOf_cons_ne _ (ne_of_mem_of_not_mem hb hx).symm]
        exact Nat.succ_lt_succ hlt
      rw [List.filter_cons]
      split_ifs with hp
      · rw [firstOfEach]
        split_ifs with hseen
        · exact hshift (fun hmem => key_notMem_of_mem_firstOfEach hmem hseen) (ih seen)
        · have hx : x ∉ firstOfEach id (id x :: seen) (xs.filter p) := fun hmem =>
            key_notMem_of_mem_firstOfEach hmem List.mem_cons_self
          refine List.pairwise_cons.2 ⟨fun b hb => ?_, hshift hx (ih _)⟩
          rw [List.idxOf_cons_self, List.idxOf_cons_ne _ (ne_of_mem_of_not_mem hb hx).symm]
          exact Nat.succ_pos _
      · exact hshift (fun hmem => hp (List.mem_filter.1 (mem_of_mem_firstOfEach hmem)).2) (ih seen)

/-- What has been seen counts as a set. -/
theorem firstOfEach_congr {α κ : Type} [DecidableEq κ] {key : α → κ} {seen seen' : List κ}
    (h : ∀ k, k ∈ seen ↔ k ∈ seen') (xs : List α) :
    firstOfEach key seen xs = firstOfEach key seen' xs := by
  induction xs generalizing seen seen' with
  | nil => rfl
  | cons x xs ih =>
      have hcons : ∀ k, k ∈ key x :: seen ↔ k ∈ key x :: seen' := fun k => by
        rw [List.mem_cons, List.mem_cons, h]
      rw [firstOfEach, firstOfEach, ih h, ih hcons]
      exact if_congr (h _) rfl rfl

/-- **Elements that are added behind others unless their key is there** are the first of each new
key. -/
theorem foldl_eq_append_firstOfEach {α κ : Type} [DecidableEq κ] {key : α → κ}
    {add : List α → α → List α}
    (hadd : ∀ xs x, add xs x = if key x ∈ xs.map key then xs else xs ++ [x]) (xs ys : List α) :
    xs.foldl add ys = ys ++ firstOfEach key (ys.map key) xs := by
  induction xs generalizing ys with
  | nil => exact (List.append_nil ys).symm
  | cons x xs ih =>
      rw [List.foldl_cons, hadd, firstOfEach]
      split
      · exact ih ys
      · have hseen : ∀ k, k ∈ (ys ++ [x]).map key ↔ k ∈ key x :: ys.map key := fun k => by
          rw [List.map_append, List.map_singleton, List.mem_append, List.mem_singleton,
            List.mem_cons, or_comm]
        rw [ih, firstOfEach_congr hseen, List.append_assoc, List.singleton_append]

/-- To place an element is to add it. -/
theorem placeLast_perm (less : α → α → Bool) (x : α) (ys : List α) :
    (placeLast less x ys).Perm (x :: ys) := by
  induction ys with
  | nil => exact .refl _
  | cons y ys ih =>
      rw [placeLast]
      split
      · exact (ih.cons y).trans (.swap x y ys)
      · exact .refl _

/-- To place all elements is to add them. -/
theorem foldl_placeLast_perm (less : α → α → Bool) (xs ys : List α) :
    (xs.foldl (fun sorted x => placeLast less x sorted) ys).Perm (xs ++ ys) := by
  induction xs generalizing ys with
  | nil => exact .refl _
  | cons x xs ih =>
      calc (xs.foldl (fun sorted x => placeLast less x sorted) (placeLast less x ys)).Perm
            (xs ++ placeLast less x ys) := ih _
        _ |>.Perm (xs ++ x :: ys) := (placeLast_perm less x ys).append_left xs
        _ |>.Perm (x :: xs ++ ys) := List.perm_middle

/-- Sorting rearranges a list. -/
theorem stableSort_perm (less : α → α → Bool) (xs : List α) : (stableSort less xs).Perm xs := by
  have hfoldl := foldl_placeLast_perm less xs []
  rw [List.append_nil] at hfoldl
  exact (List.reverse_perm _).trans hfoldl

/-- Sorting neither adds nor takes away. -/
theorem mem_stableSort : x ∈ stableSort less xs ↔ x ∈ xs := (stableSort_perm less xs).mem_iff

/-- The test decides an order between some elements; of the others nothing is known but what the
test says. -/
structure Sorts (less : α → α → Bool) (good : α → Prop) (le : α → α → Prop) : Prop where
  le_of_less : ∀ {x y}, less x y = true → le x y
  le_of_not_less : ∀ {x y}, good x → good y → less x y = false → le y x
  le_trans : ∀ {x y z}, le x y → le y z → le x z

namespace Sorts

/-- Ends of a list that consist of good elements are in order, last first. -/
def OrdersEnds (good : α → Prop) (le : α → α → Prop) (xs : List α) : Prop :=
  ∀ ys, ys <:+ xs → (∀ y ∈ ys, good y) → ys.Pairwise fun a b => le b a

/-- Placing an element keeps ends in order. -/
theorem ordersEnds_placeLast (h : Sorts less good le) (x : α) (hys : OrdersEnds good le ys) :
    OrdersEnds good le (placeLast less x ys) := by
  induction ys with
  | nil =>
      rintro zs hzs -
      rcases List.suffix_cons_iff.1 hzs with rfl | hzs
      · exact List.pairwise_singleton _ x
      · rw [List.suffix_nil.1 hzs]
        exact .nil
  | cons y ys ih =>
      have hplaced := ih fun zs hzs => hys zs (hzs.trans (List.suffix_cons y ys))
      rw [placeLast]
      split
      · rename_i hless
        intro zs hzs hgood
        rcases List.suffix_cons_iff.1 hzs with rfl | hzs
        · rw [List.forall_mem_cons] at hgood
          have hmem : ∀ z, z ∈ placeLast less x ys ↔ z = x ∨ z ∈ ys := fun z =>
            (placeLast_perm less x ys).mem_iff.trans List.mem_cons
          have hold := hys (y :: ys) (List.suffix_refl _) <| List.forall_mem_cons.2
            ⟨hgood.1, fun z hz => hgood.2 z ((hmem z).2 (.inr hz))⟩
          refine List.pairwise_cons.2 ⟨fun z hz => ?_, hplaced _ (List.suffix_refl _) hgood.2⟩
          rcases (hmem z).1 hz with rfl | hz
          · exact h.le_of_less hless
          · exact List.rel_of_pairwise_cons hold hz
        · exact hplaced zs hzs hgood
      · rename_i hless
        intro zs hzs hgood
        rcases List.suffix_cons_iff.1 hzs with rfl | hzs
        · rw [List.forall_mem_cons] at hgood
          have hold := hys (y :: ys) (List.suffix_refl _) hgood.2
          have hyx : le y x := h.le_of_not_less hgood.1 (hgood.2 y List.mem_cons_self)
            (Bool.eq_false_iff.2 hless)
          refine List.pairwise_cons.2 ⟨fun z hz => ?_, hold⟩
          rcases List.mem_cons.1 hz with rfl | hz
          · exact hyx
          · exact h.le_trans (List.rel_of_pairwise_cons hold hz) hyx
        · exact hys zs hzs hgood

/-- Placing elements leaves the ends in order. -/
theorem ordersEnds_foldl (h : Sorts less good le) (xs : List α) (hys : OrdersEnds good le ys) :
    OrdersEnds good le (xs.foldl (fun sorted x => placeLast less x sorted) ys) := by
  induction xs generalizing ys with
  | nil => exact hys
  | cons x xs ih => exact ih (h.ordersEnds_placeLast x hys)

/-- **A beginning of a sorted list is in order**, if the test orders its elements. -/
theorem pairwise_of_prefix (h : Sorts less good le) (hys : ys <+: stableSort less xs)
    (hgood : ∀ y ∈ ys, good y) : ys.Pairwise le := by
  have hnil : OrdersEnds good le ([] : List α) := by
    rintro zs hzs -
    rw [List.suffix_nil.1 hzs]
    exact .nil
  rw [stableSort, ← List.reverse_suffix, List.reverse_reverse] at hys
  have hends := h.ordersEnds_foldl xs hnil ys.reverse hys fun y hy =>
    hgood y (List.mem_reverse.1 hy)
  rwa [List.pairwise_reverse] at hends

end Sorts

/-! ### Stability

A list is put in order stably if elements that are in order already keep their order, ties included.
`StablyOrdered le xs ys` says this of whole parts: every part of `xs` that is in order is a part of
`ys`. Leaving elements out and mapping them respects it, and if the test of a sort decides the order
between all elements, there is exactly one such list, the one that sorting gives.

Main results:

* `Decides.stablyOrdered_stableSort`: sorting is stable.
* `Decides.stablyOrdered_iff`: nothing else is.
-/

variable {β : Type} {y : α} {xs ys zs us : List α}

/-- `ys` consists of the elements of `xs` in order, and what is in order in `xs` stays as it is. -/
structure StablyOrdered (le : α → α → Prop) (xs ys : List α) : Prop where
  perm : ys.Perm xs
  ordered : ys.Pairwise le
  stable : ∀ zs : List α, zs.Sublist xs → zs.Pairwise le → zs.Sublist ys

/-- A part of a list whose elements all stay is a part of what is left. -/
theorem sublist_filter {p : α → Bool} (hzs : zs.Sublist ys) (hp : ∀ z ∈ zs, p z = true) :
    zs.Sublist (ys.filter p) :=
  List.filter_eq_self.2 hp ▸ hzs.filter p

namespace StablyOrdered

/-- What is left of a stably ordered list is stably ordered. -/
theorem filter (h : StablyOrdered le xs ys) (p : α → Bool) :
    StablyOrdered le (xs.filter p) (ys.filter p) where
  perm := h.perm.filter p
  ordered := h.ordered.filter p
  stable zs hzs hle := sublist_filter (h.stable zs (hzs.trans List.filter_sublist) hle)
    fun _ hz => (List.mem_filter.1 (hzs.subset hz)).2

/-- The images of stably ordered elements are stably ordered. -/
theorem map {le : β → β → Prop} {f : α → β} (h : StablyOrdered (fun a b => le (f a) (f b)) xs ys) :
    StablyOrdered le (xs.map f) (ys.map f) where
  perm := h.perm.map f
  ordered := List.pairwise_map.2 h.ordered
  stable zs hzs hle := by
    obtain ⟨us, hus, rfl⟩ := List.sublist_map_iff.1 hzs
    exact (h.stable us hus (List.pairwise_map.1 hle)).map f

/-- Elements that are in order both ways are the same ones before and after, in the same order. -/
theorem filter_eq (h : StablyOrdered le xs ys) {p : α → Bool}
    (hp : ∀ a ∈ xs, ∀ b ∈ xs, p a = true → p b = true → le a b) : ys.filter p = xs.filter p := by
  have hordered : (xs.filter p).Pairwise le := by
    refine List.pairwise_of_forall_mem_list fun a ha b hb => ?_
    rw [List.mem_filter] at ha hb
    exact hp a ha.1 b hb.1 ha.2 hb.2
  have hsublist : (xs.filter p).Sublist (ys.filter p) :=
    sublist_filter (h.stable _ List.filter_sublist hordered) fun _ hz => (List.mem_filter.1 hz).2
  exact (hsublist.eq_of_length (h.perm.filter p).length_eq.symm).symm

end StablyOrdered

/-! ### Sorting is stable -/

/-- An element is placed before all elements that it is not less than. -/
theorem cons_sublist_placeLast (hus : us.Sublist ys) (hx : ∀ u ∈ us, less x u = false) :
    (x :: us).Sublist (placeLast less x ys) := by
  induction hus with
  | slnil => exact .refl _
  | @cons us ys y hus ih =>
      rw [placeLast]
      split
      · exact (ih hx).cons y
      · exact (hus.cons y).cons_cons x
  | @cons_cons us ys y hus ih =>
      rw [placeLast, if_neg (Bool.eq_false_iff.1 (hx y List.mem_cons_self))]
      exact (hus.cons_cons y).cons_cons x

/-- The elements that are there keep their order when another is placed. -/
theorem sublist_placeLast (less : α → α → Bool) (x : α) (ys : List α) :
    ys.Sublist (placeLast less x ys) := by
  induction ys with
  | nil => exact List.nil_sublist _
  | cons y ys ih =>
      rw [placeLast]
      split
      · exact ih.cons_cons y
      · exact .cons x (.refl _)

/-- The test decides the order between all good elements. -/
structure Decides (less : α → α → Bool) (good : α → Prop) (le : α → α → Prop) : Prop
    extends Sorts less good le where
  not_less_of_le : ∀ {x y}, le x y → less y x = false

namespace Decides

/-- What is in order among the elements that have been placed (`us`, last first) and those that are
still to be placed (`zs`) is in order in the end. -/
theorem sublist_foldl (h : Decides less good le) (hzs : zs.Sublist xs) (hus : us.Sublist ys)
    (hle : (us.reverse ++ zs).Pairwise le) :
    (zs.reverse ++ us).Sublist (xs.foldl (fun sorted x => placeLast less x sorted) ys) := by
  induction hzs generalizing us ys with
  | slnil => exact hus
  | cons x _ ih => exact ih (hus.trans (sublist_placeLast less x ys)) hle
  | @cons_cons zs xs x _ ih =>
      have hx : ∀ u ∈ us, less x u = false := by
        intro u hu
        exact h.not_less_of_le <| (List.pairwise_append.1 hle).2.2 u (List.mem_reverse.2 hu) x
          List.mem_cons_self
      have hrest : ((x :: us).reverse ++ zs).Pairwise le := by simpa using hle
      have hplaced := ih (cons_sublist_placeLast hus hx) hrest
      rwa [List.reverse_cons, List.append_assoc, List.singleton_append]

/-- **Sorting is stable.** -/
theorem stablyOrdered_stableSort (h : Decides less good le) (hgood : ∀ x ∈ xs, good x) :
    StablyOrdered le xs (stableSort less xs) where
  perm := stableSort_perm less xs
  ordered := h.pairwise_of_prefix (List.prefix_refl _) fun x hx => hgood x (mem_stableSort.1 hx)
  stable zs hzs hle := by
    have hfoldl := h.sublist_foldl hzs (List.Sublist.refl []) hle
    rw [List.append_nil] at hfoldl
    rw [stableSort, ← List.reverse_reverse zs]
    exact hfoldl.reverse

/-! ### Stable order is unique -/

/-- Neither of the two is less than the other. -/
def ties (less : α → α → Bool) (x y : α) : Bool := !less x y && !less y x

/-- Elements tie if each is at most the other. -/
theorem ties_iff (h : Decides less good le) (hx : good x) (hy : good y) :
    ties less x y = true ↔ le x y ∧ le y x := by
  rw [ties, Bool.and_eq_true, Bool.not_eq_true', Bool.not_eq_true']
  constructor
  · rintro ⟨hxy, hyx⟩
    exact ⟨h.le_of_not_less hy hx hyx, h.le_of_not_less hx hy hxy⟩
  · rintro ⟨hxy, hyx⟩
    exact ⟨h.not_less_of_le hyx, h.not_less_of_le hxy⟩

/-- An element is at most itself. -/
theorem le_refl (h : Decides less good le) (hx : good x) : le x x := by
  cases hless : less x x with
  | true => exact h.le_of_less hless
  | false => exact h.le_of_not_less hx hx hless

/-- An element ties with itself. -/
theorem ties_self (h : Decides less good le) (hx : good x) : ties less x x = true :=
  (h.ties_iff hx hx).2 ⟨h.le_refl hx, h.le_refl hx⟩

/-- The first of a list in order comes before all others. -/
theorem le_of_mem_cons (h : Decides less good le) (hx : good x) (hle : (x :: xs).Pairwise le)
    (hy : y ∈ x :: xs) : le x y := by
  rcases List.mem_cons.1 hy with rfl | hy
  · exact h.le_refl hx
  · exact List.rel_of_pairwise_cons hle hy

/-- Lists with the same ties have the same elements. -/
theorem mem_iff_of_filter_ties (h : Decides less good le)
    (hties : ∀ a, good a → xs.filter (ties less a) = ys.filter (ties less a)) (hx : good x) :
    x ∈ xs ↔ x ∈ ys := by
  have hiff : x ∈ xs.filter (ties less x) ↔ x ∈ ys.filter (ties less x) := by rw [hties x hx]
  simpa only [List.mem_filter, h.ties_self hx, and_true] using hiff

/-- **Lists in order are equal if their ties are.** -/
theorem eq_of_filter_ties (h : Decides less good le) (hxs : xs.Pairwise le) (hys : ys.Pairwise le)
    (hgood : ∀ x ∈ xs, good x) (hgood' : ∀ y ∈ ys, good y)
    (hties : ∀ a, good a → xs.filter (ties less a) = ys.filter (ties less a)) : xs = ys := by
  induction xs generalizing ys with
  | nil =>
      cases ys with
      | nil => rfl
      | cons y ys =>
          have hy := (h.mem_iff_of_filter_ties hties (hgood' y List.mem_cons_self)).2
            List.mem_cons_self
          exact absurd hy List.not_mem_nil
  | cons x xs ih =>
      rw [List.forall_mem_cons] at hgood
      have hx := (h.mem_iff_of_filter_ties hties hgood.1).1 List.mem_cons_self
      cases ys with
      | nil => exact absurd hx List.not_mem_nil
      | cons y ys =>
          rw [List.forall_mem_cons] at hgood'
          have hy := (h.mem_iff_of_filter_ties hties hgood'.1).2 List.mem_cons_self
          have htie : ties less x y = true := (h.ties_iff hgood.1 hgood'.1).2
            ⟨h.le_of_mem_cons hgood.1 hxs hy, h.le_of_mem_cons hgood'.1 hys hx⟩
          -- The two heads tie, so each of them is the first of its ties.
          obtain rfl : x = y := by
            have hheads := hties x hgood.1
            rw [List.filter_cons_of_pos (h.ties_self hgood.1), List.filter_cons_of_pos htie]
              at hheads
            exact (List.cons.inj hheads).1
          have htails : ∀ a, good a → xs.filter (ties less a) = ys.filter (ties less a) := by
            intro a ha
            have hlists := hties a ha
            rw [List.filter_cons, List.filter_cons] at hlists
            split at hlists
            · exact (List.cons.inj hlists).2
            · exact hlists
          rw [ih hxs.of_cons hys.of_cons hgood.2 hgood'.2 htails]

/-- **Exactly one list is stably ordered**: the one that sorting gives. -/
theorem stablyOrdered_iff (h : Decides less good le) (hgood : ∀ x ∈ xs, good x) :
    StablyOrdered le xs ys ↔ ys = stableSort less xs := by
  constructor
  · intro hys
    have hsorted := h.stablyOrdered_stableSort hgood
    have hmutual : ∀ a, good a → ∀ b ∈ xs, ∀ c ∈ xs, ties less a b = true → ties less a c = true →
        le b c := by
      intro a ha b hb c hc hab hac
      exact h.le_trans ((h.ties_iff ha (hgood b hb)).1 hab).2 ((h.ties_iff ha (hgood c hc)).1 hac).1
    refine h.eq_of_filter_ties hys.ordered hsorted.ordered
      (fun y hy => hgood y (hys.perm.mem_iff.1 hy))
      (fun y hy => hgood y (hsorted.perm.mem_iff.1 hy)) fun a ha => ?_
    rw [hys.filter_eq (hmutual a ha), hsorted.filter_eq (hmutual a ha)]
  · rintro rfl
    exact h.stablyOrdered_stableSort hgood

end Decides

end Archivist
