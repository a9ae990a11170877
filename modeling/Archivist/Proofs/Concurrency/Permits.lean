import Archivist.Proofs.Concurrency.Gate
import Archivist.Proofs.Concurrency.Perform

/-!
# Lanes and Their Permits

Lanes that need a permit and have a limited time share a gate. `World.Admits` says that the gate
counts them: those under way hold the permits, those in line are the ones that wait. Every step of a
lane keeps to it, and so does dropping one, so never more lanes are under way than there are
permits.

Nor do lanes get stuck. A lane under way can go on at the latest when its time is up, and then gives
back its permit, and nobody waits for a permit that nobody holds. So lanes come to their ends in
whatever order they take turns, and whatever the collaborators and the cache do to them
(`World.Admits.concludes`).
-/

namespace Archivist

namespace Lane

variable {α : Type}

/-- The lane holds a permit, if it needs one. -/
def isUnderWay : Lane α → Bool
  | .running .. | .calling .. | .looking .. => true
  | .ready .. | .queued .. | .ended _ => false

/-- The lane waits for its permit. -/
def isQueued : Lane α → Bool
  | .queued .. => true
  | .ready .. | .running .. | .calling .. | .looking .. | .ended _ => false

/-- The lane needs a permit, and its time is limited. -/
def IsBounded : Lane α → Prop
  | .ready gated allowance _ => gated = true ∧ allowance.isSome = true
  | .queued allowance _ => allowance.isSome = true
  | .running gated deadline _ | .calling gated deadline _ _ _ _
  | .looking gated deadline _ _ _ _ => gated = true ∧ deadline.isSome = true
  | .ended _ => True

/-- One lane changes; the others are under way as before. -/
theorem countP_isUnderWay_set {ls : List (Lane α)} {i : ℕ} (hi : i < ls.length) (l : Lane α) :
    (ls.set i l).countP isUnderWay + ls[i].isUnderWay.toNat =
      ls.countP isUnderWay + l.isUnderWay.toNat := by
  have hpos : ls[i].isUnderWay = true → 0 < ls.countP isUnderWay := fun h =>
    List.countP_pos_iff.2 ⟨_, List.getElem_mem hi, h⟩
  rw [List.countP_set hi]
  cases hold : ls[i].isUnderWay with
  | false => cases l.isUnderWay <;> simp
  | true =>
      have := hpos hold
      cases l.isUnderWay <;> simp <;> omega

end Lane

namespace World

variable {env : Environment} {α : Type} {w w' : World env} {ls : List (Lane α)} {l l' : Lane α}
  {i total : ℕ}

/-- A gate with `total` permits counts lanes: those under way hold permits, those in line wait. -/
structure Admits (w : World env) (total : ℕ) (ls : List (Lane α)) : Prop where
  bounded : ∀ l ∈ ls, l.IsBounded
  serves : w.permits.Serves total (ls.countP Lane.isUnderWay) fun i =>
    ∃ l, ls[i]? = some l ∧ l.isQueued = true

namespace Admits

/-- Never more lanes are under way than there are permits. -/
theorem countP_le (h : w.Admits total ls) : ls.countP Lane.isUnderWay ≤ total := h.serves.held_le

theorem congr (h : w.Admits total ls) (hp : w'.permits = w.permits) : w'.Admits total ls :=
  ⟨h.bounded, hp ▸ h.serves⟩

/-- Lanes that have not begun or have ended already join the others. -/
theorem append (h : w.Admits total ls) {more : List (Lane α)} (hb : ∀ l ∈ more, l.IsBounded)
    (hway : ∀ l ∈ more, l.isUnderWay = false) (hq : ∀ l ∈ more, l.isQueued = false) :
    w.Admits total (ls ++ more) := by
  refine ⟨fun l hl => (List.mem_append.1 hl).elim (h.bounded l) (hb l), h.serves.congr ?_ ?_⟩
  · have hzero : more.countP Lane.isUnderWay = 0 := by
      rw [List.countP_eq_zero]
      exact fun l hl => Bool.eq_false_iff.1 (hway l hl)
    rw [List.countP_append, hzero, Nat.add_zero]
  · intro j
    by_cases hj : j < ls.length
    · rw [List.getElem?_append_left hj]
    · rw [List.getElem?_append_right (Nat.le_of_not_lt hj),
        List.getElem?_eq_none (Nat.le_of_not_lt hj)]
      refine iff_of_false (fun ⟨l, hl, _⟩ => nomatch hl) fun ⟨l, hl, hqueued⟩ => ?_
      rw [hq l (List.mem_of_getElem? hl)] at hqueued
      cases hqueued

/-- One lane changes, and the gate with it. -/
theorem set (h : w.Admits total ls) (hl : ls[i]? = some l) (hb : l'.IsBounded) {held : ℕ}
    {line : ℕ → Prop} (hs : w'.permits.Serves total held line)
    (hheld : held + l.isUnderWay.toNat = ls.countP Lane.isUnderWay + l'.isUnderWay.toNat)
    (hline : ∀ j, line j ↔ if j = i then l'.isQueued = true
      else ∃ l, ls[j]? = some l ∧ l.isQueued = true) : w'.Admits total (ls.set i l') := by
  obtain ⟨hlt, rfl⟩ := List.getElem?_eq_some_iff.1 hl
  refine ⟨fun l hmem => ?_, hs.congr ?_ fun j => (hline j).trans ?_⟩
  · rcases List.mem_or_eq_of_mem_set hmem with hmem | rfl
    · exact h.bounded l hmem
    · exact hb
  · have hcount := Lane.countP_isUnderWay_set hlt l'
    omega
  · split
    · rename_i hj
      subst hj
      simp [List.getElem?_set_self hlt]
    · rename_i hj
      rw [List.getElem?_set_ne (Ne.symm hj)]

/-- Who is in line when one lane has gone on. -/
theorem line_iff (hl : ls[i]? = some l) (hq : l'.isQueued = l.isQueued) (j : ℕ) :
    (∃ l, ls[j]? = some l ∧ l.isQueued = true) ↔ if j = i then l'.isQueued = true
      else ∃ l, ls[j]? = some l ∧ l.isQueued = true := by
  split
  · rename_i hj
    rw [hj, hl, hq]
    simp
  · exact Iff.rfl

/-- A step that does not concern the gate. -/
theorem keep (h : w.Admits total ls) (hl : ls[i]? = some l) (hb : l'.IsBounded)
    (hway : l'.isUnderWay = l.isUnderWay) (hq : l'.isQueued = l.isQueued)
    (hp : w'.permits = w.permits) : w'.Admits total (ls.set i l') :=
  h.set hl hb (hp ▸ h.serves) (by rw [hway]) (line_iff hl hq)

/-- A lane has got its permit. -/
theorem takePermit (h : w.Admits total ls) (hl : ls[i]? = some l) (hb : l'.IsBounded)
    (hway : l.isUnderWay = false) (hway' : l'.isUnderWay = true) {line : ℕ → Prop}
    (hs : w'.permits.Serves total (ls.countP Lane.isUnderWay + 1) line)
    (hline : ∀ j, line j ↔ (∃ l, ls[j]? = some l ∧ l.isQueued = true) ∧ j ≠ i) :
    w'.Admits total (ls.set i l') := by
  have hqueued : l'.isQueued = false := by
    cases l' <;> first | rfl | cases hway'
  refine h.set hl hb hs (by rw [hway, hway']; rfl) fun j => (hline j).trans ?_
  split
  · rename_i hj
    exact iff_of_false (fun hne => hne.2 hj) (by rw [hqueued]; nofun)
  · rename_i hj
    exact and_iff_left hj

/-- A lane under way ends, and gives back its permit. -/
theorem giveBack (h : w.Admits total ls) (hl : ls[i]? = some l) (hway : l.isUnderWay = true)
    (hp : w'.permits = w.permits) (e : Ending α) :
    (w'.giveBack true).Admits total (ls.set i (.ended e)) := by
  obtain ⟨held, hheld⟩ : ∃ held, ls.countP Lane.isUnderWay = held + 1 :=
    Nat.exists_eq_add_one.2 (List.countP_pos_iff.2 ⟨l, List.mem_of_getElem? hl, hway⟩)
  have hqueued : l.isQueued = false := by
    cases l <;> first | rfl | cases hway
  have hs := h.serves
  rw [hheld, ← hp] at hs
  exact h.set hl trivial hs.release (by rw [hheld, hway]; rfl) (line_iff hl hqueued.symm)

/-- A lane in line is dropped, and leaves the line. -/
theorem leave (h : w.Admits total ls) (hl : ls[i]? = some l) (hq : l.isQueued = true)
    (e : Ending α) :
    World.Admits { w with permits := w.permits.leave i } total (ls.set i (.ended e)) := by
  have hway : l.isUnderWay = false := by
    cases l <;> first | rfl | cases hq
  refine h.set hl trivial (h.serves.leave ⟨l, hl, hq⟩) (by rw [hway]; rfl) fun j => ?_
  split
  · rename_i hj
    exact iff_of_false (fun hne => hne.2 hj) nofun
  · rename_i hj
    exact and_iff_left hj

/-- A lane under way goes on with an answer, or ends without one. -/
theorem resume {q : Ask} {deadline : Option ℕ} {next : Reply q → Program Reply (Except Failure α)}
    (h : w.Admits total ls) (hl : ls[i]? = some l) (hway : l.isUnderWay = true)
    (hd : deadline.isSome = true) (hp : w'.permits = w.permits) (answer : Option (Reply q)) :
    (w'.resume true deadline next answer).2.Admits total
      (ls.set i (w'.resume true deadline next answer).1) := by
  have hqueued : l.isQueued = false := by
    cases l <;> first | rfl | cases hway
  cases answer with
  | none => exact h.giveBack hl hway hp .crashed
  | some r => exact h.keep hl ⟨rfl, hd⟩ hway.symm hqueued.symm hp

end Admits

/-- An answer that arrives leaves the gate alone. -/
theorem Arrives.permits_eq {q : Ask} {answer : Option (ℕ × Option (Reply q))}
    {r : Option (Reply q)} (h : w.Arrives q answer r w') : w'.permits = w.permits := by
  cases h <;> rfl

/-- A step of a lookup leaves permits in order. -/
theorem Looks.admits {gated : Bool} {deadline : Option ℕ} {text : String}
    {next : Reply (.embedding text) → Program Reply (Except Failure α)} {flight : Flight}
    {answer : Option (ℕ × Option (Reply (.embedding text)))}
    (h : w.Looks i gated deadline text next flight answer l' w')
    (hl : ls[i]? = some (.looking gated deadline text next flight answer))
    (ha : w.Admits total ls) : w'.Admits total (ls.set i l') := by
  obtain ⟨rfl, hd⟩ := ha.bounded _ (List.mem_of_getElem? hl)
  cases h with
  | ask | go | settle => exact ha.keep hl ⟨rfl, hd⟩ rfl rfl rfl
  | land cell hphase r h => exact ha.keep hl ⟨rfl, hd⟩ rfl rfl h.permits_eq
  | breakDown cell hphase h =>
      refine ha.giveBack hl rfl ?_ .crashed
      exact h.permits_eq
  | late =>
      refine ha.giveBack hl rfl ?_ .late
      rfl

/-- **The gate counts the lanes on, whatever their steps are.** -/
theorem Acts.admits (h : w.Acts i l l' w') (hl : ls[i]? = some l) (ha : w.Admits total ls) :
    w'.Admits total (ls.set i l') := by
  have hb := ha.bounded l (List.mem_of_getElem? hl)
  cases h with
  | start => cases hb.1
  | enter allowance p permits h =>
      have hallowance : (allowance.map (w.now + ·)).isSome = true := by
        rw [Option.isSome_map]
        exact hb.2
      refine ha.takePermit hl ⟨rfl, hallowance⟩ rfl rfl (ha.serves.enter_true h) fun j => ?_
      -- A lane that is ready is not among those that queue.
      refine (and_iff_left_of_imp ?_).symm
      rintro ⟨l, hj, hqueued⟩ rfl
      rw [hl] at hj
      cases hj
      cases hqueued
  | queue allowance p permits h =>
      refine ha.set hl hb.2 (ha.serves.enter_false h ?_) rfl fun j => ?_
      · rintro ⟨l, hi, hqueued⟩
        rw [hl] at hi
        cases hi
        cases hqueued
      · split
        · rename_i hj
          exact iff_of_true (.inr hj) rfl
        · rename_i hj
          exact or_iff_left hj
  | pickUp allowance p permits h =>
      have hallowance : (allowance.map (w.now + ·)).isSome = true := by
        rw [Option.isSome_map]
        exact hb
      exact ha.takePermit hl ⟨rfl, hallowance⟩ rfl rfl (ha.serves.pickUp h) fun _ => Iff.rfl
  | finish gated deadline r =>
      obtain rfl := hb.1
      exact ha.giveBack hl rfl rfl (.value r)
  | giveUp gated deadline =>
      obtain rfl := hb.1
      exact ha.giveBack hl rfl rfl .crashed
  | look | ask => exact ha.keep hl hb rfl rfl rfl
  | exchange gated deadline q next hq hdelay =>
      obtain ⟨rfl, hd⟩ := hb
      refine ha.resume hl rfl hd ?_ _
      rfl
  | answered gated deadline q next due answer hdue =>
      obtain ⟨rfl, hd⟩ := hb
      exact ha.resume hl rfl hd rfl answer
  | late gated deadline q next due answer hlate =>
      obtain rfl := hb.1
      refine ha.giveBack hl rfl ?_ .late
      rfl
  | lookup gated deadline text next flight answer h => exact h.admits hl ha

/-- The gate counts the lanes on if one of them is dropped. -/
theorem Admits.abandon (h : w.Admits total ls) (hl : ls[i]? = some l) :
    (w.abandon i l).Admits total (ls.set i (.ended .late)) := by
  have hb := h.bounded l (List.mem_of_getElem? hl)
  cases l with
  | ready | ended => exact h.keep hl trivial rfl rfl rfl
  | queued => exact h.leave hl rfl .late
  | running gated | calling gated | looking gated =>
      obtain rfl := hb.1
      refine h.giveBack hl rfl ?_ .late
      rfl

/-! ### Coming to an end -/

/-- However lanes take turns, they come to their ends: until then one of them can go on once a
moment has come, and it stays so whichever goes on and when. In between, anything may happen in the
world but to the permits. -/
inductive Concludes (env : Environment) : List (Lane α) → Gate → Prop where
  | rest {ls : List (Lane α)} {permits : Gate} (h : ∀ l ∈ ls, ∃ e, l = .ended e) :
      Concludes env ls permits
  | go {ls : List (Lane α)} {permits : Gate} (moment : ℕ)
      (hcan : ∀ w : World env, w.permits = permits → moment ≤ w.now →
        ∃ i l, ls[i]? = some l ∧ w.act i l ≠ none)
      (hall : ∀ (w w' : World env) (i : ℕ) (l l' : Lane α), w.permits = permits →
        ls[i]? = some l → w.act i l = some (l', w') → Concludes env (ls.set i l') w'.permits) :
      Concludes env ls permits

/-- A lane that looks up an embedding can go on when its time is up. -/
theorem act_looking_ne_none (w : World env) (i : ℕ) (gated : Bool) {deadline : Option ℕ}
    (text : String) (next : Reply (.embedding text) → Program Reply (Except Failure α))
    (flight : Flight) (answer : Option (ℕ × Option (Reply (.embedding text))))
    (h : w.isLate deadline = true) :
    w.act i (.looking gated deadline text next flight answer) ≠ none := by
  simp only [act, actLookup]
  split
  · split <;> exact Option.some_ne_none _
  · rw [if_pos h]
    split <;> exact Option.some_ne_none _
  · split
    · exact Option.some_ne_none _
    · exact Option.some_ne_none _
    · rw [if_pos h]
      exact Option.some_ne_none _

/-- A lane under way with limited time can go on at the latest when its time is up. -/
theorem exists_moment (env : Environment) (hb : l.IsBounded) (hway : l.isUnderWay = true) :
    ∃ moment, ∀ (w : World env) (i : ℕ), moment ≤ w.now → w.act i l ≠ none := by
  cases l with
  | ready | queued | ended => cases hway
  | running gated deadline p => exact ⟨0, fun w i _ => w.act_running_ne_none i gated deadline p⟩
  | calling gated deadline q next due answer =>
      exact ⟨_, fun w i hnow => w.act_calling_ne_none i gated next answer hnow⟩
  | looking gated deadline text next flight answer =>
      obtain ⟨moment, rfl⟩ := Option.isSome_iff_exists.1 hb.2
      exact ⟨moment, fun w i hnow => w.act_looking_ne_none i gated text next flight answer
        (decide_eq_true hnow)⟩

namespace Admits

/-- If nobody holds a permit, a lane that has not ended starts, or one in line has been given
one. -/
theorem exists_act_of_idle (h : w.Admits total ls) (htotal : 0 < total)
    (hidle : ∀ l ∈ ls, l.isUnderWay = false) (hl : l ∈ ls) (hne : ∀ e, l ≠ .ended e)
    (hp : w'.permits = w.permits) : ∃ i l, ls[i]? = some l ∧ w'.act i l ≠ none := by
  obtain ⟨i, hi⟩ := List.mem_iff_getElem?.1 hl
  have hpick : ∀ j allowance (p : Program Reply (Except Failure α)),
      w.permits.pickUp j ≠ none → w'.act j (.queued allowance p) ≠ none := by
    intro j allowance p hpick
    rw [act, hp, Ne, Option.map_eq_none_iff]
    exact hpick
  cases l with
  | ready gated allowance p =>
      refine ⟨i, _, hi, ?_⟩
      cases gated <;> exact Option.some_ne_none _
  | queued allowance p =>
      by_cases hgranted : w.permits.pickUp i = none
      · rcases h.serves.busy htotal ⟨_, hi, rfl⟩ hgranted with
          hheld | ⟨j, ⟨l, hj, hqueued⟩, hgranted⟩
        · obtain ⟨l, hl, hway⟩ := List.countP_pos_iff.1 hheld
          rw [hidle l hl] at hway
          cases hway
        · cases l with
          | queued allowance p => exact ⟨j, _, hj, hpick j allowance p hgranted⟩
          | ready | running | calling | looking | ended => cases hqueued
      · exact ⟨i, _, hi, hpick i allowance p hgranted⟩
  | running | calling | looking => cases hidle _ hl
  | ended e => exact absurd rfl (hne e)

/-- Lanes do not get stuck: as long as one has not ended, one can go on once a moment has come. -/
theorem exists_act (h : w.Admits total ls) (htotal : 0 < total) (hl : l ∈ ls)
    (hne : ∀ e, l ≠ .ended e) : ∃ moment, ∀ w' : World env, w'.permits = w.permits →
      moment ≤ w'.now → ∃ i l, ls[i]? = some l ∧ w'.act i l ≠ none := by
  by_cases hway : ∃ l ∈ ls, l.isUnderWay = true
  · obtain ⟨l, hl, hway⟩ := hway
    obtain ⟨i, hi⟩ := List.mem_iff_getElem?.1 hl
    obtain ⟨moment, hact⟩ := exists_moment env (h.bounded l hl) hway
    exact ⟨moment, fun w' _ hnow => ⟨i, l, hi, hact w' i hnow⟩⟩
  · have hidle : ∀ l ∈ ls, l.isUnderWay = false := fun l hl =>
      Bool.eq_false_iff.2 fun hl' => hway ⟨l, hl, hl'⟩
    exact ⟨0, fun w' hp _ => h.exists_act_of_idle htotal hidle hl hne hp⟩

/-- **Lanes with limited time come to their ends**, in whatever order they take turns. -/
theorem concludes (h : w.Admits total ls) (htotal : 0 < total) :
    Concludes env ls w.permits := by
  induction LanesLt.acc ls generalizing w with
  | intro ls _ ih =>
      by_cases hleft : ∃ l ∈ ls, ∀ e, l ≠ .ended e
      · obtain ⟨l, hl, hne⟩ := hleft
        obtain ⟨moment, hcan⟩ := h.exists_act htotal hl hne
        refine .go moment hcan fun w₁ w₂ i l l' hp hl ha => ?_
        exact ih _ (LanesLt.set hl (act_lt ha)) ((acts_of_act ha).admits hl (h.congr hp))
      · exact .rest fun l hl => by_contra fun hne => hleft ⟨l, hl, fun e he => hne ⟨e, he⟩⟩

end Admits

/-! ### Runs without a limit -/

end World

/-- A lane that has asked for an embedding waits for the answer. -/
def Lane.AwaitsAnswer {α : Type} : Lane α → Prop
  | .looking _ _ _ _ flight answer => answer.isSome = true → ∃ cell, flight.phase = .asking cell
  | .ready .. | .queued .. | .running .. | .calling .. | .ended _ => True

namespace World

variable {env : Environment} {α : Type} {w w' : World env} {ls : List (Lane α)} {l l' : Lane α}
  {i total : ℕ}

/-- A lane that goes on with an answer waits for nothing but answers. -/
theorem awaitsAnswer_resume (w : World env) {q : Ask} (gated : Bool) (deadline : Option ℕ)
    (next : Reply q → Program Reply (Except Failure α)) (answer : Option (Reply q)) :
    (w.resume gated deadline next answer).1.AwaitsAnswer := by
  cases answer <;> trivial

/-- A lane that waits for nothing but answers goes on so. -/
theorem Acts.awaitsAnswer (h : w.Acts i l l' w') (hl : l.AwaitsAnswer) : l'.AwaitsAnswer := by
  cases h with
  | start | enter | queue | pickUp | finish | giveUp | ask | late => trivial
  | look => exact nofun
  | exchange | answered => exact awaitsAnswer_resume _ _ _ _ _
  | lookup gated deadline text next flight answer h =>
      cases h with
      | ask cell hphase hdelay => exact fun _ => ⟨cell, hphase⟩
      | land | breakDown | settle | late => trivial
      | go answer phase cache h =>
          -- Who waits for the answer does not go on without it.
          intro hanswer
          obtain ⟨cell, hphase⟩ := hl hanswer
          rw [Flight.step, hphase] at h
          cases h

/-- A lane that waits for a moment can go on when it has come. -/
theorem act_ne_none_of_wakesAt {moment : ℕ} (i : ℕ) (hl : l.AwaitsAnswer)
    (hwakes : l.wakesAt = some moment) (hnow : moment ≤ w.now) : w.act i l ≠ none := by
  cases l with
  | ready | queued | running | ended => cases hwakes
  | calling gated deadline q next due answer =>
      cases hwakes
      exact w.act_calling_ne_none i gated next answer hnow
  | looking gated deadline text next flight answer =>
      cases answer with
      | none =>
          cases hwakes
          exact w.act_looking_ne_none i gated text next flight none (decide_eq_true hnow)
      | some answer =>
          obtain ⟨due, reply⟩ := answer
          obtain ⟨cell, hphase⟩ := hl rfl
          cases hwakes
          by_cases hdue : due ≤ w.now
          · simp only [act, actLookup, hphase, if_pos hdue]
            exact Option.some_ne_none _
          · refine w.act_looking_ne_none i gated text next flight _ ?_
            cases deadline with
            | none => exact absurd hnow hdue
            | some d => exact decide_eq_true (by rw [Option.elim_some] at hnow; omega)

/-- Of lanes that rest, and not for a limit, none waits for a moment: the first of these moments
would have come. -/
theorem Rests.wakesAt_eq_none (hr : Rests none ls w) (hawaits : ∀ l ∈ ls, l.AwaitsAnswer) :
    ∀ l ∈ ls, l.wakesAt = none := by
  intro l hl
  cases hm : l.wakesAt with
  | none => rfl
  | some t =>
      have hmem : t ∈ ls.filterMap Lane.wakesAt := List.mem_filterMap.2 ⟨l, hl, hm⟩
      cases hmin : wakesAt ls with
      | none =>
          rw [wakesAt, List.min?_eq_none_iff] at hmin
          rw [hmin] at hmem
          cases hmem
      | some first =>
          obtain ⟨l', hl', hfirst⟩ := List.mem_filterMap.1 (List.min?_mem hmin)
          obtain ⟨i, hi⟩ := List.mem_iff_getElem?.1 hl'
          exact absurd (hr.act_eq_none i l' hi) (act_ne_none_of_wakesAt i (hawaits l' hl') hfirst
            ((hr.wakes_late first hmin).resolve_left Bool.false_ne_true))

/-- Lanes that rest, and not for a limit, have ended. -/
theorem Admits.ended_of_rests (h : w.Admits total ls) (htotal : 0 < total)
    (hawaits : ∀ l ∈ ls, l.AwaitsAnswer) (hr : Rests none ls w) :
    ∀ l ∈ ls, ∃ e, l = .ended e := by
  have hwakes := hr.wakesAt_eq_none hawaits
  have hidle : ∀ l ∈ ls, l.isUnderWay = false := by
    intro l hl
    have hb := h.bounded l hl
    have hnone := hwakes l hl
    cases l with
    | ready | queued | ended => rfl
    | running gated deadline p =>
        obtain ⟨i, hi⟩ := List.mem_iff_getElem?.1 hl
        exact absurd (hr.act_eq_none i _ hi) (act_running_ne_none w i gated deadline p)
    | calling => cases hnone
    | looking gated deadline text next flight answer =>
        cases answer with
        | none =>
            rw [show deadline = none from hnone] at hb
            cases hb.2
        | some => cases hnone
  refine fun l hl => by_contra fun hne => ?_
  obtain ⟨i, l', hi, hcan⟩ :=
    h.exists_act_of_idle htotal hidle hl (fun e he => hne ⟨e, he⟩) rfl
  exact hcan (hr.act_eq_none i l' hi)

/-- **Lanes with limited time that are run without a limit come to their ends.** -/
theorem Admits.run_ended (h : w.Admits total ls) (htotal : 0 < total)
    (hawaits : ∀ l ∈ ls, l.AwaitsAnswer) (cursor : ℕ) :
    ∀ l ∈ (w.run none cursor ls).1, ∃ e, l = .ended e := by
  obtain ⟨hadmits, hawaits⟩ := run_induct
    (I := fun ls w => w.Admits total ls ∧ ∀ l ∈ ls, l.AwaitsAnswer)
    (by
      rintro w₁ w₂ ls i l l' ⟨hadmits, hawaits⟩ hl ha
      have hacts := acts_of_act ha
      refine ⟨hacts.admits hl hadmits, fun l₀ hl₀ => ?_⟩
      rcases List.mem_or_eq_of_mem_set hl₀ with hl₀ | rfl
      · exact hawaits l₀ hl₀
      · exact hacts.awaitsAnswer (hawaits l (List.mem_of_getElem? hl)))
    (fun _ ⟨hadmits, hawaits⟩ => ⟨hadmits.congr rfl, hawaits⟩)
    none w cursor ls ⟨h, hawaits⟩
  exact hadmits.ended_of_rests htotal hawaits (run_rests none w cursor ls)

end World

end Archivist
