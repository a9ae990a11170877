import Archivist.Proofs.Concurrency.Act
import Archivist.Proofs.Program
import Mathlib.Tactic.SplitIfs

/-!
# Runs of Lanes

What one step of a lane preserves, a run of lanes preserves, if it does not mind that time passes
(`World.run_induct`); and a run ends where no lane can go on and none will before the limit
(`World.Rests`). All that is known about runs comes from these two.

`World.Asked P` relates two worlds between which only questions of `P` have been asked. Lanes ask
only what their programs ask, in whatever order they take turns (`World.join_asked`).
-/

namespace Archivist

namespace World

variable {env : Environment} {α : Type} {P : Ask → Prop} {w w' w'' : World env}

/-! ### Steps and the log -/

/-- Giving back a permit asks nothing. -/
@[simp] theorem log_giveBack (w : World env) (gated : Bool) : (w.giveBack gated).log = w.log := by
  simp only [giveBack]
  split <;> rfl

/-- Going on with an answer asks nothing. -/
@[simp] theorem log_resume (w : World env) {q : Ask} (gated : Bool) (deadline : Option ℕ)
    (next : Reply q → Program Reply (Except Failure α)) (answer : Option (Reply q)) :
    (w.resume gated deadline next answer).2.log = w.log := by
  cases answer with
  | none => exact log_giveBack w gated
  | some r => rfl

/-- Dropping a lane asks nothing. -/
@[simp] theorem log_abandon (w : World env) (me : ℕ) (l : Lane α) :
    (w.abandon me l).log = w.log := by
  cases l with
  | ready | ended | queued => rfl
  | running | calling | looking => exact log_giveBack _ _

/-- Giving back a permit takes no simulated time. -/
@[simp] theorem now_giveBack (w : World env) (gated : Bool) : (w.giveBack gated).now = w.now := by
  simp only [giveBack]
  split <;> rfl

/-- Dropping a lane takes no time. -/
@[simp] theorem now_abandon (w : World env) (me : ℕ) (l : Lane α) :
    (w.abandon me l).now = w.now := by
  cases l with
  | ready | ended | queued => rfl
  | running | calling | looking => exact now_giveBack _ _

/-- Dropping all lanes asks nothing. -/
@[simp] theorem log_abandonAll (w : World env) (i : ℕ) (ls : List (Lane α)) :
    (w.abandonAll i ls).log = w.log := by
  induction ls generalizing w i with
  | nil => rfl
  | cons l ls ih => rw [abandonAll, ih, log_abandon]

/-- Running out of time asks nothing. -/
@[simp] theorem log_runOut (w : World env) (limit : Option ℕ) : (w.runOut limit).log = w.log := by
  cases limit <;> rfl

/-- Only questions of `P` have been asked in between. -/
def Asked (P : Ask → Prop) (w w' : World env) : Prop :=
  ∃ xs, w'.log = w.log ++ xs ∧ ∀ x ∈ xs, P x.question

/-- Where nothing has been asked, nothing else has. -/
theorem Asked.of_log_eq (h : w'.log = w.log) : w.Asked P w' := ⟨[], by simp [h], by simp⟩

theorem Asked.trans (h : w.Asked P w') (h' : w'.Asked P w'') : w.Asked P w'' := by
  obtain ⟨xs, hlog, hxs⟩ := h
  obtain ⟨ys, hlog', hys⟩ := h'
  refine ⟨xs ++ ys, by rw [hlog', hlog, List.append_assoc], fun x hx => ?_⟩
  rcases List.mem_append.1 hx with hx | hx
  · exact hxs x hx
  · exact hys x hx

/-- A question of this kind is asked. -/
theorem asked_respond (w : World env) {q : Ask} (h : P q) : w.Asked P (w.respond q).2 :=
  ⟨[⟨q, (w.respond q).1⟩], rfl, by simpa using h⟩

end World

/-- The program of a lane, as far as it remains, asks only questions of `P`. -/
def Lane.Asks {α : Type} (P : Ask → Prop) : Lane α → Prop
  | .ready _ _ p | .queued _ p | .running _ _ p => p.Asks P
  | .calling _ _ q next _ _ => ∀ r : Reply q, (next r).Asks P
  | .looking _ _ text next _ _ => P (.embedding text) ∧ ∀ r, (next r).Asks P
  | .ended _ => True

namespace World

variable {env : Environment} {α : Type} {P : Ask → Prop} {w w' : World env}

/-- A lane that goes on with an answer asks what its program asks. -/
theorem asks_resume (w : World env) {q : Ask} (gated : Bool) (deadline : Option ℕ)
    {next : Reply q → Program Reply (Except Failure α)} (answer : Option (Reply q))
    (h : ∀ r, (next r).Asks P) : (w.resume gated deadline next answer).1.Asks P := by
  cases answer with
  | none => trivial
  | some r => exact h r

/-- An answer is there without a question, or with the one that it answers. -/
theorem Arrives.asked {q : Ask} {answer : Option (ℕ × Option (Reply q))} {r : Option (Reply q)}
    (h : w.Arrives q answer r w') (hq : P q) : w.Asked P w' := by
  cases h with
  | atOnce hdelay => exact asked_respond w hq
  | due due answer hdue => exact .of_log_eq rfl

/-- A lookup asks for the embedding at most, and leaves what the lane goes on with. -/
theorem Looks.asks {me : ℕ} {gated : Bool} {deadline : Option ℕ} {text : String}
    {next : Reply (.embedding text) → Program Reply (Except Failure α)} {flight : Flight}
    {answer : Option (ℕ × Option (Reply (.embedding text)))} {l : Lane α}
    (h : w.Looks me gated deadline text next flight answer l w') (ht : P (.embedding text))
    (hnext : ∀ r, (next r).Asks P) : l.Asks P ∧ w.Asked P w' := by
  cases h with
  | ask cell hphase hdelay => exact ⟨⟨ht, hnext⟩, asked_respond w ht⟩
  | land cell hphase r h => exact ⟨hnext _, (h.asked ht).trans (.of_log_eq rfl)⟩
  | breakDown cell hphase h =>
      exact ⟨trivial, (h.asked ht).trans (.of_log_eq (log_giveBack _ _))⟩
  | go answer phase cache h => exact ⟨⟨ht, hnext⟩, .of_log_eq rfl⟩
  | settle answer result cache h => exact ⟨hnext result, .of_log_eq rfl⟩
  | late answer h => exact ⟨trivial, .of_log_eq (log_giveBack _ _)⟩

/-- **A step of a lane asks what its program asks**, and leaves a program that does. -/
theorem Acts.asks {me : ℕ} {l l' : Lane α} (h : w.Acts me l l' w') (hl : l.Asks P) :
    l'.Asks P ∧ w.Asked P w' := by
  cases h with
  | start => exact ⟨hl, .of_log_eq rfl⟩
  | enter => exact ⟨hl, .of_log_eq rfl⟩
  | queue => exact ⟨hl, .of_log_eq rfl⟩
  | pickUp => exact ⟨hl, .of_log_eq rfl⟩
  | finish => exact ⟨trivial, .of_log_eq (log_giveBack _ _)⟩
  | giveUp => exact ⟨trivial, .of_log_eq (log_giveBack _ _)⟩
  | look => exact ⟨hl, .of_log_eq rfl⟩
  | ask gated deadline q next => exact ⟨hl.2, asked_respond w hl.1⟩
  | exchange gated deadline q next =>
      have hresume := Asked.of_log_eq (P := P) (log_resume (w.respond q).2 gated deadline next
        (w.respond q).1.outcome)
      exact ⟨asks_resume _ _ _ _ hl.2, (asked_respond w hl.1).trans hresume⟩
  | answered => exact ⟨asks_resume _ _ _ _ hl, .of_log_eq (log_resume _ _ _ _ _)⟩
  | late => exact ⟨trivial, .of_log_eq (log_giveBack _ _)⟩
  | lookup gated deadline text next flight answer h => exact h.asks hl.1 hl.2

/-! ### Runs -/

/-- What a turn of the lanes is: a step of one of them. -/
theorem exists_act_of_turn {cursor j : ℕ} {ls ls' : List (Lane α)}
    (h : w.turn cursor ls = some (j, ls', w')) :
    ∃ (i : ℕ) (l l' : Lane α), ls[i]? = some l ∧ w.act i l = some (l', w') ∧ ls' = ls.set i l' := by
  obtain ⟨i, -, hi⟩ := List.exists_of_findSome?_eq_some h
  simp only [actAt] at hi
  split at hi
  · cases hi
  · rename_i l hl
    obtain ⟨⟨l', w''⟩, ha, heq⟩ := Option.map_eq_some_iff.1 hi
    cases heq
    exact ⟨_, l, l', hl, ha, rfl⟩

/-- If it is nobody's turn, no lane can go on. -/
theorem act_eq_none_of_turn {cursor i : ℕ} {ls : List (Lane α)} {l : Lane α}
    (h : w.turn cursor ls = none) (hl : ls[i]? = some l) : w.act i l = none := by
  have hi : i ∈ turnOrder ls.length cursor := by
    have hlt : i ∈ List.range ls.length := by
      rw [List.mem_range]
      exact (List.getElem?_eq_some_iff.1 hl).1
    rw [← List.take_append_drop cursor (List.range ls.length), List.mem_append] at hlt
    exact List.mem_append.2 hlt.symm
  have hnone := List.findSome?_eq_none_iff.1 h i hi
  rwa [actAt, hl, Option.map_eq_none_iff] at hnone

/-- **What every step preserves, a run preserves**, if it holds on as time passes. -/
theorem run_induct {I : List (Lane α) → World env → Prop}
    (hact : ∀ {w w' : World env} {ls i l l'}, I ls w → ls[i]? = some l →
      w.act i l = some (l', w') → I (ls.set i l') w')
    (hwait : ∀ {w : World env} {ls} (t : ℕ), I ls w → I ls { w with now := max w.now t })
    (limit : Option ℕ) (w : World env) (cursor : ℕ) (ls : List (Lane α)) (h : I ls w) :
    I (w.run limit cursor ls).1 (w.run limit cursor ls).2 := by
  have hturn : ∀ {w w' : World env} {cursor j ls ls'}, I ls w →
      w.turn cursor ls = some (j, ls', w') → I ls' w' := by
    intro w w' cursor j ls ls' h ht
    obtain ⟨i, l, l', hl, ha, rfl⟩ := exists_act_of_turn ht
    exact hact h hl ha
  fun_induction run limit w cursor ls with
  | case1 w cursor ls i ls' w' ht ih => exact ih (hturn h ht)
  | case2 => exact h
  | case3 => exact h
  | case4 w cursor ls _ t _ _ later i ls' w' ht ih => exact ih (hturn (hwait t h) ht)
  | case5 w cursor ls _ t => exact hwait t h

/-- **What every step of a lane preserves, a run preserves of each lane**, whatever the others
do. -/
theorem run_induct_lane {P : Lane α → Prop}
    (hact : ∀ {w w' : World env} {i l l'}, w.Acts i l l' w' → P l → P l') {ls : List (Lane α)}
    {i : ℕ} {l : Lane α} (hl : ls[i]? = some l) (h : P l) (limit : Option ℕ) (w : World env)
    (cursor : ℕ) : ∃ l', (w.run limit cursor ls).1[i]? = some l' ∧ P l' := by
  refine run_induct (I := fun ls _ => ∃ l, ls[i]? = some l ∧ P l) ?_ (fun _ => id) limit w cursor ls
    ⟨l, hl, h⟩
  rintro w₁ w₂ ls j l₁ l₂ ⟨l, hl, h⟩ hl₁ ha
  by_cases hij : j = i
  · subst hij
    obtain rfl : l = l₁ := Option.some.inj (hl.symm.trans hl₁)
    have hlt := (List.getElem?_eq_some_iff.1 hl).1
    exact ⟨l₂, by rw [List.getElem?_set_self hlt], hact (acts_of_act ha) h⟩
  · exact ⟨l, by rwa [List.getElem?_set_ne hij], h⟩

/-- No lane can go on, and none will before the limit. -/
structure Rests (limit : Option ℕ) (ls : List (Lane α)) (w : World env) : Prop where
  act_eq_none : ∀ i l, ls[i]? = some l → w.act i l = none
  wakes_late : ∀ t, wakesAt ls = some t → limit.any (· < t) = true ∨ t ≤ w.now

/-- A run ends at rest. -/
theorem run_rests (limit : Option ℕ) (w : World env) (cursor : ℕ) (ls : List (Lane α)) :
    Rests limit (w.run limit cursor ls).1 (w.run limit cursor ls).2 := by
  fun_induction run limit w cursor ls with
  | case1 w cursor ls i ls' w' ht ih => exact ih
  | case2 w cursor ls ht hw =>
      refine ⟨fun _ _ => act_eq_none_of_turn ht, fun t h => ?_⟩
      rw [hw] at h
      cases h
  | case3 w cursor ls ht t hw hlimit =>
      refine ⟨fun _ _ => act_eq_none_of_turn ht, fun t' h => ?_⟩
      rw [hw] at h
      cases h
      exact Or.inl hlimit
  | case4 w cursor ls _ t _ _ later i ls' w' ht ih => exact ih
  | case5 w cursor ls _ t hw hlimit later ht =>
      refine ⟨fun _ _ => act_eq_none_of_turn ht, fun t' h => ?_⟩
      rw [hw] at h
      cases h
      exact Or.inr (Nat.le_max_right _ _)

/-- A run keeps the number of lanes. -/
@[simp] theorem length_run (limit : Option ℕ) (w : World env) (cursor : ℕ) (ls : List (Lane α)) :
    (w.run limit cursor ls).1.length = ls.length :=
  run_induct (I := fun ls' _ => ls'.length = ls.length)
    (fun h _ _ => by rw [List.length_set, h]) (fun _ => id) limit w cursor ls rfl

/-- Lanes after some turns, or after fewer if none can go on. -/
def turns : ℕ → World env → ℕ → List (Lane α) → List (Lane α) × World env
  | 0, w, _, ls => (ls, w)
  | n + 1, w, cursor, ls =>
    match w.turn cursor ls with
    | some (i, ls', w') => turns n w' i ls'
    | none => (ls, w)

/-- Lanes that have ended are at rest. -/
theorem run_ended (limit : Option ℕ) (w : World env) (cursor : ℕ) (es : List (Ending α)) :
    w.run limit cursor (es.map .ended) = (es.map .ended, w) := by
  have hturn : w.turn cursor (es.map .ended) = none := by
    refine Option.eq_none_iff_forall_ne_some.2 fun ⟨j, ls', w'⟩ ht => ?_
    obtain ⟨i, l, l', hl, ha, -⟩ := exists_act_of_turn ht
    rw [List.getElem?_map] at hl
    obtain ⟨e, -, rfl⟩ := Option.map_eq_some_iff.1 hl
    cases ha
  have hwakes : wakesAt (es.map Lane.ended) = none := by
    rw [wakesAt, List.filterMap_map]
    simp [Function.comp_def, Lane.wakesAt]
  rw [run]
  split
  · rename_i h
    rw [hturn] at h
    cases h
  · rw [hwakes]

/-- **A run can be taken turn by turn**, if its lanes end before time has to move on. -/
theorem run_eq_turns {n : ℕ} {w : World env} {cursor : ℕ} {ls : List (Lane α)}
    {es : List (Ending α)} (limit : Option ℕ) (h : (turns n w cursor ls).1 = es.map .ended) :
    w.run limit cursor ls = turns n w cursor ls := by
  induction n generalizing w cursor ls with
  | zero =>
      obtain rfl : ls = es.map .ended := h
      exact run_ended limit w cursor es
  | succ n ih =>
      rw [turns] at h ⊢
      cases ht : w.turn cursor ls with
      | none =>
          rw [ht] at h
          obtain rfl : ls = es.map .ended := h
          exact run_ended limit w cursor es
      | some next =>
          obtain ⟨i, ls', w'⟩ := next
          rw [ht] at h
          refine Eq.trans ?_ (ih h)
          rw [run]
          split
          · rename_i h'
            rw [ht] at h'
            cases h'
            rfl
          · rename_i h'
            rw [ht] at h'
            cases h'

/-- A run asks what the programs of its lanes ask. -/
theorem run_asked (limit : Option ℕ) (w : World env) (cursor : ℕ) {ls : List (Lane α)}
    (h : ∀ l ∈ ls, l.Asks P) : w.Asked P (w.run limit cursor ls).2 := by
  refine (run_induct (I := fun ls w' => (∀ l ∈ ls, l.Asks P) ∧ w.Asked P w') ?_ ?_ limit w cursor
    ls ⟨h, .of_log_eq rfl⟩).2
  · rintro w₁ w₂ ls i l l' ⟨hls, hw⟩ hl ha
    obtain ⟨hl', hw'⟩ := (acts_of_act ha).asks (hls l (List.mem_of_getElem? hl))
    refine ⟨fun l'' hmem => ?_, hw.trans hw'⟩
    rcases List.mem_or_eq_of_mem_set hmem with hmem | rfl
    · exact hls l'' hmem
    · exact hl'
  · exact fun _ hI => hI

/-! ### Joining lanes -/

/-- If every lane has an ending, the lanes are these endings. -/
theorem eq_map_ended {ls : List (Lane α)} {endings : List (Ending α)}
    (h : ls.mapM Lane.ending? = some endings) : ls = endings.map Lane.ended := by
  induction ls generalizing endings with
  | nil =>
      cases h
      rfl
  | cons l ls ih =>
      rw [List.mapM_cons] at h
      obtain ⟨e, he, h⟩ := Option.bind_eq_some_iff.1 h
      obtain ⟨es, hes, h⟩ := Option.bind_eq_some_iff.1 h
      cases h
      cases l <;> cases he
      rw [ih hes, List.map_cons]

/-- **Lanes can be joined turn by turn**, as far as some turns bring all of them to their ends. An
equation of functions, so that it can be used for everything that a turn runs at once. -/
theorem join_eq_turns (n : ℕ) : @join env = fun α w limit (ls : List (Lane α)) =>
    match (turns n w 0 ls).1.mapM Lane.ending? with
    | some endings => (some endings, (turns n w 0 ls).2)
    | none => w.join limit ls := by
  funext α w limit ls
  split
  · rename_i endings hendings
    rw [join, run_eq_turns limit (eq_map_ended hendings)]
    simp only [hendings]
  · rfl

/-- Lanes that have all ended have endings. -/
theorem exists_mapM_ending? {ls : List (Lane α)} (h : ∀ l ∈ ls, ∃ e, l = .ended e) :
    ∃ endings, ls.mapM Lane.ending? = some endings := by
  induction ls with
  | nil => exact ⟨[], rfl⟩
  | cons l ls ih =>
      obtain ⟨e, rfl⟩ := h l List.mem_cons_self
      obtain ⟨endings, hendings⟩ := ih fun l hl => h l (List.mem_cons_of_mem _ hl)
      exact ⟨e :: endings, by rw [List.mapM_cons, hendings]; rfl⟩

/-- What becomes of lanes: all have ended, or they are dropped at the limit where they stand. -/
theorem join_cases (w : World env) (limit : Option ℕ) (ls : List (Lane α)) :
    (∃ endings, (w.run limit 0 ls).1 = endings.map Lane.ended ∧
      w.join limit ls = (some endings, (w.run limit 0 ls).2)) ∨
    ((w.run limit 0 ls).1.mapM Lane.ending? = none ∧
      w.join limit ls =
        (none, ((w.run limit 0 ls).2.runOut limit).abandonAll 0 (w.run limit 0 ls).1)) := by
  rcases hr : w.run limit 0 ls with ⟨ls', w'⟩
  simp only [join]
  rw [hr]
  dsimp only
  cases hm : ls'.mapM Lane.ending? with
  | some endings => exact Or.inl ⟨endings, eq_map_ended hm, rfl⟩
  | none => exact Or.inr ⟨rfl, rfl⟩

/-- Lanes are joined if a run brings all of them to their ends. -/
theorem join_fst (w : World env) (limit : Option ℕ) (ls : List (Lane α)) :
    (w.join limit ls).1 = (w.run limit 0 ls).1.mapM Lane.ending? := by
  rw [join]
  dsimp only
  split
  · rename_i endings hm
    exact hm.symm
  · rename_i hm
    exact hm.symm

/-- **Lanes that are run to their ends ask what their programs ask**, also if they are dropped. -/
theorem join_asked (w : World env) (limit : Option ℕ) {ls : List (Lane α)}
    (h : ∀ l ∈ ls, l.Asks P) : w.Asked P (w.join limit ls).2 := by
  have hrun := run_asked limit w 0 h
  rcases join_cases w limit ls with ⟨endings, -, hj⟩ | ⟨-, hj⟩
  · rwa [hj]
  · rw [hj]
    exact hrun.trans (.of_log_eq (by simp))

/-- Each lane has an ending of its own. -/
theorem length_of_join {limit : Option ℕ} {ls : List (Lane α)} {endings : List (Ending α)}
    (h : (w.join limit ls).1 = some endings) : endings.length = ls.length := by
  rcases join_cases w limit ls with ⟨found, hl, hj⟩ | ⟨-, hj⟩
  · rw [hj] at h
    cases h
    rw [← length_run limit w 0 ls, hl, List.length_map]
  · rw [hj] at h
    cases h

/-- Dropping all lanes takes no time. -/
@[simp] theorem now_abandonAll (w : World env) (i : ℕ) (ls : List (Lane α)) :
    (w.abandonAll i ls).now = w.now := by
  induction ls generalizing w i with
  | nil => rfl
  | cons l ls ih => rw [abandonAll, ih, now_abandon]

/-- Lanes are dropped when their time is up. -/
theorem le_now_of_join {limit : ℕ} {ls : List (Lane α)} (h : (w.join (some limit) ls).1 = none) :
    limit ≤ (w.join (some limit) ls).2.now := by
  rcases join_cases w (some limit) ls with ⟨endings, -, hj⟩ | ⟨-, hj⟩
  · rw [hj] at h
    cases h
  · rw [hj, now_abandonAll]
    exact Nat.le_max_right _ _

end World

/-! ### Trails in lanes

A lane takes its program along a trail, whatever other lanes do: what remains of the program is what
the answers lead to that the lane has had (`World.follows_run`). The answers are those of the
environment, but for embeddings: these may come from the cache, or from the lookup of another lane,
so any answer is allowed.
-/

variable {env : Environment} {α : Type} {A : Answered Reply → Prop}

/-- What the environment may answer is of `A`, and so is every embedding. -/
structure Environment.Gives (env : Environment) (A : Answered Reply → Prop) : Prop where
  outcome : ∀ q s r, (env.respond q s).1.outcome = some r → A ⟨q, r⟩
  embedding : ∀ text r, A ⟨.embedding text, r⟩

/-- Answers of `A` lead from one program to another. -/
def Program.LeadsBy (A : Answered Reply → Prop) (p p' : Program Reply (Except Failure α)) : Prop :=
  ∃ xs, (∀ x ∈ xs, A x) ∧ p.Leads xs p'

/-- One more answer leads on. -/
theorem Program.LeadsBy.next {p : Program Reply (Except Failure α)} {q : Ask}
    {next : Reply q → Program Reply (Except Failure α)} (h : p.LeadsBy A (.ask q next))
    {r : Reply q} (hr : A ⟨q, r⟩) : p.LeadsBy A (next r) := by
  obtain ⟨xs, hxs, h⟩ := h
  exact ⟨xs ++ [⟨q, r⟩], List.forall_mem_append.2 ⟨hxs, List.forall_mem_singleton.2 hr⟩, h.snoc r⟩

/-- The lane has come to where it is by answers of `A`; an answer that is under way is one too. -/
def Lane.Follows (A : Answered Reply → Prop) (p : Program Reply (Except Failure α)) :
    Lane α → Prop
  | .ready _ _ p' | .queued _ p' | .running _ _ p' => p.LeadsBy A p'
  | .calling _ _ q next _ answer => p.LeadsBy A (.ask q next) ∧ ∀ r, answer = some r → A ⟨q, r⟩
  | .looking _ _ text next _ _ => p.LeadsBy A (.ask (.embedding text) next)
  | .ended e => ∀ r, e = .value r → p.LeadsBy A (.done r)

namespace World

variable {w w' : World env} {p : Program Reply (Except Failure α)} {l l' : Lane α} {i : ℕ}

/-- A lane that goes on with an answer follows its program. -/
theorem follows_resume (w : World env) {q : Ask} (gated : Bool) (deadline : Option ℕ)
    {next : Reply q → Program Reply (Except Failure α)} {answer : Option (Reply q)}
    (hp : p.LeadsBy A (.ask q next)) (hanswer : ∀ r, answer = some r → A ⟨q, r⟩) :
    (w.resume gated deadline next answer).1.Follows A p := by
  cases answer with
  | none => exact nofun
  | some r => exact hp.next (hanswer r rfl)

/-- A step of a lane goes along the trail. -/
theorem Acts.follows (hA : env.Gives A) (h : w.Acts i l l' w') (hl : l.Follows A p) :
    l'.Follows A p := by
  cases h with
  | start | enter | queue | pickUp | look => exact hl
  | finish gated deadline r =>
      rintro r' ⟨⟩
      exact hl
  | giveUp | late => exact nofun
  | ask gated deadline q => exact ⟨hl, fun r hr => hA.outcome q w.state r hr⟩
  | exchange gated deadline q =>
      exact follows_resume _ _ _ hl fun r hr => hA.outcome q w.state r hr
  | answered => exact follows_resume _ _ _ hl.1 hl.2
  | lookup gated deadline text next flight answer h =>
      cases h with
      | ask | go => exact hl
      | land | settle => exact Program.LeadsBy.next hl (hA.embedding text _)
      | breakDown | late => exact nofun

/-- **A lane takes its program along a trail**, among others as by itself. -/
theorem follows_run (hA : env.Gives A) {ls : List (Lane α)} (hl : ls[i]? = some l)
    (hfollows : l.Follows A p) (limit : Option ℕ) (w : World env) (cursor : ℕ) :
    ∃ l', (w.run limit cursor ls).1[i]? = some l' ∧ l'.Follows A p :=
  run_induct_lane (Acts.follows hA) hl hfollows limit w cursor

end World

end Archivist
