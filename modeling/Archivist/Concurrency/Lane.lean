import Archivist.Embedding.Flight

/-!
# Programs Side by Side

Several actions run side by side, each in a lane of its own. They share the collaborators, the
embedding cache and a gate that limits how many of them run at a time. Time is simulated: a
question is put to the environment when a lane comes to it, its answer arrives after the delay
that the environment names, and only when no lane can go on does time move on, to the next moment
at which an answer is due or a lane has used up its time.

The clock on the wall, by which the embedding cache goes, stands still while lanes run. It is moved
from outside, between two runs, so no entry of the cache expires in the middle of a run.

Lanes take turns in their order. A lane keeps its turn until it has to wait; then the next lane
that can go on has its turn, after the last one the first again, and after time has moved on the
order starts anew.

`World.act` is a single step of one lane, `World.run` takes steps until nothing is left to do. It
ends because every step brings its lane nearer to its end (`World.act_lt`).
-/

namespace Archivist

/-- Milliseconds that a lane may run, counted from the moment it has its permit. -/
abbrev Allowance := Option Nat

/-- How a lane ends. -/
inductive Ending (α : Type) where
  /-- With the outcome of its action. -/
  | value (result : Except Failure α)
  /-- The action gave up, or a collaborator broke down. -/
  | crashed
  /-- The lane had used up its time. -/
  | late

/-- A lane and the action in it. -/
inductive Lane (α : Type) where
  /-- Has not started; `gated` if it needs a permit. -/
  | ready (gated : Bool) (allowance : Allowance) (p : Program Reply (Except Failure α))
  /-- Waits in line for its permit. -/
  | queued (allowance : Allowance) (p : Program Reply (Except Failure α))
  /-- Can go on. -/
  | running (gated : Bool) (deadline : Option Nat) (p : Program Reply (Except Failure α))
  /-- Waits for the answer of a collaborator, which is due at a time. -/
  | calling (gated : Bool) (deadline : Option Nat) (q : Ask)
      (next : Reply q → Program Reply (Except Failure α)) (due : Nat) (answer : Option (Reply q))
  /-- Looks up an embedding; once the provider has been asked, its answer is due at a time. -/
  | looking (gated : Bool) (deadline : Option Nat) (text : String)
      (next : Reply (.embedding text) → Program Reply (Except Failure α)) (flight : Flight)
      (answer : Option (Nat × Option (Reply (.embedding text))))
  /-- Has ended. -/
  | ended (e : Ending α)

/-- What lanes share. Running lanes moves `now` alone; `clock` is moved from outside. -/
structure World (env : Environment) where
  /-- Simulated time in milliseconds. -/
  now : Nat := 0
  /-- The clock on the wall in nanoseconds, by which the cache goes. -/
  clock : Nat := 0
  cache : Cache
  /-- Limits the gated lanes. -/
  permits : Gate
  state : env.State
  /-- Everything that has been asked, in order. -/
  log : List Exchange := []
  /-- How often something has been cut off because its time was up. -/
  timeouts : Nat := 0

namespace World

variable {env : Environment} {α : Type}

/-- Gives back the permit of a lane, if it is gated. -/
def giveBack (w : World env) (gated : Bool) : World env :=
  if gated then { w with permits := w.permits.release } else w

/-- Ends a lane, which gives back its permit. -/
def finish (w : World env) (gated : Bool) (e : Ending α) : Lane α × World env :=
  (.ended e, w.giveBack gated)

/-- Notes that something is cut off because its time is up. -/
def countTimeout (w : World env) : World env := { w with timeouts := w.timeouts + 1 }

/-- Whether a lane has used up its time. -/
def isLate (w : World env) (deadline : Option Nat) : Bool := deadline.any (decide <| · ≤ w.now)

/-- Goes on with an answer, or ends if there is none. -/
def resume (w : World env) {q : Ask} (gated : Bool) (deadline : Option Nat)
    (next : Reply q → Program Reply (Except Failure α)) :
    Option (Reply q) → Lane α × World env
  | some r => (.running gated deadline (next r), w)
  | none => w.finish gated .crashed

/-- Puts a question to the environment. -/
def respond (w : World env) (q : Ask) : Response q × World env :=
  let (response, state) := env.respond q w.state
  (response, { w with state, log := w.log ++ [⟨q, response⟩] })

/-- A step of lane number `me` that looks up an embedding. -/
def actLookup (w : World env) (me : Nat) (gated : Bool) (deadline : Option Nat) (text : String)
    (next : Reply (.embedding text) → Program Reply (Except Failure α)) (flight : Flight)
    (answer : Option (Nat × Option (Reply (.embedding text)))) : Option (Lane α × World env) :=
  let giveUp : Lane α × World env :=
    { w with cache := flight.abandon me w.cache }.countTimeout.finish gated .late
  let arrive (w : World env) (cell : Nat) (reply : Option (Reply (.embedding text))) :
      Lane α × World env :=
    match reply with
    | none => finish { w with cache := flight.abandon me w.cache } gated .crashed
    | some reply =>
      let (result, cache) := flight.land w.clock cell reply w.cache
      (.running gated deadline (next result), { w with cache })
  match flight.phase, answer with
  | .asking cell, none =>
    let (response, w) := w.respond (.embedding text)
    if response.delay = 0 then some (arrive w cell response.outcome)
    else some (.looking gated deadline text next flight
      (some (w.now + response.delay, response.outcome)), w)
  | .asking cell, some (due, reply) =>
    if due ≤ w.now then some (arrive w cell reply)
    else if w.isLate deadline then some giveUp
    else none
  | _, _ =>
    match flight.step w.clock me w.cache with
    | .go phase cache =>
      some (.looking gated deadline text next { flight with phase } answer, { w with cache })
    | .land result cache => some (.running gated deadline (next result), { w with cache })
    | .wait => if w.isLate deadline then some giveUp else none

/-- One step of lane number `me`, if it can go on now. -/
def act (w : World env) (me : Nat) : Lane α → Option (Lane α × World env)
  | .ready false allowance p => some (.running false (allowance.map (w.now + ·)) p, w)
  | .ready true allowance p =>
    let (entered, permits) := w.permits.enter me
    some (if entered then .running true (allowance.map (w.now + ·)) p else .queued allowance p,
      { w with permits })
  | .queued allowance p =>
    (w.permits.pickUp me).map fun permits =>
      (.running true (allowance.map (w.now + ·)) p, { w with permits })
  | .running gated _ (.done a) => some (w.finish gated (.value a))
  | .running gated _ .crash => some (w.finish gated .crashed)
  | .running gated deadline (.ask (.embedding text) next) =>
    some (.looking gated deadline text next (Flight.start text) none, w)
  | .running gated deadline (.ask q next) =>
    let (response, w) := w.respond q
    if response.delay = 0 then some (w.resume gated deadline next response.outcome)
    else some (.calling gated deadline q next (w.now + response.delay) response.outcome, w)
  | .calling gated deadline _ next due answer =>
    if due ≤ w.now then some (w.resume gated deadline next answer)
    else if w.isLate deadline then some (w.countTimeout.finish gated .late)
    else none
  | .looking gated deadline text next flight answer =>
    w.actLookup me gated deadline text next flight answer
  | .ended _ => none

/-- Drops a lane where it stands: it gives back what it holds and leaves the lines it is in. -/
def abandon (w : World env) (me : Nat) : Lane α → World env
  | .ready .. | .ended _ => w
  | .queued .. => { w with permits := w.permits.leave me }
  | .running gated .. | .calling gated .. => w.giveBack gated
  | .looking gated _ _ _ flight _ =>
    giveBack { w with cache := flight.abandon me w.cache } gated

end World

namespace Lane

variable {α : Type}

/-- The next moment at which a waiting lane can go on by itself. -/
def wakesAt : Lane α → Option Nat
  | .calling _ deadline _ _ due _ => some (deadline.elim due (min due))
  | .looking _ deadline _ _ _ (some (due, _)) => some (deadline.elim due (min due))
  | .looking _ deadline _ _ _ none => deadline
  | _ => none

/-- How a lane has ended. -/
def ending? : Lane α → Option (Ending α)
  | .ended e => some e
  | _ => none

/-- The program of a lane that has not ended, and how much it has to do before the next
question. -/
def rank : Lane α → Option (Program Reply (Except Failure α)) × Nat
  | .ready _ _ p => (some p, 12)
  | .queued _ p => (some p, 11)
  | .running _ _ p => (some p, 10)
  | .looking _ _ text next flight answer =>
    (some (.ask (.embedding text) next), 2 + flight.rank - if answer.isSome then 1 else 0)
  | .calling _ _ q next _ _ => (some (.ask q next), 1)
  | .ended _ => (none, 0)

/-- An ended lane comes before all others, a program before those it remains of. -/
inductive ProgramLt : Option (Program Reply (Except Failure α)) →
    Option (Program Reply (Except Failure α)) → Prop where
  | ended (p : Program Reply (Except Failure α)) : ProgramLt none (some p)
  | next {p q : Program Reply (Except Failure α)} : Program.Next p q → ProgramLt (some p) (some q)

/-- One lane is nearer to its end than another. -/
def Lt (a b : Lane α) : Prop := Prod.Lex ProgramLt (· < ·) a.rank b.rank

/-- A program has only so many steps, whatever is answered. -/
theorem acc_programLt (p : Option (Program Reply (Except Failure α))) : Acc ProgramLt p := by
  have bottom : Acc ProgramLt (none : Option (Program Reply (Except Failure α))) :=
    ⟨_, fun _ h => nomatch h⟩
  match p with
  | none => exact bottom
  | some p =>
    induction Program.acc_next p with
    | intro p _ ih =>
      refine ⟨_, fun q h => ?_⟩
      cases h with
      | ended => exact bottom
      | next h => exact ih _ h

/-- So has a lane. -/
theorem acc_lt (l : Lane α) : Acc Lt l :=
  InvImage.accessible rank
    (Prod.lexAccessible (acc_programLt _) (fun n => Nat.lt_wfRel.wf.apply n) _)

end Lane

/-- A row of lanes in which one lane has come nearer to its end. -/
inductive LanesLt {α : Type} : List (Lane α) → List (Lane α) → Prop where
  | head {a b : Lane α} (rest : List (Lane α)) : Lane.Lt a b → LanesLt (a :: rest) (b :: rest)
  | tail (a : Lane α) {xs ys : List (Lane α)} : LanesLt xs ys → LanesLt (a :: xs) (a :: ys)

namespace LanesLt

variable {α : Type}

/-- So have lanes together. -/
theorem acc (ls : List (Lane α)) : Acc LanesLt ls := by
  induction ls with
  | nil => exact ⟨_, fun _ h => nomatch h⟩
  | cons a rest ih =>
    induction Lane.acc_lt a generalizing rest with
    | intro a _ iha =>
      induction ih with
      | intro rest hrest ihr =>
        refine ⟨_, fun _ h => ?_⟩
        cases h with
        | head _ h => exact iha _ h _ ⟨_, hrest⟩
        | tail _ h => exact ihr _ h

/-- Replacing one lane by one that is nearer to its end. -/
theorem set {ls : List (Lane α)} {i : Nat} {a b : Lane α} (h : ls[i]? = some b)
    (lt : Lane.Lt a b) : LanesLt (ls.set i a) ls := by
  induction ls generalizing i with
  | nil => simp at h
  | cons x xs ih =>
    cases i with
    | zero =>
      simp only [List.getElem?_cons_zero, Option.some.injEq] at h
      subst h
      exact .head _ lt
    | succ i =>
      simp only [List.getElem?_cons_succ] at h
      exact .tail _ (ih h)

end LanesLt

instance {α : Type} : WellFoundedRelation (List (Lane α)) := ⟨LanesLt, ⟨LanesLt.acc⟩⟩

/-- A lookup that goes on comes nearer to its end. -/
theorem Flight.rank_of_step_go {now me : Nat} {f : Flight} {c c' : Cache} {phase : Phase}
    (h : f.step now me c = .go phase c') : Flight.rank { f with phase } < f.rank := by
  simp only [Flight.step] at h
  cases hp : f.phase <;> simp only [hp] at h
  · split at h
    · cases h
    · split at h
      · cases h
      · cases h; simp [Flight.rank, hp]
  · split at h
    · cases h
    · split at h <;> cases h <;> simp [Flight.rank, hp]
  · split at h
    · cases h
    · split at h
      · cases h; simp [Flight.rank, hp]
      · cases h
  · split at h
    · unfold Flight.board at h
      split at h
      · cases h
      · cases h; simp [Flight.rank, hp]
    · cases h; simp [Flight.rank, hp]
  · split at h
    · unfold Flight.board at h
      split at h
      · cases h
      · cases h; simp [Flight.rank, hp]
    · cases h
  · cases h

namespace Lane

variable {α : Type}

/-- A lane that has ended is nearest to its end. -/
theorem ended_lt (e : Ending α) {l : Lane α} {p : Program Reply (Except Failure α)} {n : Nat}
    (h : l.rank = (some p, n)) : Lt (.ended e) l := by
  simp only [Lt]
  rw [h]
  exact .left _ _ (.ended p)

/-- A lane that goes on with an answer is nearer to its end. -/
theorem running_lt (gated : Bool) (deadline : Option Nat) {q : Ask}
    (next : Reply q → Program Reply (Except Failure α)) (r : Reply q) {l : Lane α} {n : Nat}
    (h : l.rank = (some (.ask q next), n)) : Lt (.running gated deadline (next r)) l := by
  simp only [Lt]
  rw [h]
  exact .left _ _ (.next (.mk q next r))

/-- A lane with the same program and less to do before its next question is nearer to its end. -/
theorem lt_of_rank {a b : Lane α} (h : a.rank.1 = b.rank.1) (lt : a.rank.2 < b.rank.2) :
    Lt a b := by
  simp only [Lt]
  rw [← Prod.eta a.rank, ← Prod.eta b.rank, h]
  exact .right _ lt

end Lane

namespace World

variable {env : Environment} {α : Type}

/-- A lane that ends has nothing left to do. -/
theorem finish_lt (w : World env) (gated : Bool) (e : Ending α) {l : Lane α}
    {p : Program Reply (Except Failure α)} {n : Nat} (h : l.rank = (some p, n)) :
    Lane.Lt (w.finish gated e).1 l := Lane.ended_lt e h

/-- A lane that goes on with an answer has less left to do. -/
theorem resume_lt (w : World env) {q : Ask} (gated : Bool) (deadline : Option Nat)
    {next : Reply q → Program Reply (Except Failure α)} (answer : Option (Reply q)) {l : Lane α}
    {n : Nat} (h : l.rank = (some (.ask q next), n)) :
    Lane.Lt (w.resume gated deadline next answer).1 l := by
  cases answer with
  | none => exact finish_lt w gated .crashed h
  | some r => exact Lane.running_lt gated deadline next r h

/-- A step of a lookup leaves less to do. -/
theorem actLookup_lt {w w' : World env} {me : Nat} {gated : Bool} {deadline : Option Nat}
    {text : String} {next : Reply (.embedding text) → Program Reply (Except Failure α)}
    {flight : Flight} {answer : Option (Nat × Option (Reply (.embedding text)))} {l : Lane α}
    (h : w.actLookup me gated deadline text next flight answer = some (l, w')) :
    Lane.Lt l (.looking gated deadline text next flight answer) := by
  simp only [actLookup] at h
  split at h
  · rename_i cell hphase
    split at h
    · cases ha : (w.respond (.embedding text)).1.outcome <;> simp only [ha] at h <;> cases h
      · exact Lane.ended_lt _ rfl
      · exact Lane.running_lt gated deadline next _ rfl
    · cases h
      exact Lane.lt_of_rank rfl (by simp [Lane.rank, Flight.rank, hphase])
  · rename_i cell due reply hphase
    split at h
    · cases reply <;> cases h
      · exact Lane.ended_lt _ rfl
      · exact Lane.running_lt gated deadline next _ rfl
    · split at h
      · cases h; exact Lane.ended_lt _ rfl
      · cases h
  · split at h
    · rename_i phase cache hstep
      cases h
      refine Lane.lt_of_rank rfl ?_
      have := Flight.rank_of_step_go hstep
      simp only [Lane.rank]
      split <;> omega
    · cases h; exact Lane.running_lt gated deadline next _ rfl
    · split at h
      · cases h; exact Lane.ended_lt _ rfl
      · cases h

/-- Every step of a lane brings it nearer to its end. -/
theorem act_lt {w w' : World env} {me : Nat} {l l' : Lane α} (h : w.act me l = some (l', w')) :
    Lane.Lt l' l := by
  unfold act at h
  split at h
  · cases h; exact Lane.lt_of_rank rfl (by simp [Lane.rank])
  · simp only [Option.some.injEq, Prod.mk.injEq] at h
    obtain ⟨rfl, -⟩ := h
    split <;> exact Lane.lt_of_rank rfl (by simp [Lane.rank])
  · obtain ⟨g, -, hg⟩ := Option.map_eq_some_iff.1 h
    cases hg
    exact Lane.lt_of_rank rfl (by simp [Lane.rank])
  · cases h; exact Lane.ended_lt _ rfl
  · cases h; exact Lane.ended_lt _ rfl
  · cases h
    exact Lane.lt_of_rank rfl (by simp [Lane.rank, Flight.rank, Flight.start])
  · simp only at h
    split at h
    · simp only [Option.some.injEq] at h
      rw [show l' = (resume _ _ _ _ _).1 from (congrArg Prod.fst h).symm]
      exact resume_lt _ _ _ _ rfl
    · cases h; exact Lane.lt_of_rank rfl (by simp [Lane.rank])
  · split at h
    · simp only [Option.some.injEq] at h
      rw [show l' = (resume _ _ _ _ _).1 from (congrArg Prod.fst h).symm]
      exact resume_lt _ _ _ _ rfl
    · split at h
      · cases h; exact Lane.ended_lt _ rfl
      · cases h
  · exact actLookup_lt h
  · cases h

/-- A step of the lane at a position. -/
def actAt (w : World env) (ls : List (Lane α)) (i : Nat) :
    Option (Nat × List (Lane α) × World env) :=
  match ls[i]? with
  | none => none
  | some l => (w.act i l).map fun (l', w') => (i, ls.set i l', w')

/-- The positions of `n` lanes from `cursor` on, and then those before it. -/
def turnOrder (n cursor : Nat) : List Nat :=
  (List.range n).drop cursor ++ (List.range n).take cursor

/-- A step of the lane whose turn it is. -/
def turn (w : World env) (cursor : Nat) (ls : List (Lane α)) :
    Option (Nat × List (Lane α) × World env) :=
  (turnOrder ls.length cursor).findSome? (w.actAt ls)

/-- A step of the lane at a position leaves less to do. -/
theorem actAt_lt {w w' : World env} {ls ls' : List (Lane α)} {i j : Nat}
    (h : w.actAt ls i = some (j, ls', w')) : LanesLt ls' ls := by
  simp only [actAt] at h
  split at h
  · cases h
  · rename_i l hl
    obtain ⟨⟨l', w''⟩, ha, heq⟩ := Option.map_eq_some_iff.1 h
    cases heq
    exact LanesLt.set hl (act_lt ha)

/-- A turn leaves less to do. -/
theorem turn_lt {w w' : World env} {cursor j : Nat} {ls ls' : List (Lane α)}
    (h : w.turn cursor ls = some (j, ls', w')) : LanesLt ls' ls := by
  obtain ⟨i, -, hi⟩ := List.exists_of_findSome?_eq_some h
  exact actAt_lt hi

/-- The next moment at which one of the lanes can go on by itself. -/
def wakesAt (ls : List (Lane α)) : Option Nat := (ls.filterMap Lane.wakesAt).min?

/-- Takes steps, lane `cursor` first, until nothing is left to do before `limit`. -/
def run (limit : Option Nat) (w : World env) (cursor : Nat) (ls : List (Lane α)) :
    List (Lane α) × World env :=
  match _h : w.turn cursor ls with
  | some (i, ls', w') => run limit w' i ls'
  | none =>
    match wakesAt ls with
    | none => (ls, w)
    | some t =>
      if limit.any (· < t) then (ls, w)
      else
        let later : World env := { w with now := max w.now t }
        match _h : later.turn 0 ls with
        | some (i, ls', w') => run limit w' i ls'
        | none => (ls, later)
  termination_by ls
  decreasing_by
    · exact turn_lt _h
    · exact turn_lt _h

/-- Drops lanes, those before `i` being others. -/
def abandonAll (w : World env) (i : Nat) : List (Lane α) → World env
  | [] => w
  | l :: ls => abandonAll (w.abandon i l) (i + 1) ls

/-- Time moves on to a limit, at which something is cut off. -/
def runOut (w : World env) : Option Nat → World env
  | none => w
  | some limit => { w with now := max w.now limit }.countTimeout

/-- Runs lanes to their ends. Those that have not ended at `limit` are dropped then, and there is no
result. -/
def join (w : World env) (limit : Option Nat) (ls : List (Lane α)) :
    Option (List (Ending α)) × World env :=
  let (ls, w) := w.run limit 0 ls
  match ls.mapM Lane.ending? with
  | some endings => (some endings, w)
  | none => (none, (w.runOut limit).abandonAll 0 ls)

/-- Runs one action by itself. -/
def perform (w : World env) (limit : Option Nat) (p : Action α) :
    Option (Ending α) × World env :=
  let (endings, w) := w.join limit [.running false none p.run]
  (endings.bind (·.head?), w)

end World

end Archivist
