import Archivist.Proofs.Concurrency.Perform
import Archivist.Proofs.Embedding.Transparency
import Archivist.Proofs.Program

/-!
# Answers That Do Not Change

If each question is always answered in the same way, a program has a single ending, and so has a
lane that runs it (`Lane.ending`). A `Lore` is what the answers are: those of the collaborators, and
a book of what lookups of embeddings come to, since these may be served from what others have looked
up.

Each step of a lane keeps to its ending, or something is cut off because its time is up, which is
counted (`World.Acts.settled`). For this the cache has to tell what the book says, which it does as
long as what has been asked has been answered as always (`World.Covered`, `World.Upholds`).
-/

namespace Archivist

/-- What collaborators always answer, and what lookups always come to. -/
structure Lore where
  answer : (q : Ask) → Option (Reply q)
  book : Book

namespace Lore

/-- What a question comes to; nothing if the collaborator breaks down over it. -/
def reply (L : Lore) : (q : Ask) → Option (Reply q)
  | .embedding text => L.book.landing? text
  | q => L.answer q

/-- An exchange has gone as it always does. -/
def Covers (L : Lore) : Exchange → Prop
  | ⟨.embedding text, response⟩ =>
    response.outcome.map Flight.outcome = L.book (Digest.ofText text)
  | ⟨q, response⟩ => response.outcome = L.answer q

variable {L : Lore} {q : Ask}

/-- An exchange that goes as always has the answer that there always is. -/
theorem Covers.outcome_eq {response : Response q} (h : L.Covers ⟨q, response⟩)
    (hq : ∀ text, q ≠ .embedding text) : response.outcome = L.reply q := by
  cases q with
  | embedding text => exact absurd rfl (hq text)
  | _ => exact h

end Lore

variable {env : Environment} {α : Type} {L : Lore}

/-- How a program ends if questions come to what they always do. -/
def Program.ending (L : Lore) : Program Reply (Except Failure α) → Ending α
  | .done r => .value r
  | .crash => .crashed
  | .ask q next =>
    match L.reply q with
    | some r => (next r).ending L
    | none => .crashed

/-- A program goes on with the answer that there always is. -/
theorem Program.ending_ask {q : Ask} {next : Reply q → Program Reply (Except Failure α)}
    {answer : Option (Reply q)} (h : answer = L.reply q) :
    (Program.ask q next).ending L = answer.elim .crashed fun r => (next r).ending L := by
  rw [ending, ← h]
  cases answer <;> rfl

/-- A program goes on with what the lookup that it waits for comes to. -/
theorem Program.ending_of_landing {text : String}
    {next : Reply (.embedding text) → Program Reply (Except Failure α)} {result : Landing}
    (h : L.book.landing? text = some result) :
    (next result).ending L = (Program.ask (.embedding text) next).ending L :=
  (Program.ending_ask (q := .embedding text) h.symm).symm

/-- Answers that there always are do not change how a program ends. -/
theorem Program.Leads.ending_eq {p p' : Program Reply (Except Failure α)}
    {xs : List (Answered Reply)} (h : p.Leads xs p') (hxs : ∀ x ∈ xs, L.reply x.1 = some x.2) :
    p.ending L = p'.ending L := by
  induction h with
  | refl p => rfl
  | ask q next r _ ih =>
      obtain ⟨hr, hrest⟩ := List.forall_mem_cons.1 hxs
      rw [ending_ask hr.symm, Option.elim_some]
      exact ih hrest

namespace Lane

/-- The lookup of a lane. -/
def flight? : Lane α → Option Flight
  | .looking _ _ _ _ flight _ => some flight
  | _ => none

/-- How a lane ends if questions come to what they always do. -/
def ending (L : Lore) : Lane α → Ending α
  | .ready _ _ p | .queued _ p | .running _ _ p => p.ending L
  | .calling _ _ q next _ _ => (Program.ask q next).ending L
  | .looking _ _ text next _ _ => (Program.ask (.embedding text) next).ending L
  | .ended e => e

/-- The answer that a lane waits for is the one that there always is. -/
def Faithful (L : Lore) : Lane α → Prop
  | .calling _ _ q _ _ answer => answer = L.reply q
  | .looking _ _ text _ flight answer => flight.text = text ∧
      ∀ due reply, answer = some (due, reply) →
        reply.map Flight.outcome = L.book (Digest.ofText text)
  | _ => True

/-- The lane has not come to a question yet. -/
def IsNew : Lane α → Prop
  | .ready .. | .running .. | .ended _ => True
  | .queued .. | .calling .. | .looking .. => False

/-- A lane that is new looks up nothing. -/
theorem IsNew.flight?_eq_none {l : Lane α} (h : l.IsNew) : l.flight? = none := by
  cases l <;> first | rfl | cases h

/-- A lane that is new waits for no answer. -/
theorem IsNew.faithful {l : Lane α} (h : l.IsNew) : l.Faithful L := by
  cases l <;> trivial

end Lane

namespace World

variable {w w' w'' : World env} {ls : List (Lane α)} {l l' : Lane α} {i : ℕ}

/-- Whatever has been asked has been answered as it always is. -/
def Covered (w : World env) (L : Lore) : Prop := ∀ x ∈ w.log, L.Covers x

/-- What follows in time: more may have been asked, and more may have been cut off. -/
structure Leads (w w' : World env) : Prop where
  log : ∃ xs, w'.log = w.log ++ xs ∧
    ∀ x ∈ xs, ∃ state, x.response = (env.respond x.question state).1
  timeouts_le : w.timeouts ≤ w'.timeouts

theorem Leads.refl (w : World env) : w.Leads w :=
  ⟨⟨[], (List.append_nil _).symm, List.forall_mem_nil _⟩, Nat.le_refl _⟩

theorem Leads.trans (h : w.Leads w') (h' : w'.Leads w'') : w.Leads w'' := by
  obtain ⟨xs, hxs, hx⟩ := h.log
  obtain ⟨ys, hys, hy⟩ := h'.log
  refine ⟨⟨xs ++ ys, ?_, fun x hmem => ?_⟩, Nat.le_trans h.timeouts_le h'.timeouts_le⟩
  · rw [hys, hxs, List.append_assoc]
  · exact (List.mem_append.1 hmem).elim (hx x) (hy x)

/-- What neither asks nor cuts off leaves things as they were. -/
theorem Leads.of_eq (hlog : w'.log = w.log) (htimeouts : w'.timeouts = w.timeouts) : w.Leads w' :=
  ⟨⟨[], by rw [hlog, List.append_nil], List.forall_mem_nil _⟩, Nat.le_of_eq htimeouts.symm⟩

/-- What is known of everything that has been asked was known before. -/
theorem Leads.covered (h : w.Leads w') (hw : w'.Covered L) : w.Covered L := by
  obtain ⟨xs, hxs, -⟩ := h.log
  intro x hx
  exact hw x (hxs ▸ List.mem_append_left _ hx)

/-- A question is what follows in time. -/
theorem leads_respond (w : World env) (q : Ask) : w.Leads (w.respond q).2 :=
  ⟨⟨[⟨q, (w.respond q).1⟩], rfl, List.forall_mem_singleton.2 ⟨w.state, rfl⟩⟩, Nat.le_refl _⟩

/-- A question of a world in which all goes as always has gone as always. -/
theorem covers_respond {q : Ask} (hw : (w.respond q).2.Covered L) :
    L.Covers ⟨q, (w.respond q).1⟩ :=
  hw _ (List.mem_append_right _ (List.mem_singleton_self _))

/-! ### Steps -/

/-- Giving back a permit takes no time. -/
@[simp] theorem clock_giveBack (w : World env) (gated : Bool) :
    (w.giveBack gated).clock = w.clock := by
  cases gated <;> rfl

/-- Giving back a permit is nothing to the cache. -/
@[simp] theorem cache_giveBack (w : World env) (gated : Bool) :
    (w.giveBack gated).cache = w.cache := by
  cases gated <;> rfl

/-- Giving back a permit cuts nothing off. -/
@[simp] theorem timeouts_giveBack (w : World env) (gated : Bool) :
    (w.giveBack gated).timeouts = w.timeouts := by
  cases gated <;> rfl

/-- Going on with an answer cuts nothing off. -/
@[simp] theorem timeouts_resume (w : World env) {q : Ask} (gated : Bool) (deadline : Option ℕ)
    (next : Reply q → Program Reply (Except Failure α)) (answer : Option (Reply q)) :
    (w.resume gated deadline next answer).2.timeouts = w.timeouts := by
  cases answer with
  | none => exact timeouts_giveBack w gated
  | some r => rfl

/-- Going on with an answer takes no time. -/
@[simp] theorem clock_resume (w : World env) {q : Ask} (gated : Bool) (deadline : Option ℕ)
    (next : Reply q → Program Reply (Except Failure α)) (answer : Option (Reply q)) :
    (w.resume gated deadline next answer).2.clock = w.clock := by
  cases answer with
  | none => exact clock_giveBack w gated
  | some r => rfl

/-- Going on with an answer is nothing to the cache. -/
@[simp] theorem cache_resume (w : World env) {q : Ask} (gated : Bool) (deadline : Option ℕ)
    (next : Reply q → Program Reply (Except Failure α)) (answer : Option (Reply q)) :
    (w.resume gated deadline next answer).2.cache = w.cache := by
  cases answer with
  | none => exact cache_giveBack w gated
  | some r => rfl

/-- What is cut off is counted. -/
@[simp] theorem timeouts_cutOff (w : World env) (gated : Bool) :
    (w.countTimeout.giveBack gated).timeouts = w.timeouts + 1 :=
  timeouts_giveBack w.countTimeout gated

/-- Cutting off a lane is what follows in time. -/
theorem leads_cutOff (w : World env) (gated : Bool) : w.Leads (w.countTimeout.giveBack gated) := by
  refine ⟨⟨[], ?_, List.forall_mem_nil _⟩, ?_⟩
  · rw [log_giveBack, List.append_nil]
    rfl
  · rw [timeouts_cutOff]
    exact Nat.le_succ _

/-- What lanes do at the cache. -/
def traffic (w : World env) (ls : List (Lane α)) : Traffic :=
  { now := w.clock, cache := w.cache, fleet := ls.map Lane.flight? }

/-- What becomes of the lookups when one lane goes on. -/
theorem traffic_set (w : World env) (ls : List (Lane α)) (i : ℕ) (l : Lane α) :
    w.traffic (ls.set i l) =
      { now := w.clock
        cache := w.cache
        fleet := List.set (ls.map Lane.flight?) i l.flight? } := by
  rw [traffic, List.map_set]

/-- The lookup of a lane is the one at its place. -/
theorem flight?_traffic (w : World env) (hl : ls[i]? = some l) :
    (w.traffic ls).fleet.flight? i = l.flight? := by
  rw [traffic, Fleet.flight?, List.getElem?_map, hl, Option.map_some, Option.join_some]

/-- What does not concern the cache. -/
theorem traffic_set_eq (hl : ls[i]? = some l) (hflight : l'.flight? = l.flight?)
    (hclock : w'.clock = w.clock) (hcache : w'.cache = w.cache) :
    w'.traffic (ls.set i l') = w.traffic ls := by
  have hset : (ls.map Lane.flight?)[i]? = some l.flight? := by
    rw [List.getElem?_map, hl, Option.map_some]
  obtain ⟨hlt, heq⟩ := List.getElem?_eq_some_iff.1 hset
  rw [traffic_set, hflight, hclock, hcache, ← heq, List.set_getElem_self, traffic]

/-- Lanes wait for answers that there always are, and the cache tells what lookups come to. -/
structure Upholds (w : World env) (L : Lore) (ls : List (Lane α)) : Prop where
  faithful : ∀ l ∈ ls, l.Faithful L
  tells : (w.traffic ls).Tells L.book

namespace Upholds

/-- Lanes stay faithful if the one that goes on does. -/
theorem faithful_set (h : w.Upholds L ls) (hf : l'.Faithful L) :
    ∀ l ∈ ls.set i l', l.Faithful L := by
  intro l hl
  rcases List.mem_or_eq_of_mem_set hl with hl | rfl
  · exact h.faithful l hl
  · exact hf

theorem congr (h : w.Upholds L ls) (hclock : w'.clock = w.clock) (hcache : w'.cache = w.cache) :
    w'.Upholds L ls := by
  refine ⟨h.faithful, ?_⟩
  rw [traffic, hclock, hcache]
  exact h.tells

/-- A step that does not concern the cache. -/
theorem outside (h : w.Upholds L ls) (hl : ls[i]? = some l) (hf : l'.Faithful L)
    (hflight : l'.flight? = l.flight?) (hclock : w'.clock = w.clock) (hcache : w'.cache = w.cache) :
    w'.Upholds L (ls.set i l') := by
  refine ⟨h.faithful_set hf, ?_⟩
  rw [traffic_set_eq hl hflight hclock hcache]
  exact h.tells

/-- A step at the cache. -/
theorem step (h : w.Upholds L ls) (hf : l'.Faithful L) {sign : Traffic.Sign}
    (hs : (w.traffic ls).Step sign
      { now := w'.clock, cache := w'.cache, fleet := List.set (ls.map Lane.flight?) i l'.flight? })
    (hb : sign.Agrees L.book) : w'.Upholds L (ls.set i l') := by
  refine ⟨h.faithful_set hf, ?_⟩
  rw [traffic_set]
  exact hs.tells h.tells hb

/-- What a lookup comes to over which the provider always breaks down. -/
theorem landing?_eq_none {gated : Bool} {deadline : Option ℕ} {text : String}
    {next : Reply (.embedding text) → Program Reply (Except Failure α)} {flight : Flight}
    {answer : Option (ℕ × Option (Reply (.embedding text)))} {cell : ℕ} (h : w.Upholds L ls)
    (hl : ls[i]? = some (.looking gated deadline text next flight answer))
    (hphase : flight.phase = .asking cell) (hbook : L.book (Digest.ofText text) = none) :
    L.book.landing? text = none := by
  obtain ⟨rfl, -⟩ := h.faithful _ (List.mem_of_getElem? hl)
  have hi : (w.traffic ls).fleet.flight? i = some flight := flight?_traffic w hl
  rw [h.tells.landing?_eq hi (by simp [hphase]), h.tells.attends.key_eq hi, hbook]

/-- A lane that ends while it looks up an embedding drops its lookup. -/
theorem drop {gated : Bool} {deadline : Option ℕ} {text : String}
    {next : Reply (.embedding text) → Program Reply (Except Failure α)} {flight : Flight}
    {answer : Option (ℕ × Option (Reply (.embedding text)))} (h : w.Upholds L ls)
    (hl : ls[i]? = some (.looking gated deadline text next flight answer)) (free : Bool)
    (e : Ending α) :
    (giveBack { w with cache := flight.abandon i w.cache } free).Upholds L
      (ls.set i (.ended e)) := by
  have hi : (w.traffic ls).fleet.flight? i = some flight := flight?_traffic w hl
  have hdropped : World.Upholds { w with cache := flight.abandon i w.cache } L
      (ls.set i (.ended e)) := h.step trivial (.dropped hi) trivial
  exact hdropped.congr (clock_giveBack _ _) (cache_giveBack _ _)

end Upholds

/-- An answer that arrives changes nothing at the cache. -/
theorem Arrives.same {q : Ask} {answer : Option (ℕ × Option (Reply q))} {r : Option (Reply q)}
    (h : w.Arrives q answer r w') :
    w'.clock = w.clock ∧ w'.cache = w.cache ∧ w'.timeouts = w.timeouts ∧ w.Leads w' := by
  cases h with
  | atOnce => exact ⟨rfl, rfl, rfl, leads_respond w q⟩
  | due => exact ⟨rfl, rfl, rfl, .refl w⟩

/-- The answer that arrives is the one that there always is. -/
theorem Arrives.faithful {text : String} {answer : Option (ℕ × Option (Reply (.embedding text)))}
    {r : Option (Reply (.embedding text))} (h : w.Arrives (.embedding text) answer r w')
    (hw' : w'.Covered L) (hf : ∀ due reply, answer = some (due, reply) →
      reply.map Flight.outcome = L.book (Digest.ofText text)) :
    r.map Flight.outcome = L.book (Digest.ofText text) := by
  cases h with
  | atOnce => exact covers_respond hw'
  | due => exact hf _ _ rfl

/-- **A lookup of a lane comes to what it always does**, or is cut off. -/
theorem Looks.settled {gated : Bool} {deadline : Option ℕ} {text : String}
    {next : Reply (.embedding text) → Program Reply (Except Failure α)} {flight : Flight}
    {answer : Option (ℕ × Option (Reply (.embedding text)))}
    (h : w.Looks i gated deadline text next flight answer l' w')
    (hl : ls[i]? = some (.looking gated deadline text next flight answer)) (hw' : w'.Covered L)
    (hu : w.Upholds L ls) :
    w'.Upholds L (ls.set i l') ∧ (w'.timeouts = w.timeouts →
      l'.ending L = (Program.ask (.embedding text) next).ending L) := by
  obtain ⟨rfl, hanswer⟩ := hu.faithful _ (List.mem_of_getElem? hl)
  have hi : ∀ w₁ : World env, (w₁.traffic ls).fleet.flight? i = some flight := fun w₁ =>
    flight?_traffic w₁ hl
  cases h with
  | ask cell hphase hdelay =>
      have hf : Lane.Faithful L (.looking gated deadline flight.text next flight
          (some (w.now + (w.respond (.embedding flight.text)).1.delay,
            (w.respond (.embedding flight.text)).1.outcome))) := by
        refine ⟨rfl, ?_⟩
        rintro due reply ⟨⟩
        exact covers_respond hw'
      exact ⟨hu.outside hl hf rfl rfl rfl, fun _ => rfl⟩
  | @land cell hphase answer r w₁ harrives =>
      obtain ⟨hclock, hcache, -, -⟩ := harrives.same
      -- What the provider answers is in the book, as all its answers are.
      have hagrees : L.book (Digest.ofText flight.text) = some (Flight.outcome r) :=
        (harrives.faithful hw' hanswer).symm
      have hu₁ := hu.congr hclock hcache
      have hs := Traffic.Step.answered r (hi w₁) hphase rfl
      exact ⟨hu₁.step trivial hs hagrees, fun _ =>
        Program.ending_of_landing (hs.landing hu₁.tells hagrees rfl)⟩
  | @breakDown cell hphase answer w₁ harrives =>
      obtain ⟨hclock, hcache, -, -⟩ := harrives.same
      have hbook : none = L.book (Digest.ofText flight.text) := harrives.faithful
        (fun x hx => hw' x (by rwa [log_giveBack])) hanswer
      have hreply := hu.landing?_eq_none hl hphase hbook.symm
      exact ⟨(hu.congr hclock hcache).drop hl gated .crashed, fun _ =>
        (Program.ending_ask (q := .embedding flight.text) hreply.symm).symm⟩
  | go answer phase cache hstep =>
      exact ⟨hu.step ⟨rfl, hanswer⟩ (.moved (hi w) hstep) trivial, fun _ => rfl⟩
  | settle answer result cache hstep =>
      have hs := Traffic.Step.served (hi w) hstep
      exact ⟨hu.step trivial hs trivial, fun _ =>
        Program.ending_of_landing (hs.landing hu.tells trivial rfl)⟩
  | late answer hlate =>
      refine ⟨(hu.drop hl gated .late).congr (by simp [countTimeout]) (by simp [countTimeout]),
        fun h => ?_⟩
      -- A lookup that is late has been counted, so that nothing is said about its ending.
      rw [timeouts_cutOff] at h
      exact absurd h (Nat.succ_ne_self _)

/-- A lane goes on with the answer that there always is. -/
theorem Upholds.resume {q : Ask} {next : Reply q → Program Reply (Except Failure α)}
    {answer : Option (Reply q)} (hu : w.Upholds L ls) (hl : ls[i]? = some l)
    (hflight : l.flight? = none) (hanswer : answer = L.reply q) (gated : Bool)
    (deadline : Option ℕ) :
    (w.resume gated deadline next answer).2.Upholds L
        (ls.set i (w.resume gated deadline next answer).1) ∧
      (w.resume gated deadline next answer).1.ending L = (Program.ask q next).ending L := by
  rw [Program.ending_ask hanswer]
  cases answer with
  | none =>
      exact ⟨hu.outside hl trivial hflight.symm (clock_giveBack _ _) (cache_giveBack _ _), rfl⟩
  | some r => exact ⟨hu.outside hl trivial hflight.symm rfl rfl, rfl⟩

/-- **A lane ends as it always does**, or is cut off, whatever its steps are. -/
theorem Acts.settled (h : w.Acts i l l' w') (hl : ls[i]? = some l) (hw' : w'.Covered L)
    (hu : w.Upholds L ls) :
    w'.Upholds L (ls.set i l') ∧ (w'.timeouts = w.timeouts → l'.ending L = l.ending L) := by
  cases h with
  | start | enter | queue | pickUp => exact ⟨hu.outside hl trivial rfl rfl rfl, fun _ => rfl⟩
  | finish | giveUp =>
      exact ⟨hu.outside hl trivial rfl (clock_giveBack _ _) (cache_giveBack _ _), fun _ => rfl⟩
  | look gated deadline text next =>
      have hi : (w.traffic ls).fleet[i]? = some none := by
        rw [traffic, List.getElem?_map, hl]
        rfl
      exact ⟨hu.step ⟨rfl, nofun⟩ (.began text hi) trivial, fun _ => rfl⟩
  | ask gated deadline q next hq hdelay =>
      have hanswer := (covers_respond hw').outcome_eq hq
      exact ⟨hu.outside hl hanswer rfl rfl rfl, fun _ => rfl⟩
  | exchange gated deadline q next hq hdelay =>
      have hcovered : (w.respond q).2.Covered L := fun x hx => hw' x (by rwa [log_resume])
      have hu' : (w.respond q).2.Upholds L ls := hu.congr rfl rfl
      obtain ⟨hupholds, hending⟩ := hu'.resume hl rfl ((covers_respond hcovered).outcome_eq hq)
        gated deadline
      exact ⟨hupholds, fun _ => hending⟩
  | answered gated deadline q next due answer hdue =>
      have hanswer : answer = L.reply q := hu.faithful _ (List.mem_of_getElem? hl)
      obtain ⟨hupholds, hending⟩ := hu.resume hl rfl hanswer gated deadline
      exact ⟨hupholds, fun _ => hending⟩
  | late gated deadline q next due answer hlate =>
      refine ⟨hu.outside hl trivial rfl (clock_giveBack _ _) (cache_giveBack _ _), fun h => ?_⟩
      rw [timeouts_cutOff] at h
      exact absurd h (Nat.succ_ne_self _)
  | lookup gated deadline text next flight answer h => exact h.settled hl hw' hu

/-- A step of a lookup is what follows in time. -/
theorem Looks.leads {gated : Bool} {deadline : Option ℕ} {text : String}
    {next : Reply (.embedding text) → Program Reply (Except Failure α)} {flight : Flight}
    {answer : Option (ℕ × Option (Reply (.embedding text)))}
    (h : w.Looks i gated deadline text next flight answer l' w') : w.Leads w' := by
  cases h with
  | ask => exact leads_respond w _
  | land cell hphase r h => exact h.same.2.2.2.trans (.of_eq rfl rfl)
  | breakDown cell hphase h =>
      exact h.same.2.2.2.trans (.of_eq (log_giveBack _ _) (timeouts_giveBack _ _))
  | go | settle => exact .of_eq rfl rfl
  | late =>
      have habandon : w.Leads { w with cache := flight.abandon i w.cache } := .of_eq rfl rfl
      exact habandon.trans (leads_cutOff _ gated)

/-- A step of a lane is what follows in time. -/
theorem Acts.leads (h : w.Acts i l l' w') : w.Leads w' := by
  cases h with
  | start | enter | queue | pickUp | look => exact .of_eq rfl rfl
  | finish | giveUp => exact .of_eq (log_giveBack _ _) (timeouts_giveBack _ _)
  | ask => exact leads_respond w _
  | exchange gated deadline q next =>
      refine (leads_respond w q).trans (.of_eq (log_resume _ _ _ _ _) ?_)
      exact timeouts_resume _ _ _ _ _
  | answered => exact .of_eq (log_resume _ _ _ _ _) (timeouts_resume _ _ _ _ _)
  | late gated => exact leads_cutOff w gated
  | lookup gated deadline text next flight answer h => exact h.leads

end World

/-! ### Answers -/

/-- The collaborators answer each question in one way, whenever it is asked; over some they break
down. -/
def Environment.Answers (env : Environment) (answer : (q : Ask) → Option (Reply q)) : Prop :=
  ∀ q state, (env.respond q state).1.outcome = answer q

/-- The texts whose embeddings the provider has been asked for. -/
def World.embedded (w : World env) : Set String :=
  { text | ∃ x ∈ w.log, x.question = .embedding text }

/-- Only a question for an embedding adds to the texts that are embedded. -/
theorem World.embedded_respond (w : World env) {q : Ask} (hq : ∀ text, q ≠ .embedding text) :
    (w.respond q).2.embedded = w.embedded := by
  ext text
  simp only [embedded, respond, Set.mem_ofPred_eq, List.mem_append, List.mem_singleton,
    or_and_right, exists_or, exists_eq_left]
  exact or_iff_left (hq text)

/-- Whatever has been asked since the beginning has been answered as always. -/
theorem World.covered_of_answers {answer : (q : Ask) → Option (Reply q)} {w w' : World env}
    (henv : env.Answers answer) (hw : w.log = []) (hleads : w.Leads w')
    (hanswer : L.answer = answer)
    (hbook : ∀ text ∈ w'.embedded, L.book (Digest.ofText text) =
      (answer (.embedding text)).map Flight.outcome) : w'.Covered L := by
  obtain ⟨xs, hlog, hxs⟩ := hleads.log
  rw [hw, List.nil_append] at hlog
  rintro ⟨q, response⟩ hx
  obtain ⟨state, hstate⟩ := hxs ⟨q, response⟩ (hlog ▸ hx)
  have houtcome : response.outcome = answer q := by
    simp only at hstate
    rw [hstate, henv]
  cases q with
  | embedding text =>
      rw [Lore.Covers, hbook text ⟨_, hx, rfl⟩, houtcome]
  | _ => exact houtcome.trans (congrFun hanswer _).symm

end Archivist
