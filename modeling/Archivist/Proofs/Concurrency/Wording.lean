import Archivist.Proofs.Concurrency.Lane
import Archivist.Proofs.Wording

/-!
# Lanes and the Words of Failures

Two environments that answer alike but for the words of failures make no difference to lanes, as
long as their programs make none: the lanes take the same steps at the same times, ask the same
questions, leave the cache and the permits the same, and come to the same endings but for the words
of failures.

`World.Rewords` relates two worlds, `Lane.Rewords` two lanes. Each step keeps worlds and lanes
related (`World.Rewords.act`), and a run of steps does (`World.Rewords.run`).
-/

namespace Archivist

/-- Two answers that come at the same time and differ in words of failures alone. -/
structure Response.Rewords {q : Ask} (r r' : Response q) : Prop where
  delay_eq : r.delay = r'.delay
  outcome : Option.Rel Reply.Rewords r.outcome r'.outcome

/-- Two environments that answer each question alike but for the words of failures, in states that
are related, and stay in such states. -/
def Environment.Rewords (env env' : Environment) (rel : env.State → env'.State → Prop) : Prop :=
  ∀ q s s', rel s s' → (env.respond q s).1.Rewords (env'.respond q s').1 ∧
    rel (env.respond q s).2 (env'.respond q s').2

section Lists

variable {α β : Type} {R : α → β → Prop} {as : List α} {bs : List β}

/-- Related lists have related items. -/
theorem rel_getElem? (h : List.Forall₂ R as bs) (i : ℕ) : Option.Rel R as[i]? bs[i]? := by
  induction h generalizing i with
  | nil => exact .none
  | cons hab _ ih =>
      cases i with
      | zero => exact .some hab
      | succ i => exact ih i

/-- One item of each list is exchanged. -/
theorem forall₂_set (h : List.Forall₂ R as bs) {a : α} {b : β} (hab : R a b) (i : ℕ) :
    List.Forall₂ R (as.set i a) (bs.set i b) := by
  induction h generalizing i with
  | nil => exact .nil
  | cons h hs ih =>
      cases i with
      | zero => exact .cons hab hs
      | succ i => exact .cons h (ih i)

end Lists

section Lanes

variable {α β : Type}

/-- Two endings that differ in words of failures alone. -/
inductive Ending.Rewords (R : α → β → Prop) : Ending α → Ending β → Prop where
  | value {r : Except Failure α} {r' : Except Failure β} (h : Reworded R r r') :
      Rewords R (.value r) (.value r')
  | crashed : Rewords R .crashed .crashed
  | late : Rewords R .late .late

/-- An answer of which it is known when it is due. -/
def Reply.RewordsDue {q : Ask} (x x' : ℕ × Option (Reply q)) : Prop :=
  x.1 = x'.1 ∧ Option.Rel Reply.Rewords x.2 x'.2

/-- Two lanes that have come equally far, with programs that differ in words of failures alone. -/
inductive Lane.Rewords (P : Ask → Prop) (R : α → β → Prop) : Lane α → Lane β → Prop where
  | ready (gated : Bool) (allowance : Allowance) {p : Program Reply (Except Failure α)}
      {p' : Program Reply (Except Failure β)} (h : p.Rewords P (Reworded R) p') :
      Rewords P R (.ready gated allowance p) (.ready gated allowance p')
  | queued (allowance : Allowance) {p : Program Reply (Except Failure α)}
      {p' : Program Reply (Except Failure β)} (h : p.Rewords P (Reworded R) p') :
      Rewords P R (.queued allowance p) (.queued allowance p')
  | running (gated : Bool) (deadline : Option ℕ) {p : Program Reply (Except Failure α)}
      {p' : Program Reply (Except Failure β)} (h : p.Rewords P (Reworded R) p') :
      Rewords P R (.running gated deadline p) (.running gated deadline p')
  | calling (gated : Bool) (deadline : Option ℕ) {q : Ask}
      {next : Reply q → Program Reply (Except Failure α)}
      {next' : Reply q → Program Reply (Except Failure β)} (due : ℕ)
      {answer answer' : Option (Reply q)}
      (hnext : ∀ r r', Reply.Rewords r r' → (next r).Rewords P (Reworded R) (next' r'))
      (h : Option.Rel Reply.Rewords answer answer') :
      Rewords P R (.calling gated deadline q next due answer)
        (.calling gated deadline q next' due answer')
  | looking (gated : Bool) (deadline : Option ℕ) {text : String}
      {next : Reply (.embedding text) → Program Reply (Except Failure α)}
      {next' : Reply (.embedding text) → Program Reply (Except Failure β)} (flight : Flight)
      {answer answer' : Option (ℕ × Option (Reply (.embedding text)))}
      (hnext : ∀ r r', Reply.Rewords r r' → (next r).Rewords P (Reworded R) (next' r'))
      (h : Option.Rel Reply.RewordsDue answer answer') :
      Rewords P R (.looking gated deadline text next flight answer)
        (.looking gated deadline text next' flight answer')
  | ended {e : Ending α} {e' : Ending β} (h : e.Rewords R e') : Rewords P R (.ended e) (.ended e')

/-- Lanes that have come equally far wake at the same time. -/
theorem Lane.Rewords.wakesAt_eq {P : Ask → Prop} {R : α → β → Prop} {l : Lane α} {l' : Lane β}
    (h : l.Rewords P R l') : l.wakesAt = l'.wakesAt := by
  cases h with
  | ready | queued | running | calling | ended => rfl
  | looking gated deadline flight hnext ha =>
      cases ha with
      | none => rfl
      | some hdue =>
          simp only [Lane.wakesAt]
          rw [hdue.1]

end Lanes

variable {env env' : Environment} {rel : env.State → env'.State → Prop}

/-- Two worlds that have been asked the same, and in which all is the same but for the
environments, whose states are related. -/
structure World.Rewords (rel : env.State → env'.State → Prop) (w : World env) (w' : World env') :
    Prop where
  now_eq : w.now = w'.now
  clock_eq : w.clock = w'.clock
  cache_eq : w.cache = w'.cache
  permits_eq : w.permits = w'.permits
  state : rel w.state w'.state
  asked_eq : w.log.map (·.question) = w'.log.map (·.question)
  timeouts_eq : w.timeouts = w'.timeouts

/-- What the arrival of the provider's answer does to the cache has no words of a failure in it. -/
theorem Flight.land_rewords (now cell : ℕ) (f : Flight) (c : Cache) {text : String}
    {r r' : Reply (.embedding text)} (h : Reply.Rewords r r') :
    Reply.Rewords (q := .embedding text) (f.land now cell r c).1 (f.land now cell r' c).1 ∧
      (f.land now cell r c).2 = (f.land now cell r' c).2 := by
  cases h with
  | error h => exact ⟨.error h, rfl⟩
  | @ok v v' h =>
      obtain rfl : v = v' := h
      exact ⟨.refl _, rfl⟩

namespace World

variable {α β : Type} {P : Ask → Prop} {R : α → β → Prop} {w : World env} {w' : World env'}

/-- A lane in a world and another one in another world. -/
def Abreast (rel : env.State → env'.State → Prop) (P : Ask → Prop) (R : α → β → Prop)
    (x : Lane α × World env) (x' : Lane β × World env') : Prop :=
  x.1.Rewords P R x'.1 ∧ x.2.Rewords rel x'.2

/-- A step that asks anyone but the provider of embeddings. -/
theorem act_ask (w : World env) (me : ℕ) (gated : Bool) (deadline : Option ℕ) {q : Ask}
    {next : Reply q → Program Reply (Except Failure α)} (hq : ∀ text, q ≠ .embedding text) :
    w.act me (.running gated deadline (.ask q next)) =
      if (w.respond q).1.delay = 0 then
        some ((w.respond q).2.resume gated deadline next (w.respond q).1.outcome)
      else
        some (.calling gated deadline q next ((w.respond q).2.now + (w.respond q).1.delay)
          (w.respond q).1.outcome, (w.respond q).2) := by
  cases q with
  | embedding text => exact absurd rfl (hq text)
  | _ => rfl

namespace Rewords

/-- The same cache in both worlds. -/
theorem withCache (h : w.Rewords rel w') (cache : Cache) :
    Rewords rel { w with cache } { w' with cache } :=
  { h with cache_eq := rfl }

/-- The same permits in both worlds. -/
theorem withPermits (h : w.Rewords rel w') (permits : Gate) :
    Rewords rel { w with permits } { w' with permits } :=
  { h with permits_eq := rfl }

/-- The same time in both worlds. -/
theorem withNow (h : w.Rewords rel w') (now : ℕ) : Rewords rel { w with now } { w' with now } :=
  { h with now_eq := rfl }

/-- Something is cut off in both worlds. -/
theorem countTimeout (h : w.Rewords rel w') : w.countTimeout.Rewords rel w'.countTimeout :=
  { h with timeouts_eq := congrArg (· + 1) h.timeouts_eq }

/-- A permit is given back in both worlds. -/
theorem giveBack (h : w.Rewords rel w') (gated : Bool) :
    (w.giveBack gated).Rewords rel (w'.giveBack gated) := by
  cases gated with
  | false => exact h
  | true => exact { h with permits_eq := congrArg Gate.release h.permits_eq }

/-- The same question is put in both worlds. -/
theorem respond (h : w.Rewords rel w') (henv : env.Rewords env' rel) (q : Ask) :
    (w.respond q).1.Rewords (w'.respond q).1 ∧ (w.respond q).2.Rewords rel (w'.respond q).2 := by
  obtain ⟨hresponse, hstate⟩ := henv q _ _ h.state
  refine ⟨hresponse, { h with state := hstate, asked_eq := ?_ }⟩
  change (w.log ++ [_]).map _ = (w'.log ++ [_]).map _
  rw [List.map_append, List.map_append, h.asked_eq]
  rfl

/-- What is late in one world is late in the other. -/
theorem isLate_eq (h : w.Rewords rel w') (deadline : Option ℕ) :
    w.isLate deadline = w'.isLate deadline := by
  rw [isLate, isLate, h.now_eq]

/-- Lanes end in both worlds. -/
theorem finish (h : w.Rewords rel w') (gated : Bool) {e : Ending α} {e' : Ending β}
    (he : e.Rewords R e') : Abreast rel P R (w.finish gated e) (w'.finish gated e') :=
  ⟨.ended he, h.giveBack gated⟩

/-- Lanes go on with their answers in both worlds. -/
theorem resume (h : w.Rewords rel w') {q : Ask} (gated : Bool) (deadline : Option ℕ)
    {next : Reply q → Program Reply (Except Failure α)}
    {next' : Reply q → Program Reply (Except Failure β)} {answer answer' : Option (Reply q)}
    (hnext : ∀ r r', Reply.Rewords r r' → (next r).Rewords P (Reworded R) (next' r'))
    (ha : Option.Rel Reply.Rewords answer answer') :
    Abreast rel P R (w.resume gated deadline next answer)
      (w'.resume gated deadline next' answer') := by
  cases ha with
  | none => exact h.finish gated .crashed
  | some hr => exact ⟨.running gated deadline (hnext _ _ hr), h⟩

/-- A lookup that is dropped leaves the same in the cache. -/
theorem abandonFlight (h : w.Rewords rel w') (me : ℕ) (flight : Flight) :
    Rewords rel { w with cache := flight.abandon me w.cache }
      { w' with cache := flight.abandon me w'.cache } := by
  rw [h.cache_eq]
  exact h.withCache _

/-- The provider's answer arrives, or the provider has broken down. -/
theorem arrive (h : w.Rewords rel w') (me cell : ℕ) (gated : Bool) (deadline : Option ℕ)
    {text : String} {next : Reply (.embedding text) → Program Reply (Except Failure α)}
    {next' : Reply (.embedding text) → Program Reply (Except Failure β)} (flight : Flight)
    {reply reply' : Option (Reply (.embedding text))}
    (hnext : ∀ r r', Reply.Rewords r r' → (next r).Rewords P (Reworded R) (next' r')) :
    Option.Rel Reply.Rewords reply reply' → Abreast rel P R
      (match reply with
        | none => World.finish { w with cache := flight.abandon me w.cache } gated .crashed
        | some reply =>
          (.running gated deadline (next (flight.land w.clock cell reply w.cache).1),
            { w with cache := (flight.land w.clock cell reply w.cache).2 }))
      (match reply' with
        | none => World.finish { w' with cache := flight.abandon me w'.cache } gated .crashed
        | some reply =>
          (.running gated deadline (next' (flight.land w'.clock cell reply w'.cache).1),
            { w' with cache := (flight.land w'.clock cell reply w'.cache).2 })) := by
  intro hreply
  cases hreply with
  | none => exact (h.abandonFlight me flight).finish gated .crashed
  | @some r r' hr =>
      obtain ⟨hresult, hcache⟩ := flight.land_rewords w'.clock cell w'.cache hr
      have hland : flight.land w.clock cell r w.cache = flight.land w'.clock cell r w'.cache := by
        rw [h.clock_eq, h.cache_eq]
      dsimp only
      rw [hland, hcache]
      exact ⟨.running gated deadline (hnext _ _ hresult), h.withCache _⟩

/-- A step of a lookup. -/
theorem actLookup (h : w.Rewords rel w') (henv : env.Rewords env' rel) (me : ℕ) (gated : Bool)
    (deadline : Option ℕ) {text : String}
    {next : Reply (.embedding text) → Program Reply (Except Failure α)}
    {next' : Reply (.embedding text) → Program Reply (Except Failure β)} (flight : Flight)
    {answer answer' : Option (ℕ × Option (Reply (.embedding text)))}
    (hnext : ∀ r r', Reply.Rewords r r' → (next r).Rewords P (Reworded R) (next' r'))
    (ha : Option.Rel Reply.RewordsDue answer answer') :
    Option.Rel (Abreast rel P R) (w.actLookup me gated deadline text next flight answer)
      (w'.actLookup me gated deadline text next' flight answer') := by
  have hlate := (h.abandonFlight me flight).countTimeout.finish (P := P) (R := R) gated .late
  simp only [World.actLookup]
  cases hphase : flight.phase with
  | asking cell =>
      cases ha with
      | none =>
          obtain ⟨hresponse, hworld⟩ := h.respond henv (.embedding text)
          dsimp only
          rw [hresponse.delay_eq]
          split
          · exact .some (hworld.arrive me cell gated deadline flight hnext hresponse.outcome)
          · rw [hworld.now_eq]
            refine .some ⟨.looking gated deadline flight hnext ?_, hworld⟩
            exact .some ⟨rfl, hresponse.outcome⟩
      | @some x x' hdue =>
          obtain ⟨hdue, hreply⟩ := hdue
          have hnow : x.1 ≤ w.now ↔ x'.1 ≤ w'.now := by rw [hdue, h.now_eq]
          simp only [hnow, h.isLate_eq]
          split
          · exact .some (h.arrive me cell gated deadline flight hnext hreply)
          · split
            · exact .some hlate
            · exact .none
  | arriving | missed | boarding | admitted | queuing =>
      have hstep : flight.step w.clock me w.cache = flight.step w'.clock me w'.cache := by
        rw [h.clock_eq, h.cache_eq]
      dsimp only
      rw [hstep, h.isLate_eq]
      split
      · exact .some ⟨.looking gated deadline _ hnext ha, h.withCache _⟩
      · exact .some ⟨.running gated deadline (hnext _ _ (.refl _)), h.withCache _⟩
      · split
        · exact .some hlate
        · exact .none

/-- The time of a lane is counted from one moment. -/
theorem start (h : w.Rewords rel w') (gated : Bool) (allowance : Allowance)
    {p : Program Reply (Except Failure α)} {p' : Program Reply (Except Failure β)}
    (hp : p.Rewords P (Reworded R) p') :
    Lane.Rewords P R (.running gated (allowance.map (w.now + ·)) p)
      (.running gated (allowance.map (w'.now + ·)) p') := by
  rw [h.now_eq]
  exact .running gated _ hp

/-- **Lanes that differ in words of failures alone take one step**, or both none. -/
theorem act (h : w.Rewords rel w') (henv : env.Rewords env' rel) (me : ℕ) {l : Lane α} {l' : Lane β}
    (hl : l.Rewords P R l') : Option.Rel (Abreast rel P R) (w.act me l) (w'.act me l') := by
  cases hl with
  | ready gated allowance hp =>
      cases gated with
      | false => exact .some ⟨h.start false allowance hp, h⟩
      | true =>
          have henter : w.permits.enter me = w'.permits.enter me := by rw [h.permits_eq]
          simp only [World.act]
          rw [henter]
          refine .some ⟨?_, h.withPermits _⟩
          dsimp only
          split
          · exact h.start true allowance hp
          · exact .queued allowance hp
  | queued allowance hp =>
      have hpickUp : w.permits.pickUp me = w'.permits.pickUp me := by rw [h.permits_eq]
      simp only [World.act]
      rw [hpickUp]
      cases w'.permits.pickUp me with
      | none => exact .none
      | some permits => exact .some ⟨h.start true allowance hp, h.withPermits permits⟩
  | running gated deadline hp =>
      cases hp with
      | done hr => exact .some (h.finish gated (.value hr))
      | crash => exact .some (h.finish gated .crashed)
      | @ask q next next' hq hnext =>
          -- A question for an embedding goes to the cache, all others to their collaborators.
          by_cases hembedding : ∃ text, q = .embedding text
          · obtain ⟨text, rfl⟩ := hembedding
            exact .some ⟨.looking gated deadline (Flight.start text) hnext .none, h⟩
          · obtain ⟨hresponse, hworld⟩ := h.respond henv q
            have hne : ∀ text, q ≠ .embedding text := fun text hq => hembedding ⟨text, hq⟩
            rw [World.act_ask w me gated deadline hne, World.act_ask w' me gated deadline hne,
              hresponse.delay_eq, ← hworld.now_eq]
            split
            · exact .some (hworld.resume gated deadline hnext hresponse.outcome)
            · exact .some ⟨.calling gated deadline _ hnext hresponse.outcome, hworld⟩
  | calling gated deadline due hnext ha =>
      have hnow : due ≤ w.now ↔ due ≤ w'.now := by rw [h.now_eq]
      simp only [World.act, hnow, h.isLate_eq]
      split
      · exact .some (h.resume gated deadline hnext ha)
      · split
        · exact .some (h.countTimeout.finish gated .late)
        · exact .none
  | looking gated deadline flight hnext ha =>
      exact h.actLookup henv me gated deadline flight hnext ha
  | ended => exact .none

end Rewords

/-! ### Runs -/

/-- Lanes in a world and lanes in another one, at positions that are equal. -/
def AllAbreast (rel : env.State → env'.State → Prop) (P : Ask → Prop) (R : α → β → Prop)
    (x : ℕ × List (Lane α) × World env) (x' : ℕ × List (Lane β) × World env') : Prop :=
  x.1 = x'.1 ∧ List.Forall₂ (Lane.Rewords P R) x.2.1 x'.2.1 ∧ x.2.2.Rewords rel x'.2.2

/-- A run, without the reasons why it ends. -/
theorem run_eq (limit : Option ℕ) (w : World env) (cursor : ℕ) (ls : List (Lane α)) :
    w.run limit cursor ls =
      match w.turn cursor ls with
      | some (i, ls', w') => w'.run limit i ls'
      | none =>
        match wakesAt ls with
        | none => (ls, w)
        | some t =>
          if limit.any (· < t) then (ls, w)
          else
            match World.turn { w with now := max w.now t } 0 ls with
            | some (i, ls', w') => w'.run limit i ls'
            | none => (ls, { w with now := max w.now t }) := by
  fun_cases run limit w cursor ls with
  | case1 i ls' w' ht => simp only [ht]
  | case2 ht hw => simp only [ht, hw]
  | case3 ht t hw hlimit => simp only [ht, hw, if_pos hlimit]
  | case4 ht t hw hlimit later i ls' w' ht' => simp only [ht, hw, if_neg hlimit, ht', later]
  | case5 ht t hw hlimit later ht' => simp only [ht, hw, if_neg hlimit, ht', later]

/-- All have ended, or not all. -/
theorem endings_rel {ls : List (Lane α)} {ls' : List (Lane β)}
    (hls : List.Forall₂ (Lane.Rewords P R) ls ls') :
    Option.Rel (List.Forall₂ (Ending.Rewords R)) (ls.mapM Lane.ending?)
      (ls'.mapM Lane.ending?) := by
  induction hls with
  | nil => exact .some .nil
  | @cons l l' ls ls' hl _ ih =>
      rw [List.mapM_cons, List.mapM_cons]
      cases hl with
      | ended he =>
          generalize ls.mapM Lane.ending? = es?, ls'.mapM Lane.ending? = es'? at ih ⊢
          cases ih with
          | none => exact .none
          | some hes => exact .some (.cons he hes)
      | _ => exact .none

/-- Two rows of lanes go on at the same time. -/
theorem wakesAt_eq {ls : List (Lane α)} {ls' : List (Lane β)}
    (hls : List.Forall₂ (Lane.Rewords P R) ls ls') : wakesAt ls = wakesAt ls' := by
  have hfound : ls.filterMap Lane.wakesAt = ls'.filterMap Lane.wakesAt := by
    induction hls with
    | nil => rfl
    | cons hl _ ih => rw [List.filterMap_cons, List.filterMap_cons, hl.wakesAt_eq, ih]
  rw [wakesAt, wakesAt, hfound]

namespace Rewords

variable {ls : List (Lane α)} {ls' : List (Lane β)}

/-- The lanes at one place take the same step. -/
theorem actAt (h : w.Rewords rel w') (henv : env.Rewords env' rel)
    (hls : List.Forall₂ (Lane.Rewords P R) ls ls') (i : ℕ) :
    Option.Rel (AllAbreast rel P R) (w.actAt ls i) (w'.actAt ls' i) := by
  have hget := rel_getElem? hls i
  simp only [World.actAt]
  generalize ls[i]? = l?, ls'[i]? = l'? at hget ⊢
  cases hget with
  | none => exact .none
  | @some l l' hl =>
      have hact := h.act henv i hl
      dsimp only
      generalize w.act i l = x?, w'.act i l' = x'? at hact ⊢
      cases hact with
      | none => exact .none
      | some hx => exact .some ⟨rfl, forall₂_set hls hx.1 i, hx.2⟩

/-- **It is the same lane's turn**, or nobody's. -/
theorem turn (h : w.Rewords rel w') (henv : env.Rewords env' rel)
    (hls : List.Forall₂ (Lane.Rewords P R) ls ls') (cursor : ℕ) :
    Option.Rel (AllAbreast rel P R) (w.turn cursor ls) (w'.turn cursor ls') := by
  rw [World.turn, World.turn, hls.length_eq]
  induction turnOrder ls'.length cursor with
  | nil => exact .none
  | cons i rest ih =>
      have hi := h.actAt henv hls i
      rw [List.findSome?_cons, List.findSome?_cons]
      generalize w.actAt ls i = x?, w'.actAt ls' i = x'? at hi ⊢
      cases hi with
      | none => exact ih
      | some hx => exact .some hx

/-- If a lane takes its turn in one world, it does in the other. -/
theorem exists_turn (h : w.Rewords rel w') (henv : env.Rewords env' rel)
    (hls : List.Forall₂ (Lane.Rewords P R) ls ls') {cursor i : ℕ} {ls₁ : List (Lane α)}
    {w₁ : World env} (ht : w.turn cursor ls = some (i, ls₁, w₁)) :
    ∃ ls₁' w₁', w'.turn cursor ls' = some (i, ls₁', w₁') ∧
      List.Forall₂ (Lane.Rewords P R) ls₁ ls₁' ∧ w₁.Rewords rel w₁' := by
  have hturn := h.turn henv hls cursor
  rw [ht] at hturn
  generalize w'.turn cursor ls' = x'? at hturn ⊢
  cases hturn with
  | @some _ x' hx =>
      obtain ⟨j, ls₁', w₁'⟩ := x'
      obtain ⟨rfl, hls₁, hw₁⟩ := hx
      exact ⟨ls₁', w₁', rfl, hls₁, hw₁⟩

/-- If nobody can go on in one world, nobody can in the other. -/
theorem turn_eq_none (h : w.Rewords rel w') (henv : env.Rewords env' rel)
    (hls : List.Forall₂ (Lane.Rewords P R) ls ls') {cursor : ℕ} (ht : w.turn cursor ls = none) :
    w'.turn cursor ls' = none := by
  have hturn := h.turn henv hls cursor
  rw [ht] at hturn
  generalize w'.turn cursor ls' = x'? at hturn ⊢
  cases hturn
  rfl

/-- **Lanes that differ in words of failures alone run alike.** -/
theorem run (h : w.Rewords rel w') (henv : env.Rewords env' rel)
    (hls : List.Forall₂ (Lane.Rewords P R) ls ls') (limit : Option ℕ) (cursor : ℕ) :
    List.Forall₂ (Lane.Rewords P R) (w.run limit cursor ls).1 (w'.run limit cursor ls').1 ∧
      (w.run limit cursor ls).2.Rewords rel (w'.run limit cursor ls').2 := by
  have hlater : ∀ {w : World env} {w' : World env'} (t : ℕ), w.Rewords rel w' →
      Rewords rel { w with now := max w.now t } { w' with now := max w'.now t } := fun t h => by
    rw [h.now_eq]
    exact h.withNow _
  fun_induction World.run limit w cursor ls generalizing w' ls' with
  | case1 w cursor ls i ls₁ w₁ ht ih =>
      obtain ⟨ls₁', w₁', ht', hls₁, hw₁⟩ := h.exists_turn henv hls ht
      rw [run_eq limit w', ht']
      exact ih hw₁ hls₁
  | case2 w cursor ls ht hw =>
      rw [run_eq limit w', h.turn_eq_none henv hls ht, ← wakesAt_eq hls, hw]
      exact ⟨hls, h⟩
  | case3 w cursor ls ht t hw hlimit =>
      rw [run_eq limit w', h.turn_eq_none henv hls ht, ← wakesAt_eq hls, hw]
      dsimp only
      rw [if_pos hlimit]
      exact ⟨hls, h⟩
  | case4 w cursor ls ht t hw hlimit later i ls₁ w₁ ht' =>
      rename_i ih
      obtain ⟨ls₁', w₁', hturn, hls₁, hw₁⟩ := (hlater t h).exists_turn henv hls ht'
      rw [run_eq limit w', h.turn_eq_none henv hls ht, ← wakesAt_eq hls, hw]
      dsimp only
      rw [if_neg hlimit, hturn]
      exact ih hw₁ hls₁
  | case5 w cursor ls ht t hw hlimit later =>
      rename_i ht'
      rw [run_eq limit w', h.turn_eq_none henv hls ht, ← wakesAt_eq hls, hw]
      dsimp only
      rw [if_neg hlimit, (hlater t h).turn_eq_none henv hls ht']
      exact ⟨hls, hlater t h⟩

/-- A lane is dropped in both worlds. -/
theorem abandon (h : w.Rewords rel w') (me : ℕ) {l : Lane α} {l' : Lane β}
    (hl : l.Rewords P R l') : (w.abandon me l).Rewords rel (w'.abandon me l') := by
  cases hl with
  | ready | ended => exact h
  | queued =>
      have hleave : w.permits.leave me = w'.permits.leave me := by rw [h.permits_eq]
      simp only [World.abandon]
      rw [hleave]
      exact h.withPermits _
  | running gated | calling gated => exact h.giveBack gated
  | looking gated deadline flight => exact (h.abandonFlight me flight).giveBack gated

/-- All lanes are dropped in both worlds. -/
theorem abandonAll (h : w.Rewords rel w') (hls : List.Forall₂ (Lane.Rewords P R) ls ls') (i : ℕ) :
    (w.abandonAll i ls).Rewords rel (w'.abandonAll i ls') := by
  induction hls generalizing w w' i with
  | nil => exact h
  | cons hl _ ih => exact ih (h.abandon i hl) (i + 1)

/-- Time runs out in both worlds. -/
theorem runOut (h : w.Rewords rel w') (limit : Option ℕ) :
    (w.runOut limit).Rewords rel (w'.runOut limit) := by
  cases limit with
  | none => exact h
  | some limit =>
      simp only [World.runOut]
      rw [h.now_eq]
      exact (h.withNow _).countTimeout

/-- **Lanes that differ in words of failures alone come to the same**, or are both cut off. -/
theorem join (h : w.Rewords rel w') (henv : env.Rewords env' rel)
    (hls : List.Forall₂ (Lane.Rewords P R) ls ls') (limit : Option ℕ) :
    Option.Rel (List.Forall₂ (Ending.Rewords R)) (w.join limit ls).1 (w'.join limit ls').1 ∧
      (w.join limit ls).2.Rewords rel (w'.join limit ls').2 := by
  obtain ⟨hls, hw⟩ := h.run henv hls limit 0
  have hendings := endings_rel hls
  simp only [World.join]
  generalize (w.run limit 0 ls).1.mapM Lane.ending? = es?,
    (w'.run limit 0 ls').1.mapM Lane.ending? = es'? at hendings ⊢
  cases hendings with
  | none => exact ⟨.none, (hw.runOut limit).abandonAll hls 0⟩
  | some hes => exact ⟨.some hes, hw⟩

/-- An action comes to the same if it makes nothing of words of failures. -/
theorem perform (h : w.Rewords rel w') (henv : env.Rewords env' rel) (limit : Option ℕ)
    {p : Action α} {p' : Action β} (hp : Action.Rewords P R p p') :
    Option.Rel (Ending.Rewords R) (w.perform limit p).1 (w'.perform limit p').1 ∧
      (w.perform limit p).2.Rewords rel (w'.perform limit p').2 := by
  have hlane : Lane.Rewords P R (.running false none p.run) (.running false none p'.run) :=
    .running false none hp.run
  obtain ⟨hendings, hw⟩ := h.join henv (.cons hlane .nil) limit
  refine ⟨?_, hw⟩
  simp only [World.perform]
  generalize (w.join limit [.running false none p.run]).1 = es?,
    (w'.join limit [.running false none p'.run]).1 = es'? at hendings ⊢
  cases hendings with
  | none => exact .none
  | some hes =>
      cases hes with
      | nil => exact .none
      | cons he _ => exact .some he

end Rewords

end World

end Archivist
