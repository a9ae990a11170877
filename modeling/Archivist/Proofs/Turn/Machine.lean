import Archivist.Turn.State
import Mathlib.Data.Finset.Card
import Mathlib.Data.List.Chain
import Mathlib.Data.List.Nodup

/-!
# Ways through a Turn

A turn may be told any events in any order. An event that its state does not allow changes nothing
(`TurnMachine.react`), so what a turn has been through is a way on which each state leads to the
next.

Every state has a rank, and each step but one goes to a higher rank: from a correction the way goes
back to the tools. There is one correction at most, so a way falls into two parts on which ranks go
up (`TurnState.exists_rounds`), and that bounds how often a state is visited.

## Main results

* `TurnMachine.Sound.react`: what each event preserves.
* `TurnMachine.after_bounded`: which ways a turn can take, whatever it is told.
-/

namespace Archivist

namespace TurnState

/-- The steps of a turn, as they are documented. -/
inductive Documented : TurnState → TurnEvent → TurnState → Prop
  | begin : Documented .start .begin .chitchatCheck
  | chitchat : Documented .chitchatCheck .chitchatDetected .chitchatReply
  | retrieval : Documented .chitchatCheck .retrievalNeeded .rateLimitCheck
  | permit : Documented .rateLimitCheck .permitGranted .planning
  | plan : Documented .planning .planReady .toolExecution
  | tools : Documented .toolExecution .toolsFinished .evaluation
  | enough : Documented .evaluation .sufficient .synthesis
  | short : Documented .evaluation .insufficient .replan
  | again : Documented .replan .replanReady .toolExecution
  | uncorrected : Documented .replan .noCorrection .synthesis
  | replied : Documented .chitchatReply .replyComplete .done
  | answered : Documented .synthesis .replyComplete .done
  /-- A turn can fail in every state but the last ones. -/
  | failure {s : TurnState} (h : s.isTerminal = false) : Documented s .failure .error
  | done (e : TurnEvent) : Documented .done e .done
  | error (e : TurnEvent) : Documented .error e .error

/-- A step that is a change leads from one state to another. -/
def Leads (s t : TurnState) : Prop := s ≠ t ∧ ∃ e, Documented s e t

variable {s t : TurnState} {e : TurnEvent} {l : List TurnState}

/-- The table of states is the documented one. -/
theorem next_eq_ok_iff : s.next e = .ok t ↔ Documented s e t := by
  constructor
  · intro h
    cases s <;> cases e <;> cases h <;>
      first | exact .done _ | exact .error _ | exact .failure rfl | constructor
  · intro h
    cases h with
    | failure h => cases s <;> first | rfl | cases h
    | _ => rfl

/-- What is not documented is answered with a failure that says so. -/
theorem next_eq_error (h : ¬ ∃ t, Documented s e t) : s.next e = .error (badStep s e) := by
  cases s <;> cases e <;> first | rfl | exact absurd ⟨_, next_eq_ok_iff.1 rfl⟩ h

/-- Nothing leads out of a last state. -/
theorem next_of_isTerminal (h : s.isTerminal = true) (e : TurnEvent) : s.next e = .ok s := by
  cases s <;> first | rfl | cases h

/-- Only insufficient results lead to a correction. -/
theorem Documented.eq_insufficient (h : Documented s e .replan) : e = .insufficient := by
  cases h
  rfl

/-- No step stays at a correction. -/
theorem Documented.ne_replan (h : Documented s e s) : s ≠ .replan := by
  rintro rfl
  cases h

/-! ### Ranks -/

/-- How far a turn has come. -/
def rank : TurnState → ℕ
  | start => 0
  | chitchatCheck => 1
  | chitchatReply | rateLimitCheck => 2
  | planning => 3
  | toolExecution => 4
  | evaluation => 5
  | replan => 6
  | synthesis => 7
  | done | error => 8

/-- **Only a correction goes back.** -/
theorem Leads.rank_lt (h : Leads s t) (hs : s ≠ .replan) : s.rank < t.rank := by
  obtain ⟨hne, e, h⟩ := h
  cases h with
  | failure h => cases s <;> first | decide | cases h
  | done | error => exact absurd rfl hne
  | again | uncorrected => exact absurd rfl hs
  | _ => decide

/-- A correction goes back to the tools, not further. -/
theorem Leads.of_replan (h : Leads .replan t) : 4 ≤ t.rank := by
  obtain ⟨-, e, h⟩ := h
  cases h <;> decide

/-- There are nine ranks. -/
theorem rank_le (s : TurnState) : s.rank ≤ 8 := by
  cases s <;> decide

/-- The correction has a rank of its own. -/
theorem rank_eq_six (h : s.rank = 6) : s = .replan := by
  cases s <;> first | rfl | cases h

/-- The states between planning and a correction. -/
theorem eq_of_rank (h : 4 ≤ s.rank) (h' : s.rank ≤ 5) : s = .toolExecution ∨ s = .evaluation := by
  cases s <;> simp [rank] at h h' ⊢

/-- As long as nothing comes after a correction, ranks go up. -/
theorem pairwise_rank (h : l.IsChain Leads) (hn : replan ∉ l.dropLast) :
    l.Pairwise (rank · < rank ·) := by
  have hup : (l.map rank).IsChain (· < ·) := by
    rw [List.isChain_map, List.isChain_iff_forall_rel_of_append_cons_cons]
    rintro s t before after rfl
    refine (List.isChain_append_cons_cons.1 h).2.1.rank_lt fun hs => hn ?_
    rw [hs, List.dropLast_append_of_ne_nil (List.cons_ne_nil _ _), List.dropLast_cons_cons]
    exact List.mem_append_right _ List.mem_cons_self
  exact List.pairwise_map.1 hup.pairwise

/-- **A way with a single correction falls into two parts on which ranks go up.** The second, if
there is one, begins behind planning, and the first ends with the correction. -/
theorem exists_rounds (h : l.IsChain Leads) (hn : l.count .replan ≤ 1) :
    ∃ front back, l = front ++ back ∧
      front.Pairwise (rank · < rank ·) ∧ back.Pairwise (rank · < rank ·) ∧
      ∀ t ∈ back, 4 ≤ t.rank ∧ t.rank ≠ 6 ∧ ∀ s ∈ front, s.rank ≤ 6 := by
  by_cases hmem : .replan ∈ l
  · obtain ⟨before, after, rfl, hbefore⟩ := List.eq_append_cons_of_mem hmem
    have hafter : .replan ∉ after := by
      rw [List.count_append, List.count_cons_self] at hn
      exact List.count_eq_zero.1 (by omega)
    obtain ⟨hfront, hback⟩ := List.isChain_split.1 h
    have hup : (before ++ [replan]).Pairwise (rank · < rank ·) :=
      pairwise_rank hfront (by rwa [List.dropLast_concat])
    have hup' : after.Pairwise (rank · < rank ·) :=
      pairwise_rank hback.tail fun hin => hafter (List.mem_of_mem_dropLast hin)
    refine ⟨before ++ [.replan], after, by simp, hup, hup', fun t ht => ⟨?_, ?_, ?_⟩⟩
    · obtain _ | ⟨first, rest⟩ := after
      · cases ht
      · have hfirst : 4 ≤ first.rank := (List.isChain_cons_cons.1 hback).1.of_replan
        obtain rfl | ht := List.mem_cons.1 ht
        · exact hfirst
        · exact hfirst.trans (List.rel_of_pairwise_cons hup' ht).le
    · intro hrank
      exact hafter (rank_eq_six hrank ▸ ht)
    · intro s hs
      obtain hs | hs := List.mem_append.1 hs
      · exact ((List.pairwise_append.1 hup).2.2 s hs _ List.mem_cons_self).le
      · rw [List.mem_singleton.1 hs]
        exact le_refl 6
  · refine ⟨l, [], (List.append_nil l).symm, ?_, .nil, List.forall_mem_nil _⟩
    exact pairwise_rank h fun hin => hmem (List.mem_of_mem_dropLast hin)

/-- A history in which ranks go up has no state twice. -/
theorem count_le_one_of_pairwise (h : l.Pairwise (rank · < rank ·)) (s : TurnState) :
    l.count s ≤ 1 :=
  List.nodup_iff_count_le_one.1 (h.imp fun hlt heq => absurd (congrArg rank heq) hlt.ne) s

/-- **Tools and their judgment are visited twice at most, every other state once.** -/
theorem count_le (h : l.IsChain Leads) (hn : l.count .replan ≤ 1) (s : TurnState) :
    l.count s ≤ if s = .toolExecution ∨ s = .evaluation then 2 else 1 := by
  obtain ⟨front, back, rfl, hfront, hback, hrank⟩ := exists_rounds h hn
  have hfront := count_le_one_of_pairwise hfront s
  have hback := count_le_one_of_pairwise hback s
  rw [List.count_append]
  by_cases hin : s ∈ front ∧ s ∈ back
  · obtain ⟨hlow, hne, hhigh⟩ := hrank s hin.2
    have hle := hhigh s hin.1
    rw [if_pos (eq_of_rank hlow (by omega))]
    omega
  · have hzero : front.count s = 0 ∨ back.count s = 0 := by
      rw [List.count_eq_zero, List.count_eq_zero]
      exact not_and_or.1 hin
    split <;> omega

/-- A history in which ranks go up is no longer than there are ranks. -/
theorem length_le_card (h : l.Pairwise (rank · < rank ·)) {S : Finset ℕ}
    (hS : ∀ s ∈ l, s.rank ∈ S) : l.length ≤ S.card := by
  have hnodup : (l.map rank).Nodup := (List.pairwise_map.2 h).imp ne_of_lt
  rw [← List.length_map rank, ← List.toFinset_card_of_nodup hnodup]
  refine Finset.card_le_card fun n hn => ?_
  obtain ⟨s, hs, rfl⟩ := List.mem_map.1 (List.mem_toFinset.1 hn)
  exact hS s hs

/-- **A way has eleven states at most.** -/
theorem length_le (h : l.IsChain Leads) (hn : l.count .replan ≤ 1) : l.length ≤ 11 := by
  obtain ⟨front, back, rfl, hfront, hback, hrank⟩ := exists_rounds h hn
  obtain _ | ⟨first, rest⟩ := back
  · have hlength : front.length ≤ (Finset.range 9).card :=
      length_le_card hfront fun s _ => Finset.mem_range.2 (Nat.lt_succ_of_le s.rank_le)
    rw [Finset.card_range] at hlength
    rw [List.append_nil]
    omega
  · have hbefore : front.length ≤ (Finset.range 7).card :=
      length_le_card hfront fun s hs =>
        Finset.mem_range.2 (Nat.lt_succ_of_le ((hrank first List.mem_cons_self).2.2 s hs))
    have hafter : (first :: rest).length ≤ ({4, 5, 7, 8} : Finset ℕ).card := by
      refine length_le_card hback fun t ht => ?_
      obtain ⟨hlow, hne, -⟩ := hrank t ht
      have hle := t.rank_le
      simp only [Finset.mem_insert, Finset.mem_singleton]
      omega
    rw [Finset.card_range] at hbefore
    rw [show ({4, 5, 7, 8} : Finset ℕ).card = 4 from rfl] at hafter
    rw [List.length_append]
    omega

/-! ### Gates -/

/-- **Where only a gate leads into some states**, these come after the gate on any way from the
start. -/
theorem mem_of_gate {gate : TurnState} (inside : TurnState → Prop) (hstart : ¬ inside .start)
    (hgate : ∀ s t, Leads s t → inside t → s = gate ∨ inside s) {before after : List TurnState}
    (h : (before ++ t :: after).IsChain Leads)
    (hhead : (before ++ t :: after).head? = some .start) (ht : inside t) : gate ∈ before := by
  induction before using List.reverseRecOn generalizing t after with
  | nil =>
      obtain rfl := Option.some.inj hhead
      exact absurd ht hstart
  | append_singleton before s ih =>
      rw [List.append_assoc] at h hhead
      obtain rfl | hs := hgate s t (List.isChain_append_cons_cons.1 h).2.1 ht
      · exact List.mem_append_right _ List.mem_cons_self
      · exact List.mem_append_left _ (ih h hhead hs)

/-- The answer comes after the results have been judged. -/
theorem evaluation_mem {before after : List TurnState}
    (h : (before ++ .synthesis :: after).IsChain Leads)
    (hhead : (before ++ .synthesis :: after).head? = some .start) : .evaluation ∈ before := by
  refine mem_of_gate (fun s => s = .synthesis ∨ s = .replan) (by decide) ?_ h hhead (.inl rfl)
  rintro s t ⟨-, e, hstep⟩ ht
  cases hstep <;> simp at ht ⊢

/-- Tools run after the plan has been made. -/
theorem planning_mem {before after : List TurnState}
    (h : (before ++ .toolExecution :: after).IsChain Leads)
    (hhead : (before ++ .toolExecution :: after).head? = some .start) : .planning ∈ before := by
  refine mem_of_gate (fun s => s = .toolExecution ∨ s = .evaluation ∨ s = .replan) (by decide) ?_
    h hhead (.inl rfl)
  rintro s t ⟨-, e, hstep⟩ ht
  cases hstep <;> simp at ht ⊢

/-- Tools run after the caller's rate has been checked. -/
theorem rateLimitCheck_mem {before after : List TurnState}
    (h : (before ++ .toolExecution :: after).IsChain Leads)
    (hhead : (before ++ .toolExecution :: after).head? = some .start) :
    .rateLimitCheck ∈ before := by
  refine mem_of_gate
    (fun s => s = .planning ∨ s = .toolExecution ∨ s = .evaluation ∨ s = .replan)
    (by decide) ?_ h hhead (.inr (.inl rfl))
  rintro s t ⟨-, e, hstep⟩ ht
  cases hstep <;> simp at ht ⊢

end TurnState

namespace TurnMachine

open TurnState

variable {m : TurnMachine} {e : TurnEvent}

/-- What an event is answered, and the machine that it leaves. -/
def react (m : TurnMachine) (e : TurnEvent) : Except Failure TurnState × TurnMachine :=
  match m.apply e with
  | .ok m' => (.ok m'.state, m')
  | .error f => (.error f, m)

/-- The machine that events leave, one after the other, whether or not they are allowed. -/
def after (m : TurnMachine) (es : List TurnEvent) : TurnMachine :=
  es.foldl (fun m e => (m.react e).2) m

/-- A machine takes the step that an event has in its state. -/
theorem react_of_next {next : TurnState} (h : m.state.next (m.effective e) = .ok next) :
    m.react e = (.ok next, {
      state := next
      replans := if next = .replan then m.replans + 1 else m.replans
      trace := if next = m.state then m.trace else m.trace ++ [next] }) := by
  simp [react, apply, h, Except.map]

/-- **An event takes a documented step, or nothing changes.** -/
theorem react_cases (m : TurnMachine) (e : TurnEvent) :
    (∃ t, Documented m.state (m.effective e) t ∧ (m.react e).1 = .ok t ∧ (m.react e).2.state = t) ∨
      (¬ ∃ t, Documented m.state (m.effective e) t) ∧
        m.react e = (.error (badStep m.state (m.effective e)), m) := by
  by_cases h : ∃ t, Documented m.state (m.effective e) t
  · obtain ⟨t, ht⟩ := h
    rw [react_of_next (next_eq_ok_iff.2 ht)]
    exact .inl ⟨t, ht, rfl, rfl⟩
  · refine .inr ⟨h, ?_⟩
    simp [react, apply, next_eq_error h, Except.map]

/-- An event for which the state is one of the last changes nothing. -/
theorem react_of_isTerminal (h : m.state.isTerminal = true) (e : TurnEvent) :
    m.react e = (.ok m.state, m) := by
  have hne : m.state ≠ .replan := by
    rintro heq
    rw [heq] at h
    cases h
  rw [react_of_next (next_of_isTerminal h _), if_neg hne, if_pos rfl]

/-- There is a correction only if another one is allowed. -/
theorem canReplan_of_documented (h : Documented m.state (m.effective e) .replan) :
    m.replans < maxReplans := by
  by_contra hspent
  have hcan : m.canReplan = false := decide_eq_false hspent
  -- Without another correction, results that are not sufficient count as sufficient.
  have hne : m.effective e ≠ .insufficient := by
    by_cases he : e = .insufficient <;> simp [effective, hcan, he]
  exact hne h.eq_insufficient

/-- What holds of a machine whatever it has been told: its trace is a way from the start to its
state, and it keeps count of corrections. -/
structure Sound (m : TurnMachine) : Prop where
  replans_eq : m.replans = m.trace.count .replan
  replans_le : m.replans ≤ maxReplans
  head : m.trace.head? = some .start
  last : m.trace.getLast? = some m.state
  chain : m.trace.IsChain Leads

/-- A turn that has not begun is sound. -/
theorem sound_new : Sound {} :=
  ⟨rfl, Nat.zero_le _, rfl, rfl, List.isChain_singleton _⟩

/-- **Every event leaves a sound machine.** -/
theorem Sound.react (h : m.Sound) (e : TurnEvent) : (m.react e).2.Sound := by
  obtain ⟨next, hdoc, -, -⟩ | ⟨-, hsame⟩ := m.react_cases e
  · rw [react_of_next (next_eq_ok_iff.2 hdoc)]
    by_cases hnext : next = m.state
    · have hne : next ≠ .replan := by
        rw [← hnext] at hdoc
        exact hdoc.ne_replan
      refine ⟨?_, ?_, ?_, ?_, ?_⟩ <;> simp only [if_neg hne, if_pos hnext]
      · exact h.replans_eq
      · exact h.replans_le
      · exact h.head
      · rw [h.last, hnext]
      · exact h.chain
    · have hleads : Leads m.state next := ⟨Ne.symm hnext, _, hdoc⟩
      refine ⟨?_, ?_, ?_, ?_, ?_⟩ <;> simp only [if_neg hnext]
      · rw [List.count_append, List.count_singleton, h.replans_eq]
        by_cases hne : next = .replan <;> simp [hne]
      · by_cases hne : next = .replan
        · rw [hne] at hdoc
          rw [if_pos hne]
          exact canReplan_of_documented hdoc
        · rw [if_neg hne]
          exact h.replans_le
      · rw [List.head?_append, h.head]
        rfl
      · exact List.getLast?_concat
      · refine h.chain.append (List.isChain_singleton _) fun s hs t ht => ?_
        rw [h.last] at hs
        cases hs
        cases ht
        exact hleads
  · rwa [hsame]

/-- Whatever happens, a machine stays sound. -/
theorem Sound.after (h : m.Sound) (es : List TurnEvent) : (m.after es).Sound := by
  induction es generalizing m with
  | nil => exact h
  | cons e es ih => exact ih (h.react e)

/-- **Which ways a turn can take.** Whatever a new turn is told, it corrects itself once at most and
keeps count of it. Its trace leads from the start to its state by documented steps, visits the tools
and their judgment twice at most and every other state once, and so has eleven states at most. The
answer comes after a judgment, and tools run after the rate has been checked and a plan made. The
last states take every event and stay; any other event takes a documented step or is answered with a
failure and changes nothing. -/
theorem after_bounded (es : List TurnEvent) :
    let m := after {} es
    (m.replans = m.trace.count .replan ∧ m.replans ≤ 1) ∧
    (m.trace.head? = some .start ∧ m.trace.getLast? = some m.state ∧
      ∀ s t before after, m.trace = before ++ s :: t :: after → s ≠ t ∧ ∃ e, Documented s e t) ∧
    ((∀ s, m.trace.count s ≤ if s = .toolExecution ∨ s = .evaluation then 2 else 1) ∧
      m.trace.length ≤ 11) ∧
    (m.state = .done ∨ m.state = .error → ∀ e, m.react e = (.ok m.state, m)) ∧
    (∀ before after, m.trace = before ++ .synthesis :: after → .evaluation ∈ before) ∧
    (∀ before after, m.trace = before ++ .toolExecution :: after →
      .rateLimitCheck ∈ before ∧ .planning ∈ before) ∧
    ∀ e, (∃ t, Documented m.state (m.effective e) t ∧ (m.react e).1 = .ok t ∧
        (m.react e).2.state = t) ∨
      (¬ ∃ t, Documented m.state (m.effective e) t) ∧
        m.react e = (.error (badStep m.state (m.effective e)), m) := by
  intro m
  have h : m.Sound := sound_new.after es
  have hcount : m.trace.count .replan ≤ 1 := h.replans_eq ▸ h.replans_le
  refine ⟨⟨h.replans_eq, h.replans_le⟩, ⟨h.head, h.last, fun s t before after heq => ?_⟩,
    ⟨count_le h.chain hcount, length_le h.chain hcount⟩, fun hlast => react_of_isTerminal ?_,
    fun before after heq => ?_, fun before after heq => ⟨?_, ?_⟩, m.react_cases⟩
  · exact List.isChain_iff_forall_rel_of_append_cons_cons.1 h.chain heq
  · rcases hlast with heq | heq <;> rw [heq] <;> rfl
  · exact evaluation_mem (heq ▸ h.chain) (heq ▸ h.head)
  · exact rateLimitCheck_mem (heq ▸ h.chain) (heq ▸ h.head)
  · exact planning_mem (heq ▸ h.chain) (heq ▸ h.head)

/-- A turn that finds its results insufficient twice visits eleven states, and what does not fit in
between does not count. -/
example : (after {} [.planReady, .begin, .retrievalNeeded, .permitGranted, .planReady,
    .toolsFinished, .insufficient, .begin, .replanReady, .toolsFinished, .insufficient,
    .replyComplete, .failure]).trace.length = 11 := by
  decide

end TurnMachine

end Archivist
