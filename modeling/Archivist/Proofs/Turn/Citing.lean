import Archivist.Proofs.Answer.Numbering
import Archivist.Proofs.Turn.Course

/-!
# What Turns Cite

A search that gets to its end has asked for its answer last of all, and what it cites is what that
request has shown: one by one, with the same numbers (`Synthesis.Aligned`).

## Main results

* `Assistant.citations_numbered`: the numbers that the language model has seen are those of the
  citations, in all results and at the end of all turns.
-/

namespace Archivist

variable {env : Environment}

/-- Since the session was as `s`, a stream for this request has been asked for last of all. -/
def Desk.HasAskedFor (s : Session env) (request : ChatRequest) (d : Desk env) : Prop :=
  ∃ asked response,
    d.session.world.log = s.world.log ++ asked ++ [⟨.stream request, response⟩]

namespace Assistant

variable {a : Assistant} {r : TurnRequest} {s : Session env} {question : String}

open Step

/-- The request for an answer that relies on some results. -/
def requestFor (a : Assistant) (r : TurnRequest) (question : String) (results : List ToolResult) :
    ChatRequest :=
  Synthesis.request a.context a.planner.historyTurns question r.history results

/-- An answer is told after all else has been asked. -/
theorem ensures_told {d : Desk env} {calls : ℕ} {detour : List Stage} {replans : ℕ}
    (results : List ToolResult) (h : d.At s (.searched detour replans) calls) :
    (do
      enter .synthesis none
      stream (a.requestFor r question results)
      advance .replyComplete
      return results).Ensures d
        (fun found d' => d'.HasAskedFor s (a.requestFor r question found)) fun _ _ => True := by
  refine (h.enter (by decide) none).bind fun _ d₁ h₁ => ?_
  obtain ⟨asked, hasked, -⟩ := h₁.account.asked
  refine Ensures.bind (M := fun _ d' => d'.machine.state = .synthesis ∧
    d'.HasAskedFor s (a.requestFor r question results))
    (ensures_stream fun response w pieces hw => ?_) ?_
  · cases Exchange.ended ⟨.stream (a.requestFor r question results), response⟩ with
    | complete => exact ⟨h₁.state, asked, response, by rw [← hasked]; exact hw.log⟩
    | failed e => trivial
    | brokenDown => trivial
  · rintro ⟨⟩ d₂ ⟨hstate, hcites⟩
    exact Ensures.bind (ensures_replyComplete (P := fun _ d' =>
      d'.HasAskedFor s (a.requestFor r question results)) (.inr hstate) fun _ _ => hcites)
      fun _ _ h => ensures_pure h

/-- **A search that gets to its end has asked for its answer last of all.** -/
theorem ensures_answer_asked (a : Assistant) (r : TurnRequest) (s : Session env)
    (question : String) :
    (a.answer r question).Ensures (Desk.classified s)
      (fun results d' => d'.HasAskedFor s (a.requestFor r question results)) fun _ _ => True := by
  refine Ensures.bind (ensures_advance (P := fun _ d' => d' = Desk.applying s) rfl rfl) ?_
  rintro ⟨⟩ _ rfl
  refine Ensures.bind (M := fun _ d' => ∃ limiter,
    d' = { Desk.applying s with session := { s with limiter } })
    (ensures_takePermit fun granted limiter _ => ?_) ?_
  · cases granted with
    | error e => trivial
    | ok => exact ⟨limiter, rfl⟩
  rintro ⟨⟩ _ ⟨limiter, rfl⟩
  refine Ensures.bind (ensures_advance (P := fun _ d' => d'.At s .admitted 0 ∧
    d'.session.world = s.world) rfl
    ⟨⟨(Desk.account_applying s).congr rfl rfl rfl, rfl, rfl, rfl⟩, rfl⟩) ?_
  rintro ⟨⟩ d₁ ⟨h₁, hw⟩
  refine ensures_get_bind ?_
  rw [hw]
  refine ((ensures_lookInto h₁).mono (fun _ _ h => h) fun _ _ _ => trivial).bind ?_
  rintro results d₂ ⟨detour, -, replans, h₂⟩
  exact ensures_told results h₂

/-- What a turn cites in the end is what its results are cited as. -/
theorem eq_citations_of_done {citations : List Citation} {latency calls : ℕ}
    (h : .done citations latency calls ∈ (a.turn r s).events) :
    ∃ results d, (a.drive r).run.run { session := s } = (.ok results, d) ∧
      citations = Synthesis.citations results ∧ (a.turn r s).session = d.session := by
  obtain ⟨o, d, hr, hd, hend, -⟩ := turn_endsWith a r s
  obtain ⟨_, -, stages, pieces, requests, ha, -⟩ := hd.exists_account
  have he := ha.eq_of_isTerminal (hend.events ▸ h) rfl
  cases o with
  | error e => cases he
  | ok results =>
      cases he
      exact ⟨results, d, hr, rfl, hend.session⟩

/-- **The numbers of citations agree everywhere.** Whatever results there are, the citations are
those of their documents, and a document that the language model is shown with a number is the
citation with this number. A turn that gets to its end has shown the documents of its results in
its last request, and cites these results; small talk cites nothing. -/
theorem citations_numbered (a : Assistant) (r : TurnRequest) (s : Session env) :
    (∀ (c : ContextConfig) (results : List ToolResult), ∃ shown,
      Synthesis.Aligned c results shown) ∧
      ∀ citations latency calls, .done citations latency calls ∈ (a.turn r s).events →
        (r.isSmalltalk = true → citations = []) ∧
          (r.isSmalltalk = false → ∃ results shown, citations = Synthesis.citations results ∧
            Synthesis.Aligned a.context results shown ∧
              (a.turn r s).HasAskedFor s (a.requestFor r (Text.trimmed r.question) results)) := by
  refine ⟨Synthesis.exists_aligned, fun citations latency calls hdone => ?_⟩
  obtain ⟨results, d, hr, rfl, hsession⟩ := eq_citations_of_done hdone
  constructor
  · intro hsmalltalk
    obtain ⟨o, d', hr', hd, -⟩ := turn_endsWith a r s
    rw [hr] at hr'
    cases hr'
    cases hd with
    | chatted _ _ _ => rfl
    | answered hsearch => cases hsmalltalk.symm.trans hsearch
  · intro hsearch
    obtain ⟨shown, hshown⟩ := Synthesis.exists_aligned a.context results
    refine ⟨results, shown, rfl, hshown, ?_⟩
    have hdrive : (a.drive r).Ensures { session := s } (fun results d' =>
        d'.HasAskedFor s (a.requestFor r (Text.trimmed r.question) results)) fun _ _ => True := by
      refine Ensures.bind (ensures_advance (P := fun _ d' =>
        d' = { Desk.classified s with sink := {} }) rfl rfl) ?_
      rintro ⟨⟩ _ rfl
      refine Ensures.bind (ensures_tell (P := fun _ d' => d' = Desk.classified s) rfl) ?_
      rintro ⟨⟩ _ rfl
      rw [TurnRequest.isSmalltalk] at hsearch
      simp only [hsearch]
      exact ensures_answer_asked a r s _
    rw [Desk.HasAskedFor, hsession]
    rcases hdrive.cases with ⟨results', d', hrun, hasked⟩ | ⟨e, d', hrun, -⟩
    · rw [hr] at hrun
      cases hrun
      exact hasked
    · rw [hr] at hrun
      cases hrun

end Assistant

end Archivist
