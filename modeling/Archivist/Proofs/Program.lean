import Archivist.Collaborator

/-!
# What Programs Ask, and What They Are Told

A program is a tree with a branch for each answer, so a statement about all behaviours of the
outside goes down all branches. `Program.Meets P V` is such a statement: on every branch only
questions of `P` are asked, and the end of the branch is one of `V`. It goes through a program in
the order of its steps (`Program.Meets.bind`, `Action.Meets.bind`). `Program.Asks P` leaves the ends
open. It is what parts of a program share that differ in their values.

The answers that a program gets tell the branch that it takes. `p.Leads xs p'` says that `p'`
remains of `p` after the answers `xs`; if that is a finished program, the answers are a whole trail
through the tree. `m.Yields xs a` says of an action that it has the value `a` after the answers
`xs`, and that it asks no more. The trail of a program consists of the trails of its parts
(`Program.leads_bind_done_iff`, `Action.yields_bind_iff`).
-/

namespace Archivist

namespace Program

variable {Q : Type} {R : Q → Type} {α β : Type} {P P' : Q → Prop}

/-- Whatever the answers are, all questions are of `P`, and the end is one of `V`: a value, or none
if the program gives up. -/
def Meets (P : Q → Prop) (V : Option α → Prop) : Program R α → Prop
  | done a => V (some a)
  | ask q next => P q ∧ ∀ r, Meets P V (next r)
  | crash => V none

/-- Whatever the answers are, all questions are of `P`. -/
def Asks (P : Q → Prop) (p : Program R α) : Prop := p.Meets P fun _ => True

theorem Meets.mono {V V' : Option α → Prop} {p : Program R α} (h : p.Meets P V)
    (hP : ∀ q, P q → P' q) (hV : ∀ o, V o → V' o) : p.Meets P' V' := by
  induction p with
  | done a => exact hV _ h
  | ask q next ih => exact ⟨hP q h.1, fun r => ih r (h.2 r)⟩
  | crash => exact hV _ h

/-- The end of a program if the answer to a question is always the same. -/
def endWith (answer : ∀ q, R q) : Program R α → Option α
  | done a => some a
  | ask q next => endWith answer (next (answer q))
  | crash => none

/-- What a program meets holds of its ending for any answers. -/
theorem Meets.endWith {V : Option α → Prop} {p : Program R α} (h : p.Meets P V)
    (answer : ∀ q, R q) : V (p.endWith answer) := by
  induction p with
  | done a => exact h
  | ask q next ih => exact ih _ (h.2 _)
  | crash => exact h

/-- What follows a program has to meet what is to be met in the end. -/
theorem Meets.bind {V : Option β → Prop} {p : Program R α} {f : α → Program R β}
    (h : p.Meets P fun o => o.elim (V none) fun a => (f a).Meets P V) : (p.bind f).Meets P V := by
  induction p with
  | done a => exact h
  | ask q next ih => exact ⟨h.1, fun r => ih r (h.2 r)⟩
  | crash => exact h

end Program

namespace Action

variable {α β : Type} {P : Ask → Prop} {V : Option (Except Failure β) → Prop}

/-- Whatever the answers are, all questions are of `P`, and the end is one of `V`. -/
def Meets (P : Ask → Prop) (V : Option (Except Failure α) → Prop) (m : Action α) : Prop :=
  Program.Meets P V m.run

/-- Whatever the answers are, all questions are of `P`. -/
def Asks (P : Ask → Prop) (m : Action α) : Prop := Program.Asks P m.run

/-- What follows an action has to meet what is to be met in the end; nothing follows one that
fails. -/
theorem Meets.bind {m : Action α} {f : α → Action β} {V' : Option (Except Failure α) → Prop}
    (hm : m.Meets P V') (hok : ∀ a, V' (some (.ok a)) → (f a).Meets P V)
    (herror : ∀ e, V' (some (.error e)) → V (some (.error e))) (hcrash : V' none → V none) :
    (m >>= f).Meets P V := by
  refine Program.Meets.bind (Program.Meets.mono hm (fun _ => id) fun o ho => ?_)
  rcases o with _ | e | a
  · exact hcrash ho
  · exact herror e ho
  · exact hok a ho

/-- What follows an action that gives a value for sure. -/
theorem Meets.bind_ok {m : Action α} {f : α → Action β}
    (hm : m.Meets P fun o => ∃ a, o = some (.ok a)) (hf : ∀ a, (f a).Meets P V) :
    (m >>= f).Meets P V := by
  refine hm.bind (fun a _ => hf a) ?_ ?_
  · rintro e ⟨a, h⟩
    cases h
  · rintro ⟨a, h⟩
    cases h

/-- An action that does not give up has a value for sure if its failure is part of the value. -/
theorem Meets.caught {m : Action α} (h : m.Meets P (·.isSome)) :
    m.caught.Meets P fun o => ∃ r, o = some (.ok r) := by
  refine Program.Meets.bind (Program.Meets.mono h (fun _ => id) fun o ho => ?_)
  obtain ⟨r, rfl⟩ := Option.isSome_iff_exists.1 ho
  exact ⟨r, rfl⟩

/-- A value meets what is said of it. -/
theorem meets_pure {a : β} (h : V (some (.ok a))) : (pure a : Action β).Meets P V := h

/-- A question meets what is said of all answers. -/
theorem meets_ask {q : Ask} {V : Option (Except Failure q.Value) → Prop} (h : P q)
    (hV : ∀ r, V (some r)) : (ask q).Meets P V :=
  ⟨h, hV⟩

/-- What an action asks is what its program asks. -/
theorem Asks.run {m : Action α} (h : m.Asks P) : Program.Asks P m.run := h

/-- An action asks what its program does. -/
theorem Asks.of_run {m : Action α} (h : Program.Asks P m.run) : m.Asks P := h

/-- A value asks nothing. -/
theorem asks_pure (a : α) : (pure a : Action α).Asks P := trivial

/-- Neither does an outcome that is there. -/
theorem asks_ofExcept (r : Except Failure α) : (ofExcept r).Asks P := trivial

/-- A question asks itself. -/
theorem asks_ask {q : Ask} (h : P q) : (ask q).Asks P := ⟨h, fun _ => trivial⟩

/-- So does a question whose failure is part of the value. -/
theorem asks_attempt {q : Ask} (h : P q) : (attempt q).Asks P := ⟨h, fun _ => trivial⟩

/-- An action in two parts asks what its parts ask. -/
theorem Asks.bind {m : Action α} {f : α → Action β} (hm : m.Asks P) (hf : ∀ a, (f a).Asks P) :
    (m >>= f).Asks P :=
  Meets.bind hm (fun a _ => hf a) (fun _ _ => trivial) id

-- Otherwise Lean runs an action to see what a goal about it unfolds to.
attribute [irreducible] Asks

end Action

/-! ### Trails -/

/-- A question with an answer to it. -/
abbrev Answered {Q : Type} (R : Q → Type) : Type := (q : Q) × R q

namespace Program

variable {Q : Type} {R : Q → Type} {α β : Type} {p p' : Program R α} {xs : List (Answered R)}

/-- What remains of a program after some answers. -/
inductive Leads : Program R α → List (Answered R) → Program R α → Prop where
  | refl (p : Program R α) : Leads p [] p
  | ask (q : Q) (next : R q → Program R α) (r : R q) {xs : List (Answered R)} {p : Program R α}
      (h : Leads (next r) xs p) : Leads (.ask q next) (⟨q, r⟩ :: xs) p

/-- One more answer. -/
theorem Leads.snoc {q : Q} {next : R q → Program R α} (h : p.Leads xs (.ask q next)) (r : R q) :
    p.Leads (xs ++ [⟨q, r⟩]) (next r) := by
  generalize hp : Program.ask q next = p' at h
  induction h with
  | refl p =>
      subst hp
      exact .ask q next r (.refl _)
  | ask q' next' r' _ ih => exact .ask q' next' r' (ih hp)

/-- A program that is done asks nothing more. -/
theorem leads_done_iff {a : α} : (done a).Leads xs p' ↔ xs = [] ∧ p' = done a := by
  constructor
  · rintro ⟨⟩
    exact ⟨rfl, rfl⟩
  · rintro ⟨rfl, rfl⟩
    exact .refl _

/-- What remains of a program takes all further answers as the program does. -/
theorem Leads.append_iff (h : p.Leads xs p') {ys : List (Answered R)} {p'' : Program R α} :
    p.Leads (xs ++ ys) p'' ↔ p'.Leads ys p'' := by
  induction h with
  | refl p => rfl
  | ask q next r _ ih =>
      rw [← ih, List.cons_append]
      constructor
      · rintro ⟨⟩
        assumption
      · exact .ask q next r

/-- What remains of the first part of a program goes on with the second part. -/
theorem Leads.bind (h : p.Leads xs p') (f : α → Program R β) :
    (p.bind f).Leads xs (p'.bind f) := by
  induction h with
  | refl p => exact .refl _
  | ask q next r _ ih => exact .ask q _ r ih

/-- **A program in two parts ends when its second part does.** -/
theorem leads_bind_done_iff {f : α → Program R β} {b : β} :
    (p.bind f).Leads xs (done b) ↔
      ∃ ys zs a, xs = ys ++ zs ∧ p.Leads ys (done a) ∧ (f a).Leads zs (done b) := by
  constructor
  · intro h
    induction p generalizing xs with
    | done a => exact ⟨[], xs, a, rfl, .refl _, h⟩
    | ask q next ih =>
        cases h with
        | ask _ _ r h =>
            obtain ⟨ys, zs, a, rfl, hp, hf⟩ := ih r h
            exact ⟨⟨q, r⟩ :: ys, zs, a, rfl, .ask q next r hp, hf⟩
    | crash => cases h
  · rintro ⟨ys, zs, a, rfl, hp, hf⟩
    generalize hd : done a = p' at hp
    induction hp with
    | refl p =>
        subst hd
        exact hf
    | ask q next r _ ih => exact .ask q _ r (ih hd)

end Program

namespace Action

variable {α β : Type} {xs : List (Answered Reply)}

/-- With these answers, in this order, the action comes to this value. -/
def Yields (m : Action α) (xs : List (Answered Reply)) (a : α) : Prop :=
  m.run.Leads xs (.done (.ok a))

/-- A value is there without answers. -/
theorem yields_pure_iff {a b : α} : (pure a : Action α).Yields xs b ↔ xs = [] ∧ b = a :=
  Program.leads_done_iff.trans
    (and_congr_right fun _ => ⟨fun h => by cases h; rfl, fun h => h ▸ rfl⟩)

/-- So is an outcome that is there. -/
theorem yields_ofExcept_iff {r : Except Failure α} {a : α} :
    (ofExcept r).Yields xs a ↔ xs = [] ∧ r = .ok a :=
  Program.leads_done_iff.trans
    (and_congr_right fun _ => ⟨fun h => (Program.done.inj h).symm, fun h => h ▸ rfl⟩)

/-- A question is answered with its value. -/
theorem yields_ask_iff {q : Ask} {v : q.Value} :
    (ask q).Yields xs v ↔ xs = [⟨q, .ok v⟩] := by
  constructor
  · intro h
    cases h with
    | ask _ _ r h =>
        obtain ⟨rfl, h⟩ := Program.leads_done_iff.1 h
        cases h
        rfl
  · rintro rfl
    exact .ask q _ _ (.refl _)

/-- A question whose failure is part of the value is answered with either. -/
theorem yields_attempt_iff {q : Ask} {r : Reply q} :
    (attempt q).Yields xs r ↔ xs = [⟨q, r⟩] := by
  constructor
  · intro h
    cases h with
    | ask _ _ r h =>
        obtain ⟨rfl, h⟩ := Program.leads_done_iff.1 h
        cases h
        rfl
  · rintro rfl
    exact .ask q _ _ (.refl _)

/-- A failure that is part of the value does not change the trail. -/
theorem yields_caught_iff {m : Action α} {r : Except Failure α} :
    m.caught.Yields xs r ↔ m.run.Leads xs (.done r) := by
  refine Program.leads_bind_done_iff.trans ?_
  constructor
  · rintro ⟨ys, zs, a, rfl, hm, hdone⟩
    obtain ⟨rfl, heq⟩ := Program.leads_done_iff.1 hdone
    cases heq
    rwa [List.append_nil]
  · exact fun h => ⟨xs, [], r, (List.append_nil xs).symm, h, .refl _⟩

/-- An action that asks a question first ends with its failure or goes on with its answer. -/
theorem leads_ask_bind_done_iff {q : Ask} {f : q.Value → Action β} {r : Except Failure β} :
    (ask q >>= f).run.Leads xs (.done r) ↔
      (∃ e, xs = [⟨q, .error e⟩] ∧ r = .error e) ∨
        ∃ v ys, xs = ⟨q, .ok v⟩ :: ys ∧ (f v).run.Leads ys (.done r) := by
  constructor
  · intro h
    cases h with
    | ask _ _ answer h =>
        cases answer with
        | error e =>
            obtain ⟨rfl, heq⟩ := Program.leads_done_iff.1 h
            cases heq
            exact .inl ⟨e, rfl, rfl⟩
        | ok v => exact .inr ⟨v, _, rfl, h⟩
  · rintro (⟨e, rfl, rfl⟩ | ⟨v, ys, rfl, h⟩)
    · exact .ask q _ _ (.refl _)
    · exact .ask q _ _ h

/-- What remains of an action goes on with what follows the action. -/
theorem leads_bind {m m' : Action α} (h : m.run.Leads xs m'.run) (f : α → Action β) :
    (m >>= f).run.Leads xs (m' >>= f).run :=
  h.bind _

/-- **What follows an action goes on with its value and the answers that are left.** -/
theorem yields_bind_iff {m : Action α} {f : α → Action β} {b : β} :
    (m >>= f).Yields xs b ↔ ∃ ys zs a, xs = ys ++ zs ∧ m.Yields ys a ∧ (f a).Yields zs b := by
  refine Program.leads_bind_done_iff.trans ?_
  constructor
  · rintro ⟨ys, zs, e | a, rfl, hm, hf⟩
    · exact absurd (Program.leads_done_iff.1 hf).2 nofun
    · exact ⟨ys, zs, a, rfl, hm, hf⟩
  · rintro ⟨ys, zs, a, rfl, hm, hf⟩
    exact ⟨ys, zs, .ok a, rfl, hm, hf⟩

/-- What only goes on to a value asks nothing more. -/
theorem yields_bind_pure_iff {m : Action α} {g : α → β} {b : β} :
    (m >>= fun a => pure (g a)).Yields xs b ↔ ∃ a, m.Yields xs a ∧ b = g a := by
  rw [yields_bind_iff]
  constructor
  · rintro ⟨ys, zs, a, rfl, hm, hpure⟩
    obtain ⟨rfl, rfl⟩ := yields_pure_iff.1 hpure
    exact ⟨a, by rwa [List.append_nil], rfl⟩
  · rintro ⟨a, hm, rfl⟩
    exact ⟨xs, [], a, (List.append_nil xs).symm, hm, yields_pure_iff.2 ⟨rfl, rfl⟩⟩

end Action

end Archivist
