import Archivist.Proofs.Program
import Mathlib.Data.List.Forall2

/-!
# The Words of Failures

A failure has a cause and perhaps a number, and otherwise texts that may quote anybody. Two failures
that differ in these texts alone have one code and one sentence for the user
(`Failure.Rewords.code_eq`, `Failure.Rewords.userMessage_eq`).

`Program.Rewords P R` relates two programs that ask the same questions, all of them of `P`, as long
as the answers that they are given differ in words of failures alone; their values are related by
`R`. It goes through two programs in the order of their steps (`Action.Rewords.bind`). A program
that is related to itself makes nothing of the words of failures: what it asks and gives does not
depend on them (`Action.Wordless`).
-/

namespace Archivist

namespace Failure

/-- The failure without its texts. -/
def wordless : Failure → Failure
  | badTransition .. => badTransition "" "" ""
  | completion _ => completion ""
  | embedding _ => embedding ""
  | store _ => store ""
  | status code _ => status code ""
  | stream _ => stream ""
  | unsplittable _ => unsplittable ""
  | unknownTool _ => unknownTool ""
  | badArguments .. => badArguments "" ""
  | toolTimeout _ ms => toolTimeout "" ms
  | rateLimited _ ms => rateLimited "" ms
  | turnTimeout ms => turnTimeout ms
  | transport passing _ => transport passing ""
  | malformed _ => malformed ""
  | file _ => file ""
  | config _ => config ""
  | timeout ms => timeout ms
  | other _ => other ""

variable {e e' : Failure}

/-- The code of a failure is not among its texts. -/
@[simp] theorem code_wordless (e : Failure) : e.wordless.code = e.code := by
  cases e <;> rfl

/-- Neither is what a user is told. -/
@[simp] theorem userMessage_wordless (e : Failure) : e.wordless.userMessage = e.userMessage := by
  cases e <;> rfl

/-- Two failures that differ in their texts alone. -/
def Rewords (e e' : Failure) : Prop := e.wordless = e'.wordless

theorem Rewords.refl (e : Failure) : e.Rewords e := rfl

/-- **A code has no words of a failure in it.** -/
theorem Rewords.code_eq (h : e.Rewords e') : e.code = e'.code := by
  rw [← code_wordless, h, code_wordless]

/-- **A user is told no words of a failure.** -/
theorem Rewords.userMessage_eq (h : e.Rewords e') : e.userMessage = e'.userMessage := by
  rw [← userMessage_wordless, h, userMessage_wordless]

end Failure

/-! ### Answers -/

/-- Two outcomes of one kind, with related errors or related values. -/
inductive ExceptRel {ε ε' α β : Type} (E : ε → ε' → Prop) (R : α → β → Prop) :
    Except ε α → Except ε' β → Prop where
  | error {e : ε} {e' : ε'} (h : E e e') : ExceptRel E R (.error e) (.error e')
  | ok {a : α} {b : β} (h : R a b) : ExceptRel E R (.ok a) (.ok b)

/-- Two outcomes that differ in words of failures alone, if `R` says so of values. -/
abbrev Reworded {α β : Type} (R : α → β → Prop) : Except Failure α → Except Failure β → Prop :=
  ExceptRel Failure.Rewords R

theorem Reworded.refl {α : Type} {R : α → α → Prop} (h : ∀ a, R a a) (r : Except Failure α) :
    Reworded R r r := by
  cases r with
  | error e => exact .error (.refl e)
  | ok a => exact .ok (h a)

/-- Two pieces of streams that differ in words of a failure alone. -/
inductive Chunk.Rewords : Chunk → Chunk → Prop where
  | text (text : String) : Rewords (.text text) (.text text)
  | failure {e e' : Failure} (h : e.Rewords e') : Rewords (.failure e) (.failure e')
  | breakdown : Rewords .breakdown .breakdown

theorem Chunk.Rewords.refl (c : Chunk) : c.Rewords c := by
  cases c with
  | text text => exact .text text
  | failure e => exact .failure (.refl e)
  | breakdown => exact .breakdown

/-- Two values that differ in words of failures alone. Only a stream has failures in it. -/
def Ask.Rewords : (q : Ask) → q.Value → q.Value → Prop
  | stream _, chunks, chunks' => List.Forall₂ Chunk.Rewords chunks chunks'
  | _, a, b => a = b

theorem Ask.Rewords.refl (q : Ask) (a : q.Value) : q.Rewords a a := by
  cases q with
  | stream request =>
      change List.Forall₂ Chunk.Rewords a a
      induction (a : List Chunk) with
      | nil => exact .nil
      | cons c cs ih => exact .cons (.refl c) ih
  | _ => rfl

/-- Anything but a stream is the same value. -/
theorem Ask.Rewords.eq {q : Ask} (hq : ∀ request, q ≠ .stream request) {a b : q.Value}
    (h : q.Rewords a b) : a = b := by
  cases q with
  | stream request => exact absurd rfl (hq request)
  | _ => exact h

/-- Two answers that differ in words of failures alone. -/
def Reply.Rewords {q : Ask} (r r' : Reply q) : Prop := Reworded q.Rewords r r'

theorem Reply.Rewords.refl {q : Ask} (r : Reply q) : Reply.Rewords r r :=
  Reworded.refl (Ask.Rewords.refl q) r

/-! ### Programs -/

namespace Program

variable {α β γ δ : Type} {P : Ask → Prop} {R : α → β → Prop} {S : γ → δ → Prop}

/-- Two programs that ask the same, and only questions of `P`, if their answers differ in words of
failures alone; and that end with values related by `R`. -/
inductive Rewords (P : Ask → Prop) (R : α → β → Prop) :
    Program Reply α → Program Reply β → Prop where
  | done {a : α} {b : β} (h : R a b) : Rewords P R (.done a) (.done b)
  | ask {q : Ask} {next : Reply q → Program Reply α} {next' : Reply q → Program Reply β} (hq : P q)
      (h : ∀ r r', Reply.Rewords r r' → Rewords P R (next r) (next' r')) :
      Rewords P R (.ask q next) (.ask q next')
  | crash : Rewords P R .crash .crash

/-- What follows two programs has to be related if their values are. -/
theorem Rewords.bind {p : Program Reply α} {p' : Program Reply β} {f : α → Program Reply γ}
    {f' : β → Program Reply δ} (hp : Rewords P R p p')
    (hf : ∀ a b, R a b → Rewords P S (f a) (f' b)) : Rewords P S (p.bind f) (p'.bind f') := by
  induction hp with
  | done h => exact hf _ _ h
  | ask hq _ ih => exact .ask hq ih
  | crash => exact .crash

/-- Related programs ask questions of `P`. -/
theorem Rewords.asks {p : Program Reply α} {p' : Program Reply β} (hp : Rewords P R p p') :
    p.Asks P := by
  induction hp with
  | done => trivial
  | ask hq _ ih => exact ⟨hq, fun r => ih r r (.refl r)⟩
  | crash => trivial

end Program

namespace Action

variable {α β γ δ : Type} {P : Ask → Prop} {R : α → β → Prop} {S : γ → δ → Prop}

/-- Two actions that ask the same, and only questions of `P`, if their answers differ in words of
failures alone; and that end with failures that differ in words alone or with values related by
`R`. -/
def Rewords (P : Ask → Prop) (R : α → β → Prop) (m : Action α) (m' : Action β) : Prop :=
  Program.Rewords P (Reworded R) m.run m'.run

/-- An action that asks only questions of `P`, and to which words of failures make no difference. -/
abbrev Wordless (P : Ask → Prop) (m : Action α) : Prop := Rewords P Eq m m

/-- What follows two actions has to be related if their values are. -/
theorem Rewords.bind {m : Action α} {m' : Action β} {f : α → Action γ} {f' : β → Action δ}
    (hm : Rewords P R m m') (hf : ∀ a b, R a b → Rewords P S (f a) (f' b)) :
    Rewords P S (m >>= f) (m' >>= f') := by
  refine Program.Rewords.bind hm fun r r' h => ?_
  cases h with
  | error he => exact .done (.error he)
  | ok h => exact hf _ _ h

/-- What follows an action is given one value. -/
theorem Wordless.bind {m : Action α} {f : α → Action γ} {f' : α → Action δ} (hm : m.Wordless P)
    (hf : ∀ a, Rewords P S (f a) (f' a)) : Rewords P S (m >>= f) (m >>= f') :=
  Rewords.bind hm fun a _ h => h ▸ hf a

/-- Values that are related end actions that are. -/
theorem rewords_pure {a : α} {b : β} (h : R a b) : Rewords P R (pure a : Action α) (pure b) :=
  .done (.ok h)

/-- A value is not said in words of a failure. -/
theorem wordless_pure (a : α) : (pure a : Action α).Wordless P := rewords_pure rfl

/-- Neither is a failure of one's own. -/
theorem wordless_throw (e : Failure) : (throw e : Action α).Wordless P := .done (.error (.refl e))

/-- An outcome that is there makes no difference. -/
theorem wordless_ofExcept (r : Except Failure α) : (ofExcept r).Wordless P :=
  .done (.refl (fun _ => rfl) r)

/-- Who gives up says nothing. -/
theorem wordless_crash : Wordless P (ExceptT.mk .crash : Action α) := .crash

/-- To ask is to get answers that differ in words alone. -/
theorem rewords_ask {q : Ask} (h : P q) : Rewords P q.Rewords (ask q) (ask q) :=
  .ask h fun _ _ hr => .done hr

/-- Anything but a stream is answered with the same value. -/
theorem wordless_ask {q : Ask} (h : P q) (hq : ∀ request, q ≠ .stream request) :
    (ask q).Wordless P :=
  .ask h fun _ _ hr => .done (by
    cases hr with
    | error he => exact .error he
    | ok hv => exact .ok (hv.eq hq))

/-- A failure that is part of the value differs in words alone. -/
theorem rewords_attempt {q : Ask} (h : P q) :
    Rewords P (Reply.Rewords (q := q)) (attempt q) (attempt q) :=
  .ask h fun _ _ hr => .done (.ok hr)

/-- A failure that is part of a value is reworded with it. -/
theorem Rewords.caught {m : Action α} {m' : Action β} (h : Rewords P R m m') :
    Rewords P (Reworded R) m.caught m'.caught :=
  Program.Rewords.bind h fun _ _ hr => .done (.ok hr)

/-- What words make no difference to asks what it asks. -/
theorem Wordless.asks {m : Action α} (h : m.Wordless P) : m.Asks P :=
  .of_run (Program.Rewords.asks h)

/-- Two actions are related if their programs are. -/
theorem Rewords.run {m : Action α} {m' : Action β} (h : Rewords P R m m') :
    Program.Rewords P (Reworded R) m.run m'.run := h

-- Otherwise Lean runs an action to see what a goal about it unfolds to.
attribute [irreducible] Rewords

end Action

end Archivist
