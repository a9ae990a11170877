/-!
# Programs

A program asks questions and goes on with the answers. `R q` is the type of answers to the
question `q`; a program is either finished with a value, or asks a question and continues with
whatever the answer may be, or gives up altogether. Who answers, when, and whether several
programs take turns, is not said here: a program is a tree with a branch for each answer, and a
statement about all behaviours of the outside is a statement about all its branches.

Programs form a monad, so they are written in `do` notation. `Program.translate` runs a program
whose questions are answered by another program.
-/

namespace Archivist

/-- A program with questions in `Q`, answers to `q` in `R q`, and a value in `α`. -/
inductive Program {Q : Type} (R : Q → Type) (α : Type) : Type where
  | done (a : α)
  | ask (q : Q) (next : R q → Program R α)
  /-- Gives up; nothing after this point runs. -/
  | crash

namespace Program

variable {Q : Type} {R : Q → Type} {α β : Type}

/-- Goes on with `f` when the program is finished. -/
def bind : Program R α → (α → Program R β) → Program R β
  | done a, f => f a
  | ask q next, f => ask q fun r => bind (next r) f
  | crash, _ => crash

instance : Monad (Program R) where
  pure := done
  bind := bind

/-- Asks one question and returns the answer. -/
def question (q : Q) : Program R (R q) := ask q done

/-- Answers each question by a program. -/
def translate {Q' : Type} {R' : Q' → Type} (answer : (q : Q) → Program R' (R q)) :
    Program R α → Program R' α
  | done a => done a
  | ask q next => bind (answer q) fun r => translate answer (next r)
  | crash => crash

/-- A program that remains after one answer. -/
inductive Next : Program R α → Program R α → Prop where
  | mk (q : Q) (next : R q → Program R α) (r : R q) : Next (next r) (ask q next)

/-- Every program is finished after finitely many answers. -/
theorem acc_next (p : Program R α) : Acc Next p := by
  induction p with
  | done a => exact ⟨_, fun _ h => nomatch h⟩
  | ask q next ih => exact ⟨_, fun _ h => by cases h with | mk _ _ r => exact ih r⟩
  | crash => exact ⟨_, fun _ h => nomatch h⟩

end Program

end Archivist
