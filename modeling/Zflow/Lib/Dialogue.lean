import Zflow.Lib.Act

/-!
# Programs that ask

An asynchronous task asks questions of the rest of the world and waits for each answer: a request, a
reading of shared state, a timer. `ask` is one such question. The task's state keeps the questions it
asked, with their answers; an `Oracle` answers by everything that was asked before, or not yet, which
stops the task where it waits. So a statement about every oracle is one about every moment of every
run of the task.

`attempt` is a Rust block that catches its own `?`, and `loop` a loop without a bound, which waits when
its fuel is out.
-/

namespace Zflow.Lib

/-- Why a task stops: an answer that has not come, or an error of its own. -/
inductive Stop (ε : Type) where
  | waiting
  | failed (error : ε)
  deriving DecidableEq

/-- A question, with its answer where it has come. -/
abbrev Event {Call : Type} (Answer : Call → Type) : Type := (call : Call) × Option (Answer call)

/-- What the world answers, by everything that was asked before. -/
abbrev Oracle {Call : Type} (Answer : Call → Type) : Type :=
  List (Event Answer) → (call : Call) → Option (Answer call)

namespace Act

variable {Call : Type} {Answer : Call → Type} {ε σ τ α β : Type}

def ask (oracle : Oracle Answer) (call : Call) :
    Act (Stop ε) (List (Event Answer)) (Answer call) := fun log =>
  match oracle log call with
  | some answer => (.ok answer, log ++ [⟨call, some answer⟩])
  | none => (.error .waiting, log ++ [⟨call, none⟩])

/-- `bail!`. -/
def bail (error : ε) : Act (Stop ε) σ α := fail (.failed error)

/-- `ensure!`. -/
def ensure (holds : Bool) (error : ε) : Act (Stop ε) σ Unit :=
  if holds then pure () else bail error

/-- `?`. -/
def orFail : Except ε α → Act (Stop ε) σ α
  | .ok a => pure a
  | .error error => bail error

/-- `context(..)?`. -/
def orBail (error : ε) : Option α → Act (Stop ε) σ α
  | some a => pure a
  | none => bail error

/-- A block whose failure is its value. -/
def attempt (x : Act (Stop ε) σ α) : Act (Stop ε) σ (Except ε α) := fun s =>
  match x s with
  | (.ok a, s') => (.ok (.ok a), s')
  | (.error (.failed error), s') => (.ok (.error error), s')
  | (.error .waiting, s') => (.error .waiting, s')

/-- A loop that goes on with a next value or ends with a result. -/
def loop (body : β → Act (Stop ε) σ (β ⊕ α)) : Nat → β → Act (Stop ε) σ α
  | 0, _ => fail .waiting
  | fuel + 1, b => do
    match ← body b with
    | .inl next => loop body fuel next
    | .inr result => pure result

/-! ## Rules -/

variable {E : Stop ε → σ → Prop}

theorem Triple.bail {P : σ → Prop} {error : ε} {Q : α → σ → Prop}
    (h : ∀ s, P s → E (.failed error) s) : Triple P (Act.bail error) Q E := .fail h

theorem Triple.ensure {P : σ → Prop} {holds : Bool} {error : ε} {Q : Unit → σ → Prop}
    (hok : holds = true → ∀ s, P s → Q () s) (herror : holds = false → ∀ s, P s → E (.failed error) s) :
    Triple P (Act.ensure holds error) Q E := by
  cases holds with
  | true => exact .pure (hok rfl)
  | false => exact .bail (herror rfl)

theorem Triple.orFail {P : σ → Prop} {x : Except ε α} {Q : α → σ → Prop} (hok : ∀ a, x = .ok a → ∀ s, P s → Q a s)
    (herror : ∀ error, x = .error error → ∀ s, P s → E (.failed error) s) : Triple P (Act.orFail x) Q E := by
  cases x with
  | ok a => exact .pure (hok a rfl)
  | error error => exact .bail (herror error rfl)

theorem Triple.orBail {P : σ → Prop} {error : ε} {x : Option α} {Q : α → σ → Prop}
    (hok : ∀ a, x = some a → ∀ s, P s → Q a s)
    (herror : ∀ s, P s → E (.failed error) s) : Triple P (Act.orBail error x) Q E := by
  cases x with
  | some a => exact .pure (hok a rfl)
  | none => exact .bail herror

/-- The rule of a question: what holds once it is answered, and while it is not. -/
theorem Triple.ask {oracle : Oracle Answer} {call : Call} {P : List (Event Answer) → Prop}
    {Q : Answer call → List (Event Answer) → Prop} {E : Stop ε → List (Event Answer) → Prop}
    (hanswer : ∀ answer log, P log → Q answer (log ++ [⟨call, some answer⟩]))
    (hwait : ∀ log, P log → E .waiting (log ++ [⟨call, none⟩])) :
    Triple P (Act.ask oracle call) Q E := by
  intro log hlog
  unfold Act.ask
  cases oracle log call with
  | some answer => exact hanswer answer log hlog
  | none => exact hwait log hlog

/-- The rule of a block that keeps its failure as a value. -/
theorem Triple.attempt {P : σ → Prop} {x : Act (Stop ε) σ α} {Q : Except ε α → σ → Prop}
    (hx : Triple P x (fun a => Q (.ok a)) fun stop s => match stop with
      | .failed error => Q (.error error) s
      | .waiting => E .waiting s) : Triple P (Act.attempt x) Q E := by
  intro s hs
  have hrun := hx s hs
  unfold Act.attempt
  cases hr : x s with
  | mk result s' =>
    rw [hr] at hrun
    cases result with
    | ok a => exact hrun
    | error stop => cases stop <;> exact hrun

/-- **The loop rule**: an invariant of the loop's value and the state. -/
theorem Triple.loop {body : β → Act (Stop ε) σ (β ⊕ α)} {I : β → σ → Prop} {Q : α → σ → Prop}
    (hbody : ∀ b, Triple (I b) (body b) (Sum.elim I Q) E) (hwait : ∀ b s, I b s → E .waiting s) (fuel : Nat) (b : β) :
    Triple (I b) (Act.loop body fuel b) Q E := by
  induction fuel generalizing b with
  | zero => exact .fail (hwait b)
  | succ fuel ih =>
    apply Triple.bind (hbody b)
    intro answer
    cases answer with
    | inl next => exact ih next
    | inr result => exact .pure fun _ => id

end Act

end Zflow.Lib
