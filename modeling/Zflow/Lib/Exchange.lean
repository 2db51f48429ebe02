import Zflow.Lib.Replay

/-!
# One request in each direction

Two parties ask each other questions over one connection, and each of them may have one question open. What one side
does is a log of `Exchanged`, and `Exchange` replays it: a question is sent when none is open, an answer is
given to the caller of the open question, and the peer's question is accepted when none of its is open, then
handed to whoever answers it, then replied to. A legal log keeps the questions of each direction apart
(`asked_le`, `accepted_le`) and gives an answer to the caller of the question it answers (`delivered_to_caller`).
-/

namespace Zflow.Lib

/-- What one side of an exchange does. `Caller` is who waits for an answer, and `Note` is what travels beside the
questions. -/
inductive Exchanged (Id Ask Answer Caller Note : Type*) where
  | asked (id : Id) (caller : Caller) (ask : Ask)
  | delivered (id : Id) (caller : Caller) (answer : Answer)
  /-- A caller is turned away. -/
  | refused (caller : Caller) (answer : Answer)
  | accepted (id : Id) (ask : Ask)
  | handedOver (id : Id) (ask : Ask)
  | replied (id : Id) (answer : Answer)
  | passed (note : Note)

/-- The peer's question: it waits, or was handed over. -/
inductive Incoming (Id Ask : Type*) where
  | none
  | waiting (id : Id) (ask : Ask)
  | handed (id : Id)

/-- The questions that are open. -/
structure Exchange (Id Ask Caller : Type*) where
  ours : Option (Id × Caller)
  theirs : Incoming Id Ask

namespace Exchange

variable {Id Ask Answer Caller Note : Type*}

def empty : Exchange Id Ask Caller := ⟨.none, .none⟩

def apply (x : Exchange Id Ask Caller) : Exchanged Id Ask Answer Caller Note → Exchange Id Ask Caller
  | .asked id caller _ => { x with ours := some (id, caller) }
  | .delivered .. => { x with ours := none }
  | .accepted id ask => { x with theirs := .waiting id ask }
  | .handedOver id _ => { x with theirs := .handed id }
  | .replied .. => { x with theirs := .none }
  | .refused .. | .passed _ => x

def Admits (x : Exchange Id Ask Caller) : Exchanged Id Ask Answer Caller Note → Prop
  | .asked .. => x.ours = none
  | .delivered id caller _ => x.ours = some (id, caller)
  | .accepted .. => x.theirs = .none
  | .handedOver id ask => x.theirs = .waiting id ask
  | .replied id _ => x.theirs = .handed id
  | .refused .. | .passed _ => True

def machine : Replay (Exchange Id Ask Caller) (Exchanged Id Ask Answer Caller Note) := ⟨apply, Admits⟩

/-! ## What a legal log says -/

def isAsked : Exchanged Id Ask Answer Caller Note → Bool
  | .asked .. => true
  | _ => false

def isDelivered : Exchanged Id Ask Answer Caller Note → Bool
  | .delivered .. => true
  | _ => false

def isAccepted : Exchanged Id Ask Answer Caller Note → Bool
  | .accepted .. => true
  | _ => false

def isReplied : Exchanged Id Ask Answer Caller Note → Bool
  | .replied .. => true
  | _ => false

/-- The questions of ours that are open. -/
def openOurs (x : Exchange Id Ask Caller) : Nat := if x.ours.isSome then 1 else 0

/-- The questions of theirs that are open. -/
def openTheirs (x : Exchange Id Ask Caller) : Nat :=
  match x.theirs with
  | .none => 0
  | _ => 1

variable {x : Exchange Id Ask Caller} {log : List (Exchanged Id Ask Answer Caller Note)}

/-- What was asked is answered or open. -/
theorem asked_eq (h : machine.Legal x log) :
    log.countP isAsked + x.openOurs = log.countP isDelivered + (machine.run x log).openOurs := by
  refine machine.count_add_level (fun x event hadmits => ?_) h
  cases event with
  | asked id caller ask =>
    have hours : x.ours = none := hadmits
    simp [isAsked, isDelivered, openOurs, machine, apply, hours]
  | delivered id caller answer =>
    have hours : x.ours = some (id, caller) := hadmits
    simp [isAsked, isDelivered, openOurs, machine, apply, hours]
  | _ => rfl

/-- What was accepted is replied to or open. -/
theorem accepted_eq (h : machine.Legal x log) :
    log.countP isAccepted + x.openTheirs = log.countP isReplied + (machine.run x log).openTheirs := by
  refine machine.count_add_level (fun x event hadmits => ?_) h
  cases event with
  | accepted id ask =>
    have htheirs : x.theirs = .none := hadmits
    simp [isAccepted, isReplied, openTheirs, machine, apply, htheirs]
  | handedOver id ask =>
    have htheirs : x.theirs = .waiting id ask := hadmits
    simp [isAccepted, isReplied, openTheirs, machine, apply, htheirs]
  | replied id answer =>
    have htheirs : x.theirs = .handed id := hadmits
    simp [isAccepted, isReplied, openTheirs, machine, apply, htheirs]
  | _ => rfl

theorem openOurs_le (x : Exchange Id Ask Caller) : x.openOurs ≤ 1 := by
  unfold openOurs
  split <;> omega

theorem openTheirs_le (x : Exchange Id Ask Caller) : x.openTheirs ≤ 1 := by
  unfold openTheirs
  split <;> omega

/-- **One question of ours is open at most.** -/
theorem asked_le (h : machine.Legal empty log) : log.countP isAsked ≤ log.countP isDelivered + 1 := by
  have heq := asked_eq h
  have hopen := openOurs_le (machine.run empty log)
  omega

/-- **One question of theirs is open at most.** -/
theorem accepted_le (h : machine.Legal empty log) : log.countP isAccepted ≤ log.countP isReplied + 1 := by
  have heq := accepted_eq h
  have hopen := openTheirs_le (machine.run empty log)
  omega

/-- An open question was the last to be asked. -/
theorem asked_of_ours {id : Id} {caller : Caller} (h : (machine.run x log).ours = some (id, caller)) :
    (x.ours = some (id, caller) ∧ ∀ e ∈ log, isAsked e = false ∧ isDelivered e = false) ∨
      ∃ before ask after, log = before ++ .asked id caller ask :: after ∧
        ∀ e ∈ after, isAsked e = false ∧ isDelivered e = false := by
  induction log generalizing x with
  | nil => exact .inl ⟨h, fun _ hmem => nomatch hmem⟩
  | cons event rest ih =>
    rcases ih h with ⟨hours, hquiet⟩ | ⟨before, ask, after, rfl, hquiet⟩
    · cases event with
      | asked id' caller' ask =>
        cases (show some (id', caller') = some (id, caller) from hours)
        exact .inr ⟨[], ask, rest, rfl, hquiet⟩
      | delivered id' caller' answer => cases (show none = some (id, caller) from hours)
      | _ => exact .inl ⟨hours, List.forall_mem_cons.mpr ⟨⟨rfl, rfl⟩, hquiet⟩⟩
    · exact .inr ⟨event :: before, ask, after, rfl, hquiet⟩

/-- **An answer goes to the caller of the question it answers**, which was the last to be asked and has no answer
yet. -/
theorem delivered_to_caller (h : machine.Legal empty log) {before after : List (Exchanged Id Ask Answer Caller Note)}
    {id : Id} {caller : Caller} {answer : Answer} (hlog : log = before ++ .delivered id caller answer :: after) :
    ∃ earlier ask since, before = earlier ++ .asked id caller ask :: since ∧
      ∀ e ∈ since, isAsked e = false ∧ isDelivered e = false := by
  have hours := (machine.legal_iff_forall_split empty log).mp h before (.delivered id caller answer) after hlog
  rcases asked_of_ours hours with ⟨hempty, -⟩ | hasked
  · cases hempty
  · exact hasked

end Exchange

end Zflow.Lib
