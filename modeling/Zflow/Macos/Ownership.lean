import Zflow.Daemon.Policy
import Zflow.Lib.System

/-!
# Who owns this Mac's input

Input goes one way at a time: out to a peer while this Mac sends, or in from one peer's session while
that peer controls it (`State` and `Ownership` of `src/macos/receive.rs`). A call that succeeds gives a
guard, and dropping the guard gives the input back. `step` is one call or one drop, in any order.

The mutex is held for one call at a time, so a call is one step. Claims are counted without a bound.
-/

namespace Zflow.Macos

open Lib
open Daemon (SessionId)

/-- `SENDING`. -/
def sending : String := "This computer is sending its own input"

/-- `OWNED`. -/
def owned : String := "Another computer owns input"

/-- `HANDOFF_ACTIVE`. -/
def handoffActive : String := "A desktop handoff is already active"

structure Ownership (P : Type) where
  /-- A crossing to a peer holds this Mac's input. -/
  outbound : Bool
  /-- The peer and session controlling this Mac, and the claim that holds it. -/
  inbound : Option (P × SessionId × Nat)
  /-- The peer and session holding a desktop handoff. -/
  lease : Option (P × SessionId)
  claims : Nat

variable {P : Type}

namespace Ownership

def default : Ownership P := ⟨false, none, none, 0⟩

/-- The session whose claim holds this Mac's input. -/
def claimant (state : Ownership P) : Option (P × SessionId) :=
  state.inbound.map fun (peer, session, _) => (peer, session)

section Calls

variable [DecidableEq P]

/-- Another peer or session controls this Mac or holds its desktop. -/
def taken (state : Ownership P) (peer : P) (session : SessionId) : Bool :=
  state.claimant.any (· ≠ (peer, session)) || state.lease.any (· ≠ (peer, session))

def check (state : Ownership P) (peer : P) (session : SessionId) : Except String Unit :=
  if state.outbound then .error sending
  else if state.taken peer session then .error owned
  else .ok ()

def beginOutbound (state : Ownership P) : Option (Ownership P) :=
  if state.outbound || state.inbound.isSome || state.lease.isSome then none
  else some { state with outbound := true }

/-- The same session may claim again, and the newest claim holds the input. -/
def claimInbound (state : Ownership P) (peer : P) (session : SessionId) :
    Except String (Nat × Ownership P) := do
  state.check peer session
  let claim := state.claims + 1
  return (claim, { state with claims := claim, inbound := some (peer, session, claim) })

def beginLease (state : Ownership P) (peer : P) (session : SessionId) :
    Except String (Ownership P) := do
  state.check peer session
  if state.lease.isSome then .error handoffActive
  else return { state with lease := some (peer, session) }

end Calls

/-- `OutboundGuard::drop`. -/
def dropOutbound (state : Ownership P) : Ownership P := { state with outbound := false }

/-- `InboundClaim::drop`. -/
def dropClaim (claim : Nat) (state : Ownership P) : Ownership P :=
  if state.inbound.any (·.2.2 = claim) then { state with inbound := none } else state

/-- `LeaseGuard::drop`. -/
def dropLease (state : Ownership P) : Ownership P := { state with lease := none }

end Ownership

/-! ## Guards -/

inductive Guard where
  | outbound
  | claim (claim : Nat)
  | lease
  deriving DecidableEq

/-- The ownership with the guards that were given out and not dropped yet. -/
structure Guarded (P : Type) where
  ownership : Ownership P
  guards : List Guard

def Ownership.drop (state : Ownership P) : Guard → Ownership P
  | .outbound => state.dropOutbound
  | .claim claim => state.dropClaim claim
  | .lease => state.dropLease

namespace Guarded

def default : Guarded P := ⟨.default, []⟩

def drop (guard : Guard) (g : Guarded P) : Guarded P :=
  ⟨g.ownership.drop guard, g.guards.erase guard⟩

variable [DecidableEq P]

/-- A refused call changes nothing. -/
def beginOutbound (g : Guarded P) : Guarded P :=
  match g.ownership.beginOutbound with
  | some ownership => ⟨ownership, .outbound :: g.guards⟩
  | none => g

def claimInbound (peer : P) (session : SessionId) (g : Guarded P) : Guarded P :=
  match g.ownership.claimInbound peer session with
  | .ok (claim, ownership) => ⟨ownership, .claim claim :: g.guards⟩
  | .error _ => g

def beginLease (peer : P) (session : SessionId) (g : Guarded P) : Guarded P :=
  match g.ownership.beginLease peer session with
  | .ok ownership => ⟨ownership, .lease :: g.guards⟩
  | .error _ => g

end Guarded

inductive GuardStep (P : Type) where
  | beginOutbound
  | claimInbound (peer : P) (session : SessionId)
  | beginLease (peer : P) (session : SessionId)
  | drop (guard : Guard)

/-- One call, or the drop of a guard that is there. -/
def Guarded.step [DecidableEq P] : System (Guarded P) (GuardStep P) := fun label g =>
  match label with
  | .beginOutbound => some g.beginOutbound
  | .claimInbound peer session => some (g.claimInbound peer session)
  | .beginLease peer session => some (g.beginLease peer session)
  | .drop guard => if guard ∈ g.guards then some (g.drop guard) else none

end Zflow.Macos
