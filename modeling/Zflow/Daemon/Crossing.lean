import Zflow.App.Handoff
import Zflow.Daemon.Policy
import Zflow.Lib.Dialogue

/-!
# Crossings this computer starts

A crossing prepares the other computer's desktop, sends input until the pointer leaves it again, and
puts the pointer back (`src/daemon/crossing.rs`); a hop moves input on to a third computer
(`switch_outbound` of `src/daemon.rs`). The task is a program that asks: each lock, reading of shared
state, request and timer is a `Call`, answered by an oracle. Log lines and the clipboard that goes
along are left out. An activation's epoch and transport generation are its session's, so `beginOutbound`
carries the activation's number alone.
-/

namespace Zflow.Daemon.Crossing

open Lib Desktop App Linux
open Act (ask bail ensure orFail orBail attempt loop)

/-- `ARMING_START`, in milliseconds. -/
def armingStart : Nat := 500

/-- `ARMING_LIMIT`, in milliseconds. -/
def armingLimit : Nat := 400

/-- What `runtime.status()` says. -/
structure RuntimeStatus where
  ownership : OwnershipPhase
  neutral : Bool

inductive Call (P : Type) where
  /-- The crossing lock is free. -/
  | tryLock
  | inboundOwner
  | status
  | snapshot
  | fitOwnTile (geometry : Geometry)
  | localLayout
  | config
  | ensureSession (peer : P)
  /-- The registered sessions, and which of them are closed. -/
  | sessions
  | token
  | desktop (session : SessionId) (request : DesktopRequest)
  | activate (peer : P)
  | warp (point : Point)
  | release (transportLive : Bool)
  | elapsed
  | sleep
  | lockPolicy
  | allocateActivation
  | takeActiveOutbound
  /-- `end_outbound`, and whether it succeeded in time. -/
  | endOutbound (session : SessionId)
  | closeSession (session : SessionId)
  | beginOutbound (session : SessionId) (activation : Nat)
  | setActiveOutbound (peer : P) (session : SessionId)

abbrev Call.Answer (P X : Type) : Call P → Type
  | tryLock => Bool
  | inboundOwner => Option (P × SessionId)
  | status => RuntimeStatus
  | snapshot => DesktopResponse
  | fitOwnTile _ => Unit
  | localLayout => Option X
  | config => Config P
  | ensureSession _ => Except String SessionId
  | sessions => P → Option (SessionId × Bool)
  | token => Except String Nat
  | desktop _ _ => Except String DesktopResponse
  | activate _ => Except String Unit
  | warp _ => DesktopResponse
  | release _ => Except String Unit
  | elapsed => Nat
  | sleep => Unit
  | lockPolicy => Unit
  | allocateActivation => Except String Nat
  | takeActiveOutbound => Option (P × SessionId)
  | endOutbound _ => Bool
  | closeSession _ => Unit
  | beginOutbound _ _ => Except String Unit
  | setActiveOutbound _ _ => Unit

/-- What a crossing asked so far. -/
abbrev Log (P X : Type) : Type := List (Event (Call.Answer P X))

abbrev World (P X : Type) : Type := Oracle (Call.Answer P X)

/-- A part of the crossing that changes no leg. -/
abbrev Task (P X α : Type) : Type := Act (Stop String) (Log P X) α

/-- The computer a crossing's input goes to now: its session, its handoff, and the token that holds its
desktop. -/
structure Leg (P X : Type) where
  session : SessionId
  handoff : Handoff P X
  token : Nat

/-- A crossing under way. -/
structure Way (P X : Type) where
  leg : Leg P X
  log : Log P X

/-- A part that may replace the leg. -/
abbrev Travel (P X α : Type) : Type := Act (Stop String) (Way P X) α

variable {P X : Type}

/-- A task that leaves the leg alone. -/
def Task.along {α : Type} (task : Task P X α) : Travel P X α :=
  Act.on Way.log (fun log way => { way with log }) id task

/-- Runs a part that starts with `leg`; its failure is a value, and the leg it ends with remains. -/
def Travel.startingAt {α : Type} (travel : Travel P X α) (leg : Leg P X) :
    Task P X (Except String α × Leg P X) := fun log =>
  match attempt travel ⟨leg, log⟩ with
  | (.ok result, way) => (.ok (result, way.leg), way.log)
  | (.error stop, way) => (.error stop, way.log)

variable [ToString P] [Landing P X] (world : World P X)

def requireOutboundPermission (config : Config P) (peer : P) (record : PeerConfig) :
    Except String Unit := do
  refuseIf (!config.sharing) "Input sharing is paused"
  refuseIf (!record.permissions.connect) ("peer " ++ toString peer ++ " is not allowed to connect")
  refuseIf (!record.permissions.receiveNormal)
    ("peer " ++ toString peer ++ " is not allowed to receive input")

def requireNotControlled : Task P X Unit := do
  match ← ask world .inboundOwner with
  | some (peer, _) => bail (toString peer ++ " is controlling this computer")
  | none => pure ()

/-- Keeps the routes on to computers this one may send to and has a session with now. -/
def keepReachable (handoff : Handoff P X) : Task P X (Handoff P X) := do
  let config ← ask world .config
  let sessions ← ask world .sessions
  return handoff.keepRoutes fun peer =>
    ((config.peers peer).any fun record =>
        (requireOutboundPermission config peer record).isOk)
      && ((sessions peer).any fun session => !session.2)

/-- Gives this computer's input back to it. An error is only logged. -/
def releaseOwnInput : Task P X Unit := do
  let _ ← ask world (.release true)
  return ()

/-- Ends the other computer's part and checks its answer. -/
def finish (session : SessionId) (token : Nat) : Task P X Unit := do
  orFail (checkFinished (← ask world (.desktop session (.finish token))))

/-- The session input is at leaves it, in time or by its end. -/
def leaveOutbound : Option SessionId → Task P X Unit
  | none => pure ()
  | some left => do
    if ← ask world (.endOutbound left) then pure ()
    else
      let _ ← ask world (.closeSession left)
      return ()

/-- Moves input on to `peer`: Leave where it goes now, then Enter there with a new activation. -/
def switchOutbound (peer : P) : Task P X Unit := do
  let _ ← ask world .lockPolicy
  let config ← ask world .config
  let record ← orBail ("unknown peer " ++ toString peer) (config.peers peer)
  orFail (requireOutboundPermission (← ask world .config) peer record)
  let runtime ← ask world .status
  ensure (runtime.ownership = .remote) "this computer's input is not going anywhere"
  ensure runtime.neutral "a key or button is held"
  let sessions ← ask world .sessions
  let session ← orBail ("peer " ++ toString peer ++ " disconnected") (sessions peer)
  let activation ← orFail (← ask world .allocateActivation)
  let previous ← orBail "input has no computer to move on from" (← ask world .takeActiveOutbound)
  let sessions ← ask world .sessions
  leaveOutbound world (((sessions previous.1).map Prod.fst).filter (· = previous.2))
  match ← ask world (.beginOutbound session.1 activation) with
  | .error error => do
    -- input left and has nowhere to go, so it comes back here
    let _ ← ask world (.release false)
    bail error
  | .ok () => ask world (.setActiveOutbound peer session.1)

/-- Prepares the computer `next` names and sends input there. Answers the leg it left. -/
def hopTo (session : SessionId) (next : Handoff P X) : Travel P X (Leg P X) := do
  let next ← Task.along (keepReachable world next)
  let token ← orFail (← Task.along (ask world .token))
  let prepared ← Task.along (ask world (.desktop session (next.prepare token)))
  let switched ← Task.along (attempt do
    orFail (next.checkPrepared (← orFail prepared))
    switchOutbound world next.peer)
  match switched with
  | .error error => do
    -- whatever Prepare took on that computer goes back
    let _ ← Task.along (ask world (.desktop session (.finish token)))
    bail error
  | .ok () => do
    let way ← Act.read
    Act.change fun way => { way with leg := ⟨session, next, token⟩ }
    return way.leg

/-- A hop to the computer `next` names, if that is connected. -/
def hop (next : Handoff P X) : Travel P X (Leg P X) := do
  let sessions ← Task.along (ask world .sessions)
  let session ← orBail (toString next.peer ++ " is not connected")
    ((sessions next.peer).filter fun session => !session.2)
  hopTo world session.1 next

/-- A hop, after which the computer that was left is let go. Input that cannot move on stays. -/
def moveOn (next : Handoff P X) : Travel P X Unit := do
  match ← attempt (hop world next) with
  | .ok left => do
    let _ ← Task.along (attempt (finish world left.session left.token))
    return ()
  | .error _ => return ()

/-- How far the crossing's own input is: `none` once it is back. -/
def watchOwnership (armed : Bool) : Task P X (Option Bool) := do
  let runtime ← ask world .status
  match runtime.ownership with
  | .idle =>
    if armed then return none
    else
      ensure ((← ask world .elapsed) < armingStart)
        "the crossing did not start arming; check `zflow doctor`"
      return some armed
  | .arming =>
    ensure ((← ask world .elapsed) < armingLimit)
      "a key or button stayed down, so the pointer stays here"
    return some true
  | .remote | .releasing => return some true

/-- What an answer to a poll makes of the crossing: whether it goes on. -/
def followPoll : DesktopResponse → Travel P X Bool
  | .active => do
    let _ ← Task.along (ask world .sleep)
    return true
  | .exited exit_ position => do
    let way ← Act.read
    match ← orFail (way.leg.handoff.next exit_ position) with
    | .home point => do
      let _ ← Task.along (ask world (.warp point))
      Task.along (releaseOwnInput world)
      return false
    | .hop next => do
      let runtime ← Task.along (ask world .status)
      -- a key or button is held: polling on tells that computer the pointer stays
      if !runtime.neutral then return true
      else
        moveOn world next
        return true
  | .unavailable reason => bail ("the other computer ended the crossing: " ++ reason)
  | _ => bail "the other computer answered a poll unexpectedly"

/-- One turn of `until_returned`. -/
def untilReturnedTurn (armed : Bool) : Travel P X (Bool ⊕ Unit) := do
  match ← Task.along (watchOwnership world armed) with
  | none => return .inr ()
  | some armed => do
    let way ← Act.read
    let answer ← Task.along (ask world (.desktop way.leg.session (.poll way.leg.token)))
    if ← followPoll world (← orFail answer) then return .inl armed
    else return .inr ()

/-- Keeps the handoff of the computer input goes to alive until the pointer or the input is back. -/
def untilReturned (fuel : Nat) : Travel P X Unit := loop (untilReturnedTurn world) fuel false

/-- `Result::and`. -/
def resultAnd (result next : Except String Unit) : Except String Unit :=
  match result with
  | .error error => .error error
  | .ok () => next

/-- The one Finish of the leg a crossing ends with. A failure on the way in matters more than one while
cleaning up. -/
def conclude (result : Except String Unit) (leg : Leg P X) : Task P X Unit := do
  let finished ← attempt (finish world leg.session leg.token)
  orFail (resultAnd result finished)

/-- The crossing itself, once input was activated: how it went, and the leg it ended with. -/
def journey (fuel : Nat) (leg : Leg P X) : Task P X (Except String Unit × Leg P X) := do
  let (result, leg) ← (untilReturned world fuel).startingAt leg
  match result with
  | .ok () => return (result, leg)
  | .error _ => do
    -- input must not stay armed or grabbed for a crossing that is over
    releaseOwnInput world
    return (result, leg)

/-- What follows once the handoff is under way. -/
def travel (fuel : Nat) (leg : Leg P X) : Task P X Unit := do
  let prepared ← ask world (.desktop leg.session (leg.handoff.prepare leg.token))
  let entered ← attempt do
    orFail (leg.handoff.checkPrepared (← orFail prepared))
    orFail (← ask world (.activate leg.handoff.peer))
  match entered with
  | .ok () => do
    let (result, leg) ← journey world fuel leg
    conclude world result leg
  | .error error => conclude world (.error error) leg

/-- Where GNOME says the monitors are. -/
def describedGeometry : DesktopResponse → Except String Geometry
  | .snapshot geometry _ => .ok geometry
  | .unavailable reason => .error reason
  | _ => .error "GNOME did not describe this desktop"

/-- A crossing that holds the crossing lock. -/
def crossAlone (fuel : Nat) (monitor : Option String) (edge : Edge) (position : Nat) :
    Task P X Unit := do
  requireNotControlled world
  let runtime ← ask world .status
  ensure (runtime.ownership = .idle) "local input ownership is not idle"
  let geometry ← orFail (describedGeometry (← ask world .snapshot))
  let _ ← ask world (.fitOwnTile geometry)
  let layout ← orBail "no layout places another computer here" (← ask world .localLayout)
  let handoff ← orBail "the layout has no computer at that point of the edge"
    (Landing.fromEdge (P := P) layout geometry monitor edge position)
  let config ← ask world .config
  let record ← orBail ("unknown peer " ++ toString handoff.peer) (config.peers handoff.peer)
  orFail (requireOutboundPermission (← ask world .config) handoff.peer record)
  let session ← orFail (← ask world (.ensureSession handoff.peer))
  let handoff ← keepReachable world handoff
  let token ← orFail (← ask world .token)
  travel world fuel ⟨session, handoff, token⟩

/-- `Shared::cross`: one crossing toward the computer behind `edge`; a push during another is
ignored. -/
def cross (fuel : Nat) (monitor : Option String) (edge : Edge) (position : Nat) :
    Task P X Unit := do
  if ← ask world .tryLock then crossAlone world fuel monitor edge position
  else return ()

end Zflow.Daemon.Crossing
