import Zflow.Lib.System
import Zflow.Runtime.Linux

/-!
# Sessions, and the one that owns the input

The daemon (`src/daemon.rs`) with its sessions: which session is registered under a peer's name, which
one owns the input, and what of their batches reaches the input thread. `step` is one event of an
interleaving: the event loop takes a batch or a `Closed` event, a dial or an accepted connection ends
in the registry, a session's actor (`src/session.rs`) stops, the policy changes.

A session waits for the receipt of each batch, and the loop holds the policy lock until the input
thread has answered, so a batch is one step. The ids of sessions are drawn at random from 64 bits and
are taken as distinct. What a handle's `close` asks for may come at any time: an actor may stop at any
step anyway. `delivered` records what the input thread was handed, and nothing reads it.
-/

namespace Zflow.Daemon

open Zflow.Core Lib Linux InputThread

/-- `LinuxRuntimeControl::send` and `send_critical`, as the queue answers them. A failed wake may leave
the command in the queue. -/
inductive Sent where
  | queued
  | unwoken (taken : Bool)
  | full
  | stopped
  deriving DecidableEq

/-- Whether the input thread gets the command. -/
def Sent.taken : Sent → Bool
  | .queued => true
  | .unwoken taken => taken
  | .full | .stopped => false

/-- What a batch finds outside the daemon's own state. -/
structure Answers where
  /-- The desktop leaves the session its hand-off, or no one has it (`allows_session`). -/
  desktopAllows : Bool
  /-- The phase in the input thread's status. -/
  ownership : OwnershipPhase
  sent : Sent
  /-- The acknowledgement, if there is one, comes within `RUNTIME_ACK_TIMEOUT`. -/
  timely : Bool

structure Shared (P : Type) where
  config : Config P
  identityFingerprint : Fingerprint
  policyGeneration : Nat
  seatGate : SeatGate
  sessions : P → Option SessionId
  /-- When this computer's own dials ended. -/
  dialed : SessionId → Option MonotonicTimeMicros
  inboundOwner : Option (P × SessionId)

/-- Where an actor stands: in its loop, out of it and cleaning up, or gone with its `Closed` event
handled. -/
inductive Stage where
  | running | stopped | ended
  deriving DecidableEq

/-- The task that still has a new session to register. -/
inductive Task where
  | connecting | accepting
  deriving DecidableEq

structure Actor (P : Type) where
  peer : P
  stage : Stage
  task : Option Task
  /-- Its receiver has an activation open, as far as its batches tell. -/
  opened : Bool
  /-- What its handle was closed with. -/
  closing : Option SessionCloseReason

/-- A batch that the input thread was handed. -/
structure Delivery (P : Type) where
  peer : P
  session : SessionId
  /-- The owner at the time. -/
  owner : Option (P × SessionId)
  command : ReceiverCommand
  /-- Every effect reached the devices. -/
  applied : Bool

/-- The daemon, its sessions' actors and the input thread. -/
structure Computer (P D : Type) where
  shared : Shared P
  actors : SessionId → Option (Actor P)
  receiving : Receiving D
  delivered : List (Delivery P)
  stopped : Bool

variable {P D : Type} [DecidableEq P] [VirtualInput D]

namespace Computer

def setActor (session : SessionId) (actor : Actor P) (d : Computer P D) : Computer P D :=
  { d with actors := Function.update d.actors session (some actor) }

def setOwner (owner : Option (P × SessionId)) (d : Computer P D) : Computer P D :=
  { d with shared := { d.shared with inboundOwner := owner } }

def setSession (peer : P) (session : Option SessionId) (d : Computer P D) : Computer P D :=
  { d with shared := { d.shared with sessions := Function.update d.shared.sessions peer session } }

def setDialed (session : SessionId) (at_ : Option MonotonicTimeMicros) (d : Computer P D) :
    Computer P D :=
  { d with shared := { d.shared with dialed := Function.update d.shared.dialed session at_ } }

/-- `SessionHandle::close`. -/
def closeHandle (session : SessionId) (reason : SessionCloseReason) (d : Computer P D) :
    Computer P D :=
  match d.actors session with
  | some actor => d.setActor session { actor with closing := actor.closing.or (some reason) }
  | none => d

def closeSession (peer : P) (session : SessionId) (reason : SessionCloseReason)
    (d : Computer P D) : Computer P D :=
  if d.shared.sessions peer = some session then d.closeHandle session reason else d

/-! ## A batch of receiver effects -/

/-- A batch that opens an activation claims the input first. -/
def openInbound (answers : Answers) (peer : P) (session : SessionId)
    (effects : List ReceiverEffect) (permitted : Bool) (d : Computer P D) : Bool × Computer P D :=
  if !opensActivation effects then (true, d)
  else if !permitted || !answers.desktopAllows then
    (false, d.closeSession peer session .permissionRevoked)
  else if (claimInbound d.shared.inboundOwner peer session permitted answers.ownership).2 then
    (true, d.setOwner
      (claimInbound d.shared.inboundOwner peer session permitted answers.ownership).1)
  else (false, d.closeSession peer session .superseded)

/-- What of a batch goes to the input thread. -/
def command (d : Computer P D) (peer : P) (effects : List ReceiverEffect)
    (touchCapturedAt : CapturedAt) : ReceiverCommand :=
  let admitted := (admittedEffects effects (admitPeer d.shared.config peer d.shared.seatGate)).1
  let record := d.shared.config.peers peer
  { effects := if record.any PeerConfig.reverseScroll then reverseScrolling admitted else admitted
    -- read once per activation, so a change applies at the next one
    keyboard :=
      if opensActivation effects then some ((record.map PeerConfig.keyboard).getD .standard)
      else none
    touchCapturedAt }

/-- The input thread takes a batch off its queue. -/
def handOver (peer : P) (session : SessionId) (command : ReceiverCommand) (d : Computer P D) :
    Computer P D :=
  { d with
    receiving := (d.receiving.handle command).2
    delivered := d.delivered ++
      [⟨peer, session, d.shared.inboundOwner, command, (d.receiving.handle command).1⟩] }

/-- Sends a batch and waits until it is applied: whether it was rejected. Releases must get through,
so where they cannot the daemon ends. -/
def deliver (answers : Answers) (peer : P) (session : SessionId) (command : ReceiverCommand)
    (d : Computer P D) : Except String Bool × Computer P D :=
  if command.effects = [] then (.ok false, d)
  else
    let safetyRelease := command.effects.all isSafetyRelease
    let after := if answers.sent.taken then d.handOver peer session command else d
    if answers.sent ≠ .queued then
      if safetyRelease then
        (.error "runtime backpressure prevented authoritative receiver cleanup", after)
      else (.ok true, after)
    else if !answers.timely then
      (.error "Linux input runtime did not apply receiver effects", after)
    else if (d.receiving.handle command).1 then (.ok false, after)
    else if safetyRelease then
      (.error "runtime did not acknowledge authoritative receiver cleanup", after)
    else (.ok true, after)

/-- A session that owns the input gives it back. -/
def releaseInbound (peer : P) (session : SessionId) (d : Computer P D) : Computer P D :=
  if d.shared.inboundOwner = some (peer, session) then d.setOwner none else d

/-- A batch that leaves its activation closed gives the input back. -/
def yieldInbound (peer : P) (session : SessionId) (effects : List ReceiverEffect)
    (d : Computer P D) : Computer P D :=
  if endsClosed effects then d.releaseInbound peer session else d

/-- Whether the batch was applied in full; an error ends the daemon. -/
def routeReceiverEffects (answers : Answers) (peer : P) (session : SessionId)
    (effects : List ReceiverEffect) (touchCapturedAt : CapturedAt) (d : Computer P D) :
    Except String Bool × Computer P D :=
  if d.shared.sessions peer ≠ some session then (.ok false, d)
  else
    let admission := admitPeer d.shared.config peer d.shared.seatGate
    let claimed := d.openInbound answers peer session effects (admission ≠ .refuse)
    if !claimed.1 then (.ok false, claimed.2)
    else match claimed.2.deliver answers peer session (d.command peer effects touchCapturedAt) with
      | (.error error, after) => (.error error, after)
      | (.ok refused, after) =>
        let after := after.yieldInbound peer session effects
        if (admittedEffects effects admission).2 || refused then
          (.ok false, after.closeSession peer session .permissionRevoked)
        else (.ok true, after)

/-! ## The registry -/

/-- What the end of a dial comes to. -/
inductive Dialed where
  | revoked
  | keeps (existing : SessionId)
  | replaces (existing : SessionId)
  | registers

/-- The checks at the end of `connect`. `record` and `generation` are what the dial started from.
Where a session is there already, either this computer dialed twice at once, or the peer dialed while
this computer did. -/
def dialEnds (peer : P) (record : PeerConfig) (generation : Nat) (d : Computer P D) : Dialed :=
  if d.shared.policyGeneration ≠ generation ∨ d.shared.config.peers peer ≠ some record ∨
      !outboundPermitted d.shared.config record then .revoked
  else match d.shared.sessions peer with
    | none => .registers
    | some existing =>
      if (d.shared.dialed existing).isSome ||
          !winsDial d.shared.config d.shared.identityFingerprint peer then .keeps existing
      else .replaces existing

/-- The end of `Shared::connect`. -/
def connect (peer : P) (session : SessionId) (record : PeerConfig) (generation : Nat)
    (now : MonotonicTimeMicros) (d : Computer P D) : Computer P D :=
  match d.dialEnds peer record generation with
  | .revoked => d.closeHandle session .permissionRevoked
  | .keeps _ => d.closeHandle session .superseded
  | .replaces existing =>
    ((d.closeHandle existing .superseded).setSession peer (some session)).setDialed session
      (some now)
  | .registers => (d.setSession peer (some session)).setDialed session (some now)

/-- Whether this computer's own dial to `peer` just finished and wins over a connection the peer
dialed at the same moment. -/
def keepsOwnDial (peer : P) (now : MonotonicTimeMicros) (d : Computer P D) : Bool :=
  Zflow.Daemon.keepsOwnDial ((d.shared.sessions peer).bind d.shared.dialed) now &&
    winsDial d.shared.config d.shared.identityFingerprint peer

/-- A round of the loop at the end of `accept_connection`: whether the task is done. `known` is
whether the peer's key still has its name, `closed` what the session's `is_closed` answers. -/
def accept (peer : P) (session : SessionId) (generation : Nat) (known closed : Bool)
    (now : MonotonicTimeMicros) (d : Computer P D) : Bool × Computer P D :=
  if d.shared.policyGeneration ≠ generation ∨ !known then
    (true, d.closeHandle session .permissionRevoked)
  else if closed then (true, d)
  else match d.shared.sessions peer with
    | none => (true, d.setSession peer (some session))
    | some old =>
      if d.keepsOwnDial peer now then (true, d.closeHandle session .superseded)
      else (false, d.closeHandle old .superseded)

/-- A round of `retire_session`. -/
def retire (peer : P) (d : Computer P D) : Computer P D :=
  match d.shared.sessions peer with
  | some old => d.closeHandle old .superseded
  | none => d

def removeSessionIfCurrent (peer : P) (session : SessionId) (d : Computer P D) : Computer P D :=
  if d.shared.sessions peer = some session then d.setSession peer none else d

/-- `handle_session_event` of a `Closed` event. -/
def closed (peer : P) (session : SessionId) (d : Computer P D) : Computer P D :=
  ((d.removeSessionIfCurrent peer session).setDialed session none).releaseInbound peer session

end Computer

/-! ## The system -/

/-- What an effect of a session's batch makes of its activation. Only an open activation injects, and
only an open one is closed. Acknowledgements and rejections never go in a batch. -/
def activationNext (opened : Bool) : ReceiverEffect → Option Bool
  | .activationOpened _ => if opened then none else some true
  | .activationClosed .. => if opened then some false else none
  | .snapshotAck .. | .rejected .. => none
  | _ => if opened then some true else none

def activationAfter (opened : Bool) (effects : List ReceiverEffect) : Option Bool :=
  effects.foldlM activationNext opened

inductive Step (P : Type) where
  /-- The configuration or the seat changes. -/
  | policy (config : Config P) (generation : Nat) (seatGate : SeatGate)
  /-- `start_session`, in the task that will register it. -/
  | start (peer : P) (session : SessionId) (task : Task)
  /-- A running session's batch. -/
  | batch (session : SessionId) (effects : List ReceiverEffect) (touchCapturedAt : CapturedAt)
    (answers : Answers)
  /-- An actor leaves its loop. Where its last step failed before its batch was sent, its receiver's
  activation is not what its batches tell. -/
  | stop (session : SessionId) (opened : Bool)
  /-- The batch of `Inbound::close`. -/
  | cleanup (session : SessionId) (effects : List ReceiverEffect) (answers : Answers)
  | closed (session : SessionId)
  | connect (session : SessionId) (record : PeerConfig) (generation : Nat)
    (now : MonotonicTimeMicros)
  | accept (session : SessionId) (generation : Nat) (known closed : Bool)
    (now : MonotonicTimeMicros)
  | retire (peer : P)

namespace Computer

/-- What a session makes of the answer to its batch: a refused one stops it. -/
def answered (session : SessionId) (actor : Actor P) (opened : Bool) :
    Except String Bool × Computer P D → Computer P D
  | (.error _, d) => { d with stopped := true }
  | (.ok accepted, d) =>
    d.setActor session
      { d.actors session |>.getD actor with
        opened, stage := if accepted then actor.stage else .stopped }

/-- A task that is done lets go of its session. -/
def letGo (session : SessionId) (actor : Actor P) : Bool × Computer P D → Computer P D
  | (true, d) => d.setActor session { (d.actors session).getD actor with task := none }
  | (false, d) => d

def isActivationClosed : ReceiverEffect → Bool
  | .activationClosed .. => true
  | _ => false

def step : System (Computer P D) (Step P) := fun label d =>
  if d.stopped then none
  else match label with
    | .policy config generation seatGate =>
      some { d with shared := { d.shared with config, policyGeneration := generation, seatGate } }
    | .start peer session task =>
      if d.actors session = none then
        some (d.setActor session ⟨peer, .running, some task, false, none⟩)
      else none
    | .batch session effects touchCapturedAt answers => do
      let actor ← d.actors session
      let opened ← activationAfter actor.opened effects
      if actor.stage = .running ∧ effects ≠ [] ∧ (opensActivation effects → opened) then
        some ((d.routeReceiverEffects answers actor.peer session effects touchCapturedAt)
          |> answered session actor opened)
      else none
    | .stop session opened => do
      let actor ← d.actors session
      if actor.stage = .running then
        some (d.setActor session { actor with stage := .stopped, opened })
      else none
    | .cleanup session effects answers => do
      let actor ← d.actors session
      if actor.stage = .stopped ∧ actor.opened ∧ effects.all isSafetyRelease ∧
          effects.any isActivationClosed then
        some ((d.routeReceiverEffects answers actor.peer session effects none)
          |> answered session actor false)
      else none
    | .closed session => do
      let actor ← d.actors session
      if actor.stage = .stopped ∧ !actor.opened then
        some ((d.closed actor.peer session).setActor session { actor with stage := .ended })
      else none
    | .connect session record generation now => do
      let actor ← d.actors session
      if actor.task = some .connecting then
        some ((d.setActor session { actor with task := none }).connect actor.peer session record
          generation now)
      else none
    | .accept session generation known closed now => do
      let actor ← d.actors session
      if actor.task = some .accepting ∧ (actor.stage = .ended → closed) ∧
          (closed → actor.stage ≠ .running) then
        some ((d.accept actor.peer session generation known closed now) |> letGo session actor)
      else none
    | .retire peer => some (d.retire peer)

/-- A daemon that has just started. -/
def start (config : Config P) (identityFingerprint : Fingerprint) (seatGate : SeatGate)
    (devices : D) : Computer P D where
  shared :=
    { config, identityFingerprint, policyGeneration := 0, seatGate
      sessions := fun _ => none
      dialed := fun _ => none
      inboundOwner := none }
  actors := fun _ => none
  receiving := ⟨devices, .standard, false⟩
  delivered := []
  stopped := false

end Computer

end Zflow.Daemon
