import Zflow.Core.Model
import Zflow.Lib.Act

/-!
# The sender

The capture and checkpoint state machine of one activation (`src/core/sender.rs`). Every method
gives a wire message or a deadline; a method that takes `&mut self` is an action. A failure keeps
what the method did before it, as the source's does: `capture_motion` ends the activation on an
overflow, and a control message that finds its sequence exhausted has already changed what is held.
-/

namespace Zflow.Core

open Lib

/-- `MAX_PENDING_SNAPSHOTS`. -/
def maxPendingSnapshots : Nat := 64

/-- `MAX_CHECKPOINT_INTERVAL`. -/
def maxCheckpointInterval : Duration := .fromMillis 250

/-- `MAX_RECEIVER_LEASE`. -/
def maxReceiverLease : Duration := .fromMillis 1000

structure SenderConfig where
  checkpointInterval : Duration
  receiverLease : Duration

inductive SenderExitReason where
  | localRelease
  | snapshotAckTimedOut
  | motionOverflow

inductive SenderTick where
  | idle
  | checkpoint (message : ReliableControlMessage)
  /-- The receiver stopped acknowledging. -/
  | exitRemote (reason : SenderExitReason) (message : ReliableControlMessage)

inductive SenderError where
  | invalidCheckpointInterval
  | invalidReceiverLease
  | notRemote
  | alreadyRemote
  | closedActivation
  | invalidTransition
  | clockMovedBackwards
  | sequenceExhausted
  | wrongAckGeneration
  | unknownSnapshotAck
  | pendingSnapshotLimit
  | motionOverflow (error : MotionOverflow)
  deriving DecidableEq

def SenderConfig.validate (c : SenderConfig) : Except SenderError Unit := do
  if c.checkpointInterval.isZero ∨ maxCheckpointInterval.nanos < c.checkpointInterval.nanos then
    throw .invalidCheckpointInterval
  if c.receiverLease.isZero ∨ maxReceiverLease.nanos < c.receiverLease.nanos then
    throw .invalidReceiverLease

structure PendingSnapshot where
  snapshot : StateSnapshot
  ackDeadline : MonotonicTimeMicros

/-- Sender state for one activation. -/
structure Sender where
  config : SenderConfig
  session : SessionContext
  started : Bool
  remote : Bool
  held : HeldState
  totals : CumulativeMotion
  lastControlSequence : ControlSequence
  lastMotionSequence : MotionSequence
  lastObservedTime : MonotonicTimeMicros
  lastSnapshotAt : MonotonicTimeMicros
  dirtySince : Option MonotonicTimeMicros
  pendingSnapshots : Std.ExtTreeMap ControlSequence PendingSnapshot
  lastAcknowledged : Option (ControlSequence × StateSnapshot)

/-- At least one microsecond, and no later than a third. -/
def oneThirdRoundedDown (d : Duration) : Duration :=
  .fromMicros (max (min ((d.asMicros - 1) / 3) u64Max) 1)

namespace Sender

def new (config : SenderConfig) (session : SessionContext) (now : MonotonicTimeMicros) :
    Except SenderError Sender := do
  config.validate
  return {
    config, session
    started := false
    remote := false
    held := .neutral
    totals := .zero
    lastControlSequence := 0
    lastMotionSequence := 0
    lastObservedTime := now
    lastSnapshotAt := now
    dirtySince := none
    pendingSnapshots := ∅
    lastAcknowledged := none }

def requireRemote : Act SenderError Sender Unit := fun s =>
  if s.remote then (.ok (), s) else (.error .notRemote, s)

def observeTime (now : MonotonicTimeMicros) : Act SenderError Sender Unit := fun s =>
  if now < s.lastObservedTime then (.error .clockMovedBackwards, s)
  else (.ok (), { s with lastObservedTime := now })

def beforeControl (now : MonotonicTimeMicros) : Act SenderError Sender Unit := do
  requireRemote
  observeTime now

def nextSequence (last : Nat) : Except SenderError Nat :=
  match checkedAddU64 last 1 with
  | some next => .ok next
  | none => .error .sequenceExhausted

/-- Numbers a payload. -/
def control (payload : ReliableControl) : Act SenderError Sender ReliableControlMessage := do
  let s ← .read
  let sequence ← .lift id (nextSequence s.lastControlSequence)
  .change fun s => { s with lastControlSequence := sequence }
  return { session := s.session, sequence, payload }

def anchor (s : Sender) (now : MonotonicTimeMicros) (kind : AnchorKind) : MotionAnchor where
  activationId := s.session.activationId
  throughMotionSequence := s.lastMotionSequence
  senderCaptureTime := now
  totals := s.totals
  finalTouchState := s.held.activeTouch
  kind := kind

def enter (now : MonotonicTimeMicros) : Act SenderError Sender ReliableControlMessage := do
  observeTime now
  let s ← .read
  if s.remote then .fail .alreadyRemote
  else if s.started then .fail .closedActivation
  else
    .change fun s => { s with
      started := true
      remote := true
      held := .neutral
      totals := .zero
      lastMotionSequence := 0
      lastSnapshotAt := now
      dirtySince := none
      pendingSnapshots := ∅ }
    control .enter

def captureMotion (delta : MotionDelta) (touchSnapshot : Option TouchState)
    (now : MonotonicTimeMicros) : Act SenderError Sender MotionFrame := do
  requireRemote
  observeTime now
  let s ← .read
  match s.totals.checkedAdd delta with
  | .error error =>
    .change fun s => { s with remote := false, held := .neutral }
    .fail (.motionOverflow error)
  | .ok totals =>
    let sequence ← .lift id (nextSequence s.lastMotionSequence)
    .change fun s => { s with
      totals
      lastMotionSequence := sequence
      held := match touchSnapshot with
        | some touch => s.held.replaceTouch touch
        | none => s.held
      dirtySince :=
        if delta ≠ 0 ∨ touchSnapshot.isSome then some (s.dirtySince.getD now) else s.dirtySince }
    return {
      session := s.session
      motionSequence := sequence
      controlWatermark := s.lastControlSequence
      senderCaptureTime := now
      totals
      touchSnapshot }

def keyDown (key : HidUsage) (now : MonotonicTimeMicros) :
    Act SenderError Sender ReliableControlMessage := do
  beforeControl now
  let s ← .read
  if s.held.pressedKeys.contains key then .fail .invalidTransition
  else
    .change fun s => { s with held := s.held.pressKey key }
    control (.keyDown key)

def keyUp (key : HidUsage) (now : MonotonicTimeMicros) :
    Act SenderError Sender ReliableControlMessage := do
  beforeControl now
  let s ← .read
  if !s.held.pressedKeys.contains key then .fail .invalidTransition
  else
    .change fun s => { s with held := s.held.releaseKey key }
    control (.keyUp key)

def buttonDown (button : PointerButton) (now : MonotonicTimeMicros) :
    Act SenderError Sender ReliableControlMessage := do
  beforeControl now
  let s ← .read
  if s.held.pressedButtons.contains button then .fail .invalidTransition
  else
    .change fun s => { s with held := s.held.pressButton button }
    control (.buttonDown button (s.anchor now .checkpoint))

def buttonUp (button : PointerButton) (now : MonotonicTimeMicros) :
    Act SenderError Sender ReliableControlMessage := do
  beforeControl now
  let s ← .read
  if !s.held.pressedButtons.contains button then .fail .invalidTransition
  else
    .change fun s => { s with held := s.held.releaseButton button }
    control (.buttonUp button (s.anchor now .checkpoint))

def touchBegin (initialState : TouchState) (now : MonotonicTimeMicros) :
    Act SenderError Sender ReliableControlMessage := do
  beforeControl now
  let s ← .read
  if !s.held.activeTouch.isEmpty || initialState.isEmpty then .fail .invalidTransition
  else
    .change fun s => { s with held := s.held.replaceTouch initialState }
    control (.touchBegin initialState)

def touchEnd (cancelled : Bool) (now : MonotonicTimeMicros) :
    Act SenderError Sender ReliableControlMessage := do
  beforeControl now
  let s ← .read
  if s.held.activeTouch.isEmpty then .fail .invalidTransition
  else
    .change fun s => { s with held := s.held.clearTouch }
    control (if cancelled then .touchCancel (s.anchor now .checkpoint)
      else .touchEnd (s.anchor now .checkpoint))

def snapshot (now : MonotonicTimeMicros) : Act SenderError Sender ReliableControlMessage := do
  requireRemote
  observeTime now
  let s ← .read
  if maxPendingSnapshots ≤ s.pendingSnapshots.size then .fail .pendingSnapshotLimit
  else
    let snapshot : StateSnapshot := { held := s.held, motionAnchor := s.anchor now .checkpoint }
    let message ← control (.stateSnapshot snapshot)
    .change fun s => { s with
      pendingSnapshots := s.pendingSnapshots.insert message.sequence
        ⟨snapshot, addDuration now s.config.receiverLease⟩
      lastSnapshotAt := now
      dirtySince := none }
    return message

/-- The next instant at which the caller must tick the engine. -/
def nextDeadline (s : Sender) : Option MonotonicTimeMicros :=
  if !s.remote then none
  else
    let periodic := addDuration s.lastSnapshotAt s.config.checkpointInterval
    let dirty := s.dirtySince.map (addDuration · s.config.checkpointInterval)
    let renewal := if !s.held.isNeutral then
        some (addDuration s.lastSnapshotAt (oneThirdRoundedDown s.config.receiverLease))
      else none
    let ackTimeout := (s.pendingSnapshots.toList.map fun entry => entry.2.ackDeadline).min?
    ([some periodic, dirty, renewal, ackTimeout].filterMap id).min?

def tick (now : MonotonicTimeMicros) : Act SenderError Sender SenderTick := do
  requireRemote
  observeTime now
  let s ← .read
  if s.pendingSnapshots.toList.any fun entry => entry.2.ackDeadline ≤ now then
    let close ← control (.sessionClose .leaseExpired none)
    .change fun s => { s with remote := false, held := .neutral, pendingSnapshots := ∅ }
    return .exitRemote .snapshotAckTimedOut close
  else
    let periodicDue : Bool := addDuration s.lastSnapshotAt s.config.checkpointInterval ≤ now
    let dirtyDue := s.dirtySince.any fun since =>
      addDuration since s.config.checkpointInterval ≤ now
    let renewalDue : Bool := !s.held.isNeutral &&
      addDuration s.lastSnapshotAt (oneThirdRoundedDown s.config.receiverLease) ≤ now
    if periodicDue || dirtyDue || renewalDue then
      let message ← snapshot now
      return .checkpoint message
    else return .idle

def acknowledgeSnapshot (ack : SnapshotAck) : Act SenderError Sender Unit := do
  let s ← .read
  if ack.acceptedGeneration ≠ s.session.transportGeneration then .fail .wrongAckGeneration
  else match s.pendingSnapshots[ack.snapshotSequence]? with
    | none =>
      if s.lastAcknowledged.any (ack.snapshotSequence ≤ ·.1) then return ()
      else .fail .unknownSnapshotAck
    | some pending =>
      -- the stream is ordered, so an ack is one for every earlier snapshot too
      .change fun s => { s with
        lastAcknowledged := some (ack.snapshotSequence, pending.snapshot)
        pendingSnapshots := s.pendingSnapshots.filter fun sequence _ =>
          ack.snapshotSequence < sequence }

def leave (reason : SessionCloseReason) (now : MonotonicTimeMicros) :
    Act SenderError Sender ReliableControlMessage := do
  beforeControl now
  let s ← .read
  let message ← control (.sessionClose reason (some (s.anchor now .terminal)))
  .change fun s => { s with remote := false, held := .neutral, pendingSnapshots := ∅ }
  return message

end Sender

end Zflow.Core
