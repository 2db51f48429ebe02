import Zflow.Core.Model
import Zflow.Lib.Act

/-!
# The receiver

The receiver's ordering, reconciliation and failure recovery (`src/core/receiver.rs`): one
`Receiver` serves one connection, takes control messages and playout steps, and answers with the
effects a backend applies. A method that takes `&mut self` and may fail is an action
(`Lib.Act`); one that only adds effects is a function to the effects and the next state.

`receive_control` is cut where the source's early returns are: what precedes the ordering checks
(`receiveControl`), the checks (`orderControl`), the anchor (`anchorControl`) and the payload
(`acceptControl`).
-/

namespace Zflow.Core

open Lib

/-- `MAX_HELD_STATE_LEASE`: one second. -/
def maxHeldStateLease : Duration := .fromMillis 1000

structure ReceiverConfig where
  heldStateLease : Duration
  deriving DecidableEq

inductive RejectionReason where
  | closedActivation
  | staleActivation
  | noOpenActivation
  | duplicateControl
  | controlGap
  | duplicateOrReorderedMotion
  | anchorActivationMismatch
  | anchorMovedBackwards
  | invalidTransition
  | wrongDirection
  deriving DecidableEq

inductive ReceiverEffect where
  | activationOpened (session : SessionContext)
  | motion (delta : MotionDelta) (throughSequence : MotionSequence)
  | key (key : HidUsage) (pressed synthetic : Bool)
  | button (button : PointerButton) (pressed synthetic : Bool)
  | touchReplaced (state : TouchState) (synthetic : Bool)
  | snapshotAck (session : SessionContext) (ack : SnapshotAck)
  | activationClosed (session : SessionContext) (reason : SessionCloseReason)
  | rejected (session : SessionContext) (reason : RejectionReason)
  deriving DecidableEq

/-- True only for an effect that a platform input backend must apply. -/
def ReceiverEffect.isInjection : ReceiverEffect → Bool
  | .motion .. | .key .. | .button .. | .touchReplaced .. => true
  | _ => false

inductive ReceiverError where
  | invalidLease
  | clockMovedBackwards
  | contextChanged
  deriving DecidableEq

def ReceiverConfig.new (heldStateLease : Duration) : Except ReceiverError ReceiverConfig :=
  if heldStateLease.isZero ∨ maxHeldStateLease.nanos < heldStateLease.nanos then
    .error .invalidLease
  else .ok { heldStateLease }

structure ActivationState where
  session : SessionContext
  lastControlSequence : ControlSequence
  held : HeldState
  lastInjectedMotion : MotionSequence
  injectedTotals : CumulativeMotion
  leaseDeadline : Option MonotonicTimeMicros
  deriving DecidableEq

def ActivationState.new (session : SessionContext) : ActivationState where
  session := session
  lastControlSequence := 0
  held := .neutral
  lastInjectedMotion := 0
  injectedTotals := .zero
  leaseDeadline := none

structure Receiver where
  config : ReceiverConfig
  /-- Taken from the first control message. One connection carries one. -/
  context : Option (SessionEpoch × TransportGeneration)
  highestActivation : Option ActivationId
  activation : Option ActivationState
  lastObservedTime : MonotonicTimeMicros
  deriving DecidableEq

def Receiver.new (config : ReceiverConfig) (now : MonotonicTimeMicros) :
    Except ReceiverError Receiver := do
  let config ← ReceiverConfig.new config.heldStateLease
  return { config, context := none, highestActivation := none, activation := none,
           lastObservedTime := now }

/-! ## The pieces of a step -/

/-- A stable sort by a Boolean key: `false` before `true`, the order within each kept. -/
def sortByKey {α : Type} (key : α → Bool) (xs : List α) : List α :=
  xs.filter (fun x => !key x) ++ xs.filter key

def isModifier (key : HidUsage) : Bool :=
  key.page == HidUsage.keyboardKeypad && 0xe0 ≤ key.usage && key.usage ≤ 0xe7

def refreshLease (state : ActivationState) (now : MonotonicTimeMicros) (lease : Duration) :
    ActivationState :=
  { state with
    leaseDeadline := if state.held.isNeutral then none else some (addDuration now lease) }

/-- Brings the held state to `authoritative` by difference. Modifiers go down first and come up
last. -/
def reconcileHeld (state : ActivationState) (authoritative : HeldState) :
    List ReceiverEffect × ActivationState :=
  let released :=
    sortByKey isModifier (state.held.pressedKeys \ authoritative.pressedKeys).toList
  let held := released.foldl HeldState.releaseKey state.held
  let pressed :=
    sortByKey (fun key => !isModifier key) (authoritative.pressedKeys \ held.pressedKeys).toList
  let held := pressed.foldl HeldState.pressKey held
  let releasedButtons := (held.pressedButtons \ authoritative.pressedButtons).toList
  let held := releasedButtons.foldl HeldState.releaseButton held
  let pressedButtons := (authoritative.pressedButtons \ held.pressedButtons).toList
  let held := pressedButtons.foldl HeldState.pressButton held
  let edges := released.map (.key · false true) ++ pressed.map (.key · true true)
    ++ releasedButtons.map (.button · false true) ++ pressedButtons.map (.button · true true)
  if held.activeTouch ≠ authoritative.activeTouch then
    (edges ++ [.touchReplaced authoritative.activeTouch true],
      { state with held := held.replaceTouch authoritative.activeTouch })
  else (edges, { state with held })

def releaseAll (state : ActivationState) : List ReceiverEffect × ActivationState :=
  let (effects, state) := reconcileHeld state .neutral
  (effects, { state with leaseDeadline := none })

def sequenceRejection (previous received : ControlSequence) : Option RejectionReason :=
  if received ≤ previous then some .duplicateControl
  else if checkedAddU64 previous 1 ≠ some received then some .controlGap
  else none

inductive AnchorFailure where
  | rejected (reason : RejectionReason)
  | motionOverflow

def validateAnchor (state : ActivationState) (anchor : MotionAnchor) :
    Except AnchorFailure MotionDelta :=
  if anchor.activationId ≠ state.session.activationId then
    .error (.rejected .anchorActivationMismatch)
  else if anchor.throughMotionSequence < state.lastInjectedMotion then
    .error (.rejected .anchorMovedBackwards)
  else (anchor.totals.checkedDeltaFrom state.injectedTotals).mapError fun _ => .motionOverflow

def applyAnchor (state : ActivationState) (anchor : MotionAnchor) (delta : MotionDelta) :
    List ReceiverEffect × ActivationState :=
  let state := { state with
    lastInjectedMotion := anchor.throughMotionSequence, injectedTotals := anchor.totals }
  let motion : List ReceiverEffect :=
    if delta ≠ 0 then [.motion delta anchor.throughMotionSequence] else []
  if state.held.activeTouch ≠ anchor.finalTouchState then
    (motion ++ [.touchReplaced anchor.finalTouchState true],
      { state with held := state.held.replaceTouch anchor.finalTouchState })
  else (motion, state)

/-- The anchor of a payload, if it carries one and it was found good. -/
def applyAnchorOf (state : ActivationState) (payload : ReliableControl)
    (anchorDelta : Option MotionDelta) : List ReceiverEffect × ActivationState :=
  match payload.motionAnchor, anchorDelta with
  | some anchor, some delta => applyAnchor state anchor delta
  | _, _ => ([], state)

/-- The `match` on the payload: what it does to the held state, and its own effects. -/
def applyPayload (state : ActivationState) (message : ReliableControlMessage) :
    List ReceiverEffect × ActivationState :=
  match message.payload with
  | .keyDown key => ([.key key true false], { state with held := state.held.pressKey key })
  | .keyUp key => ([.key key false false], { state with held := state.held.releaseKey key })
  | .buttonDown button _ =>
    ([.button button true false], { state with held := state.held.pressButton button })
  | .buttonUp button _ =>
    ([.button button false false], { state with held := state.held.releaseButton button })
  | .touchBegin initialState =>
    ([.touchReplaced initialState false],
      { state with held := state.held.replaceTouch initialState })
  | .touchEnd _ | .touchCancel _ =>
    ([.touchReplaced ∅ false], { state with held := state.held.clearTouch })
  | .stateSnapshot snapshot =>
    let (edges, state) := reconcileHeld state snapshot.held
    (edges ++ [.snapshotAck state.session
      ⟨message.sequence, state.session.transportGeneration⟩], state)
  | .sessionClose .. | .snapshotAck _ | .enter => ([], state)

/-- The anchor is applied, then the payload, and only then do the sequence and the lease advance. -/
def acceptState (state : ActivationState) (message : ReliableControlMessage)
    (now : MonotonicTimeMicros) (anchorDelta : Option MotionDelta) (lease : Duration) :
    List ReceiverEffect × ActivationState :=
  let (anchored, state) := applyAnchorOf state message.payload anchorDelta
  let (effects, state) := applyPayload state message
  let state := { state with lastControlSequence := message.sequence }
  (anchored ++ effects, refreshLease state now lease)

/-- A playout step on the open activation: the displacement, then a touch snapshot that differs. -/
def playState (state : ActivationState) (step : PlayoutStep) (totals : CumulativeMotion) :
    List ReceiverEffect × ActivationState :=
  let state := { state with injectedTotals := totals }
  let motion : List ReceiverEffect :=
    if step.delta ≠ 0 then [.motion step.delta step.throughSequence] else []
  let (touched, state) : List ReceiverEffect × ActivationState := match step.touchSnapshot with
    | some touch =>
      if state.held.activeTouch ≠ touch then
        ([.touchReplaced touch false], { state with held := state.held.replaceTouch touch })
      else ([], state)
    | none => ([], state)
  let state := if step.targetReached then
      { state with lastInjectedMotion := step.throughSequence }
    else state
  (motion ++ touched, state)

namespace Receiver

def activeContext (r : Receiver) : Option SessionContext := r.activation.map (·.session)

def leaseDeadline (r : Receiver) : Option MonotonicTimeMicros :=
  r.activation.bind (·.leaseDeadline)

/-- Activation ids only grow, so every id up to the highest one seen is closed unless it is the one
still open. -/
def isClosed (r : Receiver) (activation : ActivationId) : Bool :=
  (match r.highestActivation with
    | some highest => activation ≤ highest
    | none => false) &&
  match r.activation with
    | some state => state.session.activationId != activation
    | none => true

def closeActivation (reason : SessionCloseReason) (r : Receiver) :
    List ReceiverEffect × Receiver :=
  match r.activation with
  | none => ([], r)
  | some state =>
    let (effects, state) := releaseAll state
    (effects ++ [.activationClosed state.session reason], { r with activation := none })

def expireLease (now : MonotonicTimeMicros) (r : Receiver) : List ReceiverEffect × Receiver :=
  match r.leaseDeadline with
  | some deadline => if deadline ≤ now then r.closeActivation .leaseExpired else ([], r)
  | none => ([], r)

def observeTime (now : MonotonicTimeMicros) : Act ReceiverError Receiver Unit := fun r =>
  if now < r.lastObservedTime then (.error .clockMovedBackwards, r)
  else (.ok (), { r with lastObservedTime := now })

def checkContext (session : SessionContext) : Act ReceiverError Receiver Unit := fun r =>
  let context := (session.sessionEpoch, session.transportGeneration)
  match r.context with
  | none => (.ok (), { r with context := some context })
  | some pinned => if pinned ≠ context then (.error .contextChanged, r) else (.ok (), r)

def validateTransition (state : ActivationState) (payload : ReliableControl) : Bool :=
  match payload with
  | .keyDown key => !state.held.pressedKeys.contains key
  | .keyUp key => state.held.pressedKeys.contains key
  | .buttonDown button anchor =>
    anchor.kind == .checkpoint && !state.held.pressedButtons.contains button
  | .buttonUp button anchor =>
    anchor.kind == .checkpoint && state.held.pressedButtons.contains button
  | .touchBegin initialState => state.held.activeTouch.isEmpty && !initialState.isEmpty
  | .touchEnd anchor | .touchCancel anchor =>
    anchor.kind == .checkpoint && !state.held.activeTouch.isEmpty
  | .stateSnapshot snapshot =>
    snapshot.motionAnchor.kind == .checkpoint &&
      snapshot.motionAnchor.finalTouchState == snapshot.held.activeTouch
  | .sessionClose _ finalAnchor =>
    match finalAnchor with
    | none => true
    | some anchor => anchor.kind == .terminal
  | .enter | .snapshotAck _ => false

def receiveEnter (message : ReliableControlMessage) (now : MonotonicTimeMicros) (r : Receiver) :
    List ReceiverEffect × Receiver :=
  if r.isClosed message.session.activationId then
    ([.rejected message.session .closedActivation], r)
  else if r.highestActivation.any (message.session.activationId ≤ ·) then
    ([.rejected message.session .staleActivation], r)
  else if message.sequence ≠ 1 then
    ([.rejected message.session .controlGap], r)
  else
    let (effects, r) := r.closeActivation .superseded
    let state := { ActivationState.new message.session with
      lastControlSequence := message.sequence }
    let state := refreshLease state now r.config.heldStateLease
    (effects ++ [.activationOpened message.session],
      { r with highestActivation := some message.session.activationId, activation := some state })

/-- The end of `receive_control`. The receiver holds no messages of its own, so an acknowledgement
is not for it. -/
def acceptControl (message : ReliableControlMessage) (now : MonotonicTimeMicros)
    (state : ActivationState) (anchorDelta : Option MotionDelta) (r : Receiver) :
    List ReceiverEffect × Receiver :=
  match message.payload with
  | .snapshotAck _ =>
    let (anchored, state) := applyAnchorOf state message.payload anchorDelta
    (anchored ++ [.rejected message.session .wrongDirection], { r with activation := some state })
  | .sessionClose reason _ =>
    let (effects, state) := acceptState state message now anchorDelta r.config.heldStateLease
    let (closing, r) := closeActivation reason { r with activation := some state }
    (effects ++ closing, r)
  | _ =>
    let (effects, state) := acceptState state message now anchorDelta r.config.heldStateLease
    (effects, { r with activation := some state })

/-- The anchor is judged before anything is changed. An overflow closes the activation. -/
def anchorControl (message : ReliableControlMessage) (now : MonotonicTimeMicros)
    (state : ActivationState) (r : Receiver) : List ReceiverEffect × Receiver :=
  match message.payload.motionAnchor with
  | none => r.acceptControl message now state none
  | some anchor =>
    match validateAnchor state anchor with
    | .ok delta => r.acceptControl message now state (some delta)
    | .error (.rejected reason) => ([.rejected message.session reason], r)
    | .error .motionOverflow => r.closeActivation .motionOverflow

/-- The ordering checks of `receive_control`, once the lease has been looked at. -/
def orderControl (message : ReliableControlMessage) (now : MonotonicTimeMicros) (r : Receiver) :
    List ReceiverEffect × Receiver :=
  if message.payload = .enter then r.receiveEnter message now
  else if r.isClosed message.session.activationId then
    ([.rejected message.session .closedActivation], r)
  else match r.activation with
    | none => ([.rejected message.session .noOpenActivation], r)
    | some state =>
      if state.session.activationId ≠ message.session.activationId then
        ([.rejected message.session .staleActivation], r)
      else match sequenceRejection state.lastControlSequence message.sequence with
        | some reason => ([.rejected message.session reason], r)
        | none =>
          if validateTransition state message.payload then r.anchorControl message now state
          else ([.rejected message.session .invalidTransition], r)

def receiveControl (message : ReliableControlMessage) (now : MonotonicTimeMicros) :
    Act ReceiverError Receiver (List ReceiverEffect) := do
  observeTime now
  -- Checked before the lease: an error must leave held state for the caller's cleanup.
  checkContext message.session
  let expired ← .total (expireLease now)
  let effects ← .total (orderControl message now)
  return expired ++ effects

/-- The checks and the effects of a playout step, once the lease has been looked at. -/
def playStep (session : SessionContext) (step : PlayoutStep) (r : Receiver) :
    List ReceiverEffect × Receiver :=
  if r.isClosed session.activationId then ([.rejected session .closedActivation], r)
  else match r.activation with
    | none => ([.rejected session .noOpenActivation], r)
    | some state =>
      if state.session ≠ session then ([.rejected session .staleActivation], r)
      else if step.throughSequence ≤ state.lastInjectedMotion then
        ([.rejected session .duplicateOrReorderedMotion], r)
      else if step.touchSnapshot.any fun touch =>
          state.held.activeTouch.isEmpty && !touch.isEmpty then
        r.closeActivation .protocolViolation
      else match state.injectedTotals.checkedAdd step.delta with
        | .error _ => r.closeActivation .motionOverflow
        | .ok totals =>
          let (effects, state) := playState state step totals
          (effects, { r with activation := some state })

def receivePlayoutStep (session : SessionContext) (step : PlayoutStep)
    (now : MonotonicTimeMicros) : Act ReceiverError Receiver (List ReceiverEffect) := do
  observeTime now
  let expired ← .total (expireLease now)
  let effects ← .total (playStep session step)
  return expired ++ effects

def tick (now : MonotonicTimeMicros) : Act ReceiverError Receiver (List ReceiverEffect) := do
  observeTime now
  .total (expireLease now)

/-- Releases everything the closing connection held. -/
def connectionLost (now : MonotonicTimeMicros) :
    Act ReceiverError Receiver (List ReceiverEffect) := do
  observeTime now
  .total (closeActivation .leaseExpired)

end Receiver

/-! ## Runs -/

/-- One call of a receiver's public methods. -/
inductive ReceiverCall where
  | receiveControl (message : ReliableControlMessage) (now : MonotonicTimeMicros)
  | receivePlayoutStep (session : SessionContext) (step : PlayoutStep) (now : MonotonicTimeMicros)
  | tick (now : MonotonicTimeMicros)
  | connectionLost (now : MonotonicTimeMicros)

namespace Receiver

def call : ReceiverCall → Act ReceiverError Receiver (List ReceiverEffect)
  | .receiveControl message now => receiveControl message now
  | .receivePlayoutStep session step now => receivePlayoutStep session step now
  | .tick now => tick now
  | .connectionLost now => connectionLost now

/-- The effects of one call: a call that fails emits none. -/
def emit (r : Receiver) (c : ReceiverCall) : List ReceiverEffect × Receiver :=
  match call c r with
  | (.ok effects, r) => (effects, r)
  | (.error _, r) => ([], r)

end Receiver

end Zflow.Core
