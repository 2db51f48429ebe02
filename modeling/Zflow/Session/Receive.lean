import Zflow.Core.Playout
import Zflow.Core.Receiver
import Zflow.Core.Sender

/-!
# The receive side of a session

`Inbound` (`src/session/receive.rs`): it orders control messages and motion datagrams into the
receiver and the playout, and hands the effects to the input backend.

What is outside the process answers through an `Environment`: the backend, the two transports, and
which keys the backend can inject. An answer may depend on everything that was sent before it.
`handed`, `replies` and `datagrams` are what `Inbound` has sent so far; `effects` and `applied` record
what the receiver did, for the statements about runs, and nothing reads them. Metrics and the wall
clock stamps that go with a batch are left out.
-/

namespace Zflow.Session

open Zflow.Core Lib

/-- `SESSION_TICK`. -/
def sessionTick : Duration := .fromMillis 1

/-- `PROBE_INTERVAL`. -/
def probeInterval : Duration := .fromMillis 100

/-- `PROBE_MAX_AGE`. -/
def probeMaxAge : Duration := .fromMillis 2000

/-- `MAX_PENDING_PROBES`. -/
def maxPendingProbes : Nat := 64

/-- `outside` is what the backend or a transport answered. -/
inductive InboundError where
  | receiver (error : ReceiverError)
  | playout (error : PlayoutError)
  | clock (error : ClockError)
  | outside (message : String)
  | bail (message : String)
  deriving DecidableEq

/-- Everything outside the process that a step waits for. -/
structure Environment where
  supportsKey : HidUsage → Bool
  supportsButton : PointerButton → Bool
  supportsTouch : Bool
  /-- The backend's answer to the last of the batches handed to it. -/
  applies : List (List ReceiverEffect) → Except String Unit
  sendsControl : List ReliableControlMessage → Except String Unit
  sendsProbe : List ProbeMessage → Except String Unit

/-- `backend_supports`: only the injection of an unsupported effect is dropped. -/
def Environment.backendSupports (env : Environment) : ReceiverEffect → Bool
  | .key key _ _ => env.supportsKey key
  | .button button _ _ => env.supportsButton button
  | .touchReplaced .. => env.supportsTouch
  | _ => true

structure PendingControl where
  message : ReliableControlMessage
  receiverReceivedAt : MonotonicTimeMicros
  deriving DecidableEq

/-- A control message the receiver answered: where it found the receiver and the playout, and what
it made of the receiver. -/
structure Applied (F : Type) where
  message : ReliableControlMessage
  now : MonotonicTimeMicros
  before : Receiver
  playout : Option (ReceiverPlayout F)
  effects : List ReceiverEffect
  after : Receiver
  deriving DecidableEq

structure Inbound (F C : Type) where
  playoutConfig : PlayoutConfig F
  receiver : Receiver
  clock : C
  playout : Option (ReceiverPlayout F)
  pending : List PendingControl
  responseSequence : ControlSequence
  probes : Std.ExtTreeMap ProbeSequence MonotonicTimeMicros
  nextProbeSequence : ProbeSequence
  probeContext : Option SessionContext
  nextProbeAt : MonotonicTimeMicros
  handed : List (List ReceiverEffect)
  replies : List ReliableControlMessage
  datagrams : List ProbeMessage
  effects : List ReceiverEffect
  applied : List (Applied F)
  deriving DecidableEq

variable {F : Type} [F64 F] {C : Type} [ClockMapper C]

/-- The rejections that end the session. -/
def isFatal : RejectionReason → Bool
  | .controlGap | .invalidTransition | .anchorActivationMismatch | .anchorMovedBackwards
  | .wrongDirection => true
  | _ => false

/-- The first loop of `emit`: the batch for the backend and the answers to the peer. -/
def sortEffects (env : Environment) : List ReceiverEffect →
    Except InboundError (List ReceiverEffect × List (SessionContext × ReliableControl))
  | [] => .ok ([], [])
  | .snapshotAck session ack :: rest => do
    let (backend, responses) ← sortEffects env rest
    return (backend, (session, .snapshotAck ack) :: responses)
  | .rejected _ reason :: rest =>
    if isFatal reason then .error (.bail "peer sent an invalid input state transition")
    else sortEffects env rest
  | effect :: rest => do
    let (backend, responses) ← sortEffects env rest
    return (if env.backendSupports effect then effect :: backend else backend, responses)

/-- `session_deadline`: the earliest instant at which something needs a tick. -/
def sessionDeadline (sender : Option Sender) (receiver : Receiver)
    (playout : Option (ReceiverPlayout F)) (pendingControls : Bool)
    (lastTickAt nextProbeAt : MonotonicTimeMicros) : Option MonotonicTimeMicros :=
  let catchUp := playout.any fun playout =>
    playout.stats.completedSequence < playout.stats.selectedTargetSequence
  ([sender.bind Sender.nextDeadline, receiver.leaseDeadline,
    playout.bind ReceiverPlayout.nextDeadline,
    if catchUp || pendingControls then some (addDuration lastTickAt sessionTick) else none,
    receiver.activeContext.map fun _ => nextProbeAt].filterMap id).min?

def discardPendingContext (pending : List PendingControl) (context : SessionContext) :
    List PendingControl :=
  pending.filter fun item => item.message.session ≠ context

namespace Inbound

def new (config : ReceiverConfig) (playoutConfig : PlayoutConfig F) (now : MonotonicTimeMicros) :
    Except InboundError (Inbound F C) := do
  let receiver ← (Receiver.new config now).mapError .receiver
  let clock ← (ClockMapper.new : Except ClockError C).mapError .clock
  return {
    playoutConfig, receiver, clock
    playout := none
    pending := []
    responseSequence := 0
    probes := ∅
    nextProbeSequence := 1
    probeContext := none
    nextProbeAt := addDuration now probeInterval
    handed := []
    replies := []
    datagrams := []
    effects := []
    applied := [] }

/-- A method of the receiver, with its effects recorded. -/
def onReceiver (x : Act ReceiverError Receiver (List ReceiverEffect)) :
    Act InboundError (Inbound F C) (List ReceiverEffect) := do
  let effects ← Act.on (fun i : Inbound F C => i.receiver) (fun r i => { i with receiver := r })
    .receiver x
  .change fun i => { i with effects := i.effects ++ effects }
  return effects

/-- A method of the playout `p` that is there. -/
def onPlayout {α : Type} (p : ReceiverPlayout F) (x : Act PlayoutError (ReceiverPlayout F) α) :
    Act InboundError (Inbound F C) α := fun i =>
  ((x p).1.mapError .playout, { i with playout := some (x p).2 })

def onClock (x : Act ClockError C Unit) : Act InboundError (Inbound F C) Unit :=
  .on (fun i : Inbound F C => i.clock) (fun c i => { i with clock := c }) .clock x

/-- Hands a batch to the backend and waits for its receipt. -/
def hand (env : Environment) (backend : List ReceiverEffect) :
    Act InboundError (Inbound F C) Unit := do
  .change fun i => { i with handed := i.handed ++ [backend] }
  let i ← .read
  .lift .outside (env.applies i.handed)

/-- Answers the peer, each answer with the next response sequence. -/
def respond (env : Environment) : List (SessionContext × ReliableControl) →
    Act InboundError (Inbound F C) Unit
  | [] => return ()
  | (session, payload) :: rest => do
    let i ← .read
    match checkedAddU64 i.responseSequence 1 with
    | none => .fail (.bail "control response sequence exhausted")
    | some sequence =>
      .change fun i => { i with
        responseSequence := sequence, replies := i.replies ++ [⟨session, sequence, payload⟩] }
      let i ← .read
      .lift .outside (env.sendsControl i.replies)
      respond env rest

/-- Hands injections to the backend, waits until they are applied, and only then answers the peer. -/
def emit (env : Environment) (effects : List ReceiverEffect) :
    Act InboundError (Inbound F C) Unit := do
  let (backend, responses) ← .lift id (sortEffects env effects)
  if backend ≠ [] then hand env backend
  respond env responses

/-- The anchor moves playout's baseline. Nothing is discarded by it: the receiver injects what the
anchor adds. -/
def followControl (message : ReliableControlMessage) : Act InboundError (Inbound F C) Unit := do
  let i ← .read
  match i.playout with
  | none => return ()
  | some playout =>
    onPlayout playout (do
      ReceiverPlayout.advanceControlWatermark message.sequence
      match message.payload.motionAnchor with
      | none => return ()
      | some anchor => ReceiverPlayout.rebase anchor.throughMotionSequence anchor.totals)

/-- A new activation begins with an unfitted clock and an empty playout. -/
def beginActivation (effects : List ReceiverEffect) : Act InboundError (Inbound F C) Unit := do
  if effects.any fun effect => match effect with | .activationOpened _ => true | _ => false then
    let clock ← .lift .clock ClockMapper.new
    .change fun i => { i with clock := clock }
    let i ← .read
    match i.receiver.activeContext with
    | none => return ()
    | some session =>
      let playout ← .lift .playout (ReceiverPlayout.new i.playoutConfig session)
      .change fun i => { i with playout := some playout }

def isRejected : ReceiverEffect → Bool
  | .rejected .. => true
  | _ => false

def applyControl (env : Environment) (message : ReliableControlMessage)
    (now : MonotonicTimeMicros) : Act InboundError (Inbound F C) Unit := do
  let i ← .read
  -- The time of the touch goes with the batch; a failure to map it ends the session.
  match message.payload.motionAnchor with
  | some anchor =>
    if !anchor.finalTouchState.isEmpty && ClockMapper.isReady i.clock then
      let _ ← .lift .clock (ClockMapper.map i.clock anchor.senderCaptureTime)
  | none => pure ()
  let effects ← onReceiver (Receiver.receiveControl message now)
  .change fun after => { after with
    applied := after.applied ++ [⟨message, now, i.receiver, i.playout, effects, after.receiver⟩] }
  if !effects.any isRejected then
    beginActivation effects
    followControl message
  emit env effects

/-- `pending_control_is_ready`: an anchored control of the open activation waits for the time its
anchor plays at. -/
def pendingControlIsReady (pending : PendingControl) (now : MonotonicTimeMicros) :
    Act InboundError (Inbound F C) Bool := do
  let i ← .read
  match pending.message.payload.motionAnchor, i.receiver.activeContext with
  | some anchor, some active =>
    if pending.message.session ≠ active then return true
    else match i.playout.filter (·.session = active) with
      | none => .fail (.bail "active receiver has no matching playout scheduler")
      | some playout =>
        if !ClockMapper.isReady i.clock then
          onClock (ClockMapper.bootstrapFromArrival anchor.senderCaptureTime
            pending.receiverReceivedAt)
        let i ← .read
        let mapped ← .lift .clock (ClockMapper.map i.clock anchor.senderCaptureTime)
        return addDuration mapped playout.currentDelay ≤ now
  | _, _ => return true

/-- The loop of `drain_pending_controls`. A round takes a message off the queue and none puts
one on, so it is over after as many rounds as there are messages. -/
def drainLoop (env : Environment) (now : MonotonicTimeMicros) :
    Nat → Act InboundError (Inbound F C) Unit
  | 0 => return ()
  | rounds + 1 => do
    let i ← .read
    match i.pending with
    | [] => return ()
    | front :: rest =>
      let ready ← pendingControlIsReady front now
      if !ready then return ()
      else
        let activeBefore := i.receiver.activeContext
        .change fun i => { i with pending := rest }
        applyControl env front.message now
        .change fun i => { i with
          pending := match activeBefore with
            | some previous =>
              if i.receiver.activeContext ≠ some previous then
                discardPendingContext i.pending previous
              else i.pending
            | none => i.pending }
        drainLoop env now rounds

def drainPendingControls (env : Environment) (now : MonotonicTimeMicros) :
    Act InboundError (Inbound F C) Unit := do
  let i ← .read
  drainLoop env now i.pending.length

def receiveControl (env : Environment) (message : ReliableControlMessage)
    (now : MonotonicTimeMicros) : Act InboundError (Inbound F C) Unit := do
  let i ← .read
  if i.playoutConfig.maximumQueuedFrames ≤ i.pending.length then
    .fail (.bail "deferred reliable-control queue reached its configured bound")
  else
    .change fun i => { i with pending := i.pending ++ [⟨message, now⟩] }
    drainPendingControls env now

def receiveMotion (frame : MotionFrame) (now : MonotonicTimeMicros) :
    Act InboundError (Inbound F C) Unit := do
  let i ← .read
  match i.playout with
  | none => return ()
  | some playout =>
    if playout.session ≠ frame.session then return ()
    else
      if !ClockMapper.isReady i.clock then
        onClock (ClockMapper.bootstrapFromArrival frame.senderCaptureTime now)
      let i ← .read
      let _ ← onPlayout playout (ReceiverPlayout.ingestFrame frame now i.clock)
      return ()

/-- Sends a datagram. -/
def sendProbe (env : Environment) (probe : ProbeMessage) : Act InboundError (Inbound F C) Unit := do
  .change fun i => { i with datagrams := i.datagrams ++ [probe] }
  let i ← .read
  .lift .outside (env.sendsProbe i.datagrams)

/-- Echoes a probe for our outbound activation, or feeds an echo of our own probe to the clock. -/
def receiveProbe (env : Environment) (probe : ProbeMessage) (sender : Option Sender)
    (now : MonotonicTimeMicros) : Act InboundError (Inbound F C) Unit := do
  let i ← .read
  match probe.payload with
  | .probe sequence sentAt =>
    if sender.any fun sender => sender.session = probe.session then
      sendProbe env ⟨probe.session, .probeEcho sequence sentAt now now⟩
    else return ()
  | .probeEcho sequence probeSentAt receivedAt echoedAt =>
    if i.receiver.activeContext ≠ some probe.session then return ()
    else
      -- the probe is taken out before its time is compared
      .change fun i => { i with probes := i.probes.erase sequence }
      if i.probes[sequence]? ≠ some probeSentAt then return ()
      else
        let replacingArrivalBootstrap := ClockMapper.usesArrivalBootstrap i.clock
        onClock (ClockMapper.ingestProbe ⟨probeSentAt, receivedAt, echoedAt, now⟩)
        let i ← .read
        match i.playout with
        | none => return ()
        | some playout =>
          if replacingArrivalBootstrap then
            onPlayout playout (ReceiverPlayout.remapClock i.clock)

def pollPlayout (env : Environment) (now : MonotonicTimeMicros) :
    Act InboundError (Inbound F C) Unit := do
  let i ← .read
  match i.playout with
  | none => return ()
  | some playout =>
    match ← onPlayout playout (ReceiverPlayout.poll now) with
    | none => return ()
    | some step =>
      let effects ← onReceiver (Receiver.receivePlayoutStep playout.session step now)
      emit env effects

/-- The end of `tick`: the next clock probe of an open activation. `clockNow` is what the clock says
by then. -/
def probeClock (env : Environment) (clockNow now : MonotonicTimeMicros) :
    Act InboundError (Inbound F C) Unit := do
  .change fun i => { i with
    probes := i.probes.filter fun _ sentAt => now - probeMaxAge.asMicros ≤ sentAt }
  let i ← .read
  match i.receiver.activeContext with
  | some context =>
    if i.nextProbeAt ≤ now ∧ i.probes.size < maxPendingProbes then
      sendProbe env ⟨context, .probe i.nextProbeSequence clockNow⟩
      .change fun i => { i with probes := i.probes.insert i.nextProbeSequence clockNow }
      match checkedAddU64 i.nextProbeSequence 1 with
      | none => .fail (.bail "probe sequence exhausted")
      | some next => .change fun i => { i with nextProbeSequence := next }
  | none => pure ()
  .change fun i => { i with
    nextProbeAt := if i.nextProbeAt ≤ now then addDuration now probeInterval else i.nextProbeAt }

/-- Expires the lease, plays due motion, applies due controls, and sends the next clock probe. -/
def tick (env : Environment) (clockNow now : MonotonicTimeMicros) :
    Act InboundError (Inbound F C) Unit := do
  let before ← .read
  let effects ← onReceiver (Receiver.tick now)
  emit env effects
  .change fun i => { i with
    pending := match before.receiver.activeContext with
      | some closed =>
        if i.receiver.activeContext ≠ some closed then discardPendingContext i.pending closed
        else i.pending
      | none => i.pending }
  pollPlayout env now
  drainPendingControls env now
  probeClock env clockNow now

/-- Restarts probing whenever the open activation changes. -/
def trackActivation (clockNow : MonotonicTimeMicros) (i : Inbound F C) : Inbound F C :=
  if i.probeContext ≠ i.receiver.activeContext then
    { i with
      probes := ∅
      probeContext := i.receiver.activeContext
      nextProbeAt := addDuration clockNow probeInterval }
  else i

/-- Releases everything the closing connection held. -/
def close (env : Environment) (now : MonotonicTimeMicros) : Act InboundError (Inbound F C) Unit := do
  let effects ← onReceiver (Receiver.connectionLost now)
  emit env effects

end Inbound

end Zflow.Session
