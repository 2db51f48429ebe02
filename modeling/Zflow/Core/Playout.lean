import Mathlib.Data.List.Sort
import Zflow.Core.Clock

/-!
# Playout

Cumulative motion playout (`src/core/playout.rs`): frames wait for their mapped deadline and their
control watermark, the newest mature one becomes the target, and each poll plays one bounded step
towards it.

The catch-up limit is computed in `f64`. The operations it uses are the class `F64`, and the
functions over them are translated line by line; what a result assumes of the limiter is said of
`limitPair`. A plain `+` on `i64` wraps in an optimized build, and is written `wrapI64`.
-/

namespace Zflow.Core

open Lib

/-! ## Floating point -/

/-- The operations of `f64` that playout uses, with its casts from and to the integers. -/
class F64 (F : Type) where
  /-- `x as f64`, of an `i64`. -/
  ofInt : Int → F
  /-- `x as f64`, of a `u64`. -/
  ofNat : Nat → F
  add : F → F → F
  sub : F → F → F
  mul : F → F → F
  div : F → F → F
  hypot : F → F → F
  le : F → F → Bool
  eq : F → F → Bool
  isFinite : F → Bool
  /-- `x.ceil() as u64`. -/
  ceilToU64 : F → Nat
  /-- `x.round() as i64`. -/
  roundToI64 : F → Int

variable {F : Type} [F64 F]

def pairMagnitude (first second : Int) : F := F64.hypot (F64.ofInt first) (F64.ofInt second)

/-- Two axes cut down to a cap on their length, in the direction they had. -/
def limitPair (F : Type) [F64 F] (first second : Int) (cap : Nat) : Int × Int × Bool :=
  let magnitude : F := pairMagnitude first second
  if F64.le magnitude (F64.ofNat cap) || F64.eq magnitude (F64.ofNat 0) then (first, second, false)
  else
    let scale := F64.div (F64.ofNat cap) magnitude
    let limitedFirst := F64.roundToI64 (F64.mul (F64.ofInt first) scale)
    let limitedSecond := F64.roundToI64 (F64.mul (F64.ofInt second) scale)
    if limitedFirst = 0 ∧ limitedSecond = 0 then
      if second.natAbs ≤ first.natAbs then (first.sign, limitedSecond, true)
      else (limitedFirst, second.sign, true)
    else (limitedFirst, limitedSecond, true)

/-! ## Configuration -/

inductive PlayoutDelayMode where
  | fixed | adaptive
  deriving DecidableEq

structure CatchUpConfig (F : Type) where
  speedup : F
  minimumStep : Nat
  maximumStep : Nat
  velocitySampleWeight : F
  deriving DecidableEq

structure PlayoutConfig (F : Type) where
  delayMode : PlayoutDelayMode
  fixedDelay : Duration
  adaptivePercentile : Nat
  minimumDelay : Duration
  maximumDelay : Duration
  schedulerMargin : Duration
  delaySampleWindow : Nat
  delaySampleMaxAge : Duration
  growthDivisor : Nat
  contractionDivisor : Nat
  schedulerTick : Duration
  maximumQueuedFrames : Nat
  catchUp : CatchUpConfig F
  deriving DecidableEq

inductive PlayoutError where
  | invalidConfig (message : String)
  | clock (error : ClockError)
  | motionOverflow (error : MotionOverflow)
  | sessionMismatch
  | receiverClockMovedBackwards
  | controlWatermarkMovedBackwards
  | captureTimeMovedBackwards
  | conflictingMotionSequence
  | queueFull
  | rebaseMovedBackwards
  deriving DecidableEq

def durationMicros (duration : Duration) : Except PlayoutError Nat :=
  if duration.asMicros ≤ u64Max then .ok duration.asMicros
  else .error (.invalidConfig "duration does not fit in microseconds")

namespace PlayoutConfig

def validate (c : PlayoutConfig F) : Except PlayoutError (PlayoutConfig F) := do
  if ¬ (1 ≤ c.adaptivePercentile ∧ c.adaptivePercentile ≤ 100) then
    throw (.invalidConfig "adaptive percentile must be in 1..=100")
  if c.maximumDelay.nanos < c.minimumDelay.nanos then
    throw (.invalidConfig "minimum playout delay exceeds maximum delay")
  if c.delaySampleWindow = 0 ∨ c.maximumQueuedFrames = 0 then
    throw (.invalidConfig "playout windows and queues must not be empty")
  if c.delaySampleMaxAge.isZero ∨ c.schedulerTick.isZero then
    throw (.invalidConfig "sample age and scheduler tick must be positive")
  if c.growthDivisor = 0 ∨ c.contractionDivisor = 0 then
    throw (.invalidConfig "adaptive delay divisors must be positive")
  if !F64.isFinite c.catchUp.speedup || F64.le c.catchUp.speedup (F64.ofNat 0) then
    throw (.invalidConfig "catch-up speedup must be finite and positive")
  if !F64.isFinite c.catchUp.velocitySampleWeight ||
      !(F64.le (F64.ofNat 0) c.catchUp.velocitySampleWeight &&
        F64.le c.catchUp.velocitySampleWeight (F64.ofNat 1)) then
    throw (.invalidConfig "velocity sample weight must be in 0.0..=1.0")
  if c.catchUp.minimumStep = 0 ∨ c.catchUp.maximumStep < c.catchUp.minimumStep then
    throw (.invalidConfig "catch-up step bounds must satisfy 0 < minimum <= maximum")
  let _ ← durationMicros c.fixedDelay
  let _ ← durationMicros c.minimumDelay
  let _ ← durationMicros c.maximumDelay
  let _ ← durationMicros c.schedulerMargin
  let _ ← durationMicros c.delaySampleMaxAge
  let _ ← durationMicros c.schedulerTick
  return c

end PlayoutConfig

/-! ## The state -/

inductive EnqueueOutcome where
  | queued (motionSequence : MotionSequence)
  | duplicate
  | retiredByCumulativeTarget
  | retiredByRebase

structure PlayoutStats where
  currentDelay : Duration
  packetDelayVariationPercentile : Option Duration
  selectedTargetSequence : MotionSequence
  completedSequence : MotionSequence
  schedulerLateCount : Nat
  catchUpStepCount : Nat
  lastPacketDelay : Option Duration

structure QueuedFrame where
  frame : MotionFrame
  mappedCaptureTime : MonotonicTimeMicros
  deriving DecidableEq

structure Target where
  sequence : MotionSequence
  totals : CumulativeMotion
  senderCaptureTime : Option MonotonicTimeMicros
  mappedCaptureTime : MonotonicTimeMicros
  pendingTouchSnapshot : Option TouchState
  deriving DecidableEq

structure DelaySample where
  receivedAt : MonotonicTimeMicros
  packetDelayMicros : Nat
  deriving DecidableEq

structure VelocitySample where
  senderCaptureTime : MonotonicTimeMicros
  totals : CumulativeMotion
  deriving DecidableEq

structure ReceiverPlayout (F : Type) where
  config : PlayoutConfig F
  session : SessionContext
  appliedControlSequence : ControlSequence
  queue : Std.ExtTreeMap MotionSequence QueuedFrame
  delaySamples : List DelaySample
  adaptiveDelayMicros : Nat
  delayPercentileMicros : Option Nat
  target : Target
  completedSequence : MotionSequence
  injectedTotals : CumulativeMotion
  rebaseCutoff : Option MotionSequence
  pointerVelocityPerMicro : F
  scrollVelocityPerMicro : F
  velocitySample : Option VelocitySample
  lastObservedTime : Option MonotonicTimeMicros
  lastPollTime : Option MonotonicTimeMicros
  schedulerLateCount : Nat
  catchUpStepCount : Nat
  deriving DecidableEq

def addMicros (time : MonotonicTimeMicros) (micros : Nat) : MonotonicTimeMicros :=
  saturatingAdd time micros

/-- `u64::div_ceil`. A zero divisor would panic; `validate` lets none through but a scheduler tick
below a microsecond. -/
def divCeil (a b : Nat) : Nat := (a + b - 1) / b

def approachAsymmetrically (current target growth contraction : Nat) : Nat :=
  if current < target then saturatingAdd current (divCeil (target - current) growth)
  else current - divCeil (current - target) contraction

namespace ReceiverPlayout

def new (config : PlayoutConfig F) (session : SessionContext) :
    Except PlayoutError (ReceiverPlayout F) := do
  let config ← config.validate
  let minimum ← durationMicros config.minimumDelay
  return {
    config, session
    appliedControlSequence := 0
    queue := ∅
    delaySamples := []
    adaptiveDelayMicros := minimum
    delayPercentileMicros := none
    target := ⟨0, .zero, none, 0, none⟩
    completedSequence := 0
    injectedTotals := .zero
    rebaseCutoff := none
    pointerVelocityPerMicro := F64.ofNat 0
    scrollVelocityPerMicro := F64.ofNat 0
    velocitySample := none
    lastObservedTime := none
    lastPollTime := none
    schedulerLateCount := 0
    catchUpStepCount := 0 }

def currentDelayMicros (p : ReceiverPlayout F) : Nat :=
  match p.config.delayMode with
  | .fixed => p.config.fixedDelay.asMicros
  | .adaptive => p.adaptiveDelayMicros

def currentDelay (p : ReceiverPlayout F) : Duration := .fromMicros p.currentDelayMicros

def stats (p : ReceiverPlayout F) : PlayoutStats where
  currentDelay := p.currentDelay
  packetDelayVariationPercentile := p.delayPercentileMicros.map .fromMicros
  selectedTargetSequence := p.target.sequence
  completedSequence := p.completedSequence
  schedulerLateCount := p.schedulerLateCount
  catchUpStepCount := p.catchUpStepCount
  lastPacketDelay := p.delaySamples.getLast?.map fun sample => .fromMicros sample.packetDelayMicros

def observeTime (now : MonotonicTimeMicros) : Act PlayoutError (ReceiverPlayout F) Unit := fun p =>
  if p.lastObservedTime.any (now < ·) then (.error .receiverClockMovedBackwards, p)
  else (.ok (), { p with lastObservedTime := some now })

def advanceControlWatermark (applied : ControlSequence) :
    Act PlayoutError (ReceiverPlayout F) Unit := fun p =>
  if applied < p.appliedControlSequence then (.error .controlWatermarkMovedBackwards, p)
  else (.ok (), { p with appliedControlSequence := applied })

/-- Recomputes the stored receiver-domain times. They are all mapped before any is stored. -/
def remapClock {C : Type} [ClockMapper C] (clock : C) :
    Act PlayoutError (ReceiverPlayout F) Unit := do
  let p ← .read
  let remappedQueue ← .lift .clock <| p.queue.toList.mapM fun entry =>
    (ClockMapper.map clock entry.2.frame.senderCaptureTime).map (entry.1, ·)
  let remappedTarget ← .lift .clock <| p.target.senderCaptureTime.mapM (ClockMapper.map clock)
  .change fun p => { p with
    queue := remappedQueue.foldl (fun queue entry => queue.alter entry.1
      (Option.map fun queued => { queued with mappedCaptureTime := entry.2 })) p.queue
    target := { p.target with
      mappedCaptureTime := remappedTarget.getD p.target.mappedCaptureTime }
    delaySamples := [] }
  let minimum ← .lift id (durationMicros p.config.minimumDelay)
  .change fun p => { p with
    adaptiveDelayMicros := minimum
    delayPercentileMicros := none
    pointerVelocityPerMicro := F64.ofNat 0
    scrollVelocityPerMicro := F64.ofNat 0
    velocitySample := none }

/-- Earliest deadline whose control watermark has already been applied. -/
def nextDeadline (p : ReceiverPlayout F) : Option MonotonicTimeMicros :=
  ((p.queue.toList.filter fun entry =>
      entry.2.frame.controlWatermark ≤ p.appliedControlSequence).map fun entry =>
    addMicros entry.2.mappedCaptureTime p.currentDelayMicros).min?

/-! ## The adaptive delay -/

def recomputeAdaptiveDelay : Act PlayoutError (ReceiverPlayout F) Unit := do
  let p ← .read
  match (p.delaySamples.map (·.packetDelayMicros)).min? with
  | none =>
    .change fun p => { p with delayPercentileMicros := none }
    let minimum ← .lift id (durationMicros p.config.minimumDelay)
    .change fun p => { p with adaptiveDelayMicros := minimum }
  | some minimum =>
    let variations := (p.delaySamples.map fun sample =>
      sample.packetDelayMicros - minimum).insertionSort (· ≤ ·)
    let rank := divCeil (min (variations.length * p.config.adaptivePercentile) u64Max) 100 - 1
    let percentile := variations.getD rank 0
    .change fun p => { p with delayPercentileMicros := some percentile }
    let margin ← .lift id (durationMicros p.config.schedulerMargin)
    let minimumDelay ← .lift id (durationMicros p.config.minimumDelay)
    let maximumDelay ← .lift id (durationMicros p.config.maximumDelay)
    let target := max minimumDelay (min (saturatingAdd percentile margin) maximumDelay)
    .change fun p => { p with
      adaptiveDelayMicros := approachAsymmetrically p.adaptiveDelayMicros target
        p.config.growthDivisor p.config.contractionDivisor }

def recordDelaySample (receivedAt : MonotonicTimeMicros) (packetDelayMicros : Nat) :
    Act PlayoutError (ReceiverPlayout F) Unit := do
  .change fun p => { p with delaySamples := p.delaySamples ++ [⟨receivedAt, packetDelayMicros⟩] }
  let p ← .read
  let maximumAge ← .lift id (durationMicros p.config.delaySampleMaxAge)
  .change fun p =>
    let fresh := p.delaySamples.dropWhile fun sample => maximumAge < receivedAt - sample.receivedAt
    { p with delaySamples := fresh.drop (fresh.length - p.config.delaySampleWindow) }
  recomputeAdaptiveDelay

/-! ## Frames -/

def validateCaptureOrder (p : ReceiverPlayout F) (sequence : MotionSequence)
    (senderCaptureTime : MonotonicTimeMicros) : Except PlayoutError Unit :=
  if p.target.sequence < sequence ∧ p.target.senderCaptureTime.any (senderCaptureTime < ·) then
    .error .captureTimeMovedBackwards
  else if (p.queue.toList.filter (·.1 < sequence)).getLast?.any fun prior =>
      senderCaptureTime < prior.2.frame.senderCaptureTime then
    .error .captureTimeMovedBackwards
  else if (p.queue.toList.find? (sequence ≤ ·.1)).any fun next =>
      next.2.frame.senderCaptureTime < senderCaptureTime then
    .error .captureTimeMovedBackwards
  else .ok ()

/-- Queues a cumulative frame and records its packet-delay observation. A frame at or below the
target is still a delay observation. -/
def ingestFrame {C : Type} [ClockMapper C] (frame : MotionFrame)
    (receivedAt : MonotonicTimeMicros) (clock : C) :
    Act PlayoutError (ReceiverPlayout F) EnqueueOutcome := do
  observeTime receivedAt
  let p ← .read
  if frame.session ≠ p.session then .fail .sessionMismatch
  else if p.rebaseCutoff.any (frame.motionSequence ≤ ·) then return .retiredByRebase
  else if frame.motionSequence ≤ p.target.sequence then
    let mapped ← .lift .clock (ClockMapper.map clock frame.senderCaptureTime)
    recordDelaySample receivedAt (receivedAt - mapped)
    return .retiredByCumulativeTarget
  else match p.queue[frame.motionSequence]? with
    | some existing =>
      if existing.frame = frame then return .duplicate else .fail .conflictingMotionSequence
    | none =>
      if p.queue.size = p.config.maximumQueuedFrames then .fail .queueFull
      else
        let mapped ← .lift .clock (ClockMapper.map clock frame.senderCaptureTime)
        .lift id (p.validateCaptureOrder frame.motionSequence frame.senderCaptureTime)
        recordDelaySample receivedAt (receivedAt - mapped)
        .change fun p => { p with
          queue := p.queue.insert frame.motionSequence ⟨frame, mapped⟩ }
        return .queued frame.motionSequence

/-! ## Polling -/

def pollElapsed (now : MonotonicTimeMicros) : Act PlayoutError (ReceiverPlayout F) Nat := do
  let p ← .read
  let nominal ← .lift id (durationMicros p.config.schedulerTick)
  .change fun p => { p with lastPollTime := some now }
  return match p.lastPollTime with
    | none => nominal
    | some prior => max (now - prior) 1

/-- One velocity, as a weighted mean with the newest sample. -/
def weighVelocity (velocity newest weight : F) : F :=
  F64.add (F64.mul velocity (F64.sub (F64.ofNat 1) weight)) (F64.mul newest weight)

def updateVelocity (newest : VelocitySample) : Act PlayoutError (ReceiverPlayout F) Unit := do
  let p ← .read
  match p.velocitySample with
  | none => .change fun p => { p with velocitySample := some newest }
  | some previous =>
    if newest.senderCaptureTime < previous.senderCaptureTime then .fail .captureTimeMovedBackwards
    else
      let elapsed := newest.senderCaptureTime - previous.senderCaptureTime
      if 0 < elapsed then
        let delta ← .lift .motionOverflow (newest.totals.checkedDeltaFrom previous.totals)
        let pointer : F := F64.div (pairMagnitude delta.dx delta.dy) (F64.ofNat elapsed)
        let scroll : F := F64.div (pairMagnitude delta.scrollX delta.scrollY) (F64.ofNat elapsed)
        let weight := p.config.catchUp.velocitySampleWeight
        .change fun p => { p with
          pointerVelocityPerMicro := weighVelocity p.pointerVelocityPerMicro pointer weight
          scrollVelocityPerMicro := weighVelocity p.scrollVelocityPerMicro scroll weight }
      .change fun p => { p with velocitySample := some newest }

/-- The frame may play: its watermark is applied and its deadline has come. -/
def isMature (p : ReceiverPlayout F) (now : MonotonicTimeMicros) (queued : QueuedFrame) : Bool :=
  queued.frame.controlWatermark ≤ p.appliedControlSequence &&
    addMicros queued.mappedCaptureTime p.currentDelayMicros ≤ now

/-- The totals just before the sample of `sequence`, where the preceding frame is known. -/
def ownSampleStart (p : ReceiverPlayout F) (sequence : MotionSequence) : Option CumulativeMotion :=
  let previous := if sequence = 0 then none else some (sequence - 1)
  if previous = some p.target.sequence then some p.target.totals
  else (previous.bind fun previous => p.queue[previous]?).map (·.frame.totals)

def selectNewestMatureTarget (now : MonotonicTimeMicros) :
    Act PlayoutError (ReceiverPlayout F) (Option CumulativeMotion) := do
  let p ← .read
  match p.queue.toList.reverse.find? fun entry => p.isMature now entry.2 with
  | none => return none
  | some (sequence, queued) =>
    .change fun p => { p with
      queue := (p.queue.erase sequence).filter fun queuedSequence _ => sequence < queuedSequence
      schedulerLateCount :=
        if addMicros queued.mappedCaptureTime p.currentDelayMicros < now then
          saturatingAdd p.schedulerLateCount 1
        else p.schedulerLateCount }
    updateVelocity ⟨queued.frame.senderCaptureTime, queued.frame.totals⟩
    .change fun p => { p with
      target := ⟨sequence, queued.frame.totals, some queued.frame.senderCaptureTime,
        queued.mappedCaptureTime, queued.frame.touchSnapshot⟩ }
    return p.ownSampleStart sequence

def catchUpCap (p : ReceiverPlayout F) (velocityPerMicro : F) (elapsedMicros : Nat) :
    Except PlayoutError Nat := do
  let nominalTick ← durationMicros p.config.schedulerTick
  let tickScale := max (divCeil elapsedMicros nominalTick) 1
  let minimum := min (p.config.catchUp.minimumStep * tickScale) u64Max
  let maximum := min (p.config.catchUp.maximumStep * tickScale) u64Max
  let velocityScaled :=
    F64.mul (F64.mul velocityPerMicro (F64.ofNat elapsedMicros)) p.config.catchUp.speedup
  let rounded :=
    if F64.le (F64.ofNat u64Max) velocityScaled then u64Max else F64.ceilToU64 velocityScaled
  return max minimum (min rounded maximum)

/-- What a poll plays: the backlog as the limiter let it through, and the newest sample whole. -/
structure CatchUp where
  limited : MotionDelta
  fresh : MotionDelta
  pointerLimited : Bool
  scrollLimited : Bool

/-- `dx + fresh.dx` and its like, in machine arithmetic. -/
def CatchUp.delta (u : CatchUp) : MotionDelta where
  dx := wrapI64 (u.limited.dx + u.fresh.dx)
  dy := wrapI64 (u.limited.dy + u.fresh.dy)
  scrollX := wrapI64 (u.limited.scrollX + u.fresh.scrollX)
  scrollY := wrapI64 (u.limited.scrollY + u.fresh.scrollY)

def catchUp (p : ReceiverPlayout F) (ownSampleStart : Option CumulativeMotion) (elapsed : Nat) :
    Except PlayoutError CatchUp := do
  let backlogEnd := ownSampleStart.getD p.target.totals
  let backlog ← (backlogEnd.checkedDeltaFrom p.injectedTotals).mapError .motionOverflow
  let fresh ← (p.target.totals.checkedDeltaFrom backlogEnd).mapError .motionOverflow
  let pointerCap ← p.catchUpCap p.pointerVelocityPerMicro elapsed
  let scrollCap ← p.catchUpCap p.scrollVelocityPerMicro elapsed
  let (dx, dy, pointerLimited) := limitPair F backlog.dx backlog.dy pointerCap
  let (scrollX, scrollY, scrollLimited) := limitPair F backlog.scrollX backlog.scrollY scrollCap
  return { limited := ⟨dx, dy, scrollX, scrollY⟩, fresh, pointerLimited, scrollLimited }

/-- The end of `poll`: the remainder is played in one step, or there is nothing to play. -/
def pollTarget (ownSampleStart : Option CumulativeMotion) (elapsed : Nat) :
    Act PlayoutError (ReceiverPlayout F) (Option PlayoutStep) := do
  let p ← .read
  let remaining ← .lift .motionOverflow (p.target.totals.checkedDeltaFrom p.injectedTotals)
  let touchSnapshot := p.target.pendingTouchSnapshot
  .change fun p => { p with target := { p.target with pendingTouchSnapshot := none } }
  if remaining = 0 ∧ touchSnapshot = none then
    .change fun p => { p with completedSequence := max p.completedSequence p.target.sequence }
    return none
  else
    let u ← .lift id (p.catchUp ownSampleStart elapsed)
    let injected ← .lift .motionOverflow (p.injectedTotals.checkedAdd u.delta)
    let targetReached := injected = p.target.totals
    .change fun p => { p with
      injectedTotals := injected
      catchUpStepCount :=
        if u.pointerLimited || u.scrollLimited then saturatingAdd p.catchUpStepCount 1
        else p.catchUpStepCount
      completedSequence :=
        if targetReached then max p.completedSequence p.target.sequence else p.completedSequence }
    return some {
      mappedCaptureTime := p.target.mappedCaptureTime
      throughSequence := p.target.sequence
      delta := u.delta
      touchSnapshot
      targetReached
      pointerCatchUpLimited := u.pointerLimited
      scrollCatchUpLimited := u.scrollLimited }

/-- Advances playout at one receiver-monotonic scheduler instant. -/
def poll (now : MonotonicTimeMicros) :
    Act PlayoutError (ReceiverPlayout F) (Option PlayoutStep) := do
  observeTime now
  let elapsed ← pollElapsed now
  let ownSampleStart ← selectNewestMatureTarget now
  pollTarget ownSampleStart elapsed

/-- Moves the baseline to an anchor. Frames at or below it are retired. -/
def rebase (throughSequence : MotionSequence) (authoritativeTotals : CumulativeMotion) :
    Act PlayoutError (ReceiverPlayout F) Unit := do
  let p ← .read
  if throughSequence < p.target.sequence then .fail .rebaseMovedBackwards
  else
    let _ ← .lift .motionOverflow (authoritativeTotals.checkedDeltaFrom p.injectedTotals)
    .change fun p => { p with
      queue := p.queue.filter fun sequence _ => throughSequence < sequence
      target := { p.target with
        sequence := throughSequence, totals := authoritativeTotals, pendingTouchSnapshot := none }
      completedSequence := throughSequence
      injectedTotals := authoritativeTotals
      rebaseCutoff := some (p.rebaseCutoff.elim throughSequence (max · throughSequence))
      velocitySample := none
      pointerVelocityPerMicro := F64.ofNat 0
      scrollVelocityPerMicro := F64.ofNat 0 }

end ReceiverPlayout

end Zflow.Core
