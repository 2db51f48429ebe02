import Mathlib.Data.List.Dedup
import Zflow.Daemon.Policy
import Zflow.Lib.System

/-!
# Who has the physical devices

`SourceOwnership` (`src/linux/ownership.rs`): the phases from a local desktop to a peer and back. It
changes at the frame boundaries of the devices, and says what is to be done with the grabs.
-/

namespace Zflow.Linux

open Lib

inductive OwnershipEffect where
  | none
  /-- Take every grab, then report with `grabSucceeded` or `grabFailed`. -/
  | acquireGrabs
  /-- Queue the reliable terminal state. -/
  | queueTerminal
  /-- Ungrab everything, then `releaseCompleted`. -/
  | releaseGrabs
  /-- A lifecycle failure ungrabs at once. -/
  | closeActivationAndReleaseGrabs
  | cancelActivation
  deriving DecidableEq

inductive OwnershipError where
  | cannotArm (phase : OwnershipPhase)
  | noGrabPending
  | noReleasePending
  | noTerminalPending
  deriving DecidableEq

/-! ## The devices -/

/-- `KeyCode`. -/
abbrev KeyCode := Nat

/-- `CONTACTS`: what a touchpad or tablet holds while a finger or tool touches it, which are no
presses: `BTN_TOUCH` and the `BTN_TOOL_*` codes. -/
def contacts : List KeyCode :=
  [0x14a, 0x140, 0x141, 0x142, 0x143, 0x144, 0x145, 0x146, 0x147, 0x148, 0x14d, 0x14e, 0x14f]

def isContact (key : KeyCode) : Bool := contacts.contains key

structure DeviceInputState where
  held : List KeyCode
  inFrame : Bool

/-- What is held, by device, so that overlapping devices do not release each other's keys. -/
structure AggregateInputState where
  devices : List (String × DeviceInputState)
  boundaryGeneration : Nat

namespace AggregateInputState

def default : AggregateInputState := ⟨[], 0⟩

/-- Whether no key or button is down, leaving out what only touches a pad. -/
def nothingPressed (state : AggregateInputState) : Bool :=
  state.devices.all fun (_, device) => device.held.all isContact

def allAtBoundary (state : AggregateInputState) : Bool :=
  state.devices.all fun (_, device) => !device.inFrame

end AggregateInputState

/-! ## The ownership -/

structure SourceOwnership where
  phase : OwnershipPhase
  grabPending : Bool
  releasePending : Bool
  terminalPending : Bool
  lastCompleteBoundary : Nat
  phaseTransitionPending : Bool

namespace SourceOwnership

def default : SourceOwnership := ⟨.idle, false, false, false, 0, false⟩

def requestActivation (o : SourceOwnership) : Except OwnershipError (OwnershipEffect × SourceOwnership) :=
  if o.phase ≠ .idle then .error (.cannotArm o.phase)
  else .ok (.none, { o with phase := .arming, phaseTransitionPending := true })

/-- Advances only when every device is between complete frames. Arming also needs no key or button down,
in the tracked state and in the kernel's. -/
def atCompleteBoundary (aggregate : AggregateInputState) (kernelNeutral : Bool) (o : SourceOwnership) :
    OwnershipEffect × SourceOwnership :=
  if !aggregate.allAtBoundary then (.none, o)
  else if aggregate.boundaryGeneration = o.lastCompleteBoundary ∧ !o.phaseTransitionPending then (.none, o)
  else
    let o := { o with
      lastCompleteBoundary := aggregate.boundaryGeneration, phaseTransitionPending := false }
    match o.phase with
    | .arming =>
      if !o.grabPending && aggregate.nothingPressed && kernelNeutral then
        (.acquireGrabs, { o with grabPending := true })
      else (.none, o)
    | .releasing =>
      if !o.terminalPending && !o.releasePending then (.releaseGrabs, { o with releasePending := true })
      else (.none, o)
    | _ => (.none, o)

def grabSucceeded (o : SourceOwnership) : Except OwnershipError SourceOwnership :=
  if o.phase ≠ .arming ∨ !o.grabPending then .error .noGrabPending
  else .ok { o with grabPending := false, phase := .remote }

def grabFailed (o : SourceOwnership) : Except OwnershipError SourceOwnership :=
  if o.phase ≠ .arming ∨ !o.grabPending then .error .noGrabPending
  else .ok { o with grabPending := false, phase := .idle }

def requestRelease (transportLive : Bool) (o : SourceOwnership) : OwnershipEffect × SourceOwnership :=
  match o.phase with
  | .idle | .releasing => (.none, o)
  | .arming =>
    (.cancelActivation, { o with grabPending := false, phase := .idle, phaseTransitionPending := false })
  | .remote =>
    let o := { o with phase := .releasing, phaseTransitionPending := true }
    if transportLive then (.queueTerminal, { o with terminalPending := true }) else (.none, o)

/-- The terminal state reached the transport; grabs may be released only after this. -/
def terminalSent (o : SourceOwnership) : Except OwnershipError SourceOwnership :=
  if o.phase ≠ .releasing ∨ !o.terminalPending then .error .noTerminalPending
  else .ok { o with terminalPending := false, phaseTransitionPending := true }

def releaseCompleted (o : SourceOwnership) : Except OwnershipError SourceOwnership :=
  if o.phase ≠ .releasing ∨ !o.releasePending then .error .noReleasePending
  else .ok { o with
    releasePending := false, terminalPending := false, phase := .idle, phaseTransitionPending := false }

/-- Ends ownership now, without waiting for a terminal or a frame boundary. -/
def forceRelease (o : SourceOwnership) : OwnershipEffect × SourceOwnership :=
  match o.phase with
  | .idle => (.none, o)
  | .arming =>
    (.cancelActivation, { o with grabPending := false, phase := .idle, phaseTransitionPending := false })
  | .remote | .releasing =>
    (.closeActivationAndReleaseGrabs, { o with
      phase := .releasing, terminalPending := false, releasePending := true
      phaseTransitionPending := false })

/-- A result whose error is dropped: the state stays. -/
def orKeep (o : SourceOwnership) (result : Except OwnershipError SourceOwnership) : SourceOwnership :=
  match result with
  | .ok after => after
  | .error _ => o

end SourceOwnership

/-! ## Calls in any order -/

inductive OwnershipCall where
  | requestActivation
  | atCompleteBoundary (aggregate : AggregateInputState) (kernelNeutral : Bool)
  | grabSucceeded
  | grabFailed
  | requestRelease (transportLive : Bool)
  | terminalSent
  | releaseCompleted
  | forceRelease

namespace SourceOwnership

/-- What a call that only reports answers. -/
def answered (o : SourceOwnership) :
    Except OwnershipError SourceOwnership → Except OwnershipError OwnershipEffect × SourceOwnership
  | .ok after => (.ok .none, after)
  | .error error => (.error error, o)

/-- What a call answers, and the ownership after it. -/
def call (o : SourceOwnership) : OwnershipCall → Except OwnershipError OwnershipEffect × SourceOwnership
  | .requestActivation => match o.requestActivation with
    | .ok (effect, after) => (.ok effect, after)
    | .error error => (.error error, o)
  | .atCompleteBoundary aggregate kernelNeutral =>
    let (effect, after) := o.atCompleteBoundary aggregate kernelNeutral
    (.ok effect, after)
  | .grabSucceeded => o.answered o.grabSucceeded
  | .grabFailed => o.answered o.grabFailed
  | .requestRelease transportLive =>
    let (effect, after) := o.requestRelease transportLive
    (.ok effect, after)
  | .terminalSent => o.answered o.terminalSent
  | .releaseCompleted => o.answered o.releaseCompleted
  | .forceRelease =>
    let (effect, after) := o.forceRelease
    (.ok effect, after)

end SourceOwnership

/-- What happened since the devices were last acquired. -/
structure Ledger where
  /-- The remote phase was entered. -/
  entered : Bool
  /-- How many effects released the devices since. -/
  releases : Nat
  /-- The terminal was sent. -/
  sent : Bool
  /-- A release was requested with no live transport. -/
  lost : Bool
  /-- A release was forced, at any time. -/
  forced : Bool

/-- An effect that gives the devices back. -/
def OwnershipEffect.releases : OwnershipEffect → Bool
  | .releaseGrabs | .closeActivationAndReleaseGrabs => true
  | _ => false

namespace Ledger

/-- Takes down a call and its answer. -/
def note (o : SourceOwnership) (call : OwnershipCall) (answer : Except OwnershipError OwnershipEffect)
    (ledger : Ledger) : Ledger :=
  match call, answer with
  | .atCompleteBoundary .., .ok .acquireGrabs => ⟨false, 0, false, false, ledger.forced⟩
  | .atCompleteBoundary .., .ok effect =>
    if effect.releases then { ledger with releases := ledger.releases + 1 } else ledger
  | .grabSucceeded, .ok _ => { ledger with entered := true }
  | .requestRelease transportLive, .ok _ =>
    if !transportLive && o.phase = .remote then { ledger with lost := true } else ledger
  | .terminalSent, .ok _ => { ledger with sent := true }
  | .forceRelease, .ok effect =>
    if effect.releases then { ledger with releases := ledger.releases + 1, forced := true }
    else { ledger with forced := true }
  | _, _ => ledger

end Ledger

/-- An ownership, and what happened to it. -/
structure Audited where
  ownership : SourceOwnership
  ledger : Ledger

namespace Audited

/-- Calls come in any order. -/
def step : System Audited OwnershipCall := fun call a =>
  let (answer, ownership) := a.ownership.call call
  some ⟨ownership, a.ledger.note a.ownership call answer⟩

def start : Audited := ⟨.default, ⟨false, 0, false, false, false⟩⟩

end Audited

end Zflow.Linux
