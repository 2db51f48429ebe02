import Zflow.Linux.Grabs

/-!
# The input thread between frames

What the input thread (`src/runtime/linux.rs`) does once its devices are between complete frames: it takes the
devices when the ownership asks for it, and gives them back. The chord trackers, which `suspend_capture` clears,
and the clocks of the thread are left out.
-/

namespace Zflow.InputThread

open Linux Lib

/-- The diagnostics of the boundary. -/
inductive CaptureDiagnostic where
  | grabFailed | ungrabRequiredDescriptorClose

/-- The events of the boundary. -/
inductive CaptureEvent where
  | ownershipChanged (phase : OwnershipPhase) (selectedPeer : Option String)
  | activationClosed
  | diagnostic (diagnostic : CaptureDiagnostic)

/-- The part of the input thread that owns the physical devices. -/
structure Sending (D : Type) where
  /-- `config.capture_devices`: none means every keyboard and pointer. -/
  captureDevices : List String
  capture : CaptureSet D
  ownership : SourceOwnership
  selectedPeer : Option String
  /-- The paths whose descriptors are polled. -/
  registrations : List String
  /-- The devices are looked for again at the next turn. -/
  rescans : Bool
  events : List CaptureEvent

namespace Sending

variable {D : Type}

def emit (event : CaptureEvent) (t : Sending D) : Sending D := { t with events := t.events ++ [event] }

def diagnostic (diagnostic : CaptureDiagnostic) (t : Sending D) : Sending D := t.emit (.diagnostic diagnostic)

def emitOwnership (t : Sending D) : Sending D := t.emit (.ownershipChanged t.ownership.phase t.selectedPeer)

def deregisterCaptureDescriptors (t : Sending D) : Sending D := { t with registrations := [] }

variable [CaptureDevice D]

def suspendCapture (t : Sending D) : Sending D := { t with capture := t.capture.suspend.2 }

/-- `OwnershipEffect::AcquireGrabs`. A failed transaction may leave a node grabbed, so the descriptors are
closed. -/
def acquireGrabs (t : Sending D) : Sending D :=
  match t.capture |> CaptureSet.grabAll t.captureDevices.isEmpty with
  | (.ok _, capture) =>
    emitOwnership { t with capture, ownership := t.ownership.orKeep t.ownership.grabSucceeded }
  | (.error _, capture) =>
    let t := ({ t with capture }.deregisterCaptureDescriptors).suspendCapture
    let t := { t with
      rescans := true, ownership := t.ownership.orKeep t.ownership.grabFailed, selectedPeer := none }
    ((t.diagnostic .grabFailed).diagnostic .ungrabRequiredDescriptorClose).emitOwnership

/-- `OwnershipEffect::ReleaseGrabs`. -/
def releaseGrabs (t : Sending D) : Sending D :=
  let (failures, capture) := t.capture.ungrabAll
  let t := { t with capture }
  let t := if !failures.isEmpty || t.capture.grabbed then
      { t.suspendCapture with rescans := true }.diagnostic .ungrabRequiredDescriptorClose
    else t
  let t := { t with ownership := t.ownership.orKeep t.ownership.releaseCompleted, selectedPeer := none }
  (t.emit .activationClosed).emitOwnership

/-- The effect of the ownership at a boundary, carried out. -/
def carryOut (t : Sending D) : OwnershipEffect → Sending D
  | .acquireGrabs => t.acquireGrabs
  | .releaseGrabs => t.releaseGrabs
  | _ => t

/-- `advance_ownership_boundary`, once the kernel was asked. -/
def crossBoundary (kernelNeutral : Bool) (t : Sending D) : Sending D :=
  let (effect, ownership) := t.ownership.atCompleteBoundary t.capture.aggregate kernelNeutral
  { t with ownership }.carryOut effect

/-- `advance_ownership_boundary`: only an arming thread asks the kernel. -/
def advanceOwnershipBoundary (t : Sending D) : Sending D :=
  if t.ownership.phase = .arming then
    match CaptureSet.kernelIsNeutral t.capture with
    | (.ok neutral, capture) => { t with capture }.crossBoundary neutral
    | (.error _, capture) =>
      let t := { t with capture, ownership := (t.ownership.requestRelease false).2, selectedPeer := none }
      (t.diagnostic .grabFailed).emitOwnership
  else t.crossBoundary false

end Sending

end Zflow.InputThread
