import Zflow.Lib.System
import Zflow.Linux.Uinput

/-!
# A session's batches while the seat comes and goes

One session's receiver and the input thread that serves it. Each batch the receiver emits is admitted as the
seat has it at the time (`admitted_effects` of `src/daemon.rs`), and what is admitted is applied to the virtual
devices (`apply_receiver_effect` of `src/runtime/linux.rs`): under a hold the receiver's own state moves on and
the devices follow only its releases. A batch is what one call of the receiver emits, or several. One that is
refused or that the devices reject ends the session, and is no turn here. `log` records every effect the
receiver emitted and whether it was let through, and nothing reads it.
-/

namespace Zflow.Daemon

open Zflow.Core Lib Linux InputThread

structure Service where
  receiver : Receiver
  receiving : Receiving VirtualDevices
  log : List (ReceiverEffect × Bool)

inductive Turn where
  | batch (calls : List ReceiverCall) (admission : Admission) (reverseScroll : Bool) (keyboard : KeyboardMode)
    (touchCapturedAt : CapturedAt)
  /-- Whether the focused app is a terminal. -/
  | focus (terminal : Bool)

namespace Service

/-- What of a batch goes to the input thread. -/
def command (effects : List ReceiverEffect) (admission : Admission) (reverseScroll : Bool)
    (keyboard : KeyboardMode) (touchCapturedAt : CapturedAt) : ReceiverCommand :=
  let admitted := (admittedEffects effects admission).1
  { effects := if reverseScroll then reverseScrolling admitted else admitted
    keyboard := if opensActivation effects then some keyboard else none
    touchCapturedAt }

/-- A batch is emitted, and what is admitted of it is applied. -/
def serve (effects : List ReceiverEffect) (admission : Admission) (command : ReceiverCommand) (s : Service) :
    Option Service :=
  let s := { s with log := s.log ++ effects.map fun effect => (effect, admission.lets effect) }
  if command.effects = [] then some s
  else
    let (applied, receiving) := s.receiving.handle command
    if applied then some { s with receiving } else none

def step : System Service Turn := fun turn s =>
  match turn with
  | .batch calls admission reverseScroll keyboard touchCapturedAt =>
    if admission = .refuse then none
    else
      let (effects, receiver) := Replay.collect Receiver.emit s.receiver calls
      { s with receiver }.serve effects admission
        (command effects admission reverseScroll keyboard touchCapturedAt)
  | .focus terminal =>
    let devices := s.receiving.devices
    some { s with
      receiving := { s.receiving with
        devices := { devices with keyboard := devices.keyboard.setTerminal terminal } } }

/-- A session's receiver, and devices as they are created or as a release leaves them. -/
def start (receiver : Receiver) (mode : KeyboardMode) (terminal experimentalTouchpad : Bool) : Service where
  receiver
  receiving :=
    { devices := {
        keyboard := ⟨(KeyRemap.new mode).setTerminal terminal, ∅⟩
        pointer := ⟨∅⟩
        touchpad := if experimentalTouchpad then some ⟨[]⟩ else none }
      nextKeyboard := mode
      stopping := false }
  log := []

end Service

end Zflow.Daemon
