import Zflow.Daemon.Policy

/-!
# The input thread's receive side

How the input thread (`src/runtime/linux.rs`) applies a batch of receiver effects to the virtual
devices. The devices (`linux/uinput.rs`) are an interface, `VirtualInput`: the methods
`apply_receiver_effect` calls, each of which may fail. What is proved here holds of every such
devices.
-/

namespace Zflow.InputThread

open Zflow.Core Linux Lib

/-- `InjectionError`: only a failed device write leaves the kernel's state uncertain. -/
inductive InjectionError where
  | unsupported
  | create
  | emit
  | tooManyTouchContacts
  | touchpadDisabled

/-- `MonotonicTime` of the process that captured a touch. -/
abbrev CapturedAt := Option MonotonicTimeMicros

/-- The virtual keyboard, pointer and touchpad. -/
class VirtualInput (D : Type) where
  /-- `keyboard.begin`: an activation starts, with nothing from the last one down. -/
  keyboardBegin : KeyboardMode → Act InjectionError D Unit
  /-- `keyboard.pointer`: keys held back go down before a click, a scroll or a touch. -/
  keyboardPointer : Bool → Act InjectionError D Unit
  keyboardPointerReleased : Bool → D → D
  setKey : HidUsage → Bool → Act InjectionError D Unit
  setButton : PointerButton → Bool → Act InjectionError D Unit
  motion : MotionDelta → Act InjectionError D Unit
  replaceTouchAt : TouchState → CapturedAt → Act InjectionError D Unit
  /-- `release_all`: what it leaves, and whether every device was released. -/
  releaseAll : D → Bool × D
  /-- `pointer.held`. -/
  buttons : D → List PointerButton
  /-- Whether a contact is down on the virtual touchpad. -/
  touching : D → Bool

/-- What the methods leave at rest: devices that hold nothing down, and whose keyboard remembers no key
of a peer. -/
class RestingInput (D : Type) [VirtualInput D] where
  atRest : D → Prop
  atRest_of_released : ∀ d : D, (VirtualInput.releaseAll d).1 = true →
    atRest (VirtualInput.releaseAll d).2
  releaseAll : ∀ d : D, atRest d → atRest (VirtualInput.releaseAll d).2
  keyboardBegin : ∀ (d : D) mode, atRest d → atRest (VirtualInput.keyboardBegin mode d).2
  keyboardPointer : ∀ (d : D) busy, atRest d → atRest (VirtualInput.keyboardPointer busy d).2
  keyboardPointerReleased : ∀ (d : D) busy, atRest d →
    atRest (VirtualInput.keyboardPointerReleased busy d)
  keyUp : ∀ (d : D) key, atRest d → atRest (VirtualInput.setKey key false d).2
  buttonUp : ∀ (d : D) button, atRest d → atRest (VirtualInput.setButton button false d).2
  motion : ∀ (d : D) delta, atRest d → atRest (VirtualInput.motion delta d).2
  touchLifted : ∀ (d : D) state capturedAt, state.isEmpty = true → atRest d →
    atRest (VirtualInput.replaceTouchAt state capturedAt d).2

/-- The diagnostics of an injection. -/
inductive RuntimeDiagnostic where
  | injectionFailed | injectionRejected
  deriving DecidableEq

/-- `injection_diagnostic`: an error other than a failed device write is input the backend cannot
represent, and rejects just the peer that sent it. -/
def injectionDiagnostic : InjectionError → RuntimeDiagnostic
  | .emit | .create => .injectionFailed
  | _ => .injectionRejected

variable {D : Type} [VirtualInput D]

/-- Whether an effect presses something with the pointer, and whether a button or contact is still
down after it. A release presses nothing: a seat hold lets it through after dropping its press. -/
def pointerUse (devices : D) : ReceiverEffect → Option (Bool × Bool)
  | .button button pressed _ =>
    some (pressed, pressed || (VirtualInput.buttons devices).any (· ≠ button) ||
      VirtualInput.touching devices)
  | .motion delta _ =>
    if delta.scrollX ≠ 0 ∨ delta.scrollY ≠ 0 then
      some (true, !(VirtualInput.buttons devices).isEmpty || VirtualInput.touching devices)
    else none
  | .touchReplaced state _ =>
    some (!state.isEmpty, !state.isEmpty || !(VirtualInput.buttons devices).isEmpty)
  | _ => none

/-- A method of the devices that rejects or fails an effect. -/
def onDevices (x : Act InjectionError D Unit) : Act RuntimeDiagnostic D Unit :=
  .on id (fun d _ => d) injectionDiagnostic x

/-- Keys the keyboard held back go down before a click, a scroll or a touch. -/
def preparePointer (effect : ReceiverEffect) : Act RuntimeDiagnostic D Unit := fun d =>
  match pointerUse d effect with
  | some (true, busy) => onDevices (VirtualInput.keyboardPointer busy) d
  | some (false, busy) => (.ok (), VirtualInput.keyboardPointerReleased busy d)
  | none => (.ok (), d)

/-- `release_all`, where a device that is not released is a failure. -/
def releaseDevices : Act RuntimeDiagnostic D Unit := fun d =>
  (if (VirtualInput.releaseAll d).1 then .ok () else .error .injectionFailed,
    (VirtualInput.releaseAll d).2)

/-- The last match of `apply_receiver_effect`. -/
def applyToDevices (effect : ReceiverEffect) (touchCapturedAt : CapturedAt)
    (keyboard : KeyboardMode) : Act RuntimeDiagnostic D Unit :=
  match effect with
  | .motion delta _ => onDevices (VirtualInput.motion delta)
  | .key key pressed _ => onDevices (VirtualInput.setKey key pressed)
  | .button button pressed _ => onDevices (VirtualInput.setButton button pressed)
  | .touchReplaced state synthetic =>
    onDevices (VirtualInput.replaceTouchAt state (if synthetic then none else touchCapturedAt))
  | .activationClosed .. => releaseDevices
  | .activationOpened _ => onDevices (VirtualInput.keyboardBegin keyboard)
  | .snapshotAck .. | .rejected .. => pure ()

def applyReceiverEffect (effect : ReceiverEffect) (touchCapturedAt : CapturedAt)
    (keyboard : KeyboardMode) : Act RuntimeDiagnostic D Unit := do
  preparePointer effect
  applyToDevices effect touchCapturedAt keyboard

/-- The part of the input thread that serves receivers. -/
structure Receiving (D : Type) where
  devices : D
  /-- The mode for the next activation that opens. -/
  nextKeyboard : KeyboardMode
  /-- A backend that may still hold kernel state takes no more commands. -/
  stopping : Bool

/-- `inject`: a batch that the backend cannot represent is left where it failed, and its peer is
closed. A failed device write releases everything and stops the thread. -/
def Receiving.inject (touchCapturedAt : CapturedAt) (r : Receiving D) :
    List ReceiverEffect → Bool × Receiving D
  | [] => (true, r)
  | effect :: rest =>
    match applyReceiverEffect effect touchCapturedAt r.nextKeyboard r.devices with
    | (.ok _, devices) => Receiving.inject touchCapturedAt { r with devices := devices } rest
    | (.error .injectionRejected, devices) => (false, { r with devices := devices })
    | (.error .injectionFailed, devices) =>
      (false, { r with devices := (VirtualInput.releaseAll devices).2, stopping := true })

/-- `RuntimeCommand::ReceiverEffects`, but for the channel of its acknowledgement. -/
structure ReceiverCommand where
  effects : List ReceiverEffect
  /-- The sending peer's keyboard mode, only in the batch that opens an activation. -/
  keyboard : Option KeyboardMode
  touchCapturedAt : CapturedAt

/-- `handle_command` of a batch: whether it is acknowledged. A thread that is stopping takes no
command off its queue. -/
def Receiving.handle (command : ReceiverCommand) (r : Receiving D) : Bool × Receiving D :=
  if r.stopping then (false, r)
  else { r with nextKeyboard := command.keyboard.getD r.nextKeyboard }.inject
    command.touchCapturedAt command.effects

/-! ## Plain devices -/

/-- What the devices hold down in the standard keyboard mode, where every key has a code, the touchpad
is there and no device write fails. -/
structure PlainInput where
  keys : List HidUsage
  buttons : List PointerButton
  contacts : List ContactId
  deriving DecidableEq

namespace PlainInput

def atRest : PlainInput := ⟨[], [], []⟩

instance : VirtualInput PlainInput where
  keyboardBegin _ := .change fun d => { d with keys := [] }
  keyboardPointer _ := pure ()
  keyboardPointerReleased _ d := d
  setKey key pressed := .change fun d =>
    { d with keys := if pressed then d.keys.insert key else d.keys.erase key }
  setButton button pressed := .change fun d =>
    { d with buttons := if pressed then d.buttons.insert button else d.buttons.erase button }
  motion _ := pure ()
  replaceTouchAt state _ := .change fun d => { d with contacts := state.keys }
  releaseAll _ := (true, atRest)
  buttons d := d.buttons
  touching d := !d.contacts.isEmpty

instance : RestingInput PlainInput where
  atRest d := d = atRest
  atRest_of_released _ _ := rfl
  releaseAll _ _ := rfl
  keyboardBegin _ _ h := by rw [h]; rfl
  keyboardPointer _ _ h := h
  keyboardPointerReleased _ _ h := h
  keyUp _ _ h := by rw [h]; rfl
  buttonUp _ _ h := by rw [h]; rfl
  motion _ _ h := h
  touchLifted _ state _ hempty h := by
    rw [h, Std.ExtTreeMap.isEmpty_iff.mp hempty]
    rfl

end PlainInput

end Zflow.InputThread
