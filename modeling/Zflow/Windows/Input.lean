import Zflow.Core.Keymap
import Zflow.Lib.Metering
import Zflow.Windows.Keys

/-!
# Posting input on Windows

The injector of the Windows engine (`src/windows/input.rs`). Windows itself is an interface, `Native`: it
may refuse any event, and its clock may answer anything. A refused event changes nothing.
-/

namespace Zflow.Windows

open Zflow.Core Lib

/-- One event for `SendInput`: kinds 1 and 2 are keys, 3 a button, 4 relative motion and 5 the wheel. -/
structure NativeEvent where
  kind : Nat
  code : Int
  value : Int
  extra : Int

class Native (W : Type) where
  post : NativeEvent → Act String W Unit
  /-- `Instant::now`. -/
  now : W → MonotonicTimeMicros × W

/-- What went to Windows: whether it took it, whether a release was pending, and whether the clock posted
it. -/
structure Posting where
  event : NativeEvent
  taken : Bool
  pending : Bool
  autorepeat : Bool

structure Injector (W : Type) where
  native : W
  keys : Std.ExtTreeSet HidUsage
  buttons : Std.ExtTreeSet PointerButton
  remap : KeyRemap
  repeating : Option (HidUsage × MonotonicTimeMicros)
  repeatDelay : MonotonicTimeMicros
  repeatInterval : MonotonicTimeMicros
  reverseScroll : Bool
  /-- A release is pending: Windows has not taken every up. -/
  releasing : Bool
  /-- Everything posted so far. No method reads it. -/
  posted : List Posting

def releasePending : String :=
  "Windows has not released the previous input. Focus a normal window locally, or restart zflow as " ++
    "administrator in Settings."

def Target.event (target : Target) (pressed : Bool) : NativeEvent :=
  ⟨target.kind, target.code, if pressed then 1 else 0, target.extra⟩

def buttonTarget (button : PointerButton) : Target := ⟨3, button, 0⟩

/-- A usage that repeats while it is down: no modifier, lock, Pause or menu key. -/
def repeats (key : HidUsage) : Bool :=
  key.page = HidUsage.keyboardKeypad ∧ 4 ≤ key.usage ∧ key.usage < 224 ∧
    key.usage ∉ [57, 71, 72, 83, 101]

namespace Injector

variable {W : Type} [Native W]

/-- `new`, with what Windows' own keyboard settings come to. -/
def new (native : W) (delay repeatInterval : Nat) : Injector W where
  native
  keys := ∅
  buttons := ∅
  remap := .new .standard
  repeating := none
  repeatDelay := 250000 * (min delay 3 + 1)
  repeatInterval
  reverseScroll := false
  releasing := false
  posted := []

def postAs (autorepeat : Bool) (event : NativeEvent) : Act String (Injector W) Unit := fun i =>
  let (result, native) := Native.post event i.native
  (result, { i with native, posted := i.posted ++ [⟨event, result.isOk, i.releasing, autorepeat⟩] })

def post (event : NativeEvent) : Act String (Injector W) Unit := postAs false event

/-! ## Every way out -/

def liftKey (i : Injector W) (key : HidUsage) : Injector W :=
  match Windows.posted key with
  | none => i
  | some target => match post (target.event false) i with
    | (.ok _, i) => { i with keys := i.keys.erase key }
    | (.error _, i) => i

def liftButton (i : Injector W) (button : PointerButton) : Injector W :=
  match post ((buttonTarget button).event false) i with
  | (.ok _, i) => { i with buttons := i.buttons.erase button }
  | (.error _, i) => i

def lift (i : Injector W) : Injector W :=
  let i := i.keys.toList.foldl liftKey { i with repeating := none }
  i.buttons.toList.foldl liftButton i

def release (i : Injector W) : Injector W :=
  let i := i.lift
  { i with remap := i.remap.reset i.remap.mode, releasing := !i.keys.isEmpty || !i.buttons.isEmpty }

def configure (keyboard : KeyboardMode) (reverseScroll : Bool) (i : Injector W) : Injector W :=
  let i := i.release
  { i with remap := i.remap.reset keyboard, reverseScroll }

/-- What `ready` and `apply` do first: a pending release completes or fails them. -/
def finishRelease : Act String (Injector W) Unit := fun i =>
  if i.releasing then
    let i := i.release
    if i.releasing then (.error releasePending, i) else (.ok (), i)
  else (.ok (), i)

/-! ## Effects -/

def key (key : HidUsage) (pressed : Bool) : Act String (Injector W) Unit := fun i =>
  match Windows.posted key with
  | none => (.ok (), i)
  | some target => match post (target.event pressed) i with
    | (.error error, i) => (.error error, i)
    | (.ok _, i) =>
      let i := { i with keys := if pressed then i.keys.insert key else i.keys.erase key }
      if pressed && repeats key then
        let (now, native) := Native.now i.native
        (.ok (), { i with native, repeating := some (key, now + i.repeatDelay) })
      else (.ok (), { i with repeating := if i.repeating.any (·.1 = key) then none else i.repeating })

/-- The edges the remap answers with, until one fails. -/
def edges : List Edge → Act String (Injector W) Unit
  | [] => pure ()
  | (usage, down) :: rest => do
    key usage down
    edges rest

/-- One physical key, through the remap. -/
def physicalKey (usage : HidUsage) (pressed : Bool) : Act String (Injector W) Unit := fun i =>
  let (out, remap) := i.remap.key usage pressed
  edges out { i with remap }

/-- What the keyboard held back goes down before a click or a scroll. -/
def pointer (pressed : Bool) : Act String (Injector W) Unit := fun i =>
  let (out, remap) := i.remap.pointer (pressed || !i.buttons.isEmpty)
  edges out { i with remap }

def button (button : PointerButton) (pressed : Bool) : Act String (Injector W) Unit := do
  pointer pressed
  post ((buttonTarget button).event pressed)
  .change fun i =>
    let buttons := if pressed then i.buttons.insert button else i.buttons.erase button
    { i with buttons, remap := i.remap.pointerReleased !buttons.isEmpty }

/-- A wheel turn of one axis. Negating saturates at an `i64`. -/
def wheel (amount : Int) (axis : Int) : Act String (Injector W) Unit := fun i =>
  if amount = 0 then (.ok (), i)
  else post ⟨5, 0, clampI32 (if i.reverseScroll then min (-amount) (2 ^ 63 - 1) else amount), axis⟩ i

def motion (delta : MotionDelta) : Act String (Injector W) Unit := do
  (if delta.scrollX ≠ 0 ∨ delta.scrollY ≠ 0 then pointer false else pure ())
  (if delta.dx ≠ 0 ∨ delta.dy ≠ 0 then post ⟨4, clampI32 delta.dx, clampI32 delta.dy, 0⟩ else pure ())
  wheel delta.scrollY 0
  wheel delta.scrollX 1

def effect : ReceiverEffect → Act String (Injector W) Unit
  | .key usage pressed _ => physicalKey usage pressed
  | .button which pressed _ => button which pressed
  | .motion delta _ => motion delta
  | .activationClosed .. => .change release
  | .touchReplaced state _ =>
    if state.isEmpty then pure () else .fail "Raw touch is not supported on Windows"
  | _ => pure ()

def effects : List ReceiverEffect → Act String (Injector W) Unit
  | [] => pure ()
  | effect :: rest => do
    Injector.effect effect
    effects rest

/-! ## The engine's calls -/

/-- Whether a crossing into this desktop can work: the last release went through and Windows accepts
posted input now. -/
def ready : Act String (Injector W) Unit := do
  finishRelease
  post ⟨4, 0, 0, 0⟩

def apply (batch : List ReceiverEffect) : Act String (Injector W) Unit := fun i =>
  match finishRelease i with
  | (.error error, i) => (.error error, i)
  | (.ok _, i) => match effects batch i with
    | (.ok _, i) => (.ok (), i)
    | (.error error, i) => (.error error, i.release)

/-- Keeps retrying a pending release, and repeats the held key when it is due. -/
def tick : Act String (Injector W) Unit := fun i =>
  if i.releasing then (.ok (), i.release)
  else match i.repeating with
    | none => (.ok (), i)
    | some (key, at_) =>
      let (now, native) := Native.now i.native
      let i := { i with native }
      if now < at_ then (.ok (), i)
      else
        let again := fun i : Injector W =>
          let (now, native) := Native.now i.native
          { i with native, repeating := some (key, now + i.repeatInterval) }
        match Windows.posted key with
        | none => (.ok (), again i)
        | some target => match postAs true (target.event true) i with
          | (.error error, i) => (.error error, i)
          | (.ok _, i) => (.ok (), again i)

end Injector

inductive InjectorCall where
  | configure (keyboard : KeyboardMode) (reverseScroll : Bool)
  | ready
  | apply (batch : List ReceiverEffect)
  | tick
  /-- Also what dropping the injector does. -/
  | release

variable {W : Type} [Native W]

def Injector.call : InjectorCall → Act String (Injector W) Unit
  | .configure keyboard reverseScroll => .change (configure keyboard reverseScroll)
  | .ready => ready
  | .apply batch => apply batch
  | .tick => tick
  | .release => .change release

/-- An injector after a run of calls. -/
def Injector.ran (i : Injector W) (calls : List InjectorCall) : Injector W :=
  calls.foldl (fun i call => (Injector.call call i).2) i

end Zflow.Windows
