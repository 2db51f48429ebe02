import Zflow.Daemon.Policy

/-!
# Posting input on the Mac

How the injector (`src/macos/inject.rs`) applies a batch of receiver effects. What it does to the Mac
(keys with their remap, buttons, motion, scrolling, the screen lock) is an interface, `MacInput`. Key
repeat and a handoff's own moves are left out: they come from no batch.
-/

namespace Zflow.Macos

open Zflow.Core Lib

/-- The methods of `InjectorCore` that `apply` calls. -/
class MacInput (I : Type) where
  /-- Whether the screen is locked, asked at most every 100 ms. -/
  locked : MonotonicTimeMicros → I → Bool × I
  /-- The CG buttons that are down. -/
  buttons : I → List Nat
  /-- Keys the keyboard held back go down before a click or a scroll. -/
  pointer : Bool → MonotonicTimeMicros → Act String I Unit
  pointerReleased : Bool → I → I
  /-- Starts an activation with nothing down, in that mode. -/
  begin : KeyboardMode → I → I
  releaseAll : I → I
  motion : Int → Int → MonotonicTimeMicros → Act String I Unit
  scroll : Int → Int → Act String I Unit
  key : HidUsage → Bool → MonotonicTimeMicros → Act String I Unit
  button : PointerButton → Bool → MonotonicTimeMicros → Act String I Unit

structure InjectorCore (I : Type) where
  input : I
  /-- The mode for the next activation, sent with the batch that opens it. -/
  nextKeyboard : KeyboardMode

variable {I : Type} [MacInput I]

/-- Whether an effect presses something with the pointer, and whether a button is still down after
it. -/
def pointerUse (input : I) : ReceiverEffect → Option (Bool × Bool)
  | .button button pressed _ =>
    some (pressed, pressed || (MacInput.buttons input).any fun held => held + 1 ≠ button)
  | .motion delta _ =>
    if delta.scrollX ≠ 0 ∨ delta.scrollY ≠ 0 then some (true, !(MacInput.buttons input).isEmpty)
    else none
  | _ => none

def preparePointer (effect : ReceiverEffect) (now : MonotonicTimeMicros) : Act String I Unit :=
  fun input => match pointerUse input effect with
    | some (true, busy) => MacInput.pointer busy now input
    | some (false, busy) => (.ok (), MacInput.pointerReleased busy input)
    | none => (.ok (), input)

namespace InjectorCore

/-- `effect`. The session drops touch before it reaches a Mac. -/
def effect (keyboard : KeyboardMode) (effect : ReceiverEffect) (now : MonotonicTimeMicros) :
    Act String I Unit := do
  preparePointer effect now
  match effect with
  | .activationOpened _ => .change (MacInput.begin keyboard)
  | .activationClosed .. => .change MacInput.releaseAll
  | .motion delta _ => do
    MacInput.motion delta.dx delta.dy now
    MacInput.scroll delta.scrollX delta.scrollY
  | .key key pressed _ => MacInput.key key pressed now
  | .button button pressed _ => MacInput.button button pressed now
  | .touchReplaced .. | .snapshotAck .. | .rejected .. => pure ()

/-- `try_for_each` of a batch. -/
def effects (keyboard : KeyboardMode) (now : MonotonicTimeMicros) :
    List ReceiverEffect → Act String I Unit
  | [] => pure ()
  | effect :: rest => do
    InjectorCore.effect keyboard effect now
    InjectorCore.effects keyboard now rest

/-- What a batch that injects finds first. -/
def refuseLocked (batch : List ReceiverEffect) (now : MonotonicTimeMicros) : Act String I Unit :=
  fun input =>
    if batch.any ReceiverEffect.isInjection then
      match MacInput.locked now input with
      | (true, input) => (.error "the Mac is locked", input)
      | (false, input) => (.ok (), input)
    else (.ok (), input)

/-- A batch that meets no lock is applied effect by effect. -/
def applyUnlocked (batch : List ReceiverEffect) (keyboard : KeyboardMode) (now : MonotonicTimeMicros) :
    Act String I Unit := do
  refuseLocked batch now
  effects keyboard now batch

/-- Applies one batch in order. A failure or a locked screen releases everything and fails the
batch. -/
def apply (batch : List ReceiverEffect) (keyboard : Option KeyboardMode) (now : MonotonicTimeMicros)
    (core : InjectorCore I) : Except String Unit × InjectorCore I :=
  let nextKeyboard := keyboard.getD core.nextKeyboard
  match applyUnlocked batch nextKeyboard now core.input with
  | (.ok _, input) => (.ok (), ⟨input, nextKeyboard⟩)
  | (.error error, input) => (.error error, ⟨MacInput.releaseAll input, nextKeyboard⟩)

end InjectorCore

/-- Work for the injector thread, but for the channel of its answer. -/
inductive InjectCommand where
  | apply (effects : List ReceiverEffect) (keyboard : Option KeyboardMode)
  | releaseAll

/-- `run`, for one command: its answer, and what it leaves. -/
def InjectorCore.run (command : InjectCommand) (now : MonotonicTimeMicros) (core : InjectorCore I) :
    Except String Unit × InjectorCore I :=
  match command with
  | .apply effects keyboard => core.apply effects keyboard now
  | .releaseAll => (.ok (), { core with input := MacInput.releaseAll core.input })

/-! ## A plain Mac -/

/-- What is down on a Mac that is not locked, in the standard keyboard mode, where every key has a code
and no post fails. -/
structure PlainMac where
  keys : List HidUsage
  buttons : List Nat
  deriving DecidableEq

namespace PlainMac

def atRest : PlainMac := ⟨[], []⟩

instance : MacInput PlainMac where
  locked _ mac := (false, mac)
  buttons := PlainMac.buttons
  pointer _ _ := pure ()
  pointerReleased _ mac := mac
  begin _ _ := atRest
  releaseAll _ := atRest
  motion _ _ _ := pure ()
  scroll _ _ := pure ()
  key key pressed _ := .change fun mac =>
    { mac with keys := if pressed then mac.keys.insert key else mac.keys.erase key }
  button button pressed _ := .change fun mac =>
    { mac with buttons := if pressed then mac.buttons.insert (button - 1)
                          else mac.buttons.erase (button - 1) }

end PlainMac

end Zflow.Macos
