import Zflow.Session.Capture

/-!
# A touchpad as a pointer

How a touchpad's reports become clicks for a target that posts no contacts (`src/linux/touchpad.rs`): a clickpad's
press by how many fingers press it, and a tap by how many fingers touched. How far and how fast fingers move is
measured in floating point, and is an interface here, `Measure`, with the motion that comes of it.
-/

namespace Zflow.Linux

open Zflow.Core Session

/-- A finger on the pad. -/
structure Finger where
  id : ContactId
  x : Int
  y : Int

structure TouchpadSettings where
  tapToClick : Bool
  naturalScroll : Bool

/-- What is told from distances and speeds; `G` is the `Gesture`. -/
class Measure (G : Type) where
  /-- Further apart than `TAP_TRAVEL_MM`. -/
  travelled : Finger → Finger → Bool
  /-- Further apart than `CLICK_SPREAD_MM`, across or down. -/
  spread : Finger → Finger → Bool
  rest : G
  /-- `motion`, from the report before (its fingers, count and time) and this one, on a pad that is pressed or not. -/
  motion : TouchpadSettings → G → List Finger × Nat × Nat → Bool → List Finger × Nat × Nat → MotionDelta × G

/-- A touch that may still be a tap. -/
structure Tap where
  landed : Nat
  /-- The most fingers down at once. -/
  most : Nat
  /-- Where each finger landed. -/
  origins : List Finger

structure TouchpadPointer (G : Type) where
  settings : TouchpadSettings
  clickpad : Bool
  fingers : List Finger
  count : Nat
  at_ : Nat
  gesture : G
  tap : Option Tap
  /-- The button a clickpad press became, until the pad comes back up. -/
  pressed : Option PointerButton

/-- `PRIMARY`, `SECONDARY` and `MIDDLE`. -/
def primary : PointerButton := 1
def secondary : PointerButton := 2
def middle : PointerButton := 3

/-- How long a tap takes at most, in microseconds. -/
def tapTime : Nat := 180000

/-- The pad after a report, with its key and button changes. -/
structure PadReport where
  fingers : List Finger
  count : Nat
  buttons : List CaptureTransition
  at_ : Nat

variable {G : Type} [Measure G]

/-- The button a clickpad press makes, by how many fingers are down. -/
def clickfinger (G : Type) [Measure G] (fingers : List Finger) (count : Nat) : PointerButton :=
  let thumb := match fingers with
    | [left, right] => Measure.spread G left right
    | _ => false
  match count with
  | 0 | 1 => primary
  | 2 => if thumb then primary else secondary
  | _ => middle

/-- What a tap clicks by the most fingers it had. -/
def tapButton : Nat → Option PointerButton
  | 1 => some primary
  | 2 => some secondary
  | 3 => some middle
  | _ => none

/-- Whether a button changed. -/
def changed (transitions : List CaptureTransition) : Bool :=
  transitions.any fun
    | .button .. => true
    | .key .. => false

/-- Whether a finger moved too far for a tap, and where each landed. -/
def follow (G : Type) [Measure G] : List Finger → List Finger → Bool × List Finger
  | [], origins => (false, origins)
  | finger :: rest, origins =>
    match origins.find? (·.id = finger.id) with
    | some origin =>
      let (moved, origins) := follow G rest origins
      (Measure.travelled G finger origin || moved, origins)
    | none => follow G rest (origins ++ [finger])

/-- What becomes of a tap in a report: the button it clicks, and whether it may still be one. -/
def Tap.report (G : Type) [Measure G] (fingers : List Finger) (count : Nat) (at_ : Nat) (tap : Tap) :
    Option PointerButton × Option Tap :=
  let most := max tap.most count
  let (moved, origins) := follow G fingers tap.origins
  if moved || at_ - tap.landed > tapTime then (none, none)
  else if count = 0 then (tapButton most, none)
  else (none, some { tap with most, origins })

/-- A click is a press and a release. -/
def clicks (clicked : Option PointerButton) : List CaptureTransition :=
  match clicked with
  | some button => [.button button .pressed, .button button .released]
  | none => []

namespace TouchpadPointer

def new (clickpad : Bool) (settings : TouchpadSettings) : TouchpadPointer G :=
  ⟨settings, clickpad, [], 0, 0, Measure.rest, none, none⟩

/-- One key or button change, as it is passed on. -/
def button (fingers : List Finger) (count : Nat) (transition : CaptureTransition) (p : TouchpadPointer G) :
    CaptureTransition × TouchpadPointer G :=
  match transition with
  | .key usage state => (.key usage state, p)
  | .button button state =>
    if p.clickpad ∧ button = primary then
      match state with
      | .pressed => (.button (clickfinger G fingers count) state, { p with pressed := clickfinger G fingers count })
      | .released => (.button (p.pressed.getD button) state, { p with pressed := none })
      | .repeat => (.button (p.pressed.getD button) state, p)
    else (.button button state, p)

/-- All of a report's. -/
def buttons (fingers : List Finger) (count : Nat) :
    List CaptureTransition → TouchpadPointer G → List CaptureTransition × TouchpadPointer G
  | [], p => ([], p)
  | transition :: rest, p =>
    let (first, p) := p.button fingers count transition
    let (out, p) := p.buttons fingers count rest
    (first :: out, p)

/-- The touch that may still be a tap, in a report: a first finger that lands starts one. -/
def startTap (count : Nat) (at_ : Nat) (p : TouchpadPointer G) : Option Tap :=
  if p.settings.tapToClick && p.pressed.isNone && p.count == 0 && count > 0 then some ⟨at_, 0, []⟩ else p.tap

/-- The method `tap`. -/
def tapped (fingers : List Finger) (count : Nat) (at_ : Nat) (p : TouchpadPointer G) :
    List CaptureTransition × TouchpadPointer G :=
  match p.startTap count at_ with
  | none => ([], p)
  | some tap =>
    let (clicked, tap) := Tap.report G fingers count at_ tap
    (clicks clicked, { p with tap })

/-- Turns one report into pointer input. -/
def report (r : PadReport) (p : TouchpadPointer G) : PointerFrame × TouchpadPointer G :=
  let (out, p) := p.buttons r.fingers r.count r.buttons
  -- A press is not a tap, and rolls the finger.
  let p := if changed r.buttons then { p with tap := none, gesture := Measure.rest } else p
  let (clicks, p) := p.tapped r.fingers r.count r.at_
  let (motion, gesture) := Measure.motion p.settings p.gesture (p.fingers, p.count, p.at_) p.pressed.isSome
    (r.fingers, r.count, r.at_)
  (⟨out ++ clicks, motion⟩, { p with gesture, fingers := r.fingers, count := r.count, at_ := r.at_ })

end TouchpadPointer

end Zflow.Linux
