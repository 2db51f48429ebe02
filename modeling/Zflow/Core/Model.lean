import Std.Data.ExtTreeMap
import Std.Data.ExtTreeSet
import Zflow.Lib.Checked

/-!
# The domain types

The types a sender and a receiver share (`src/core/model.rs`). Identifiers, sequences and times are
natural numbers, with the `u64` bound written out where the source checks it (`Lib.checkedAddU64`)
or saturates (`Lib.saturatingAdd`); a displacement is an integer, with the `i64` bound in the
checked operations. A Rust `BTreeSet` or `BTreeMap` is the library's ordered tree, which compares by
content, as the source's does.

The offers and the negotiated session are not here: nothing in this part of the model reads them.
-/

namespace Zflow.Core

open Lib

abbrev SessionEpoch := BitVec 128
abbrev TransportGeneration := Nat
abbrev ActivationId := Nat
abbrev ControlSequence := Nat
abbrev MotionSequence := Nat
abbrev ProbeSequence := Nat
abbrev ContactId := Nat
abbrev PointerButton := Nat

/-- A timestamp in microseconds from one process's monotonic clock. -/
abbrev MonotonicTimeMicros := Nat

/-- `std::time::Duration`, to the nanosecond. -/
structure Duration where
  nanos : Nat
  deriving DecidableEq

namespace Duration

def fromMicros (micros : Nat) : Duration := ⟨micros * 1000⟩
def fromMillis (millis : Nat) : Duration := ⟨millis * 1000000⟩
def asMicros (d : Duration) : Nat := d.nanos / 1000
def isZero (d : Duration) : Bool := d.nanos == 0

end Duration

/-- `MonotonicTimeMicros::saturating_add`. -/
def addDuration (time : MonotonicTimeMicros) (d : Duration) : MonotonicTimeMicros :=
  saturatingAdd time (min d.asMicros u64Max)

theorem addDuration_le (time : MonotonicTimeMicros) (d : Duration) : addDuration time d ≤ time + d.asMicros :=
  Nat.le_trans (saturatingAdd_le _ _) (Nat.add_le_add_left (Nat.min_le_left _ _) _)

/-- The earliest of some instants is at most each of them. -/
theorem exists_min?_le {instants : List MonotonicTimeMicros} {t : MonotonicTimeMicros}
    (h : t ∈ instants) : ∃ d, instants.min? = some d ∧ d ≤ t := by
  cases hmin : instants.min? with
  | none =>
    rw [List.min?_eq_none_iff.mp hmin] at h
    cases h
  | some d => exact ⟨d, rfl, (List.min?_eq_some_iff.mp hmin).2 t h⟩

structure SessionContext where
  sessionEpoch : SessionEpoch
  transportGeneration : TransportGeneration
  activationId : ActivationId
  deriving DecidableEq

/-- A physical key or control expressed in USB HID vocabulary. -/
structure HidUsage where
  page : Nat
  usage : Nat
  deriving DecidableEq

namespace HidUsage

instance : Ord HidUsage := ⟨compareLex (compareOn page) (compareOn usage)⟩

instance : Std.TransOrd HidUsage :=
  inferInstanceAs (Std.TransCmp (compareLex (compareOn page) (compareOn usage)))

instance : Std.LawfulEqOrd HidUsage where
  eq_of_compare {a b} h := by
    obtain ⟨hp, hu⟩ := Ordering.then_eq_eq.mp (show (compare a.page b.page).then
      (compare a.usage b.usage) = .eq from h)
    obtain ⟨_, _⟩ := a
    obtain ⟨_, _⟩ := b
    simp_all

/-- The HID usage page of keyboards and keypads. -/
def keyboardKeypad : Nat := 0x07

def keyboard (usage : Nat) : HidUsage := ⟨keyboardKeypad, usage⟩

end HidUsage

inductive TouchTool where
  | finger | stylus | eraser | palm | unknown
  deriving DecidableEq

structure SourceDimensions where
  width : Nat
  height : Nat
  deriving DecidableEq

structure TouchContact where
  id : ContactId
  x : Int
  y : Int
  pressure : Option Nat
  major : Option Nat
  minor : Option Nat
  orientationMillidegrees : Option Int
  tool : TouchTool
  sourceDimensions : Option SourceDimensions
  deriving DecidableEq

/-- A complete touch state at one capture point: the contacts by id. -/
abbrev TouchState := Std.ExtTreeMap ContactId TouchContact

/-- What one side believes is held down. -/
structure HeldState where
  pressedKeys : Std.ExtTreeSet HidUsage
  pressedButtons : Std.ExtTreeSet PointerButton
  activeTouch : TouchState
  deriving DecidableEq

namespace HeldState

/-- `HeldState::default()`. -/
def neutral : HeldState := ⟨∅, ∅, ∅⟩

def isNeutral (held : HeldState) : Bool :=
  held.pressedKeys.isEmpty && held.pressedButtons.isEmpty && held.activeTouch.isEmpty

def pressKey (held : HeldState) (key : HidUsage) : HeldState :=
  { held with pressedKeys := held.pressedKeys.insert key }

def releaseKey (held : HeldState) (key : HidUsage) : HeldState :=
  { held with pressedKeys := held.pressedKeys.erase key }

def pressButton (held : HeldState) (button : PointerButton) : HeldState :=
  { held with pressedButtons := held.pressedButtons.insert button }

def releaseButton (held : HeldState) (button : PointerButton) : HeldState :=
  { held with pressedButtons := held.pressedButtons.erase button }

def replaceTouch (held : HeldState) (touch : TouchState) : HeldState :=
  { held with activeTouch := touch }

def clearTouch (held : HeldState) : HeldState := held.replaceTouch ∅

@[simp]
theorem isNeutral_iff {held : HeldState} : held.isNeutral = true ↔ held = neutral := by
  obtain ⟨keys, buttons, touch⟩ := held
  simp [isNeutral, neutral, and_assoc]

end HeldState

/-- The axes a displacement has, as an overflow names them. -/
inductive MotionAxis where
  | pointerX | pointerY | scrollX | scrollY
  deriving DecidableEq

structure MotionOverflow where
  axis : MotionAxis
  deriving DecidableEq

@[ext]
structure MotionDelta where
  dx : Int
  dy : Int
  scrollX : Int
  scrollY : Int
  deriving DecidableEq

namespace MotionDelta

instance : Zero MotionDelta := ⟨⟨0, 0, 0, 0⟩⟩

/-- The exact sum of two displacements. -/
instance : Add MotionDelta :=
  ⟨fun a b => ⟨a.dx + b.dx, a.dy + b.dy, a.scrollX + b.scrollX, a.scrollY + b.scrollY⟩⟩

/-- What is left between two displacements, exactly. -/
instance : Sub MotionDelta :=
  ⟨fun a b => ⟨a.dx - b.dx, a.dy - b.dy, a.scrollX - b.scrollX, a.scrollY - b.scrollY⟩⟩

@[simp] theorem zero_dx : (0 : MotionDelta).dx = 0 := rfl
@[simp] theorem zero_dy : (0 : MotionDelta).dy = 0 := rfl
@[simp] theorem zero_scrollX : (0 : MotionDelta).scrollX = 0 := rfl
@[simp] theorem zero_scrollY : (0 : MotionDelta).scrollY = 0 := rfl
@[simp] theorem add_dx (a b : MotionDelta) : (a + b).dx = a.dx + b.dx := rfl
@[simp] theorem add_dy (a b : MotionDelta) : (a + b).dy = a.dy + b.dy := rfl
@[simp] theorem add_scrollX (a b : MotionDelta) : (a + b).scrollX = a.scrollX + b.scrollX := rfl
@[simp] theorem add_scrollY (a b : MotionDelta) : (a + b).scrollY = a.scrollY + b.scrollY := rfl
@[simp] theorem sub_dx (a b : MotionDelta) : (a - b).dx = a.dx - b.dx := rfl
@[simp] theorem sub_dy (a b : MotionDelta) : (a - b).dy = a.dy - b.dy := rfl
@[simp] theorem sub_scrollX (a b : MotionDelta) : (a - b).scrollX = a.scrollX - b.scrollX := rfl
@[simp] theorem sub_scrollY (a b : MotionDelta) : (a - b).scrollY = a.scrollY - b.scrollY := rfl

instance : AddCommMonoid MotionDelta where
  add_assoc a b c := by ext <;> simp [Int.add_assoc]
  zero_add a := by ext <;> simp
  add_zero a := by ext <;> simp
  add_comm a b := by ext <;> simp [Int.add_comm]
  nsmul := nsmulRec

theorem sub_self (a : MotionDelta) : a - a = 0 := by
  ext <;> simp

theorem sub_eq_zero {a b : MotionDelta} : a - b = 0 ↔ a = b := by
  simp only [MotionDelta.ext_iff, sub_dx, sub_dy, sub_scrollX, sub_scrollY, zero_dx, zero_dy,
    zero_scrollX, zero_scrollY, Int.sub_eq_zero]

/-- Every axis of the displacement fits an `i64`. -/
def InRange (d : MotionDelta) : Prop :=
  InI64 d.dx ∧ InI64 d.dy ∧ InI64 d.scrollX ∧ InI64 d.scrollY

end MotionDelta

structure CumulativeMotion where
  totalDx : Int
  totalDy : Int
  totalScrollX : Int
  totalScrollY : Int
  deriving DecidableEq

/-- `checked_add` of one axis, naming the axis that overflowed. -/
def checkedAdd (left right : Int) (axis : MotionAxis) : Except MotionOverflow Int :=
  match checkedI64 (left + right) with
  | some sum => .ok sum
  | none => .error ⟨axis⟩

/-- `checked_sub` of one axis, naming the axis that overflowed. -/
def checkedSub (left right : Int) (axis : MotionAxis) : Except MotionOverflow Int :=
  match checkedI64 (left - right) with
  | some difference => .ok difference
  | none => .error ⟨axis⟩

namespace CumulativeMotion

def zero : CumulativeMotion := ⟨0, 0, 0, 0⟩

def checkedAdd (totals : CumulativeMotion) (delta : MotionDelta) :
    Except MotionOverflow CumulativeMotion := do
  let totalDx ← Core.checkedAdd totals.totalDx delta.dx .pointerX
  let totalDy ← Core.checkedAdd totals.totalDy delta.dy .pointerY
  let totalScrollX ← Core.checkedAdd totals.totalScrollX delta.scrollX .scrollX
  let totalScrollY ← Core.checkedAdd totals.totalScrollY delta.scrollY .scrollY
  return { totalDx, totalDy, totalScrollX, totalScrollY }

/-- The displacement needed to reconcile `previous` to `totals`. -/
def checkedDeltaFrom (totals previous : CumulativeMotion) : Except MotionOverflow MotionDelta := do
  let dx ← checkedSub totals.totalDx previous.totalDx .pointerX
  let dy ← checkedSub totals.totalDy previous.totalDy .pointerY
  let scrollX ← checkedSub totals.totalScrollX previous.totalScrollX .scrollX
  let scrollY ← checkedSub totals.totalScrollY previous.totalScrollY .scrollY
  return { dx, dy, scrollX, scrollY }

/-- The totals read as one displacement from the activation's start. -/
def displacement (totals : CumulativeMotion) : MotionDelta :=
  ⟨totals.totalDx, totals.totalDy, totals.totalScrollX, totals.totalScrollY⟩

@[simp]
theorem displacement_zero : zero.displacement = 0 := rfl

@[simp]
theorem displacement_inj {a b : CumulativeMotion} :
    a.displacement = b.displacement ↔ a = b := by
  obtain ⟨_, _, _, _⟩ := a
  obtain ⟨_, _, _, _⟩ := b
  simp [displacement]

/-- **A checked addition is the exact sum**, and it answers just when the sum is in range. -/
theorem checkedAdd_eq_ok {totals next : CumulativeMotion} {delta : MotionDelta} : totals.checkedAdd delta = .ok next ↔
      next.displacement = totals.displacement + delta ∧ (totals.displacement + delta).InRange := by
  obtain ⟨a, b, c, d⟩ := totals
  obtain ⟨a', b', c', d'⟩ := next
  simp only [checkedAdd, Core.checkedAdd, checkedI64, displacement, MotionDelta.InRange,
    MotionDelta.ext_iff, MotionDelta.add_dx, MotionDelta.add_dy, MotionDelta.add_scrollX, MotionDelta.add_scrollY]
  split_ifs <;> simp_all [bind, Except.bind, pure, Except.pure, eq_comm]

/-- **A checked difference is the exact one**, and it answers just when it is in range. -/
theorem checkedDeltaFrom_eq_ok {totals previous : CumulativeMotion} {delta : MotionDelta} :
    totals.checkedDeltaFrom previous = .ok delta ↔ delta = totals.displacement - previous.displacement ∧
        (totals.displacement - previous.displacement).InRange := by
  obtain ⟨a, b, c, d⟩ := totals
  obtain ⟨a', b', c', d'⟩ := previous
  obtain ⟨x, y, z, w⟩ := delta
  simp only [checkedDeltaFrom, Core.checkedSub, checkedI64, displacement, MotionDelta.InRange,
    MotionDelta.ext_iff, MotionDelta.sub_dx, MotionDelta.sub_dy, MotionDelta.sub_scrollX, MotionDelta.sub_scrollY]
  split_ifs <;> simp_all [bind, Except.bind, pure, Except.pure, eq_comm]

end CumulativeMotion

inductive AnchorKind where
  | checkpoint | terminal
  deriving DecidableEq

/-- Where a control stands in the sender's motion: the reliable cross-reference into the datagrams. -/
structure MotionAnchor where
  activationId : ActivationId
  throughMotionSequence : MotionSequence
  senderCaptureTime : MonotonicTimeMicros
  totals : CumulativeMotion
  finalTouchState : TouchState
  kind : AnchorKind
  deriving DecidableEq

structure StateSnapshot where
  held : HeldState
  motionAnchor : MotionAnchor
  deriving DecidableEq

structure SnapshotAck where
  snapshotSequence : ControlSequence
  acceptedGeneration : TransportGeneration
  deriving DecidableEq

inductive SessionCloseReason where
  | localRelease
  | leaseExpired
  | superseded
  | permissionRevoked
  | protocolViolation
  | motionOverflow
  | backendUnavailable
  | suspend
  deriving DecidableEq

/-- Payloads for the one reliable, ordered input-control stream. -/
inductive ReliableControl where
  | enter
  | keyDown (key : HidUsage)
  | keyUp (key : HidUsage)
  | buttonDown (button : PointerButton) (anchor : MotionAnchor)
  | buttonUp (button : PointerButton) (anchor : MotionAnchor)
  | touchBegin (initialState : TouchState)
  | touchEnd (anchor : MotionAnchor)
  | touchCancel (anchor : MotionAnchor)
  | stateSnapshot (snapshot : StateSnapshot)
  | snapshotAck (ack : SnapshotAck)
  | sessionClose (reason : SessionCloseReason) (finalAnchor : Option MotionAnchor)
  deriving DecidableEq

/-- The anchor a payload carries, if it carries one. -/
def ReliableControl.motionAnchor : ReliableControl → Option MotionAnchor
  | .buttonDown _ anchor | .buttonUp _ anchor | .touchEnd anchor | .touchCancel anchor =>
    some anchor
  | .stateSnapshot snapshot => some snapshot.motionAnchor
  | .sessionClose _ (some anchor) => some anchor
  | _ => none

structure ReliableControlMessage where
  session : SessionContext
  sequence : ControlSequence
  payload : ReliableControl
  deriving DecidableEq

/-- A datagram carrying the cumulative state from the activation's start. -/
structure MotionFrame where
  session : SessionContext
  motionSequence : MotionSequence
  controlWatermark : ControlSequence
  senderCaptureTime : MonotonicTimeMicros
  totals : CumulativeMotion
  touchSnapshot : Option TouchState
  deriving DecidableEq

inductive ProbePayload where
  | probe (sequence : ProbeSequence) (sentAt : MonotonicTimeMicros)
  | probeEcho (sequence : ProbeSequence) (probeSentAt receivedAt echoedAt : MonotonicTimeMicros)
  deriving DecidableEq

structure ProbeMessage where
  session : SessionContext
  payload : ProbePayload
  deriving DecidableEq

/-- One backend-neutral playout operation (`core/playout.rs`). -/
structure PlayoutStep where
  mappedCaptureTime : MonotonicTimeMicros
  throughSequence : MotionSequence
  delta : MotionDelta
  touchSnapshot : Option TouchState
  targetReached : Bool
  pointerCatchUpLimited : Bool
  scrollCatchUpLimited : Bool
  deriving DecidableEq

end Zflow.Core
