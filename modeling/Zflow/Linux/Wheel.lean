import Zflow.Core.Model
import Zflow.Lib.Metering

/-!
# The virtual pointer's wheels

`VirtualPointer::motion` (`src/linux/uinput.rs`): one report for a displacement. Each axis of the wheel is
reported twice, in the high-resolution units of the wire and in whole clicks, and what is under a click is
carried to the next report. What the kernel answers to a report changes nothing here. The buttons are in
`Linux/Uinput`.
-/

namespace Zflow.Linux

open Zflow.Core Lib

/-- `WHEEL_CLICK_UNITS`. -/
def wheelClickUnits : Int := 120

inductive RelativeAxisCode where
  | relX | relY | relHwheelHiRes | relWheelHiRes | relHwheel | relWheel
  deriving DecidableEq

structure RelativeEvent where
  axis : RelativeAxisCode
  value : Int

/-- `push_relative`: an axis that does not move is left out. -/
def pushRelative (axis : RelativeAxisCode) (value : Int) : List RelativeEvent :=
  if value ≠ 0 then [⟨axis, value⟩] else []

/-- `relative_value`. -/
def relativeValue (value : Int) : Int := clampI32 value

/-- `legacy_wheel_delta`: the whole clicks, and what is left. Both divisions truncate. -/
def legacyWheelDelta (remainder highResolution : Int) : Option (Int × Int) := do
  let total ← checkedI64 (remainder + highResolution)
  return (wrapI32 (total.tdiv wheelClickUnits), total.tmod wheelClickUnits)

/-- The remainders of a `VirtualPointer`. -/
structure LegacyWheels where
  legacyHwheelRemainder : Int
  legacyWheelRemainder : Int

namespace LegacyWheels

def new : LegacyWheels := ⟨0, 0⟩

/-- The report of a displacement; an empty one is not written. -/
def motion (w : LegacyWheels) (motion : MotionDelta) : Option (List RelativeEvent × LegacyWheels) := do
  let scrollX := relativeValue motion.scrollX
  let scrollY := relativeValue motion.scrollY
  let (legacyX, legacyHwheelRemainder) ← legacyWheelDelta w.legacyHwheelRemainder scrollX
  let (legacyY, legacyWheelRemainder) ← legacyWheelDelta w.legacyWheelRemainder scrollY
  return (pushRelative .relX (relativeValue motion.dx) ++ pushRelative .relY (relativeValue motion.dy)
      ++ pushRelative .relHwheelHiRes scrollX ++ pushRelative .relWheelHiRes scrollY
      ++ pushRelative .relHwheel legacyX ++ pushRelative .relWheel legacyY,
    ⟨legacyHwheelRemainder, legacyWheelRemainder⟩)

end LegacyWheels

/-- What a report moves an axis by. -/
def movedBy (axis : RelativeAxisCode) (report : List RelativeEvent) : Int :=
  ((report.filter (·.axis = axis)).map (·.value)).sum

end Zflow.Linux
