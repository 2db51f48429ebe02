import Zflow.Lib.Metering

/-!
# Wheel units to pixels

`ScrollScale` (`src/macos/pointer.rs`): what the Mac posts for a scroll. The running total of wheel units is
rounded to pixels, and each scroll posts how far that moved.
-/

namespace Zflow.Macos

open Lib

/-- `WHEEL_DETENT`. -/
def wheelDetent : Int := 120

/-- `PIXELS_PER_DETENT`. -/
def pixelsPerDetent : Int := 30

/-- `total_pixels`: half a pixel rounds away from zero. -/
def totalPixels (units : Int) : Int :=
  let scaled := saturateI64 (units * pixelsPerDetent)
  (saturateI64 (scaled + scaled.sign * wheelDetent.tdiv 2)).tdiv wheelDetent

/-- `wheel`. -/
def wheel (value : Int) : Int := clampI32 value

/-- `advance`: the whole pixels that an axis moves, and its new total. -/
def advance (total units : Int) : Option (Int × Int) := do
  let before := totalPixels total
  let total := saturateI64 (total + units)
  return (wheel (← checkedI64 (totalPixels total - before)), total)

structure ScrollScale where
  /-- Wheel units since the activation began, on each axis. -/
  total : Int × Int

namespace ScrollScale

def default : ScrollScale := ⟨(0, 0)⟩

/-- The pixels to post, where an axis moved a whole one. -/
def pixels (scale : ScrollScale) (units : Int × Int) : Option (Option (Int × Int) × ScrollScale) := do
  let (x, totalX) ← advance scale.total.1 units.1
  let (y, totalY) ← advance scale.total.2 units.2
  return (if x ≠ 0 ∨ y ≠ 0 then some (x, y) else none, ⟨(totalX, totalY)⟩)

end ScrollScale

end Zflow.Macos
