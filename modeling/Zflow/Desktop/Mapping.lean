import Mathlib.Data.Rat.Floor
import Zflow.Desktop.Protocol

/-!
# Return mappings

Where a pointer that comes back stands on the edge it left (`ReturnMapping` of `src/desktop.rs`). Parts of an
edge are exact fractions here. None that is rounded is negative, and there `round` is `f64::round`.
-/

namespace Zflow.Desktop

open Lib

/-- `clamp(0.0, 1.0)`. -/
def clamped (part : ℚ) : ℚ := max 0 (min part 1)

/-- A part of an edge in units of `fractionMax`. -/
def units (part : ℚ) : Nat := (round (part * fractionMax)).toNat

/-- The linear map from one stretch of an edge onto another, its ends kept. -/
def carried (start stop start' stop' part : ℚ) : ℚ :=
  start' + clamped ((part - start) / (stop - start)) * (stop' - start')

/-- How far along an edge of `bounds` a point is, and how long that edge is. -/
def Rect.offset (bounds : Rect) (edge : Edge) (point : Point) : Int × Nat :=
  match edge with
  | .left | .right => (point.y - bounds.y, bounds.height)
  | .top | .bottom => (point.x - bounds.x, bounds.width)

/-- The point a little inside an edge of `bounds`, at that part of it. -/
def edgePoint (bounds : Rect) (edge : Edge) (along : ℚ) : Point :=
  let insetX : Nat := min 3 ((bounds.width - 1) / 2)
  let insetY : Nat := min 3 ((bounds.height - 1) / 2)
  let x := bounds.x + max 0 (min (round (along * bounds.width)) (bounds.width - 1))
  let y := bounds.y + max 0 (min (round (along * bounds.height)) (bounds.height - 1))
  match edge with
  | .left => ⟨bounds.x + insetX, y⟩
  | .right => ⟨bounds.x + bounds.width - 1 - insetX, y⟩
  | .top => ⟨x, bounds.y + insetY⟩
  | .bottom => ⟨x, bounds.y + bounds.height - 1 - insetY⟩

/-- The point of a monitor's stretch along an edge that is nearest to one on the edge. -/
def Rect.near (r : Rect) (edge : Edge) (point : Point) : Point :=
  match edge with
  | .left | .right => { point with y := max r.y (min point.y (r.y + r.height - 1)) }
  | .top | .bottom => { point with x := max r.x (min point.x (r.x + r.width - 1)) }

/-- How far apart two points on one edge are. -/
def Point.distance (a b : Point) : Nat := (a.x - b.x).natAbs + (a.y - b.y).natAbs

/-- Maps positions between the saved local edge and the receiver's crossing range. -/
structure ReturnMapping where
  geometry : Geometry
  edge : Edge
  localStart : ℚ
  localEnd : ℚ
  remoteStart : ℚ
  remoteEnd : ℚ

namespace ReturnMapping

def validate (mapping : ReturnMapping) : Except String Unit :=
  refuseIf (!([mapping.localStart, mapping.localEnd, mapping.remoteStart, mapping.remoteEnd].all
      (fun part => 0 ≤ part && part ≤ 1)
    && mapping.localStart < mapping.localEnd && mapping.remoteStart < mapping.remoteEnd))
    "Invalid desktop return mapping"

/-- Where a point here is on the receiver's range. -/
def fraction (mapping : ReturnMapping) (point : Point) : Except String Nat := do
  mapping.validate
  let bounds ← mapping.geometry.bounds
  let (offset, span) := bounds.offset mapping.edge point
  return units (carried mapping.localStart mapping.localEnd mapping.remoteStart mapping.remoteEnd
    ((offset : ℚ) / span))

/-- Where a position on the receiver's range is here: on the nearest display, where the edge has none at
the matching point. -/
def position (mapping : ReturnMapping) (position : Nat) : Except String Point := do
  mapping.validate
  refuseIf (!(units mapping.remoteStart ≤ position && position ≤ units mapping.remoteEnd))
    "The other computer returned an invalid crossing position"
  let along := carried mapping.remoteStart mapping.remoteEnd mapping.localStart mapping.localEnd
    ((position : ℚ) / fractionMax)
  let point := edgePoint (← mapping.geometry.bounds) mapping.edge along
  let near := mapping.geometry.monitors.filterMap fun r =>
    let near := r.near mapping.edge point
    if r.contains near then some near else none
  match near.minOn? (·.distance point) with
  | some near => return near
  | none => .error "No active Mac display touches the return edge; check the layout"

end ReturnMapping

end Zflow.Desktop
