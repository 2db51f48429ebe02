import Mathlib.Data.Rat.Floor
import Zflow.Desktop.Protocol
import Zflow.Lib.Checked

/-!
# The edges of the Mac's desktop

Where the pointer enters this Mac and where it leaves (`ArmedEdge` of `src/macos/handoff_server.rs`). A
cursor's coordinates are finite, so they are rationals here, and arithmetic on them does not round. The
pixels are `i32`s; `newChecked` and `entryChecked` answer `none` where one of their sums or conversions
leaves its type.
-/

namespace Zflow.Macos

open Desktop Lib

structure CursorPosition where
  x : ℚ
  y : ℚ

/-- `NO_DISPLAY`. -/
def noDisplay : String := "No Mac display touches the selected crossing range"

/-- `MIN_DISPLAY`. -/
def minDisplay : Nat := 8

/-- A stretch of an edge with a display behind it, in points along the edge. -/
structure Segment where
  start : Int
  stop : Int
  display : Rect

/-- One outer edge of this desktop, cut to a handoff's range. -/
structure ArmedEdge where
  edge : Edge
  start : Nat
  stop : Nat
  /-- The edge's line: an x for left and right, a y for top and bottom. -/
  boundary : Int
  /-- Where the desktop starts along the edge, and how long the edge is. -/
  origin : Int
  span : Nat
  segments : List Segment

def vertical : Edge → Bool
  | .left | .right => true
  | .top | .bottom => false

/-- Where a rectangle's side along an edge is. -/
def side (rect : Rect) : Edge → Int
  | .left => rect.x
  | .right => rect.x + rect.width
  | .top => rect.y
  | .bottom => rect.y + rect.height

/-- `f64::round`: halves go away from zero. -/
def round (x : ℚ) : Int := if 0 ≤ x then ⌊x + 1 / 2⌋ else -⌊-x + 1 / 2⌋

namespace ArmedEdge

/-- A display's stretch of an edge, cut to the range. -/
def segment (edge : Edge) (rangeStart rangeStop : Int) (display : Rect) : Segment :=
  let (low, length) := if vertical edge then (display.y, display.height) else (display.x, display.width)
  ⟨max low rangeStart, min (low + length) rangeStop, display⟩

/-- `ArmedEdge::new`. The range's first and last pixels round inward. -/
def new (geometry : Geometry) (edge : Edge) (start stop : Nat) : Except String ArmedEdge := do
  let bounds ← geometry.bounds
  let (origin, span) := if vertical edge then (bounds.y, bounds.height) else (bounds.x, bounds.width)
  let boundary := side bounds edge
  let rangeStart := origin + ((start * span + fractionMax - 1) / fractionMax : Nat)
  let rangeStop := origin + (stop * span / fractionMax : Nat)
  let segments := (geometry.monitors.filter fun display => side display edge = boundary).map
    (segment edge rangeStart rangeStop)
  return ⟨edge, start, stop, boundary, origin, span,
    segments.filter fun segment => segment.stop > segment.start⟩

/-- The pixel of a segment nearest a wanted one. -/
def along (wanted : Int) (segment : Segment) : Int :=
  max segment.start (min wanted (segment.stop - 1))

/-- Where the pointer enters: three points in from the edge, at the pixel nearest the wanted one that
has a display behind it. -/
def entry (edge : ArmedEdge) (position : Nat) : Except String Point :=
  let wanted := edge.origin + (position * edge.span / fractionMax : Nat)
  match edge.segments.minOn? fun segment => (along wanted segment - wanted).natAbs with
  | none => .error noDisplay
  | some segment =>
    if segment.display.width < minDisplay ∨ segment.display.height < minDisplay then
      .error "The entry display is too small"
    else
      let along := along wanted segment
      .ok (match edge.edge with
        | .left => ⟨edge.boundary + 3, along⟩
        | .right => ⟨edge.boundary - 4, along⟩
        | .top => ⟨along, edge.boundary + 3⟩
        | .bottom => ⟨along, edge.boundary - 4⟩)

/-- A point's distance across the edge and along it. -/
def axes (edge : ArmedEdge) (point : CursorPosition) : ℚ × ℚ :=
  if vertical edge.edge then (point.x, point.y) else (point.y, point.x)

/-- The return position for a pointer that leaves at `along`, if a display in the range touches the edge
there. -/
def position (edge : ArmedEdge) (along : ℚ) : Option Nat :=
  if edge.segments.any fun segment => segment.start ≤ ⌊along⌋ ∧ ⌊along⌋ < segment.stop then
    let fraction := (along - edge.origin) * fractionMax / edge.span
    some (max (edge.start : Int) (min (round fraction) edge.stop)).toNat
  else none

/-- The edge's outermost pixels. -/
def onEdge (edge : ArmedEdge) (across : ℚ) : Bool :=
  let line : ℚ := edge.boundary
  match edge.edge with
  | .left | .top => across ≥ line ∧ across < line + 1
  | .right | .bottom => across ≥ line - 1 ∧ across < line

def leaves (edge : ArmedEdge) (fromAcross toAcross : ℚ) : Bool :=
  let line : ℚ := edge.boundary
  match edge.edge with
  | .left | .top => fromAcross ≥ line ∧ toAcross < line
  | .right | .bottom => fromAcross < line ∧ toAcross ≥ line

/-- Where the cursor sits on the edge's outermost pixels, if it does. That is where the clamp leaves a
pointer the peer pushes out. -/
def atEdge (edge : ArmedEdge) (cursor : CursorPosition) : Option Nat :=
  let (across, along) := edge.axes cursor
  if edge.onEdge across then edge.position along else none

/-- Where a move, before the clamp to the displays, leaves through the edge, if it does. -/
def crossing (edge : ArmedEdge) (start stop : CursorPosition) : Option Nat :=
  let (fromAcross, fromAlong) := edge.axes start
  let (toAcross, toAlong) := edge.axes stop
  if edge.leaves fromAcross toAcross then
    let travelled := (edge.boundary - fromAcross) / (toAcross - fromAcross)
    edge.position (fromAlong + travelled * (toAlong - fromAlong))
  else none

/-! ## Machine arithmetic -/

def sideChecked (rect : Rect) : Edge → Option Int
  | .left => some rect.x
  | .right => do checkedI32 (rect.x + (← checkedI32 rect.width))
  | .top => some rect.y
  | .bottom => do checkedI32 (rect.y + (← checkedI32 rect.height))

/-- `Geometry::bounds`, whose sums are `i64`s and whose sizes are `u32`s. -/
def boundsChecked (geometry : Geometry) : Option (Except String Rect) :=
  match geometry.validate with
  | .error error => some (.error error)
  | .ok _ => match geometry.monitors with
    | [] => some (.error "Desktop must contain 1 to 16 monitors")
    | first :: rest => do
      let x := rest.foldl (fun x rect => min x rect.x) first.x
      let y := rest.foldl (fun y rect => min y rect.y) first.y
      let rights ← (first :: rest).mapM fun rect => checkedI64 (rect.x + (rect.width : Int))
      let bottoms ← (first :: rest).mapM fun rect => checkedI64 (rect.y + (rect.height : Int))
      let right ← rights.max?
      let bottom ← bottoms.max?
      let width ← checkedU32 (← checkedI64 (right - x))
      let height ← checkedU32 (← checkedI64 (bottom - y))
      some (.ok ⟨x, y, width, height⟩)

/-- A fraction of the edge as a pixel: `scaled`, rounded, and added to where the edge starts. -/
def pixelChecked (rounded : Nat → Nat) (origin : Int) (span fraction : Nat) : Option Int := do
  let pixel ← checkedI32 (rounded (← checkedMulU64 fraction span))
  checkedI32 (origin + pixel)

/-- `div_ceil` by `fractionMax`. -/
def roundUp (scaled : Nat) : Nat := (scaled + fractionMax - 1) / fractionMax

def roundDown (scaled : Nat) : Nat := scaled / fractionMax

def segmentChecked (edge : Edge) (rangeStart rangeStop : Int) (display : Rect) : Option Segment := do
  let (low, length) := if vertical edge then (display.y, display.height) else (display.x, display.width)
  let high ← checkedI32 (low + (← checkedI32 length))
  some ⟨max low rangeStart, min high rangeStop, display⟩

def newChecked (geometry : Geometry) (edge : Edge) (start stop : Nat) : Option (Except String ArmedEdge) := do
  match ← boundsChecked geometry with
  | .error error => some (.error error)
  | .ok bounds =>
    let (origin, span) := if vertical edge then (bounds.y, bounds.height) else (bounds.x, bounds.width)
    let boundary ← sideChecked bounds edge
    let rangeStart ← pixelChecked roundUp origin span start
    let rangeStop ← pixelChecked roundDown origin span stop
    let sides ← geometry.monitors.mapM fun display => do some (display, ← sideChecked display edge)
    let touching := (sides.filter fun entry => entry.2 = boundary).map (·.1)
    let segments ← touching.mapM (segmentChecked edge rangeStart rangeStop)
    some (.ok ⟨edge, start, stop, boundary, origin, span,
      segments.filter fun segment => segment.stop > segment.start⟩)

def entryChecked (edge : ArmedEdge) (position : Nat) : Option (Except String Point) := do
  let wanted ← pixelChecked roundDown edge.origin edge.span position
  let _ ← edge.segments.mapM fun segment => checkedI32 (segment.stop - 1)
  match edge.segments.minOn? fun segment => (along wanted segment - wanted).natAbs with
  | none => some (.error noDisplay)
  | some segment =>
    if segment.display.width < minDisplay ∨ segment.display.height < minDisplay then
      some (.error "The entry display is too small")
    else
      let along := along wanted segment
      match edge.edge with
      | .left => do some (.ok ⟨← checkedI32 (edge.boundary + 3), along⟩)
      | .right => do some (.ok ⟨← checkedI32 (edge.boundary - 4), along⟩)
      | .top => do some (.ok ⟨along, ← checkedI32 (edge.boundary + 3)⟩)
      | .bottom => do some (.ok ⟨along, ← checkedI32 (edge.boundary - 4)⟩)

/-! ## Laws -/

variable {edge : ArmedEdge}

/-- **A return position lies in the edge's range.** -/
theorem position_range (hrange : edge.start ≤ edge.stop) {along : ℚ} {position : Nat}
    (h : edge.position along = some position) : edge.start ≤ position ∧ position ≤ edge.stop := by
  unfold ArmedEdge.position at h
  split at h
  · cases h
    omega
  · cases h

theorem atEdge_range (hrange : edge.start ≤ edge.stop) {cursor : CursorPosition} {position : Nat}
    (h : edge.atEdge cursor = some position) : edge.start ≤ position ∧ position ≤ edge.stop := by
  unfold atEdge at h
  dsimp only at h
  split at h
  · exact position_range hrange h
  · cases h

theorem crossing_range (hrange : edge.start ≤ edge.stop) {start stop : CursorPosition}
    {position : Nat} (h : edge.crossing start stop = some position) :
    edge.start ≤ position ∧ position ≤ edge.stop := by
  unfold crossing at h
  dsimp only at h
  split at h
  · exact position_range hrange h
  · cases h

theorem new_range {geometry : Geometry} {name : Edge} {start stop : Nat}
    (h : ArmedEdge.new geometry name start stop = .ok edge) : edge.start = start ∧ edge.stop = stop := by
  unfold ArmedEdge.new at h
  cases hbounds : geometry.bounds with
  | error error =>
    rw [hbounds] at h
    cases h
  | ok bounds =>
    rw [hbounds] at h
    cases h
    exact ⟨rfl, rfl⟩

end ArmedEdge

end Zflow.Macos
