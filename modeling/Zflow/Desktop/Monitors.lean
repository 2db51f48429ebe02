import Mathlib.Data.List.Sort
import Mathlib.Data.String.Basic
import Zflow.Desktop.Resize
import Zflow.Lib.Checked

/-!
# A layout follows the monitors a computer has

`with_geometry` of `src/desktop/monitors.rs` reconciles one computer's tiles with the displays it reports.
What a distance along its desktop comes to along its old tile is computed in floating point and rounded:
`Scale` is that function, and `exactScale` is the one that does not round on the way.
-/

namespace Zflow.Desktop

open Lib

/-- `(distance as f64 * (size / whole)).round() as i32`. -/
abbrev Scale : Type := Int → Nat → Nat → Int

/-- `f64::round`, of an exact product: halves go away from zero. -/
def exactScale : Scale := fun distance size whole =>
  let n := distance * size
  if 0 ≤ n then (2 * n + whole) / (2 * whole) else -((-(2 * n) + whole) / (2 * whole))

/-- About 100 desk units per inch. Unknown sizes retain logical proportions. -/
def Display.deskSize (display : Display) : Nat × Nat :=
  if display.widthMm > 0 ∧ display.heightMm > 0 then (display.widthMm * 4, display.heightMm * 4)
  else (display.bounds.width, display.bounds.height)

namespace Tile

/-- A tile of the computer `key` whose display is reported is active, and one whose display is not is
dormant. -/
def marked (key : Key) (displays : List Display) (tile : Tile) : Tile :=
  if tile.key = key then
    { tile with display := tile.display.map fun old =>
        { old with active := displays.any fun display => display.id = old.id } }
  else tile

def dormant (tile : Tile) : Bool := tile.display.any fun display => !display.active

def rank (tile : Tile) : Key ×ₗ WithBot String := toLex (tile.key, tile.display.map Display.id)

end Tile

/-- Stable ordering also avoids publishing a new version at every poll. -/
def sortTiles (tiles : List Tile) : List Tile := tiles.insertionSort fun a b => a.rank ≤ b.rank

namespace SharedLayout

variable (scale : Scale) (key : Key)

/-- A display's part of the old bounding rectangle. -/
def piece (old : Tile) (bounds : Rect) (display : Display) : Option Tile := do
  let rect := display.bounds
  let x := scale (rect.x - bounds.x) old.width bounds.width
  let y := scale (rect.y - bounds.y) old.height bounds.height
  let right := scale (rect.x + rect.width - bounds.x) old.width bounds.width
  let bottom := scale (rect.y + rect.height - bounds.y) old.height bounds.height
  return {
    key
    display := some display
    x := ← checkedI32 (old.x + x)
    y := ← checkedI32 (old.y + y)
    width := (max (right - x) 1).toNat
    height := (max (bottom - y) 1).toNat }

/-- Splits the old bounding rectangle in place, where there is one. -/
def splitLegacy (geometry : Geometry) (tiles : List Tile) : Option (List Tile) :=
  match splitFirst (isTileOf key none) tiles with
  | none => some tiles
  | some (before, old, after) => do
    let bounds ← geometry.bounds.toOption
    let pieces ← geometry.displays.mapM (piece scale key old bounds)
    return before ++ after ++ pieces

/-- The tiles with `tile` where it stands, if nothing else stands there, else at a free edge. A returning
monitor keeps its spot if still free. -/
def settle (before : List Tile) (tile : Tile) (after : List Tile) : Option (List Tile) :=
  if (before ++ after).any (overlaps tile) then do
    let placed ← freeSpot (before ++ after) (before ++ after).head? key tile.width tile.height
    return before ++ after ++ [{ placed with display := tile.display }]
  else some (before ++ tile :: after)

/-- One reported display gets its tile, of its size on the desk. -/
def fitDisplay (layout : SharedLayout) (display : Display) : Option SharedLayout :=
  let (width, height) := display.deskSize
  match splitFirst (isTileOf key (some display.id)) layout.tiles with
  | some (before, old, after) => do
    let tiles ← settle key before { old with display := some display } after
    let next := { layout with tiles }
    return (next.withDisplaySize key (some display.id) width height).getD next
  | none => do
    let anchor := (layout.tiles.find? (·.key = key)).or layout.tiles.head?
    let placed ← freeSpot layout.tiles anchor key width height
    return { layout with tiles := layout.tiles ++ [{ placed with display := some display }] }

/-- Reconciles only this computer's detected displays. Unplugged displays keep their saved positions but
cannot participate in crossings. -/
def withGeometry (layout : SharedLayout) (geometry : Geometry) : Option SharedLayout := do
  geometry.validate.toOption
  if geometry.displays.isEmpty then
    let bounds ← geometry.bounds.toOption
    layout.withOwnSize key bounds.width bounds.height
  else
    let marked := layout.tiles.map (Tile.marked key geometry.displays)
    -- Dormant placements must not push active screens away or block a replug.
    let active ← splitLegacy scale key geometry (marked.filter fun tile => !tile.dormant)
    let fitted ← geometry.displays.foldlM (fitDisplay key) { layout with tiles := active }
    let tiles := sortTiles (fitted.tiles ++ marked.filter Tile.dormant)
    if tiles = sortTiles layout.tiles then none
    else layout.nextVersion key tiles

end SharedLayout

end Zflow.Desktop
