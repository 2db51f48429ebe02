import Zflow.App.LayoutModel
import Zflow.Daemon.Layouts
import Zflow.Desktop.Monitors

/-!
# The layout a daemon starts from

Before anyone arranged the computers a daemon starts a layout of its own (`layout_or_initial` and
`initial_layout` of `src/daemon.rs`), and fits its own tiles as its monitors change (`fit_own_tile`). What it
makes so it keeps, unless it has a newer one.
-/

namespace Zflow.Daemon.Layouts

open Lib Desktop App

/-- `i32::MAX`. -/
def i32Max : Int := 2147483647

/-- The keys that were not seen before, each once. -/
def freshKeys : List Key → List Key → List Key
  | _, [] => []
  | seen, key :: rest => if seen.contains key then freshKeys seen rest else key :: freshKeys (key :: seen) rest

/-- A row of tiles from `x` on, each to the right of the one before. -/
def row : Int → List (Key × Nat × Nat) → List Tile
  | _, [] => []
  | x, (key, width, height) :: rest =>
    ⟨key, none, x, 0, width, height⟩ :: row (min (x + min (width : Int) i32Max) i32Max) rest

/-- The layout to start from before anyone arranged the computers: this computer's tile, then each paired
computer to its right. -/
def initialLayout (own : Key) (width height : Nat) (keys : Keys) : Except String SharedLayout := do
  let peers := (freshKeys [own] (keys.toList.map (·.2))).map fun key => (key, peerTileSize)
  let layout : SharedLayout := ⟨0, own, row 0 (((own, width, height) :: peers).take maxSharedTiles)⟩
  layout.validate.mapError fun _ => "This desktop is too large for the layout"
  return layout

/-- The layout a daemon keeps, or, before it keeps one, that which it starts from on the desktop that is
reported. -/
def layoutOrInitial (scale : Scale) (own : Key) (keys : Keys) (kept : Option SharedLayout)
    (snapshot : DesktopResponse) : Except String SharedLayout :=
  match kept with
  | some layout => .ok layout
  | none => match snapshot with
    | .snapshot geometry _ => do
      let bounds ← geometry.bounds
      let initial ← initialLayout own bounds.width bounds.height keys
      return (initial.withGeometry scale own geometry).getD initial
    | .unavailable reason => .error reason
    | _ => .error "GNOME did not describe this desktop"

/-- What a daemon keeps after it is given another layout. -/
def keptAfter (layout : SharedLayout) (current : SharedLayout) : SharedLayout :=
  if replaces layout (some current) then layout else current

end Zflow.Daemon.Layouts
