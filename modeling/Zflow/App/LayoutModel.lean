import Mathlib.Data.List.Sort
import Zflow.Desktop.Layout
import Zflow.Lib.Checked

/-!
# The layout one computer shows

A computer's own view of the arrangement (`src/app/layout_model.rs`): the shared layout with the names
this computer has for the others, how a person moves its screens, and the shared form of an edit. Where its
screens touch is in `Zflow.App.Transitions`.
-/

namespace Zflow.Desktop

/-- This edit with the tiles of `previous` that its editor could not show put back, until it is full.
A tile the edit covers is left out. -/
def putBack (known : Key → Bool) : List Tile → List Tile → List Tile
  | tiles, [] => tiles
  | tiles, tile :: rest =>
    if tiles.length ≥ maxSharedTiles then tiles
    else if !known tile.key && !tiles.any (overlaps tile) then putBack known (tiles ++ [tile]) rest
    else putBack known tiles rest

def SharedLayout.withOthersFrom (layout previous : SharedLayout) (known : Key → Bool) : SharedLayout :=
  { layout with tiles := putBack known layout.tiles previous.tiles }

end Zflow.Desktop

namespace Zflow.App

open Lib Desktop

/-- `MAX_SNAP`: the farthest a move reaches for an edge to snap to. -/
def maxSnap : Nat := 2048

structure Monitor where
  id : String
  label : String
  peer : Option String
  display : Option Display
  x : Int
  y : Int
  width : Nat
  height : Nat
  deriving DecidableEq

/-- Left, top, right and bottom. -/
structure Bounds where
  left : Int
  top : Int
  right : Int
  bottom : Int
  deriving DecidableEq

/-- Where a screen moved by (ex, ey) would stand. -/
def Bounds.moved (b : Bounds) (ex ey : Int) : Bounds :=
  ⟨b.left + ex, b.top + ey, b.right + ex, b.bottom + ey⟩

def Bounds.apart (a b : Bounds) : Bool :=
  a.left ≥ b.right || a.right ≤ b.left || a.top ≥ b.bottom || a.bottom ≤ b.top

structure Layout where
  monitors : List Monitor

/-- Each paired computer's name here, with its key fingerprint. -/
abbrev Keys := Std.ExtTreeMap String Key

namespace Monitor

def active (m : Monitor) : Bool := m.display.all (·.active)

def bounds (m : Monitor) : Bounds := ⟨m.x, m.y, m.x + m.width, m.y + m.height⟩

/-- The key of the monitor's computer. -/
def key (own : Key) (keys : Keys) (m : Monitor) : Option Key :=
  match m.peer with
  | none => some own
  | some name => keys[name]?

def overlaps (m other : Monitor) : Bool :=
  m.bounds.left < other.bounds.right && m.bounds.right > other.bounds.left &&
    m.bounds.top < other.bounds.bottom && m.bounds.bottom > other.bounds.top

def inRange (at_ : Int) : Bool := -(maxCoordinate : Int) ≤ at_ && at_ ≤ maxCoordinate

def validGeometry (m : Monitor) : Bool :=
  inRange m.x && inRange m.y && (1 ≤ m.width && m.width ≤ maxDimension) &&
    (1 ≤ m.height && m.height ≤ maxDimension)

end Monitor

/-- An id, a label or a peer's name: at most 256 bytes, not only blanks, and no control characters. -/
def validText (value : String) : Bool :=
  value.toList.any (!isWhitespace ·) && value.utf8ByteSize ≤ 256 && !value.toList.any isControl

/-- The walk over the monitors, with those met before. -/
def validateMonitorsFrom : List Monitor → List Monitor → Except String Unit
  | _, [] => .ok ()
  | met, m :: rest => do
    (m.id :: m.label :: m.peer.toList).forM fun value => refuseIf (!validText value)
      "Monitor IDs, labels, and peer names must contain 1 to 256 bytes without control characters."
    refuseIf (met.any (·.id = m.id)) "Monitor IDs must be unique."
    match m.display with
    | some display => display.validate
    | none => .ok ()
    refuseIf (!m.validGeometry)
      "Monitor coordinates must be within ±100000; dimensions must be between 1 and 16384."
    met.forM fun other => refuseIf (m.active && other.active && m.overlaps other)
      ("Monitors " ++ m.label ++ " and " ++ other.label ++ " overlap.")
    validateMonitorsFrom (met ++ [m]) rest

namespace Layout

/-- `MAX_MONITORS` is `MAX_SHARED_TILES`. -/
def validate (layout : Layout) : Except String Unit := do
  refuseIf (!(layout.monitors.length ≤ maxSharedTiles)) "Use at most 32 monitors."
  validateMonitorsFrom [] layout.monitors

/-! ## The shared form -/

/-- The tiles of the monitors whose computer is paired, each computer's display once. -/
def tilesOf (own : Key) (keys : Keys) : List (Key × Option String) → List Monitor → List Tile
  | _, [] => []
  | seen, m :: rest =>
    match m.key own keys with
    | none => tilesOf own keys seen rest
    | some key =>
      let name := (key, m.display.map Display.id)
      if seen.contains name then tilesOf own keys seen rest
      else ⟨key, m.display, m.x, m.y, m.width, m.height⟩ :: tilesOf own keys (name :: seen) rest

def toShared (layout : Layout) (version : Nat) (own : Key) (keys : Keys) : SharedLayout :=
  ⟨version, own, (tilesOf own keys [] layout.monitors).take maxSharedTiles⟩

/-- This computer's name for a key; the last one where several names have it. -/
def nameOf (keys : Keys) (key : Key) : Option String :=
  (keys.toList.reverse.find? (·.2 = key)).map (·.1)

/-- A tile as this computer shows it, unless its computer is not paired here. -/
def monitorOf (own : Key) (ownLabel : String) (keys : Keys) (tile : Tile) : Option Monitor :=
  (if tile.key = own then some ("local", ownLabel, none)
    else (nameOf keys tile.key).map fun name => ("peer:" ++ name, name, some name)).map
    fun (id, label, peer) =>
      { id := match tile.display with
          | none => id
          | some display => id ++ "/" ++ display.id
        label := match tile.display with
          | none => label
          | some display => display.name ++ " · " ++ label
        peer
        display := tile.display
        x := tile.x
        y := tile.y
        width := tile.width
        height := tile.height }

def fromShared (shared : SharedLayout) (own : Key) (ownLabel : String) (keys : Keys) : Layout :=
  ⟨shared.tiles.filterMap (monitorOf own ownLabel keys)⟩

/-! ## Moves -/

/-- `i32::try_from`. -/
def tryI32 (n : Int) : Option Int := if -2147483648 ≤ n ∧ n ≤ 2147483647 then some n else none

/-- The move of all of `moving` by (ex, ey), where they stay on the canvas and nothing overlaps. -/
def fits (moving : List Monitor) (others : List Bounds) (ex ey : Int) : Option (Int × Int) := do
  let free := moving.all fun m =>
    let there := Bounds.moved m.bounds ex ey
    Monitor.inRange there.left && Monitor.inRange there.top && m.validGeometry &&
      (!m.active || others.all fun other => Bounds.apart there other)
  if free then
    let dx ← tryI32 ex
    let dy ← tryI32 ey
    return (dx, dy)
  else none

/-- A side of another screen: where the dragged one would touch it, the span along that side, and the
size and the place along it of the dragged one. -/
structure Side where
  upright : Bool
  across : Int
  start : Int
  stop : Int
  size : Int
  dragged : Int
  deriving DecidableEq

def sides (m : Monitor) (dx dy : Int) (other : Bounds) : List Side :=
  let (toX, toY) := (m.x + dx, m.y + dy)
  [⟨true, other.left - m.width, other.top, other.bottom, m.height, toY⟩,
    ⟨true, other.right, other.top, other.bottom, m.height, toY⟩,
    ⟨false, other.top - m.height, other.left, other.right, m.width, toX⟩,
    ⟨false, other.bottom, other.left, other.right, m.width, toX⟩]

/-- Lined up with the side's start, end or middle where that is near enough, then where it was dragged. -/
def alongs (side : Side) (tolerance : Int) : List Int :=
  let linedUp := [side.start, side.stop - side.size,
    side.start + (side.stop - side.start - side.size).tdiv 2]
  ((linedUp.mergeSort fun a b => (a - side.dragged).natAbs ≤ (b - side.dragged).natAbs).filter
    fun along => (along - side.dragged).natAbs ≤ tolerance) ++ [side.dragged]

/-- The first place along a side within `tolerance` where nothing overlaps, with how far off it is. -/
def against (moving : List Monitor) (others : List Bounds) (m : Monitor) (dx dy tolerance : Int)
    (side : Side) : Option (Int × (Int × Int)) :=
  (alongs side tolerance).findSome? fun along =>
    if along ≥ side.stop ∨ along + side.size ≤ side.start then none
    else
      let (cx, cy) := if side.upright then (side.across, along) else (along, side.across)
      let (ex, ey) := (cx - m.x, cy - m.y)
      let (offX, offY) := (ex - dx, ey - dy)
      if (offX.natAbs : Int) > tolerance ∨ (offY.natAbs : Int) > tolerance then none
      else (fits moving others ex ey).map fun delta => (offX * offX + offY * offY, delta)

/-- The nearest one, the first where several are. -/
def nearest (best : Option (Int × (Int × Int))) (found : Int × (Int × Int)) :
    Option (Int × (Int × Int)) :=
  match best with
  | none => some found
  | some b => if found.1 < b.1 then some found else best

/-- How far to move the screens at `members`, all alike: the nearest edge within `tolerance` where
nothing overlaps, else (dx, dy) itself. -/
def snap (layout : Layout) (members : List Nat) (dx dy tolerance : Int) : Option (Int × Int) := do
  if ¬(0 ≤ tolerance ∧ tolerance ≤ maxCoordinate) ∨ members.isEmpty then none
  let moving ← members.mapM fun index => layout.monitors[index]?
  if !moving.any (·.active) then none
  let others := (layout.monitors.zipIdx.filter fun (other, index) =>
    !members.contains index && other.active).map fun (other, _) => other.bounds
  let found := (moving.filter (·.active)).flatMap fun m =>
    others.flatMap fun other =>
      (sides m dx dy other).filterMap (against moving others m dx dy tolerance)
  match found.foldl nearest none with
  | some (_, delta) => some delta
  | none => fits moving others dx dy

/-- The screens at `members` moved by (dx, dy). -/
def moveAll (layout : Layout) (members : List Nat) (dx dy : Int) : Layout :=
  ⟨layout.monitors.mapIdx fun i m =>
    if members.contains i then { m with x := m.x + dx, y := m.y + dy } else m⟩

/-- This layout with screen `id` at (x, y), or against an edge within `tolerance` of there. With
`computer`, every screen of its computer moves alike. -/
def moved (layout : Layout) (id : String) (x y : Int) (tolerance : Nat) (computer : Bool) :
    Except String Layout :=
  match layout.monitors.findIdx? (·.id = id) with
  | none => .error s!"The layout has no screen {id}"
  | some index =>
    match layout.monitors[index]? with
    | none => .error s!"The layout has no screen {id}"
    | some anchor =>
      let members :=
        if computer then
          (List.range layout.monitors.length).filter fun other =>
            layout.monitors[other]?.any (·.peer = anchor.peer)
        else [index]
      match layout.snap members (x - anchor.x) (y - anchor.y) (min tolerance maxSnap : Nat) with
      | none => .error "Screens cannot overlap"
      | some (dx, dy) =>
        .ok (layout.moveAll members dx dy)

end Layout

/-! ## An edit -/

structure Move where
  id : String
  x : Int
  y : Int
  tolerance : Nat
  computer : Bool

/-- A view after some moves of its screens, each of which could be made. -/
def Layout.movedBy (layout : Layout) : List Move → Except String Layout
  | [] => .ok layout
  | m :: rest => do (← layout.moved m.id m.x m.y m.tolerance m.computer).movedBy rest

/-- The computers the editor knows: its own, and those it has a name for. -/
def knows (own : Key) (keys : Keys) (key : Key) : Bool := key = own || keys.toList.any (·.2 = key)

/-- The next version of `kept`, as the layout a person arranged: `rearrange` of `app/native.rs`. -/
def rearranged (kept : SharedLayout) (next : Layout) (version : Nat) (own : Key) (keys : Keys) :
    SharedLayout :=
  (next.toShared version own keys).withOthersFrom kept (knows own keys)

/-- A new version of `layout` with the tile `id` of this computer's view moved: `with_tile_moved` of
`daemon.rs`. -/
def withTileMoved (layout : SharedLayout) (own : Key) (keys : Keys) (id : String) (x y : Int)
    (tolerance : Nat) (computer : Bool) : Except String SharedLayout := do
  let view ← (Layout.fromShared layout own "This computer" keys).moved id x y tolerance computer
  let moved := rearranged layout view (saturatingAdd layout.version 1) own keys
  moved.validate
  return moved

end Zflow.App
