import Mathlib.Data.Prod.Lex
import Zflow.Desktop.Protocol

/-!
# The layout the paired computers share

The arrangement every paired computer keeps, which of two is newer, and a new one with tiles for the
computers it lacks (`SharedLayout` of `src/desktop.rs`). A computer's key is the number its fingerprint
writes; fingerprints have one length, so the order of the strings is that of the numbers.
-/

namespace Zflow.Desktop

open Lib

/-- `MAX_SHARED_TILES`. -/
def maxSharedTiles : Nat := 32

/-- `MAX_COORDINATE`. -/
def maxCoordinate : Nat := 100000

/-- `MAX_DIMENSION`. -/
def maxDimension : Nat := 16384

/-- A key fingerprint. -/
abbrev Key : Type := Nat

structure Tile where
  key : Key
  display : Option Display
  x : Int
  y : Int
  width : Nat
  height : Nat
  deriving DecidableEq

/-- What tells the tiles of a layout apart. -/
def Tile.name (tile : Tile) : Key × Option String := (tile.key, tile.display.map Display.id)

structure SharedLayout where
  version : Nat
  /-- The computer that made this version. -/
  editor : Key
  tiles : List Tile
  deriving DecidableEq

/-- Where a stretch begins and ends. -/
def span (start : Int) (size : Nat) : Int × Int := (start, start + size)

def overlaps (a b : Tile) : Bool :=
  let (al, ar) := span a.x a.width
  let (at_, ab) := span a.y a.height
  let (bl, br) := span b.x b.width
  let (bt, bb) := span b.y b.height
  al < br && ar > bl && at_ < bb && ab > bt

/-- Where a tile of size (w, h) goes against each side of `anchor`: right, left, below and above. -/
def beside (anchor : Tile) (w h : Nat) : List (Int × Int) :=
  let (left, right) := span anchor.x anchor.width
  let (top, bottom) := span anchor.y anchor.height
  [(right, top), (left - w, top), (left, bottom), (left, top - h)]

/-- `tile` moved, if that stays on the canvas. -/
def shifted (tile : Tile) (dx dy : Int) : Option Tile :=
  if (tile.x + dx).natAbs ≤ maxCoordinate ∧ (tile.y + dy).natAbs ≤ maxCoordinate then
    some { tile with x := tile.x + dx, y := tile.y + dy }
  else none

/-- Where a new tile goes among `tiles`: beside `anchor` where there is room, else to the right of all of
them. -/
def freeSpot (tiles : List Tile) (anchor : Option Tile) (key : Key) (width height : Nat) :
    Option Tile :=
  let new : Tile := ⟨key, none, 0, 0, width, height⟩
  let spots := (anchor.map fun a => beside a width height).getD []
  let pastAll := ((tiles.map fun tile => (span tile.x tile.width).2).max?).getD 0
  let row := (anchor.map Tile.y).getD 0
  ((spots ++ [(pastAll, row)]).filterMap fun (x, y) => shifted new x y).find? fun tile =>
    !tiles.any fun other => overlaps tile other

/-- A tile's size and place are within bounds. -/
def Tile.placed (tile : Tile) : Bool :=
  tile.x.natAbs ≤ maxCoordinate && tile.y.natAbs ≤ maxCoordinate
    && (1 ≤ tile.width && tile.width ≤ maxDimension)
    && (1 ≤ tile.height && tile.height ≤ maxDimension)

/-- The walk over the tiles, with the computers and monitors met before. -/
def validateTilesFrom : List (Key × Option String) → List Tile → Except String Unit
  | _, [] => .ok ()
  | met, tile :: rest => do
    let name := (tile.key, tile.display.map Display.id)
    refuseIf (met.contains name) "Invalid or repeated layout tile"
    match tile.display with
    | some display => display.validate
    | none => .ok ()
    refuseIf (!tile.placed) "Invalid layout tile geometry"
    validateTilesFrom (name :: met) rest

namespace SharedLayout

def validate (layout : SharedLayout) : Except String Unit := do
  refuseIf (!(layout.version ≤ maxToken)) "Invalid layout version"
  refuseIf (!(layout.tiles.length ≤ maxSharedTiles)) "A shared layout holds at most 32 monitors"
  validateTilesFrom [] layout.tiles

/-- What orders two versions. -/
def rank (layout : SharedLayout) : Nat ×ₗ Key := toLex (layout.version, layout.editor)

/-- Whether this version replaces `other`. -/
def isNewerThan (layout other : SharedLayout) : Bool :=
  layout.version > other.version ||
    (layout.version == other.version && layout.editor > other.editor)

/-- The tiles with one for each of the keys they lack, until they are full. -/
def placeTiles (own : Key) (width height : Nat) : List Key → List Tile → Option (List Tile)
  | [], tiles => some tiles
  | key :: rest, tiles =>
    if key = own ∨ tiles.any (·.key = key) then placeTiles own width height rest tiles
    else if tiles.length ≥ maxSharedTiles then some tiles
    else do
      let placed ← freeSpot tiles (tiles.find? (·.key = own)) key width height
      placeTiles own width height rest (tiles ++ [placed])

/-- A new version, edited by `own`, with a tile for each of `keys` the layout lacks. -/
def withTilesFor (layout : SharedLayout) (own : Key) (keys : List Key) (width height : Nat) :
    Option SharedLayout := do
  let tiles ← placeTiles own width height keys layout.tiles
  if tiles.length = layout.tiles.length then none
  else
    let next : SharedLayout := ⟨layout.version + 1, own, tiles⟩
    if next.validate.isOk then some next else none

/-! ## Laws -/

theorem isNewerThan_iff {layout other : SharedLayout} :
    layout.isNewerThan other = true ↔ other.rank < layout.rank := by
  unfold isNewerThan rank
  rw [Prod.Lex.lt_iff]
  simp only [Bool.or_eq_true, Bool.and_eq_true, decide_eq_true_eq, beq_iff_eq, gt_iff_lt, ofLex_toLex]
  constructor
  · rintro (h | ⟨heq, h⟩)
    · exact .inl h
    · exact .inr ⟨heq.symm, h⟩
  · rintro (h | ⟨heq, h⟩)
    · exact .inl h
    · exact .inr ⟨heq.symm, h⟩

theorem length_of_valid {layout : SharedLayout} (h : layout.validate.isOk = true) :
    layout.tiles.length ≤ maxSharedTiles := by
  cases hvalid : layout.validate with
  | error error =>
    rw [hvalid] at h
    cases h
  | ok _ =>
    obtain ⟨-, hrest⟩ := check_bind_eq_ok.mp hvalid
    obtain ⟨hlength, -⟩ := check_bind_eq_ok.mp hrest
    simpa using hlength

/-- Placing tiles only adds some. -/
theorem length_placeTiles {own : Key} {width height : Nat} {keys : List Key} {tiles placed : List Tile}
    (h : placeTiles own width height keys tiles = some placed) : tiles.length ≤ placed.length := by
  induction keys generalizing tiles with
  | nil =>
    cases h
    exact Nat.le_refl _
  | cons key rest ih =>
    unfold placeTiles at h
    split at h
    · exact ih h
    split at h
    · cases h
      exact Nat.le_refl _
    · obtain ⟨tile, -, hrest⟩ := Option.bind_eq_some_iff.mp h
      have hlonger := ih hrest
      rw [List.length_append] at hlonger
      exact (Nat.le_add_right _ _).trans hlonger

/-- **A new version** is the next one, its editor's, valid, and has more tiles. -/
theorem withTilesFor_eq_some {layout next : SharedLayout} {own : Key} {keys : List Key}
    {width height : Nat} (h : layout.withTilesFor own keys width height = some next) :
    next.version = layout.version + 1 ∧ next.editor = own ∧ next.validate.isOk = true ∧
      layout.tiles.length < next.tiles.length := by
  obtain ⟨tiles, hplaced, hrest⟩ := Option.bind_eq_some_iff.mp h
  split at hrest
  · cases hrest
  rename_i hmore
  dsimp only at hrest
  split at hrest
  · rename_i hvalid
    cases hrest
    exact ⟨rfl, rfl, hvalid, Nat.lt_of_le_of_ne (length_placeTiles hplaced) (Ne.symm hmore)⟩
  · cases hrest

end SharedLayout

end Zflow.Desktop
