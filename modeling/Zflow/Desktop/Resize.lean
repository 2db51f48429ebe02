import Zflow.Desktop.Layout
import Zflow.Lib.Walks

/-!
# A tile takes the size of its desktop

A tile that grows or shrinks keeps what it touches where it can (`with_own_size` and `with_display_size`
of `src/desktop.rs`). A `Slot` is one tile of the layout, as it stood and as it stands in the arrangement
that is tried.
-/

namespace Zflow.Desktop

open Lib

/-- The side of `a` that `b` shares part of, if any. -/
def touching (a b : Tile) : Option Edge :=
  let (al, ar) := span a.x a.width
  let (at_, ab) := span a.y a.height
  let (bl, br) := span b.x b.width
  let (bt, bb) := span b.y b.height
  let beside := at_ < bb && ab > bt
  let aboveOrBelow := al < br && ar > bl
  if beside && ar == bl then some .right
  else if beside && br == al then some .left
  else if aboveOrBelow && ab == bt then some .bottom
  else if aboveOrBelow && bb == at_ then some .top
  else none

structure Slot where
  before : Tile
  tile : Tile
  /-- The tile that takes a new size. -/
  target : Bool
  moved : Bool

/-- A tile as it stands, before one of the tiles takes a new size. -/
def slotOf (target : Bool) (tile : Tile) : Slot := ⟨tile, tile, target, target⟩

/-- The tiles as they stand, before `old` takes a new size. -/
def slotsOf (before : List Tile) (old : Tile) (after : List Tile) : List Slot :=
  before.map (slotOf false) ++ slotOf true old :: after.map (slotOf false)

/-- How good an arrangement is: contacts the tile keeps on the same side, then on any side, then whether
it touches anything, then the other tiles' contacts kept, then the fewest tiles moved. -/
abbrev Score : Type := Nat ×ₗ Nat ×ₗ Bool ×ₗ Nat ×ₗ Natᵒᵈ

section Resize

variable (old : Tile) (width height : Nat) (slots : List Slot)

/-- Every tile, with the old one at the new size and its corner at (x, y). -/
def resized (x y : Int) : Option (List Slot) :=
  (shifted { old with width, height } (x - old.x) (y - old.y)).map fun grown =>
    slots.map fun slot => if slot.target then { slot with tile := grown } else slot

/-- How far `other` slides to stay against the side of the old tile it is past, when that tile's corner
goes to (x, y). -/
def slide (x y : Int) (other : Tile) : Int × Int :=
  let (left, right) := span old.x old.width
  let (top, bottom) := span old.y old.height
  let (l, r) := span other.x other.width
  let (t, b) := span other.y other.height
  (if l ≥ right then x + width - right else if r ≤ left then x - left else 0,
    if t ≥ bottom then y + height - bottom else if b ≤ top then y - top else 0)

def corners : List (Int × Int) :=
  let (left, right) := span old.x old.width
  let (top, bottom) := span old.y old.height
  [(left, top), (right - width, top), (left, bottom - height), (right - width, bottom - height)]

/-- A tile that stands still under one that has moved. -/
def hits (slot : Slot) : Bool := !slot.moved && slots.any fun other => other.moved && overlaps other.tile slot.tile

/-- One turn of the loop that pushes tiles apart: the first tile that is hit slides, if that stays on the
canvas. -/
def pushTurn (by_ : Tile → Int × Int) : Option (Option (List Slot)) :=
  match splitFirst (hits slots) slots with
  | none => none
  | some (clear, slot, rest) =>
    let (dx, dy) := by_ slot.before
    some ((shifted slot.tile dx dy).map fun tile =>
      clear ++ { slot with tile, moved := true } :: rest)

/-- The loop, with a bound on its turns. -/
def pushApart (by_ : Tile → Int × Int) : Nat → List Slot → Option (List Slot)
  | 0, slots => some slots
  | turns + 1, slots =>
    match pushTurn slots by_ with
    | none => some slots
    | some none => none
    | some (some next) => pushApart by_ turns next

/-- The tile with its corner at (x, y), and the tiles in the way pushed on. -/
def pushed (x y : Int) : Option (List Slot) := do
  pushApart (slide old width height x y) slots.length (← resized old width height slots x y)

/-- The tile with its corner at (x, y), and all tiles past a side sliding with it. -/
def slid (x y : Int) : Option (List Slot) := do
  (← resized old width height slots x y).mapM fun slot =>
    if slot.target then some slot
    else
      let (dx, dy) := slide old width height x y slot.before
      (shifted slot.tile dx dy).map fun tile => { slot with tile }

def otherTiles : List Tile := (slots.filter fun slot => !slot.target).map Slot.before

/-- Where the tile goes when nothing else moves: beside another tile, else to the right of them all. -/
def places : List (Int × Int) :=
  let others := otherTiles slots
  let pastAll := ((others.map fun other => (span other.x other.width).2).max?).getD 0
  (others.flatMap fun other => beside other width height) ++ [(pastAll, old.y)]

/-- The arrangements that are tried and stay on the canvas, in order. -/
def arrangements : List (List Slot) :=
  let corners := corners old width height
  ((corners.map fun (x, y) => pushed old width height slots x y)
    ++ (corners.map fun (x, y) => slid old width height slots x y)
    ++ ((places old width height slots).map fun (x, y) => resized old width height slots x y)).filterMap id

/-- Contacts that are kept: by the tile on the same side, by it on any side, and by the others. -/
def keptContacts (slots : List Slot) : Nat × Nat × Nat :=
  (pairs slots).foldl (fun (same, any, rest) (a, b) =>
    match touching a.before b.before with
    | none => (same, any, rest)
    | some side =>
      let now := touching a.tile b.tile
      if a.target || b.target then (same + (now == some side).toNat, any + now.isSome.toNat, rest)
      else (same, any, rest + (now == some side).toNat)) (0, 0, 0)

def score (tried : List Slot) : Score :=
  let (same, any, rest) := keptContacts tried
  let others := tried.filter fun slot => !slot.target
  let grown := ((tried.find? Slot.target).map Slot.tile).getD old
  let touched := others.any fun other => (touching old other.before).isSome
  let touches := touched && others.any fun other => (touching grown other.tile).isSome
  let (left, right) := span old.x old.width
  let (top, bottom) := span old.y old.height
  let keptCorner := (grown.x == left || grown.x + width == right)
    && (grown.y == top || grown.y + height == bottom)
  let moved := (!keptCorner).toNat
    + others.countP fun other => (other.tile.x, other.tile.y) != (other.before.x, other.before.y)
  toLex (same, toLex (any, toLex (touches, toLex (rest, OrderDual.toDual moved))))

/-- Pairs that did not change keep whatever they had. -/
def apart (tried : List Slot) : Bool :=
  (pairs tried).all fun (a, b) =>
    (a.tile == a.before && b.tile == b.before) || !overlaps a.tile b.tile

/-- The first of the best. -/
def bestArrangement : Option (List Slot) :=
  ((arrangements old width height slots).filter apart).maxOn? (score old width height)

end Resize

namespace SharedLayout

/-- The next version, with these tiles. -/
def nextVersion (layout : SharedLayout) (key : Key) (tiles : List Tile) : Option SharedLayout :=
  let next : SharedLayout := ⟨layout.version + 1, key, tiles⟩
  if next.validate.isOk then some next else none

/-- Whether a tile is that of a computer's display. -/
def isTileOf (key : Key) (id : Option String) (tile : Tile) : Bool :=
  tile.key = key && tile.display.map Display.id = id

/-- A new version in which the computer `key` gives a tile the size of its desktop. A layout from a
computer that never had this one gets its tile beside the first one. -/
def withDisplaySize (layout : SharedLayout) (key : Key) (id : Option String) (width height : Nat) :
    Option SharedLayout :=
  match splitFirst (isTileOf key id) layout.tiles with
  | none =>
    if layout.tiles.length ≥ maxSharedTiles then none
    else do
      let tile ← freeSpot layout.tiles layout.tiles.head? key width height
      layout.nextVersion key (layout.tiles ++ [tile])
  | some (before, old, after) =>
    if (old.width, old.height) = (width, height) then none
    else do
      let tried ← bestArrangement old width height (slotsOf before old after)
      layout.nextVersion key (tried.map Slot.tile)

def withOwnSize (layout : SharedLayout) (key : Key) (width height : Nat) : Option SharedLayout :=
  layout.withDisplaySize key none width height

/-- A new version in which `new` takes over `old`'s tile, as when a reinstalled computer's new key is dropped onto
its old tile. -/
def withKeyReplaced (layout : SharedLayout) (own old new : Key) : Option SharedLayout :=
  if layout.tiles.any (·.key = new) then none
  else if !layout.tiles.any (·.key = old) then none
  else layout.nextVersion own
    (layout.tiles.map fun tile => if tile.key = old then { tile with key := new } else tile)

end SharedLayout

end Zflow.Desktop
