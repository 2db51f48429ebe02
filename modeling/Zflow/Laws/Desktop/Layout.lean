import Mathlib.Data.List.Nodup
import Zflow.Desktop.Layout

/-!
# What a shared layout that is accepted holds

`validate` reports the first error it meets; a layout passes exactly where it is `Valid`. A spot that is
free is on the canvas and under no other tile, and where none is found there is no room to the right of
all the tiles.
-/

namespace Zflow.Desktop

open Lib

theorem overlaps_symm (a b : Tile) : overlaps a b = overlaps b a := by
  unfold overlaps span
  dsimp only
  rw [Bool.eq_iff_iff]
  simp only [Bool.and_eq_true, decide_eq_true_eq]
  omega

theorem isOk_iff {check : Except String Unit} : check.isOk = true ↔ check = .ok () := by
  cases check with
  | error error => simp [Except.isOk, Except.toBool]
  | ok _ => simp [Except.isOk, Except.toBool]

/-- Left and top of a tile are on the canvas. -/
def Tile.OnCanvas (tile : Tile) : Prop := tile.x.natAbs ≤ maxCoordinate ∧ tile.y.natAbs ≤ maxCoordinate

/-- A size that a tile can have. -/
def Fits (width height : Nat) : Prop :=
  (1 ≤ width ∧ width ≤ maxDimension) ∧ 1 ≤ height ∧ height ≤ maxDimension

instance (tile : Tile) : Decidable tile.OnCanvas := inferInstanceAs (Decidable (_ ∧ _))

instance (width height : Nat) : Decidable (Fits width height) := inferInstanceAs (Decidable ((_ ∧ _) ∧ _ ∧ _))

theorem Tile.placed_iff {tile : Tile} : tile.placed = true ↔ tile.OnCanvas ∧ Fits tile.width tile.height := by
  unfold Tile.placed OnCanvas Fits
  simp only [Bool.and_eq_true, decide_eq_true_eq]
  tauto

structure Tile.Valid (tile : Tile) : Prop where
  display : ∀ display ∈ tile.display, display.validate = .ok ()
  onCanvas : tile.OnCanvas
  fits : Fits tile.width tile.height

/-- One tile's checks and those of the rest. -/
theorem validateTilesFrom_cons {met : List (Key × Option String)} {tile : Tile} {rest : List Tile} :
    validateTilesFrom met (tile :: rest) = .ok () ↔
      tile.name ∉ met ∧ tile.Valid ∧ validateTilesFrom (tile.name :: met) rest = .ok () := by
  have hvalid : tile.Valid ↔ (∀ display ∈ tile.display, display.validate = .ok ()) ∧ tile.placed = true := by
    rw [Tile.placed_iff]
    exact ⟨fun h => ⟨h.display, h.onCanvas, h.fits⟩, fun h => ⟨h.1, h.2.1, h.2.2⟩⟩
  have hfresh : refuseIf (met.contains tile.name) "Invalid or repeated layout tile" = .ok () ↔
      tile.name ∉ met := by simp
  show (refuseIf (met.contains tile.name) _ >>= _) = _ ↔ _
  rw [check_bind_eq_ok, hfresh, hvalid, show tile.name = (tile.key, tile.display.map Display.id) from rfl]
  cases tile.display with
  | none => simp [check_bind_eq_ok]
  | some display => simp [check_bind_eq_ok, and_assoc]

theorem validateTilesFrom_eq_ok {met : List (Key × Option String)} {tiles : List Tile} :
    validateTilesFrom met tiles = .ok () ↔ (tiles.map Tile.name).Nodup ∧ (∀ name ∈ tiles.map Tile.name, name ∉ met) ∧
        ∀ tile ∈ tiles, tile.Valid := by
  induction tiles generalizing met with
  | nil => simp [validateTilesFrom]
  | cons tile rest ih =>
    rw [validateTilesFrom_cons, ih, List.map_cons, List.nodup_cons, List.forall_mem_cons, List.forall_mem_cons]
    simp only [List.mem_cons, not_or]
    constructor
    · rintro ⟨hfresh, hvalid, hnodup, happart, hrest⟩
      refine ⟨⟨fun hmem => (happart _ hmem).1 rfl, hnodup⟩, ⟨hfresh, ?_⟩, hvalid, hrest⟩
      exact fun name hname => (happart name hname).2
    · rintro ⟨⟨hnew, hnodup⟩, ⟨hfresh, happart⟩, hvalid, hrest⟩
      refine ⟨hfresh, hvalid, hnodup, fun name hname => ⟨?_, happart name hname⟩, hrest⟩
      rintro rfl
      exact hnew hname

namespace SharedLayout

/-- **A layout that is accepted.** -/
structure Valid (layout : SharedLayout) : Prop where
  version : layout.version ≤ maxToken
  length : layout.tiles.length ≤ maxSharedTiles
  names : (layout.tiles.map Tile.name).Nodup
  tiles : ∀ tile ∈ layout.tiles, tile.Valid

theorem validate_isOk_iff {layout : SharedLayout} : layout.validate.isOk = true ↔ layout.Valid := by
  rw [isOk_iff]
  show (refuseIf _ _ >>= _) = _ ↔ _
  rw [check_bind_eq_ok]
  show _ ∧ (refuseIf _ _ >>= _) = _ ↔ _
  rw [check_bind_eq_ok, validateTilesFrom_eq_ok]
  simp only [refuseIf_eq_ok, Bool.not_eq_false', decide_eq_true_eq, List.not_mem_nil, not_false_eq_true,
    implies_true, true_and]
  constructor
  · intro h
    obtain ⟨hversion, hlength, hnames, htiles⟩ := h
    exact ⟨hversion, hlength, hnames, htiles⟩
  · exact fun h => ⟨h.version, h.length, h.names, h.tiles⟩

theorem names_nodup {layout : SharedLayout} (h : layout.validate.isOk = true) :
    (layout.tiles.map Tile.name).Nodup := (validate_isOk_iff.mp h).names

/-- A tile of a layout that is accepted has a name of its own. -/
theorem Valid.eq_of_name {layout : SharedLayout} (h : layout.Valid) {a b : Tile} (ha : a ∈ layout.tiles)
    (hb : b ∈ layout.tiles) (hname : a.name = b.name) : a = b :=
  List.inj_on_of_nodup_map h.names ha hb hname

end SharedLayout

/-! ## Free spots -/

theorem shifted_eq_some {tile there : Tile} {dx dy : Int} (h : shifted tile dx dy = some there) :
    there = { tile with x := tile.x + dx, y := tile.y + dy } ∧ there.OnCanvas := by
  unfold shifted at h
  split at h
  · rename_i hcanvas
    cases h
    exact ⟨rfl, hcanvas⟩
  · cases h

/-- A tile of a size for a computer, at a spot. -/
def newTile (key : Key) (width height : Nat) (spot : Int × Int) : Tile :=
  ⟨key, none, spot.1, spot.2, width, height⟩

/-- Where a new tile is tried: beside the anchor, then to the right of all tiles. -/
def spots (tiles : List Tile) (anchor : Option Tile) (width height : Nat) : List (Int × Int) :=
  (anchor.map fun a => beside a width height).getD [] ++
    [(((tiles.map fun tile => (span tile.x tile.width).2).max?).getD 0, (anchor.map Tile.y).getD 0)]

/-- A new tile at a spot is on the canvas and under no other. -/
structure Free (tiles : List Tile) (tile : Tile) : Prop where
  onCanvas : tile.OnCanvas
  apart : ∀ other ∈ tiles, overlaps tile other = false

instance (tiles : List Tile) (tile : Tile) : Decidable (Free tiles tile) :=
  decidable_of_iff (tile.OnCanvas ∧ ∀ other ∈ tiles, overlaps tile other = false)
    ⟨fun h => ⟨h.1, h.2⟩, fun h => ⟨h.onCanvas, h.apart⟩⟩

/-- None of the spots that are tried is free. -/
def Crowded (tiles : List Tile) (anchor : Option Tile) (key : Key) (width height : Nat) : Prop :=
  ∀ spot ∈ spots tiles anchor width height, ¬ Free tiles (newTile key width height spot)

instance (tiles : List Tile) (anchor : Option Tile) (key : Key) (width height : Nat) :
    Decidable (Crowded tiles anchor key width height) := inferInstanceAs (Decidable (∀ _ ∈ _, ¬ _))

/-- A tile stands at the first of the spots that is free. -/
def TakesFirst (tiles : List Tile) (anchor : Option Tile) (key : Key) (width height : Nat) (tile : Tile) : Prop :=
  ∃ front spot back, spots tiles anchor width height = front ++ spot :: back ∧
    (∀ other ∈ front, ¬ Free tiles (newTile key width height other)) ∧ tile = newTile key width height spot ∧
      Free tiles tile

section

variable {tiles : List Tile} {anchor : Option Tile} {key : Key} {width height : Nat} {tile : Tile}

theorem shifted_origin (key : Key) (width height : Nat) (spot : Int × Int) :
    shifted ⟨key, none, 0, 0, width, height⟩ spot.1 spot.2 =
      if (newTile key width height spot).OnCanvas then some (newTile key width height spot) else none := by
  by_cases hcanvas : (newTile key width height spot).OnCanvas
  · rw [if_pos hcanvas]
    exact (if_pos (by simpa [newTile, Tile.OnCanvas] using hcanvas)).trans (by simp [newTile])
  · rw [if_neg hcanvas]
    exact if_neg (by simpa [newTile, Tile.OnCanvas] using hcanvas)

/-- The search moves a tile to each spot in turn and keeps the first that is free. -/
theorem freeSpot_eq_find? : freeSpot tiles anchor key width height =
    ((spots tiles anchor width height).find? fun spot => Free tiles (newTile key width height spot)).map
      (newTile key width height) := by
  show ((spots tiles anchor width height).filterMap fun spot => shifted _ spot.1 spot.2).find? _ = _
  simp only [shifted_origin]
  induction spots tiles anchor width height with
  | nil => rfl
  | cons spot rest ih =>
    rw [List.filterMap_cons, List.find?_cons]
    by_cases hcanvas : (newTile key width height spot).OnCanvas
    · rw [if_pos hcanvas]
      dsimp only
      rw [List.find?_cons]
      by_cases hclear : ∀ other ∈ tiles, overlaps (newTile key width height spot) other = false
      · have hfree : Free tiles (newTile key width height spot) := ⟨hcanvas, hclear⟩
        have hany : (!tiles.any fun other => overlaps (newTile key width height spot) other) = true := by
          simpa using hclear
        rw [hany, decide_eq_true hfree]
        rfl
      · have hany : (!tiles.any fun other => overlaps (newTile key width height spot) other) = false := by
          simpa using hclear
        rw [hany, decide_eq_false fun hfree : Free _ _ => hclear hfree.apart]
        exact ih
    · rw [if_neg hcanvas, decide_eq_false fun hfree : Free _ _ => hcanvas hfree.onCanvas]
      exact ih

/-- **A spot that is found** is the first of those tried that is free. -/
theorem freeSpot_eq_some_iff :
    freeSpot tiles anchor key width height = some tile ↔ TakesFirst tiles anchor key width height tile := by
  rw [freeSpot_eq_find?, Option.map_eq_some_iff]
  constructor
  · rintro ⟨spot, hfound, rfl⟩
    obtain ⟨hfree, front, back, hspots, hnone⟩ := List.find?_eq_some_iff_append.mp hfound
    exact ⟨front, spot, back, hspots, fun other hother => by simpa using hnone other hother, rfl, by simpa using hfree⟩
  · rintro ⟨front, spot, back, hspots, hnone, rfl, hfree⟩
    refine ⟨spot, List.find?_eq_some_iff_append.mpr ⟨by simpa using hfree, front, back, hspots, ?_⟩, rfl⟩
    exact fun other hother => by simpa using hnone other hother

theorem freeSpot_eq_some (h : freeSpot tiles anchor key width height = some tile) :
    (∃ spot ∈ spots tiles anchor width height, tile = newTile key width height spot) ∧ Free tiles tile := by
  obtain ⟨front, spot, back, hspots, -, rfl, hfree⟩ := freeSpot_eq_some_iff.mp h
  exact ⟨⟨spot, hspots ▸ by simp, rfl⟩, hfree⟩

/-- **No spot is found** where none of those tried is free. -/
theorem freeSpot_eq_none :
    freeSpot tiles anchor key width height = none ↔ Crowded tiles anchor key width height := by
  rw [freeSpot_eq_find?, Option.map_eq_none_iff, List.find?_eq_none]
  simp only [decide_eq_true_eq]
  rfl

end

end Zflow.Desktop
