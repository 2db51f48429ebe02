import Zflow.Desktop.Monitors
import Zflow.Laws.Desktop.Resize

/-!
# The turn of one display

The displays that are reported are fitted one after the other, and `Turn` says on the canvas what one of them
does: its tile stays where it stands if nothing else stands there and else goes to the first spot that is free,
and it takes the display's size where the best arrangement makes a layout. The body of the loop is this relation
(`fitDisplay_eq_some_iff`) and the loop a walk of turns (`walk_iff`). What the laws of the modules after this one
say of room and of sizes they say of spots and arrangements, not of what the functions answer.
-/

namespace Zflow.Desktop

open Lib

/-- A tile of the computer `key` for a display, as it is reported. -/
structure Tile.Carries (key : Key) (display : Display) (tile : Tile) : Prop where
  key : tile.key = key
  display : tile.display = some display

theorem Tile.Carries.name {key : Key} {display : Display} {tile : Tile} (h : tile.Carries key display) :
    tile.name = (key, some display.id) := by
  unfold Tile.name
  rw [h.key, h.display, Option.map_some]

/-- The tile of a display that is active takes part in crossings. -/
theorem Tile.Carries.not_dormant {key : Key} {display : Display} {tile : Tile} (h : tile.Carries key display)
    (hactive : display.active = true) : tile.dormant = false := by
  unfold Tile.dormant
  rw [h.display, Option.any_some, hactive]
  rfl

/-- A tile has the size of its display on the desk. -/
def Tile.Sized (display : Display) (tile : Tile) : Prop := (tile.width, tile.height) = display.deskSize

instance (display : Display) (tile : Tile) : Decidable (tile.Sized display) :=
  inferInstanceAs (Decidable (_ = _))

/-- No other tile overlaps this one. -/
def Clear (tiles : List Tile) (tile : Tile) : Prop :=
  ∀ other ∈ tiles, other.name ≠ tile.name → overlaps tile other = false

namespace SharedLayout

variable {key : Key} {display : Display} {layout placed next : SharedLayout}

/-! ## One display at a time -/

/-- A reported display gets its tile. -/
def placeDisplay (key : Key) (layout : SharedLayout) (display : Display) : Option SharedLayout :=
  match splitFirst (isTileOf key (some display.id)) layout.tiles with
  | some (before, old, after) =>
    (settle key before { old with display := some display } after).map fun tiles => { layout with tiles }
  | none =>
    (freeSpot layout.tiles ((layout.tiles.find? (·.key = key)).or layout.tiles.head?) key
      display.deskSize.1 display.deskSize.2).map fun tile =>
        { layout with tiles := layout.tiles ++ [{ tile with display := some display }] }

/-- That tile takes its size, where an arrangement is found. -/
def sizeDisplay (key : Key) (display : Display) (layout : SharedLayout) : SharedLayout :=
  (layout.withDisplaySize key (some display.id) display.deskSize.1 display.deskSize.2).getD layout

theorem withDisplaySize_sized {front back : List Tile} {tile : Tile} {width height : Nat} {id : Option String}
    (hsplit : splitFirst (isTileOf key id) layout.tiles = some (front, tile, back))
    (hsize : (tile.width, tile.height) = (width, height)) :
    layout.withDisplaySize key id width height = none := by
  unfold withDisplaySize
  rw [hsplit]
  exact if_pos hsize

/-- A tile that is new has its size from the start. -/
theorem sizeDisplay_snoc {tile : Tile} (hfresh : splitFirst (isTileOf key (some display.id)) layout.tiles = none)
    (hname : isTileOf key (some display.id) tile = true) (hsize : tile.Sized display) :
    sizeDisplay key display { layout with tiles := layout.tiles ++ [tile] } =
      { layout with tiles := layout.tiles ++ [tile] } := by
  have hlast : splitFirst (isTileOf key (some display.id)) (layout.tiles ++ [tile]) =
      some (layout.tiles, tile, []) := splitFirst_append (splitFirst_eq_none.mp hfresh) hname
  have hnone : ({ layout with tiles := layout.tiles ++ [tile] } : SharedLayout).withDisplaySize key
      (some display.id) display.deskSize.1 display.deskSize.2 = none := withDisplaySize_sized hlast hsize
  unfold sizeDisplay
  rw [hnone]
  rfl

theorem fitDisplay_eq (key : Key) (layout : SharedLayout) (display : Display) :
    fitDisplay key layout display = (placeDisplay key layout display).map (sizeDisplay key display) := by
  unfold fitDisplay placeDisplay
  dsimp only
  cases hsplit : splitFirst (isTileOf key (some display.id)) layout.tiles with
  | some found =>
    obtain ⟨before, old, after⟩ := found
    dsimp only
    cases settle key before { old with display := some display } after <;> rfl
  | none =>
    dsimp only
    cases hfree : freeSpot layout.tiles ((layout.tiles.find? (·.key = key)).or layout.tiles.head?) key
        display.deskSize.1 display.deskSize.2 with
    | none => rfl
    | some tile =>
      obtain ⟨⟨spot, -, rfl⟩, -⟩ := freeSpot_eq_some hfree
      have hsized : Tile.Sized display { newTile key display.deskSize.1 display.deskSize.2 spot with
        display := some display } := rfl
      exact congrArg some (sizeDisplay_snoc hsplit (by simp [isTileOf, newTile]) hsized).symm

/-! ## The place of a display's tile -/

/-- The first tile of a name, with those before and after it. -/
structure FirstTile (key : Key) (id : Option String) (tiles before : List Tile) (old : Tile) (after : List Tile) :
    Prop where
  tiles : tiles = before ++ old :: after
  name : old.name = (key, id)
  first : (key, id) ∉ before.map Tile.name

theorem firstTile_iff {id : Option String} {tiles before after : List Tile} {old : Tile} :
    splitFirst (isTileOf key id) tiles = some (before, old, after) ↔ FirstTile key id tiles before old after := by
  have hnot : ∀ tile : Tile, isTileOf key id tile = false ↔ tile.name ≠ (key, id) := fun tile => by
    rw [Bool.eq_false_iff, ne_eq, isTileOf_iff]
  constructor
  · intro h
    obtain ⟨htiles, hname, hfirst⟩ := splitFirst_eq_some h
    refine ⟨htiles, isTileOf_iff.mp hname, fun hmem => ?_⟩
    obtain ⟨tile, htile, hsame⟩ := List.mem_map.mp hmem
    exact (hnot tile).mp (hfirst tile htile) hsame
  · rintro ⟨rfl, hname, hfirst⟩
    refine splitFirst_append (fun tile htile => (hnot tile).mpr fun hsame => hfirst ?_) (isTileOf_iff.mpr hname)
    exact hsame ▸ List.mem_map_of_mem htile

theorem FirstTile.mem {id : Option String} {tiles before after : List Tile} {old : Tile}
    (h : FirstTile key id tiles before old after) : (key, id) ∈ tiles.map Tile.name := by
  rw [h.tiles, ← h.name]
  simp

theorem FirstTile.unique {id : Option String} {tiles before before' after after' : List Tile} {old old' : Tile}
    (h : FirstTile key id tiles before old after) (h' : FirstTile key id tiles before' old' after') :
    before = before' ∧ old = old' ∧ after = after' := by
  have hsame := (firstTile_iff.mpr h).symm.trans (firstTile_iff.mpr h')
  simpa using hsame

/-- **A display's tile gets its place**: it keeps it where no other tile stands there, else it goes to the first free
spot, and so does the tile of a display that has none. -/
inductive Seated (key : Key) (display : Display) (tiles : List Tile) : List Tile → Prop
  | kept {before after : List Tile} {old : Tile} (there : FirstTile key (some display.id) tiles before old after)
      (clear : ∀ other ∈ before ++ after, overlaps old other = false) :
    Seated key display tiles (before ++ { old with display := some display } :: after)
  | moved {before after : List Tile} {old tile : Tile}
      (there : FirstTile key (some display.id) tiles before old after)
      (covered : ∃ other ∈ before ++ after, overlaps old other = true)
      (spot : TakesFirst (before ++ after) (before ++ after).head? key old.width old.height tile) :
    Seated key display tiles (before ++ after ++ [{ tile with display := some display }])
  | new {tile : Tile} (fresh : (key, some display.id) ∉ tiles.map Tile.name)
      (spot : TakesFirst tiles ((tiles.find? (·.key = key)).or tiles.head?) key display.deskSize.1
        display.deskSize.2 tile) :
    Seated key display tiles (tiles ++ [{ tile with display := some display }])

theorem Seated.mem {tiles placed : List Tile} (h : Seated key display tiles placed) :
    (key, some display.id) ∈ placed.map Tile.name := by
  cases h with
  | @kept before after old there _ =>
    have hkey : old.key = key := congrArg Prod.fst there.name
    refine List.mem_map.mpr ⟨{ old with display := some display }, by simp, ?_⟩
    rw [Tile.name, hkey]
    rfl
  | moved _ _ spot =>
    obtain ⟨_, _, _, -, -, rfl, -⟩ := spot
    exact List.mem_map.mpr ⟨_, List.mem_append_right _ (.head _), rfl⟩
  | new _ spot =>
    obtain ⟨_, _, _, -, -, rfl, -⟩ := spot
    exact List.mem_map.mpr ⟨_, List.mem_append_right _ (.head _), rfl⟩

/-- **No room for a display's tile**: another stands where it stood, or it has none, and no spot is free. -/
def NoSeat (key : Key) (display : Display) (tiles : List Tile) : Prop :=
  (∃ before old after, FirstTile key (some display.id) tiles before old after ∧
    (∃ other ∈ before ++ after, overlaps old other = true) ∧
    Crowded (before ++ after) (before ++ after).head? key old.width old.height) ∨
  (key, some display.id) ∉ tiles.map Tile.name ∧
    Crowded tiles ((tiles.find? (·.key = key)).or tiles.head?) key display.deskSize.1 display.deskSize.2

theorem settle_eq_none {before after : List Tile} {tile : Tile} : settle key before tile after = none ↔
    (∃ other ∈ before ++ after, overlaps tile other = true) ∧
      Crowded (before ++ after) (before ++ after).head? key tile.width tile.height := by
  rw [← freeSpot_eq_none, ← List.any_eq_true]
  unfold settle
  split
  · rename_i hcovered
    rw [and_iff_right hcovered, Option.bind_eq_bind, Option.bind_eq_none_iff]
    cases freeSpot (before ++ after) (before ++ after).head? key tile.width tile.height <;> simp
  · rename_i hclear
    simp [hclear]

/-- Where nothing else stands a tile stays, and else it goes to the first free spot. -/
theorem settle_eq_some_iff {before after tiles : List Tile} {tile : Tile} : settle key before tile after = some tiles ↔
      ((∀ other ∈ before ++ after, overlaps tile other = false) ∧ tiles = before ++ tile :: after) ∨
      (∃ other ∈ before ++ after, overlaps tile other = true) ∧ ∃ there,
        TakesFirst (before ++ after) (before ++ after).head? key tile.width tile.height there ∧
          tiles = before ++ after ++ [{ there with display := tile.display }] := by
  have hclear : (∀ other ∈ before ++ after, overlaps tile other = false) ↔
      ¬ (before ++ after).any (overlaps tile) = true := by simp [or_imp, forall_and]
  rw [hclear, ← List.any_eq_true]
  simp only [← freeSpot_eq_some_iff]
  unfold settle
  split
  · rename_i hcovered
    rw [or_iff_right fun h => h.1 hcovered, and_iff_right hcovered, Option.bind_eq_bind, Option.bind_eq_some_iff]
    simp [eq_comm]
  · rename_i hfree
    rw [or_iff_left fun h => hfree h.1, and_iff_right hfree, Option.some.injEq, eq_comm]

theorem placeDisplay_eq_some_iff : placeDisplay key layout display = some placed ↔
    ∃ tiles, Seated key display layout.tiles tiles ∧ placed = { layout with tiles } := by
  unfold placeDisplay
  cases hsplit : splitFirst (isTileOf key (some display.id)) layout.tiles with
  | some found =>
    obtain ⟨before, old, after⟩ := found
    have hthere := firstTile_iff.mp hsplit
    dsimp only
    rw [Option.map_eq_some_iff]
    constructor
    · rintro ⟨tiles, htiles, rfl⟩
      refine ⟨tiles, ?_, rfl⟩
      rcases settle_eq_some_iff.mp htiles with ⟨hclear, rfl⟩ | ⟨hcovered, there, hspot, rfl⟩
      · exact .kept hthere hclear
      · exact .moved hthere hcovered hspot
    · rintro ⟨tiles, hseated, rfl⟩
      refine ⟨tiles, settle_eq_some_iff.mpr ?_, rfl⟩
      cases hseated with
      | kept there clear =>
        obtain ⟨rfl, rfl, rfl⟩ := there.unique hthere
        exact .inl ⟨clear, rfl⟩
      | moved there covered spot =>
        obtain ⟨rfl, rfl, rfl⟩ := there.unique hthere
        exact .inr ⟨covered, _, spot, rfl⟩
      | new fresh _ => exact absurd hthere.mem fresh
  | none =>
    have hfresh := splitFirst_isTileOf_eq_none.mp hsplit
    dsimp only
    rw [Option.map_eq_some_iff]
    constructor
    · rintro ⟨tile, htile, rfl⟩
      exact ⟨_, .new hfresh (freeSpot_eq_some_iff.mp htile), rfl⟩
    · rintro ⟨tiles, hseated, rfl⟩
      cases hseated with
      | kept there _ => exact absurd there.mem hfresh
      | moved there _ _ => exact absurd there.mem hfresh
      | new _ spot => exact ⟨_, freeSpot_eq_some_iff.mpr spot, rfl⟩

theorem placeDisplay_eq_none : placeDisplay key layout display = none ↔ NoSeat key display layout.tiles := by
  unfold placeDisplay NoSeat
  cases hsplit : splitFirst (isTileOf key (some display.id)) layout.tiles with
  | some found =>
    obtain ⟨before, old, after⟩ := found
    have hthere := firstTile_iff.mp hsplit
    dsimp only
    rw [Option.map_eq_none_iff, or_iff_left fun h => h.1 hthere.mem, settle_eq_none]
    constructor
    · exact fun h => ⟨before, old, after, hthere, h⟩
    · rintro ⟨_, _, _, hother, h⟩
      obtain ⟨rfl, rfl, rfl⟩ := hother.unique hthere
      exact h
  | none =>
    have hfresh := splitFirst_isTileOf_eq_none.mp hsplit
    dsimp only
    rw [Option.map_eq_none_iff, freeSpot_eq_none]
    constructor
    · exact fun h => .inr ⟨hfresh, h⟩
    · rintro (⟨_, _, _, hthere, -⟩ | ⟨-, h⟩)
      · exact absurd hthere.mem hfresh
      · exact h

/-! ## Its size -/

/-- **A display's tile takes its size**: the best arrangement that keeps the tiles apart makes a layout. -/
def Takes (key : Key) (display : Display) (layout next : SharedLayout) : Prop :=
  ∃ before old after tried, FirstTile key (some display.id) layout.tiles before old after ∧ ¬ old.Sized display ∧
    bestArrangement old display.deskSize.1 display.deskSize.2 (slotsOf before old after) = some tried ∧
    next = ⟨layout.version + 1, key, tried.map Slot.tile⟩ ∧ next.Valid

/-- A display's tile is left at another size: there is no arrangement, or the best of them makes no layout. -/
def Refused (key : Key) (display : Display) (layout : SharedLayout) : Prop :=
  (∃ before old after, FirstTile key (some display.id) layout.tiles before old after ∧ ¬ old.Sized display) ∧
    ∀ next, ¬ Takes key display layout next

/-- A tile that is there takes a new size exactly so. -/
theorem withDisplaySize_eq_some_iff (hthere : (key, some display.id) ∈ layout.tiles.map Tile.name) :
    layout.withDisplaySize key (some display.id) display.deskSize.1 display.deskSize.2 = some next ↔
      Takes key display layout next := by
  unfold withDisplaySize Takes
  cases hsplit : splitFirst (isTileOf key (some display.id)) layout.tiles with
  | none => exact absurd hthere (splitFirst_isTileOf_eq_none.mp hsplit)
  | some found =>
    obtain ⟨before, old, after⟩ := found
    have hfirst := firstTile_iff.mp hsplit
    dsimp only
    constructor
    · intro h
      split at h
      · cases h
      · rename_i hsize
        obtain ⟨tried, hbest, hnext⟩ := Option.bind_eq_some_iff.mp h
        obtain ⟨rfl, hvalid⟩ := nextVersion_eq_some.mp hnext
        exact ⟨before, old, after, tried, hfirst, hsize, hbest, rfl, hvalid⟩
    · rintro ⟨_, _, _, tried, hother, hsize, hbest, rfl, hvalid⟩
      obtain ⟨rfl, rfl, rfl⟩ := hother.unique hfirst
      refine (if_neg hsize).trans ?_
      rw [hbest]
      exact nextVersion_eq_some.mpr ⟨rfl, hvalid⟩

/-- **The turn of a display.** -/
def Turn (key : Key) (display : Display) (layout next : SharedLayout) : Prop :=
  ∃ tiles, Seated key display layout.tiles tiles ∧ (Takes key display { layout with tiles } next ∨
    (∀ other, ¬ Takes key display { layout with tiles } other) ∧ next = { layout with tiles })

theorem sizeDisplay_eq_iff (hthere : (key, some display.id) ∈ layout.tiles.map Tile.name) :
    sizeDisplay key display layout = next ↔
      Takes key display layout next ∨ (∀ other, ¬ Takes key display layout other) ∧ next = layout := by
  unfold sizeDisplay
  simp only [← withDisplaySize_eq_some_iff hthere]
  cases layout.withDisplaySize key (some display.id) display.deskSize.1 display.deskSize.2 with
  | none => simp [eq_comm]
  | some taken => simp

/-- **The body of the loop** is the turn of a display. -/
theorem fitDisplay_eq_some_iff : fitDisplay key layout display = some next ↔ Turn key display layout next := by
  rw [fitDisplay_eq, Option.map_eq_some_iff]
  unfold Turn
  constructor
  · rintro ⟨placed, hplaced, hsized⟩
    obtain ⟨tiles, hseated, rfl⟩ := placeDisplay_eq_some_iff.mp hplaced
    exact ⟨tiles, hseated, (sizeDisplay_eq_iff hseated.mem).mp hsized⟩
  · rintro ⟨tiles, hseated, hsized⟩
    exact ⟨_, placeDisplay_eq_some_iff.mpr ⟨tiles, hseated, rfl⟩, (sizeDisplay_eq_iff hseated.mem).mpr hsized⟩

/-- **The loop** is a walk of turns. -/
theorem walk_iff {displays : List Display} {begun fitted : SharedLayout} :
    displays.foldlM (fitDisplay key) begun = some fitted ↔ Walk (Turn key) displays begun fitted :=
  foldlM_eq_some_iff fun _ _ _ => fitDisplay_eq_some_iff

end SharedLayout

end Zflow.Desktop
