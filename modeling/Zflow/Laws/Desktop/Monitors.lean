import Zflow.Laws.Desktop.Geometry
import Zflow.Laws.Desktop.Turns

/-!
# What a layout has once it follows the monitors

The displays a computer reports are fitted one after the other. Each gets a tile where nothing else stands
(`Seated`), and that tile takes the display's size where an arrangement is found (`Takes`). What
is fitted stays fitted (`Fitting.step`): the displays after it move its tile but neither lose nor cover it.
-/

namespace Zflow.Desktop

open Lib

namespace SharedLayout

variable {key : Key} {display : Display} {layout placed next : SharedLayout}

/-! ## One display at a time -/

/-- What the display had before its tile `there` got its place: a tile of the same size, or none. -/
inductive Replaces (key : Key) (display : Display) (there : Tile) (rest : List Tile) : List Tile → Prop
  | kept (old : Tile) (name : old.name = (key, some display.id))
      (size : (there.width, there.height) = (old.width, old.height)) (canvas : old.OnCanvas → there.OnCanvas) :
      Replaces key display there rest [old]
  | new (fresh : (key, some display.id) ∉ rest.map Tile.name) (size : there.Sized display)
      (canvas : there.OnCanvas) : Replaces key display there rest []

/-- **What a seat leaves**: the display's tile stands clear among the others, and these are as they were. -/
structure Places (key : Key) (display : Display) (tiles placed : List Tile) (there : Tile) (former rest : List Tile) :
    Prop where
  before : tiles.Perm (former ++ rest)
  after : placed.Perm (there :: rest)
  replaces : Replaces key display there rest former
  carries : there.Carries key display
  clear : ∀ other ∈ rest, overlaps there other = false

theorem Seated.places {tiles placed : List Tile} (h : Seated key display tiles placed) :
    ∃ there former rest, Places key display tiles placed there former rest := by
  cases h with
  | @kept before after old hfirst hclear =>
    exact ⟨{ old with display := some display }, [old], before ++ after, hfirst.tiles ▸ List.perm_middle,
      List.perm_middle, .kept old hfirst.name rfl id, ⟨congrArg Prod.fst hfirst.name, rfl⟩, hclear⟩
  | @moved before after old tile hfirst _ hspot =>
    obtain ⟨_, spot, _, -, -, rfl, hfree⟩ := hspot
    exact ⟨_, [old], before ++ after, hfirst.tiles ▸ List.perm_middle, List.perm_append_singleton _ _,
      .kept old hfirst.name rfl fun _ => hfree.onCanvas, ⟨rfl, rfl⟩, hfree.apart⟩
  | new hfresh hspot =>
    obtain ⟨_, spot, _, -, -, rfl, hfree⟩ := hspot
    exact ⟨_, [], tiles, .refl _, List.perm_append_singleton _ _, .new hfresh rfl hfree.onCanvas, ⟨rfl, rfl⟩, hfree.apart⟩

/-- The tiles of the other computers stay where they are. -/
theorem Seated.others {tiles placed : List Tile} (h : Seated key display tiles placed) :
    placed.filter (·.key ≠ key) = tiles.filter (·.key ≠ key) := by
  cases h with
  | kept hfirst _ =>
    have hkey := congrArg Prod.fst hfirst.name
    dsimp only [Tile.name] at hkey
    simp [hfirst.tiles, hkey]
  | moved hfirst _ hspot =>
    obtain ⟨_, spot, _, -, -, rfl, -⟩ := hspot
    have hkey := congrArg Prod.fst hfirst.name
    dsimp only [Tile.name] at hkey
    simp [hfirst.tiles, hkey, newTile]
  | new _ hspot =>
    obtain ⟨_, spot, _, -, -, rfl, -⟩ := hspot
    simp [newTile]

/-- How a tile changes when that of a display takes its size. -/
structure Reshape (key : Key) (display : Display) (before after : Tile) : Prop where
  sameKey : after.key = before.key
  sameDisplay : after.display = before.display
  size : (after.width, after.height) = (before.width, before.height) ∨
    before.name = (key, some display.id) ∧ after.Sized display
  onCanvas : before.OnCanvas → after.OnCanvas

theorem Reshape.name {before after : Tile} (h : Reshape key display before after) : after.name = before.name := by
  unfold Tile.name
  rw [h.sameKey, h.sameDisplay]

/-- Two tiles that do not overlap if they did not before. -/
def KeepApart (a b : Tile × Tile) : Prop := overlaps a.1 b.1 = false → overlaps a.2 b.2 = false

instance : Std.Symm KeepApart where
  symm a b h := by
    unfold KeepApart
    rwa [overlaps_symm b.1, overlaps_symm b.2]

/-- How all tiles do. -/
structure Reshapes (key : Key) (display : Display) (tiles after : List Tile) (changes : List (Tile × Tile)) :
    Prop where
  before : changes.map Prod.fst = tiles
  after : changes.map Prod.snd = after
  each : ∀ change ∈ changes, Reshape key display change.1 change.2
  apart : changes.Pairwise KeepApart

theorem Reshapes.refl (tiles : List Tile) : Reshapes key display tiles tiles (tiles.map fun tile => (tile, tile)) where
  before := by
    rw [List.map_map]
    exact List.map_id _
  after := by
    rw [List.map_map]
    exact List.map_id _
  each change hchange := by
    obtain ⟨tile, -, rfl⟩ := List.mem_map.mp hchange
    exact ⟨rfl, rfl, .inl rfl, id⟩
  apart := List.pairwise_map.mpr (List.pairwise_of_forall fun _ _ => id)

theorem sizeDisplay_reshapes (hnames : (layout.tiles.map Tile.name).Nodup)
    (hthere : (key, some display.id) ∈ layout.tiles.map Tile.name) :
    ∃ changes, Reshapes key display layout.tiles (sizeDisplay key display layout).tiles changes ∧
      (Refused key display layout ∨
        ∀ change ∈ changes, change.1.name = (key, some display.id) → change.2.Sized display) := by
  unfold sizeDisplay
  cases hsize : layout.withDisplaySize key (some display.id) display.deskSize.1 display.deskSize.2 with
  | none =>
    refine ⟨_, Reshapes.refl layout.tiles, ?_⟩
    obtain ⟨old, hold, hname⟩ := List.mem_map.mp hthere
    obtain ⟨before, after, hsplit, -⟩ := splitFirst_isTileOf hnames hold hname
    by_cases hsized : old.Sized display
    · refine .inr fun change hchange hsame => ?_
      obtain ⟨tile, htile, rfl⟩ := List.mem_map.mp hchange
      exact List.inj_on_of_nodup_map hnames hold htile (hname.trans hsame.symm) ▸ hsized
    · refine .inl ⟨⟨before, old, after, firstTile_iff.mp hsplit, hsized⟩, fun next htakes => ?_⟩
      rw [(withDisplaySize_eq_some_iff hthere).mpr htakes] at hsize
      cases hsize
  | some next =>
    rcases withDisplaySize_eq_some hsize with ⟨hnone, -⟩ | ⟨front, old, back, tried, hsplit, hmem, hclear, hnext⟩
    · exact absurd hthere (splitFirst_isTileOf_eq_none.mp hnone)
    obtain ⟨htiles, hold, -⟩ := splitFirst_eq_some hsplit
    obtain ⟨rfl, -⟩ := nextVersion_eq_some.mp hnext
    have harranges := arranges_of_mem (still_slotsOf front back) hmem
    have htarget : ∀ slot ∈ tried, slot.target = isTileOf key (some display.id) slot.before := fun slot hslot =>
      target_of_arranges (htiles ▸ hnames) hold harranges hslot
    have hsized : ∀ slot ∈ tried, slot.before.name = (key, some display.id) → slot.tile.Sized display := by
      intro slot hslot hname
      have hkeep := (harranges.keeps slot hslot).size
      rwa [htarget slot hslot, isTileOf_iff.mpr hname, if_pos rfl] at hkeep
    refine ⟨tried.map fun slot => (slot.before, slot.tile), ⟨?_, ?_, ?_, ?_⟩, .inr ?_⟩
    · rw [List.map_map, htiles, ← tileList_of_arranges harranges]
      rfl
    · rw [List.map_map]
      rfl
    · intro change hchange
      obtain ⟨slot, hslot, rfl⟩ := List.mem_map.mp hchange
      have hkeeps := harranges.keeps slot hslot
      refine ⟨hkeeps.key, hkeeps.display, ?_, hkeeps.onCanvas⟩
      by_cases htake : slot.before.name = (key, some display.id)
      · exact .inr ⟨htake, hsized slot hslot htake⟩
      · have hkeep := hkeeps.size
        rw [htarget slot hslot, if_neg (fun hisTile => htake (isTileOf_iff.mp hisTile))] at hkeep
        exact .inl hkeep
    · exact List.pairwise_map.mpr (overlaps_of_apart hclear)
    · intro change hchange hname
      obtain ⟨slot, hslot, rfl⟩ := List.mem_map.mp hchange
      exact hsized slot hslot hname

/-! ## All that are reported -/

/-- A display is left at another size in its turn. -/
def Denied (key : Key) (displays : List Display) (start : SharedLayout) (display : Display) : Prop :=
  ∃ before rest layout tiles, displays = before ++ display :: rest ∧ Walk (Turn key) before start layout ∧
    Seated key display layout.tiles tiles ∧ Refused key display { layout with tiles }

/-- A tile has the size it came with. -/
def Former (first : List Tile) (tile : Tile) : Prop :=
  ∃ former ∈ first, former.name = tile.name ∧ (tile.width, tile.height) = (former.width, former.height)

/-- A tile that is moved. -/
def Moves (before after : Tile) : Prop := after = { before with x := after.x, y := after.y }

/-- A display that is fitted: its tile carries it, stands clear, and has its size, or the one it came with
where that was denied. -/
structure Fitted (key : Key) (first : List Tile) (denied : Display → Prop) (tiles : List Tile)
    (display : Display) (tile : Tile) : Prop where
  carries : tile.Carries key display
  clear : Clear tiles tile
  size : tile.Sized display ∨ denied display ∧ Former first tile

/-- **What the walk over the displays keeps**: the computer's tiles are those of reported displays, those
walked over are fitted, and the other computers' tiles are only moved. -/
structure Fitting (key : Key) (displays : List Display) (first : List Tile) (denied : Display → Prop)
    (done : List Display) (tiles : List Tile) : Prop where
  names : (tiles.map Tile.name).Nodup
  own : ∀ tile ∈ tiles, tile.key = key → ∃ display ∈ displays, tile.name = (key, some display.id)
  fitted : ∀ display ∈ done, ∃ tile ∈ tiles, Fitted key first denied tiles display tile
  pending : ∀ tile ∈ tiles, tile.key = key → (∀ display ∈ done, tile.name ≠ (key, some display.id)) →
    Former first tile
  others : List.Forall₂ Moves (first.filter (·.key ≠ key)) (tiles.filter (·.key ≠ key))
  valid : (∀ tile ∈ first, tile.Valid) → ∀ tile ∈ tiles, tile.Valid

section Step

variable {tiles placed after former rest : List Tile} {changes : List (Tile × Tile)} {tile there : Tile}

/-! ### What placing a tile leaves -/

theorem Places.names_nodup (h : Places key display tiles placed there former rest)
    (hnames : (tiles.map Tile.name).Nodup) : (placed.map Tile.name).Nodup := by
  have hbefore := ((h.before.map Tile.name).nodup_iff).mp hnames
  refine ((h.after.map Tile.name).nodup_iff).mpr ?_
  rw [List.map_cons, h.carries.name]
  cases h.replaces with
  | kept old hname _ _ => exact hname ▸ hbefore
  | new hfresh _ _ => exact List.nodup_cons.mpr ⟨hfresh, hbefore⟩

theorem Places.mem (h : Places key display tiles placed there former rest) (htile : tile ∈ placed) :
    tile = there ∨ tile ∈ tiles :=
  (List.mem_cons.mp (h.after.mem_iff.mp htile)).imp_right fun hrest =>
    h.before.mem_iff.mpr (List.mem_append_right _ hrest)

theorem Places.there_mem (h : Places key display tiles placed there former rest) : there ∈ placed :=
  h.after.mem_iff.mpr (.head _)

/-- The display's tile stands clear. -/
theorem Places.there_clear (h : Places key display tiles placed there former rest) : Clear placed there := by
  intro other hother hne
  rcases List.mem_cons.mp (h.after.mem_iff.mp hother) with rfl | hrest
  · exact absurd rfl hne
  · exact h.clear other hrest

/-- It has the size it came with, or the display's. -/
theorem Places.size (h : Places key display tiles placed there former rest) : there.Sized display ∨
    ∃ old ∈ tiles, old.name = there.name ∧ (there.width, there.height) = (old.width, old.height) := by
  have hbefore := h.before
  cases h.replaces with
  | kept old hname hsize _ =>
    exact .inr ⟨old, hbefore.mem_iff.mpr (.head _), hname.trans h.carries.name.symm, hsize⟩
  | new _ hsize _ => exact .inl hsize

/-- The other tiles stay, and stay clear. -/
theorem Places.stays (h : Places key display tiles placed there former rest) (htile : tile ∈ tiles)
    (hname : tile.name ≠ (key, some display.id)) : tile ∈ placed ∧ (Clear tiles tile → Clear placed tile) := by
  have hrest : tile ∈ rest := by
    rcases List.mem_append.mp (h.before.mem_iff.mp htile) with hformer | hrest
    · cases h.replaces with
      | kept old hold _ _ => exact absurd hold (List.mem_singleton.mp hformer ▸ hname)
      | new _ _ _ => cases hformer
    · exact hrest
  refine ⟨h.after.mem_iff.mpr (.tail _ hrest), fun hclear other hother hne => ?_⟩
  rcases List.mem_cons.mp (h.after.mem_iff.mp hother) with rfl | hin
  · exact overlaps_symm .. ▸ h.clear tile hrest
  · exact hclear other (h.before.mem_iff.mpr (List.mem_append_right _ hin)) hne

theorem Places.valid (h : Places key display tiles placed there former rest) (hdisplay : display.validate = .ok ())
    (hfits : Fits display.deskSize.1 display.deskSize.2) (hvalid : ∀ tile ∈ tiles, tile.Valid) :
    ∀ tile ∈ placed, tile.Valid := by
  intro tile htile
  rcases h.mem htile with rfl | hrest
  swap
  · exact hvalid tile hrest
  have hshown : ∀ shown ∈ tile.display, shown.validate = .ok () := by
    intro shown hshown
    rw [h.carries.display] at hshown
    cases hshown
    exact hdisplay
  have hbefore := h.before
  cases h.replaces with
  | kept old _ hsize hcanvas =>
    have hold := hvalid old (hbefore.mem_iff.mpr (.head _))
    obtain ⟨hw, hh⟩ := Prod.mk.inj hsize
    exact ⟨hshown, hcanvas hold.onCanvas, by rw [hw, hh]; exact hold.fits⟩
  | new _ hsize hcanvas =>
    obtain ⟨hw, hh⟩ := Prod.mk.inj hsize
    exact ⟨hshown, hcanvas, by rw [hw, hh]; exact hfits⟩

/-! ### What a new size leaves -/

theorem Reshapes.names (h : Reshapes key display tiles after changes) :
    after.map Tile.name = tiles.map Tile.name := by
  rw [← h.before, ← h.after, List.map_map, List.map_map]
  exact List.map_congr_left fun change hchange => (h.each change hchange).name

theorem Reshapes.of_mem (h : Reshapes key display tiles after changes) (htile : tile ∈ after) :
    ∃ before ∈ tiles, (before, tile) ∈ changes := by
  rw [← h.after] at htile
  obtain ⟨⟨before, there⟩, hchange, rfl⟩ := List.mem_map.mp htile
  exact ⟨before, h.before ▸ List.mem_map_of_mem hchange, hchange⟩

/-- Each tile is there, and one that stood clear does. -/
theorem Reshapes.stays (h : Reshapes key display tiles after changes) (htile : tile ∈ tiles) :
    ∃ there ∈ after, (tile, there) ∈ changes ∧ (Clear tiles tile → Clear after there) := by
  rw [← h.before] at htile
  obtain ⟨⟨before, there⟩, hchange, rfl⟩ := List.mem_map.mp htile
  refine ⟨there, h.after ▸ List.mem_map_of_mem hchange, hchange, fun hclear other hother hne => ?_⟩
  obtain ⟨old, hold, hotherChange⟩ := h.of_mem hother
  have hnames : old.name ≠ before.name := by
    rwa [← (h.each _ hotherChange).name, ← (h.each _ hchange).name]
  have hdistinct : (before, there) ≠ (old, other) := by
    rintro heq
    exact hnames (congrArg (fun change => change.1.name) heq).symm
  exact List.Pairwise.forall h.apart hchange hotherChange hdistinct (hclear old hold hnames)

theorem Reshapes.others (h : Reshapes key display tiles after changes) :
    List.Forall₂ Moves (tiles.filter (·.key ≠ key)) (after.filter (·.key ≠ key)) := by
  rw [← h.before, ← h.after]
  have heach := h.each
  clear h
  induction changes with
  | nil => exact .nil
  | cons change rest ih =>
    obtain ⟨hchange, hrest⟩ := List.forall_mem_cons.mp heach
    rw [List.map_cons, List.map_cons, List.filter_cons, List.filter_cons, hchange.sameKey]
    split
    · rename_i hkey
      refine .cons ?_ (ih hrest)
      have hsize : (change.2.width, change.2.height) = (change.1.width, change.1.height) := by
        rcases hchange.size with hsize | ⟨hname, -⟩
        · exact hsize
        · exact absurd (congrArg Prod.fst hname) (of_decide_eq_true hkey)
      obtain ⟨hw, hh⟩ := Prod.mk.inj hsize
      have hk := hchange.sameKey
      have hd := hchange.sameDisplay
      unfold Moves
      cases htile : change.2 with
      | mk key display x y width height =>
        rw [htile] at hk hd hw hh
        subst hk hd hw hh
        rfl
    · exact ih hrest

theorem Reshapes.valid (h : Reshapes key display tiles after changes)
    (hfits : Fits display.deskSize.1 display.deskSize.2) (hvalid : ∀ tile ∈ tiles, tile.Valid) :
    ∀ tile ∈ after, tile.Valid := by
  intro tile htile
  obtain ⟨before, hbefore, hchange⟩ := h.of_mem htile
  have hchanged := h.each _ hchange
  have hgood := hvalid before hbefore
  refine ⟨hchanged.sameDisplay ▸ hgood.display, hchanged.onCanvas hgood.onCanvas, ?_⟩
  rcases hchanged.size with hsize | ⟨-, hsize⟩
  · obtain ⟨hw, hh⟩ := Prod.mk.inj hsize
    rw [hw, hh]
    exact hgood.fits
  · obtain ⟨hw, hh⟩ := Prod.mk.inj hsize
    rw [hw, hh]
    exact hfits

end Step

/-! ### What one display leaves -/

theorem fits_deskSize (h : display.validate = .ok ()) : Fits display.deskSize.1 display.deskSize.2 := by
  obtain ⟨-, hrest⟩ := check_bind_eq_ok.mp h
  obtain ⟨hphysical, hbounds⟩ := check_bind_eq_ok.mp hrest
  unfold Display.deskSize Fits maxDimension
  split
  · simp only [refuseIf_eq_ok, Bool.not_eq_false', Bool.or_eq_true, Bool.and_eq_true, beq_iff_eq,
      decide_eq_true_eq] at hphysical
    dsimp only
    omega
  · obtain ⟨-, hmonitor⟩ := check_bind_eq_ok.mp hbounds
    have hvalid := (forM_eq_ok.mp hmonitor) display.bounds (.head _)
    simp only [refuseIf_eq_ok, Bool.not_eq_false', Rect.valid, Bool.and_eq_true, decide_eq_true_eq] at hvalid
    exact hvalid.1.1

theorem Moves.trans {a b c : Tile} (h : Moves a b) (h' : Moves b c) : Moves a c := by
  unfold Moves at *
  rw [h', h]

theorem moves_trans {a b c : List Tile} (h : List.Forall₂ Moves a b) (h' : List.Forall₂ Moves b c) :
    List.Forall₂ Moves a c := by
  induction h generalizing c with
  | nil =>
    cases h'
    exact .nil
  | cons hfirst _ ih =>
    cases h' with
    | cons hnext hrest => exact .cons (hfirst.trans hnext) (ih hrest)

variable {displays done : List Display} {first : List Tile} {denied : Display → Prop}

theorem Former.of_size {before tile : Tile} (h : Former first before) (hname : tile.name = before.name)
    (hsize : (tile.width, tile.height) = (before.width, before.height)) : Former first tile := by
  obtain ⟨former, hformer, hsame, hformerSize⟩ := h
  exact ⟨former, hformer, hsame.trans hname.symm, hsize.trans hformerSize⟩

/-- **What is fitted stays fitted**, and the next display is fitted with it. -/
theorem Fitting.step (h : Fitting key displays first denied done layout.tiles)
    (hstep : fitDisplay key layout display = some next) (hmem : display ∈ displays)
    (hvalid : display.validate = .ok ()) (hfresh : ∀ other ∈ done, other.id ≠ display.id)
    (hdenied : ∀ tiles, Seated key display layout.tiles tiles → Refused key display { layout with tiles } →
      denied display) :
    Fitting key displays first denied (done ++ [display]) next.tiles := by
  rw [fitDisplay_eq] at hstep
  obtain ⟨placed, hplaced, rfl⟩ := Option.map_eq_some_iff.mp hstep
  obtain ⟨tiles, hseated, rfl⟩ := placeDisplay_eq_some_iff.mp hplaced
  obtain ⟨there, former, rest, hplaces⟩ := hseated.places
  have hnames := hplaces.names_nodup h.names
  have hcarries := hplaces.carries
  obtain ⟨changes, hchanges, hsized⟩ :=
    @sizeDisplay_reshapes key display { layout with tiles } hnames hseated.mem
  have hunchanged : ∀ {before after : Tile}, (before, after) ∈ changes → before.name ≠ (key, some display.id) →
      (after.width, after.height) = (before.width, before.height) := fun hchange hname =>
    (hchanges.each _ hchange).size.resolve_right fun hsame => hname hsame.1
  refine ⟨hchanges.names ▸ hnames, ?_, ?_, ?_, ?_, ?_⟩
  · intro tile htile hkey
    obtain ⟨before, hbefore, hchange⟩ := hchanges.of_mem htile
    have hsame := hchanges.each _ hchange
    rw [hsame.name]
    rcases hplaces.mem hbefore with rfl | hold
    · exact ⟨display, hmem, hcarries.name⟩
    · exact h.own before hold (hsame.sameKey ▸ hkey)
  · intro other hother
    rcases List.mem_append.mp hother with hdone | hlast
    · obtain ⟨tile, htile, hfitted⟩ := h.fitted other hdone
      have hname : tile.name ≠ (key, some display.id) := by
        rw [hfitted.carries.name]
        intro heq
        exact hfresh other hdone (Option.some.inj (congrArg Prod.snd heq))
      obtain ⟨hstays, hstaysClear⟩ := hplaces.stays htile hname
      obtain ⟨after, hafter, hchange, hafterClear⟩ := hchanges.stays hstays
      have hsame := hchanges.each _ hchange
      have hsameSize := hunchanged hchange hname
      refine ⟨after, hafter, ⟨hsame.sameKey.trans hfitted.carries.key,
        hsame.sameDisplay.trans hfitted.carries.display⟩, hafterClear (hstaysClear hfitted.clear), ?_⟩
      rcases hfitted.size with hright | ⟨hdenied, hformer⟩
      · exact .inl (hsameSize.trans hright)
      · exact .inr ⟨hdenied, hformer.of_size hsame.name hsameSize⟩
    · obtain rfl := List.mem_singleton.mp hlast
      obtain ⟨after, hafter, hchange, hafterClear⟩ := hchanges.stays hplaces.there_mem
      have hsame := hchanges.each _ hchange
      refine ⟨after, hafter, ⟨hsame.sameKey.trans hcarries.key, hsame.sameDisplay.trans hcarries.display⟩,
        hafterClear hplaces.there_clear, ?_⟩
      rcases hsized with hrefused | hright
      · -- A size that is denied is the one the tile came with.
        rcases hsame.size with hkept | ⟨-, hright⟩
        · rcases hplaces.size with hright | ⟨old, hold, hname, holdSize⟩
          · exact .inl (hkept.trans hright)
          · refine .inr ⟨hdenied tiles hseated hrefused, ?_⟩
            have hnamed := hname.trans hcarries.name
            have hformer := h.pending old hold (congrArg Prod.fst hnamed) fun e he heq =>
              hfresh e he (Option.some.inj (congrArg Prod.snd (heq.symm.trans hnamed)))
            exact hformer.of_size (hsame.name.trans hname.symm) (hkept.trans holdSize)
        · exact .inl hright
      · exact .inl (hright _ hchange hcarries.name)
  · intro tile htile hkey hpending
    obtain ⟨before, hbefore, hchange⟩ := hchanges.of_mem htile
    have hsame := hchanges.each _ hchange
    have hname : before.name ≠ (key, some display.id) := by
      rw [← hsame.name]
      exact hpending display (by simp)
    have hold : before ∈ layout.tiles := (hplaces.mem hbefore).resolve_left fun hnew => hname (hnew ▸ hcarries.name)
    have hformer := h.pending before hold (hsame.sameKey ▸ hkey) fun e he => by
      rw [← hsame.name]
      exact hpending e (List.mem_append_left _ he)
    exact hformer.of_size hsame.name (hunchanged hchange hname)
  · exact moves_trans (hseated.others ▸ h.others) hchanges.others
  · intro hfirst
    exact hchanges.valid (fits_deskSize hvalid) (hplaces.valid hvalid (fits_deskSize hvalid) (h.valid hfirst))

/-- **The walk** fits the displays it has come to. -/
theorem Fitting.part {start : SharedLayout} {before rest : List Display} (hsplit : displays = before ++ rest)
    (h : Walk (Turn key) before start next) (hids : (displays.map Display.id).Nodup)
    (hvalid : ∀ display ∈ displays, display.validate = .ok ())
    (hstart : Fitting key displays first (Denied key displays start) [] start.tiles) :
    Fitting key displays first (Denied key displays start) before next.tiles := by
  refine foldlM_rule (I := fun done layout =>
    Fitting key displays first (Denied key displays start) done layout.tiles) (walk_iff.mpr h) hstart ?_
  intro done display later layout after hdone hbefore hfitting hstep
  have hdisplays : displays = done ++ display :: (later ++ rest) := by rw [hsplit, hdone]; simp
  have hmem : display ∈ displays := by simp [hdisplays]
  refine hfitting.step hstep hmem (hvalid display hmem) ?_ ?_
  · intro other hother heq
    rw [hdisplays, List.map_append, List.map_cons] at hids
    exact (List.nodup_append.mp hids).2.2 _ (List.mem_map_of_mem hother) _ (.head _) heq
  · intro tiles hseated hrefused
    exact ⟨done, later ++ rest, layout, tiles, hdisplays, walk_iff.mp hbefore, hseated, hrefused⟩

/-- All displays that are reported are fitted in the end. -/
theorem Fitting.walk {start : SharedLayout} (h : Walk (Turn key) displays start next)
    (hids : (displays.map Display.id).Nodup) (hvalid : ∀ display ∈ displays, display.validate = .ok ())
    (hstart : Fitting key displays first (Denied key displays start) [] start.tiles) :
    Fitting key displays first (Denied key displays start) displays next.tiles :=
  Fitting.part (List.append_nil displays).symm h hids hvalid hstart

/-- What a layout has that takes part in crossings. -/
def actives (layout : SharedLayout) : SharedLayout :=
  { layout with tiles := layout.tiles.filter fun tile => !tile.dormant }

/-- The layout with each of the computer's displays marked active or dormant. -/
def marks (key : Key) (displays : List Display) (layout : SharedLayout) : SharedLayout :=
  { layout with tiles := layout.tiles.map (Tile.marked key displays) }

/-- Where the walk over the displays starts. -/
def walkStart (scale : Scale) (key : Key) (geometry : Geometry) (layout : SharedLayout) :
    Option SharedLayout :=
  (splitLegacy scale key geometry (marks key geometry.displays layout).actives.tiles).map fun tiles =>
    { layout with tiles }

/-- The tiles that come of it. -/
def reconciled (scale : Scale) (key : Key) (geometry : Geometry) (layout : SharedLayout) :
    Option (List Tile) := do
  let start ← walkStart scale key geometry layout
  let fitted ← geometry.displays.foldlM (fitDisplay key) start
  return sortTiles (fitted.tiles ++ (marks key geometry.displays layout).tiles.filter Tile.dormant)

variable {scale : Scale} {geometry : Geometry}

theorem withGeometry_eq (hvalid : geometry.validate = .ok ()) (hdisplays : geometry.displays ≠ []) :
    layout.withGeometry scale key geometry = (reconciled scale key geometry layout).bind fun tiles =>
        if tiles = sortTiles layout.tiles then none else layout.nextVersion key tiles := by
  have hsome : geometry.displays.isEmpty = false := by simpa using hdisplays
  unfold withGeometry reconciled walkStart
  rw [hvalid, hsome]
  cases hsplit : splitLegacy scale key geometry (marks key geometry.displays layout).actives.tiles with
  | none =>
    have hnone := hsplit
    unfold marks actives at hnone
    simp [Except.toOption, hnone]
  | some tiles =>
    have hstart := hsplit
    unfold marks actives at hstart
    simp only [Except.toOption, Option.bind_eq_bind, Option.bind_some, Bool.false_eq_true, if_false, hstart,
      Option.map_some]
    cases geometry.displays.foldlM (fitDisplay key) { layout with tiles } <;> rfl

/-! ### Marking -/

section Marking

variable {tile : Tile}

@[simp]
theorem key_marked : (tile.marked key displays).key = tile.key := by
  unfold Tile.marked
  split <;> rfl

@[simp]
theorem name_marked : (tile.marked key displays).name = tile.name := by
  unfold Tile.marked Tile.name
  split
  · cases tile.display <;> rfl
  · rfl

theorem names_marks (key : Key) (displays : List Display) (layout : SharedLayout) :
    (marks key displays layout).tiles.map Tile.name = layout.tiles.map Tile.name := by
  unfold marks
  rw [List.map_map]
  exact List.map_congr_left fun tile _ => name_marked

theorem valid_marked (h : tile.Valid) : (tile.marked key displays).Valid := by
  unfold Tile.marked
  split
  · refine ⟨fun display hdisplay => ?_, h.onCanvas, h.fits⟩
    obtain ⟨old, hold, rfl⟩ := Option.map_eq_some_iff.mp hdisplay
    exact h.display old hold
  · exact h

/-- A tile of the computer takes part where it has no display, or one that is reported. -/
theorem dormant_marked (hkey : tile.key = key) : (tile.marked key displays).dormant = true ↔
    ∃ id, tile.name = (key, some id) ∧ ∀ display ∈ displays, display.id ≠ id := by
  unfold Tile.marked Tile.dormant Tile.name
  rw [if_pos hkey]
  cases hdisplay : tile.display with
  | none => simp
  | some old => simp [hkey]

/-- A tile that is marked already. -/
theorem marked_eq_self_of_carries {display : Display} (h : tile.Carries key display) (hmem : display ∈ displays)
    (hactive : display.active = true) : tile.marked key displays = tile := by
  have hany : (displays.any fun other => other.id = display.id) = true :=
    List.any_eq_true.mpr ⟨display, hmem, by simp⟩
  have hsame : ({ display with active := true } : Display) = display := by rw [← hactive]
  unfold Tile.marked
  rw [if_pos h.key, h.display, Option.map_some, hany, hsame, ← h.display]

theorem marked_marked : (tile.marked key displays).marked key displays = tile.marked key displays := by
  unfold Tile.marked
  by_cases hkey : tile.key = key
  · simp only [hkey, if_true]
    cases tile.display <;> rfl
  · simp only [hkey, if_false]

theorem marked_of_key_ne (hkey : tile.key ≠ key) : tile.marked key displays = tile := if_neg hkey

end Marking

/-! ### The start -/

section Start

variable {tiles start : List Tile}

/-- The computer has both a tile for its whole desktop and one for a display that is reported. -/
def Clashes (key : Key) (displays : List Display) (layout : SharedLayout) : Prop :=
  (key, none) ∈ layout.tiles.map Tile.name ∧
    ∃ display ∈ displays, (key, some display.id) ∈ layout.tiles.map Tile.name

instance : Decidable (Clashes key displays layout) := by
  unfold Clashes; infer_instance

theorem piece_carries {old piece_ : Tile} {bounds : Rect} (h : piece scale key old bounds display = some piece_) :
    piece_.Carries key display := by
  obtain ⟨x, -, h⟩ := Option.bind_eq_some_iff.mp h
  obtain ⟨y, -, h⟩ := Option.bind_eq_some_iff.mp h
  cases h
  exact ⟨rfl, rfl⟩

/-- The tiles are kept, or the one for the whole desktop gives way to one for each display. -/
theorem splitLegacy_cases (h : splitLegacy scale key geometry tiles = some start) :
    (start = tiles ∧ (key, none) ∉ tiles.map Tile.name) ∨
    ∃ before old after pieces, tiles = before ++ old :: after ∧ old.name = (key, none) ∧
      start = before ++ after ++ pieces ∧
      List.Forall₂ (fun display (piece_ : Tile) => piece_.Carries key display) geometry.displays pieces := by
  unfold splitLegacy at h
  cases hsplit : splitFirst (isTileOf key none) tiles with
  | none =>
    rw [hsplit] at h
    cases h
    exact .inl ⟨rfl, splitFirst_isTileOf_eq_none.mp hsplit⟩
  | some found =>
    obtain ⟨before, old, after⟩ := found
    rw [hsplit] at h
    obtain ⟨bounds, -, h⟩ := Option.bind_eq_some_iff.mp h
    obtain ⟨pieces, hpieces, h⟩ := Option.bind_eq_some_iff.mp h
    cases h
    obtain ⟨htiles, hold, -⟩ := splitFirst_eq_some hsplit
    exact .inr ⟨before, old, after, pieces, htiles, isTileOf_iff.mp hold, rfl,
      (mapM_eq_some.mp hpieces).imp fun _ _ => piece_carries⟩

theorem names_of_carries {pieces : List Tile} (h : List.Forall₂ (fun display (piece_ : Tile) =>
    piece_.Carries key display) displays pieces) :
    pieces.map Tile.name = displays.map fun display => (key, some display.id) := by
  induction h with
  | nil => rfl
  | cons hfirst _ ih => rw [List.map_cons, List.map_cons, hfirst.name, ih]

/-- A tile of the computer that takes part has no display, or one that is reported. -/
theorem name_of_active {tile : Tile} (htile : tile ∈ (marks key displays layout).actives.tiles)
    (hkey : tile.key = key) : tile.name = (key, none) ∨ ∃ display ∈ displays, tile.name = (key, some display.id) := by
  obtain ⟨hmarked, hactive⟩ := List.mem_filter.mp htile
  obtain ⟨old, -, rfl⟩ := List.mem_map.mp hmarked
  rw [key_marked] at hkey
  rw [name_marked]
  cases hname : old.display with
  | none => exact .inl (by rw [Tile.name, hname, hkey]; rfl)
  | some shown =>
    refine .inr ?_
    by_contra hnone
    push Not at hnone
    have hdormant : (old.marked key displays).dormant = true := by
      refine (dormant_marked hkey).mpr ⟨shown.id, by rw [Tile.name, hname, hkey]; rfl, ?_⟩
      intro display hdisplay hid
      exact hnone display hdisplay (by rw [Tile.name, hname, hkey, hid]; rfl)
    rw [hdormant] at hactive
    cases hactive

theorem names_actives_sublist (key : Key) (displays : List Display) (layout : SharedLayout) :
    ((marks key displays layout).actives.tiles.map Tile.name).Sublist (layout.tiles.map Tile.name) := by
  have hsub : (marks key displays layout).actives.tiles.Sublist (marks key displays layout).tiles :=
    List.filter_sublist
  exact names_marks key displays layout ▸ hsub.map Tile.name

/-- Without a tile for the computer's whole desktop there is nothing to split. -/
theorem walkStart_of_whole (h : (key, none) ∉ layout.tiles.map Tile.name) :
    walkStart scale key geometry layout = some (marks key geometry.displays layout).actives := by
  have hnone : splitFirst (isTileOf key none) (marks key geometry.displays layout).actives.tiles = none :=
    splitFirst_isTileOf_eq_none.mpr fun hname => h ((names_actives_sublist key geometry.displays layout).subset hname)
  unfold walkStart splitLegacy
  rw [hnone]
  rfl

/-- **The start of the walk**: without a clash the computer's tiles are those of reported displays, each
under a name of its own. -/
theorem walkStart_fitting {denied : Display → Prop} {begun : SharedLayout} (hvalid : layout.Valid)
    (hgeometry : geometry.validate = .ok ()) (hclash : ¬ Clashes key geometry.displays layout)
    (h : walkStart scale key geometry layout = some begun) :
    Fitting key geometry.displays begun.tiles denied [] begun.tiles := by
  obtain ⟨start, hsplit, rfl⟩ := Option.map_eq_some_iff.mp h
  have hsub := names_actives_sublist key geometry.displays layout
  have hnames := hvalid.names.sublist hsub
  have hrefl : ∀ tiles : List Tile, List.Forall₂ Moves tiles tiles := fun tiles =>
    List.forall₂_same.mpr fun _ _ => rfl
  refine ⟨?_, ?_, fun _ hnone => absurd hnone List.not_mem_nil,
    fun tile htile _ _ => ⟨tile, htile, rfl, rfl⟩, hrefl _, id⟩
  · rcases splitLegacy_cases hsplit with ⟨rfl, -⟩ | ⟨before, old, after, pieces, htiles, hold, rfl, hpieces⟩
    · exact hnames
    · show ((before ++ after ++ pieces).map Tile.name).Nodup
      rw [htiles] at hsub hnames
      rw [List.map_append, List.map_cons] at hsub hnames
      rw [List.map_append, names_of_carries hpieces]
      refine List.nodup_append.mpr ⟨?_, ?_, ?_⟩
      · rw [List.map_append]
        exact (List.nodup_cons.mp (List.nodup_middle.mp hnames)).2
      · have hinjective : Function.Injective fun id : String => (key, some id) := fun a b hab =>
          Option.some.inj (congrArg Prod.snd hab)
        have hids := (displays_of_valid hgeometry).1.map hinjective
        rwa [List.map_map] at hids
      · rintro name hname _ hother rfl
        obtain ⟨display, hdisplay, rfl⟩ := List.mem_map.mp hother
        rw [List.map_append] at hname
        refine hclash ⟨hsub.subset (by simp [hold]), display, hdisplay, hsub.subset ?_⟩
        rcases List.mem_append.mp hname with hbefore | hafter
        · exact List.mem_append_left _ hbefore
        · exact List.mem_append_right _ (.tail _ hafter)
  · intro tile htile hkey
    rcases splitLegacy_cases hsplit with ⟨rfl, hnone⟩ | ⟨before, old, after, pieces, htiles, hold, rfl, hpieces⟩
    · refine (name_of_active htile hkey).resolve_left fun hname => hnone ?_
      exact List.mem_map.mpr ⟨tile, htile, hname⟩
    · rcases List.mem_append.mp htile with hthere | hpiece
      · have hin : tile ∈ (marks key geometry.displays layout).actives.tiles := by
          rw [htiles]
          rcases List.mem_append.mp hthere with hbefore | hafter
          · exact List.mem_append_left _ hbefore
          · exact List.mem_append_right _ (.tail _ hafter)
        refine (name_of_active hin hkey).resolve_left fun hname => ?_
        rw [htiles, List.map_append, List.map_cons] at hnames
        refine (List.nodup_cons.mp (List.nodup_middle.mp hnames)).1 ?_
        rw [hold, ← hname, ← List.map_append]
        exact List.mem_map_of_mem hthere
      · have hnamed : tile.name ∈ pieces.map Tile.name := List.mem_map_of_mem hpiece
        rw [names_of_carries hpieces] at hnamed
        obtain ⟨display, hdisplay, hname⟩ := List.mem_map.mp hnamed
        exact ⟨display, hdisplay, hname.symm⟩

/-! ### A clash -/

theorem names_sizeDisplay (hthere : (key, some display.id) ∈ layout.tiles.map Tile.name) :
    (sizeDisplay key display layout).tiles.map Tile.name = layout.tiles.map Tile.name := by
  unfold sizeDisplay
  cases hsize : layout.withDisplaySize key (some display.id) display.deskSize.1 display.deskSize.2 with
  | none => rfl
  | some next =>
    rcases withDisplaySize_eq_some hsize with ⟨hnone, -⟩ | ⟨front, old, back, tried, hsplit, hmem, -, hnext⟩
    · exact absurd hthere (splitFirst_isTileOf_eq_none.mp hnone)
    · obtain ⟨rfl, -⟩ := nextVersion_eq_some.mp hnext
      have harranges := arranges_of_mem (still_slotsOf front back) hmem
      rw [Option.getD_some, (splitFirst_eq_some hsplit).1, ← tileList_of_arranges harranges, List.map_map,
        List.map_map]
      refine List.map_congr_left fun slot hslot => ?_
      simp [Tile.name, (harranges.keeps slot hslot).key, (harranges.keeps slot hslot).display]

/-- The walk takes no name away. -/
theorem names_fitDisplay (h : fitDisplay key layout display = some next) :
    ∃ extra, (next.tiles.map Tile.name).Perm (layout.tiles.map Tile.name ++ extra) := by
  rw [fitDisplay_eq] at h
  obtain ⟨placed, hplaced, rfl⟩ := Option.map_eq_some_iff.mp h
  obtain ⟨tiles, hseated, rfl⟩ := placeDisplay_eq_some_iff.mp hplaced
  obtain ⟨there, former, rest, hplaces⟩ := hseated.places
  rw [@names_sizeDisplay key display { layout with tiles } hseated.mem]
  have hafter := hplaces.after.map Tile.name
  have hbefore := (hplaces.before.map Tile.name).symm
  cases hplaces.replaces with
  | kept old hold _ _ =>
    rw [List.map_cons, hplaces.carries.name, ← hold] at hafter
    exact ⟨[], (List.append_nil _).symm ▸ hafter.trans hbefore⟩
  | new _ _ _ =>
    exact ⟨[there.name], hafter.trans ((hbefore.cons _).trans (List.perm_append_singleton _ _).symm)⟩

theorem names_walk {begun : SharedLayout} (h : displays.foldlM (fitDisplay key) begun = some next) :
    ∃ extra, (next.tiles.map Tile.name).Perm (begun.tiles.map Tile.name ++ extra) := by
  refine foldlM_rule (I := fun _ layout =>
    ∃ extra, (layout.tiles.map Tile.name).Perm (begun.tiles.map Tile.name ++ extra)) h
    ⟨[], by rw [List.append_nil]⟩ ?_
  rintro done display rest layout after - - ⟨extra, hextra⟩ hstep
  obtain ⟨more, hmore⟩ := names_fitDisplay hstep
  exact ⟨extra ++ more, by rw [← List.append_assoc]; exact hmore.trans (hextra.append_right more)⟩

/-- **After a clash** two tiles have one name from the start. -/
theorem walkStart_clash {begun : SharedLayout} (hclash : Clashes key geometry.displays layout)
    (h : walkStart scale key geometry layout = some begun) : ¬ (begun.tiles.map Tile.name).Nodup := by
  obtain ⟨start, hsplit, rfl⟩ := Option.map_eq_some_iff.mp h
  obtain ⟨hwhole, display, hdisplay, hshown⟩ := hclash
  have hactive : ∀ id, (∀ shown, id = some shown → ∃ display ∈ geometry.displays, display.id = shown) →
      (key, id) ∈ layout.tiles.map Tile.name →
      (key, id) ∈ (marks key geometry.displays layout).actives.tiles.map Tile.name := by
    intro id hreported hname
    obtain ⟨tile, htile, hsame⟩ := List.mem_map.mp hname
    refine List.mem_map.mpr ⟨tile.marked key geometry.displays, List.mem_filter.mpr ⟨List.mem_map_of_mem htile, ?_⟩,
      name_marked.trans hsame⟩
    rw [Bool.not_eq_true', Bool.eq_false_iff, ne_eq, dormant_marked (congrArg Prod.fst hsame)]
    rintro ⟨shown, hshown, hnone⟩
    obtain ⟨display, hdisplay, hid⟩ := hreported shown (congrArg Prod.snd (hsame.symm.trans hshown))
    exact hnone display hdisplay hid
  have hlegacy := hactive none (fun _ hnone => by cases hnone) hwhole
  have hother := hactive (some display.id) (fun _ hid => ⟨display, hdisplay, Option.some.inj hid⟩) hshown
  rcases splitLegacy_cases hsplit with ⟨-, hnone⟩ | ⟨before, old, after, pieces, htiles, hold, rfl, hpieces⟩
  · exact absurd hlegacy hnone
  · intro hnodup
    have hnodup : ((before ++ after ++ pieces).map Tile.name).Nodup := hnodup
    rw [List.map_append, names_of_carries hpieces] at hnodup
    rw [htiles, List.map_append, List.map_cons, hold] at hother
    refine (List.nodup_append.mp hnodup).2.2 (key, some display.id) ?_ (key, some display.id)
      (List.mem_map.mpr ⟨display, hdisplay, rfl⟩) rfl
    rw [List.map_append]
    rcases List.mem_append.mp hother with hbefore | hrest
    · exact List.mem_append_left _ hbefore
    · rcases List.mem_cons.mp hrest with heq | hafter
      · cases heq
      · exact List.mem_append_right _ hafter

theorem sortTiles_perm (tiles : List Tile) : (sortTiles tiles).Perm tiles := List.perm_insertionSort _ _

/-- What comes of a walk has the names of its end and those that are dormant. -/
theorem reconciled_eq_some {out : List Tile} (h : reconciled scale key geometry layout = some out) :
    ∃ begun fitted, walkStart scale key geometry layout = some begun ∧
      geometry.displays.foldlM (fitDisplay key) begun = some fitted ∧
      out = sortTiles (fitted.tiles ++ (marks key geometry.displays layout).tiles.filter Tile.dormant) := by
  obtain ⟨begun, hbegun, h⟩ := Option.bind_eq_some_iff.mp h
  obtain ⟨fitted, hfitted, h⟩ := Option.bind_eq_some_iff.mp h
  cases h
  exact ⟨begun, fitted, hbegun, hfitted, rfl⟩

theorem withGeometry_of_clash (hclash : Clashes key geometry.displays layout) :
    layout.withGeometry scale key geometry = none := by
  cases hgeometry : geometry.validate with
  | error error =>
    unfold withGeometry
    rw [hgeometry]
    rfl
  | ok _ =>
    have hdisplays : geometry.displays ≠ [] := by
      obtain ⟨-, display, hdisplay, -⟩ := hclash
      exact List.ne_nil_of_mem hdisplay
    rw [withGeometry_eq hgeometry hdisplays]
    cases hout : reconciled scale key geometry layout with
    | none => rfl
    | some out =>
      rw [Option.bind_some]
      split
      · rfl
      · rw [nextVersion_eq_none]
        intro hvalid
        obtain ⟨begun, fitted, hbegun, hfitted, rfl⟩ := reconciled_eq_some hout
        obtain ⟨extra, hextra⟩ := names_walk hfitted
        have hnames : ((fitted.tiles ++ (marks key geometry.displays layout).tiles.filter Tile.dormant).map
            Tile.name).Nodup := (((sortTiles_perm _).map Tile.name).nodup_iff).mp hvalid.names
        rw [List.map_append] at hnames
        have hall := (hextra.nodup_iff).mp (List.nodup_append.mp hnames).1
        exact walkStart_clash hclash hbegun (List.nodup_append.mp hall).1

end Start

end SharedLayout

end Zflow.Desktop
