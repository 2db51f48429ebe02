import Zflow.Laws.Desktop.Resize

/-!
# Computers that a layout lacks

`withTilesFor` places one tile after another, each where the tiles before it leave a spot. What it returns
adds exactly the computers the layout lacks, as far as the tiles are not used up. A computer for which no
spot is left takes back those that were placed before it (`placing_disturbs_nothing`).
-/

namespace Zflow.Desktop

open Lib

/-- The keys without a tile, each once and in order: neither the computer's own nor one that is `met`. -/
def missing (own : Key) : List Key → List Key → List Key
  | _, [] => []
  | met, key :: rest =>
    if key = own ∨ key ∈ met then missing own met rest else key :: missing own (met ++ [key]) rest

section Missing

variable {own key : Key} {met keys : List Key}

theorem mem_missing : key ∈ missing own met keys ↔ key ∈ keys ∧ key ≠ own ∧ key ∉ met := by
  induction keys generalizing met with
  | nil => simp [missing]
  | cons first rest ih =>
    unfold missing
    split
    · rename_i hskip
      rw [ih, List.mem_cons]
      constructor
      · rintro ⟨hrest, hnew⟩
        exact ⟨.inr hrest, hnew⟩
      · rintro ⟨rfl | hrest, hown, hfresh⟩
        · exact absurd hskip (not_or.mpr ⟨hown, hfresh⟩)
        · exact ⟨hrest, hown, hfresh⟩
    · rename_i hnew
      rw [not_or] at hnew
      rw [List.mem_cons, List.mem_cons, ih]
      by_cases hfirst : key = first
      · subst hfirst
        simp [hnew]
      · simp [hfirst]

theorem nodup_missing : (missing own met keys).Nodup := by
  induction keys generalizing met with
  | nil => exact .nil
  | cons first rest ih =>
    unfold missing
    split
    · exact ih
    · refine List.nodup_cons.mpr ⟨fun hmem => ?_, ih⟩
      exact (mem_missing.mp hmem).2.2 (by simp)

end Missing

namespace SharedLayout

variable {own key : Key} {width height : Nat} {keys : List Key} {tiles placed : List Tile}
  {layout next : SharedLayout}

/-- A missing computer's tile stands at the first free spot beside the computer's own tile or past them all. -/
def StandsIn (own : Key) (width height : Nat) (tiles : List Tile) (tile : Tile) : Prop :=
  TakesFirst tiles (tiles.find? (·.key = own)) tile.key width height tile

/-- **Room for each of the keys**: tiles that bear them in order, each at the first spot that is free among those
of the layout and the ones before it. -/
def RoomForEach (own : Key) (width height : Nat) (keys : List Key) (tiles : List Tile) : Prop :=
  ∃ new : List Tile, new.map Tile.key = keys ∧
    ∀ before tile after, new = before ++ tile :: after → StandsIn own width height (tiles ++ before) tile

/-- None of the spots beside the computer's own tile and past them all is free. -/
def NoSpot (own : Key) (width height : Nat) (tiles : List Tile) (key : Key) : Prop :=
  Crowded tiles (tiles.find? (·.key = own)) key width height

instance (own : Key) (width height : Nat) (tiles : List Tile) (key : Key) :
    Decidable (NoSpot own width height tiles key) := inferInstanceAs (Decidable (Crowded ..))

theorem roomForEach_nil : RoomForEach own width height [] tiles :=
  ⟨[], rfl, fun before tile after h => absurd h.symm (by simp)⟩

/-- The first of the keys has room, and the others beside its tile. -/
theorem roomForEach_cons {rest : List Key} : RoomForEach own width height (key :: rest) tiles ↔
    ∃ tile, TakesFirst tiles (tiles.find? (·.key = own)) key width height tile ∧
      RoomForEach own width height rest (tiles ++ [tile]) := by
  constructor
  · rintro ⟨new, hkeys, heach⟩
    obtain ⟨tile, more, rfl, rfl, hrest⟩ := List.map_eq_cons_iff.mp hkeys
    have hfirst := heach [] tile more rfl
    rw [List.append_nil] at hfirst
    refine ⟨tile, hfirst, more, hrest, fun before other after hmore => ?_⟩
    have hother := heach (tile :: before) other after (by rw [hmore]; rfl)
    rwa [List.append_assoc]
  · rintro ⟨tile, hfirst, more, hrest, heach⟩
    have hkey : tile.key = key := by
      obtain ⟨_, _, _, -, -, rfl, -⟩ := hfirst
      rfl
    subst hkey
    refine ⟨tile :: more, by rw [List.map_cons, hrest], fun before other after hsplit => ?_⟩
    rcases List.cons_eq_append_iff.mp hsplit with ⟨rfl, htail⟩ | ⟨front, rfl, htail⟩
    · obtain ⟨rfl, -⟩ := List.cons.inj htail
      rwa [List.append_nil]
    · have hother := heach front other after htail
      rwa [List.append_assoc] at hother

/-! ## The walk over the keys -/

theorem any_key_iff : tiles.any (·.key = key) = true ↔ key ∈ tiles.map Tile.key := by
  simp [List.any_eq_true]

theorem map_key_snoc {anchor : Option Tile} {tile : Tile} (h : freeSpot tiles anchor key width height = some tile) :
    (tiles ++ [tile]).map Tile.key = tiles.map Tile.key ++ [key] := by
  obtain ⟨⟨spot, -, rfl⟩, -⟩ := freeSpot_eq_some h
  rw [List.map_append]
  rfl

/-- The keys that are given a tile: those that are missing, until the layout is full. -/
def placing (own : Key) (keys : List Key) (tiles : List Tile) : List Key :=
  (missing own (tiles.map Tile.key) keys).take (maxSharedTiles - tiles.length)

theorem placing_skip {rest : List Key} (h : key = own ∨ tiles.any (·.key = key) = true) :
    placing own (key :: rest) tiles = placing own rest tiles := by
  unfold placing
  rw [missing, if_pos (by rwa [← any_key_iff])]

theorem placing_full {rest : List Key} (h : tiles.length ≥ maxSharedTiles) : placing own rest tiles = [] := by
  unfold placing
  rw [Nat.sub_eq_zero_of_le h, List.take_zero]

theorem placing_next {rest : List Key} (hnew : ¬ (key = own ∨ tiles.any (·.key = key) = true))
    (hroom : ¬ tiles.length ≥ maxSharedTiles) {tile : Tile} (h : (tiles ++ [tile]).map Tile.key = tiles.map Tile.key ++ [key]) :
    placing own (key :: rest) tiles = key :: placing own rest (tiles ++ [tile]) := by
  unfold placing
  rw [missing, if_neg (by rwa [← any_key_iff]), h, List.length_append, List.length_singleton]
  obtain ⟨room, hlength⟩ : ∃ room, maxSharedTiles - tiles.length = room + 1 :=
    ⟨maxSharedTiles - tiles.length - 1, by omega⟩
  rw [hlength, List.take_succ_cons, show maxSharedTiles - (tiles.length + 1) = room by omega]

/-- The loop gives up exactly where a key does not find a spot. -/
theorem isSome_placeTiles : (placeTiles own width height keys tiles).isSome = true ↔
    RoomForEach own width height (placing own keys tiles) tiles := by
  induction keys generalizing tiles with
  | nil =>
    unfold placing
    rw [missing, List.take_nil]
    exact iff_of_true rfl roomForEach_nil
  | cons key rest ih =>
    unfold placeTiles
    split
    · rename_i hskip
      rw [ih, placing_skip hskip]
    · rename_i hnew
      split
      · rename_i hfull
        rw [placing_full hfull]
        exact iff_of_true rfl roomForEach_nil
      · rename_i hroom
        have hany : (tiles ++ [newTile key width height (0, 0)]).map Tile.key = tiles.map Tile.key ++ [key] := by
          rw [List.map_append]
          rfl
        cases hspot : freeSpot tiles (tiles.find? (·.key = own)) key width height with
        | none =>
          rw [placing_next hnew hroom hany, roomForEach_cons]
          refine iff_of_false Bool.false_ne_true ?_
          rintro ⟨tile, hfirst, -⟩
          rw [freeSpot_eq_some_iff.mpr hfirst] at hspot
          cases hspot
        | some tile =>
          rw [placing_next hnew hroom (map_key_snoc hspot), roomForEach_cons, Option.bind_eq_bind, Option.bind_some, ih]
          simp only [← freeSpot_eq_some_iff, hspot, Option.some.injEq, exists_eq_left']

/-- **What the loop adds.** -/
structure Adds (own : Key) (width height : Nat) (keys : List Key) (tiles new : List Tile) : Prop where
  keys : new.map Tile.key = placing own keys tiles
  each : ∀ tile ∈ new, tile.OnCanvas ∧ ∃ spot, tile = newTile tile.key width height spot
  apart : (tiles.Pairwise fun a b => overlaps a b = false) →
    (tiles ++ new).Pairwise fun a b => overlaps a b = false

theorem placeTiles_eq_some (h : placeTiles own width height keys tiles = some placed) :
    ∃ new, placed = tiles ++ new ∧ Adds own width height keys tiles new := by
  induction keys generalizing tiles with
  | nil =>
    cases h
    refine ⟨[], (List.append_nil _).symm, ?_, fun _ hnone => absurd hnone List.not_mem_nil, fun hapart => ?_⟩
    · simp [placing, missing]
    · rwa [List.append_nil]
  | cons key rest ih =>
    unfold placeTiles at h
    split at h
    · rename_i hskip
      obtain ⟨new, hplaced, hadds⟩ := ih h
      exact ⟨new, hplaced, hadds.keys.trans (placing_skip hskip).symm, hadds.each, hadds.apart⟩
    rename_i hnew
    split at h
    · rename_i hfull
      cases h
      refine ⟨[], (List.append_nil _).symm, (placing_full hfull).symm, fun _ hnone => absurd hnone List.not_mem_nil,
        fun hapart => ?_⟩
      rwa [List.append_nil]
    · rename_i hroom
      obtain ⟨tile, hspot, hrest⟩ := Option.bind_eq_some_iff.mp h
      obtain ⟨new, hplaced, hadds⟩ := ih hrest
      obtain ⟨⟨spot, -, htile⟩, hfree⟩ := freeSpot_eq_some hspot
      refine ⟨tile :: new, by rw [hplaced, List.append_assoc, List.singleton_append], ?_, ?_, fun hapart => ?_⟩
      · rw [placing_next hnew hroom (map_key_snoc hspot), List.map_cons, hadds.keys, htile]
        rfl
      · refine List.forall_mem_cons.mpr ⟨⟨hfree.onCanvas, spot, ?_⟩, hadds.each⟩
        rw [htile]
        rfl
      · have hall := hadds.apart (pairwise_snoc hapart hfree.apart)
        rwa [List.append_assoc, List.singleton_append] at hall

theorem length_placing : (placing own keys tiles).length ≤ maxSharedTiles - tiles.length := by
  unfold placing
  exact List.length_take_le _ _

theorem mem_missing_of_placing (h : key ∈ placing own keys tiles) : key ∈ missing own (tiles.map Tile.key) keys :=
  List.mem_of_mem_take h

theorem nodup_placing : (placing own keys tiles).Nodup := nodup_missing.sublist (List.take_sublist _ _)

/-- The layout with what the loop adds is as good as it was. -/
theorem valid_of_adds {new : List Tile} (hvalid : layout.Valid) (hfits : Fits width height)
    (hversion : layout.version < maxToken) (h : Adds own width height keys layout.tiles new) :
    (⟨layout.version + 1, own, layout.tiles ++ new⟩ : SharedLayout).Valid := by
  have hlength : new.length ≤ maxSharedTiles - layout.tiles.length := by
    rw [← List.length_map (f := Tile.key), h.keys]
    exact length_placing
  have hname : ∀ tile ∈ new, tile.name = (tile.key, none) ∧ tile.key ∈ placing own keys layout.tiles := by
    intro tile htile
    obtain ⟨-, spot, hsame⟩ := h.each tile htile
    refine ⟨?_, h.keys ▸ List.mem_map_of_mem htile⟩
    rw [hsame]
    rfl
  refine ⟨hversion, ?_, ?_, ?_⟩
  · show (layout.tiles ++ new).length ≤ maxSharedTiles
    have := hvalid.length
    rw [List.length_append]
    omega
  · show ((layout.tiles ++ new).map Tile.name).Nodup
    rw [List.map_append]
    refine List.nodup_append.mpr ⟨hvalid.names, ?_, ?_⟩
    · have hkeys : ((new.map Tile.name).map Prod.fst).Nodup := by
        rw [List.map_map]
        exact h.keys ▸ nodup_placing
      exact hkeys.of_map
    · rintro name hthere _ hadded rfl
      obtain ⟨old, hold, hsame⟩ := List.mem_map.mp hthere
      obtain ⟨tile, htile, rfl⟩ := List.mem_map.mp hadded
      have hkeys : old.key = tile.key := congrArg Prod.fst hsame
      exact (mem_missing.mp (mem_missing_of_placing (hname tile htile).2)).2.2 (hkeys ▸ List.mem_map_of_mem hold)
  · intro tile htile
    rcases List.mem_append.mp htile with hold | hnew
    · exact hvalid.tiles tile hold
    · obtain ⟨hcanvas, spot, hsame⟩ := h.each tile hnew
      refine ⟨fun display hdisplay => ?_, hcanvas, ?_⟩
      · rw [hsame] at hdisplay
        cases hdisplay
      · rw [hsame]
        exact hfits

/-! ## The law -/

/-- **A layout with the computers it lacked.** -/
structure Completes (own : Key) (width height : Nat) (keys : List Key) (layout next : SharedLayout) : Prop where
  valid : next.validate.isOk = true
  version : next.version = layout.version + 1
  /-- The tiles it had stay as they are, and each new one is that of a key that was missing. -/
  tiles : ∃ new, next.tiles = layout.tiles ++ new ∧ (new.map Tile.key).Nodup ∧ ∀ tile ∈ new,
    (tile.key ∈ keys ∧ tile.key ≠ own ∧ tile.key ∉ layout.tiles.map Tile.key) ∧
      ∃ spot, tile = newTile tile.key width height spot
  /-- None is missing any more, unless the layout is full. -/
  complete : (∀ key ∈ keys, key ≠ own → key ∈ next.tiles.map Tile.key) ∨ next.tiles.length = maxSharedTiles
  apart : next.tiles.Pairwise fun a b => overlaps a b = false

theorem withTilesFor_completes (hvalid : layout.Valid) (hapart : layout.tiles.Pairwise fun a b => overlaps a b = false)
    (h : layout.withTilesFor own keys width height = some next) : Completes own width height keys layout next := by
  obtain ⟨tiles, hplaced, hrest⟩ := Option.bind_eq_some_iff.mp h
  obtain ⟨new, rfl, hadds⟩ := placeTiles_eq_some hplaced
  split at hrest
  · cases hrest
  dsimp only at hrest
  split at hrest
  · rename_i hgood
    cases hrest
    have hkeys := hadds.keys
    refine ⟨hgood, rfl, ⟨new, rfl, hkeys ▸ nodup_placing, fun tile htile => ⟨?_, (hadds.each tile htile).2⟩⟩, ?_,
      hadds.apart hapart⟩
    · exact mem_missing.mp (mem_missing_of_placing (hkeys ▸ List.mem_map_of_mem htile))
    · show (∀ key ∈ keys, key ≠ own → key ∈ (layout.tiles ++ new).map Tile.key) ∨
        (layout.tiles ++ new).length = maxSharedTiles
      have hlength : new.length = (placing own keys layout.tiles).length := by rw [← hkeys, List.length_map]
      rw [List.map_append, List.length_append, hlength, hkeys]
      unfold placing
      by_cases hfull : (missing own (layout.tiles.map Tile.key) keys).length ≤ maxSharedTiles - layout.tiles.length
      · refine .inl fun key hkey hown => List.mem_append.mpr ?_
        by_cases hthere : key ∈ layout.tiles.map Tile.key
        · exact .inl hthere
        · rw [List.take_of_length_le hfull]
          exact .inr (mem_missing.mpr ⟨hkey, hown, hthere⟩)
      · have := hvalid.length
        rw [List.length_take]
        omega
  · cases hrest

/-- Where the loop does not give up, a layout that is not returned lacks no computer, is full, or has used up
its versions. -/
theorem withTilesFor_eq_none (hvalid : layout.Valid) (hfits : Fits width height)
    (hroom : RoomForEach own width height (placing own keys layout.tiles) layout.tiles)
    (h : layout.withTilesFor own keys width height = none) :
    missing own (layout.tiles.map Tile.key) keys = [] ∨ layout.version = maxToken ∨
      layout.tiles.length = maxSharedTiles := by
  obtain ⟨tiles, hplaced⟩ := Option.isSome_iff_exists.mp (isSome_placeTiles.mpr hroom)
  obtain ⟨new, rfl, hadds⟩ := placeTiles_eq_some hplaced
  unfold withTilesFor at h
  rw [hplaced, Option.bind_eq_bind, Option.bind_some] at h
  split at h
  · rename_i hsame
    have hnone : new = [] := by
      rw [List.length_append] at hsame
      exact List.eq_nil_of_length_eq_zero (by omega)
    have hkeys := hadds.keys
    rw [hnone, List.map_nil] at hkeys
    unfold placing at hkeys
    rcases List.take_eq_nil_iff.mp hkeys.symm with hroom | hmissing
    · have := hvalid.length
      exact .inr (.inr (by omega))
    · exact .inl hmissing
  · dsimp only at h
    split at h
    · cases h
    · rename_i hbad
      refine .inr (.inl ?_)
      by_contra hversion
      have := hvalid.version
      exact hbad (validate_isOk_iff.mpr (valid_of_adds hvalid hfits (by omega) hadds))

/-- **Adding computers never disturbs a layout**, exactly where each that is missing finds a spot in its turn,
or the first already finds none. -/
theorem placing_disturbs_nothing (layout : SharedLayout) (hvalid : layout.validate.isOk = true)
    (hapart : layout.tiles.Pairwise fun a b => overlaps a b = false) (own : Key) (keys : List Key)
    (width height : Nat) (hfits : Fits width height) :
    ((∀ next, layout.withTilesFor own keys width height = some next → Completes own width height keys layout next) ∧
      (layout.withTilesFor own keys width height = none →
        missing own (layout.tiles.map Tile.key) keys = [] ∨ layout.version = maxToken ∨
        layout.tiles.length = maxSharedTiles ∨
        ∀ key ∈ missing own (layout.tiles.map Tile.key) keys, NoSpot own width height layout.tiles key)) ↔
    (layout.version = maxToken ∨ RoomForEach own width height (placing own keys layout.tiles) layout.tiles ∨
      ∀ key ∈ missing own (layout.tiles.map Tile.key) keys, NoSpot own width height layout.tiles key) := by
  have hgood := validate_isOk_iff.mp hvalid
  constructor
  · rintro ⟨-, hreason⟩
    by_cases hroom : RoomForEach own width height (placing own keys layout.tiles) layout.tiles
    · exact .inr (.inl hroom)
    have hnone : layout.withTilesFor own keys width height = none := by
      unfold withTilesFor
      rw [← isSome_placeTiles, Option.not_isSome_iff_eq_none] at hroom
      rw [hroom]
      rfl
    rcases hreason hnone with hmissing | hversion | hfull | hspots
    · refine .inr (.inl ?_)
      unfold placing
      rw [hmissing, List.take_nil]
      exact roomForEach_nil
    · exact .inl hversion
    · refine .inr (.inl ?_)
      rw [placing_full hfull.ge]
      exact roomForEach_nil
    · exact .inr (.inr hspots)
  · refine fun hcondition => ⟨fun next hnext => withTilesFor_completes hgood hapart hnext, fun hnone => ?_⟩
    rcases hcondition with hversion | hroom | hspots
    · exact .inr (.inl hversion)
    · rcases withTilesFor_eq_none hgood hfits hroom hnone with hmissing | hversion | hfull
      · exact .inl hmissing
      · exact .inr (.inl hversion)
      · exact .inr (.inr (.inl hfull))
    · exact .inr (.inr (.inr hspots))

/-- Two computers find spots beside the first of the row. -/
theorem placing_disturbs_nothing_row :
    ∃ next, row.withTilesFor 1 [4, 2, 4, 5] 1920 1080 = some next ∧ Completes 1 1920 1080 [4, 2, 4, 5] row next := by
  have hsome : (row.withTilesFor 1 [4, 2, 4, 5] 1920 1080).isSome = true := by decide +kernel
  obtain ⟨next, hnext⟩ := Option.isSome_iff_exists.mp hsome
  have hlaw := placing_disturbs_nothing row (by decide +kernel) (by decide +kernel) 1 [4, 2, 4, 5] 1920 1080 (by decide)
  refine ⟨next, hnext, (hlaw.mpr (.inr (.inl ?_))).1 next hnext⟩
  exact isSome_placeTiles.mp (by decide +kernel)

/-- A computer with others on three sides, and one at the right end of the canvas. -/
def walled : SharedLayout :=
  ⟨3, 1, [⟨1, none, 0, 0, 1000, 800⟩, ⟨2, none, -1000, 0, 1000, 800⟩, ⟨3, none, 0, 800, 1000, 800⟩,
    ⟨4, none, 0, -800, 1000, 800⟩, ⟨5, none, 99000, 0, 1920, 1080⟩]⟩

/-- One of two missing computers has room beside it, and neither is placed. -/
theorem second_takes_back_first :
    ¬ ∀ (layout : SharedLayout) (own : Key) (keys : List Key), layout.validate.isOk = true →
      (layout.tiles.Pairwise fun a b => overlaps a b = false) → layout.withTilesFor own keys 1920 1080 = none →
        missing own (layout.tiles.map Tile.key) keys = [] ∨ layout.version = maxToken ∨
        layout.tiles.length = maxSharedTiles ∨
        ∀ key ∈ missing own (layout.tiles.map Tile.key) keys, NoSpot own 1920 1080 layout.tiles key := by
  intro h
  have hreason := h walled 1 [6, 7] (by decide +kernel) (by decide +kernel) (by decide +kernel)
  exact absurd hreason (by decide +kernel)

end SharedLayout

end Zflow.Desktop
