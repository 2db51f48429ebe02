import Zflow.Laws.Desktop.Monitors

/-!
# Monitors that are reported again

A layout that was published for some displays carries each of them where nothing else stands, so when
the same displays are reported again none is placed anew (`walk_of_shown`). What is tried again is each
size that was denied: the second call publishes exactly where one of them is found an arrangement now.
-/

namespace Zflow.Desktop.SharedLayout

open Lib

variable {key : Key} {display : Display} {displays : List Display} {layout next : SharedLayout}
  {scale : Scale} {geometry : Geometry}

/-! ## Sorting -/

instance : Std.Total fun a b : Tile => a.rank ≤ b.rank := ⟨fun a b => le_total a.rank b.rank⟩

instance : IsTrans Tile fun a b : Tile => a.rank ≤ b.rank := ⟨fun _ _ _ => le_trans⟩

theorem name_eq_of_rank {a b : Tile} (h : a.rank = b.rank) : a.name = b.name := by
  have hpair := congrArg ofLex h
  exact Prod.ext (congrArg Prod.fst hpair) (congrArg Prod.snd hpair)

/-- Tiles under names of their own have one order. -/
theorem sortTiles_eq_of_perm {tiles others : List Tile} (hnames : (tiles.map Tile.name).Nodup)
    (h : tiles.Perm others) : sortTiles tiles = sortTiles others := by
  have hperm : (sortTiles tiles).Perm (sortTiles others) :=
    (sortTiles_perm tiles).trans (h.trans (sortTiles_perm others).symm)
  refine hperm.eq_of_pairwise (fun a b ha hb hab hba => ?_) (List.pairwise_insertionSort _ _)
    (List.pairwise_insertionSort _ _)
  have hin := (sortTiles_perm tiles).mem_iff.mp ha
  have hother := h.mem_iff.mpr ((sortTiles_perm others).mem_iff.mp hb)
  exact List.inj_on_of_nodup_map hnames hin hother (name_eq_of_rank (le_antisymm hab hba))

/-! ## Displays that have their tiles -/

theorem withDisplaySize_of_sized {tile : Tile} {id : Option String} {width height : Nat}
    (hnames : (layout.tiles.map Tile.name).Nodup) (htile : tile ∈ layout.tiles) (hname : tile.name = (key, id))
    (hsize : (tile.width, tile.height) = (width, height)) :
    layout.withDisplaySize key id width height = none := by
  obtain ⟨front, back, hsplit, -⟩ := splitFirst_isTileOf hnames htile hname
  exact withDisplaySize_sized hsplit hsize

/-- Each display has a tile that carries it and stands clear. -/
def Shown (key : Key) (displays : List Display) (layout : SharedLayout) : Prop :=
  ∀ display ∈ displays, ∃ tile ∈ layout.tiles, tile.Carries key display ∧ Clear layout.tiles tile

/-- A display that has its tile keeps it. -/
theorem placeDisplay_of_shown (hnames : (layout.tiles.map Tile.name).Nodup)
    (hshown : ∃ tile ∈ layout.tiles, tile.Carries key display ∧ Clear layout.tiles tile) :
    placeDisplay key layout display = some layout := by
  obtain ⟨tile, htile, hcarries, hclear⟩ := hshown
  obtain ⟨before, after, hsplit, htiles⟩ := splitFirst_isTileOf hnames htile hcarries.name
  have hsame : ({ tile with display := some display } : Tile) = tile := by rw [← hcarries.display]
  have hfree : ¬ (before ++ after).any (overlaps tile) = true := by
    rw [Bool.not_eq_true, List.any_eq_false]
    intro other hother
    rw [htiles, List.map_append, List.map_cons] at hnames
    have hfresh := (List.nodup_cons.mp (List.nodup_middle.mp hnames)).1
    rw [hclear other (by rw [htiles]; rcases List.mem_append.mp hother with h | h <;> simp [h]) fun heq => ?_]
    · simp
    · rw [← List.map_append] at hfresh
      exact hfresh (heq ▸ List.mem_map_of_mem hother)
  unfold placeDisplay
  rw [hsplit]
  dsimp only
  rw [hsame]
  unfold settle
  rw [if_neg hfree, Option.map_some, ← htiles]

/-- **What a new size leaves** to displays that have their tiles. -/
structure Resizing (key : Key) (displays : List Display) (layout next : SharedLayout) : Prop where
  shown : Shown key displays next
  names : next.tiles.map Tile.name = layout.tiles.map Tile.name
  valid : (∀ tile ∈ layout.tiles, tile.Valid) → ∀ tile ∈ next.tiles, tile.Valid

theorem sizeDisplay_resizing (hnames : (layout.tiles.map Tile.name).Nodup) (hshown : Shown key displays layout)
    (hmem : display ∈ displays) (hvalid : display.validate = .ok ()) :
    Resizing key displays layout (sizeDisplay key display layout) := by
  obtain ⟨tile, htile, hcarries, -⟩ := hshown display hmem
  obtain ⟨changes, hchanges, -⟩ :=
    sizeDisplay_reshapes hnames (List.mem_map.mpr ⟨tile, htile, hcarries.name⟩)
  refine ⟨fun other hother => ?_, hchanges.names, hchanges.valid (fits_deskSize hvalid)⟩
  obtain ⟨shown, hin, hshownCarries, hclear⟩ := hshown other hother
  obtain ⟨after, hafter, hchange, hafterClear⟩ := hchanges.stays hin
  have hsame := hchanges.each _ hchange
  exact ⟨after, hafter, ⟨hsame.sameKey.trans hshownCarries.key, hsame.sameDisplay.trans hshownCarries.display⟩,
    hafterClear hclear⟩

/-- **The walk** over displays that have their tiles gives each of them its size. -/
theorem walk_of_shown {part : List Display} (hnames : (layout.tiles.map Tile.name).Nodup)
    (hshown : Shown key displays layout) (hpart : ∀ display ∈ part, display ∈ displays)
    (hvalid : ∀ display ∈ displays, display.validate = .ok ()) :
    part.foldlM (fitDisplay key) layout = some (part.foldl (fun layout display => sizeDisplay key display layout) layout) ∧
      Resizing key displays layout (part.foldl (fun layout display => sizeDisplay key display layout) layout) := by
  induction part generalizing layout with
  | nil => exact ⟨rfl, hshown, rfl, id⟩
  | cons display rest ih =>
    obtain ⟨hmem, hrest⟩ := List.forall_mem_cons.mp hpart
    have hsized := sizeDisplay_resizing hnames hshown hmem (hvalid display hmem)
    obtain ⟨hwalk, hlater⟩ := ih (hsized.names ▸ hnames) hsized.shown hrest
    refine ⟨?_, hlater.shown, hlater.names.trans hsized.names, fun h => hlater.valid (hsized.valid h)⟩
    rw [List.foldlM_cons, fitDisplay_eq, placeDisplay_of_shown hnames (hshown display hmem)]
    exact hwalk

/-! ## A layout that was published -/

/-- **A layout that follows the displays**: its marks are right, it has no tile for the computer's whole
desktop, and among the tiles that take part each display has one that stands clear. -/
structure Follows (key : Key) (displays : List Display) (layout : SharedLayout) : Prop where
  valid : layout.Valid
  marked : ∀ tile ∈ layout.tiles, tile.marked key displays = tile
  whole : (key, none) ∉ layout.tiles.map Tile.name
  shown : Shown key displays layout.actives

theorem Follows.marks_eq (h : Follows key displays layout) : marks key displays layout = layout := by
  unfold marks
  rw [List.map_congr_left h.marked, List.map_id']

theorem Follows.names (h : Follows key displays layout) : (layout.actives.tiles.map Tile.name).Nodup :=
  h.valid.names.sublist (List.filter_sublist.map _)

theorem Follows.walkStart_eq (h : Follows key geometry.displays layout) :
    walkStart scale key geometry layout = some layout.actives := by
  rw [walkStart_of_whole h.whole, h.marks_eq]

/-- The tiles that take part and those that do not are all of them. -/
theorem actives_append_dormant (layout : SharedLayout) :
    (layout.actives.tiles ++ layout.tiles.filter Tile.dormant).Perm layout.tiles :=
  List.perm_append_comm.trans (List.filter_append_perm _ _)

/-- What comes of the walk where the displays have their tiles. -/
theorem Follows.reconciled_eq (h : Follows key geometry.displays layout)
    (hvalid : ∀ display ∈ geometry.displays, display.validate = .ok ()) :
    reconciled scale key geometry layout = some (sortTiles
      ((geometry.displays.foldl (fun layout display => sizeDisplay key display layout) layout.actives).tiles ++
        layout.tiles.filter Tile.dormant)) := by
  unfold reconciled
  rw [h.walkStart_eq, h.marks_eq]
  rw [Option.bind_eq_bind, Option.bind_some, (walk_of_shown h.names h.shown (fun _ => id) hvalid).1]
  rfl

/-- A tile that has its size keeps it while other displays take theirs. -/
theorem sized_foldl {part : List Display} (hnames : (layout.tiles.map Tile.name).Nodup)
    (hshown : Shown key displays layout) (hpart : ∀ display ∈ part, display ∈ displays)
    (hvalid : ∀ display ∈ displays, display.validate = .ok ()) (hother : ∀ other ∈ part, other.id ≠ display.id)
    (hsized : ∃ tile ∈ layout.tiles, tile.Carries key display ∧ tile.Sized display) :
    ∃ tile ∈ (part.foldl (fun layout display => sizeDisplay key display layout) layout).tiles,
      tile.Carries key display ∧ tile.Sized display := by
  induction part generalizing layout with
  | nil => exact hsized
  | cons first rest ih =>
    obtain ⟨hmem, hrest⟩ := List.forall_mem_cons.mp hpart
    obtain ⟨hfirst, hlater⟩ := List.forall_mem_cons.mp hother
    have hresizing := sizeDisplay_resizing hnames hshown hmem (hvalid first hmem)
    refine ih (hresizing.names ▸ hnames) hresizing.shown hrest hlater ?_
    obtain ⟨tile, htile, hcarries, hright⟩ := hsized
    obtain ⟨shown, hin, hshownCarries, -⟩ := hshown first hmem
    obtain ⟨changes, hchanges, -⟩ :=
      sizeDisplay_reshapes hnames (List.mem_map.mpr ⟨shown, hin, hshownCarries.name⟩)
    obtain ⟨after, hafter, hchange, -⟩ := hchanges.stays htile
    have hsame := hchanges.each _ hchange
    refine ⟨after, hafter, ⟨hsame.sameKey.trans hcarries.key, hsame.sameDisplay.trans hcarries.display⟩, ?_⟩
    rcases hsame.size with hkept | ⟨hname, -⟩
    · exact hkept.trans hright
    · have hids := congrArg Prod.snd (hcarries.name.symm.trans hname)
      exact absurd (Option.some.inj hids).symm hfirst

/-- Sizes that are denied change nothing. -/
theorem foldl_sizeDisplay_of_none {part : List Display} (hnone : ∀ display ∈ part,
      layout.withDisplaySize key (some display.id) display.deskSize.1 display.deskSize.2 = none) :
    part.foldl (fun layout display => sizeDisplay key display layout) layout = layout := by
  induction part with
  | nil => rfl
  | cons display rest ih =>
    obtain ⟨hfirst, hrest⟩ := List.forall_mem_cons.mp hnone
    have hkeep : sizeDisplay key display layout = layout := by
      unfold sizeDisplay
      rw [hfirst]
      rfl
    rw [List.foldl_cons, hkeep]
    exact ih hrest

/-- A size that is not denied is taken, and kept. -/
theorem exists_sized_of_isSome (h : Follows key displays layout) (hids : (displays.map Display.id).Nodup)
    (hvalid : ∀ display ∈ displays, display.validate = .ok ()) (hsome : ¬ ∀ display ∈ displays,
      layout.actives.withDisplaySize key (some display.id) display.deskSize.1 display.deskSize.2 = none) :
    layout.version < maxToken ∧ ∃ display ∈ displays,
      layout.actives.withDisplaySize key (some display.id) display.deskSize.1 display.deskSize.2 ≠ none ∧
      ∃ tile ∈ (displays.foldl (fun layout display => sizeDisplay key display layout) layout.actives).tiles,
        tile.Carries key display ∧ tile.Sized display := by
  have hfound : splitFirst (fun display => (layout.actives.withDisplaySize key (some display.id)
      display.deskSize.1 display.deskSize.2).isSome) displays ≠ none := by
    rw [ne_eq, splitFirst_eq_none]
    intro hnot
    exact hsome fun display hmem => by simpa using hnot display hmem
  obtain ⟨⟨before, display, after⟩, hsplit⟩ := Option.ne_none_iff_exists'.mp hfound
  obtain ⟨rfl, htakes, hbefore⟩ := splitFirst_eq_some hsplit
  have hmem : display ∈ before ++ display :: after := by simp
  obtain ⟨resized, hresized⟩ := Option.isSome_iff_exists.mp htakes
  have hversion : layout.version < maxToken := by
    rcases withDisplaySize_eq_some hresized with ⟨-, _, -, hnext⟩ | ⟨_, _, _, _, -, -, -, hnext⟩
    all_goals
      obtain ⟨rfl, hgood⟩ := nextVersion_eq_some.mp hnext
      exact hgood.version
  refine ⟨hversion, display, hmem, by rw [hresized]; simp, ?_⟩
  -- The displays before it change nothing, and those after it leave its tile its size.
  have hstill : before.foldl (fun layout display => sizeDisplay key display layout) layout.actives =
      layout.actives := foldl_sizeDisplay_of_none fun other hother => by simpa using hbefore other hother
  rw [List.foldl_append, hstill, List.foldl_cons]
  have hresizing := sizeDisplay_resizing h.names h.shown hmem (hvalid display hmem)
  refine sized_foldl (hresizing.names ▸ h.names) hresizing.shown (fun other hother => by simp [hother]) hvalid ?_ ?_
  · intro other hother hid
    rw [List.map_append, List.map_cons] at hids
    exact (List.nodup_cons.mp (List.nodup_append.mp hids).2.1).1 (hid ▸ List.mem_map_of_mem hother)
  · obtain ⟨tile, htile, hcarries, -⟩ := h.shown display hmem
    obtain ⟨changes, hchanges, hsized⟩ :=
      sizeDisplay_reshapes h.names (List.mem_map.mpr ⟨tile, htile, hcarries.name⟩)
    obtain ⟨there, hthere, hchange, -⟩ := hchanges.stays htile
    have hsame := hchanges.each _ hchange
    refine ⟨there, hthere, ⟨hsame.sameKey.trans hcarries.key, hsame.sameDisplay.trans hcarries.display⟩, ?_⟩
    refine hsized.resolve_left (fun hrefused => ?_) _ hchange hcarries.name
    exact hrefused.2 resized
      ((withDisplaySize_eq_some_iff (List.mem_map.mpr ⟨tile, htile, hcarries.name⟩)).mp hresized)

/-- **The second call**: a layout that follows the displays is published anew exactly where one of them can
take its size. -/
theorem Follows.withGeometry_eq_none (h : Follows key geometry.displays layout)
    (hgeometry : geometry.validate = .ok ()) (hdisplays : geometry.displays ≠ []) :
    layout.withGeometry scale key geometry = none ↔ ∀ display ∈ geometry.displays,
      layout.actives.withDisplaySize key (some display.id) display.deskSize.1 display.deskSize.2 = none := by
  obtain ⟨hids, hall⟩ := displays_of_valid hgeometry
  have hvalid : ∀ display ∈ geometry.displays, display.validate = .ok () := fun display hmem =>
    (hall display hmem).1
  rw [withGeometry_eq hgeometry hdisplays, h.reconciled_eq hvalid, Option.bind_some]
  constructor
  · intro hnone
    by_contra hsome
    obtain ⟨hversion, display, hmem, htakes, tile, htile, hcarries, hsized⟩ :=
      exists_sized_of_isSome h hids hvalid hsome
    obtain ⟨-, -, hnames, htiles⟩ := walk_of_shown h.names h.shown (fun _ => id) hvalid
    generalize geometry.displays.foldl (fun layout display => sizeDisplay key display layout) layout.actives =
      fitted at *
    have hperm := sortTiles_perm (fitted.tiles ++ layout.tiles.filter Tile.dormant)
    have hallNames : ((fitted.tiles ++ layout.tiles.filter Tile.dormant).map Tile.name).Perm
        (layout.tiles.map Tile.name) := by
      rw [List.map_append, hnames, ← List.map_append]
      exact (actives_append_dormant layout).map Tile.name
    split at hnone
    · rename_i hsame
      -- Then the tile had its size all along.
      have hin : tile ∈ layout.tiles :=
        (sortTiles_perm _).mem_iff.mp (hsame ▸ hperm.mem_iff.mpr (List.mem_append_left _ htile))
      obtain ⟨shown, hshown, hshownCarries, -⟩ := h.shown display hmem
      obtain rfl := h.valid.eq_of_name hin (List.filter_sublist.subset hshown)
        (hcarries.name.trans hshownCarries.name.symm)
      exact htakes (withDisplaySize_of_sized h.names hshown hcarries.name hsized)
    · refine nextVersion_eq_none.mp hnone ⟨hversion, ?_, ?_, ?_⟩
      · show (sortTiles _).length ≤ maxSharedTiles
        rw [hperm.length_eq, ← List.length_map (f := Tile.name), hallNames.length_eq, List.length_map]
        exact h.valid.length
      · exact ((hperm.map Tile.name).trans hallNames).nodup_iff.mpr h.valid.names
      · intro other hother
        rcases List.mem_append.mp (hperm.mem_iff.mp hother) with hactive | hdormant
        · exact htiles (fun there hthere => h.valid.tiles there (List.filter_sublist.subset hthere)) other hactive
        · exact h.valid.tiles other (List.filter_sublist.subset hdormant)
  · intro hnone
    rw [foldl_sizeDisplay_of_none hnone, if_pos]
    exact (sortTiles_eq_of_perm h.valid.names (actives_append_dormant layout).symm).symm

/-! ## What the first call publishes -/

/-- The tiles of a walk's end with those that are dormant. -/
def withDormant (key : Key) (displays : List Display) (layout fitted : SharedLayout) : List Tile :=
  fitted.tiles ++ (marks key displays layout).tiles.filter Tile.dormant

/-- The layout that comes of a walk. -/
def outcome (key : Key) (displays : List Display) (layout fitted : SharedLayout) : SharedLayout :=
  ⟨layout.version + 1, key, sortTiles (withDormant key displays layout fitted)⟩

/-- **What is published** is the outcome of the walk, where it is a layout with other tiles. -/
theorem withGeometry_eq_some_iff (hgeometry : geometry.validate = .ok ()) (hdisplays : geometry.displays ≠ []) :
    layout.withGeometry scale key geometry = some next ↔ ∃ begun fitted,
      walkStart scale key geometry layout = some begun ∧ Walk (Turn key) geometry.displays begun fitted ∧
      next = outcome key geometry.displays layout fitted ∧ next.tiles ≠ sortTiles layout.tiles ∧ next.Valid := by
  rw [withGeometry_eq hgeometry hdisplays, Option.bind_eq_some_iff]
  constructor
  · rintro ⟨out, hout, h⟩
    obtain ⟨begun, fitted, hbegun, hfitted, rfl⟩ := reconciled_eq_some hout
    split at h
    · cases h
    · rename_i hdiffer
      obtain ⟨rfl, hvalid⟩ := nextVersion_eq_some.mp h
      exact ⟨begun, fitted, hbegun, walk_iff.mp hfitted, rfl, hdiffer, hvalid⟩
  · rintro ⟨begun, fitted, hbegun, hwalk, rfl, hdiffer, hvalid⟩
    refine ⟨_, ?_, (if_neg hdiffer).trans (nextVersion_eq_some.mpr ⟨rfl, hvalid⟩)⟩
    unfold reconciled
    rw [hbegun, Option.bind_eq_bind, Option.bind_some, walk_iff.mpr hwalk]
    rfl

section Published

variable {begun fitted : SharedLayout} {denied : Display → Prop} {tile : Tile}

/-- A tile of the computer that is fitted carries its display. -/
theorem Fitting.carries {first tiles : List Tile} (h : Fitting key displays first denied displays tiles)
    (htile : tile ∈ tiles) (hkey : tile.key = key) : ∃ display ∈ displays, Fitted key first denied tiles display tile := by
  obtain ⟨display, hmem, hname⟩ := h.own tile htile hkey
  obtain ⟨other, hother, hfitted⟩ := h.fitted display hmem
  obtain rfl : other = tile :=
    List.inj_on_of_nodup_map h.names hother htile (hfitted.carries.name.trans hname.symm)
  exact ⟨display, hmem, hfitted⟩

/-- Dormant tiles are put back after the walk, so those that take part are the fitted ones. -/
theorem mem_actives_published (htiles : next.tiles.Perm (withDormant key displays layout fitted)) :
    tile ∈ next.actives.tiles ↔ tile ∈ fitted.tiles ∧ tile.dormant = false := by
  unfold actives
  rw [List.mem_filter, Bool.not_eq_true', htiles.mem_iff, withDormant, List.mem_append]
  refine and_congr_left fun hpart => or_iff_left fun hdormant => ?_
  rw [(List.mem_filter.mp hdormant).2] at hpart
  cases hpart

/-- **What was published follows the displays.** -/
theorem follows_of_fitting (hactive : ∀ display ∈ displays, display.active = true) (hnext : next.Valid)
    (hfitting : Fitting key displays begun.tiles denied displays fitted.tiles)
    (htiles : next.tiles.Perm (withDormant key displays layout fitted)) :
    Follows key displays next ∧ ∀ display ∈ displays, ¬ denied display →
      ∃ tile ∈ next.actives.tiles, tile.Carries key display ∧ tile.Sized display := by
  have hin : ∀ display ∈ displays, ∀ tile ∈ fitted.tiles, tile.Carries key display →
      tile ∈ next.actives.tiles := fun display hmem tile htile hcarries =>
    (mem_actives_published htiles).mpr ⟨htile, hcarries.not_dormant (hactive display hmem)⟩
  refine ⟨⟨hnext, ?_, ?_, ?_⟩, ?_⟩
  · intro tile htile
    rcases List.mem_append.mp (htiles.mem_iff.mp htile) with hfitted | hdormant
    · by_cases hkey : tile.key = key
      · obtain ⟨display, hmem, htileFitted⟩ := hfitting.carries hfitted hkey
        exact marked_eq_self_of_carries htileFitted.carries hmem (hactive display hmem)
      · exact marked_of_key_ne hkey
    · obtain ⟨old, -, rfl⟩ := List.mem_map.mp (List.mem_filter.mp hdormant).1
      exact marked_marked
  · intro hwhole
    obtain ⟨tile, htile, hname⟩ := List.mem_map.mp hwhole
    rcases List.mem_append.mp (htiles.mem_iff.mp htile) with hfitted | hdormant
    · obtain ⟨display, -, hshown⟩ := hfitting.own tile hfitted (congrArg Prod.fst hname)
      cases hname.symm.trans hshown
    · have hnone : tile.display = none := Option.map_eq_none_iff.mp (congrArg Prod.snd hname)
      have hpart := (List.mem_filter.mp hdormant).2
      unfold Tile.dormant at hpart
      rw [hnone] at hpart
      cases hpart
  · intro display hmem
    obtain ⟨tile, htile, htileFitted⟩ := hfitting.fitted display hmem
    exact ⟨tile, hin display hmem tile htile htileFitted.carries, htileFitted.carries,
      fun other hother hne => htileFitted.clear other ((mem_actives_published htiles).mp hother).1 hne⟩
  · intro display hmem hnot
    obtain ⟨tile, htile, htileFitted⟩ := hfitting.fitted display hmem
    exact ⟨tile, hin display hmem tile htile htileFitted.carries, htileFitted.carries,
      htileFitted.size.resolve_right fun hdenied => hnot hdenied.1⟩

end Published

theorem withGeometry_of_nil (hvalid : geometry.validate = .ok ()) (hdisplays : geometry.displays = []) :
    layout.withGeometry scale key geometry =
      geometry.bounds.toOption.bind fun bounds => layout.withOwnSize key bounds.width bounds.height := by
  have hnone : geometry.displays.isEmpty = true := List.isEmpty_iff.mpr hdisplays
  unfold withGeometry
  rw [hvalid, hnone]
  rfl

theorem validate_of_withGeometry (h : layout.withGeometry scale key geometry = some next) :
    geometry.validate = .ok () := by
  obtain ⟨_, hsome, -⟩ := Option.bind_eq_some_iff.mp h
  cases hvalid : geometry.validate with
  | error error =>
    rw [hvalid] at hsome
    cases hsome
  | ok _ => rfl

/-- A layout without some of its tiles. -/
theorem Valid.actives (h : layout.Valid) : layout.actives.Valid :=
  ⟨h.version, List.filter_sublist.length_le.trans h.length, h.names.sublist (List.filter_sublist.map _),
    fun tile htile => h.tiles tile (List.filter_sublist.subset htile)⟩

/-- A screen of the computer below which two more stand. -/
def stacked : Geometry :=
  let displays : List Display := [⟨"a", "a", ⟨0, 0, 2000, 1000⟩, 100, 100, true⟩,
    ⟨"b", "b", ⟨0, 1000, 1000, 1000⟩, 100, 100, true⟩, ⟨"c", "c", ⟨1000, 1000, 1000, 1000⟩, 100, 100, true⟩]
  ⟨displays.map Display.bounds, displays⟩

end Zflow.Desktop.SharedLayout
