import Mathlib.Data.List.Perm.Basic
import Zflow.Laws.Desktop.Fixpoint

/-!
# A layout follows the monitors that are reported

What is published for the displays of a computer carries each of them once, and leaves the other computers
theirs. Where nothing is published the layout follows the displays, its versions are used up or there is no
room; a tile for the whole desktop beside one for a display that is reported, and a tile that is left past
the canvas, stop every update (`reconciling_correct`).
-/

namespace Zflow.Desktop.SharedLayout

open Lib

variable {key : Key} {display : Display} {displays : List Display} {layout next : SharedLayout}
  {scale : Scale} {geometry : Geometry}

/-! ## What is stated -/

/-- **A layout that is published** for the displays of a computer. -/
structure Reconciles (scale : Scale) (key : Key) (geometry : Geometry) (layout next : SharedLayout) : Prop where
  valid : next.validate.isOk = true
  version : next.version = layout.version + 1
  /-- The computer's tiles that take part carry the displays that are reported, each once. -/
  displays : ((next.actives.tiles.filter (·.key = key)).map Tile.display).Perm (geometry.displays.map some)
  /-- They have the displays' sizes, or those they came with where a size was denied. -/
  sizes : ∃ begun, walkStart scale key geometry layout = some begun ∧ ∀ display ∈ geometry.displays,
    ∀ tile ∈ next.actives.tiles, tile.Carries key display →
      tile.Sized display ∨ Denied key geometry.displays begun display ∧ Former begun.tiles tile
  /-- The other computers' tiles are only moved. -/
  others : ∃ moved, List.Forall₂ Moves (layout.tiles.filter (·.key ≠ key)) moved ∧
    moved.Perm (next.tiles.filter (·.key ≠ key))
  /-- The tiles of displays that are not reported stay where they are. -/
  unplugged : ∀ tile ∈ layout.tiles, (tile.marked key geometry.displays).dormant = true →
    tile.marked key geometry.displays ∈ next.tiles

/-- A layout that agrees with the displays: each has its tile, of its size unless that is denied. -/
structure Agrees (scale : Scale) (key : Key) (geometry : Geometry) (layout : SharedLayout) : Prop where
  follows : Follows key geometry.displays layout
  sizes : ∃ begun, walkStart scale key geometry layout = some begun ∧ ∀ display ∈ geometry.displays,
    Denied key geometry.displays begun display ∨
      ∃ tile ∈ layout.actives.tiles, tile.Carries key display ∧ tile.Sized display

/-- **No room**: in its turn a display's tile stands under another, or is missing, and none of the spots that are tried
for it is free; or there are more tiles than a layout holds. -/
def NoRoom (scale : Scale) (key : Key) (geometry : Geometry) (layout : SharedLayout) : Prop :=
  ∃ begun, walkStart scale key geometry layout = some begun ∧
    ((∃ before display rest reached, geometry.displays = before ++ display :: rest ∧
      Walk (Turn key) before begun reached ∧ NoSeat key display reached.tiles) ∨
    ∃ fitted, Walk (Turn key) geometry.displays begun fitted ∧
      maxSharedTiles < (withDormant key geometry.displays layout fitted).length)

/-- **A tile that no layout can have**, such as a piece of the old tile past the canvas, is left by the turns of the
displays, or cannot even be cut. -/
def Unfit (scale : Scale) (key : Key) (geometry : Geometry) (layout : SharedLayout) : Prop :=
  ∀ begun, walkStart scale key geometry layout = some begun →
    ∃ fitted, Walk (Turn key) geometry.displays begun fitted ∧ ∃ tile ∈ fitted.tiles, ¬ tile.Valid

/-! ## The other computers -/

theorem others_marks (key : Key) (displays : List Display) (layout : SharedLayout) :
    (marks key displays layout).tiles.filter (·.key ≠ key) = layout.tiles.filter (·.key ≠ key) := by
  unfold marks
  rw [List.filter_map]
  have hkeys : ((fun tile : Tile => decide (tile.key ≠ key)) ∘ Tile.marked key displays) =
      fun tile => decide (tile.key ≠ key) := funext fun tile => by simp
  rw [hkeys]
  refine (List.map_congr_left fun tile htile => ?_).trans (List.map_id _)
  exact marked_of_key_ne (of_decide_eq_true (List.mem_filter.mp htile).2)

section Walk

variable {begun fitted : SharedLayout} {denied : Display → Prop} {tile : Tile}

theorem names_of_moves {tiles moved : List Tile} (h : List.Forall₂ Moves tiles moved) :
    moved.map Tile.name = tiles.map Tile.name := by
  induction h with
  | nil => rfl
  | cons hfirst _ ih =>
    rw [List.map_cons, List.map_cons, ih]
    unfold Moves at hfirst
    rw [hfirst]
    rfl

/-- Splitting the tile of a whole desktop leaves the other computers theirs. -/
theorem others_walkStart (h : walkStart scale key geometry layout = some begun) : begun.tiles.filter (·.key ≠ key) =
      (marks key geometry.displays layout).actives.tiles.filter (·.key ≠ key) := by
  obtain ⟨start, hsplit, rfl⟩ := Option.map_eq_some_iff.mp h
  rcases splitLegacy_cases hsplit with ⟨rfl, -⟩ | ⟨before, old, after, pieces, htiles, hold, rfl, hpieces⟩
  · rfl
  · have hown : pieces.filter (·.key ≠ key) = [] := by
      rw [List.filter_eq_nil_iff]
      intro piece_ hpiece
      have hnamed : piece_.name ∈ pieces.map Tile.name := List.mem_map_of_mem hpiece
      rw [names_of_carries hpieces] at hnamed
      obtain ⟨display, -, hname⟩ := List.mem_map.mp hnamed
      have hkey : piece_.key = key := (congrArg Prod.fst hname).symm
      simp [hkey]
    have hkey : old.key = key := congrArg Prod.fst hold
    rw [htiles]
    simp only [List.filter_append, hown, List.append_nil, List.filter_cons]
    simp [hkey]

/-- The names of the walk's end and of what is dormant are all different. -/
theorem names_withDormant (hvalid : layout.Valid) (hbegun : walkStart scale key geometry layout = some begun)
    (hfitting : Fitting key geometry.displays begun.tiles denied geometry.displays fitted.tiles) :
    ((withDormant key geometry.displays layout fitted).map Tile.name).Nodup := by
  have hmarks : ((marks key geometry.displays layout).tiles.map Tile.name).Nodup :=
    names_marks key geometry.displays layout ▸ hvalid.names
  have hdormant : (((marks key geometry.displays layout).tiles.filter Tile.dormant).map Tile.name).Nodup :=
    hmarks.sublist (List.filter_sublist.map _)
  unfold withDormant
  rw [List.map_append]
  refine List.nodup_append.mpr ⟨hfitting.names, hdormant, ?_⟩
  rintro name hname _ hother rfl
  obtain ⟨tile, htile, hsame⟩ := List.mem_map.mp hname
  obtain ⟨still, hstill, hstillName⟩ := List.mem_map.mp hother
  obtain ⟨hin, hpart⟩ := List.mem_filter.mp hstill
  have hkeys : tile.key = still.key := congrArg Prod.fst (hsame.trans hstillName.symm)
  by_cases hkey : tile.key = key
  · obtain ⟨old, -, rfl⟩ := List.mem_map.mp hin
    obtain ⟨display, hmem, hshown⟩ := hfitting.own tile htile hkey
    rw [key_marked] at hkeys
    obtain ⟨id, hid, hnone⟩ := (dormant_marked (hkeys.symm.trans hkey)).mp hpart
    rw [name_marked] at hstillName
    have hids := (hshown.symm.trans (hsame.trans hstillName.symm)).trans hid
    exact hnone display hmem (Option.some.inj (congrArg Prod.snd hids))
  · -- Another computer's tile that takes part is not one that is dormant.
    have hothers := names_of_moves hfitting.others
    rw [others_walkStart hbegun] at hothers
    have hmoved : tile.name ∈ (fitted.tiles.filter (·.key ≠ key)).map Tile.name :=
      List.mem_map_of_mem (List.mem_filter.mpr ⟨htile, by simpa using hkey⟩)
    rw [hothers] at hmoved
    obtain ⟨part, hpartIn, hpartName⟩ := List.mem_map.mp hmoved
    obtain ⟨hthere, hactive⟩ := List.mem_filter.mp (List.mem_filter.mp hpartIn).1
    obtain rfl : part = still := List.inj_on_of_nodup_map hmarks hthere hin
      (hpartName.trans (hsame.trans hstillName.symm))
    rw [hpart] at hactive
    cases hactive

/-- What the walk leaves the other computers. -/
theorem others_moved {out : List Tile} (hbegun : walkStart scale key geometry layout = some begun)
    (hfitting : Fitting key geometry.displays begun.tiles denied geometry.displays fitted.tiles)
    (hout : out.Perm (withDormant key geometry.displays layout fitted)) :
    ∃ moved, List.Forall₂ Moves (layout.tiles.filter (·.key ≠ key)) moved ∧ moved.Perm (out.filter (·.key ≠ key)) := by
  have hmoves := hfitting.others
  rw [others_walkStart hbegun] at hmoves
  have hstill : ∀ tiles : List Tile, List.Forall₂ Moves tiles tiles := fun tiles =>
    List.forall₂_same.mpr fun _ _ => rfl
  have htheirs : (layout.tiles.filter (·.key ≠ key)).Perm
      ((marks key geometry.displays layout).actives.tiles.filter (·.key ≠ key) ++
        ((marks key geometry.displays layout).tiles.filter Tile.dormant).filter (·.key ≠ key)) := by
    rw [← others_marks key geometry.displays layout, ← List.filter_append]
    exact (actives_append_dormant (marks key geometry.displays layout)).symm.filter _
  obtain ⟨moved, hmoved, hperm⟩ := List.perm_comp_forall₂ htheirs (List.rel_append hmoves (hstill _))
  refine ⟨moved, hmoved, hperm.trans ?_⟩
  have hsplit := (hout.filter (·.key ≠ key)).symm
  unfold withDormant at hsplit
  rwa [List.filter_append] at hsplit

/-- The computer's tiles that take part are those that are fitted. -/
theorem mem_own_actives (hactive : ∀ display ∈ geometry.displays, display.active = true)
    (hfitting : Fitting key geometry.displays begun.tiles denied geometry.displays fitted.tiles)
    (htiles : next.tiles.Perm (withDormant key geometry.displays layout fitted)) :
    tile ∈ next.actives.tiles.filter (·.key = key) ↔ tile ∈ fitted.tiles ∧ tile.key = key := by
  rw [List.mem_filter, decide_eq_true_eq, mem_actives_published htiles]
  refine and_congr_left fun hkey => and_iff_left_of_imp fun hfitted => ?_
  obtain ⟨display, hmem, htile⟩ := hfitting.carries hfitted hkey
  exact htile.carries.not_dormant (hactive display hmem)

/-- They carry the displays that are reported, each once. -/
theorem displays_of_fitting (hids : (geometry.displays.map Display.id).Nodup)
    (hactive : ∀ display ∈ geometry.displays, display.active = true) (hnext : next.Valid)
    (hfitting : Fitting key geometry.displays begun.tiles denied geometry.displays fitted.tiles)
    (htiles : next.tiles.Perm (withDormant key geometry.displays layout fitted)) :
    ((next.actives.tiles.filter (·.key = key)).map Tile.display).Perm (geometry.displays.map some) := by
  have hmem : ∀ {tile}, tile ∈ next.actives.tiles.filter (·.key = key) ↔ tile ∈ fitted.tiles ∧ tile.key = key :=
    mem_own_actives hactive hfitting htiles
  have hnodup : (next.actives.tiles.filter (·.key = key)).Nodup :=
    (hnext.names.of_map _).sublist (List.filter_sublist.trans List.filter_sublist)
  refine (List.perm_ext_iff_of_nodup (hnodup.map_on ?_) (hids.of_map.map (Option.some_injective _))).mpr fun shown => ?_
  · intro a ha b hb hdisplays
    have hown : ∀ tile ∈ next.actives.tiles.filter (·.key = key), tile ∈ next.tiles := fun tile htile =>
      List.filter_sublist.subset (List.filter_sublist.subset htile)
    refine hnext.eq_of_name (hown a ha) (hown b hb) ?_
    unfold Tile.name
    rw [hdisplays, (hmem.mp ha).2, (hmem.mp hb).2]
  · rw [List.mem_map, List.mem_map]
    constructor
    · rintro ⟨tile, htile, rfl⟩
      obtain ⟨hfitted, hkey⟩ := hmem.mp htile
      obtain ⟨display, hdisplay, hcarried⟩ := hfitting.carries hfitted hkey
      exact ⟨display, hdisplay, hcarried.carries.display.symm⟩
    · rintro ⟨display, hdisplay, rfl⟩
      obtain ⟨tile, htile, hfitted⟩ := hfitting.fitted display hdisplay
      exact ⟨tile, hmem.mpr ⟨htile, hfitted.carries.key⟩, hfitted.carries.display⟩

end Walk

/-! ## What is published -/

theorem withGeometry_reconciles (hvalid : layout.Valid) (hgeometry : geometry.validate = .ok ())
    (hdisplays : geometry.displays ≠ []) (h : layout.withGeometry scale key geometry = some next) :
    Reconciles scale key geometry layout next := by
  obtain ⟨hids, hall⟩ := displays_of_valid hgeometry
  have hactive : ∀ display ∈ geometry.displays, display.active = true := fun display hmem => (hall display hmem).2
  have hclash : ¬ Clashes key geometry.displays layout := fun hclash => by
    rw [withGeometry_of_clash hclash] at h
    cases h
  obtain ⟨begun, fitted, hbegun, hfitted, rfl, -, hnext⟩ := (withGeometry_eq_some_iff hgeometry hdisplays).mp h
  have htiles := sortTiles_perm (withDormant key geometry.displays layout fitted)
  have hfitting := Fitting.walk hfitted hids (fun display hmem => (hall display hmem).1)
    (walkStart_fitting hvalid hgeometry hclash hbegun)
  refine ⟨validate_isOk_iff.mpr hnext, rfl, displays_of_fitting hids hactive hnext hfitting htiles,
    ⟨begun, hbegun, ?_⟩, others_moved hbegun hfitting htiles, ?_⟩
  · intro display hmem tile htile hcarries
    have hin := (mem_own_actives hactive hfitting htiles).mp (List.mem_filter.mpr ⟨htile, by simpa using hcarries.key⟩)
    obtain ⟨other, hother, htileFitted⟩ := hfitting.fitted display hmem
    obtain rfl : other = tile := List.inj_on_of_nodup_map hfitting.names hother hin.1
      (htileFitted.carries.name.trans hcarries.name.symm)
    exact htileFitted.size
  · intro tile htile hdormant
    exact htiles.mem_iff.mpr (List.mem_append_right _ (List.mem_filter.mpr ⟨List.mem_map_of_mem htile, hdormant⟩))

/-! ## Why nothing is published -/

/-- A layout that agrees with the displays is walked over without a tile that no layout can have. -/
theorem Follows.not_unfit (h : Follows key geometry.displays layout)
    (hvalid : ∀ display ∈ geometry.displays, display.validate = .ok ()) : ¬ Unfit scale key geometry layout := by
  intro hunfit
  obtain ⟨fitted, hfitted, tile, htile, hbad⟩ := hunfit _ h.walkStart_eq
  obtain ⟨hwalk, -, -, htiles⟩ := walk_of_shown h.names h.shown (fun _ => id) hvalid
  obtain rfl := Option.some.inj (hwalk.symm.trans (walk_iff.mpr hfitted))
  exact hbad (htiles (fun there hthere => h.valid.tiles there (List.filter_sublist.subset hthere)) tile htile)

theorem withGeometry_of_unfit (hgeometry : geometry.validate = .ok ()) (hdisplays : geometry.displays ≠ [])
    (hunfit : Unfit scale key geometry layout) : layout.withGeometry scale key geometry = none := by
  by_contra hsome
  obtain ⟨next, hnext⟩ := Option.ne_none_iff_exists'.mp hsome
  obtain ⟨begun, fitted, hbegun, hfitted, rfl, -, hvalid⟩ := (withGeometry_eq_some_iff hgeometry hdisplays).mp hnext
  obtain ⟨other, hother, tile, htile, hbad⟩ := hunfit begun hbegun
  obtain rfl := Option.some.inj ((walk_iff.mpr hfitted).symm.trans (walk_iff.mpr hother))
  exact hbad (hvalid.tiles tile ((sortTiles_perm _).mem_iff.mpr (List.mem_append_left _ htile)))

/-- Where the walk starts with tiles that a layout can have it leaves only such tiles. -/
theorem not_unfit {begun : SharedLayout} (hvalid : layout.Valid) (hgeometry : geometry.validate = .ok ())
    (hclash : ¬ Clashes key geometry.displays layout) (hbegun : walkStart scale key geometry layout = some begun)
    (htiles : ∀ tile ∈ begun.tiles, tile.Valid) : ¬ Unfit scale key geometry layout := by
  obtain ⟨hids, hall⟩ := displays_of_valid hgeometry
  intro hunfit
  obtain ⟨fitted, hfitted, tile, htile, hbad⟩ := hunfit begun hbegun
  have hfitting := Fitting.walk hfitted hids (fun display hmem => (hall display hmem).1)
    (walkStart_fitting hvalid hgeometry hclash hbegun)
  exact hbad (hfitting.valid htiles tile htile)

/-- Without a tile for the computer's whole desktop there is nothing to split. -/
theorem whole_of_unfit (hvalid : layout.Valid) (hgeometry : geometry.validate = .ok ())
    (hunfit : Unfit scale key geometry layout) : (key, none) ∈ layout.tiles.map Tile.name := by
  by_contra hwhole
  refine not_unfit hvalid hgeometry (fun hclash => hwhole hclash.1) (walkStart_of_whole hwhole) (fun tile htile => ?_) hunfit
  obtain ⟨old, hold, rfl⟩ := List.mem_map.mp (List.filter_sublist.subset htile)
  exact valid_marked (hvalid.tiles old hold)

/-- Where neither stops the update, a layout that is not published agrees with the displays, has used up its
versions or has no room. -/
theorem withGeometry_eq_none (hvalid : layout.Valid) (hgeometry : geometry.validate = .ok ())
    (hdisplays : geometry.displays ≠ []) (hclash : ¬ Clashes key geometry.displays layout)
    (hfit : ¬ Unfit scale key geometry layout) (h : layout.withGeometry scale key geometry = none) :
    Agrees scale key geometry layout ∨ layout.version = maxToken ∨ NoRoom scale key geometry layout := by
  obtain ⟨hids, hall⟩ := displays_of_valid hgeometry
  unfold Unfit at hfit
  push Not at hfit
  obtain ⟨begun, hbegun, hgood⟩ := hfit
  cases hfitted : geometry.displays.foldlM (fitDisplay key) begun with
  | none =>
    obtain ⟨before, display, rest, reached, hsplit, hreached, hnone⟩ := foldlM_eq_none hfitted
    rw [fitDisplay_eq] at hnone
    exact .inr (.inr ⟨begun, hbegun, .inl ⟨before, display, rest, reached, hsplit, walk_iff.mp hreached,
      placeDisplay_eq_none.mp (Option.map_eq_none_iff.mp hnone)⟩⟩)
  | some fitted =>
    have hfitting := Fitting.walk (walk_iff.mp hfitted) hids (fun display hmem => (hall display hmem).1)
      (walkStart_fitting hvalid hgeometry hclash hbegun)
    have hperm := sortTiles_perm (withDormant key geometry.displays layout fitted)
    have hout : reconciled scale key geometry layout =
        some (sortTiles (withDormant key geometry.displays layout fitted)) := by
      unfold reconciled
      rw [hbegun, Option.bind_eq_bind, Option.bind_some, hfitted]
      rfl
    rw [withGeometry_eq hgeometry hdisplays, hout, Option.bind_some] at h
    split at h
    · -- The tiles are those the layout has, so it is the layout that follows the displays.
      rename_i hsame
      have htiles : layout.tiles.Perm (withDormant key geometry.displays layout fitted) :=
        (sortTiles_perm layout.tiles).symm.trans (hsame ▸ hperm)
      obtain ⟨hfollows, hsized⟩ :=
        follows_of_fitting (fun display hmem => (hall display hmem).2) hvalid hfitting htiles
      refine .inl ⟨hfollows, begun, hbegun, fun display hmem => ?_⟩
      by_cases hdenied : Denied key geometry.displays begun display
      · exact .inl hdenied
      · exact .inr (hsized display hmem hdenied)
    · by_contra hnot
      push Not at hnot
      obtain ⟨-, hversion, hroom⟩ := hnot
      refine nextVersion_eq_none.mp h ⟨?_, ?_, ?_, ?_⟩
      · have := hvalid.version
        show layout.version + 1 ≤ maxToken
        omega
      · show (sortTiles _).length ≤ maxSharedTiles
        rw [hperm.length_eq]
        by_contra hfull
        exact hroom ⟨begun, hbegun, .inr ⟨fitted, walk_iff.mp hfitted, Nat.lt_of_not_le hfull⟩⟩
      · exact ((hperm.map Tile.name).nodup_iff).mpr (names_withDormant hvalid hbegun hfitting)
      · intro tile htile
        rcases List.mem_append.mp (hperm.mem_iff.mp htile) with hin | hdormant
        · exact hgood fitted (walk_iff.mp hfitted) tile hin
        · obtain ⟨old, hold, rfl⟩ := List.mem_map.mp (List.mem_filter.mp hdormant).1
          exact valid_marked (hvalid.tiles old hold)

/-- A walk that ends with at most 32 tiles had room. -/
theorem not_noRoom (h : ((walkStart scale key geometry layout).all fun begun =>
    (geometry.displays.foldlM (fitDisplay key) begun).any fun fitted =>
      (withDormant key geometry.displays layout fitted).length ≤ maxSharedTiles) = true) :
    ¬ NoRoom scale key geometry layout := by
  rintro ⟨begun, hbegun, hstops⟩
  rw [hbegun, Option.all_some] at h
  rcases hstops with ⟨before, display, rest, reached, hsplit, hreached, hnone⟩ | ⟨fitted, hfitted, hfull⟩
  · rw [hsplit, List.foldlM_append, walk_iff.mpr hreached, Option.bind_eq_bind, Option.bind_some, List.foldlM_cons,
      fitDisplay_eq, placeDisplay_eq_none.mpr hnone] at h
    cases h
  · rw [walk_iff.mpr hfitted, Option.any_some, decide_eq_true_eq] at h
    omega

/-! ## The law -/

/-- **Reconciling reported monitors is correct**, exactly where no update is stopped: neither has the computer
a tile for its whole desktop beside that of a display that is reported, nor is a piece of it left past the canvas.
Both need a tile for its whole desktop. -/
theorem reconciling_correct (scale : Scale) (key : Key) (geometry : Geometry) (layout : SharedLayout)
    (hvalid : layout.validate.isOk = true) (hgeometry : geometry.validate = .ok ())
    (hdisplays : geometry.displays ≠ []) :
    (((∀ next, layout.withGeometry scale key geometry = some next → Reconciles scale key geometry layout next) ∧
      (layout.withGeometry scale key geometry = none →
        Agrees scale key geometry layout ∨ layout.version = maxToken ∨ NoRoom scale key geometry layout)) ↔
    (Clashes key geometry.displays layout ∨ Unfit scale key geometry layout →
      layout.version = maxToken ∨ NoRoom scale key geometry layout)) ∧
    (Clashes key geometry.displays layout ∨ Unfit scale key geometry layout →
      (key, none) ∈ layout.tiles.map Tile.name) := by
  have hgood := validate_isOk_iff.mp hvalid
  refine ⟨⟨?_, ?_⟩, fun hstopped => hstopped.elim (·.1) (whole_of_unfit hgood hgeometry)⟩
  · rintro ⟨-, hreason⟩ hstopped
    have hnone : layout.withGeometry scale key geometry = none :=
      hstopped.elim withGeometry_of_clash (withGeometry_of_unfit hgeometry hdisplays)
    refine (hreason hnone).resolve_left fun hagrees => ?_
    rcases hstopped with hclash | hunfit
    · exact hagrees.follows.whole hclash.1
    · exact hagrees.follows.not_unfit (fun display hmem => ((displays_of_valid hgeometry).2 display hmem).1) hunfit
  · refine fun hreason => ⟨fun next hnext => withGeometry_reconciles hgood hgeometry hdisplays hnext, fun hnone => ?_⟩
    by_cases hstopped : Clashes key geometry.displays layout ∨ Unfit scale key geometry layout
    · exact .inr (hreason hstopped)
    · rw [not_or] at hstopped
      exact withGeometry_eq_none hgood hgeometry hdisplays hstopped.1 hstopped.2 hnone

/-- The computer in the middle of the row reports three screens. -/
theorem reconciling_correct_row : ∃ next, row.withGeometry exactScale 2 stacked = some next ∧
    Reconciles exactScale 2 stacked row next := by
  have hsome : (row.withGeometry exactScale 2 stacked).isSome = true := by decide +kernel
  obtain ⟨next, hnext⟩ := Option.isSome_iff_exists.mp hsome
  have hlaw := reconciling_correct exactScale 2 stacked row (by decide +kernel) (by decide +kernel) (by decide)
  refine ⟨next, hnext, (hlaw.1.mpr fun hstopped => ?_).1 next hnext⟩
  rcases hstopped with hclash | hunfit
  · exact absurd hclash (by decide +kernel)
  · rw [withGeometry_of_unfit (by decide +kernel) (by decide) hunfit] at hnext
    cases hnext

/-- A computer whose displays were once reported and then only its whole desktop. -/
def twice : SharedLayout :=
  let screen : Display := ⟨"a", "a", ⟨0, 0, 2000, 1000⟩, 100, 100, true⟩
  ⟨3, 1, [⟨1, some screen, 0, 0, 400, 400⟩, ⟨1, none, 400, 0, 2000, 2000⟩]⟩

/-- Its displays are reported again, and no layout is published for them, now or later. -/
theorem clash_stops_updates :
    ¬ ∀ (layout : SharedLayout) (key : Key) (geometry : Geometry), layout.validate.isOk = true →
      geometry.validate = .ok () → geometry.displays ≠ [] → layout.withGeometry exactScale key geometry = none →
        Agrees exactScale key geometry layout ∨ layout.version = maxToken ∨ NoRoom exactScale key geometry layout := by
  intro h
  have hclash : Clashes 1 stacked.displays twice := by decide +kernel
  have hreason := h twice 1 stacked (by decide +kernel) (by decide +kernel) (by decide)
    (withGeometry_of_clash hclash)
  rcases hreason with hagrees | hversion | hcrowded
  · exact hagrees.follows.whole hclash.1
  · exact absurd hversion (by decide)
  · exact not_noRoom (by decide +kernel) hcrowded

end Zflow.Desktop.SharedLayout
