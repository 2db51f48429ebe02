import Mathlib.Data.List.Pairwise
import Zflow.App.LayoutModel
import Zflow.Laws.Desktop.Layout

/-!
# Editing keeps the tiles of other computers

An edit shows the tiles this computer has a name for, moves some, and puts the others back where they do
not overlap a tile. So what an edit keeps of the others rests on the layout it starts from: where a tile
of another computer overlaps some tile there already, as where a display that is unplugged has its place
under one that is not, it is lost though nothing moved (`editing_loses_dormant`). Apart from that
(`Apart`) a tile is lost only where an edit moves one over it.
-/

namespace Zflow.Desktop

open Lib

/-! ## Putting the others back -/

/-- A tile joins the others unless it overlaps one of them. -/
def addApart (tiles : List Tile) (tile : Tile) : List Tile :=
  if tiles.any (overlaps tile) then tiles else tiles ++ [tile]

theorem addApart_pos {tiles : List Tile} {tile : Tile} (h : tiles.any (overlaps tile) = true) :
    addApart tiles tile = tiles := if_pos h

theorem addApart_neg {tiles : List Tile} {tile : Tile} (h : ¬ tiles.any (overlaps tile) = true) :
    addApart tiles tile = tiles ++ [tile] := if_neg h

theorem length_addApart_le (tiles : List Tile) (tile : Tile) : (addApart tiles tile).length ≤ tiles.length + 1 := by
  unfold addApart
  split
  · exact Nat.le_succ _
  · simp

/-- Where there is room for all, the tiles of unknown computers join one by one. -/
theorem putBack_eq {known : Key → Bool} {tiles previous : List Tile}
    (hroom : tiles.length + (previous.filter fun tile => !known tile.key).length ≤ maxSharedTiles) :
    putBack known tiles previous = (previous.filter fun tile => !known tile.key).foldl addApart tiles := by
  induction previous generalizing tiles with
  | nil => rfl
  | cons tile rest ih =>
    cases hknown : known tile.key with
    | true =>
      have hfilter : (tile :: rest).filter (fun tile => !known tile.key) =
          rest.filter fun tile => !known tile.key := by simp [hknown]
      rw [hfilter] at hroom ⊢
      unfold putBack
      split
      · rename_i hfull
        have hnone : (rest.filter fun tile => !known tile.key) = [] :=
          List.length_eq_zero_iff.mp (by omega)
        rw [hnone]
        rfl
      · simp only [hknown, Bool.not_true, Bool.false_and, Bool.false_eq_true, if_false]
        exact ih hroom
    | false =>
      have hfilter : (tile :: rest).filter (fun tile => !known tile.key) =
          tile :: rest.filter fun tile => !known tile.key := by simp [hknown]
      rw [hfilter, List.length_cons] at hroom
      rw [hfilter, List.foldl_cons]
      unfold putBack
      rw [if_neg (by omega)]
      have hlength := length_addApart_le tiles tile
      rw [← ih (by omega)]
      unfold addApart
      cases hover : tiles.any (overlaps tile) with
      | true => simp [hknown]
      | false => simp [hknown]

theorem foldl_addApart_sublist (tiles others : List Tile) :
    ∃ kept, others.foldl addApart tiles = tiles ++ kept ∧ kept.Sublist others := by
  induction others generalizing tiles with
  | nil => exact ⟨[], (List.append_nil tiles).symm, .slnil⟩
  | cons tile rest ih =>
    rw [List.foldl_cons]
    by_cases hover : tiles.any (overlaps tile) = true
    · rw [addApart_pos hover]
      obtain ⟨kept, heq, hsub⟩ := ih tiles
      exact ⟨kept, heq, hsub.cons tile⟩
    · rw [addApart_neg hover]
      obtain ⟨kept, heq, hsub⟩ := ih (tiles ++ [tile])
      exact ⟨tile :: kept, by rw [heq, List.append_assoc]; rfl, hsub.cons_cons tile⟩

/-- A tile that does not join overlaps one that is there. -/
theorem mem_foldl_addApart {tiles others : List Tile} {tile : Tile} (htile : tile ∈ others) :
    tile ∈ others.foldl addApart tiles ∨
      ∃ other ∈ others.foldl addApart tiles, overlaps tile other = true := by
  induction others generalizing tiles with
  | nil => cases htile
  | cons first rest ih =>
    rcases List.mem_cons.mp htile with rfl | hrest
    · obtain ⟨kept, heq, -⟩ := foldl_addApart_sublist (addApart tiles tile) rest
      rw [List.foldl_cons, heq]
      by_cases hover : tiles.any (overlaps tile) = true
      · rw [addApart_pos hover]
        obtain ⟨other, hother, hoverlaps⟩ := List.any_eq_true.mp hover
        exact .inr ⟨other, List.mem_append_left _ hother, hoverlaps⟩
      · rw [addApart_neg hover]
        exact .inl (by simp)
    · exact ih hrest

/-- **All of them join** exactly where none overlaps a tile that is there or one that joins before it. -/
theorem foldl_addApart_eq_iff (tiles others : List Tile) : others.foldl addApart tiles = tiles ++ others ↔
      (∀ tile ∈ others, ∀ other ∈ tiles, overlaps tile other = false) ∧
        others.Pairwise fun a b => overlaps b a = false := by
  induction others generalizing tiles with
  | nil => simp
  | cons tile rest ih =>
    rw [List.foldl_cons, List.pairwise_cons]
    by_cases hover : tiles.any (overlaps tile) = true
    · rw [addApart_pos hover]
      obtain ⟨other, hother, hoverlaps⟩ := List.any_eq_true.mp hover
      constructor
      · intro heq
        obtain ⟨kept, hkept, hsub⟩ := foldl_addApart_sublist tiles rest
        rw [hkept] at heq
        have hlength := hsub.length_le
        rw [List.append_cancel_left heq, List.length_cons] at hlength
        omega
      · rintro ⟨hapart, -⟩
        rw [hapart tile (.head _) other hother] at hoverlaps
        cases hoverlaps
    · have hcons : tiles ++ tile :: rest = (tiles ++ [tile]) ++ rest := by simp
      rw [addApart_neg hover, hcons, ih]
      have hapart : ∀ other ∈ tiles, overlaps tile other = false := by
        simpa using hover
      constructor
      · rintro ⟨hall, hpair⟩
        refine ⟨?_, fun other hother => hall other hother tile (by simp), hpair⟩
        intro other hother there hthere
        rcases List.mem_cons.mp hother with rfl | hrest
        · exact hapart there hthere
        · exact hall other hrest there (List.mem_append_left _ hthere)
      · rintro ⟨hall, hfirst, hpair⟩
        refine ⟨?_, hpair⟩
        intro other hother there hthere
        rcases List.mem_append.mp hthere with hbefore | hlast
        · exact hall other (.tail _ hother) there hbefore
        · obtain rfl := List.mem_singleton.mp hlast
          exact hfirst other hother

end Zflow.Desktop

namespace Zflow.App

open Lib Desktop

variable {own : Key} {ownLabel : String} {keys : Keys}

/-! ## The view -/

theorem nameOf_eq_some {key : Key} {name : String} (h : Layout.nameOf keys key = some name) :
    keys[name]? = some key := by
  obtain ⟨entry, hentry, rfl⟩ := Option.map_eq_some_iff.mp h
  have hkey : entry.2 = key := by simpa using List.find?_some hentry
  have hmem := List.mem_reverse.mp (List.mem_of_find?_eq_some hentry)
  rw [← hkey]
  exact Std.ExtTreeMap.mem_toList_iff_getElem?_eq_some.mp hmem

/-- A computer has a name exactly where some name is its own. -/
theorem isSome_nameOf (key : Key) : (Layout.nameOf keys key).isSome = keys.toList.any (·.2 = key) := by
  rw [Bool.eq_iff_iff, Layout.nameOf, Option.isSome_map, List.find?_isSome, List.any_eq_true]
  simp only [List.mem_reverse]

/-- `m` shows `tile`, perhaps at another place. -/
structure Shows (own : Key) (keys : Keys) (tile : Tile) (m : Monitor) : Prop where
  key : m.key own keys = some tile.key
  display : m.display = tile.display
  width : m.width = tile.width
  height : m.height = tile.height

/-- A tile at a monitor's place. -/
def placedAt (tile : Tile) (m : Monitor) : Tile := { tile with x := m.x, y := m.y }

theorem monitorOf_none {tile : Tile} (h : knows own keys tile.key = false) :
    Layout.monitorOf own ownLabel keys tile = none := by
  obtain ⟨hown, hname⟩ := Bool.or_eq_false_iff.mp h
  rw [← isSome_nameOf, Option.isSome_eq_false_iff, Option.isNone_iff_eq_none] at hname
  simp [Layout.monitorOf, hname, of_decide_eq_false hown]

/-- A tile that is shown is shown where it is. -/
theorem monitorOf_some (ownLabel : String) {tile : Tile} (h : knows own keys tile.key = true) :
    ∃ m, Layout.monitorOf own ownLabel keys tile = some m ∧ Shows own keys tile m ∧
      placedAt tile m = tile := by
  by_cases hown : tile.key = own
  · refine ⟨_, by rw [Layout.monitorOf, if_pos hown]; rfl, ⟨?_, rfl, rfl, rfl⟩, rfl⟩
    exact congrArg some hown.symm
  · have hsome : (Layout.nameOf keys tile.key).isSome = true := by
      rw [isSome_nameOf]
      simpa [knows, hown] using h
    obtain ⟨name, hname⟩ := Option.isSome_iff_exists.mp hsome
    refine ⟨_, by rw [Layout.monitorOf, if_neg hown, hname]; rfl, ⟨?_, rfl, rfl, rfl⟩, rfl⟩
    exact nameOf_eq_some hname

/-- **The view** shows the tiles of the computers it knows, in order and where they are. -/
theorem fromShared_shows (layout : SharedLayout) :
    List.Forall₂ (fun tile m => Shows own keys tile m ∧ placedAt tile m = tile)
      (layout.tiles.filter fun tile => knows own keys tile.key)
      (Layout.fromShared layout own ownLabel keys).monitors := by
  unfold Layout.fromShared
  induction layout.tiles with
  | nil => exact .nil
  | cons tile rest ih =>
    cases hknown : knows own keys tile.key with
    | true =>
      obtain ⟨m, hm, hshows, hplace⟩ := monitorOf_some ownLabel hknown
      simp only [List.filterMap_cons, hm, List.filter_cons, hknown, if_true]
      exact .cons ⟨hshows, hplace⟩ ih
    | false =>
      simp only [List.filterMap_cons, monitorOf_none hknown, List.filter_cons, hknown, Bool.false_eq_true, if_false]
      exact ih

/-! ## Moves -/

theorem forall₂_mapIdx {α β : Type} {R : α → β → Prop} {xs : List α} {ys : List β} {f : Nat → β → β}
    (hkeeps : ∀ i x y, R x y → R x (f i y)) (h : List.Forall₂ R xs ys) : List.Forall₂ R xs (ys.mapIdx f) := by
  induction h generalizing f with
  | nil => exact .nil
  | cons hfirst _ ih =>
    rw [List.mapIdx_cons]
    exact .cons (hkeeps 0 _ _ hfirst) (ih fun i => hkeeps (i + 1))

theorem moveAll_shows {layout : Layout} (members : List Nat) (dx dy : Int) {tiles : List Tile}
    (hshows : List.Forall₂ (Shows own keys) tiles layout.monitors) :
    List.Forall₂ (Shows own keys) tiles (layout.moveAll members dx dy).monitors := by
  refine forall₂_mapIdx (fun i tile m hm => ?_) hshows
  split
  · exact ⟨hm.key, hm.display, hm.width, hm.height⟩
  · exact hm

/-- A move changes where screens stand, and nothing else. -/
theorem moved_shows {layout next : Layout} {id : String} {x y : Int} {tolerance : Nat} {computer : Bool}
    {tiles : List Tile} (h : layout.moved id x y tolerance computer = .ok next)
    (hshows : List.Forall₂ (Shows own keys) tiles layout.monitors) :
    List.Forall₂ (Shows own keys) tiles next.monitors := by
  unfold Layout.moved at h
  split at h
  · cases h
  split at h
  · cases h
  dsimp only at h
  split at h
  · cases h
  · cases h
    exact moveAll_shows _ _ _ hshows

theorem movedBy_shows {layout next : Layout} {moves : List Move} {tiles : List Tile}
    (h : layout.movedBy moves = .ok next) (hshows : List.Forall₂ (Shows own keys) tiles layout.monitors) :
    List.Forall₂ (Shows own keys) tiles next.monitors := by
  induction moves generalizing layout with
  | nil =>
    cases h
    exact hshows
  | cons m rest ih =>
    cases hmoved : layout.moved m.id m.x m.y m.tolerance m.computer with
    | error error =>
      simp only [Layout.movedBy, hmoved] at h
      cases h
    | ok after =>
      simp only [Layout.movedBy, hmoved] at h
      exact ih h (moved_shows hmoved hshows)

/-! ## The shared form -/

/-- **The shared form** of a view has the tiles the view shows, where the view has them. -/
theorem tilesOf_shows {tiles : List Tile} {monitors : List Monitor} {seen : List (Key × Option String)}
    (hshows : List.Forall₂ (Shows own keys) tiles monitors) (hnodup : (tiles.map Tile.name).Nodup)
    (hfresh : ∀ name ∈ tiles.map Tile.name, name ∉ seen) :
    Layout.tilesOf own keys seen monitors = List.zipWith placedAt tiles monitors := by
  induction hshows generalizing seen with
  | nil => rfl
  | @cons tile m rest others hfirst _ ih =>
    rw [List.map_cons, List.nodup_cons] at hnodup
    have hname : (tile.key, m.display.map Display.id) = tile.name := by
      rw [hfirst.display]
      rfl
    have hunseen : seen.contains tile.name = false := by
      simpa using hfresh tile.name (.head _)
    have htile : (⟨tile.key, m.display, m.x, m.y, m.width, m.height⟩ : Tile) = placedAt tile m := by
      rw [hfirst.display, hfirst.width, hfirst.height]
      rfl
    have hrest := @ih (tile.name :: seen) hnodup.2 fun name hlater => by
      rw [List.mem_cons, not_or]
      refine ⟨?_, hfresh name (.tail _ hlater)⟩
      rintro rfl
      exact hnodup.1 hlater
    unfold Layout.tilesOf
    simp only [hfirst.key, hname, hunseen, Bool.false_eq_true, if_false, hrest, htile, List.zipWith_cons_cons]

/-! ## An edit -/

section Edit

variable {layout : SharedLayout}

/-- The tiles the view shows. -/
def shown (own : Key) (keys : Keys) (layout : SharedLayout) : List Tile :=
  layout.tiles.filter fun tile => knows own keys tile.key

/-- The tiles it does not. -/
def others (own : Key) (keys : Keys) (layout : SharedLayout) : List Tile :=
  layout.tiles.filter fun tile => !knows own keys tile.key

theorem shown_append_others (own : Key) (keys : Keys) (layout : SharedLayout) :
    (shown own keys layout ++ others own keys layout).Perm layout.tiles :=
  List.filter_append_perm _ _

theorem map_name_placedAt {tiles : List Tile} {monitors : List Monitor}
    (h : List.Forall₂ (Shows own keys) tiles monitors) :
    (List.zipWith placedAt tiles monitors).map Tile.name = tiles.map Tile.name := by
  induction h with
  | nil => rfl
  | cons _ _ ih =>
    simp only [List.zipWith_cons_cons, List.map_cons, ih]
    rfl

theorem zipWith_placedAt_self {tiles : List Tile} {monitors : List Monitor}
    (h : List.Forall₂ (fun tile m => placedAt tile m = tile) tiles monitors) :
    List.zipWith placedAt tiles monitors = tiles := by
  induction h with
  | nil => rfl
  | cons hfirst _ ih => rw [List.zipWith_cons_cons, hfirst, ih]

/-- **An edit** has the tiles the view shows, where the view has them, and the others that join them. -/
theorem rearranged_tiles (hvalid : layout.validate.isOk = true) {view : Layout}
    (hshows : List.Forall₂ (Shows own keys) (shown own keys layout) view.monitors) (version : Nat) :
    (rearranged layout view version own keys).tiles = (others own keys layout).foldl addApart
        (List.zipWith placedAt (shown own keys layout) view.monitors) := by
  have hsplit := (shown_append_others own keys layout).length_eq
  rw [List.length_append] at hsplit
  have hmax := SharedLayout.length_of_valid hvalid
  have hplaced : (List.zipWith placedAt (shown own keys layout) view.monitors).length =
      (shown own keys layout).length := by
    rw [← List.length_map (f := Tile.name), map_name_placedAt hshows, List.length_map]
  have hnodup : ((shown own keys layout).map Tile.name).Nodup :=
    (SharedLayout.names_nodup hvalid).sublist (List.filter_sublist.map _)
  have htiles : (view.toShared version own keys).tiles =
      List.zipWith placedAt (shown own keys layout) view.monitors := by
    show (Layout.tilesOf own keys [] view.monitors).take maxSharedTiles = _
    rw [tilesOf_shows hshows hnodup fun _ _ => List.not_mem_nil, List.take_of_length_le (by omega)]
  show putBack (knows own keys) (view.toShared version own keys).tiles layout.tiles = _
  rw [htiles, putBack_eq]
  · rfl
  · show _ + (others own keys layout).length ≤ maxSharedTiles
    omega

theorem rearranged_unmoved (hvalid : layout.validate.isOk = true) (ownLabel : String) (version : Nat) :
    (rearranged layout (Layout.fromShared layout own ownLabel keys) version own keys).tiles =
      (others own keys layout).foldl addApart (shown own keys layout) := by
  have hview := @fromShared_shows own ownLabel keys layout
  have hsame : List.zipWith placedAt (shown own keys layout)
      (Layout.fromShared layout own ownLabel keys).monitors = shown own keys layout :=
    zipWith_placedAt_self (hview.imp fun _ _ h => h.2)
  rw [rearranged_tiles hvalid (hview.imp fun _ _ h => h.1), hsame]

/-- Two tiles that an edit keeps: it shows both, or they do not overlap. -/
def Clear (own : Key) (keys : Keys) (a b : Tile) : Prop :=
  (knows own keys a.key && knows own keys b.key) = true ∨ overlaps a b = false

instance : Std.Symm (Clear own keys) where
  symm a b h := by
    unfold Clear
    rwa [Bool.and_comm, overlaps_symm]

/-- **A layout that an edit keeps whole**: no tile of a computer the editor does not know overlaps
another tile. -/
def Apart (own : Key) (keys : Keys) (layout : SharedLayout) : Prop :=
  layout.tiles.Pairwise (Clear own keys)

instance : Decidable (Apart own keys layout) := by
  unfold Apart Clear; infer_instance

/-- `tile` is there once and where it was, or an edit moved a tile over it. -/
def Stands (layout next : SharedLayout) (tile : Tile) : Prop :=
  (next.tiles.filter fun other => other.name = tile.name) = [tile] ∨
    ∃ moved ∈ next.tiles, moved ∉ layout.tiles ∧ overlaps tile moved = true

/-! ### What is lost -/

theorem Clear.apart {a b : Tile} (h : Clear own keys a b) (hunknown : knows own keys a.key = false) :
    overlaps a b = false := by
  rcases h with hknown | hapart
  · rw [hunknown] at hknown
    cases hknown
  · exact hapart

/-- In other words, the others overlap neither what is shown nor one another. -/
theorem apart_iff : Apart own keys layout ↔
    (∀ tile ∈ others own keys layout, ∀ other ∈ shown own keys layout, overlaps tile other = false) ∧
      (others own keys layout).Pairwise fun a b => overlaps b a = false := by
  have hother : ∀ tile ∈ others own keys layout, knows own keys tile.key = false := fun tile htile => by
    simpa using (List.mem_filter.mp htile).2
  have hshown : ∀ tile ∈ shown own keys layout, knows own keys tile.key = true := fun tile htile =>
    (List.mem_filter.mp htile).2
  unfold Apart
  rw [← (shown_append_others own keys layout).pairwise_iff fun h => symm h, List.pairwise_append]
  constructor
  · rintro ⟨-, hothers, hbetween⟩
    refine ⟨fun tile htile other hin => ?_, hothers.imp_of_mem fun ha hb hclear => ?_⟩
    · exact (symm (hbetween other hin tile htile)).apart (hother tile htile)
    · exact (symm hclear).apart (hother _ hb)
  · rintro ⟨hbetween, hothers⟩
    refine ⟨?_, hothers.imp fun hapart => .inr (overlaps_symm _ _ ▸ hapart), ?_⟩
    · refine List.Pairwise.imp_of_mem (fun ha hb _ => ?_) (List.pairwise_of_forall fun _ _ => trivial)
      exact .inl (by rw [hshown _ ha, hshown _ hb]; rfl)
    · intro other hin tile htile
      exact .inr (overlaps_symm _ _ ▸ hbetween tile htile other hin)

theorem filter_name_eq {tiles : List Tile} {tile : Tile} (hnodup : (tiles.map Tile.name).Nodup)
    (htile : tile ∈ tiles) : (tiles.filter fun other => other.name = tile.name) = [tile] := by
  induction tiles with
  | nil => cases htile
  | cons first rest ih =>
    rw [List.map_cons, List.nodup_cons] at hnodup
    rcases List.mem_cons.mp htile with rfl | hrest
    · have hnone : (rest.filter fun other => other.name = tile.name) = [] := by
        rw [List.filter_eq_nil_iff]
        intro other hother hname
        rw [← of_decide_eq_true hname] at hnodup
        exact hnodup.1 (List.mem_map_of_mem hother)
      simp [hnone]
    · have hne : first.name ≠ tile.name := fun heq => hnodup.1 (heq ▸ List.mem_map_of_mem hrest)
      simp [hne, ih hnodup.2 hrest]

/-- **An edit of such a layout** keeps each tile it does not show, unless it moves one over it. -/
theorem stands_of_apart (hvalid : layout.validate.isOk = true) (hapart : Apart own keys layout)
    {view : Layout} (hshows : List.Forall₂ (Shows own keys) (shown own keys layout) view.monitors)
    (version : Nat) {tile : Tile} (htile : tile ∈ layout.tiles)
    (hunknown : knows own keys tile.key = false) :
    Stands layout (rearranged layout view version own keys) tile := by
  have hnames := SharedLayout.names_nodup hvalid
  have hother : tile ∈ others own keys layout := List.mem_filter.mpr ⟨htile, by simp [hunknown]⟩
  have htiles := rearranged_tiles hvalid hshows version
  obtain ⟨kept, hkept, hsub⟩ := foldl_addApart_sublist
    (List.zipWith placedAt (shown own keys layout) view.monitors) (others own keys layout)
  have hnodup : ((rearranged layout view version own keys).tiles.map Tile.name).Nodup := by
    rw [htiles, hkept, List.map_append, map_name_placedAt hshows, ← List.map_append]
    refine List.Nodup.sublist ((List.Sublist.append_left hsub _).map _) ?_
    exact ((shown_append_others own keys layout).map _).nodup_iff.mpr hnames
  by_cases hthere : tile ∈ (rearranged layout view version own keys).tiles
  · exact .inl (filter_name_eq hnodup hthere)
  · rw [htiles] at hthere
    obtain ⟨moved, hmoved, hover⟩ := (mem_foldl_addApart hother).resolve_left hthere
    refine .inr ⟨moved, htiles ▸ hmoved, fun hbefore => ?_, hover⟩
    have hne : tile ≠ moved := by
      rintro rfl
      exact hthere hmoved
    rw [(List.Pairwise.forall hapart htile hbefore hne).apart hunknown] at hover
    cases hover

theorem withTileMoved_eq_ok {next : SharedLayout} {id : String} {x y : Int} {tolerance : Nat}
    {computer : Bool} (h : withTileMoved layout own keys id x y tolerance computer = .ok next) :
    ∃ view, (Layout.fromShared layout own "This computer" keys).moved id x y tolerance computer = .ok view ∧
      next = rearranged layout view (saturatingAdd layout.version 1) own keys := by
  unfold withTileMoved at h
  cases hview : (Layout.fromShared layout own "This computer" keys).moved id x y tolerance computer with
  | error error =>
    rw [hview] at h
    cases h
  | ok view =>
    rw [hview] at h
    obtain ⟨-, hnext⟩ := check_bind_eq_ok.mp h
    cases hnext
    exact ⟨view, rfl, rfl⟩

end Edit

/-! ## The law -/

/-- A tile moved by (dx, dy). -/
def shiftedBy (dx dy : Int) (tile : Tile) : Tile := { tile with x := tile.x + dx, y := tile.y + dy }

/-- **What editing keeps**: with no move, every tile, up to one common shift, and none is added; after
any moves of the view, or one on the daemon, each tile of a computer the editor does not know. -/
structure EditsKeep (own : Key) (keys : Keys) (layout : SharedLayout) : Prop where
  unmoved : ∀ ownLabel version, ∃ dx dy,
    (rearranged layout (Layout.fromShared layout own ownLabel keys) version own keys).tiles.Perm
      (layout.tiles.map (shiftedBy dx dy))
  moved : ∀ ownLabel version moves view,
    (Layout.fromShared layout own ownLabel keys).movedBy moves = .ok view →
    ∀ tile ∈ layout.tiles, knows own keys tile.key = false →
      Stands layout (rearranged layout view version own keys) tile
  daemon : ∀ id x y tolerance computer next,
    withTileMoved layout own keys id x y tolerance computer = .ok next →
    ∀ tile ∈ layout.tiles, knows own keys tile.key = false → Stands layout next tile

theorem EditsKeep.of_apart {own : Key} {keys : Keys} {layout : SharedLayout}
    (hvalid : layout.validate.isOk = true) (hapart : Apart own keys layout) : EditsKeep own keys layout where
  unmoved ownLabel version := by
    refine ⟨0, 0, ?_⟩
    have hsame : layout.tiles.map (shiftedBy 0 0) = layout.tiles := by
      have hid : shiftedBy 0 0 = id := by
        funext tile
        simp [shiftedBy]
      rw [hid, List.map_id]
    rw [rearranged_unmoved hvalid, (foldl_addApart_eq_iff _ _).mpr (apart_iff.mp hapart), hsame]
    exact shown_append_others own keys layout
  moved ownLabel version moves view hmoves tile htile hunknown :=
    stands_of_apart hvalid hapart
      (movedBy_shows hmoves ((fromShared_shows layout).imp fun _ _ h => h.1)) version htile hunknown
  daemon id x y tolerance computer next hnext tile htile hunknown := by
    obtain ⟨view, hview, rfl⟩ := withTileMoved_eq_ok hnext
    exact stands_of_apart hvalid hapart
      (moved_shows hview ((fromShared_shows layout).imp fun _ _ h => h.1)) _ htile hunknown

/-- With no move, a layout that is kept whole has its others apart. -/
theorem EditsKeep.apart {own : Key} {keys : Keys} {layout : SharedLayout}
    (hvalid : layout.validate.isOk = true) (h : EditsKeep own keys layout) : Apart own keys layout := by
  obtain ⟨dx, dy, hperm⟩ := h.unmoved "" 0
  rw [rearranged_unmoved hvalid] at hperm
  obtain ⟨kept, hkept, hsub⟩ := foldl_addApart_sublist (shown own keys layout) (others own keys layout)
  have hlength : kept.length = (others own keys layout).length := by
    have hsplit := (shown_append_others own keys layout).length_eq
    have hall := hperm.length_eq
    rw [hkept, List.length_append, List.length_map] at hall
    rw [List.length_append] at hsplit
    omega
  rw [hsub.eq_of_length hlength] at hkept
  exact apart_iff.mpr ((foldl_addApart_eq_iff _ _).mp hkept)

/-- **Editing keeps the tiles of other computers** exactly where none overlaps another tile of the layout
it starts from. -/
theorem edits_keep_tiles (own : Key) (keys : Keys) (layout : SharedLayout)
    (hvalid : layout.validate.isOk = true) : EditsKeep own keys layout ↔ Apart own keys layout :=
  ⟨fun h => h.apart hvalid, fun h => EditsKeep.of_apart hvalid h⟩

/-! ### A display that is unplugged -/

/-- A display of computer 2, 1000 by 800. -/
def display (id : String) (active : Bool) : Display :=
  ⟨id, id, ⟨0, 0, 1000, 800⟩, 0, 0, active⟩

/-- This computer, and one it has no name for with two displays, `second` of them at `x`. -/
def desks (second : Display) (x : Int) : SharedLayout :=
  ⟨7, 2, [⟨1, none, 0, 0, 1000, 800⟩, ⟨2, some (display "dell" true), 1000, 0, 1000, 800⟩,
    ⟨2, some second, x, 0, 1000, 800⟩]⟩

theorem edits_keep_tiles_beside : EditsKeep 1 ∅ (desks (display "panel" true) 2000) :=
  (edits_keep_tiles 1 ∅ (desks (display "panel" true) 2000) (by decide +kernel)).mpr (by decide +kernel)

/-- The place of a display that is unplugged, under one that is not, is lost. -/
theorem editing_loses_dormant : ¬ ∀ (own : Key) (keys : Keys) (layout : SharedLayout), layout.validate.isOk = true →
      (∀ (name other : String) (key : Key), keys[name]? = some key → keys[other]? = some key → name = other) →
      EditsKeep own keys layout := by
  intro h
  have hkeep := h 1 ∅ (desks (display "panel" false) 1000) (by decide +kernel) (by simp)
  obtain ⟨dx, dy, hperm⟩ := hkeep.unmoved "" 0
  have hlength := hperm.length_eq
  rw [List.length_map] at hlength
  revert hlength
  decide +kernel

end Zflow.App
