import Zflow.Desktop.Resize
import Zflow.Laws.Desktop.Layout

/-!
# A layout stays whole when a tile takes a new size

Every arrangement that is tried has the tiles of the layout in their order, one of them at the new size
and the others only moved (`Arranges`), and the one that is taken has no two tiles overlap that did not
before. The loop that pushes tiles apart moves each tile once, so it ends after as many turns as there
are tiles.
-/

namespace Zflow.Desktop

open Lib

variable {old : Tile} {width height : Nat} {slots tried : List Slot}

/-! ## What an arrangement does -/

/-- A slot of an arrangement: the tile is the one that stood there, moved, at the new size if it is the
one that takes it. -/
structure Slot.Keeps (width height : Nat) (slot : Slot) : Prop where
  key : slot.tile.key = slot.before.key
  display : slot.tile.display = slot.before.display
  size : (slot.tile.width, slot.tile.height) =
    if slot.target then (width, height) else (slot.before.width, slot.before.height)
  onCanvas : slot.before.OnCanvas → slot.tile.OnCanvas
  flagged : slot.target = true → slot.moved = true

theorem Slot.Keeps.slide {slot : Slot} (h : slot.Keeps width height) {dx dy : Int} {tile : Tile}
    (hshifted : shifted slot.tile dx dy = some tile) {moved : Bool} (hmoved : slot.target = true → moved = true) :
    ({ slot with tile, moved } : Slot).Keeps width height := by
  obtain ⟨rfl, hcanvas⟩ := shifted_eq_some hshifted
  exact ⟨h.key, h.display, h.size, fun _ => hcanvas, hmoved⟩

/-- What tells the slots of an arrangement apart. -/
def Slot.origin (slot : Slot) : Tile × Bool := (slot.before, slot.target)

structure Arranges (width height : Nat) (slots tried : List Slot) : Prop where
  origins : tried.map Slot.origin = slots.map Slot.origin
  keeps : ∀ slot ∈ tried, slot.Keeps width height

/-- Moving slots one by one leaves an arrangement. -/
theorem Arranges.trans {next : List Slot} (h : Arranges width height slots tried)
    (hmoves : List.Forall₂ (fun slot after : Slot => after.origin = slot.origin ∧
      (slot.Keeps width height → after.Keeps width height)) tried next) :
    Arranges width height slots next := by
  have hmoved : next.map Slot.origin = tried.map Slot.origin ∧ ∀ slot ∈ next, slot.Keeps width height := by
    have hkeeps := h.keeps
    clear h
    induction hmoves with
    | nil => exact ⟨rfl, hkeeps⟩
    | @cons slot after rest others hfirst _ ih =>
      obtain ⟨hfront, hrest⟩ := List.forall_mem_cons.mp hkeeps
      obtain ⟨horigins, hothers⟩ := ih hrest
      refine ⟨?_, List.forall_mem_cons.mpr ⟨hfirst.2 hfront, hothers⟩⟩
      rw [List.map_cons, List.map_cons, hfirst.1, horigins]
  exact ⟨hmoved.1.trans h.origins, hmoved.2⟩

/-- The slots before anything moves. -/
def Still (old : Tile) (slots : List Slot) : Prop :=
  ∀ slot ∈ slots, slot.tile = slot.before ∧ slot.moved = slot.target ∧ (slot.target = true → slot.before = old)

theorem still_slotsOf (front back : List Tile) : Still old (slotsOf front old back) := by
  intro slot hslot
  have hothers : ∀ tiles : List Tile, slot ∈ tiles.map (slotOf false) →
      slot.tile = slot.before ∧ slot.moved = slot.target ∧ (slot.target = true → slot.before = old) := by
    intro tiles hmem
    obtain ⟨tile, -, rfl⟩ := List.mem_map.mp hmem
    exact ⟨rfl, rfl, fun h => by cases h⟩
  rcases List.mem_append.mp hslot with hfront | hrest
  · exact hothers front hfront
  · rcases List.mem_cons.mp hrest with rfl | hback
    · exact ⟨rfl, rfl, fun _ => rfl⟩
    · exact hothers back hback

theorem map_before_slotsOf (front back : List Tile) :
    (slotsOf front old back).map Slot.before = front ++ old :: back := by
  have hsame : Slot.before ∘ slotOf false = id := rfl
  simp [slotsOf, hsame, slotOf]

theorem otherTiles_slotsOf (front back : List Tile) : otherTiles (slotsOf front old back) = front ++ back := by
  have hfilter : ∀ tiles : List Tile,
      (tiles.map (slotOf false)).filter (fun slot => !slot.target) = tiles.map (slotOf false) := by
    intro tiles
    refine List.filter_eq_self.mpr fun slot hslot => ?_
    obtain ⟨tile, -, rfl⟩ := List.mem_map.mp hslot
    rfl
  have hsame : Slot.before ∘ slotOf false = id := rfl
  simp [otherTiles, slotsOf, hfilter, hsame, slotOf]

/-! ### The tile alone -/

theorem resized_eq_some {x y : Int} (h : resized old width height slots x y = some tried) :
    ∃ grown : Tile, grown = { old with x, y, width, height } ∧ grown.OnCanvas ∧
      tried = slots.map fun slot => if slot.target then { slot with tile := grown } else slot := by
  obtain ⟨grown, hshifted, rfl⟩ := Option.map_eq_some_iff.mp h
  obtain ⟨rfl, hcanvas⟩ := shifted_eq_some hshifted
  have hx : old.x + (x - old.x) = x := by omega
  have hy : old.y + (y - old.y) = y := by omega
  exact ⟨_, by rw [hx, hy], hcanvas, rfl⟩

theorem resized_arranges (hstill : Still old slots) {x y : Int}
    (h : resized old width height slots x y = some tried) : Arranges width height slots tried := by
  obtain ⟨grown, rfl, hcanvas, rfl⟩ := resized_eq_some h
  refine ⟨?_, ?_⟩
  · rw [List.map_map]
    refine List.map_congr_left fun slot _ => ?_
    dsimp only [Function.comp_apply]
    split <;> rfl
  · intro changed hchanged
    obtain ⟨slot, hslot, rfl⟩ := List.mem_map.mp hchanged
    obtain ⟨hsame, hmoved, hold⟩ := hstill slot hslot
    split
    · rename_i htarget
      obtain rfl := hold htarget
      refine ⟨rfl, rfl, ?_, fun _ => hcanvas, fun _ => hmoved.trans htarget⟩
      rw [if_pos htarget]
    · rename_i htarget
      refine ⟨by rw [hsame], by rw [hsame], ?_, fun hbefore => hsame ▸ hbefore, fun h => absurd h htarget⟩
      rw [if_neg htarget, hsame]

/-- The layout with the tile alone at its new size. -/
theorem resized_slotsOf (old : Tile) (width height : Nat) (front back : List Tile) {x y : Int}
    (hcanvas : x.natAbs ≤ maxCoordinate ∧ y.natAbs ≤ maxCoordinate) :
    resized old width height (slotsOf front old back) x y =
      some (front.map (slotOf false) ++ ⟨old, { old with x, y, width, height }, true, true⟩ ::
        back.map (slotOf false)) := by
  have hx : old.x + (x - old.x) = x := by omega
  have hy : old.y + (y - old.y) = y := by omega
  unfold resized shifted
  rw [hx, hy, if_pos hcanvas, Option.map_some, slotsOf, List.map_append, List.map_cons, List.map_map, List.map_map]
  rfl

/-! ### The loop that pushes tiles apart -/

variable {by_ : Tile → Int × Int} {next : List Slot}

/-- The tiles that have not moved yet. -/
def waiting (slots : List Slot) : Nat := slots.countP fun slot => !slot.moved

/-- What one turn does: it slides one tile that is hit. -/
theorem pushTurn_eq_some (h : pushTurn slots by_ = some (some next)) :
    ∃ clear slot rest tile, slots = clear ++ slot :: rest ∧ hits slots slot = true ∧
      shifted slot.tile (by_ slot.before).1 (by_ slot.before).2 = some tile ∧
      next = clear ++ { slot with tile, moved := true } :: rest := by
  unfold pushTurn at h
  cases hsplit : splitFirst (hits slots) slots with
  | none =>
    rw [hsplit] at h
    cases h
  | some found =>
    obtain ⟨clear, slot, rest⟩ := found
    rw [hsplit] at h
    obtain ⟨hslots, hhit, -⟩ := splitFirst_eq_some hsplit
    obtain ⟨tile, hshifted, hnext⟩ := Option.map_eq_some_iff.mp (Option.some.inj h)
    exact ⟨clear, slot, rest, tile, hslots, hhit, hshifted, hnext.symm⟩

/-- The loop is over where no tile that stands still is hit. -/
theorem pushTurn_eq_none : pushTurn slots by_ = none ↔ ∀ slot ∈ slots, hits slots slot = false := by
  rw [← splitFirst_eq_none]
  unfold pushTurn
  cases splitFirst (hits slots) slots <;> simp

theorem waiting_pushTurn (h : pushTurn slots by_ = some (some next)) : waiting next + 1 = waiting slots := by
  obtain ⟨clear, slot, rest, tile, hslots, hhit, -, rfl⟩ := pushTurn_eq_some h
  have hstands : slot.moved = false := by
    simpa using (Bool.and_eq_true_iff.mp hhit).1
  rw [hslots]
  unfold waiting
  simp only [List.countP_append, List.countP_cons, hstands, Bool.not_true, Bool.not_false,
    Bool.false_eq_true, if_false, if_true]
  omega

theorem pushTurn_arranges (hslots : Arranges width height slots tried)
    (h : pushTurn tried by_ = some (some next)) : Arranges width height slots next := by
  obtain ⟨clear, slot, rest, tile, rfl, hhit, hshifted, rfl⟩ := pushTurn_eq_some h
  refine ⟨?_, ?_⟩
  · rw [← hslots.origins, List.map_append, List.map_append]
    rfl
  · intro changed hchanged
    rcases List.mem_append.mp hchanged with hclear | hrest
    · exact hslots.keeps changed (List.mem_append_left _ hclear)
    · rcases List.mem_cons.mp hrest with rfl | hlater
      · exact (hslots.keeps slot (by simp)).slide hshifted fun _ => rfl
      · exact hslots.keeps changed (by simp [hlater])

theorem pushApart_arranges {turns : Nat} (hslots : Arranges width height slots tried)
    (h : pushApart by_ turns tried = some next) : Arranges width height slots next := by
  induction turns generalizing tried with
  | zero =>
    cases h
    exact hslots
  | succ turns ih =>
    unfold pushApart at h
    cases hturn : pushTurn tried by_ with
    | none =>
      rw [hturn] at h
      cases h
      exact hslots
    | some step =>
      rw [hturn] at h
      cases step with
      | none => cases h
      | some after => exact ih (pushTurn_arranges hslots hturn) h

/-- **The loop ends**: with a turn for each tile that stands still, nothing is left to push. -/
theorem pushApart_settled {turns : Nat} (hturns : waiting slots ≤ turns)
    (h : pushApart by_ turns slots = some next) : pushTurn next by_ = none := by
  induction turns generalizing slots with
  | zero =>
    cases h
    rw [pushTurn_eq_none]
    intro slot hslot
    have hmoved := List.countP_eq_zero.mp (Nat.le_zero.mp hturns) slot hslot
    unfold hits
    simp [Bool.not_eq_true' .. ▸ hmoved]
  | succ turns ih =>
    unfold pushApart at h
    cases hturn : pushTurn slots by_ with
    | none =>
      rw [hturn] at h
      cases h
      exact hturn
    | some step =>
      rw [hturn] at h
      cases step with
      | none => cases h
      | some after =>
        have hfewer := waiting_pushTurn hturn
        exact ih (by omega) h

/-- More turns than that change nothing. -/
theorem pushApart_of_le {turns more : Nat} (hturns : waiting slots ≤ turns) (hle : turns ≤ more) :
    pushApart by_ more slots = pushApart by_ turns slots := by
  induction turns generalizing slots more with
  | zero =>
    have hstart : pushApart by_ 0 slots = some slots := rfl
    have hnone : pushTurn slots by_ = none := pushApart_settled hturns hstart
    cases more with
    | zero => rfl
    | succ more => simp only [pushApart, hnone]
  | succ turns ih =>
    obtain ⟨more, rfl⟩ : ∃ n, more = n + 1 := ⟨more - 1, by omega⟩
    unfold pushApart
    cases hturn : pushTurn slots by_ with
    | none => rfl
    | some step =>
      cases step with
      | none => rfl
      | some after =>
        have hfewer := waiting_pushTurn hturn
        exact ih (by omega) (by omega)

/-! ### All of them -/

theorem slid_arranges (hstill : Still old slots) {x y : Int}
    (h : slid old width height slots x y = some tried) : Arranges width height slots tried := by
  obtain ⟨grown, hgrown, hslid⟩ := Option.bind_eq_some_iff.mp h
  refine (resized_arranges hstill hgrown).trans ((mapM_eq_some.mp hslid).imp fun slot after hafter => ?_)
  split at hafter
  · cases hafter
    exact ⟨rfl, id⟩
  · obtain ⟨tile, hshifted, rfl⟩ := Option.map_eq_some_iff.mp hafter
    exact ⟨rfl, fun hkeeps => hkeeps.slide hshifted hkeeps.flagged⟩

theorem pushed_arranges (hstill : Still old slots) {x y : Int}
    (h : pushed old width height slots x y = some tried) : Arranges width height slots tried := by
  obtain ⟨grown, hgrown, hpushed⟩ := Option.bind_eq_some_iff.mp h
  exact pushApart_arranges (resized_arranges hstill hgrown) hpushed

theorem mem_arrangements : tried ∈ arrangements old width height slots ↔
    (∃ corner ∈ corners old width height, pushed old width height slots corner.1 corner.2 = some tried) ∨
    (∃ corner ∈ corners old width height, slid old width height slots corner.1 corner.2 = some tried) ∨
    ∃ place ∈ places old width height slots, resized old width height slots place.1 place.2 = some tried := by
  unfold arrangements
  simp only [List.mem_filterMap, id_eq, exists_eq_right, List.mem_append, List.mem_map, or_assoc]

theorem arranges_of_mem (hstill : Still old slots) (h : tried ∈ arrangements old width height slots) :
    Arranges width height slots tried := by
  rcases mem_arrangements.mp h with ⟨_, _, h⟩ | ⟨_, _, h⟩ | ⟨_, _, h⟩
  · exact pushed_arranges hstill h
  · exact slid_arranges hstill h
  · exact resized_arranges hstill h

theorem apart_iff : apart tried = true ↔ tried.Pairwise fun a b =>
    (a.tile = a.before ∧ b.tile = b.before) ∨ overlaps a.tile b.tile = false := by
  unfold apart
  rw [List.all_eq_true, ← forall_mem_pairs]
  refine forall₂_congr fun pair _ => ?_
  simp

/-- No two tiles overlap in an arrangement that did not before. -/
theorem overlaps_of_apart (h : apart tried = true) : tried.Pairwise fun a b =>
    overlaps a.before b.before = false → overlaps a.tile b.tile = false := by
  refine (apart_iff.mp h).imp ?_
  rintro a b (⟨ha, hb⟩ | hclear) hbefore
  · rwa [ha, hb]
  · exact hclear

/-- A tile that grows where it overlaps no other leaves them as they were. -/
theorem apart_alone {front back : List Tile} {grown : Tile}
    (hfree : ∀ other ∈ front ++ back, overlaps grown other = false) :
    apart (front.map (slotOf false) ++ ⟨old, grown, true, true⟩ :: back.map (slotOf false)) = true := by
  have hsame : ∀ tiles : List Tile, ∀ slot ∈ tiles.map (slotOf false), slot.tile = slot.before ∧ slot.tile ∈ tiles := by
    intro tiles slot hslot
    obtain ⟨tile, htile, rfl⟩ := List.mem_map.mp hslot
    exact ⟨rfl, htile⟩
  have hunmoved : ∀ tiles : List Tile, (tiles.map (slotOf false)).Pairwise fun a b : Slot =>
      (a.tile = a.before ∧ b.tile = b.before) ∨ overlaps a.tile b.tile = false := fun tiles =>
    List.pairwise_map.mpr (List.pairwise_of_forall fun _ _ => .inl ⟨rfl, rfl⟩)
  rw [apart_iff, List.pairwise_append, List.pairwise_cons]
  refine ⟨hunmoved front, ⟨fun slot hslot => ?_, hunmoved back⟩, fun slot hslot other hother => ?_⟩
  · exact .inr (hfree _ (List.mem_append_right _ (hsame back slot hslot).2))
  · obtain ⟨hslotSame, hslotMem⟩ := hsame front slot hslot
    rcases List.mem_cons.mp hother with rfl | hback
    · exact .inr (overlaps_symm .. ▸ hfree _ (List.mem_append_left _ hslotMem))
    · exact .inl ⟨hslotSame, (hsame back other hback).1⟩

theorem bestArrangement_eq_some (h : bestArrangement old width height slots = some tried) :
    tried ∈ arrangements old width height slots ∧ apart tried = true :=
  List.mem_filter.mp (List.maxOn?_mem h)

theorem bestArrangement_eq_none : bestArrangement old width height slots = none ↔
    ∀ tried ∈ arrangements old width height slots, apart tried = false := by
  unfold bestArrangement
  rw [← Option.not_isSome_iff_eq_none, List.isSome_maxOn?_iff, not_not, List.filter_eq_nil_iff]
  simp

/-! ## A new version -/

theorem tileList_of_arranges {front back : List Tile} (h : Arranges width height (slotsOf front old back) tried) :
    tried.map Slot.before = front ++ old :: back := by
  have horigins := congrArg (List.map Prod.fst) h.origins
  rw [List.map_map, List.map_map] at horigins
  exact horigins.trans (map_before_slotsOf front back)

namespace SharedLayout

variable {layout next : SharedLayout} {key : Key} {id : Option String} {tiles : List Tile}

theorem nextVersion_eq_some :
    layout.nextVersion key tiles = some next ↔ next = ⟨layout.version + 1, key, tiles⟩ ∧ next.Valid := by
  unfold nextVersion
  dsimp only
  constructor
  · intro h
    split at h
    · rename_i hvalid
      cases h
      exact ⟨rfl, validate_isOk_iff.mp hvalid⟩
    · cases h
  · rintro ⟨rfl, hvalid⟩
    rw [if_pos (validate_isOk_iff.mpr hvalid)]

theorem nextVersion_eq_none :
    layout.nextVersion key tiles = none ↔ ¬ (⟨layout.version + 1, key, tiles⟩ : SharedLayout).Valid := by
  unfold nextVersion
  dsimp only
  rw [← validate_isOk_iff]
  split <;> simp_all

theorem isTileOf_iff {tile : Tile} : isTileOf key id tile = true ↔ tile.name = (key, id) := by
  unfold isTileOf Tile.name
  simp

/-- No tile is found exactly where none has that name. -/
theorem splitFirst_isTileOf_eq_none {tiles : List Tile} :
    splitFirst (isTileOf key id) tiles = none ↔ (key, id) ∉ tiles.map Tile.name := by
  rw [splitFirst_eq_none]
  constructor
  · intro hnot hname
    obtain ⟨tile, htile, hsame⟩ := List.mem_map.mp hname
    have hthis := hnot tile htile
    rw [isTileOf_iff.mpr hsame] at hthis
    cases hthis
  · intro hname tile htile
    rw [Bool.eq_false_iff, ne_eq, isTileOf_iff]
    exact fun hsame => hname (hsame ▸ List.mem_map_of_mem htile)

/-- The tile that is found is the one of that name. -/
theorem splitFirst_isTileOf {tiles : List Tile} {tile : Tile} (hnames : (tiles.map Tile.name).Nodup)
    (htile : tile ∈ tiles) (hname : tile.name = (key, id)) :
    ∃ front back, splitFirst (isTileOf key id) tiles = some (front, tile, back) ∧ tiles = front ++ tile :: back := by
  cases hsplit : splitFirst (isTileOf key id) tiles with
  | none => exact absurd (List.mem_map.mpr ⟨tile, htile, hname⟩) (splitFirst_isTileOf_eq_none.mp hsplit)
  | some found =>
    obtain ⟨front, old, back⟩ := found
    obtain ⟨htiles, hold, -⟩ := splitFirst_eq_some hsplit
    obtain rfl : old = tile := List.inj_on_of_nodup_map hnames (htiles ▸ by simp) htile
      ((isTileOf_iff.mp hold).trans hname.symm)
    exact ⟨front, back, rfl, htiles⟩

/-- A tile of a layout at its new size: only that of the display takes it. -/
def Resizes (key : Key) (id : Option String) (width height : Nat) (before after : Tile) : Prop :=
  after = { before with
    x := after.x
    y := after.y
    width := if isTileOf key id before then width else before.width
    height := if isTileOf key id before then height else before.height }

/-- The one that takes the size is the tile of the display. -/
theorem target_of_arranges {front back : List Tile} (hnames : ((front ++ old :: back).map Tile.name).Nodup)
    (hold : isTileOf key id old = true) (h : Arranges width height (slotsOf front old back) tried) {slot : Slot}
    (hslot : slot ∈ tried) : slot.target = isTileOf key id slot.before := by
  rw [List.map_append, List.map_cons] at hnames
  have hfresh : ∀ tile ∈ front ++ back, isTileOf key id tile = false := by
    intro tile htile
    rw [Bool.eq_false_iff, ne_eq, isTileOf_iff, ← isTileOf_iff.mp hold]
    have hout := (List.nodup_middle.mp hnames)
    rw [List.nodup_cons, ← List.map_append] at hout
    exact fun hname => hout.1 (hname ▸ List.mem_map_of_mem htile)
  have htarget : ∀ slot ∈ slotsOf front old back, slot.target = isTileOf key id slot.before := by
    intro slot hslot
    rcases List.mem_append.mp hslot with hfront | hrest
    · obtain ⟨tile, htile, rfl⟩ := List.mem_map.mp hfront
      exact (hfresh tile (List.mem_append_left _ htile)).symm
    · rcases List.mem_cons.mp hrest with rfl | hback
      · exact hold.symm
      · obtain ⟨tile, htile, rfl⟩ := List.mem_map.mp hback
        exact (hfresh tile (List.mem_append_right _ htile)).symm
  have hmem : slot.origin ∈ (slotsOf front old back).map Slot.origin :=
    h.origins ▸ List.mem_map_of_mem hslot
  obtain ⟨other, hother, horigin⟩ := List.mem_map.mp hmem
  have hsame := htarget other hother
  rwa [show other.target = slot.target from congrArg Prod.snd horigin,
    show other.before = slot.before from congrArg Prod.fst horigin] at hsame

/-- The tiles of a layout that is tried are those of the layout, one resized and the others moved. -/
theorem resizes_of_arranges {front back : List Tile} (hnames : ((front ++ old :: back).map Tile.name).Nodup)
    (hold : isTileOf key id old = true) (h : Arranges width height (slotsOf front old back) tried) :
    List.Forall₂ (Resizes key id width height) (front ++ old :: back) (tried.map Slot.tile) := by
  have hflags : ∀ slot ∈ tried, slot.target = isTileOf key id slot.before := fun slot hslot =>
    target_of_arranges hnames hold h hslot
  rw [← tileList_of_arranges h]
  have hkeeps := h.keeps
  clear h hnames
  induction tried with
  | nil => exact .nil
  | cons slot rest ih =>
    obtain ⟨hslot, hrest⟩ := List.forall_mem_cons.mp hkeeps
    obtain ⟨hflag, hflags⟩ := List.forall_mem_cons.mp hflags
    refine .cons ?_ (ih hflags hrest)
    have hsize := hslot.size
    rw [hflag] at hsize
    unfold Resizes
    cases hslotTile : slot.tile with
    | mk tileKey display x y w h =>
      have hkey := hslot.key
      have hdisplay := hslot.display
      rw [hslotTile] at hkey hdisplay hsize
      dsimp only at hkey hdisplay hsize ⊢
      subst hkey hdisplay
      split at hsize <;> simp_all

theorem withDisplaySize_eq_some (h : layout.withDisplaySize key id width height = some next) :
    (splitFirst (isTileOf key id) layout.tiles = none ∧ ∃ tile,
      freeSpot layout.tiles layout.tiles.head? key width height = some tile ∧
        layout.nextVersion key (layout.tiles ++ [tile]) = some next) ∨
    ∃ front old back tried, splitFirst (isTileOf key id) layout.tiles = some (front, old, back) ∧
      tried ∈ arrangements old width height (slotsOf front old back) ∧ apart tried = true ∧
      layout.nextVersion key (tried.map Slot.tile) = some next := by
  unfold withDisplaySize at h
  cases hsplit : splitFirst (isTileOf key id) layout.tiles with
  | none =>
    simp only [hsplit] at h
    split at h
    · cases h
    obtain ⟨tile, htile, hnext⟩ := Option.bind_eq_some_iff.mp h
    exact .inl ⟨rfl, tile, htile, hnext⟩
  | some found =>
    obtain ⟨front, old, back⟩ := found
    simp only [hsplit] at h
    split at h
    · cases h
    obtain ⟨tried, hbest, hnext⟩ := Option.bind_eq_some_iff.mp h
    obtain ⟨hmem, hapart⟩ := bestArrangement_eq_some hbest
    exact .inr ⟨front, old, back, tried, rfl, hmem, hapart, hnext⟩

/-- The tiles of a layout at their new places and sizes are as good as those of the layout. -/
theorem valid_of_arranges (hvalid : layout.Valid) {front back : List Tile}
    (hsplit : layout.tiles = front ++ old :: back) (h : Arranges width height (slotsOf front old back) tried)
    (hfits : Fits width height) (hversion : layout.version < maxToken) :
    (⟨layout.version + 1, key, tried.map Slot.tile⟩ : SharedLayout).Valid := by
  have hbefore : tried.map Slot.before = layout.tiles := (tileList_of_arranges h).trans hsplit.symm
  have hmem : ∀ slot ∈ tried, slot.before ∈ layout.tiles := fun slot hslot =>
    hbefore ▸ List.mem_map_of_mem hslot
  refine ⟨hversion, ?_, ?_, ?_⟩
  · show (tried.map Slot.tile).length ≤ maxSharedTiles
    rw [List.length_map, ← List.length_map (f := Slot.before), hbefore]
    exact hvalid.length
  · have hnames : (tried.map Slot.tile).map Tile.name = layout.tiles.map Tile.name := by
      rw [← hbefore, List.map_map, List.map_map]
      refine List.map_congr_left fun slot hslot => ?_
      simp [Tile.name, (h.keeps slot hslot).key, (h.keeps slot hslot).display]
    exact hnames ▸ hvalid.names
  · intro tile htile
    obtain ⟨slot, hslot, rfl⟩ := List.mem_map.mp htile
    have hkeeps := h.keeps slot hslot
    have htileBefore := hvalid.tiles _ (hmem slot hslot)
    refine ⟨hkeeps.display ▸ htileBefore.display, hkeeps.onCanvas htileBefore.onCanvas, ?_⟩
    have hsize := hkeeps.size
    split at hsize
    · obtain ⟨hw, hh⟩ := Prod.mk.inj hsize
      rwa [hw, hh]
    · obtain ⟨hw, hh⟩ := Prod.mk.inj hsize
      rw [hw, hh]
      exact htileBefore.fits

/-! ## The law -/

/-- **A layout that stays whole** when a tile takes a new size. -/
structure StaysWhole (layout next : SharedLayout) (key : Key) (id : Option String) (width height : Nat) :
    Prop where
  valid : next.validate.isOk = true
  version : next.version = layout.version + 1
  apart : next.tiles.Pairwise fun a b => overlaps a b = false
  tiles : List.Forall₂ (Resizes key id width height) layout.tiles next.tiles

/-- A layout that a computer joins: its tile comes last, under no other. -/
structure Joins (layout next : SharedLayout) (key : Key) (width height : Nat) : Prop where
  valid : next.validate.isOk = true
  version : next.version = layout.version + 1
  apart : next.tiles.Pairwise fun a b => overlaps a b = false
  tiles : ∃ spot, next.tiles = layout.tiles ++ [newTile key width height spot]

/-- Of the arrangements that are tried, each is off the canvas or has tiles overlap. -/
def NoArrangement (layout : SharedLayout) (key : Key) (id : Option String) (width height : Nat) : Prop :=
  match splitFirst (isTileOf key id) layout.tiles with
  | none => ∀ spot ∈ spots layout.tiles layout.tiles.head? width height,
      ¬ Free layout.tiles (newTile key width height spot)
  | some (front, old, back) =>
    ∀ tried ∈ arrangements old width height (slotsOf front old back), Desktop.apart tried = false

theorem pairwise_snoc {tile : Tile} (h : tiles.Pairwise fun a b => overlaps a b = false)
    (hfree : ∀ other ∈ tiles, overlaps tile other = false) :
    (tiles ++ [tile]).Pairwise fun a b => overlaps a b = false := by
  refine List.pairwise_append.mpr ⟨h, List.pairwise_singleton .., ?_⟩
  intro other hother last hlast
  obtain rfl := List.mem_singleton.mp hlast
  exact overlaps_symm .. ▸ hfree other hother

theorem withDisplaySize_whole (hvalid : layout.Valid) (hapart : layout.tiles.Pairwise fun a b => overlaps a b = false)
    (h : layout.withDisplaySize key id width height = some next) :
    if layout.tiles.any (isTileOf key id) then StaysWhole layout next key id width height
    else Joins layout next key width height := by
  rcases withDisplaySize_eq_some h with ⟨hnone, tile, htile, hnext⟩ |
    ⟨front, old, back, tried, hsplit, hmem, hclear, hnext⟩
  · have hnot : layout.tiles.any (isTileOf key id) = false := by
      simpa using splitFirst_eq_none.mp hnone
    rw [hnot, if_neg Bool.false_ne_true]
    obtain ⟨rfl, hnextValid⟩ := nextVersion_eq_some.mp hnext
    obtain ⟨⟨spot, -, rfl⟩, hfree⟩ := freeSpot_eq_some htile
    exact ⟨validate_isOk_iff.mpr hnextValid, rfl, pairwise_snoc hapart hfree.apart, spot, rfl⟩
  · obtain ⟨htiles, hold, -⟩ := splitFirst_eq_some hsplit
    have hany : layout.tiles.any (isTileOf key id) = true := by
      rw [htiles]
      simp [hold]
    rw [if_pos hany]
    obtain ⟨rfl, hnextValid⟩ := nextVersion_eq_some.mp hnext
    have harranges := arranges_of_mem (still_slotsOf front back) hmem
    have hbefore : tried.Pairwise fun a b => overlaps a.before b.before = false := by
      have hall : (tried.map Slot.before).Pairwise fun a b => overlaps a b = false := by
        rw [tileList_of_arranges harranges, ← htiles]
        exact hapart
      exact List.pairwise_map.mp hall
    refine ⟨validate_isOk_iff.mpr hnextValid, rfl, ?_, ?_⟩
    · refine List.pairwise_map.mpr ?_
      exact ((overlaps_of_apart hclear).and hbefore).imp fun ⟨hkeep, hfirst⟩ => hkeep hfirst
    · rw [htiles]
      exact resizes_of_arranges (htiles ▸ hvalid.names) hold harranges

/-- The spot to the right of all tiles is under none of them. -/
theorem free_pastAll {tile : Tile} (hleft : tile.x = ((tiles.map fun other => (span other.x other.width).2).max?).getD 0)
    {other : Tile} (hother : other ∈ tiles) : overlaps tile other = false := by
  have hend : other.x + other.width ≤ tile.x := by
    have hmem : other.x + other.width ∈ tiles.map fun other => (span other.x other.width).2 :=
      List.mem_map_of_mem (f := fun other => (span other.x other.width).2) hother
    cases hmax : (tiles.map fun other => (span other.x other.width).2).max? with
    | none =>
      rw [List.max?_eq_none_iff.mp hmax] at hmem
      cases hmem
    | some right =>
      rw [hleft, hmax]
      exact (List.max?_eq_some_iff.mp hmax).2 _ hmem
  unfold overlaps span
  simp only [Bool.and_eq_false_iff, decide_eq_false_iff_not]
  omega

/-- Where that spot is off the canvas, a tile reaches past the canvas. -/
theorem pastAll_cases (hcanvas : ∀ tile ∈ tiles, tile.OnCanvas) :
    (((tiles.map fun other => (span other.x other.width).2).max?).getD 0).natAbs ≤ maxCoordinate ∨
      ∃ tile ∈ tiles, (maxCoordinate : Int) < tile.x + tile.width := by
  cases hmax : (tiles.map fun other => (span other.x other.width).2).max? with
  | none => exact .inl (Nat.zero_le _)
  | some right =>
    obtain ⟨tile, htile, rfl⟩ := List.mem_map.mp (List.max?_mem hmax)
    have htileCanvas := (hcanvas tile htile).1
    by_cases hpast : (maxCoordinate : Int) < tile.x + tile.width
    · exact .inr ⟨tile, htile, hpast⟩
    · refine .inl ?_
      show (tile.x + tile.width).natAbs ≤ maxCoordinate
      omega

/-- **Without an arrangement**, the tiles reach past the right side of the canvas. -/
theorem past_of_noArrangement (hvalid : layout.Valid) (h : layout.NoArrangement key id width height) :
    ∃ tile ∈ layout.tiles, (maxCoordinate : Int) < tile.x + tile.width := by
  unfold NoArrangement at h
  cases hsplit : splitFirst (isTileOf key id) layout.tiles with
  | none =>
    simp only [hsplit] at h
    rcases pastAll_cases fun tile htile => (hvalid.tiles tile htile).onCanvas with hcanvas | hpast
    · refine absurd ⟨⟨hcanvas, ?_⟩, fun other hother => free_pastAll rfl hother⟩
        (h _ (List.mem_append_right _ (.head _)))
      cases hfirst : layout.tiles with
      | nil => exact Nat.zero_le _
      | cons first rest => exact (hvalid.tiles first (by simp [hfirst])).onCanvas.2
    · exact hpast
  | some found =>
    obtain ⟨front, old, back⟩ := found
    simp only [hsplit] at h
    obtain ⟨htiles, -, -⟩ := splitFirst_eq_some hsplit
    have hmem : ∀ tile ∈ front ++ back, tile ∈ layout.tiles := fun tile htile => by
      rw [htiles]
      rcases List.mem_append.mp htile with hfront | hback <;> simp [*]
    rcases pastAll_cases fun tile htile => (hvalid.tiles tile (hmem tile htile)).onCanvas with hcanvas | hpast
    · have hold : old.OnCanvas := (hvalid.tiles old (by simp [htiles])).onCanvas
      have hplace := resized_slotsOf old width height front back ⟨hcanvas, hold.2⟩
      have hlast : (_, old.y) ∈ places old width height (slotsOf front old back) :=
        List.mem_append_right _ (.head _)
      rw [otherTiles_slotsOf] at hlast
      have hclear := h _ (mem_arrangements.mpr (.inr (.inr ⟨_, hlast, hplace⟩)))
      rw [apart_alone fun other hother => free_pastAll rfl hother] at hclear
      cases hclear
    · obtain ⟨tile, htile, hright⟩ := hpast
      exact ⟨tile, hmem tile htile, hright⟩

/-- A new tile that is free is as good as those of the layout. -/
theorem valid_of_free (hvalid : layout.Valid) {tile : Tile} (hfree : Free layout.tiles tile)
    (hname : tile.name ∉ layout.tiles.map Tile.name) (hfits : Fits tile.width tile.height)
    (hdisplay : ∀ display ∈ tile.display, display.validate = .ok ())
    (hroom : layout.tiles.length < maxSharedTiles) (hversion : layout.version < maxToken) :
    (⟨layout.version + 1, key, layout.tiles ++ [tile]⟩ : SharedLayout).Valid := by
  refine ⟨hversion, ?_, ?_, ?_⟩
  · show (layout.tiles ++ [tile]).length ≤ maxSharedTiles
    rw [List.length_append, List.length_singleton]
    exact hroom
  · show ((layout.tiles ++ [tile]).map Tile.name).Nodup
    rw [List.map_append, List.map_singleton]
    exact List.nodup_append.mpr ⟨hvalid.names, List.nodup_singleton _, fun name hmem last hlast =>
      fun heq => hname (List.mem_singleton.mp hlast ▸ heq ▸ hmem)⟩
  · intro other hother
    rcases List.mem_append.mp hother with hthere | hlast
    · exact hvalid.tiles other hthere
    · obtain rfl := List.mem_singleton.mp hlast
      exact ⟨hdisplay, hfree.onCanvas, hfits⟩

/-- **No new version** leaves a reason: the size is right, the versions are used up, the layout is full or
has the tile that would join, or no arrangement was found. -/
theorem withDisplaySize_eq_none (hvalid : layout.Valid) (hfits : Fits width height)
    (h : layout.withDisplaySize key id width height = none) :
    (∃ tile ∈ layout.tiles, isTileOf key id tile = true ∧ (tile.width, tile.height) = (width, height)) ∨
      layout.version = maxToken ∨ (layout.tiles.any (isTileOf key id) = false ∧
        (layout.tiles.length = maxSharedTiles ∨ layout.tiles.any (isTileOf key none) = true)) ∨
      layout.NoArrangement key id width height := by
  have hexhausted : ∀ {tiles}, layout.nextVersion key tiles = none →
      (layout.version < maxToken → (⟨layout.version + 1, key, tiles⟩ : SharedLayout).Valid) →
      layout.version = maxToken := by
    intro tiles hnone hgood
    by_contra hlast
    exact nextVersion_eq_none.mp hnone (hgood (by have := hvalid.version; omega))
  unfold withDisplaySize at h
  cases hsplit : splitFirst (isTileOf key id) layout.tiles with
  | none =>
    simp only [hsplit] at h
    have hnot : ∀ tile ∈ layout.tiles, isTileOf key id tile = false := splitFirst_eq_none.mp hsplit
    by_cases hfull : layout.tiles.length ≥ maxSharedTiles
    · exact .inr (.inr (.inl ⟨by simpa using hnot, .inl (Nat.le_antisymm hvalid.length hfull)⟩))
    rw [if_neg hfull] at h
    by_cases hlegacy : layout.tiles.any (isTileOf key none) = true
    · exact .inr (.inr (.inl ⟨by simpa using hnot, .inr hlegacy⟩))
    cases hfree : freeSpot layout.tiles layout.tiles.head? key width height with
    | none =>
      refine .inr (.inr (.inr ?_))
      unfold NoArrangement
      simp only [hsplit]
      exact freeSpot_eq_none.mp hfree
    | some tile =>
      rw [hfree] at h
      obtain ⟨⟨spot, -, rfl⟩, hclear⟩ := freeSpot_eq_some hfree
      refine .inr (.inl (hexhausted h fun hversion => ?_))
      refine valid_of_free hvalid hclear ?_ hfits (fun display hdisplay => by cases hdisplay)
        (Nat.lt_of_not_ge hfull) hversion
      intro hname
      obtain ⟨tile, htile, hsame⟩ := List.mem_map.mp hname
      exact hlegacy (List.any_eq_true.mpr ⟨tile, htile, isTileOf_iff.mpr hsame⟩)
  | some found =>
    obtain ⟨front, old, back⟩ := found
    simp only [hsplit] at h
    obtain ⟨htiles, hold, -⟩ := splitFirst_eq_some hsplit
    by_cases hsize : (old.width, old.height) = (width, height)
    · exact .inl ⟨old, by simp [htiles], hold, hsize⟩
    rw [if_neg hsize] at h
    cases hbest : bestArrangement old width height (slotsOf front old back) with
    | none =>
      refine .inr (.inr (.inr ?_))
      unfold NoArrangement
      simp only [hsplit]
      exact bestArrangement_eq_none.mp hbest
    | some tried =>
      rw [hbest] at h
      have harranges := arranges_of_mem (still_slotsOf front back) (bestArrangement_eq_some hbest).1
      exact .inr (.inl (hexhausted h (valid_of_arranges hvalid htiles harranges hfits)))

/-- The loop that pushes tiles apart has an end for every layout: turns past one for each tile change
nothing, and then no tile that stands still is hit. -/
theorem pushApart_ends (by_ : Tile → Int × Int) (slots : List Slot) {turns : Nat} (h : slots.length ≤ turns) :
    pushApart by_ turns slots = pushApart by_ slots.length slots ∧
      ∀ next, pushApart by_ slots.length slots = some next → pushTurn next by_ = none := by
  have hwaiting : waiting slots ≤ slots.length := List.countP_le_length
  exact ⟨pushApart_of_le hwaiting h, fun next hnext => pushApart_settled hwaiting hnext⟩

/-- **Repairing a measured size keeps a layout whole.** A computer the layout lacks joins it instead. -/
theorem resizing_keeps_whole (layout : SharedLayout) (hvalid : layout.validate.isOk = true)
    (hapart : layout.tiles.Pairwise fun a b => overlaps a b = false) (key : Key) (id : Option String)
    (width height : Nat) :
    (∀ next, layout.withDisplaySize key id width height = some next →
      if layout.tiles.any (isTileOf key id) then StaysWhole layout next key id width height
      else Joins layout next key width height) ∧
    (Fits width height → layout.withDisplaySize key id width height = none →
      (∃ tile ∈ layout.tiles, isTileOf key id tile = true ∧ (tile.width, tile.height) = (width, height)) ∨
      layout.version = maxToken ∨
      (layout.tiles.any (isTileOf key id) = false ∧
        (layout.tiles.length = maxSharedTiles ∨ layout.tiles.any (isTileOf key none) = true)) ∨
      (layout.NoArrangement key id width height ∧
        ∃ tile ∈ layout.tiles, (maxCoordinate : Int) < tile.x + tile.width)) ∧
    ∀ (by_ : Tile → Int × Int) (slots : List Slot) (turns : Nat), slots.length ≤ turns →
      pushApart by_ turns slots = pushApart by_ slots.length slots ∧
        ∀ next, pushApart by_ slots.length slots = some next → pushTurn next by_ = none := by
  have hgood := validate_isOk_iff.mp hvalid
  refine ⟨fun next hnext => withDisplaySize_whole hgood hapart hnext, fun hfits hnone => ?_,
    fun by_ slots turns hturns => pushApart_ends by_ slots hturns⟩
  rcases withDisplaySize_eq_none hgood hfits hnone with hsize | hversion | hfull | hcrowded
  · exact .inl hsize
  · exact .inr (.inl hversion)
  · exact .inr (.inr (.inl hfull))
  · exact .inr (.inr (.inr ⟨hcrowded, past_of_noArrangement hgood hcrowded⟩))

/-- A computer with the one it has paired to its right, and another past that. -/
def row : SharedLayout :=
  ⟨0, 1, [⟨1, none, 0, 0, 2560, 1440⟩, ⟨2, none, 2560, 0, 1920, 1080⟩, ⟨3, none, 4480, 0, 1920, 1080⟩]⟩

/-- The one in the middle grows, and the one past it slides right. -/
theorem resizing_keeps_whole_row :
    ∃ next, row.withOwnSize 2 3008 1692 = some next ∧ StaysWhole row next 2 none 3008 1692 := by
  have hsome : (row.withDisplaySize 2 none 3008 1692).isSome = true := by decide +kernel
  obtain ⟨next, hnext⟩ := Option.isSome_iff_exists.mp hsome
  have hwhole := (resizing_keeps_whole row (by decide +kernel) (by decide +kernel) 2 none 3008 1692).1 next hnext
  rw [if_pos (by decide +kernel)] at hwhole
  exact ⟨next, hnext, hwhole⟩

/-- A computer that the layout lacks is given a tile of its own. -/
theorem joining_adds_tile :
    ¬ ∀ (layout next : SharedLayout) (key : Key) (width height : Nat), layout.validate.isOk = true →
      (layout.tiles.Pairwise fun a b => overlaps a b = false) → Fits width height →
      layout.withOwnSize key width height = some next →
      List.Forall₂ (Resizes key none width height) layout.tiles next.tiles := by
  intro h
  have hsome : (row.withOwnSize 4 1280 720).isSome = true := by decide +kernel
  obtain ⟨next, hnext⟩ := Option.isSome_iff_exists.mp hsome
  have hsame := (h row next 4 1280 720 (by decide +kernel) (by decide +kernel) (by decide) hnext).length_eq
  have hlonger : (row.withOwnSize 4 1280 720).all (fun next => next.tiles.length == 4) = true := by
    decide +kernel
  rw [hnext, Option.all_some, ← hsame] at hlonger
  cases hlonger

end SharedLayout

end Zflow.Desktop
