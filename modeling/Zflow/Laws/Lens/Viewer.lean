import Zflow.Laws.Lens.Apply
import Zflow.Lens.Viewer

/-!
# Chunks that are not marked are as they were copied

A tile of the desktop lies in one chunk, so a frame that writes it marks the chunk it writes to, and a chunk
that stays unmarked keeps its pixels. A chunk that was copied since the desktop's size came is therefore shown
as it was copied, until it is marked; one that was not is blank, as the desktop was when its size came.
-/

namespace Zflow.Lens

open Lib Zflow.Core Viewer

variable {s s' : Shown} {v : Viewer} {w w' : Watching} {id : Nat}

/-! ## Tiles and chunks -/

theorem tile_x_lt {width height : Nat} (hid : id < tileCount width height) : (rect width height id).x < width := by
  have hcolumns : 0 < divCeil width tileSize := by
    by_contra hzero
    rw [tileCount, Nat.eq_zero_of_not_pos hzero, Nat.zero_mul] at hid
    omega
  exact (lt_divCeil (by decide)).mp (Nat.mod_lt _ hcolumns)

theorem tile_right_le {width height : Nat} (hid : id < tileCount width height) :
    (rect width height id).x + (rect width height id).width ≤ width := by
  have hx := tile_x_lt hid
  simp only [rect] at hx ⊢
  omega

/-- **A tile lies in one chunk**, the one that is marked for it. -/
theorem chunk_of_tile {tile i : Nat} (htile : Within s.width (rect s.width s.height tile) i)
    (hchunk : Within s.width (s.chunkRect id) i) :
    (rect s.width s.height tile).y / chunkSize * s.columns + (rect s.width s.height tile).x / chunkSize = id := by
  obtain ⟨⟨htop, hbottom⟩, hleft, hright⟩ := htile
  obtain ⟨⟨hctop, hcbottom⟩, hcleft, hcright⟩ := hchunk
  simp only [rect, Shown.chunkRect, tileSize, chunkSize] at *
  have hrow : tile / divCeil s.width 64 * 64 / 256 = id / s.columns := by omega
  have hcolumn : tile % divCeil s.width 64 * 64 / 256 = id % s.columns := by omega
  rw [hrow, hcolumn]
  exact Nat.div_add_mod' id s.columns

/-- Byte `k` of a row of a chunk. -/
def Shown.at_ (s : Shown) (id row k : Nat) : Nat :=
  (((s.chunkRect id).y + row) * s.width + (s.chunkRect id).x) * 4 + k

theorem Shown.within_at {row k : Nat} (hrow : row < (s.chunkRect id).height) (hk : k < (s.chunkRect id).width * 4) :
    Within s.width (s.chunkRect id) (s.at_ id row k) := by
  have hfits : (s.chunkRect id).x + (s.chunkRect id).width ≤ s.width := by
    simp only [Shown.chunkRect] at hk ⊢
    omega
  obtain ⟨hline, hcolumn⟩ : s.at_ id row k / 4 / s.width = (s.chunkRect id).y + row ∧
      (s.chunkRect id).x ≤ s.at_ id row k / 4 % s.width ∧
        s.at_ id row k / 4 % s.width < (s.chunkRect id).x + (s.chunkRect id).width :=
    (row_iff hfits).mp ⟨Nat.le_add_right _ _, Nat.add_lt_add_left hk _⟩
  exact ⟨⟨by omega, by omega⟩, hcolumn⟩

/-! ## Frames -/

/-- What a frame does to the chunks it leaves unmarked. -/
structure Leaves (s s' : Shown) : Prop where
  width : s'.width = s.width
  height : s'.height = s.height
  unmarked : ∀ id, s'.dirty id = false → s.dirty id = false ∧
    ∀ i, Within s.width (s.chunkRect id) i → s'.pixels i = s.pixels i

theorem Leaves.refl (s : Shown) : Leaves s s := ⟨rfl, rfl, fun _ h => ⟨h, fun _ _ => rfl⟩⟩

theorem Leaves.columns (h : Leaves s s') : s'.columns = s.columns := by
  rw [Shown.columns, Shown.columns, h.width]

theorem Leaves.chunkRect (h : Leaves s s') (id : Nat) : s'.chunkRect id = s.chunkRect id := by
  rw [Shown.chunkRect, Shown.chunkRect, h.columns, h.width, h.height]

theorem Leaves.trans {s'' : Shown} (h : Leaves s s') (h' : Leaves s' s'') : Leaves s s'' where
  width := h'.width.trans h.width
  height := h'.height.trans h.height
  unmarked id hclean := by
    obtain ⟨hmiddle, hlater⟩ := h'.unmarked id hclean
    obtain ⟨hbefore, hsame⟩ := h.unmarked id hmiddle
    refine ⟨hbefore, fun i hin => ?_⟩
    rw [← hsame i hin]
    rw [← h.width, ← h.chunkRect] at hin
    exact hlater i hin

/-- A rectangle that is one of the desktop's tiles. -/
def IsTile (width height : Nat) (area : Rect) : Prop := ∃ tile < tileCount width height, area = rect width height tile

instance (width height : Nat) (area : Rect) : Decidable (IsTile width height area) :=
  decidable_of_iff (((List.range (tileCount width height)).any fun tile => area = rect width height tile) = true)
    (by simp [IsTile])

theorem leaves_showTile {area : Rect} (hareas : IsTile s.width s.height area) (desktop : Buffer) :
    Leaves s (showTile desktop s area) := by
  obtain ⟨tile, htile, rfl⟩ := hareas
  refine ⟨rfl, rfl, fun id hclean => ?_⟩
  simp only [showTile, Function.update_apply] at hclean ⊢
  split at hclean
  · cases hclean
  · rename_i hother
    refine ⟨hclean, fun i hin => ?_⟩
    rw [fillRows_apply (tile_right_le htile), if_neg]
    intro hwithin
    exact hother (chunk_of_tile hwithin hin).symm

theorem leaves_foldl {desktop : Buffer} {changed : List Rect}
    (htiles : ∀ area ∈ changed, IsTile s.width s.height area) : Leaves s (changed.foldl (showTile desktop) s) := by
  induction changed generalizing s with
  | nil => exact .refl s
  | cons area rest ih =>
    have hfirst := leaves_showTile (htiles area List.mem_cons_self) desktop
    refine hfirst.trans (ih fun other hother => ?_)
    exact htiles other (List.mem_cons_of_mem _ hother)

/-! ## What was copied -/

/-- A copy of a chunk has the pixels that are shown. -/
def Viewer.Copy.Shows (copy : Viewer.Copy) (s : Shown) (id : Nat) : Prop :=
  ∀ row < (s.chunkRect id).height, ∀ k < (s.chunkRect id).width * 4,
    copy.pixels (row * copy.stride + k) = s.pixels (s.at_ id row k)

/-- A chunk that is blank. -/
def Shown.Blank (s : Shown) (id : Nat) : Prop :=
  ∀ row < (s.chunkRect id).height, ∀ k < (s.chunkRect id).width * 4, s.pixels (s.at_ id row k) = 0

/-- What the client has of a chunk is what is shown: its last copy since the desktop's size came, or nothing
where it is blank. -/
def Watching.Current (w : Watching) (id : Nat) : Prop :=
  (w.since id = true ∧ ∃ copy, w.copied id = some copy ∧ copy.Shows w.viewer.shown id) ∨
    (w.since id = false ∧ w.viewer.shown.Blank id)

theorem Watching.Current.leaves (h : w.Current id) (hleaves : Leaves w.viewer.shown w'.viewer.shown)
    (hclean : w'.viewer.shown.dirty id = false) (hcopied : w'.copied = w.copied) (hsince : w'.since = w.since) :
    w'.Current id := by
  have hsame {row k : Nat} (hrow : row < (w'.viewer.shown.chunkRect id).height)
      (hk : k < (w'.viewer.shown.chunkRect id).width * 4) : w'.viewer.shown.pixels (w'.viewer.shown.at_ id row k) =
        w.viewer.shown.pixels (w.viewer.shown.at_ id row k) := by
    rw [hleaves.chunkRect] at hrow hk
    have hat : w'.viewer.shown.at_ id row k = w.viewer.shown.at_ id row k := by
      rw [Shown.at_, Shown.at_, hleaves.chunkRect, hleaves.width]
    rw [hat]
    exact (hleaves.unmarked id hclean).2 _ (Shown.within_at hrow hk)
  rcases h with ⟨hseen, copy, hcopy, hshows⟩ | ⟨hnew, hblank⟩
  · refine .inl ⟨hsince ▸ hseen, copy, hcopied ▸ hcopy, fun row hrow k hk => ?_⟩
    rw [hsame hrow hk]
    rw [hleaves.chunkRect] at hrow hk
    exact hshows row hrow k hk
  · refine .inr ⟨hsince ▸ hnew, fun row hrow k hk => ?_⟩
    rw [hsame hrow hk]
    rw [hleaves.chunkRect] at hrow hk
    exact hblank row hrow k hk

/-! ## Calls -/

/-- What a copy leaves: the chunk as it is shown, and its mark cleared. -/
theorem chunk_eq_some {into copy : Viewer.Copy} {length : Nat} {size : Nat × Nat} {v' : Viewer}
    (h : v.chunk id into length = some (size, copy, v')) : copy.Shows v.shown id ∧
      v' = { v with shown := { v.shown with dirty := Function.update v.shown.dirty id false } } := by
  unfold chunk at h
  simp only at h
  split at h
  · cases h
  split at h
  · cases h
  split at h
  · cases h
  · rename_i hroom
    cases h
    refine ⟨fun row hrow k hk => ?_, rfl⟩
    exact Buffer.fill_rows (Nat.le_of_not_lt fun hless => hroom (.inl hless)) _ _ hrow hk

/-- A chunk of the desktop is copied into a buffer that is a whole chunk. -/
theorem exists_chunk (hid : id < v.shown.count) (pixels : Buffer) : ∃ size copy v',
    v.chunk id ⟨pixels, chunkSize * 4⟩ (chunkSize * chunkSize * 4) = some (size, copy, v') := by
  have hcolumns : v.shown.columns ≠ 0 := by
    intro hzero
    rw [Shown.count, hzero, Nat.zero_mul] at hid
    omega
  have hrow : (v.shown.chunkRect id).y < v.shown.height :=
    (lt_divCeil (by decide)).mp (Nat.div_lt_of_lt_mul hid)
  have hwidth : (v.shown.chunkRect id).width ≤ chunkSize := Nat.min_le_left _ _
  have hheight : (v.shown.chunkRect id).height ≤ chunkSize := Nat.min_le_left _ _
  unfold chunk
  simp only
  rw [if_neg hcolumns, if_neg (Nat.not_le_of_lt hrow), if_neg]
  · exact ⟨_, _, _, rfl⟩
  · simp only [chunkSize] at hwidth hheight ⊢
    omega

/-- A frame's rectangles are tiles of the desktop it is shown on. -/
def Tiled {F : Type} (w : Watching) : ViewerCall F → Prop
  | .show_ _ length changed => length = w.viewer.shown.width * w.viewer.shown.height * 4 →
    ∀ area ∈ changed, IsTile w.viewer.shown.width w.viewer.shown.height area
  | _ => True

instance {F : Type} (w : Watching) : (call : ViewerCall F) → Decidable (Tiled w call)
  | .show_ _ _ _ => inferInstanceAs (Decidable (_ → _))
  | .ready _ _ | .dirty _ _ _ _ | .chunk _ _ _ => inferInstanceAs (Decidable True)

/-- **The invariant**: what is not marked the client has as it is shown. -/
def UpToDate (w : Watching) : Prop := ∀ id, w.viewer.shown.dirty id = false → w.Current id

theorem upToDate_start : UpToDate .start :=
  fun _ _ => .inr ⟨rfl, fun _ _ _ _ => rfl⟩

/-- **Every call keeps it.** -/
theorem UpToDate.step {F : Type} {call : ViewerCall F} (h : UpToDate w) (htiled : Tiled w call)
    (hstep : Watching.step call w = some w') : UpToDate w' := by
  cases call with
  | ready width height =>
    cases hstep
    exact fun _ _ => .inr ⟨rfl, fun _ _ _ _ => rfl⟩
  | show_ desktop length changed =>
    cases hstep
    intro id hclean
    have hleaves : Leaves w.viewer.shown (w.viewer.show_ desktop length changed).shown := by
      unfold show_
      split
      · exact .refl _
      · rename_i hlength
        exact leaves_foldl (htiled (not_not.mp hlength))
    exact (h id (hleaves.unmarked id hclean).1).leaves hleaves hclean rfl rfl
  | dirty x y radius room =>
    cases hstep
    exact h
  | chunk copiedId into length =>
    simp only [Watching.step] at hstep
    split at hstep
    · cases hstep
      exact h
    · rename_i size copy viewer hchunk
      cases hstep
      obtain ⟨hshows, rfl⟩ := chunk_eq_some hchunk
      intro id hclean
      by_cases hsame : id = copiedId
      · subst hsame
        refine .inl ⟨?_, copy, ?_, hshows⟩
        · exact Function.update_self _ _ _
        · exact Function.update_self _ _ _
      · have hbefore : w.viewer.shown.dirty id = false := (Function.update_of_ne hsame _ _).symm.trans hclean
        have hcurrent := h id hbefore
        unfold Watching.Current at hcurrent ⊢
        simp only [Function.update_of_ne hsame]
        exact hcurrent

theorem upToDate_of_reaches {F : Type} (h : System.Reaches (Watching.step (F := F)) Tiled .start w) : UpToDate w :=
  h.invariant upToDate_start fun _ _ _ hup htiled hstep => hup.step htiled hstep

/-! ## What is reported -/

section dirty

variable {F : Type} [LensF64 F] {x y radius : F} {room : Nat}

theorem foldl_room (p : Nat → Bool) (ids out : List Nat) (hout : out.length ≤ room) :
    ids.foldl (fun out id => if out.length < room ∧ p id = true then out ++ [id] else out) out =
      out ++ (ids.filter p).take (room - out.length) := by
  induction ids generalizing out with
  | nil => simp
  | cons id rest ih =>
    rw [List.foldl_cons]
    by_cases htaken : out.length < room ∧ p id = true
    · have hlength : (out ++ [id]).length ≤ room := by
        rw [List.length_append, List.length_singleton]
        omega
      have hroom : room - out.length = room - (out ++ [id]).length + 1 := by
        rw [List.length_append, List.length_singleton] at hlength ⊢
        omega
      rw [if_pos htaken, ih _ hlength, List.filter_cons_of_pos htaken.2, hroom, List.take_succ_cons, List.append_assoc]
      rfl
    · rw [if_neg htaken, ih out hout]
      by_cases hp : p id = true
      · have hfull : room - out.length = 0 := by
          have hnot : ¬out.length < room := fun hlt => htaken ⟨hlt, hp⟩
          omega
        rw [hfull, List.take_zero, List.take_zero]
      · rw [List.filter_cons_of_neg hp]

/-- **What is reported**: the marked chunks around, in order, as far as there is room. -/
theorem dirty_eq (hwidth : v.shown.width ≠ 0) : v.dirty x y radius room =
    ((around v.shown x y radius).filter v.shown.dirty).take room := by
  unfold dirty
  rw [if_neg hwidth, foldl_room _ _ _ (Nat.zero_le room)]
  rfl

/-- The chunks around that are marked but not reported are those there was no room for. -/
theorem mem_dirty (hwidth : v.shown.width ≠ 0) (hroom : (v.dirty x y radius room).length < room)
    (hid : id ∈ around v.shown x y radius) (hmarked : v.shown.dirty id = true) : id ∈ v.dirty x y radius room := by
  rw [dirty_eq hwidth] at hroom ⊢
  have hmem := List.mem_filter.mpr ⟨hid, hmarked⟩
  rw [List.length_take] at hroom
  rwa [List.take_of_length_le (by omega)]

end dirty

/-! ## A client that copies what is reported -/

/-- Only chunks of the desktop are marked. -/
def Marked (s : Shown) : Prop := ∀ id, s.dirty id = true → id < s.count

theorem Marked.foldl {desktop : Buffer} {changed : List Rect} (h : Marked s)
    (htiles : ∀ area ∈ changed, IsTile s.width s.height area) : Marked (changed.foldl (showTile desktop) s) := by
  induction changed generalizing s with
  | nil => exact h
  | cons area rest ih =>
    refine ih (fun id hmarked => ?_) fun other hother => htiles other (List.mem_cons_of_mem _ hother)
    obtain ⟨tile, htile, rfl⟩ := htiles area List.mem_cons_self
    simp only [showTile, Function.update_apply] at hmarked
    split at hmarked
    · rename_i hsame
      subst hsame
      have hy : (rect s.width s.height tile).y < s.height := Fits.y_lt htile
      have hx : (rect s.width s.height tile).x < s.width := tile_x_lt htile
      have hrow := div_lt_divCeil (show 0 < chunkSize by decide) hy
      have hcolumn := div_lt_divCeil (show 0 < chunkSize by decide) hx
      have hrows : ((rect s.width s.height tile).y / chunkSize + 1) * s.columns ≤
          divCeil s.height chunkSize * s.columns := Nat.mul_le_mul_right _ hrow
      rw [Nat.add_mul, Nat.one_mul] at hrows
      show _ < s.columns * divCeil s.height chunkSize
      rw [Nat.mul_comm s.columns]
      exact (Nat.add_lt_add_left hcolumn _).trans_le hrows
    · exact h id hmarked

theorem Marked.step {F : Type} {call : ViewerCall F} (h : Marked w.viewer.shown) (htiled : Tiled w call)
    (hstep : Watching.step call w = some w') : Marked w'.viewer.shown := by
  cases call with
  | ready width height =>
    cases hstep
    exact fun _ hmarked => absurd hmarked Bool.false_ne_true
  | show_ desktop length changed =>
    cases hstep
    simp only [show_]
    split
    · exact h
    · rename_i hlength
      exact h.foldl (htiled (not_not.mp hlength))
  | dirty x y radius room =>
    cases hstep
    exact h
  | chunk copiedId into length =>
    simp only [Watching.step] at hstep
    split at hstep
    · cases hstep
      exact h
    · rename_i size copy viewer hchunk
      cases hstep
      obtain ⟨-, rfl⟩ := chunk_eq_some hchunk
      intro id hmarked
      by_cases hsame : id = copiedId
      · subst hsame
        have hcleared : Function.update w.viewer.shown.dirty id false id = false := Function.update_self _ _ _
        exact absurd (hcleared.symm.trans hmarked) Bool.false_ne_true
      · exact h id ((Function.update_of_ne hsame _ _).symm.trans hmarked)

theorem marked_of_reaches {F : Type} (h : System.Reaches (Watching.step (F := F)) Tiled .start w) :
    Marked w.viewer.shown := by
  refine h.invariant (I := fun w => Marked w.viewer.shown) ?_ fun _ _ _ hmarked htiled hstep =>
    hmarked.step htiled hstep
  exact fun _ hmarked => absurd hmarked Bool.false_ne_true

/-- A client copies chunks, each into a buffer of its own. -/
def copies (F : Type) (ids : List Nat) : List (ViewerCall F) :=
  ids.map fun id => .chunk id ⟨fun _ => 0, chunkSize * 4⟩ (chunkSize * chunkSize * 4)

/-- Copying chunks clears their marks and no other, and leaves what is shown. -/
theorem exists_copies (F : Type) {w : Watching} {ids : List Nat} (hids : ∀ id ∈ ids, id < w.viewer.shown.count)
    (h : UpToDate w) : ∃ w', System.exec (Watching.step (F := F)) (copies F ids) w = some w' ∧ UpToDate w' ∧
      w'.viewer.shown.pixels = w.viewer.shown.pixels ∧
        ∀ id, w'.viewer.shown.dirty id = true ↔ w.viewer.shown.dirty id = true ∧ id ∉ ids := by
  induction ids generalizing w with
  | nil => exact ⟨w, rfl, h, rfl, by simp⟩
  | cons first rest ih =>
    obtain ⟨size, copy, viewer, hchunk⟩ := exists_chunk (hids first List.mem_cons_self) fun _ => 0
    have hstep : Watching.step (F := F) (.chunk first ⟨fun _ => 0, chunkSize * 4⟩ (chunkSize * chunkSize * 4)) w =
        some ⟨viewer, Function.update w.copied first (some copy), Function.update w.since first true⟩ := by
      simp only [Watching.step, hchunk]
    have hup := h.step (show Tiled w (.chunk first _ _) from trivial) hstep
    obtain ⟨-, rfl⟩ := chunk_eq_some hchunk
    have hrest := fun hrest => ih hrest hup
    obtain ⟨w', hexec, hup', hpixels, hdirty⟩ := hrest fun id hid => hids id (List.mem_cons_of_mem _ hid)
    refine ⟨w', ?_, hup', hpixels, fun id => ?_⟩
    · simp only [copies, List.map_cons, System.exec, hstep]
      exact hexec
    · rw [hdirty]
      by_cases hsame : id = first
      · subst hsame
        simp
      · simp [hsame]

/-- **Chunks never go stale.** In every run of a viewer's calls, what the client has of a chunk that is not
marked is what is shown: its last copy, or nothing where it was not copied since the desktop's size came and is
blank as it was then. A report takes no more than the room there is, and clears no mark; and once the client
has copied what was reported, it has what is shown of those chunks, and of all around where there was room. -/
theorem chunks_current {F : Type} [LensF64 F] (hrun : System.Reaches (Watching.step (F := F)) Tiled .start w)
    (x y radius : F) (room : Nat) : (∀ id, w.viewer.shown.dirty id = false → w.Current id) ∧
    (w.viewer.dirty x y radius room).length ≤ room ∧
    (∀ id ∈ w.viewer.dirty x y radius room, w.viewer.shown.dirty id = true) ∧
    ∃ w', System.exec Watching.step (.dirty x y radius room :: copies F (w.viewer.dirty x y radius room)) w = some w' ∧
      w'.viewer.shown.pixels = w.viewer.shown.pixels ∧ (∀ id ∈ w.viewer.dirty x y radius room, w'.Current id) ∧
        ((w.viewer.dirty x y radius room).length < room → ∀ id ∈ around w.viewer.shown x y radius, w'.Current id) := by
  have hup := upToDate_of_reaches hrun
  have hmarked := marked_of_reaches hrun
  have hreport : (w.viewer.dirty x y radius room).length ≤ room ∧
      ∀ id ∈ w.viewer.dirty x y radius room, w.viewer.shown.dirty id = true := by
    by_cases hwidth : w.viewer.shown.width = 0
    · have hnone : w.viewer.dirty x y radius room = [] := if_pos hwidth
      rw [hnone]
      exact ⟨Nat.zero_le room, fun _ hin => absurd hin List.not_mem_nil⟩
    · rw [dirty_eq hwidth]
      exact ⟨List.length_take_le _ _, fun id hid => (List.mem_filter.mp (List.mem_of_mem_take hid)).2⟩
  obtain ⟨hlength, hmembers⟩ := hreport
  obtain ⟨w', hexec, hup', hpixels, hdirty⟩ := exists_copies F (fun id hid => hmarked id (hmembers id hid)) hup
  refine ⟨hup, hlength, hmembers, w', hexec, hpixels, fun id hid => hup' id ?_, fun hroom id hid => hup' id ?_⟩
  · refine Bool.eq_false_iff.mpr fun hstill => ?_
    exact ((hdirty id).mp hstill).2 hid
  · refine Bool.eq_false_iff.mpr fun hstill => ?_
    obtain ⟨hbefore, hunreported⟩ := (hdirty id).mp hstill
    have hwidth : w.viewer.shown.width ≠ 0 := by
      intro hzero
      have hlt := hmarked id hbefore
      rw [Shown.count, Shown.columns, hzero] at hlt
      simp [divCeil, chunkSize] at hlt
    exact hunreported (mem_dirty hwidth hroom hid hbefore)

/-! ### On a desktop of one chunk -/

/-- A tile is shown. -/
def shownTile : List (ViewerCall ℚ) := [.ready 64 64, .show_ (fun _ => 9) 16384 [⟨0, 0, 64, 64⟩]]

theorem chunks_current_tile : ∃ w w', System.Reaches (Watching.step (F := ℚ)) Tiled .start w ∧
    w.viewer.dirty (0 : ℚ) 0 1 4 = [0] ∧
      System.exec Watching.step (.dirty (0 : ℚ) 0 1 4 :: copies ℚ [0]) w = some w' ∧ w'.Current 0 := by
  have hrun : ((System.guarded (Watching.step (F := ℚ)) Tiled).exec shownTile .start).any (fun w =>
      w.viewer.dirty (0 : ℚ) 0 1 4 = [0]) = true := by decide +kernel
  obtain ⟨w, hreaches, hw⟩ := System.exists_reaches_of_exec hrun
  have hreport := of_decide_eq_true hw
  obtain ⟨-, -, -, w', hexec, -, hcurrent, -⟩ := chunks_current hreaches (0 : ℚ) 0 1 4
  rw [hreport] at hexec hcurrent
  exact ⟨w, w', hreaches, hreport, hexec, hcurrent 0 (List.mem_singleton_self 0)⟩

/-- The tile is copied, and the desktop comes again, one pixel wider: the chunk is not marked, and was last
copied with other pixels. -/
theorem resized_unmarked : ∃ w copy, System.Reaches (Watching.step (F := ℚ)) Tiled .start w ∧
    0 < w.viewer.shown.count ∧ w.viewer.shown.dirty 0 = false ∧ w.copied 0 = some copy ∧
      ¬copy.Shows w.viewer.shown 0 := by
  have hrun : ((System.guarded (Watching.step (F := ℚ)) Tiled).exec
      (shownTile ++ [.dirty 0 0 1 4, .chunk 0 ⟨fun _ => 0, 1024⟩ 262144, .ready 65 64]) .start).any (fun w =>
        decide (0 < w.viewer.shown.count) && !w.viewer.shown.dirty 0 && decide (0 < (w.viewer.shown.chunkRect 0).height) &&
          decide (0 < (w.viewer.shown.chunkRect 0).width * 4) && (w.copied 0).any fun copy =>
            copy.pixels (0 * copy.stride + 0) ≠ w.viewer.shown.pixels (w.viewer.shown.at_ 0 0 0)) = true := by
    decide +kernel
  obtain ⟨w, hreaches, hw⟩ := System.exists_reaches_of_exec hrun
  simp only [Bool.and_eq_true, Bool.not_eq_true', decide_eq_true_eq] at hw
  obtain ⟨⟨⟨⟨hcount, hclean⟩, hheight⟩, hwidth⟩, hcopied⟩ := hw
  obtain ⟨copy, hcopy, hdiffers⟩ := Option.any_eq_true _ _ |>.mp hcopied
  exact ⟨w, copy, hreaches, hcount, hclean, hcopy, fun hshows =>
    of_decide_eq_true hdiffers (hshows 0 hheight 0 hwidth)⟩

end Zflow.Lens
