import Mathlib.Algebra.BigOperators.Intervals
import Mathlib.Algebra.BigOperators.Ring.Finset
import Mathlib.Algebra.Order.BigOperators.Group.Finset
import Zflow.Lens.Tiles

/-!
# Tiles and the bytes within them

A byte of a desktop belongs to the tile that its pixel is in. Tiles do not overlap, the rows of one are
written where the tile is and nowhere else, and the tiles together have as many pixels as the desktop.
-/

namespace Zflow.Lens

open Lib

/-! ## Rounding up -/

theorem lt_divCeil {a b c : Nat} (hb : 0 < b) : c < divCeil a b ↔ c * b < a := by
  rw [divCeil, Nat.lt_div_iff_mul_lt hb]
  constructor
  · intro h
    omega
  · intro h
    omega

theorem divCeil_le_self {a b : Nat} (hb : 0 < b) : divCeil a b ≤ a := by
  by_contra hlt
  have h := (lt_divCeil hb).mp (Nat.not_le.mp hlt)
  exact absurd h (Nat.not_lt.mpr (Nat.le_mul_of_pos_right a hb))

@[simp] theorem divCeil_one (a : Nat) : divCeil a 1 = a := by simp [divCeil]

theorem div_lt_divCeil {a b c : Nat} (hb : 0 < b) (h : c < a) : c / b < divCeil a b :=
  (lt_divCeil hb).mpr ((Nat.div_mul_le_self c b).trans_lt h)

/-! ## The bytes of a tile -/

/-- A byte whose pixel is in a tile of a desktop so wide. -/
def Within (width : Nat) (tile : Rect) (i : Nat) : Prop :=
  (tile.y ≤ i / 4 / width ∧ i / 4 / width < tile.y + tile.height) ∧
    tile.x ≤ i / 4 % width ∧ i / 4 % width < tile.x + tile.width

instance (width : Nat) (tile : Rect) (i : Nat) : Decidable (Within width tile i) :=
  inferInstanceAs (Decidable (_ ∧ _))

/-- Byte `channel` of the pixel at some row and column. -/
theorem pixel_index (row : Nat) {width column channel : Nat} (hcolumn : column < width) (hchannel : channel < 4) :
    ((row * width + column) * 4 + channel) / 4 = row * width + column ∧
    ((row * width + column) * 4 + channel) / 4 / width = row ∧
    ((row * width + column) * 4 + channel) / 4 % width = column ∧
    ((row * width + column) * 4 + channel) % 4 = channel := by
  have hpixel : ((row * width + column) * 4 + channel) / 4 = row * width + column := by omega
  refine ⟨hpixel, ?_, ?_, by omega⟩
  · rw [hpixel, Nat.mul_comm, Nat.mul_add_div (by omega), Nat.div_eq_of_lt hcolumn, Nat.add_zero]
  · rw [hpixel, Nat.mul_comm, Nat.mul_add_mod, Nat.mod_eq_of_lt hcolumn]

/-- A byte is that of its channel, at its pixel's row and column. -/
theorem index_eq (width i : Nat) : (i / 4 / width * width + i / 4 % width) * 4 + i % 4 = i := by
  rw [Nat.div_add_mod']
  omega

/-- Where in a row of a tile a byte is. -/
theorem row_iff {width x w row i : Nat} (hfits : x + w ≤ width) :
    ((row * width + x) * 4 ≤ i ∧ i < (row * width + x) * 4 + w * 4) ↔
      i / 4 / width = row ∧ x ≤ i / 4 % width ∧ i / 4 % width < x + w := by
  have hindex := index_eq width i
  constructor
  · rintro ⟨hlow, hhigh⟩
    have hrow : i / 4 / width = row := by
      refine Nat.div_eq_of_lt_le ?_ ?_
      · omega
      · rw [Nat.succ_mul]
        omega
    rw [hrow] at hindex
    omega
  · rintro ⟨rfl, hleft, hright⟩
    omega

theorem row_offset {width x row i : Nat} (hrow : i / 4 / width = row) (hleft : x ≤ i / 4 % width) :
    i - (row * width + x) * 4 = (i / 4 % width - x) * 4 + i % 4 := by
  have hindex := index_eq width i
  rw [hrow] at hindex
  omega

/-- **Writing the rows of a tile** writes its bytes and no other. -/
theorem fillRows_apply {width : Nat} {tile : Rect} (hfits : tile.x + tile.width ≤ width)
    (value : Nat → Buffer) (pixels : Buffer) (i : Nat) : fillRows width tile value pixels i =
      if Within width tile i then
        value (i / 4 / width - tile.y) ((i / 4 % width - tile.x) * 4 + i % 4)
      else pixels i := by
  have hrows (n : Nat) : (List.range n).foldl (fun pixels row =>
      pixels.fill (((tile.y + row) * width + tile.x) * 4) (tile.width * 4) (value row)) pixels i =
      if Within width { tile with height := n } i then
        value (i / 4 / width - tile.y) ((i / 4 % width - tile.x) * 4 + i % 4)
      else pixels i := by
    induction n with
    | zero =>
      rw [if_neg]
      · rfl
      · simp only [Within]
        omega
    | succ n ih =>
      rw [List.range_succ, List.foldl_append, List.foldl_cons, List.foldl_nil, Buffer.fill, ih]
      by_cases hrow : ((tile.y + n) * width + tile.x) * 4 ≤ i ∧
          i < ((tile.y + n) * width + tile.x) * 4 + tile.width * 4
      · obtain ⟨hn, hleft, hright⟩ := (row_iff hfits).mp hrow
        have hin : Within width { tile with height := n + 1 } i := by
          simp only [Within]
          omega
        rw [if_pos hrow, if_pos hin, row_offset hn hleft, hn, Nat.add_sub_cancel_left]
      · rw [if_neg hrow]
        rw [row_iff hfits] at hrow
        have hsame : Within width { tile with height := n + 1 } i ↔
            Within width { tile with height := n } i := by
          simp only [Within]
          omega
        simp only [hsame]
  exact hrows tile.height

/-! ## The tiles of a desktop -/

/-- The dimensions a desktop may have. -/
structure Fits (width height : Nat) : Prop where
  width_pos : 0 < width
  height_pos : 0 < height
  width_le : width ≤ 4096
  height_le : height ≤ 2160

theorem dimensions_eq_ok {width height count : Nat} (h : dimensions width height = .ok count) :
    Fits width height := by
  unfold dimensions at h
  split at h
  · rename_i hfits
    exact ⟨hfits.1, hfits.2.1, hfits.2.2.1, hfits.2.2.2⟩
  · cases h

/-- How many tiles a desktop has. -/
def tileCount (width height : Nat) : Nat := divCeil width tileSize * divCeil height tileSize

namespace Fits

variable {width height id : Nat}

theorem columns_pos (h : Fits width height) : 0 < divCeil width tileSize :=
  (lt_divCeil (by decide)).mpr (by simpa using h.width_pos)

theorem count_le (h : Fits width height) : tileCount width height ≤ 2176 := by
  have hw := h.width_le
  have hh := h.height_le
  have hcolumns : divCeil width tileSize ≤ 64 := by
    simp only [divCeil, tileSize]
    omega
  have hrows : divCeil height tileSize ≤ 34 := by
    simp only [divCeil, tileSize]
    omega
  exact Nat.mul_le_mul hcolumns hrows

theorem x_lt (h : Fits width height) (id : Nat) : (rect width height id).x < width :=
  (lt_divCeil (by decide)).mp (Nat.mod_lt _ h.columns_pos)

theorem y_lt (hid : id < tileCount width height) : (rect width height id).y < height :=
  (lt_divCeil (by decide)).mp (Nat.div_lt_of_lt_mul hid)

theorem right_le (h : Fits width height) (id : Nat) :
    (rect width height id).x + (rect width height id).width ≤ width := by
  have hx := h.x_lt id
  simp only [rect] at hx ⊢
  omega

/-- A byte is in one tile at most. -/
theorem within_unique {other i : Nat} (hin : Within width (rect width height id) i)
    (hother : Within width (rect width height other) i) : id = other := by
  have hcolumn : id % divCeil width tileSize = other % divCeil width tileSize := by
    have h1 := hin.2
    have h2 := hother.2
    simp only [rect, tileSize] at h1 h2 ⊢
    omega
  have hrow : id / divCeil width tileSize = other / divCeil width tileSize := by
    have h1 := hin.1
    have h2 := hother.1
    simp only [rect, tileSize] at h1 h2 ⊢
    omega
  rw [← Nat.div_add_mod id (divCeil width tileSize), hcolumn, hrow, Nat.div_add_mod]

end Fits

/-! ## How many bytes the tiles have -/

theorem sum_min_tile (n size : Nat) :
    ∑ i ∈ Finset.range n, min tileSize (size - i * tileSize) = min (n * tileSize) size := by
  induction n with
  | zero => simp
  | succ n ih =>
    rw [Finset.sum_range_succ, ih]
    simp only [tileSize]
    omega

/-- The pixels of the tiles in some rows of tiles. -/
theorem sum_area_le {width height : Nat} (h : Fits width height) (rows : Nat) :
    ∑ id ∈ Finset.range (divCeil width tileSize * rows), (rect width height id).width * (rect width height id).height ≤
      width * min (rows * tileSize) height := by
  induction rows with
  | zero => simp
  | succ rows ih =>
    have hrow : ∑ c ∈ Finset.range (divCeil width tileSize),
        (rect width height (divCeil width tileSize * rows + c)).width *
          (rect width height (divCeil width tileSize * rows + c)).height ≤
        width * min tileSize (height - rows * tileSize) := by
      have hone : ∀ c ∈ Finset.range (divCeil width tileSize),
          (rect width height (divCeil width tileSize * rows + c)).width *
            (rect width height (divCeil width tileSize * rows + c)).height =
          min tileSize (width - c * tileSize) * min tileSize (height - rows * tileSize) := by
        intro c hc
        have hlt := Finset.mem_range.mp hc
        simp only [rect]
        rw [Nat.mul_add_mod, Nat.mod_eq_of_lt hlt, Nat.mul_add_div h.columns_pos, Nat.div_eq_of_lt hlt, Nat.add_zero]
      rw [Finset.sum_congr rfl hone, ← Finset.sum_mul, sum_min_tile]
      exact Nat.mul_le_mul_right _ (min_le_right _ _)
    rw [Nat.mul_succ, Finset.sum_range_add]
    refine (Nat.add_le_add ih hrow).trans ?_
    rw [← Nat.mul_add]
    refine Nat.mul_le_mul_left _ ?_
    rw [Nat.succ_mul]
    omega

/-- The records of distinct tiles have no more bytes than the desktop. -/
theorem sum_recordSize_le {width height : Nat} (h : Fits width height) {entries : List (Nat × Nat)}
    (hnodup : (entries.map Prod.fst).Nodup)
    (hentries : ∀ entry ∈ entries, entry.1 < tileCount width height ∧ 0 < entry.2) :
    (entries.map fun entry =>
      recordSize (rect width height entry.1).width (rect width height entry.1).height entry.2).sum ≤
      width * height * 4 := by
  have hrecord (entry : Nat × Nat) (hin : entry ∈ entries) :
      recordSize (rect width height entry.1).width (rect width height entry.1).height entry.2 ≤
        (rect width height entry.1).width * (rect width height entry.1).height * 4 :=
    Nat.mul_le_mul_right _ (Nat.mul_le_mul (divCeil_le_self (hentries entry hin).2)
      (divCeil_le_self (hentries entry hin).2))
  let area (id : Nat) : Nat := (rect width height id).width * (rect width height id).height
  calc (entries.map fun entry =>
        recordSize (rect width height entry.1).width (rect width height entry.1).height entry.2).sum
      ≤ (entries.map fun entry => area entry.1 * 4).sum := List.sum_le_sum hrecord
    _ = (entries.map fun entry => area entry.1).sum * 4 := List.sum_map_mul_right _ _ _
    _ = ((entries.map Prod.fst).map area).sum * 4 := by rw [List.map_map]; rfl
    _ = (∑ id ∈ (entries.map Prod.fst).toFinset, area id) * 4 := by
      rw [List.sum_toFinset _ hnodup]
    _ ≤ (∑ id ∈ Finset.range (divCeil width tileSize * divCeil height tileSize), area id) * 4 := by
      refine Nat.mul_le_mul_right _ (Finset.sum_le_sum_of_subset fun id hid => ?_)
      obtain ⟨entry, hin, rfl⟩ := List.mem_map.mp (List.mem_toFinset.mp hid)
      exact Finset.mem_range.mpr (hentries entry hin).1
    _ ≤ width * height * 4 :=
      Nat.mul_le_mul_right _ ((sum_area_le h _).trans (Nat.mul_le_mul_left _ (min_le_right _ _)))

end Zflow.Lens
