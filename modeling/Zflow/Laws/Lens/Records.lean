import Zflow.Laws.Lens.Geometry

/-!
# Records are read as they were written

The pixels of a record are those of its tile and no other, drawing them writes that tile and nothing
else, and the decoder reads back the records of a body, in order.
-/

namespace Zflow.Lens

open Lib Encoder Decoder

/-! ## The bytes of a record -/

section Record

variable {width level : Nat} {tile : Rect} {pixels other : Buffer}

/-- The levels a tile is sent at. -/
def Sent (level : Nat) : Prop := level = 1 ∨ level = 2 ∨ level = 4

theorem Sent.pos (h : Sent level) : 0 < level := by
  unfold Sent at h
  omega

/-- A record of a tile is at most that of a whole tile, sent exactly. -/
theorem recordSize_tile_le {width height : Nat} (id : Nat) (hlevel : Sent level) :
    recordSize (rect width height id).width (rect width height id).height level ≤ 16384 := by
  have hcolumns : divCeil (rect width height id).width level ≤ 64 :=
    (divCeil_le_self hlevel.pos).trans (Nat.min_le_left _ _)
  have hrows : divCeil (rect width height id).height level ≤ 64 :=
    (divCeil_le_self hlevel.pos).trans (Nat.min_le_left _ _)
  exact Nat.mul_le_mul_right 4 (Nat.mul_le_mul hcolumns hrows)

theorem length_box (width : Nat) (pixels : Buffer) (tile : Rect) (level by_ bx : Nat) :
    (box width pixels tile level by_ bx).length = 4 := by
  simp [box]

theorem length_boxRow (by_ : Nat) : ((List.range (divCeil tile.width level)).flatMap fun bx =>
    box width pixels tile level by_ (bx * level)).length = divCeil tile.width level * 4 :=
  length_flatMap_range fun _ _ => length_box ..

theorem length_record : (record width pixels tile level).length =
    recordSize tile.width tile.height level := by
  unfold record recordSize
  split
  · rename_i hlevel
    rw [length_flatMap_range fun _ _ => Buffer.length_slice ..]
    subst hlevel
    simp only [divCeil_one]
    ring
  · rw [length_flatMap_range fun _ _ => length_boxRow _]
    ring

/-- An exact record holds the tile's rows. -/
theorem record_exact {row k : Nat} (hrow : row < tile.height) (hk : k < tile.width * 4) :
    (record width pixels tile 1).getD (row * tile.width * 4 + k) 0 =
      pixels (((tile.y + row) * width + tile.x) * 4 + k) := by
  rw [record, if_pos rfl, List.getD_eq_getElem?_getD, Nat.mul_assoc,
    getElem?_flatMap_range (fun _ _ => Buffer.length_slice ..) hrow hk, Buffer.getElem?_slice _ hk]
  rfl

/-- A block is a matter of the pixels in it, which are in the tile. -/
theorem box_congr (hfits : tile.x + tile.width ≤ width)
    (hsame : ∀ i, Within width tile i → pixels i = other i) (by_ bx : Nat) :
    box width pixels tile level by_ bx = box width other tile level by_ bx := by
  unfold box
  refine List.map_congr_left fun channel hchannel => ?_
  have hchannel := List.mem_range.mp hchannel
  have hsums (row : Nat) (hrow : row ∈ List.range' (tile.y + by_) (min level (tile.height - by_))) :
      (List.range' (tile.x + bx) (min level (tile.width - bx))).map
        (fun column => (pixels ((row * width + column) * 4 + channel)).toNat) =
      (List.range' (tile.x + bx) (min level (tile.width - bx))).map
        (fun column => (other ((row * width + column) * 4 + channel)).toNat) := by
    refine List.map_congr_left fun column hcolumn => ?_
    rw [List.mem_range'_1] at hrow hcolumn
    obtain ⟨-, hy, hx, -⟩ := pixel_index row (show column < width by omega) hchannel
    rw [hsame]
    simp only [Within, hy, hx]
    omega
  simp only [List.flatMap_congr hsums]

theorem record_congr (hfits : tile.x + tile.width ≤ width) (hsame : ∀ i, Within width tile i → pixels i = other i) :
    record width pixels tile level = record width other tile level := by
  unfold record
  split
  · refine List.flatMap_congr fun row hrow => Buffer.slice_eq_iff.mpr fun i hi => hsame _ ?_
    have hrow := List.mem_range.mp hrow
    obtain ⟨hy, hleft, hright⟩ := (row_iff (i := ((tile.y + row) * width + tile.x) * 4 + i)
      hfits).mp ⟨Nat.le_add_right _ _, Nat.add_lt_add_left hi _⟩
    simp only [Within, hy]
    omega
  · refine List.flatMap_congr fun by_ _ => List.flatMap_congr fun bx _ => ?_
    exact box_congr hfits hsame _ _

end Record

/-! ## Drawing -/

section Draw

variable {width level : Nat} {tile : Rect} {data : Buffer}

/-- Where in a record the byte is that is drawn at `k` of a tile's row. -/
def sourceIndex (tile : Rect) (level row k : Nat) : Nat :=
  if level = 1 then row * tile.width * 4 + k
  else row / level * divCeil tile.width level * 4 + k / 4 / level * 4 + k % 4

theorem draw_apply (hfits : tile.x + tile.width ≤ width) (pixels : Buffer) (i : Nat) :
    draw width data tile level pixels i =
      if Within width tile i then
        data (sourceIndex tile level (i / 4 / width - tile.y) ((i / 4 % width - tile.x) * 4 + i % 4))
      else pixels i := by
  unfold draw upscale sourceIndex
  split
  · rw [fillRows_apply hfits]
  · rw [fillRows_apply hfits]

theorem sourceIndex_lt (hlevel : Sent level) {row k : Nat} (hrow : row < tile.height) (hk : k < tile.width * 4) :
    sourceIndex tile level row k < recordSize tile.width tile.height level := by
  unfold sourceIndex recordSize
  split
  · rename_i hone
    subst hone
    rw [divCeil_one, divCeil_one]
    calc row * tile.width * 4 + k < row * tile.width * 4 + tile.width * 4 := Nat.add_lt_add_left hk _
      _ = (row + 1) * (tile.width * 4) := by ring
      _ ≤ tile.height * (tile.width * 4) := Nat.mul_le_mul_right _ hrow
      _ = tile.width * tile.height * 4 := by ring
  · have hblockRow : row / level < divCeil tile.height level := div_lt_divCeil hlevel.pos hrow
    have hblock : k / 4 / level < divCeil tile.width level := div_lt_divCeil hlevel.pos (by omega)
    have hin : k / 4 / level * 4 + k % 4 < divCeil tile.width level * 4 := by omega
    calc row / level * divCeil tile.width level * 4 + k / 4 / level * 4 + k % 4
        = row / level * (divCeil tile.width level * 4) + (k / 4 / level * 4 + k % 4) := by ring
      _ < row / level * (divCeil tile.width level * 4) + divCeil tile.width level * 4 :=
        Nat.add_lt_add_left hin _
      _ = (row / level + 1) * (divCeil tile.width level * 4) := by ring
      _ ≤ divCeil tile.height level * (divCeil tile.width level * 4) :=
        Nat.mul_le_mul_right _ hblockRow
      _ = divCeil tile.width level * divCeil tile.height level * 4 := by ring

/-- Within a tile, what is drawn comes from the record alone, and from its bytes only. -/
theorem draw_congr (hfits : tile.x + tile.width ≤ width) (hlevel : Sent level) {other : Buffer}
    (hsame : ∀ i < recordSize tile.width tile.height level, data i = other i) (pixels before : Buffer)
    {i : Nat} (hin : Within width tile i) :
    draw width data tile level pixels i = draw width other tile level before i := by
  rw [draw_apply hfits, draw_apply hfits, if_pos hin, if_pos hin]
  obtain ⟨hrow, hcolumn⟩ := hin
  exact hsame _ (sourceIndex_lt hlevel (by omega) (by omega))

theorem draw_outside (hfits : tile.x + tile.width ≤ width) (pixels : Buffer) {i : Nat}
    (hout : ¬Within width tile i) : draw width data tile level pixels i = pixels i := by
  rw [draw_apply hfits, if_neg hout]

/-- An exact record draws the pixels it was made of. -/
theorem draw_exact (hfits : tile.x + tile.width ≤ width) {pixels before : Buffer} {i : Nat}
    (hin : Within width tile i) :
    draw width (fun i => (record width pixels tile 1).getD i 0) tile 1 before i = pixels i := by
  rw [draw_apply hfits, if_pos hin, sourceIndex, if_pos rfl]
  obtain ⟨hrow, hcolumn⟩ := hin
  rw [record_exact (by omega) (by omega)]
  congr 1
  have hindex := index_eq width i
  have hy : tile.y + (i / 4 / width - tile.y) = i / 4 / width := by omega
  rw [hy]
  omega

end Draw

/-! ## Reading a body -/

section Read

variable {width height : Nat} {pixels : Buffer}

/-- The body with the records of these tiles, each with its level. -/
def written (width height : Nat) (pixels : Buffer) (entries : List (Nat × Nat)) : List UInt8 :=
  entries.flatMap fun entry =>
    beBytes 4 entry.1 ++ [UInt8.ofNat entry.2] ++ record width pixels (rect width height entry.1) entry.2

/-- A record that was read stands for the tile that was written. -/
structure Reads (width height : Nat) (pixels : Buffer) (raw : List UInt8) (entry : Nat × Nat)
    (found : Record) : Prop where
  id : found.id = entry.1
  level : found.level = entry.2
  bytes : ∀ i < recordSize (rect width height entry.1).width (rect width height entry.1).height entry.2,
    raw.getD (found.start + i) 0 =
      (record width pixels (rect width height entry.1) entry.2).getD i 0

/-- The tiles that may be in a body. -/
structure Listed (width height : Nat) (entries : List (Nat × Nat)) : Prop where
  nodup : (entries.map Prod.fst).Nodup
  id_lt : ∀ entry ∈ entries, entry.1 < tileCount width height
  sent : ∀ entry ∈ entries, Sent entry.2

theorem length_written (width height : Nat) (pixels : Buffer) (entries : List (Nat × Nat)) :
    (written width height pixels entries).length = 5 * entries.length + (entries.map fun entry =>
      recordSize (rect width height entry.1).width (rect width height entry.1).height entry.2).sum := by
  induction entries with
  | nil => rfl
  | cons entry rest ih =>
    rw [written, List.flatMap_cons, List.length_append, ← written, ih]
    simp only [List.length_append, length_beBytes, length_record, List.length_cons, List.length_nil,
      List.map_cons, List.sum_cons]
    omega

theorem Listed.length_le {entries : List (Nat × Nat)} (h : Listed width height entries) :
    entries.length ≤ tileCount width height := by
  have hsubset : entries.map Prod.fst ⊆ List.range (tileCount width height) := by
    intro id hid
    obtain ⟨entry, hin, rfl⟩ := List.mem_map.mp hid
    exact List.mem_range.mpr (h.id_lt entry hin)
  simpa using (h.nodup.subperm hsubset).length_le

theorem Listed.written_le {entries : List (Nat × Nat)} (h : Listed width height entries)
    (hfits : Fits width height) : (written width height pixels entries).length ≤
      width * height * 4 + tileCount width height * 5 := by
  rw [length_written]
  have hsizes := sum_recordSize_le hfits h.nodup fun entry hin =>
    ⟨h.id_lt entry hin, (h.sent entry hin).pos⟩
  have hcount := h.length_le
  omega

/-- The first record of what is left of a body. -/
theorem readRecord_written {d : Decoder} {before rest : List UInt8} {entry : Nat × Nat}
    {seen : List Nat} (hfits : Fits d.width d.height) (hid : entry.1 < tileCount d.width d.height)
    (hsent : Sent entry.2) (hnew : entry.1 ∉ seen) {raw : List UInt8}
    (hraw : raw = before ++ (beBytes 4 entry.1 ++ ([UInt8.ofNat entry.2] ++
      (record d.width pixels (rect d.width d.height entry.1) entry.2 ++ rest)))) :
    d.readRecord raw before.length seen = .ok (⟨entry.1, entry.2, before.length + 5⟩,
      before.length + 5 + recordSize (rect d.width d.height entry.1).width
        (rect d.width d.height entry.1).height entry.2) := by
  have hcount := hfits.count_le
  have hlevel : entry.2 < 256 := by
    unfold Sent at hsent
    omega
  have hlength : raw.length = before.length + 5 + recordSize (rect d.width d.height entry.1).width
      (rect d.width d.height entry.1).height entry.2 + rest.length := by
    simp only [hraw, List.length_append, length_beBytes, List.length_singleton, length_record]
    omega
  have hidBytes : fromBe (slice raw before.length 4) = entry.1 := by
    rw [hraw, slice_right le_rfl, Nat.sub_self, slice_left (length_beBytes 4 _)]
    exact fromBe_beBytes (by omega)
  have hlevelByte : (raw.getD (before.length + 4) 0).toNat = entry.2 := by
    have hfour (bytes : List UInt8) : (beBytes 4 entry.1 ++ bytes).getD 4 0 = bytes.getD 0 0 :=
      getD_right (i := 0) (length_beBytes 4 entry.1)
    rw [hraw, getD_right rfl, hfour, List.singleton_append, List.getD_cons_zero, UInt8.toNat_ofNat']
    omega
  have hlevels : entry.2 = 1 ∨ entry.2 = 2 ∨ entry.2 = 4 := hsent
  simp only [readRecord, hidBytes, hlevelByte, hlength]
  rw [if_neg (by omega), if_neg (not_not_intro ⟨hid, hnew⟩), if_neg (not_not_intro hlevels),
    if_neg (by omega)]

/-- **A body is read back** as the records that were written, to its end. -/
theorem readRecords_written {d : Decoder} (hfits : Fits d.width d.height) {raw : List UInt8}
    {entries : List (Nat × Nat)} (hlisted : Listed d.width d.height entries) {before : List UInt8}
    {seen : List Nat} (hseen : ∀ entry ∈ entries, entry.1 ∉ seen)
    (hraw : raw = before ++ written d.width d.height pixels entries) :
    ∃ records, d.readRecords raw entries.length before.length seen = .ok (records, raw.length) ∧
      List.Forall₂ (Reads d.width d.height pixels raw) entries records := by
  induction entries generalizing before seen with
  | nil =>
    refine ⟨[], ?_, .nil⟩
    rw [hraw, written, List.flatMap_nil, List.append_nil]
    rfl
  | cons entry rest ih =>
    have hhead : raw = before ++ (beBytes 4 entry.1 ++ ([UInt8.ofNat entry.2] ++
        (record d.width pixels (rect d.width d.height entry.1) entry.2 ++ written d.width d.height pixels rest))) := by
      rw [hraw, written, List.flatMap_cons, ← written]
      simp only [List.append_assoc]
    have hfirst := readRecord_written hfits (hlisted.id_lt entry List.mem_cons_self)
      (hlisted.sent entry List.mem_cons_self) (hseen entry List.mem_cons_self) hhead
    obtain ⟨hnot, hnodup⟩ := List.nodup_cons.mp hlisted.nodup
    have hrest : Listed d.width d.height rest :=
      ⟨hnodup, fun other hother => hlisted.id_lt other (List.mem_cons_of_mem _ hother),
        fun other hother => hlisted.sent other (List.mem_cons_of_mem _ hother)⟩
    have hseen' : ∀ other ∈ rest, other.1 ∉ entry.1 :: seen := by
      intro other hother hin
      rcases List.mem_cons.mp hin with heq | hin
      · exact hnot (heq ▸ List.mem_map_of_mem hother)
      · exact hseen other (List.mem_cons_of_mem _ hother) hin
    have hraw' : raw = (before ++ beBytes 4 entry.1 ++ [UInt8.ofNat entry.2] ++
        record d.width pixels (rect d.width d.height entry.1) entry.2) ++
          written d.width d.height pixels rest := by
      rw [hhead]
      simp only [List.append_assoc]
    obtain ⟨records, hread, hreads⟩ := ih hrest hseen' hraw'
    have hnext : (before ++ beBytes 4 entry.1 ++ [UInt8.ofNat entry.2] ++
        record d.width pixels (rect d.width d.height entry.1) entry.2).length =
        before.length + 5 + recordSize (rect d.width d.height entry.1).width
          (rect d.width d.height entry.1).height entry.2 := by
      simp only [List.length_append, length_beBytes, List.length_singleton, length_record]
    rw [hnext] at hread
    refine ⟨⟨entry.1, entry.2, before.length + 5⟩ :: records, ?_, .cons ⟨rfl, rfl, ?_⟩ hreads⟩
    · rw [List.length_cons, readRecords, hfirst]
      simp only [bind, Except.bind, hread]
      rfl
    · intro i hi
      have hfive : (before ++ beBytes 4 entry.1 ++ [UInt8.ofNat entry.2]).length = before.length + 5 := by
        simp
      rw [hraw', List.append_assoc, getD_right hfive, getD_left (length_record ▸ hi)]

end Read

/-! ## Drawing a body -/

/-- What drawing the records of some tiles leaves: their pixels, and all others as they were. -/
structure Drawn (pixels : Buffer) (d : Decoder) (entries : List (Nat × Nat)) (drawn : Decoder) :
    Prop where
  width : drawn.width = d.width
  height : drawn.height = d.height
  sequence : drawn.sequence = d.sequence
  valid : ∀ id, drawn.valid id = true ↔ d.valid id = true ∨ id ∈ entries.map Prod.fst
  kept : ∀ i, (∀ entry ∈ entries, ¬Within d.width (rect d.width d.height entry.1) i) →
    drawn.pixels i = d.pixels i
  shown : ∀ entry ∈ entries, ∀ i, Within d.width (rect d.width d.height entry.1) i →
    drawn.pixels i = draw d.width
      (fun i => (record d.width pixels (rect d.width d.height entry.1) entry.2).getD i 0)
      (rect d.width d.height entry.1) entry.2 (fun _ => 0) i

theorem Drawn.publish {pixels : Buffer} {d drawn : Decoder} {entries : List (Nat × Nat)}
    {raw : List UInt8} {entry : Nat × Nat} {found : Record} (h : Drawn pixels d entries drawn)
    (hfits : Fits d.width d.height) (hsent : Sent entry.2) (hnew : entry.1 ∉ entries.map Prod.fst)
    (hreads : Reads d.width d.height pixels raw entry found) :
    Drawn pixels d (entries ++ [entry]) (Decoder.publish raw drawn found) := by
  obtain ⟨id, level, start⟩ := found
  obtain rfl : id = entry.1 := hreads.id
  obtain rfl : level = entry.2 := hreads.level
  have hright := hfits.right_le entry.1
  refine ⟨h.width, h.height, h.sequence, fun other => ?_, fun i hout => ?_, fun other hother i hin => ?_⟩
  · simp only [Decoder.publish, List.map_append, List.mem_append]
    by_cases heq : other = entry.1
    · subst heq
      simp
    · rw [Function.update_of_ne heq, h.valid]
      simp [heq]
  · simp only [Decoder.publish, h.width, h.height]
    rw [draw_outside hright _ (hout entry (List.mem_append_right _ List.mem_cons_self))]
    exact h.kept i fun other hother => hout other (List.mem_append_left _ hother)
  · simp only [Decoder.publish, h.width, h.height]
    rcases List.mem_append.mp hother with hbefore | hlast
    · rw [draw_outside hright]
      · exact h.shown other hbefore i hin
      · intro hentry
        refine hnew ?_
        rw [Fits.within_unique hentry hin]
        exact List.mem_map_of_mem hbefore
    · obtain rfl := List.mem_singleton.mp hlast
      exact draw_congr hright hsent hreads.bytes _ _ hin

theorem Drawn.foldl {pixels : Buffer} {d drawn : Decoder} {entries rest : List (Nat × Nat)}
    {raw : List UInt8} {records : List Record} (h : Drawn pixels d entries drawn)
    (hfits : Fits d.width d.height) (hlisted : Listed d.width d.height (entries ++ rest))
    (hreads : List.Forall₂ (Reads d.width d.height pixels raw) rest records) :
    Drawn pixels d (entries ++ rest) (records.foldl (Decoder.publish raw) drawn) := by
  induction hreads generalizing entries drawn with
  | nil => simpa using h
  | cons hone hmore ih =>
    rename_i entry found rest records
    have hnew : entry.1 ∉ entries.map Prod.fst := by
      have hnodup := hlisted.nodup
      rw [List.map_append, List.map_cons, List.nodup_append] at hnodup
      exact fun hin => hnodup.2.2 _ hin _ List.mem_cons_self rfl
    rw [List.append_cons] at hlisted ⊢
    exact ih (h.publish hfits (hlisted.sent entry (by simp)) hnew hone) hlisted

theorem Drawn.refl (pixels : Buffer) (d : Decoder) : Drawn pixels d [] d :=
  ⟨rfl, rfl, rfl, fun _ => by simp, fun _ _ => rfl, fun _ hin => absurd hin List.not_mem_nil⟩

end Zflow.Lens
