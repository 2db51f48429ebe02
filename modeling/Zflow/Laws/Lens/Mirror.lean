import Zflow.Laws.Core.Rational
import Zflow.Laws.Lens.Rounds

/-!
# The decoder mirrors the encoder

The encoder's tiles and the decoder's picture are two states that only packets keep in step. A round's
packet holds each tile that was sent once, with what the encoder stores of it (`Batch`), the decoder
reads it back (`parse_packet`), and after it each tile shows what the encoder thinks it shows
(`Mirror`). It holds in every run, with any arithmetic in place of the floating point.
-/

namespace Zflow.Lens

open Lib Encoder Decoder

variable {F : Type} {e e' start : Encoder F} {capture : Capture} {now : UInt64}

/-! ## What an encoder keeps -/

/-- An encoder that is in order, and nothing in it is later than `now`. -/
structure Sound (e : Encoder F) (now : UInt64) : Prop where
  fits : Fits e.width e.height
  placed : e.cursor < e.count
  levels : ∀ id, (e.tiles id).level = 0 ∨ Sent (e.tiles id).level
  picked : ∀ id, (e.tiles id).picked ≤ e.round
  time : ∀ id, (e.tiles id).comparedNs ≤ now

/-! ## The records of a round -/

/-- The tiles a round sent so far, each with its level: their records are what was written, and all
other tiles are as they were. -/
structure Batch (start : Encoder F) (entries : List (Nat × Nat)) (e : Encoder F) : Prop where
  width : e.width = start.width
  height : e.height = start.height
  round : e.round = start.round
  sequence : e.sequence = start.sequence
  generation : e.generation = start.generation
  raw : e.raw = written e.width e.height e.pixels entries
  listed : Listed e.width e.height entries
  picked : ∀ entry ∈ entries, (e.tiles entry.1).picked = e.round ∧ (e.tiles entry.1).level = entry.2
  level : ∀ id, id ∉ entries.map Prod.fst → (e.tiles id).level = (start.tiles id).level
  pixels : ∀ id, id ∉ entries.map Prod.fst → ∀ i, Within e.width (e.rect id) i →
    e.pixels i = start.pixels i

namespace Batch

variable {entries : List (Nat × Nat)} {r r' : Round F}

theorem alike (h : Batch start entries e) (halike : Alike e e') : Batch start entries e' := by
  refine ⟨halike.width.trans h.width, halike.height.trans h.height, halike.round.trans h.round,
    halike.sequence.trans h.sequence, halike.generation.trans h.generation, ?_, ?_, fun entry hin => ?_,
    fun id hout => ?_, fun id hout i hi => ?_⟩
  · rw [halike.raw, halike.width, halike.height, halike.pixels]
    exact h.raw
  · rw [halike.width, halike.height]
    exact h.listed
  · rw [halike.picked, halike.level, halike.round]
    exact h.picked entry hin
  · rw [halike.level]
    exact h.level id hout
  · rw [halike.width, halike.rect] at hi
    rw [halike.pixels]
    exact h.pixels id hout i hi

/-- A tile that was not picked is not in the packet yet. -/
theorem not_mem (h : Batch start entries e) {id : Nat} (hpicked : (e.tiles id).picked ≠ e.round) :
    id ∉ entries.map Prod.fst := by
  intro hin
  obtain ⟨entry, hentry, rfl⟩ := List.mem_map.mp hin
  exact hpicked (h.picked entry hentry).1

/-- What `put` stores of a capture: its bytes in the tile, and no other. -/
theorem put_pixels (hfits : Fits e.width e.height) (id level i : Nat) : (e.put id level capture now).pixels i =
      if Within e.width (e.rect id) i then capture.at_ e.width i else e.pixels i := by
  have hright : (e.rect id).x + (e.rect id).width ≤ e.width := hfits.right_le id
  simp only [Encoder.put]
  rw [fillRows_apply hright]
  by_cases hin : Within e.width (e.rect id) i
  · rw [if_pos hin, if_pos hin, Capture.at_]
    obtain ⟨hrow, hcolumn⟩ := hin
    have hy : (e.rect id).y + (i / 4 / e.width - (e.rect id).y) = i / 4 / e.width := by omega
    have hx : (e.rect id).x * 4 + ((i / 4 % e.width - (e.rect id).x) * 4 + i % 4) =
        i / 4 % e.width * 4 + i % 4 := by omega
    rw [hy, Nat.add_assoc, hx, Nat.add_assoc]
  · rw [if_neg hin, if_neg hin]

theorem put (h : Batch start entries e) (hfits : Fits e.width e.height) {id level : Nat}
    (hid : id < e.count) (hpicked : (e.tiles id).picked ≠ e.round) (hlevel : Sent level) :
    Batch start (entries ++ [(id, level)]) (e.put id level capture now) := by
  have hnew := h.not_mem hpicked
  have hothers (entry : Nat × Nat) (hin : entry ∈ entries) (i : Nat)
      (hi : Within e.width (rect e.width e.height entry.1) i) :
      (e.put id level capture now).pixels i = e.pixels i := by
    rw [put_pixels hfits, if_neg]
    intro hsame
    refine hnew ?_
    rw [Fits.within_unique hsame hi]
    exact List.mem_map_of_mem hin
  refine ⟨h.width, h.height, h.round, h.sequence, h.generation, ?_, ⟨?_, fun entry hin => ?_,
    fun entry hin => ?_⟩, fun entry hin => ?_, fun other hout => ?_, fun other hout i hi => ?_⟩
  · -- the records before are of tiles that this one does not touch
    have hbefore : written e.width e.height e.pixels entries =
        written e.width e.height (e.put id level capture now).pixels entries := by
      refine List.flatMap_congr fun entry hin => ?_
      rw [record_congr (hfits.right_le entry.1) fun i hi => (hothers entry hin i hi).symm]
    rw [written, List.flatMap_append, ← written, List.flatMap_singleton]
    simp only [Encoder.put, setTile, Encoder.rect] at hbefore ⊢
    rw [h.raw, hbefore]
    simp only [List.append_assoc]
  · rw [List.map_append, List.nodup_append]
    refine ⟨h.listed.nodup, List.nodup_singleton _, fun first hfirst second hsecond => ?_⟩
    rw [List.mem_singleton.mp hsecond]
    rintro rfl
    exact hnew hfirst
  · rcases List.mem_append.mp hin with hbefore | hlast
    · exact h.listed.id_lt entry hbefore
    · rw [List.mem_singleton.mp hlast]
      exact hid
  · rcases List.mem_append.mp hin with hbefore | hlast
    · exact h.listed.sent entry hbefore
    · rw [List.mem_singleton.mp hlast]
      exact hlevel
  · rcases List.mem_append.mp hin with hbefore | hlast
    · have hne : entry.1 ≠ id := fun heq => hnew (heq ▸ List.mem_map_of_mem hbefore)
      simpa [put_tiles_of_ne hne] using h.picked entry hbefore
    · rw [List.mem_singleton.mp hlast]
      simp
  · rw [List.map_append, List.mem_append, not_or] at hout
    have hne : other ≠ id := by simpa using hout.2
    simpa [put_tiles_of_ne hne] using h.level other hout.1
  · rw [List.map_append, List.mem_append, not_or] at hout
    have hne : other ≠ id := by simpa using hout.2
    have hi : Within e.width (e.rect other) i := hi
    have hnot : ¬Within e.width (e.rect id) i := fun hsame => hne (Fits.within_unique hi hsame)
    rw [put_pixels hfits, if_neg hnot]
    exact h.pixels other hout.1 i hi

/-- **What a round sends**: after any moves, the records are those of the tiles it sent. -/
theorem moves (hfits : Fits start.width start.height)
    (h : ∃ entries, Batch start entries r.encoder ∧ r.records = entries.length)
    (hmoves : Moves capture now Sent r r') :
    ∃ entries, Batch start entries r'.encoder ∧ r'.records = entries.length := by
  induction hmoves with
  | refl => exact h
  | tail _ hmove ih =>
    obtain ⟨entries, hbatch, hrecords⟩ := ih
    cases hmove with
    | need id every _ _ _ => exact ⟨entries, hbatch.alike (alike_need _ id capture now every), hrecords⟩
    | put id level hid hpicked hlevel =>
      refine ⟨entries ++ [(id, level)], hbatch.put ?_ hid hpicked hlevel, ?_⟩
      · rw [hbatch.width, hbatch.height]
        exact hfits
      · rw [List.length_append, List.length_singleton, ← hrecords]
        rfl
    | note _ _ _ _ _ _ =>
      refine ⟨entries, hbatch.alike ?_, hrecords⟩
      exact ⟨rfl, rfl, rfl, rfl, rfl, rfl, rfl, fun _ => rfl, fun _ => rfl⟩

end Batch

/-! ## The packet -/

/-- **What is relied on** of the compressor: what it compressed comes back, and is never empty. -/
structure Zstd.RoundTrips (zstd : Zstd) : Prop where
  decompress : ∀ raw, zstd.decompress (zstd.compress raw) raw.length = .ok raw
  nonempty : ∀ raw, zstd.compress raw ≠ []

/-- A packet around a compressed body. -/
def packed (zstd : Zstd) (sequence : UInt64) (width height records : Nat) (raw : List UInt8) :
    List UInt8 :=
  magic ++ beBytes 8 sequence.toNat ++ beBytes 2 width ++ beBytes 2 height ++ beBytes 4 records ++
    beBytes 4 raw.length ++ zstd.compress raw

section Packed

variable {zstd : Zstd} {sequence : UInt64} {width height records : Nat} {raw : List UInt8}

theorem packed_eq : packed zstd sequence width height records raw =
    magic ++ (beBytes 8 sequence.toNat ++ (beBytes 2 width ++ (beBytes 2 height ++
      (beBytes 4 records ++ (beBytes 4 raw.length ++ zstd.compress raw))))) := by
  simp only [packed, List.append_assoc]

theorem length_magic : magic.length = 4 := rfl

theorem take_packed : (packed zstd sequence width height records raw).take 4 = magic := by
  rw [packed_eq, List.take_left' length_magic]

theorem drop_packed : (packed zstd sequence width height records raw).drop header = zstd.compress raw := by
  rw [packed, List.drop_left']
  simp [length_magic, header]

theorem slice_sequence : slice (packed zstd sequence width height records raw) 4 8 = beBytes 8 sequence.toNat := by
  rw [packed_eq, slice_right length_magic.le, length_magic]
  exact slice_left (length_beBytes 8 _)

theorem slice_width : slice (packed zstd sequence width height records raw) 12 2 = beBytes 2 width := by
  rw [packed_eq, slice_right (by simp [length_magic]), slice_right (by simp [length_magic])]
  simp only [length_magic, length_beBytes]
  exact slice_left (length_beBytes 2 _)

theorem slice_height : slice (packed zstd sequence width height records raw) 14 2 = beBytes 2 height := by
  rw [packed_eq, slice_right (by simp [length_magic]), slice_right (by simp [length_magic]),
    slice_right (by simp [length_magic])]
  simp only [length_magic, length_beBytes]
  exact slice_left (length_beBytes 2 _)

theorem slice_records : slice (packed zstd sequence width height records raw) 16 4 = beBytes 4 records := by
  rw [packed_eq, slice_right (by simp [length_magic]), slice_right (by simp [length_magic]),
    slice_right (by simp [length_magic]), slice_right (by simp [length_magic])]
  simp only [length_magic, length_beBytes]
  exact slice_left (length_beBytes 4 _)

theorem slice_length : slice (packed zstd sequence width height records raw) 20 4 = beBytes 4 raw.length := by
  rw [packed_eq, slice_right (by simp [length_magic]), slice_right (by simp [length_magic]),
    slice_right (by simp [length_magic]), slice_right (by simp [length_magic]),
    slice_right (by simp [length_magic])]
  simp only [length_magic, length_beBytes]
  exact slice_left (length_beBytes 4 _)

end Packed

/-- **The decoder reads a packet back**: every check passes, and the records are those written. -/
theorem parse_packed {zstd : Zstd} (hzstd : zstd.RoundTrips) {d : Decoder}
    (hfits : Fits d.width d.height) {pixels : Buffer} {entries : List (Nat × Nat)}
    (hlisted : Listed d.width d.height entries) (hsome : entries ≠ []) :
    ∃ records, d.parse zstd (packed zstd (d.sequence + 1) d.width d.height entries.length
        (written d.width d.height pixels entries)) =
        .ok (d.sequence + 1, written d.width d.height pixels entries, records) ∧
      List.Forall₂ (Reads d.width d.height pixels (written d.width d.height pixels entries)) entries
        records := by
  have hwidth := hfits.width_le
  have hheight := hfits.height_le
  have hcount := hfits.count_le
  have hentries := hlisted.length_le
  have hraw : (written d.width d.height pixels entries).length ≤ _ := hlisted.written_le hfits
  have harea : d.width * d.height ≤ 4096 * 2160 := Nat.mul_le_mul hwidth hheight
  have hdcount : d.count = tileCount d.width d.height := rfl
  have hpos : 0 < entries.length := List.length_pos_iff.mpr hsome
  obtain ⟨records, hread, hreads⟩ := readRecords_written hfits hlisted
    (fun _ _ => List.not_mem_nil) (List.nil_append (written d.width d.height pixels entries)).symm
  refine ⟨records, ?_, hreads⟩
  have hlong : header < (packed zstd (d.sequence + 1) d.width d.height entries.length
      (written d.width d.height pixels entries)).length := by
    have hbody := List.length_pos_iff.mpr (hzstd.nonempty (written d.width d.height pixels entries))
    simp only [packed, List.length_append, length_beBytes, length_magic, header]
    omega
  have hsequence : fromBe (beBytes 8 (d.sequence + 1).toNat) = (d.sequence + 1).toNat :=
    fromBe_beBytes (d.sequence + 1).toNat_lt
  generalize hbytes : written d.width d.height pixels entries = raw at hraw hread hlong ⊢
  unfold parse
  simp only [take_packed, slice_sequence, slice_width, slice_height, slice_records, slice_length,
    drop_packed, hsequence, UInt64.ofNat_toNat]
  rw [fromBe_beBytes (show d.width < 256 ^ 2 by omega), fromBe_beBytes (show d.height < 256 ^ 2 by omega),
    fromBe_beBytes (show entries.length < 256 ^ 4 by omega),
    fromBe_beBytes (show raw.length < 256 ^ 4 by omega), if_neg (not_not_intro ⟨hlong, trivial⟩),
    if_neg (not_not_intro rfl), if_neg (not_not_intro rfl),
    if_neg (not_not_intro ⟨hpos, hdcount ▸ hentries⟩), if_neg (by omega)]
  simp only [bind, Except.bind, hzstd.decompress]
  rw [if_neg (not_not_intro rfl), show (0 : Nat) = ([] : List UInt8).length from rfl, hread]
  simp

theorem ids_of_reads {width height : Nat} {pixels : Buffer} {raw : List UInt8}
    {entries : List (Nat × Nat)} {records : List Record}
    (h : List.Forall₂ (Reads width height pixels raw) entries records) :
    records.map Record.id = entries.map Prod.fst := by
  induction h with
  | nil => rfl
  | cons hone _ ih => rw [List.map_cons, List.map_cons, hone.id, ih]

/-- Applying a packet draws its records. -/
theorem apply_packed {zstd : Zstd} (hzstd : zstd.RoundTrips) {d : Decoder} (pixels : Buffer)
    (hfits : Fits d.width d.height) {entries : List (Nat × Nat)}
    (hlisted : Listed d.width d.height entries) (hsome : entries ≠ []) :
    ∃ records drawn rects, d.parse zstd (packed zstd (d.sequence + 1) d.width d.height entries.length
        (written d.width d.height pixels entries)) =
        .ok (d.sequence + 1, written d.width d.height pixels entries, records) ∧
      records.map Record.id = entries.map Prod.fst ∧
      d.apply zstd (packed zstd (d.sequence + 1) d.width d.height entries.length
        (written d.width d.height pixels entries)) = .ok ({ drawn with sequence := d.sequence + 1 }, rects) ∧
      Drawn pixels d entries drawn := by
  obtain ⟨records, hparse, hreads⟩ := parse_packed hzstd hfits hlisted hsome
  have hdrawn := (Drawn.refl pixels d).foldl hfits (by rwa [List.nil_append]) hreads
  rw [List.nil_append] at hdrawn
  refine ⟨records, _, records.map fun record => Lens.rect d.width d.height record.id, hparse,
    ids_of_reads hreads, ?_, hdrawn⟩
  simp only [apply, bind, Except.bind, hparse]
  rfl

/-! ## The mirror -/

/-- **The two sides agree**: a tile is valid where the encoder says that it shows something, an exact
one has the bytes that the encoder stores, and a preview is the stored tile filtered and blown up. -/
structure Mirror (e : Encoder F) (d : Decoder) : Prop where
  width : d.width = e.width
  height : d.height = e.height
  sequence : d.sequence = e.sequence
  valid : ∀ id < e.count, d.valid id = true ↔ (e.tiles id).level ≠ 0
  exact : ∀ id < e.count, (e.tiles id).level = 1 → ∀ i, Within e.width (e.rect id) i →
    d.pixels i = e.pixels i
  preview : ∀ id < e.count, 1 < (e.tiles id).level → ∀ i, Within e.width (e.rect id) i →
    d.pixels i = upscale e.width
      (fun k => (record e.width e.pixels (e.rect id) (e.tiles id).level).getD k 0) (e.rect id)
      (e.tiles id).level d.pixels i

/-- What a tile shows, drawn from its stored pixels at its level. -/
def Encoder.image (e : Encoder F) (id : Nat) : Buffer :=
  draw e.width (fun k => (record e.width e.pixels (e.rect id) (e.tiles id).level).getD k 0) (e.rect id)
    (e.tiles id).level fun _ => 0

namespace Mirror

variable {d drawn : Decoder} {entries : List (Nat × Nat)}

theorem shown (h : Mirror e d) (hsound : Sound e now) {id : Nat} (hid : id < e.count)
    (hlevel : (e.tiles id).level ≠ 0) {i : Nat} (hin : Within e.width (e.rect id) i) :
    d.pixels i = e.image id i := by
  have hright : (e.rect id).x + (e.rect id).width ≤ e.width := hsound.fits.right_le id
  have hsent := (hsound.levels id).resolve_left hlevel
  by_cases hone : (e.tiles id).level = 1
  · rw [h.exact id hid hone i hin, Encoder.image, hone, draw_exact hright hin]
  · have hmore : 1 < (e.tiles id).level := by omega
    rw [h.preview id hid hmore i hin, Encoder.image,
      draw_congr hright hsent (fun _ _ => rfl) (fun _ => 0) d.pixels hin, draw, if_neg hone]

theorem of_shown (hfits : Fits e.width e.height) (hlevels : ∀ id, (e.tiles id).level = 0 ∨ Sent (e.tiles id).level)
    (hwidth : d.width = e.width) (hheight : d.height = e.height) (hsequence : d.sequence = e.sequence)
    (hvalid : ∀ id < e.count, d.valid id = true ↔ (e.tiles id).level ≠ 0)
    (hshown : ∀ id < e.count, (e.tiles id).level ≠ 0 → ∀ i, Within e.width (e.rect id) i →
      d.pixels i = e.image id i) : Mirror e d := by
  refine ⟨hwidth, hheight, hsequence, hvalid, fun id hid hone i hin => ?_, fun id hid hmore i hin => ?_⟩
  · have hright : (e.rect id).x + (e.rect id).width ≤ e.width := hfits.right_le id
    rw [hshown id hid (by omega) i hin, Encoder.image, hone, draw_exact hright hin]
  · have hright : (e.rect id).x + (e.rect id).width ≤ e.width := hfits.right_le id
    have hlevel : (e.tiles id).level ≠ 0 := by omega
    rw [hshown id hid hlevel i hin, Encoder.image, draw_congr hright ((hlevels id).resolve_left hlevel)
      (fun _ _ => rfl) (fun _ => 0) d.pixels hin, draw, if_neg (by omega)]

/-- **A round keeps the mirror**, once its records are drawn. -/
theorem batch (h : Mirror start d) (hsound : Sound start now) (hbatch : Batch start entries e)
    (hdrawn : Drawn e.pixels d entries drawn) : Mirror e drawn := by
  have hfits : Fits e.width e.height := by
    rw [hbatch.width, hbatch.height]
    exact hsound.fits
  have hwidth : d.width = e.width := h.width.trans hbatch.width.symm
  have hheight : d.height = e.height := h.height.trans hbatch.height.symm
  have hcount : e.count = start.count := by rw [Encoder.count, Encoder.count, hbatch.width, hbatch.height]
  have hrect (id : Nat) : start.rect id = e.rect id := by
    rw [Encoder.rect, Encoder.rect, hbatch.width, hbatch.height]
  have hlevel {id : Nat} (hin : id ∈ entries.map Prod.fst) :
      ∃ level, (id, level) ∈ entries ∧ (e.tiles id).level = level ∧ Sent level := by
    obtain ⟨⟨_, level⟩, hentry, rfl⟩ := List.mem_map.mp hin
    exact ⟨level, hentry, (hbatch.picked _ hentry).2, hbatch.listed.sent _ hentry⟩
  refine of_shown hfits (fun id => ?_) (hdrawn.width.trans hwidth) (hdrawn.height.trans hheight)
    (hdrawn.sequence.trans (h.sequence.trans hbatch.sequence.symm)) (fun id hid => ?_)
    fun id hid hshows i hin => ?_
  · by_cases hin : id ∈ entries.map Prod.fst
    · obtain ⟨level, -, heq, hsent⟩ := hlevel hin
      exact .inr (heq ▸ hsent)
    · rw [hbatch.level id hin]
      exact hsound.levels id
  · rw [hdrawn.valid]
    by_cases hin : id ∈ entries.map Prod.fst
    · obtain ⟨level, -, heq, hsent⟩ := hlevel hin
      have hpos := hsent.pos
      simp only [hin, or_true, true_iff]
      omega
    · rw [h.valid id (hcount ▸ hid), hbatch.level id hin]
      simp [hin]
  · by_cases hsent : id ∈ entries.map Prod.fst
    · obtain ⟨level, hentry, heq, -⟩ := hlevel hsent
      have hdraw := hdrawn.shown (id, level) hentry i
      simp only [hwidth, hheight] at hdraw
      rw [hdraw hin, Encoder.image, heq]
      rfl
    · -- the tile is as it was, for the encoder and on the screen
      have hkept : drawn.pixels i = d.pixels i := by
        refine hdrawn.kept i fun entry hentry hother => hsent ?_
        rw [hwidth, hheight] at hother
        rw [Fits.within_unique hin hother]
        exact List.mem_map_of_mem hentry
      have hlevel' := hbatch.level id hsent
      have hin' : Within start.width (start.rect id) i := by
        rw [hrect, ← hbatch.width]
        exact hin
      have hrecord : record e.width e.pixels (e.rect id) (e.tiles id).level =
          record start.width start.pixels (start.rect id) (start.tiles id).level := by
        rw [hrect, ← hbatch.width, hlevel']
        exact record_congr (hfits.right_le id) (hbatch.pixels id hsent)
      rw [hkept, h.shown hsound (hcount ▸ hid) (hlevel' ▸ hshows) hin', Encoder.image, Encoder.image,
        hrecord, hrect, hlevel', hbatch.width]

end Mirror

/-! ## A packet is taken -/

namespace Encoder

theorem begin_raw (e : Encoder F) (now : UInt64) : (e.begin_ now).raw = [] := by
  unfold begin_
  simp only
  split <;> rfl

end Encoder

namespace Sound

variable {later : UInt64} {r r' : Round F}

theorem mono (h : Sound e now) (hlater : now ≤ later) : Sound e later :=
  ⟨h.fits, h.placed, h.levels, h.picked, fun id => UInt64.le_trans (h.time id) hlater⟩

theorem begin_ (h : Sound e now) : Sound (e.begin_ now) now := by
  have hpicked (id : Nat) : (e.tiles id).picked ≤ e.round + 1 := (h.picked id).trans (Nat.le_succ _)
  unfold Encoder.begin_
  simp only
  split <;> exact ⟨h.fits, h.placed, h.levels, hpicked, h.time⟩

theorem changed (h : Sound e now) (damage : Option (List Rect)) : Sound (e.changed damage) now := by
  cases damage with
  | none => exact ⟨h.fits, h.placed, h.levels, h.picked, h.time⟩
  | some damage =>
    refine ⟨h.fits, h.placed, fun id => ?_, fun id => ?_, fun id => ?_⟩
    all_goals
      simp only [Encoder.changed]
      split
    · exact h.levels id
    · exact h.levels id
    · exact h.picked id
    · exact h.picked id
    · exact h.time id
    · exact h.time id

theorem need (h : Sound e now) (id : Nat) (capture : Capture) (every : UInt64) :
    Sound (e.need id capture now every).2 now := by
  have halike := alike_need e id capture now every
  refine ⟨?_, ?_, fun other => ?_, fun other => ?_, fun other => ?_⟩
  · rw [halike.width, halike.height]
    exact h.fits
  · rw [need_encoder]
    split <;> exact h.placed
  · rw [halike.level]
    exact h.levels other
  · rw [halike.picked, halike.round]
    exact h.picked other
  · rw [need_encoder]
    split
    · by_cases hsame : other = id
      · subst hsame
        simp
      · simpa [compared_tiles_of_ne hsame] using h.time other
    · exact h.time other

theorem put (h : Sound e now) (id : Nat) {level : Nat} (hlevel : Sent level) (capture : Capture) :
    Sound (e.put id level capture now) now := by
  refine ⟨h.fits, h.placed, fun other => ?_, fun other => ?_, fun other => ?_⟩
  all_goals
    by_cases hsame : other = id
    · subst hsame
      simp [hlevel]
  · simpa [put_tiles_of_ne hsame] using h.levels other
  · simpa [put_tiles_of_ne hsame] using h.picked other
  · simpa [put_tiles_of_ne hsame] using h.time other

theorem moves (h : Sound r.encoder now) (hmoves : Moves capture now Sent r r') : Sound r'.encoder now := by
  induction hmoves with
  | refl => exact h
  | tail _ hmove ih =>
    cases hmove with
    | need id every _ _ _ => exact ih.need id capture every
    | put id level _ _ hlevel => exact ih.put id hlevel capture
    | note _ _ _ _ _ hcursor => exact ⟨ih.fits, hcursor, ih.levels, ih.picked, ih.time⟩

end Sound

theorem Mirror.begin_ {d : Decoder} (h : Mirror e d) (now : UInt64) : Mirror (e.begin_ now) d := by
  unfold Encoder.begin_
  simp only
  split <;> exact ⟨h.width, h.height, h.sequence, h.valid, h.exact, h.preview⟩

/-- A capture that arrives changes nothing of what is shown, nor of what is stored. -/
theorem Mirror.changed {d : Decoder} (h : Mirror e d) (damage : Option (List Rect)) : Mirror (e.changed damage) d := by
  cases damage with
  | none => exact ⟨h.width, h.height, h.sequence, h.valid, h.exact, h.preview⟩
  | some damage =>
    have hlevel (id : Nat) : ((e.changed (some damage)).tiles id).level = (e.tiles id).level := by
      simp only [Encoder.changed]
      split <;> rfl
    refine ⟨h.width, h.height, h.sequence, fun id hid => ?_, fun id hid hone => ?_, fun id hid hmore => ?_⟩
    · rw [hlevel]
      exact h.valid id hid
    · rw [hlevel] at hone
      exact h.exact id hid hone
    · rw [hlevel] at hmore ⊢
      exact h.preview id hid hmore

/-- **What a packet does** to the other side: a body is taken whole, with each tile in it once, and the
two sides agree afterwards. -/
def Delivers (zstd : Zstd) (d : Decoder) (encoded : Encoded F) : Prop :=
  match encoded.packet.body with
  | none => Mirror encoded.encoder d
  | some body => ∃ sequence raw records decoder rects,
      d.parse zstd body = .ok (sequence, raw, records) ∧ (records.map Record.id).Nodup ∧
        d.apply zstd body = .ok (decoder, rects) ∧ Mirror encoded.encoder decoder

section Runs

variable [LensF64 F] {zstd : Zstd} {encoded : Encoded F} {d : Decoder} {view : Option (View F)}
  {budget : Budget}

theorem Sound.finish (h : Sound e now) (records : Nat) : Sound (e.finish zstd records).1 now := by
  unfold Encoder.finish
  split
  · exact h
  · exact ⟨h.fits, h.placed, h.levels, h.picked, h.time⟩

/-- Closing a round that sent some tiles delivers them. -/
theorem delivers_finish (hzstd : zstd.RoundTrips) (h : Mirror start d) (hsound : Sound start now)
    {entries : List (Nat × Nat)} (hbatch : Batch start entries e) (exact more : Bool) (looks : List Look) :
    Delivers zstd d ⟨(e.finish zstd entries.length).1, ⟨(e.finish zstd entries.length).2, exact, more⟩, looks⟩ := by
  have hwidth : d.width = e.width := h.width.trans hbatch.width.symm
  have hheight : d.height = e.height := h.height.trans hbatch.height.symm
  have hsequence : d.sequence = e.sequence := h.sequence.trans hbatch.sequence.symm
  by_cases hnone : entries = []
  · subst hnone
    exact h.batch hsound hbatch (.refl e.pixels d)
  · have hfits : Fits d.width d.height := by
      rw [h.width, h.height]
      exact hsound.fits
    have hlisted : Listed d.width d.height entries := by
      rw [hwidth, hheight]
      exact hbatch.listed
    obtain ⟨records, drawn, rects, hparse, hids, happly, hdrawn⟩ :=
      apply_packed hzstd e.pixels hfits hlisted hnone
    have hmirror := h.batch hsound hbatch hdrawn
    have hlength : entries.length ≠ 0 := fun hzero => hnone (List.length_eq_zero_iff.mp hzero)
    rw [hwidth, hheight, hsequence, ← hbatch.raw] at hparse happly
    rw [Encoder.finish, if_neg hlength]
    refine ⟨_, _, records, _, rects, hparse, hids ▸ hbatch.listed.nodup, happly, ?_⟩
    exact ⟨hmirror.width, hmirror.height, rfl, hmirror.valid, hmirror.exact, hmirror.preview⟩

/-- What `encode` answers is a round that was closed. -/
theorem encode_eq_ok (h : e.encode zstd capture view budget now = .ok encoded) :
    e.covers capture = true ∧ encoded = ⟨((e.round_ capture view budget now).1.encoder.finish zstd
        (e.round_ capture view budget now).1.records).1,
      ⟨((e.round_ capture view budget now).1.encoder.finish zstd
        (e.round_ capture view budget now).1.records).2, (e.round_ capture view budget now).2.1,
        (e.round_ capture view budget now).2.2⟩, (e.round_ capture view budget now).1.looks⟩ := by
  unfold encode at h
  split at h
  · cases h
  · rename_i hcovers
    split at h
    · cases h
    · exact ⟨by simpa using hcovers, (Except.ok.inj h).symm⟩

omit [LensF64 F] in
/-- A round begins with nothing sent. -/
theorem batch_fresh (e : Encoder F) (now : UInt64) : Batch (e.begin_ now) [] (Round.fresh e now).encoder := by
  refine ⟨rfl, rfl, rfl, rfl, rfl, begin_raw e now, ⟨List.nodup_nil, ?_, ?_⟩, ?_, fun _ _ => rfl,
    fun _ _ _ _ => rfl⟩
  all_goals exact fun _ hin => absurd hin List.not_mem_nil

/-- The tiles that a round sent. -/
theorem exists_batch (hsound : Sound e now) (capture : Capture) (view : Option (View F)) (budget : Budget) :
    ∃ entries, Batch (e.begin_ now) entries (e.round_ capture view budget now).1.encoder ∧
      (e.round_ capture view budget now).1.records = entries.length :=
  Batch.moves hsound.begin_.fits ⟨[], batch_fresh e now, rfl⟩
    (moves_round capture view budget hsound.placed hsound.picked hsound.time).1

theorem Sound.encode (h : Sound e now) (hencode : e.encode zstd capture view budget now = .ok encoded) :
    Sound encoded.encoder now := by
  obtain ⟨-, rfl⟩ := encode_eq_ok hencode
  have hbegun := h.begin_
  exact (hbegun.moves (moves_round capture view budget h.placed h.picked h.time).1).finish _

/-- **A packet is taken**, and the two sides agree afterwards. -/
theorem delivers_encode (hzstd : zstd.RoundTrips) (h : Mirror e d) (hsound : Sound e now)
    (hencode : e.encode zstd capture view budget now = .ok encoded) : Delivers zstd d encoded := by
  obtain ⟨-, rfl⟩ := encode_eq_ok hencode
  obtain ⟨entries, hbatch, hrecords⟩ := exists_batch hsound capture view budget
  rw [hrecords]
  exact delivers_finish hzstd (h.begin_ now) hsound.begin_ hbatch _ _ _

/-- A new encoder: the other side has nothing. -/
theorem Encoder.new_eq_ok {width height : Nat} (h : Encoder.new F width height = .ok e) : Fits width height ∧ e = {
      width, height, pixels := fun _ => 0, tiles := fun _ => ⟨0, false, 0, 0, 0, 0⟩
      generation := 1, round := 0, cursor := 0, clean := 0, deferred := none, sequence := 0
      ratio := Core.F64.div (Core.F64.ofNat 35) (Core.F64.ofNat 100), raw := [] } := by
  unfold Encoder.new at h
  cases hdimensions : dimensions width height with
  | error _ =>
    rw [hdimensions] at h
    cases h
  | ok _ =>
    rw [hdimensions] at h
    cases h
    exact ⟨dimensions_eq_ok hdimensions, rfl⟩

omit [LensF64 F] in
theorem Decoder.new_eq_ok {width height : Nat} (h : Decoder.new width height = .ok d) :
    d = ⟨width, height, fun _ => 0, fun _ => false, 0⟩ := by
  unfold Decoder.new at h
  cases hdimensions : dimensions width height with
  | error _ =>
    rw [hdimensions] at h
    cases h
  | ok _ =>
    rw [hdimensions] at h
    cases h
    rfl

/-- Two sides that are in order and agree. -/
structure InStep (sides : Sides F) : Prop where
  sound : Sound sides.encoder sides.now
  mirror : Mirror sides.encoder sides.decoder

namespace InStep

variable {sides next : Sides F} {event : Event F}

/-- Two sides of one desktop start in step. -/
theorem of_new {width height : Nat} {encoder : Encoder F} {decoder : Decoder}
    (hencoder : Encoder.new F width height = .ok encoder) (hdecoder : Decoder.new width height = .ok decoder)
    (picture : Buffer) (now : UInt64) : InStep ⟨encoder, decoder, picture, now⟩ := by
  obtain ⟨hfits, rfl⟩ := Encoder.new_eq_ok hencoder
  obtain rfl := Decoder.new_eq_ok hdecoder
  refine ⟨⟨hfits, ?_, fun _ => .inl rfl, fun _ => Nat.zero_le 0, fun _ => UInt64.zero_le⟩,
    ⟨rfl, rfl, rfl, fun _ _ => by simp, fun _ _ hone => ?_, fun _ _ hmore => ?_⟩⟩
  · have htile : 0 < tileSize := by decide
    exact Nat.mul_pos ((Nat.zero_le _).trans_lt (div_lt_divCeil htile hfits.width_pos))
      ((Nat.zero_le _).trans_lt (div_lt_divCeil htile hfits.height_pos))
  · cases hone
  · exact absurd hmore (Nat.not_lt_zero 1)

/-- **A step keeps two sides in step.** -/
theorem step (hzstd : zstd.RoundTrips) (h : InStep sides) (hstep : Sides.step zstd event sides = some next) :
    InStep next := by
  cases event with
  | changed picture damage =>
    cases hstep
    exact ⟨h.sound.changed damage, h.mirror.changed damage⟩
  | encode capture view budget now =>
    simp only [Sides.step] at hstep
    split at hstep
    · cases hstep
    · rename_i hlater
      have hsound : Sound sides.encoder now := h.sound.mono (UInt64.not_lt.mp hlater)
      split at hstep
      · cases hstep
        exact ⟨hsound, h.mirror⟩
      · rename_i encoded hencode
        have hdelivers := delivers_encode hzstd h.mirror hsound hencode
        have hsound' := hsound.encode hencode
        unfold Delivers at hdelivers
        split at hdelivers
        · rename_i hbody
          rw [hbody] at hstep
          cases hstep
          exact ⟨hsound', hdelivers⟩
        · rename_i body hbody
          obtain ⟨_, _, _, decoder, rects, -, -, happly, hmirror⟩ := hdelivers
          simp only [hbody, happly] at hstep
          cases hstep
          exact ⟨hsound', hmirror⟩

/-- **A run keeps two sides in step.** -/
theorem of_reaches (hzstd : zstd.RoundTrips) {start : Sides F} {calm : Sides F → Event F → Prop}
    (hstart : InStep start) (hrun : (Sides.step zstd).Reaches calm start sides) : InStep sides :=
  hrun.invariant hstart fun _ _ _ h _ hstep => h.step hzstd hstep

end InStep

/-- **The decoder mirrors the encoder.** In every run of two sides that start with one desktop's size,
whatever is captured, reported as damage, looked at and budgeted, each packet is taken, lists no tile
twice and leaves the two sides in agreement. -/
theorem tiles_mirrored (hzstd : zstd.RoundTrips) {width height : Nat} {encoder : Encoder F}
    {decoder : Decoder} (hencoder : Encoder.new F width height = .ok encoder)
    (hdecoder : Decoder.new width height = .ok decoder) {picture : Buffer} {now : UInt64} {sides : Sides F}
    (hrun : (Sides.step zstd).Reaches (fun _ _ => True) ⟨encoder, decoder, picture, now⟩ sides) :
    Mirror sides.encoder sides.decoder ∧ ∀ capture view budget later encoded, sides.now ≤ later →
        sides.encoder.encode zstd capture view budget later = .ok encoded →
          Delivers zstd sides.decoder encoded := by
  have hsteady := InStep.of_reaches hzstd (.of_new hencoder hdecoder picture now) hrun
  refine ⟨hsteady.mirror, fun capture view budget later encoded hlater hencode => ?_⟩
  have hsound := hsteady.sound.mono hlater
  exact delivers_encode hzstd hsteady.mirror hsound hencode

end Runs

/-! ## A small desktop -/

instance : LensF64 ℚ where
  toUsize x := ⌊x⌋.toNat
  totalLe x y := decide (x ≤ y)

/-- A compressor that stores what it is given in a frame. -/
def Zstd.stored : Zstd where
  compress raw := [0x28, 0xB5, 0x2F, 0xFD] ++ raw
  decompress packed most :=
    if packed.take 4 = [0x28, 0xB5, 0x2F, 0xFD] ∧ packed.length ≤ most + 4 then .ok (packed.drop 4)
    else .error "not a frame"

theorem Zstd.stored_roundTrips : Zstd.stored.RoundTrips where
  decompress raw := by simp [Zstd.stored]
  nonempty raw := by simp [Zstd.stored]

/-- Two tiles, the second one pixel wide. -/
def desk : Sides ℚ where
  encoder := ⟨65, 1, fun _ => 0, fun _ => ⟨0, false, 0, 0, 0, 0⟩, 1, 0, 0, 0, none, 0, 35 / 100, []⟩
  decoder := ⟨65, 1, fun _ => 0, fun _ => false, 0⟩
  picture := fun _ => 0
  now := 0

/-- A capture of the desk. -/
def shade (step : Nat) : Capture := ⟨fun i => UInt8.ofNat (i * step), 260, 260⟩

/-- A short budget leaves a preview beside an exact tile; the next packet is exact. -/
theorem tiles_mirrored_desk : ∃ sides : Sides ℚ, (Sides.step .stored).Reaches (fun _ _ => True) desk sides ∧
      (sides.encoder.tiles 0).level = 4 ∧ (sides.encoder.tiles 1).level = 1 ∧ Mirror sides.encoder sides.decoder ∧
          ∃ encoded, sides.encoder.encode .stored (shade 3) none ⟨500, 500⟩ 5 = .ok encoded ∧
            encoded.packet.exact = true ∧ Delivers .stored sides.decoder encoded := by
  have hrun : ((System.guarded (Sides.step .stored) fun _ _ => True).exec
      [.changed ((shade 3).at_ 65) none, .encode (shade 3) none ⟨20, 20⟩ 0] desk).any (fun sides =>
        decide (sides.now ≤ 5) && decide ((sides.encoder.tiles 0).level = 4) &&
          decide ((sides.encoder.tiles 1).level = 1) &&
            match sides.encoder.encode .stored (shade 3) none ⟨500, 500⟩ 5 with
            | .ok encoded => encoded.packet.exact
            | .error _ => false) = true := by decide +kernel
  obtain ⟨sides, hreaches, hsides⟩ := System.exists_reaches_of_exec hrun
  simp only [Bool.and_eq_true, decide_eq_true_eq] at hsides
  obtain ⟨⟨⟨hnow, hzero⟩, hone⟩, hencoded⟩ := hsides
  obtain ⟨hmirror, hdelivers⟩ := tiles_mirrored Zstd.stored_roundTrips (rfl : Encoder.new ℚ 65 1 = _) rfl hreaches
  refine ⟨sides, hreaches, hzero, hone, hmirror, ?_⟩
  split at hencoded
  · rename_i encoded hencode
    exact ⟨encoded, hencode, hencoded, hdelivers _ _ _ 5 encoded hnow hencode⟩
  · cases hencoded

end Zflow.Lens
