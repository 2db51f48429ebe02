import Zflow.Laws.Lens.Mirror
import Zflow.Lens.Apply

/-!
# Hostile packets

The decoder that writes as it goes does what the one that validates first does (`applyInPlace_eq`): its
checks keep every index in bounds and every number in range, and nothing is written before the last of them.
One number is not checked: the one of the next packet, once the last was the largest there is
(`apply_total_iff`).
-/

namespace Zflow.Lens

open Lib Decoder Failure

variable {d : Decoder} {raw packet : List UInt8} {zstd : Zstd}

/-! ## Checks that pass -/

namespace Failure

@[simp] theorem machine_some {α : Type} (a : α) : machine (some a) = .ok a := rfl

@[simp] theorem machine_none {α : Type} : machine (none : Option α) = .error .stopped := rfl

theorem ensure_of {holds : Prop} [Decidable holds] {message : String} (h : holds) :
    ensure holds message = .ok () := if_pos h

theorem ensure_not {holds : Prop} [Decidable holds] {message : String} (h : ¬holds) :
    ensure holds message = .error (.refused message) := if_neg h

theorem stretch_of_le {start len length : Nat} (h : start + len ≤ length) : stretch start len length = some () :=
  if_pos h

theorem field_of_le {bytes : List UInt8} {start len : Nat} (h : start + len ≤ bytes.length) :
    field bytes start len = .ok (fromBe (slice bytes start len)) := by
  unfold field
  rw [stretch_of_le h]
  rfl

end Failure

theorem divCeilUsize_of_pos {a b : Nat} (h : 0 < b) : divCeilUsize a b = some (divCeil a b) :=
  if_neg (Nat.ne_of_gt h)

/-- A tile of the desktop is where the code says, in machine arithmetic too. -/
theorem rectUsize_eq {width height id : Nat} (hfits : Fits width height) (hid : id < tileCount width height) :
    rectUsize width height id = some (rect width height id) := by
  have hx := hfits.x_lt id
  have hy : (rect width height id).y < height := Fits.y_lt hid
  have hwidth := hfits.width_le
  have hheight := hfits.height_le
  have hcolumns := hfits.columns_pos
  simp only [rect] at hx hy
  have hmost : 4096 ≤ u64Max := by decide
  unfold rectUsize
  rw [divCeilUsize_of_pos (by decide), Option.bind_eq_bind, Option.bind_some, if_neg (Nat.ne_of_gt hcolumns),
    checkedMulU64_of_le (by omega), Option.bind_some, checkedMulU64_of_le (by omega), Option.bind_some,
    checkedSubU64_of_le (by omega), Option.bind_some, checkedSubU64_of_le (by omega), Option.bind_some]
  rfl

theorem recordSizeUsize_eq {width height level : Nat} (hwidth : width ≤ 64) (hheight : height ≤ 64)
    (hlevel : Sent level) : recordSizeUsize width height level = some (recordSize width height level) := by
  have hcolumns : divCeil width level ≤ 64 := (divCeil_le_self hlevel.pos).trans hwidth
  have hrows : divCeil height level ≤ 64 := (divCeil_le_self hlevel.pos).trans hheight
  have harea : divCeil width level * divCeil height level ≤ 4096 := Nat.mul_le_mul hcolumns hrows
  have hmost : 16384 ≤ u64Max := by decide
  unfold recordSizeUsize
  rw [divCeilUsize_of_pos hlevel.pos, divCeilUsize_of_pos hlevel.pos]
  simp only [Option.bind_eq_bind, Option.bind_some]
  rw [checkedMulU64_of_le (by omega), Option.bind_some, checkedMulU64_of_le (by omega)]
  rfl

theorem recordSizeUsize_tile {width height level : Nat} (id : Nat) (hlevel : Sent level) :
    recordSizeUsize (rect width height id).width (rect width height id).height level =
      some (recordSize (rect width height id).width (rect width height id).height level) :=
  recordSizeUsize_eq (Nat.min_le_left _ _) (Nat.min_le_left _ _) hlevel

/-! ## Reading the records -/

/-- A record that was read: its tile is on the desktop, and its pixels are in the body. -/
structure Held (d : Decoder) (raw : List UInt8) (record : Record) : Prop where
  id_lt : record.id < d.count
  sent : Sent record.level
  start_le : record.start + recordSize (rect d.width d.height record.id).width
    (rect d.width d.height record.id).height record.level ≤ raw.length

/-- One record is read the same, and is in the body. -/
theorem readRecordUsize_eq (hfits : Fits d.width d.height) (hraw : raw.length ≤ 2 ^ 60) {offset : Nat}
    (hoffset : offset ≤ raw.length) (seen : List Nat) :
    d.readRecordUsize raw offset seen = (d.readRecord raw offset seen).mapError .refused ∧
      ∀ record next, d.readRecord raw offset seen = .ok (record, next) →
        Held d raw record ∧ next ≤ raw.length := by
  have hmost : 2 ^ 61 ≤ u64Max := by decide
  unfold readRecordUsize readRecord
  by_cases hshort : raw.length < offset + 5
  · rw [if_pos hshort, checkedAddU64_of_le (by omega)]
    simp only [machine_some, bind, Except.bind, ensure_not (Nat.not_le_of_lt hshort)]
    exact ⟨rfl, nofun⟩
  have hid : offset + 4 ≤ raw.length := by omega
  have hlevel : offset + 4 + 1 ≤ raw.length := by omega
  rw [if_neg hshort, checkedAddU64_of_le (by omega)]
  simp only [machine_some, bind, Except.bind, ensure_of (Nat.le_of_not_lt hshort), field_of_le hid,
    stretch_of_le hlevel]
  generalize fromBe (slice raw offset 4) = id
  generalize (raw.getD (offset + 4) 0).toNat = level
  by_cases hnew : id < d.count ∧ id ∉ seen
  swap
  · rw [if_pos hnew, ensure_not hnew]
    exact ⟨rfl, nofun⟩
  rw [if_neg (not_not_intro hnew), ensure_of hnew]
  by_cases hsent : level = 1 ∨ level = 2 ∨ level = 4
  swap
  · simp only [if_pos hsent, ensure_not hsent]
    exact ⟨rfl, nofun⟩
  have hsmall : recordSize (rect d.width d.height id).width (rect d.width d.height id).height level ≤ 16384 :=
    recordSize_tile_le id hsent
  simp only [if_neg (not_not_intro hsent), ensure_of hsent, rectUsize_eq hfits hnew.1, machine_some,
    recordSizeUsize_tile id hsent]
  generalize hsame : recordSize (rect d.width d.height id).width (rect d.width d.height id).height level = size
    at hsmall
  rw [checkedAddU64_of_le (by omega)]
  simp only [machine_some]
  by_cases hpixels : raw.length < offset + 5 + size
  · rw [if_pos hpixels, ensure_not (Nat.not_le_of_lt hpixels)]
    exact ⟨rfl, nofun⟩
  · rw [if_neg hpixels, ensure_of (Nat.le_of_not_lt hpixels)]
    refine ⟨rfl, ?_⟩
    rintro record next ⟨⟩
    exact ⟨⟨hnew.1, hsent, hsame ▸ Nat.le_of_not_lt hpixels⟩, Nat.le_of_not_lt hpixels⟩

/-- The records are read the same, and each is in the body. -/
theorem readRecordsUsize_eq (hfits : Fits d.width d.height) (hraw : raw.length ≤ 2 ^ 60) (n : Nat) {offset : Nat}
    (hoffset : offset ≤ raw.length) (seen : List Nat) :
    d.readRecordsUsize raw n offset seen = (d.readRecords raw n offset seen).mapError .refused ∧
      ∀ records last, d.readRecords raw n offset seen = .ok (records, last) →
        ∀ record ∈ records, Held d raw record := by
  induction n generalizing offset seen with
  | zero =>
    refine ⟨rfl, ?_⟩
    rintro records last ⟨⟩
    exact fun _ hin => absurd hin List.not_mem_nil
  | succ n ih =>
    obtain ⟨hone, hfound⟩ := readRecordUsize_eq hfits hraw hoffset seen
    simp only [readRecordsUsize, readRecords, hone, bind, Except.bind]
    cases hread : d.readRecord raw offset seen with
    | error message =>
      refine ⟨rfl, fun records last h => ?_⟩
      cases h
    | ok found =>
      obtain ⟨record, next⟩ := found
      obtain ⟨hheld, hnext⟩ := hfound record next hread
      obtain ⟨hrest, hall⟩ := ih hnext (record.id :: seen)
      simp only [Except.mapError, hrest]
      cases hothers : d.readRecords raw n next (record.id :: seen) with
      | error message =>
      refine ⟨rfl, fun records last h => ?_⟩
      cases h
      | ok others =>
        obtain ⟨records, last⟩ := others
        refine ⟨rfl, ?_⟩
        rintro _ _ ⟨⟩
        intro other hother
        rcases List.mem_cons.mp hother with rfl | hin
        · exact hheld
        · exact hall records last hothers other hin

/-! ## Writing them -/

/-- A row of a tile is in the picture. -/
theorem rowStart_eq (hfits : Fits d.width d.height) {id row : Nat} (hid : id < d.count)
    (hrow : row < (rect d.width d.height id).height) : d.rowStart (rect d.width d.height id) row =
      some ((((rect d.width d.height id).y + row) * d.width + (rect d.width d.height id).x) * 4) := by
  have hright := hfits.right_le id
  have hbottom : (rect d.width d.height id).y + (rect d.width d.height id).height ≤ d.height := by
    have hy : (rect d.width d.height id).y < d.height := Fits.y_lt hid
    simp only [rect] at hy ⊢
    omega
  have hwidth := hfits.width_le
  have hheight := hfits.height_le
  have hmost : 2 ^ 60 ≤ u64Max := by decide
  generalize rect d.width d.height id = tile at hrow hright hbottom ⊢
  have hline : (tile.y + row + 1) * d.width ≤ d.height * d.width := Nat.mul_le_mul_right _ (by omega)
  have harea : d.height * d.width ≤ 2160 * 4096 := Nat.mul_le_mul hheight hwidth
  have hlength : d.length = d.height * d.width * 4 := by
    rw [Decoder.length, Nat.mul_comm d.width d.height]
  rw [Nat.add_mul, Nat.one_mul] at hline
  unfold rowStart
  rw [checkedAddU64_of_le (by omega), Option.bind_eq_bind, Option.bind_some, checkedMulU64_of_le (by omega),
    Option.bind_some, checkedAddU64_of_le (by omega), Option.bind_some, checkedMulU64_of_le (by omega),
    Option.bind_some, checkedMulU64_of_le (by omega), Option.bind_some, stretch_of_le (by omega)]
  rfl

theorem lift_machine {α : Type} {x : Option α} {a : α} (h : x = some a) :
    (Act.lift id (machine x) : Act Failure Decoder α) d = (.ok a, d) := by
  rw [h]
  rfl

/-- A decoder with a row of a tile written. -/
def withRow (d : Decoder) (tile : Rect) (row : Nat) (value : Buffer) : Decoder :=
  { d with pixels := d.pixels.fill (((tile.y + row) * d.width + tile.x) * 4) (tile.width * 4) value }

section Rows

variable {record : Record} {row : Nat}

/-- A row of an exact tile is copied. -/
theorem copyRow_eq (hfits : Fits d.width d.height) (hraw : raw.length ≤ 2 ^ 60) (hheld : Held d raw record)
    (hlevel : record.level = 1) (hrow : row < (rect d.width d.height record.id).height) :
    copyRow raw record.start (rect d.width d.height record.id) row d =
      (.ok (), withRow d (rect d.width d.height record.id) row fun k =>
        raw.getD (record.start + (row * (rect d.width d.height record.id).width * 4 + k)) 0) := by
  have hstart := rowStart_eq hfits hheld.id_lt hrow
  have hbody := hheld.start_le
  have hmost : 2 ^ 60 ≤ u64Max := by decide
  rw [hlevel, recordSize, divCeil_one, divCeil_one] at hbody
  generalize rect d.width d.height record.id = tile at hstart hbody hrow ⊢
  have hrows : (row + 1) * tile.width ≤ tile.width * tile.height := by
    rw [Nat.mul_comm tile.width]
    exact Nat.mul_le_mul_right _ hrow
  rw [Nat.add_mul, Nat.one_mul] at hrows
  have hsource : (do
      let source ← checkedAddU64 record.start (← checkedMulU64 (← checkedMulU64 row tile.width) 4)
      stretch source (tile.width * 4) raw.length
      return source) = some (record.start + row * tile.width * 4) := by
    rw [checkedMulU64_of_le (show row * tile.width ≤ u64Max by omega), Option.bind_eq_bind, Option.bind_some,
      checkedMulU64_of_le (show row * tile.width * 4 ≤ u64Max by omega), Option.bind_some,
      checkedAddU64_of_le (by omega), Option.bind_some, stretch_of_le (by omega)]
    rfl
  unfold copyRow
  rw [Act.bind_of_ok (Act.read_apply d), Act.bind_of_ok (lift_machine hstart),
    Act.bind_of_ok (lift_machine hsource), Act.change_apply]
  simp only [withRow, Nat.add_assoc]

/-- A row of a preview is blown up. -/
theorem upscaleRow_eq (hfits : Fits d.width d.height) (hraw : raw.length ≤ 2 ^ 60) (hheld : Held d raw record)
    (hrow : row < (rect d.width d.height record.id).height) :
    upscaleRow raw record.start (rect d.width d.height record.id) record.level row d =
      (.ok (), withRow d (rect d.width d.height record.id) row fun k => raw.getD (record.start +
        (row / record.level * divCeil (rect d.width d.height record.id).width record.level * 4 +
          k / 4 / record.level * 4 + k % 4)) 0) := by
  have hstart := rowStart_eq hfits hheld.id_lt hrow
  have hbody := hheld.start_le
  have hpos := hheld.sent.pos
  have hmost : 2 ^ 60 ≤ u64Max := by decide
  rw [recordSize] at hbody
  generalize rect d.width d.height record.id = tile at hstart hbody hrow ⊢
  have hline := div_lt_divCeil hpos hrow
  have hrows : (row / record.level + 1) * divCeil tile.width record.level ≤
      divCeil tile.width record.level * divCeil tile.height record.level := by
    rw [Nat.mul_comm (divCeil tile.width _)]
    exact Nat.mul_le_mul_right _ hline
  have hcolumns : ((List.range tile.width).all fun column =>
      decide (column / record.level < divCeil tile.width record.level)) = true := by
    rw [List.all_eq_true]
    intro column hcolumn
    exact decide_eq_true (div_lt_divCeil hpos (List.mem_range.mp hcolumn))
  rw [Nat.add_mul, Nat.one_mul] at hrows
  have hsource : (do
      let columns ← divCeilUsize tile.width record.level
      stretch record.start 0 raw.length
      let skipped ← checkedMulU64 (← checkedMulU64 (row / record.level) columns) 4
      stretch skipped (← checkedMulU64 columns 4) (raw.length - record.start)
      if (List.range tile.width).all fun column => column / record.level < columns then
        return record.start + skipped
      else none) = some (record.start + row / record.level * divCeil tile.width record.level * 4) := by
    rw [divCeilUsize_of_pos hpos, Option.bind_eq_bind, Option.bind_some,
      stretch_of_le (show record.start + 0 ≤ raw.length by omega), Option.bind_eq_bind, Option.bind_some,
      checkedMulU64_of_le (by omega), Option.bind_some, checkedMulU64_of_le (by omega), Option.bind_some,
      checkedMulU64_of_le (by omega), Option.bind_some, stretch_of_le (by omega), Option.bind_some, if_pos hcolumns]
    rfl
  unfold upscaleRow
  rw [Act.bind_of_ok (Act.read_apply d), Act.bind_of_ok (lift_machine hsource),
    Act.bind_of_ok (lift_machine hstart), Act.change_apply]
  simp only [withRow, Nat.add_assoc]

/-- The rows of a tile, one after the other. -/
theorem forRows_eq {act : Nat → Act Failure Decoder Unit} {tile : Rect} {value : Nat → Buffer} {rows : List Nat}
    (hact : ∀ row ∈ rows, ∀ pixels, act row { d with pixels } =
      (.ok (), withRow { d with pixels } tile row (value row))) (pixels : Buffer) :
    forRows act rows { d with pixels } = (.ok (), { d with
      pixels := rows.foldl (fun pixels row => pixels.fill (((tile.y + row) * d.width + tile.x) * 4)
        (tile.width * 4) (value row)) pixels }) := by
  induction rows generalizing pixels with
  | nil => rfl
  | cons row rest ih =>
    unfold forRows
    rw [Act.bind_of_ok (hact row List.mem_cons_self pixels)]
    exact ih (fun other hother => hact other (List.mem_cons_of_mem _ hother)) _

end Rows

/-- **A record is written** as it is published at once. -/
theorem publishInPlace_eq (hfits : Fits d.width d.height) (hraw : raw.length ≤ 2 ^ 60) {record : Record}
    (hheld : Held d raw record) : publishInPlace raw record d =
      (.ok (rect d.width d.height record.id), publish raw d record) := by
  have hin : stretch record.id 1 d.count = some () := stretch_of_le hheld.id_lt
  have hdrawn : forRows (if record.level = 1 then copyRow raw record.start (rect d.width d.height record.id)
      else upscaleRow raw record.start (rect d.width d.height record.id) record.level)
        (List.range (rect d.width d.height record.id).height) d = (.ok (), { d with
            pixels := draw d.width (fun i => raw.getD (record.start + i) 0)
              (rect d.width d.height record.id) record.level d.pixels }) := by
    unfold draw
    split
    · rename_i hlevel
      exact forRows_eq (fun row hrow pixels => copyRow_eq (d := { d with pixels }) hfits hraw
        ⟨hheld.id_lt, hheld.sent, hheld.start_le⟩ hlevel (List.mem_range.mp hrow)) d.pixels
    · exact forRows_eq (fun row hrow pixels => upscaleRow_eq (d := { d with pixels }) hfits hraw
        ⟨hheld.id_lt, hheld.sent, hheld.start_le⟩ (List.mem_range.mp hrow)) d.pixels
  unfold publishInPlace
  rw [Act.bind_of_ok (Act.read_apply d), Act.bind_of_ok (lift_machine (rectUsize_eq hfits hheld.id_lt)),
    Act.bind_of_ok hdrawn, Act.bind_of_ok (lift_machine hin)]
  rfl

theorem publishAll_eq (hfits : Fits d.width d.height) (hraw : raw.length ≤ 2 ^ 60) {records : List Record}
    (hheld : ∀ record ∈ records, Held d raw record) : publishAll raw records d =
      (.ok (records.map fun record => rect d.width d.height record.id), records.foldl (publish raw) d) := by
  induction records generalizing d with
  | nil => rfl
  | cons record rest ih =>
    have hrest := ih (d := publish raw d record) hfits fun other hother =>
      ⟨(hheld other (List.mem_cons_of_mem _ hother)).id_lt, (hheld other (List.mem_cons_of_mem _ hother)).sent,
        (hheld other (List.mem_cons_of_mem _ hother)).start_le⟩
    unfold publishAll
    rw [Act.bind_of_ok (publishInPlace_eq hfits hraw (hheld record List.mem_cons_self)), Act.bind_of_ok hrest]
    rfl

/-! ## The packet -/

/-- The number of the packet after the last there can be, where the code gets to it. -/
def Exhausted (d : Decoder) (packet : List UInt8) : Prop :=
  d.sequence.toNat = u64Max ∧ header < packet.length ∧ packet.take 4 = magic

theorem parse_exhausted (h : Exhausted d packet) : d.parseUsize zstd packet = .error .stopped := by
  obtain ⟨hsequence, hlong, hmagic⟩ := h
  have hheader : header = 24 := rfl
  have hover : checkedAddU64 d.sequence.toNat 1 = none := by
    rw [hsequence]
    rfl
  unfold parseUsize
  simp only [bind, Except.bind, ensure_of (And.intro hlong hmagic),
    field_of_le (show 4 + 8 ≤ packet.length by omega), field_of_le (show 12 + 2 ≤ packet.length by omega),
    field_of_le (show 14 + 2 ≤ packet.length by omega), field_of_le (show 16 + 4 ≤ packet.length by omega),
    field_of_le (show 20 + 4 ≤ packet.length by omega), hover, machine_none]

/-- **A packet is read the same**, and each record is in its body. -/
theorem parseUsize_eq (zstd : Zstd) (hfits : Fits d.width d.height) (h : ¬Exhausted d packet) :
    d.parseUsize zstd packet = (d.parse zstd packet).mapError .refused ∧
      ∀ sequence raw records, d.parse zstd packet = .ok (sequence, raw, records) →
        raw.length ≤ 2 ^ 60 ∧ ∀ record ∈ records, Held d raw record := by
  have hheader : header = 24 := rfl
  unfold parseUsize parse
  by_cases hgood : header < packet.length ∧ packet.take 4 = magic
  swap
  · simp only [bind, Except.bind, if_pos hgood, ensure_not hgood]
    exact ⟨rfl, nofun⟩
  have hlong := hgood.1
  have hsequence : d.sequence.toNat < u64Max := by
    have hlt := d.sequence.toNat_lt
    have hne : d.sequence.toNat ≠ u64Max := fun heq => h ⟨heq, hgood⟩
    unfold u64Max at hne ⊢
    omega
  have hnext : (d.sequence + 1).toNat = d.sequence.toNat + 1 := by
    rw [UInt64.toNat_add, UInt64.toNat_one]
    unfold u64Max at hsequence
    omega
  have hmost : 2 ^ 60 ≤ u64Max := by decide
  simp only [bind, Except.bind, if_neg (not_not_intro hgood), ensure_of hgood,
    field_of_le (show 4 + 8 ≤ packet.length by omega), field_of_le (show 12 + 2 ≤ packet.length by omega),
    field_of_le (show 14 + 2 ≤ packet.length by omega), field_of_le (show 16 + 4 ≤ packet.length by omega),
    field_of_le (show 20 + 4 ≤ packet.length by omega), checkedAddU64_of_le (show d.sequence.toNat + 1 ≤ u64Max from hsequence),
    machine_some]
  generalize UInt64.ofNat (fromBe (slice packet 4 8)) = sequence
  generalize fromBe (slice packet 12 2) = width
  generalize fromBe (slice packet 14 2) = height
  generalize fromBe (slice packet 16 4) = count
  generalize fromBe (slice packet 20 4) = length
  have hsame : sequence = d.sequence + 1 ↔ sequence.toNat = d.sequence.toNat + 1 := by
    rw [← UInt64.toNat_inj, hnext]
  by_cases hgap : sequence = d.sequence + 1
  swap
  · simp only [if_pos hgap, ensure_not fun h => hgap (hsame.mpr h)]
    exact ⟨rfl, nofun⟩
  by_cases hsize : (width, height) = (d.width, d.height)
  swap
  · simp only [if_neg (not_not_intro hgap), if_pos hsize, ensure_of (hsame.mp hgap), ensure_not hsize]
    exact ⟨rfl, nofun⟩
  simp only [if_neg (not_not_intro hgap), if_neg (not_not_intro hsize), ensure_of (hsame.mp hgap), ensure_of hsize]
  obtain ⟨rfl, rfl⟩ := Prod.mk.inj hsize
  by_cases hcount : 0 < count ∧ count ≤ d.count
  swap
  · simp only [if_pos hcount, ensure_not hcount]
    exact ⟨rfl, nofun⟩
  -- the limit of the body is in range
  have harea : d.width * d.height ≤ 4096 * 2160 := Nat.mul_le_mul hfits.width_le hfits.height_le
  have htiles : d.count ≤ 2176 := hfits.count_le
  simp only [if_neg (not_not_intro hcount), ensure_of hcount,
    checkedMulU64_of_le (show d.width * d.height ≤ u64Max by omega),
    checkedMulU64_of_le (show d.width * d.height * 4 ≤ u64Max by omega),
    checkedMulU64_of_le (show d.count * 5 ≤ u64Max by omega), Option.bind_some,
    checkedAddU64_of_le (show d.width * d.height * 4 + d.count * 5 ≤ u64Max by omega), machine_some]
  by_cases hover : d.width * d.height * 4 + d.count * 5 < length
  · simp only [if_pos hover, ensure_not (Nat.not_le_of_lt hover)]
    exact ⟨rfl, nofun⟩
  simp only [if_neg hover, ensure_of (Nat.le_of_not_lt hover)]
  cases hbody : zstd.decompress (packet.drop header) length with
  | error message => exact ⟨rfl, nofun⟩
  | ok raw =>
    simp only [Except.mapError]
    by_cases hraw : raw.length = length
    swap
    · simp only [if_pos hraw, ensure_not hraw]
      exact ⟨trivial, nofun⟩
    have hsmall : raw.length ≤ 2 ^ 60 := by omega
    obtain ⟨hread, hheld⟩ := readRecordsUsize_eq hfits hsmall count (Nat.zero_le _) []
    simp only [if_neg (not_not_intro hraw), ensure_of hraw, hread]
    cases hrecords : d.readRecords raw count 0 [] with
    | error message => exact ⟨rfl, nofun⟩
    | ok found =>
      obtain ⟨records, last⟩ := found
      simp only [Except.mapError]
      by_cases hlast : last = raw.length
      swap
      · simp only [if_pos hlast, ensure_not hlast]
        exact ⟨trivial, nofun⟩
      simp only [if_neg (not_not_intro hlast), ensure_of hlast]
      refine ⟨rfl, ?_⟩
      rintro _ _ _ ⟨⟩
      exact ⟨hsmall, hheld records last hrecords⟩

/-- **In place is as good as at once**: a packet that is refused leaves the decoder as it was. -/
theorem applyInPlace_eq (hfits : Fits d.width d.height) (h : ¬Exhausted d packet) :
    applyInPlace zstd packet d = match d.apply zstd packet with
      | .ok (after, changed) => (.ok changed, after)
      | .error message => (.error (.refused message), d) := by
  obtain ⟨hparse, hgood⟩ := parseUsize_eq zstd hfits h
  unfold applyInPlace apply
  rw [Act.bind_of_ok (Act.read_apply d), hparse]
  cases hread : d.parse zstd packet with
  | error message => rfl
  | ok said =>
    obtain ⟨sequence, raw, records⟩ := said
    obtain ⟨hraw, hheld⟩ := hgood sequence raw records hread
    have hlift : (Act.lift id ((Except.ok (sequence, raw, records) : Except String _).mapError refused) :
        Act Failure Decoder _) d = (.ok (sequence, raw, records), d) := rfl
    rw [Act.bind_of_ok hlift]
    dsimp only
    rw [Act.bind_of_ok (publishAll_eq hfits hraw hheld)]
    rfl

/-- What the records of a packet leave. -/
theorem published (raw : List UInt8) (hfits : Fits d.width d.height) (records : List Record) :
    (records.foldl (publish raw) d).width = d.width ∧ (records.foldl (publish raw) d).height = d.height ∧
      (∀ i, (∀ record ∈ records, ¬Within d.width (rect d.width d.height record.id) i) →
        (records.foldl (publish raw) d).pixels i = d.pixels i) ∧
      ∀ id, (records.foldl (publish raw) d).valid id = true ↔
        d.valid id = true ∨ ∃ record ∈ records, record.id = id := by
  induction records generalizing d with
  | nil => simp
  | cons record rest ih =>
    obtain ⟨hwidth, hheight, hpixels, hvalid⟩ := ih (d := publish raw d record) hfits
    refine ⟨hwidth, hheight, fun i hout => ?_, fun id => ?_⟩
    · rw [List.foldl_cons, hpixels i fun other hother => hout other (List.mem_cons_of_mem _ hother)]
      exact draw_outside (hfits.right_le record.id) d.pixels (hout record List.mem_cons_self)
    · rw [List.foldl_cons, hvalid]
      simp only [publish, Function.update_apply, List.mem_cons, exists_eq_or_imp]
      by_cases hsame : record.id = id
      · simp [hsame]
      · have hne : ¬id = record.id := fun heq => hsame heq.symm
        simp [hsame, hne]

/-! ## Hostile bytes -/

/-- **What is asked of a packet**: it is answered, a refusal leaves the decoder as it was, and otherwise only
pixels in the rectangles of the answer change, and the tiles that become valid are those listed. -/
def Atomic (zstd : Zstd) (d : Decoder) (packet : List UInt8) : Prop :=
  match applyInPlace zstd packet d with
  | (.error .stopped, _) => False
  | (.error (.refused _), after) => after = d
  | (.ok changed, after) => ∃ sequence raw records, d.parse zstd packet = .ok (sequence, raw, records) ∧
      changed = records.map (fun record => rect d.width d.height record.id) ∧ after.sequence = sequence ∧
      (∀ i, (∀ area ∈ changed, ¬Within d.width area i) → after.pixels i = d.pixels i) ∧
      ∀ id, after.valid id = true ↔ d.valid id = true ∨ ∃ record ∈ records, record.id = id

/-- **When a packet is applied as asked.** Whatever the bytes and whatever they decompress to, a decoder
answers, and a refusal leaves it as it was, if and only if it is not asked for the number after the largest. -/
theorem apply_total_iff (zstd : Zstd) (d : Decoder) {count : Nat} (hsize : dimensions d.width d.height = .ok count)
    (packet : List UInt8) : Atomic zstd d packet ↔ ¬Exhausted d packet := by
  have hfits := dimensions_eq_ok hsize
  constructor
  · intro hatomic hexhausted
    unfold Atomic applyInPlace at hatomic
    rw [Act.bind_of_ok (Act.read_apply d), parse_exhausted hexhausted] at hatomic
    exact hatomic
  · intro hnumber
    unfold Atomic
    rw [applyInPlace_eq hfits hnumber]
    unfold apply
    cases hread : d.parse zstd packet with
    | error message => rfl
    | ok said =>
      obtain ⟨sequence, raw, records⟩ := said
      obtain ⟨-, -, hpixels, hvalid⟩ := published raw hfits records
      refine ⟨sequence, raw, records, rfl, rfl, rfl, fun i hout => hpixels i fun record hrecord => ?_, hvalid⟩
      exact hout _ (List.mem_map_of_mem hrecord)

/-- A decoder of the desk takes any packet as asked. -/
theorem apply_total_iff_desk : dimensions 65 1 = .ok 2 ∧ ∀ packet, Atomic .stored desk.decoder packet := by
  have hsize : dimensions 65 1 = .ok 2 := rfl
  refine ⟨hsize, fun packet => (apply_total_iff .stored desk.decoder hsize packet).mpr fun h => ?_⟩
  have hzero : (0 : Nat) = u64Max := h.1
  cases hzero

/-! ### The number after the largest -/

/-- A desktop of one pixel that has taken as many packets as can be numbered. -/
def numbered : Decoder := ⟨1, 1, fun _ => 0, fun _ => false, 18446744073709551615⟩

/-- **The code stops** at the packet after the one with the largest number. -/
theorem apply_stops : dimensions 1 1 = .ok 1 ∧ ¬Atomic .stored numbered (magic ++ List.replicate 21 0) := by
  have hexhausted : Exhausted numbered (magic ++ List.replicate 21 0) := ⟨rfl, by decide, by decide⟩
  refine ⟨rfl, fun hatomic => ?_⟩
  unfold Atomic applyInPlace at hatomic
  rw [Act.bind_of_ok (Act.read_apply numbered), parse_exhausted hexhausted] at hatomic
  exact hatomic

end Zflow.Lens
