import Zflow.Laws.Lens.Mirror

/-!
# An exact packet means an exact picture

The encoder believes a tile to be exact from change counters, not from the pixels. While damage is
reported truthfully that belief is right (`Fresh`), so where a packet is called exact the decoder shows
the capture in every tile of the lens (`exact_picture`). A tile that was compared lately is the
exception: its comparison is put off, and until then it may be called current though it changed.
-/

namespace Zflow.Lens

open Lib Encoder Decoder

variable {F : Type} {e e' start : Encoder F} {capture : Capture} {now every : UInt64} {picture : Buffer}

/-! ## Pictures -/

/-- Two pictures of a desktop that are the same. -/
def SamePicture (width height : Nat) (left right : Buffer) : Prop :=
  ∀ i < width * height * 4, left i = right i

/-- Damage that covers each pixel that two pictures differ in. -/
def Covered (width height : Nat) (damage : List Rect) (before after : Buffer) : Prop :=
  ∀ i < width * height * 4, after i ≠ before i → ∃ area ∈ damage, Within width area i

instance (width height : Nat) (left right : Buffer) : Decidable (SamePicture width height left right) :=
  inferInstanceAs (Decidable (∀ i < width * height * 4, left i = right i))

instance (width height : Nat) (damage : List Rect) (before after : Buffer) :
    Decidable (Covered width height damage before after) :=
  inferInstanceAs (Decidable (∀ i < width * height * 4, after i ≠ before i →
    ∃ area ∈ damage, Within width area i))

/-- A byte of a tile is one of the desktop's. -/
theorem Within.lt {width height id i : Nat} (hid : id < tileCount width height)
    (h : Within width (rect width height id) i) : i < width * height * 4 := by
  have hy := Fits.y_lt hid
  obtain ⟨⟨-, hbottom⟩, -, -⟩ := h
  have hrow : i / 4 / width < height := by
    simp only [rect] at hy hbottom
    omega
  rw [Nat.div_div_eq_div_mul] at hrow
  have hwidth : 0 < width := by
    by_contra hzero
    obtain rfl : width = 0 := by omega
    simp [tileCount, divCeil, tileSize] at hid
  have hlt := (Nat.div_lt_iff_lt_mul (by omega)).mp hrow
  calc i < height * (4 * width) := hlt
    _ = width * height * 4 := by ring

/-- Damage at a pixel of a tile touches the tile. -/
theorem overlaps_of_within {width i : Nat} {area tile : Rect} (harea : Within width area i)
    (htile : Within width tile i) : area.overlaps tile = true := by
  obtain ⟨⟨hatop, habottom⟩, haleft, haright⟩ := harea
  obtain ⟨⟨httop, htbottom⟩, htleft, htright⟩ := htile
  simp only [Rect.overlaps, Bool.and_eq_true, decide_eq_true_eq]
  omega

/-- A tile that does not differ has the capture's bytes. -/
theorem eq_of_same {id : Nat} (hsame : e.differs id capture = false) {i : Nat} (hin : Within e.width (e.rect id) i) :
    e.pixels i = capture.at_ e.width i := by
  obtain ⟨⟨htop, hbottom⟩, hleft, hright'⟩ := hin
  simp only [differs, List.any_eq_false, List.mem_range, decide_eq_true_eq, not_not] at hsame
  have hrow := hsame (i / 4 / e.width - (e.rect id).y) (by omega)
  rw [Buffer.slice_eq_iff] at hrow
  have hbyte := hrow ((i / 4 % e.width - (e.rect id).x) * 4 + i % 4) (by omega)
  have hy : (e.rect id).y + (i / 4 / e.width - (e.rect id).y) = i / 4 / e.width := by omega
  rw [hy] at hbyte
  have hindex := index_eq e.width i
  have hstored : (i / 4 / e.width * e.width + (e.rect id).x) * 4 +
      ((i / 4 % e.width - (e.rect id).x) * 4 + i % 4) = i := by omega
  have hshown : i / 4 / e.width * capture.stride + (e.rect id).x * 4 +
      ((i / 4 % e.width - (e.rect id).x) * 4 + i % 4) =
      i / 4 / e.width * capture.stride + i / 4 % e.width * 4 + i % 4 := by omega
  rw [hstored, hshown] at hbyte
  exact hbyte.symm

/-! ## What the encoder believes -/

/-- **The encoder's belief is right**: where it takes a tile to be checked and not stale, the bytes
stored are those of the picture. -/
structure Fresh (e : Encoder F) (picture : Buffer) : Prop where
  checked : ∀ id, (e.tiles id).checked ≤ e.generation
  same : ∀ id < e.count, (e.tiles id).level ≠ 0 → (e.tiles id).checked = e.generation →
    (e.tiles id).stale = false → ∀ i, Within e.width (e.rect id) i → e.pixels i = picture i

namespace Fresh

/-- A capture with truthful damage: a tile stays checked only where nothing changed. -/
theorem changed (h : Fresh e picture) {after : Buffer} {damage : Option (List Rect)}
    (hcovered : ∀ areas ∈ damage, Covered e.width e.height areas picture after) : Fresh (e.changed damage) after := by
  cases damage with
  | none =>
    refine ⟨fun id => (h.checked id).trans (Nat.le_succ _), fun id _ _ hchecked => ?_⟩
    have hle := h.checked id
    have hchecked : (e.tiles id).checked = e.generation + 1 := hchecked
    omega
  | some areas =>
    refine ⟨fun id => ?_, fun id hid hlevel hchecked hfresh i hin => ?_⟩
    · have hle := h.checked id
      simp only [Encoder.changed]
      split
      · exact le_rfl
      · omega
    · have hle := h.checked id
      simp only [Encoder.changed] at hlevel hchecked hfresh
      split at hchecked
      · rename_i hkept
        rw [if_pos hkept] at hlevel hfresh
        simp only [Bool.and_eq_true, Bool.not_eq_true', decide_eq_true_eq] at hkept
        obtain ⟨huntouched, hlast⟩ := hkept
        have hbefore : e.pixels i = picture i := h.same id hid hlevel (by omega) hfresh i hin
        have hunchanged : after i = picture i := by
          by_contra hdiffers
          obtain ⟨area, harea, hwithin⟩ := hcovered areas rfl i (hin.lt hid) hdiffers
          rw [List.any_eq_false] at huntouched
          exact huntouched area harea (overlaps_of_within hwithin hin)
        exact hbefore.trans hunchanged.symm
      · omega

theorem need (h : Fresh e picture) (hcapture : SamePicture e.width e.height (capture.at_ e.width) picture) (id : Nat)
    (now every : UInt64) : Fresh (e.need id capture now every).2 picture := by
  rw [need_encoder]
  split
  · refine ⟨fun other => ?_, fun other hother hlevel hchecked hfresh i hin => ?_⟩
    · by_cases hsame : other = id
      · subst hsame
        simp
      · simpa [compared_tiles_of_ne hsame] using h.checked other
    · by_cases hsame : other = id
      · subst hsame
        have hsame : e.differs other capture = false := by simpa using hfresh
        exact (eq_of_same hsame hin).trans (hcapture i (hin.lt hother))
      · simp only [compared_tiles_of_ne hsame] at hlevel hchecked hfresh
        exact h.same other hother hlevel hchecked hfresh i hin
  · exact h

theorem put (h : Fresh e picture) (hfits : Fits e.width e.height)
    (hcapture : SamePicture e.width e.height (capture.at_ e.width) picture) (id level : Nat)
    (now : UInt64) : Fresh (e.put id level capture now) picture := by
  refine ⟨fun other => ?_, fun other hother hlevel hchecked hfresh i hin => ?_⟩
  · by_cases hsame : other = id
    · subst hsame
      simp
    · simpa [put_tiles_of_ne hsame] using h.checked other
  · have hwithin : Within e.width (e.rect other) i := hin
    rw [Batch.put_pixels hfits]
    by_cases hsame : other = id
    · rw [← hsame, if_pos hwithin]
      exact hcapture i (hwithin.lt hother)
    · have hnot : ¬Within e.width (e.rect id) i := fun hin' => hsame (Fits.within_unique hwithin hin')
      rw [if_neg hnot]
      simp only [put_tiles_of_ne hsame] at hlevel hchecked hfresh
      exact h.same other hother hlevel hchecked hfresh i hin

end Fresh

/-! ## Tiles that are exact -/

/-- A tile that is stored exactly as a capture shows it. -/
structure Exact (e : Encoder F) (capture : Capture) (id : Nat) : Prop where
  id_lt : id < e.count
  level : (e.tiles id).level = 1
  same : ∀ i, Within e.width (e.rect id) i → e.pixels i = capture.at_ e.width i

/-- A tile that shows what a capture does. -/
def Decoder.Shows (d : Decoder) (capture : Capture) (id : Nat) : Prop :=
  d.valid id = true ∧
    ∀ i, Within d.width (rect d.width d.height id) i → d.pixels i = capture.at_ d.width i

/-- What is settled is exact, where the belief is right. -/
theorem Fresh.exact (h : Fresh e picture)
    (hcapture : SamePicture e.width e.height (capture.at_ e.width) picture) {id : Nat} (hid : id < e.count)
    (hsettled : Settled e id) : Exact e capture id := by
  have hlevel : (e.tiles id).level ≠ 0 := by
    rw [hsettled.level]
    exact Nat.one_ne_zero
  refine ⟨hid, hsettled.level, fun i hin => ?_⟩
  exact (h.same id hid hlevel hsettled.checked hsettled.fresh i hin).trans (hcapture i (hin.lt hid)).symm

/-- The decoder shows what is stored exactly. -/
theorem Mirror.shows {d : Decoder} (h : Mirror e d) {id : Nat} (hexact : Exact e capture id) :
    d.Shows capture id := by
  refine ⟨(h.valid id hexact.id_lt).mpr ?_, fun i hin => ?_⟩
  · rw [hexact.level]
    exact Nat.one_ne_zero
  · rw [h.width, h.height] at hin
    rw [h.exact id hexact.id_lt hexact.level i hin, hexact.same i hin, h.width]

/-! ## A round -/

/-- A tile whose comparison is put off: it was compared less than `REFRESH_NS` ago. -/
structure PutOff (e : Encoder F) (now : UInt64) (id : Nat) : Prop where
  unchecked : (e.tiles id).checked ≠ e.generation
  lately : now.toNat < (e.tiles id).comparedNs.toNat + refreshNs.toNat

theorem PutOff.of_uncompared {id : Nat} (hlevel : (e.tiles id).level ≠ 0)
    (hchecked : (e.tiles id).checked ≠ e.generation) (hevery : every ≤ refreshNs)
    (hcompares : e.compares id now every = false) : PutOff e now id := by
  refine ⟨hchecked, ?_⟩
  have hlate : ¬(e.tiles id).comparedNs + every ≤ now := by
    intro hdue
    rw [compares, decide_eq_true hlevel, decide_eq_true hchecked, decide_eq_true hdue] at hcompares
    cases hcompares
  have hlt := UInt64.lt_iff_toNat_lt.mp (UInt64.not_le.mp hlate)
  have hle := UInt64.le_iff_toNat_le.mp hevery
  have hsum : ((e.tiles id).comparedNs + every).toNat ≤ (e.tiles id).comparedNs.toNat + every.toNat := by
    rw [UInt64.toNat_add]
    exact Nat.mod_le _ _
  exact hlt.trans_le (hsum.trans (Nat.add_le_add_left hle _))

/-- A tile that was called current from what was known of it, not from its pixels. -/
structure Look.Believed (look : Look) : Prop where
  current : look.need = .current
  uncompared : look.compared = false

/-- What a round keeps to: its belief is right, and what it called current unseen was exact before,
or its comparison is put off. -/
structure Knows (start : Encoder F) (capture : Capture) (picture : Buffer) (now : UInt64) (r : Round F) :
    Prop where
  batch : ∃ entries, Batch start entries r.encoder
  fresh : Fresh r.encoder picture
  waits : ∀ id, (r.encoder.tiles id).checked ≠ r.encoder.generation → r.encoder.tiles id = start.tiles id
  looks : ∀ look ∈ r.looks, look.Believed → Exact start capture look.id ∨ PutOff start now look.id

namespace Knows

variable {r r' : Round F}

/-- An exact tile that was not sent was exact before. -/
theorem exact_start {entries : List (Nat × Nat)} (hbatch : Batch start entries e) {id : Nat}
    (hpicked : (e.tiles id).picked ≠ e.round) (hexact : Exact e capture id) : Exact start capture id := by
  have hnew := hbatch.not_mem hpicked
  obtain ⟨hid, hlevel, hsame⟩ := hexact
  have hcount : e.count = start.count := by rw [Encoder.count, Encoder.count, hbatch.width, hbatch.height]
  refine ⟨hcount ▸ hid, (hbatch.level id hnew).symm.trans hlevel, fun i hin => ?_⟩
  have hin : Within e.width (e.rect id) i := by
    rw [Encoder.rect, hbatch.width, hbatch.height]
    exact hin
  rw [← hbatch.pixels id hnew i hin, hsame i hin, hbatch.width]

/-- **A look that believes is right**, unless it was put off. -/
theorem believed (h : Knows start capture picture now r)
    (hcapture : SamePicture r.encoder.width r.encoder.height (capture.at_ r.encoder.width) picture) {id : Nat}
    (hid : id < r.encoder.count) (hpicked : (r.encoder.tiles id).picked ≠ r.encoder.round)
    (hevery : every ≤ refreshNs) (hcurrent : (r.encoder.need id capture now every).1 = .current)
    (hcompares : r.encoder.compares id now every = false) :
    Exact start capture id ∨ PutOff start now id := by
  obtain ⟨entries, hbatch⟩ := h.batch
  have hlevel := level_ne_zero hcurrent
  rw [need_answer hlevel, need_encoder, hcompares, if_neg Bool.false_ne_true] at hcurrent
  obtain ⟨hfresh, hless⟩ := lacks_eq_current.mp hcurrent
  by_cases hchecked : (r.encoder.tiles id).checked = r.encoder.generation
  · have hsettled : Settled r.encoder id := ⟨by omega, hfresh, hchecked⟩
    exact .inl (exact_start hbatch hpicked (h.fresh.exact hcapture hid hsettled))
  · obtain ⟨hunchecked, hlately⟩ := PutOff.of_uncompared hlevel hchecked hevery hcompares
    rw [h.waits id hchecked] at hunchecked hlately
    exact .inr ⟨hbatch.generation ▸ hunchecked, hlately⟩

theorem need (h : Knows start capture picture now r)
    (hcapture : SamePicture start.width start.height (capture.at_ start.width) picture) {id : Nat}
    (hid : id < r.encoder.count) (hpicked : (r.encoder.tiles id).picked ≠ r.encoder.round)
    (hevery : every ≤ refreshNs) : Knows start capture picture now (r.need id capture now every).2 := by
  obtain ⟨entries, hbatch⟩ := h.batch
  have hcapture' : SamePicture r.encoder.width r.encoder.height (capture.at_ r.encoder.width) picture := by
    rw [hbatch.width, hbatch.height]
    exact hcapture
  refine ⟨⟨entries, hbatch.alike (alike_need _ id capture now every)⟩, h.fresh.need hcapture' id now every,
    fun other hother => ?_, fun look hlook hbelieved => ?_⟩
  · rw [Round.need_encoder, need_encoder] at hother ⊢
    split
    · rename_i hcompares
      rw [if_pos hcompares] at hother
      have hne : other ≠ id := by
        rintro rfl
        simp at hother
      rw [compared_tiles_of_ne hne] at hother ⊢
      exact h.waits other hother
    · rename_i hcompares
      rw [if_neg hcompares] at hother
      exact h.waits other hother
  · rcases List.mem_append.mp hlook with hbefore | hlast
    · exact h.looks look hbefore hbelieved
    · obtain rfl := List.mem_singleton.mp hlast
      exact h.believed hcapture' hid hpicked hevery hbelieved.current hbelieved.uncompared

theorem put (h : Knows start capture picture now r) (hfits : Fits start.width start.height)
    (hcapture : SamePicture start.width start.height (capture.at_ start.width) picture) {id level : Nat}
    (hid : id < r.encoder.count) (hpicked : (r.encoder.tiles id).picked ≠ r.encoder.round)
    (hlevel : Sent level) : Knows start capture picture now (r.put id level capture now) := by
  obtain ⟨entries, hbatch⟩ := h.batch
  rw [← hbatch.width, ← hbatch.height] at hfits hcapture
  refine ⟨⟨_, hbatch.put hfits hid hpicked hlevel⟩, h.fresh.put hfits hcapture id level now,
    fun other hother => ?_, h.looks⟩
  have hne : other ≠ id := by
    rintro rfl
    simp at hother
  rw [Round.put_encoder, put_tiles_of_ne hne] at hother ⊢
  exact h.waits other hother

/-- **A round keeps to what it knows.** -/
theorem moves (hfits : Fits start.width start.height)
    (hcapture : SamePicture start.width start.height (capture.at_ start.width) picture)
    (h : Knows start capture picture now r) (hmoves : Moves capture now Sent r r') :
    Knows start capture picture now r' := by
  induction hmoves with
  | refl => exact h
  | tail _ hmove ih =>
    cases hmove with
    | need id every hid hpicked hevery => exact ih.need hcapture hid hpicked hevery
    | put id level hid hpicked hlevel => exact ih.put hfits hcapture hid hpicked hlevel
    | note _ _ _ _ _ _ =>
      obtain ⟨entries, hbatch⟩ := ih.batch
      refine ⟨⟨entries, hbatch.alike ?_⟩, ⟨ih.fresh.checked, ih.fresh.same⟩, ih.waits, ih.looks⟩
      exact ⟨rfl, rfl, rfl, rfl, rfl, rfl, rfl, fun _ => rfl, fun _ => rfl⟩

end Knows

/-! ## Runs -/

section Runs

variable [LensF64 F] {zstd : Zstd} {encoded : Encoded F} {view : Option (View F)} {budget : Budget}

omit [LensF64 F] in
theorem Fresh.begin_ (h : Fresh e picture) (now : UInt64) : Fresh (e.begin_ now) picture := by
  unfold Encoder.begin_
  simp only
  split <;> exact ⟨h.checked, h.same⟩

/-- What a round knows, and that the lens is settled where the packet is called exact. -/
theorem knows_round (h : Fresh e picture) (hsound : Sound e now)
    (hcapture : SamePicture e.width e.height (capture.at_ e.width) picture) (view : Option (View F))
    (budget : Budget) :
    Knows (e.begin_ now) capture picture now (e.round_ capture view budget now).1 ∧
      ((e.round_ capture view budget now).2.1 = true → ∀ id ∈ (e.lens view).map Prod.snd,
        Settled (e.round_ capture view budget now).1.encoder id) := by
  obtain ⟨-, -, -, hwidth, hheight⟩ := begin_tiles e now
  obtain ⟨hmoves, hexact⟩ :=
    moves_round capture view budget hsound.placed hsound.picked hsound.time
  refine ⟨?_, hexact⟩
  refine Knows.moves hsound.begin_.fits ?_ ⟨⟨[], batch_fresh e now⟩, h.begin_ now, fun _ _ => rfl,
    fun _ hin => absurd hin List.not_mem_nil⟩ hmoves
  rw [hwidth, hheight]
  exact hcapture

/-- **A truthful step**: damage covers each pixel that differs from the picture before it, and a capture
that is encoded is what was announced last. -/
def Truthful (sides : Sides F) : Event F → Prop
  | .changed _ none => True
  | .changed picture (some damage) =>
    Covered sides.encoder.width sides.encoder.height damage sides.picture picture
  | .encode capture _ _ _ => sides.encoder.covers capture = true →
    SamePicture sides.encoder.width sides.encoder.height (capture.at_ sides.encoder.width) sides.picture

instance (sides : Sides F) : (event : Event F) → Decidable (Truthful sides event)
  | .changed _ none => inferInstanceAs (Decidable True)
  | .changed _ (some _) => inferInstanceAs (Decidable (Covered _ _ _ _ _))
  | .encode _ _ _ _ => inferInstanceAs (Decidable (_ → _))

theorem Exact.finish {id : Nat} (h : Exact e capture id) (records : Nat) :
    Exact (e.finish zstd records).1 capture id := by
  unfold Encoder.finish
  split
  · exact h
  · exact ⟨h.id_lt, h.level, h.same⟩

theorem Fresh.finish (h : Fresh e picture) (records : Nat) : Fresh (e.finish zstd records).1 picture := by
  unfold Encoder.finish
  split
  · exact h
  · exact ⟨h.checked, h.same⟩

omit [LensF64 F] in
theorem Exact.of_begin {id : Nat} (h : Exact (e.begin_ now) capture id) : Exact e capture id := by
  unfold Encoder.begin_ at h
  simp only at h
  split at h <;> exact ⟨h.id_lt, h.level, h.same⟩

omit [LensF64 F] in
theorem PutOff.of_begin {id : Nat} (h : PutOff (e.begin_ now) now id) : PutOff e now id := by
  unfold Encoder.begin_ at h
  simp only at h
  split at h <;> exact ⟨h.unchecked, h.lately⟩

/-- A round keeps the desktop's size. -/
theorem round_size (hsound : Sound e now) (capture : Capture) (view : Option (View F)) (budget : Budget) :
    (e.round_ capture view budget now).1.encoder.width = e.width ∧
      (e.round_ capture view budget now).1.encoder.height = e.height := by
  obtain ⟨entries, hbatch, -⟩ := exists_batch hsound capture view budget
  obtain ⟨-, -, -, hwidth, hheight⟩ := begin_tiles e now
  exact ⟨hbatch.width.trans hwidth, hbatch.height.trans hheight⟩

theorem encode_size (hsound : Sound e now) (hencode : e.encode zstd capture view budget now = .ok encoded) :
    encoded.encoder.width = e.width ∧ encoded.encoder.height = e.height := by
  obtain ⟨-, rfl⟩ := encode_eq_ok hencode
  have hsize := round_size hsound capture view budget
  unfold Encoder.finish
  split <;> exact hsize

/-- What `encode` leaves of the belief, and what of the lens and of the tiles it looked at is exact. -/
theorem Fresh.encode (h : Fresh e picture) (hsound : Sound e now)
    (hcapture : SamePicture e.width e.height (capture.at_ e.width) picture)
    (hencode : e.encode zstd capture view budget now = .ok encoded) :
    Fresh encoded.encoder picture ∧
      (encoded.packet.exact = true → ∀ id < e.count, (∀ v ∈ view, v.includes (e.rect id) = true) →
        Exact encoded.encoder capture id) ∧
      ∀ look ∈ encoded.looks, look.Believed → Exact e capture look.id ∨ PutOff e now look.id := by
  obtain ⟨-, rfl⟩ := encode_eq_ok hencode
  obtain ⟨hknows, hsettled⟩ := knows_round h hsound hcapture view budget
  obtain ⟨hwidth, hheight⟩ := round_size hsound capture view budget
  refine ⟨hknows.fresh.finish _, fun hexact id hid hin => Exact.finish ?_ _, fun look hlook hbelieved => ?_⟩
  · have hlens := hsettled hexact id (mem_lens.mpr ⟨hid, hin⟩)
    refine hknows.fresh.exact ?_ ?_ hlens
    · rw [hwidth, hheight]
      exact hcapture
    · rw [Encoder.count, hwidth, hheight]
      exact hid
  · exact (hknows.looks look hlook hbelieved).imp Exact.of_begin PutOff.of_begin

/-- Two sides in step, and the encoder's belief is right. -/
structure Honest (sides : Sides F) : Prop where
  inStep : InStep sides
  fresh : Fresh sides.encoder sides.picture

namespace Honest

variable {sides next : Sides F} {event : Event F}

theorem of_new {width height : Nat} {encoder : Encoder F} {decoder : Decoder}
    (hencoder : Encoder.new F width height = .ok encoder) (hdecoder : Decoder.new width height = .ok decoder)
    (picture : Buffer) (now : UInt64) : Honest ⟨encoder, decoder, picture, now⟩ := by
  refine ⟨.of_new hencoder hdecoder picture now, ?_⟩
  obtain ⟨-, rfl⟩ := Encoder.new_eq_ok hencoder
  exact ⟨fun _ => Nat.zero_le 1, fun _ _ hlevel => absurd rfl hlevel⟩

/-- What an encode step does to the encoder. -/
theorem encode_step {later : UInt64} (hstep : Sides.step zstd (.encode capture view budget later) sides = some next) :
    sides.now ≤ later ∧ next.picture = sides.picture ∧
      next.encoder = match sides.encoder.encode zstd capture view budget later with
        | .ok encoded => encoded.encoder
        | .error _ => sides.encoder := by
  simp only [Sides.step] at hstep
  split at hstep
  · cases hstep
  · rename_i hlater
    refine ⟨UInt64.not_lt.mp hlater, ?_⟩
    cases hencode : sides.encoder.encode zstd capture view budget later with
    | error _ =>
      simp only [hencode] at hstep
      cases hstep
      exact ⟨rfl, rfl⟩
    | ok encoded =>
      simp only [hencode] at hstep
      split at hstep
      · cases hstep
        exact ⟨rfl, rfl⟩
      · split at hstep <;> cases hstep
        exact ⟨rfl, rfl⟩

/-- **A truthful step keeps the belief right.** -/
theorem step (hzstd : zstd.RoundTrips) (h : Honest sides) (htruthful : Truthful sides event)
    (hstep : Sides.step zstd event sides = some next) : Honest next := by
  refine ⟨h.inStep.step hzstd hstep, ?_⟩
  cases event with
  | changed after damage =>
    cases hstep
    refine h.fresh.changed fun areas hareas => ?_
    obtain rfl := Option.mem_def.mp hareas
    exact htruthful
  | encode capture view budget later =>
    obtain ⟨hlater, hpicture, hleft⟩ := encode_step hstep
    rw [hleft, hpicture]
    split
    · rename_i encoded hencode
      exact (h.fresh.encode (h.inStep.sound.mono hlater) (htruthful (encode_eq_ok hencode).1) hencode).1
    · exact h.fresh

end Honest

/-- **An exact packet means an exact picture.** In every run with truthful damage, after a packet that is
called exact the decoder shows the capture in each tile of the lens. A tile that is called current
without comparing its pixels shows the capture already, unless it was compared less than `REFRESH_NS`
ago and its comparison is put off. -/
theorem exact_picture (hzstd : zstd.RoundTrips) {width height : Nat} {encoder : Encoder F}
    {decoder : Decoder} (hencoder : Encoder.new F width height = .ok encoder)
    (hdecoder : Decoder.new width height = .ok decoder) {now later : UInt64} {sides next : Sides F}
    (hrun : (Sides.step zstd).Reaches Truthful ⟨encoder, decoder, picture, now⟩ sides)
    (htruthful : Truthful sides (.encode capture view budget later))
    (hencode : sides.encoder.encode zstd capture view budget later = .ok encoded)
    (hstep : Sides.step zstd (.encode capture view budget later) sides = some next) :
    (encoded.packet.exact = true → ∀ id < next.decoder.count,
      (∀ v ∈ view, v.includes (Lens.rect next.decoder.width next.decoder.height id) = true) →
        next.decoder.Shows capture id) ∧
      ∀ look ∈ encoded.looks, look.need = .current → look.compared = false →
        sides.decoder.Shows capture look.id ∨ PutOff sides.encoder later look.id := by
  have h : Honest sides := hrun.invariant (Honest.of_new hencoder hdecoder picture now)
    fun _ _ _ h hcalm hstep => h.step hzstd hcalm hstep
  obtain ⟨hlater, -, hleft⟩ := Honest.encode_step hstep
  simp only [hencode] at hleft
  obtain ⟨-, hexact, hlooks⟩ := h.fresh.encode (h.inStep.sound.mono hlater)
    (htruthful (encode_eq_ok hencode).1) hencode
  refine ⟨fun hcalled id hid hin => ?_, fun look hlook hcurrent huncompared => ?_⟩
  · have hmirror : Mirror encoded.encoder next.decoder := hleft ▸ (h.inStep.step hzstd hstep).mirror
    obtain ⟨hwidth, hheight⟩ := encode_size (h.inStep.sound.mono hlater) hencode
    refine hmirror.shows (hexact hcalled id ?_ ?_)
    · rw [Encoder.count, ← hwidth, ← hheight, ← hmirror.width, ← hmirror.height]
      exact hid
    · rw [Encoder.rect, ← hwidth, ← hheight, ← hmirror.width, ← hmirror.height]
      exact hin
  · exact (hlooks look hlook ⟨hcurrent, huncompared⟩).imp_left h.inStep.mirror.shows

end Runs

/-! ## On the small desktop -/

/-- A lens over the first tile of the desk; its ring reaches the second. -/
def nearby : View ℚ := ⟨10, 0, 5⟩

/-- The desk with its first pixel touched. -/
def touched : Capture := ⟨fun i => if i < 4 then 9 else UInt8.ofNat i, 260, 260⟩

/-- The next round is exact, the first tile is near the pointer, and the second is called current without a look. -/
def deskRound (sides : Sides ℚ) : Bool :=
  match sides.encoder.encode .stored touched (some nearby) ⟨1000, 1000⟩ 1,
    Sides.step .stored (.encode touched (some nearby) ⟨1000, 1000⟩ 1) sides with
  | .ok encoded, some next => encoded.packet.exact && decide (next.decoder.count = 2) &&
    nearby.includes (Lens.rect next.decoder.width next.decoder.height 0) &&
      encoded.looks.any fun look => look.id = 1 && look.need = .current && !look.compared
  | _, _ => false

/-- The first pixel changes, as its damage says: the packet is exact, and the second tile, whose pixels
are not compared, is exact already. -/
theorem exact_picture_desk : ∃ (sides next : Sides ℚ) (encoded : Encoded ℚ),
    (Sides.step .stored).Reaches Truthful desk sides ∧
      sides.encoder.encode .stored touched (some nearby) ⟨1000, 1000⟩ 1 = .ok encoded ∧
        encoded.packet.exact = true ∧ next.decoder.Shows touched 0 ∧
          ∃ look ∈ encoded.looks, look.id = 1 ∧ look.Believed ∧ sides.decoder.Shows touched 1 := by
  have hrun : ((System.guarded (Sides.step .stored) Truthful).exec
      [.changed ((shade 1).at_ 65) none, .encode (shade 1) (some nearby) ⟨1000, 1000⟩ 0,
        .changed (touched.at_ 65) (some [⟨0, 0, 1, 1⟩])] desk).any (fun sides =>
          decide (Truthful sides (.encode touched (some nearby) ⟨1000, 1000⟩ 1)) &&
            decide ((sides.encoder.tiles 1).checked = sides.encoder.generation) &&
              deskRound sides) = true := by decide +kernel
  obtain ⟨sides, hreaches, hsides⟩ := System.exists_reaches_of_exec hrun
  simp only [Bool.and_eq_true, decide_eq_true_eq] at hsides
  obtain ⟨⟨htruthful, hchecked⟩, hencoded⟩ := hsides
  unfold deskRound at hencoded
  split at hencoded
  · rename_i encoded next hencode hstep
    simp only [Bool.and_eq_true, decide_eq_true_eq, List.any_eq_true, Bool.not_eq_true'] at hencoded
    obtain ⟨⟨⟨hexact, hcount⟩, hin⟩, look, hlook, ⟨hid, hcurrent⟩, huncompared⟩ := hencoded
    obtain ⟨hshows, hlooks⟩ := exact_picture Zstd.stored_roundTrips (rfl : Encoder.new ℚ 65 1 = _) rfl
      hreaches htruthful hencode hstep
    have hbelieved := hlooks look hlook hcurrent huncompared
    rw [hid] at hbelieved
    refine ⟨sides, next, encoded, hreaches, hencode, hexact, hshows hexact 0 (by omega) fun view hview => ?_,
      look, hlook, hid, ⟨hcurrent, huncompared⟩,
      hbelieved.resolve_right fun hputOff => hputOff.unchecked hchecked⟩
    rw [← Option.some.inj (Option.mem_def.mp hview)]
    exact hin
  · cases hencoded

/-- The whole desk changes soon after it was sent: the second tile is called current, its pixels are not
compared, and the decoder shows what it was. -/
theorem current_though_changed : ∃ (sides : Sides ℚ) (encoded : Encoded ℚ),
    (Sides.step .stored).Reaches Truthful desk sides ∧ sides.now ≤ 1 ∧
      Truthful sides (.encode (shade 2) (some nearby) ⟨1000, 1000⟩ 1) ∧
        sides.encoder.encode .stored (shade 2) (some nearby) ⟨1000, 1000⟩ 1 = .ok encoded ∧
          ∃ look ∈ encoded.looks, look.need = .current ∧ look.compared = false ∧
            ¬sides.decoder.Shows (shade 2) look.id := by
  have hrun : ((System.guarded (Sides.step .stored) Truthful).exec
      [.changed ((shade 1).at_ 65) none, .encode (shade 1) (some nearby) ⟨1000, 1000⟩ 0,
        .changed ((shade 2).at_ 65) none] desk).any (fun sides =>
          decide (sides.now ≤ 1) && decide (Truthful sides (.encode (shade 2) (some nearby) ⟨1000, 1000⟩ 1)) &&
            decide (Within sides.decoder.width (Lens.rect sides.decoder.width sides.decoder.height 1) 257) &&
              decide (sides.decoder.pixels 257 ≠ (shade 2).at_ sides.decoder.width 257) &&
                match sides.encoder.encode .stored (shade 2) (some nearby) ⟨1000, 1000⟩ 1 with
                | .ok encoded =>
                  encoded.looks.any fun look => look.id = 1 && look.need = .current && !look.compared
                | .error _ => false) = true := by decide +kernel
  obtain ⟨sides, hreaches, hsides⟩ := System.exists_reaches_of_exec hrun
  simp only [Bool.and_eq_true, decide_eq_true_eq] at hsides
  obtain ⟨⟨⟨⟨hnow, htruthful⟩, hwithin⟩, hdiffers⟩, hencoded⟩ := hsides
  split at hencoded
  · rename_i encoded hencode
    simp only [Bool.and_eq_true, decide_eq_true_eq, List.any_eq_true, Bool.not_eq_true'] at hencoded
    obtain ⟨look, hlook, ⟨hid, hcurrent⟩, huncompared⟩ := hencoded
    refine ⟨sides, encoded, hreaches, hnow, htruthful, hencode, look, hlook, hcurrent, huncompared,
      fun hshows => hdiffers (hshows.2 257 ?_)⟩
    rw [hid]
    exact hwithin
  · cases hencoded

end Zflow.Lens
