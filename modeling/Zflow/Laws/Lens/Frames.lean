import Mathlib.Data.List.ReduceOption
import Zflow.Laws.Lens.Exact
import Zflow.Lens.Frames

/-!
# Damage is truthful across frames

The recorder promises of an intact buffer that its damage covers what differs from the last one that was
neither flagged corrupted nor empty. While no frame is lost that one is held, so the rectangles kept since a
take cover what differs between the frame held then and the frame held now; after a lost frame, or a format,
the next frame is damaged everywhere.
-/

namespace Zflow.Lens

open Lib Zflow.Core

/-! ## Rectangles -/

/-- A rectangle inside a frame. -/
def Rect.Inside (area : Rect) (width height : Nat) : Prop := area.x + area.width ≤ width ∧ area.y + area.height ≤ height

/-- A byte whose pixel is in one of the rectangles. -/
def CoversByte (width : Nat) (areas : List Rect) (i : Nat) : Prop := ∃ area ∈ areas, Within width area i

/-- A byte whose pixel is in a region. -/
def Region.Holds (region : Region) (width i : Nat) : Prop :=
  (region.x.toInt ≤ (i / 4 % width : Nat) ∧ (i / 4 % width : Nat) < region.x.toInt + region.width.toNat) ∧
    region.y.toInt ≤ (i / 4 / width : Nat) ∧ (i / 4 / width : Nat) < region.y.toInt + region.height.toNat

instance (region : Region) (width i : Nat) : Decidable (region.Holds width i) :=
  inferInstanceAs (Decidable (_ ∧ _))

/-- A frame whose sides are `u32`. -/
structure Sized (width height : Nat) : Prop where
  width : width < 4294967296
  height : height < 4294967296

/-- A byte of a frame, by its pixel. -/
theorem pixel_lt {width height i : Nat} (hi : i < width * height * 4) : i / 4 % width < width ∧ i / 4 / width < height := by
  have hpixel : i / 4 < width * height := by omega
  have hpos : 0 < width := Nat.pos_of_ne_zero fun hzero => by
    rw [hzero, Nat.zero_mul] at hpixel
    omega
  exact ⟨Nat.mod_lt _ hpos, Nat.div_lt_of_lt_mul hpixel⟩

theorem checkedI64_of_lt {x : Int} (hlow : -9223372036854775808 ≤ x) (hhigh : x < 9223372036854775808) :
    checkedI64 x = some x := if_pos ⟨hlow, Int.le_of_lt_add_one hhigh⟩

/-- **A region is cut to the frame**: what it leaves is inside, and holds every pixel of the frame that the
region does. -/
theorem exists_clamp (region : Region) {width height : Nat} (hsized : Sized width height) :
    ∃ cut, clamp region (width, height) = some cut ∧ (∀ area ∈ cut, area.Inside width height) ∧
      ∀ i < width * height * 4, region.Holds width i → ∃ area ∈ cut, Within width area i := by
  have hx := region.x.le_toInt
  have hx' := region.x.toInt_lt
  have hy := region.y.le_toInt
  have hy' := region.y.toInt_lt
  have hw := region.width.toNat_lt
  have hh := region.height.toNat_lt
  obtain ⟨hwidth, hheight⟩ := hsized
  unfold clamp
  rw [checkedI64_of_lt (by omega) (by omega), checkedI64_of_lt (by omega) (by omega)]
  simp only [Option.bind_eq_bind, Option.bind_some]
  split
  · rename_i hsome
    rw [checkedI64_of_lt (by omega) (by omega), checkedI64_of_lt (by omega) (by omega)]
    refine ⟨_, rfl, fun area harea => ?_, fun i hi hholds => ⟨_, rfl, ?_⟩⟩
    · obtain rfl := Option.some.inj harea
      constructor <;> simp only <;> omega
    · obtain ⟨hcolumn, hrow⟩ := pixel_lt hi
      obtain ⟨⟨hleft, hright⟩, htop, hbottom⟩ := hholds
      unfold Within
      generalize i / 4 % width = column at *
      generalize i / 4 / width = row at *
      refine ⟨⟨?_, ?_⟩, ?_, ?_⟩ <;> simp only <;> omega
  · rename_i hnone
    refine ⟨none, rfl, fun area harea => absurd harea (by simp), fun i hi hholds => absurd hnone (not_not.mpr ?_)⟩
    obtain ⟨hcolumn, hrow⟩ := pixel_lt hi
    obtain ⟨⟨hleft, hright⟩, htop, hbottom⟩ := hholds
    generalize i / 4 % width = column at *
    generalize i / 4 / width = row at *
    omega

/-- Rectangles that hold all of the frame that regions do. -/
structure Cuts (width height : Nat) (regions : List Region) (areas : List Rect) : Prop where
  inside : ∀ area ∈ areas, area.Inside width height
  holds : ∀ i < width * height * 4, (∃ region ∈ regions, region.Holds width i) → CoversByte width areas i

theorem exists_cuts (regions : List Region) {width height : Nat} (hsized : Sized width height) :
    ∃ cuts, regions.mapM (clamp · (width, height)) = some cuts ∧ Cuts width height regions cuts.reduceOption := by
  induction regions with
  | nil => exact ⟨[], rfl, fun _ harea => absurd harea List.not_mem_nil, fun _ _ ⟨_, hregion, _⟩ =>
      absurd hregion List.not_mem_nil⟩
  | cons region rest ih =>
    obtain ⟨cuts, hcuts, hinside, hholds⟩ := ih
    obtain ⟨cut, hcut, hcutInside, hcutHolds⟩ := exists_clamp region hsized
    refine ⟨cut :: cuts, ?_, fun area harea => ?_, fun i hi hin => ?_⟩
    · rw [List.mapM_cons, hcut, hcuts]
      rfl
    · rcases List.mem_cons.mp (List.reduceOption_mem_iff.mp harea) with hfirst | hrest
      · exact hcutInside area hfirst.symm
      · exact hinside area (List.reduceOption_mem_iff.mpr hrest)
    · obtain ⟨found, hfound, hfoundHolds⟩ := hin
      rcases List.mem_cons.mp hfound with rfl | hrest
      · obtain ⟨area, harea, hwithin⟩ := hcutHolds i hi hfoundHolds
        exact ⟨area, List.reduceOption_mem_iff.mpr (List.mem_cons.mpr (.inl harea.symm)), hwithin⟩
      · obtain ⟨area, harea, hwithin⟩ := hholds i hi ⟨found, hrest, hfoundHolds⟩
        refine ⟨area, List.reduceOption_mem_iff.mpr (List.mem_cons_of_mem _ ?_), hwithin⟩
        exact List.reduceOption_mem_iff.mp harea

/-- **A rectangle that contains another holds its pixels**; within a frame the sums do not overflow. -/
theorem exists_contains {width height : Nat} (hsized : Sized width height) {outer inner : Rect}
    (houter : outer.Inside width height) (hinner : inner.Inside width height) :
    ∃ contained, outer.contains inner = some contained ∧
      (contained = true → ∀ i, Within width inner i → Within width outer i) := by
  obtain ⟨hwidth, hheight⟩ := hsized
  obtain ⟨houterX, houterY⟩ := houter
  obtain ⟨hinnerX, hinnerY⟩ := hinner
  unfold Rect.contains
  rw [checkedAddU64_of_le (by unfold u64Max; omega), checkedAddU64_of_le (by unfold u64Max; omega),
    checkedAddU64_of_le (by unfold u64Max; omega), checkedAddU64_of_le (by unfold u64Max; omega)]
  simp only [Option.bind_eq_bind, Option.bind_some]
  split
  · split
    · refine ⟨_, rfl, fun hbottom i hin => ?_⟩
      have hbottom := of_decide_eq_true hbottom
      simp only [Within] at hin ⊢
      omega
    · exact ⟨false, rfl, fun hfalse => absurd hfalse Bool.false_ne_true⟩
  · exact ⟨false, rfl, fun hfalse => absurd hfalse Bool.false_ne_true⟩

theorem exists_anyM {width height : Nat} (hsized : Sized width height) {known : List Rect} {rect : Rect}
    (hknown : ∀ area ∈ known, area.Inside width height) (hrect : rect.Inside width height) :
    ∃ inside, known.anyM (·.contains rect) = some inside ∧
      (inside = true → ∀ i, Within width rect i → CoversByte width known i) := by
  induction known with
  | nil => exact ⟨false, rfl, fun hfalse => absurd hfalse Bool.false_ne_true⟩
  | cons outer rest ih =>
    obtain ⟨inside, hinside, hholds⟩ := ih fun area harea => hknown area (List.mem_cons_of_mem _ harea)
    obtain ⟨contained, hcontained, hwithin⟩ := exists_contains hsized (hknown outer List.mem_cons_self) hrect
    rw [List.anyM_cons, hcontained]
    cases contained with
    | true => exact ⟨true, rfl, fun _ i hin => ⟨outer, List.mem_cons_self, hwithin rfl i hin⟩⟩
    | false =>
      refine ⟨inside, hinside, fun htrue i hin => ?_⟩
      obtain ⟨area, harea, hareaHolds⟩ := hholds htrue i hin
      exact ⟨area, List.mem_cons_of_mem _ harea, hareaHolds⟩

/-! ## The screen -/

/-- Rectangles inside a frame that hold what others do. -/
structure Keeps (width height : Nat) (given areas : List Rect) : Prop where
  inside : ∀ area ∈ areas, area.Inside width height
  holds : ∀ i, CoversByte width given i → CoversByte width areas i

/-- **What is kept holds what was known and what came**, unless everything is. -/
theorem exists_keep {width height : Nat} (hsized : Sized width height) {known rects : List Rect}
    (hknown : ∀ area ∈ known, area.Inside width height) (hrects : ∀ area ∈ rects, area.Inside width height) :
    ∃ kept, Screen.keep known rects = some kept ∧ ∀ areas ∈ kept, Keeps width height (known ++ rects) areas := by
  induction rects generalizing known with
  | nil =>
    refine ⟨some known, rfl, fun areas hareas => ?_⟩
    obtain rfl := Option.some.inj hareas
    exact ⟨hknown, fun i hin => (List.append_nil known) ▸ hin⟩
  | cons rect rest ih =>
    have hrest (area : Rect) (harea : area ∈ rest) := hrects area (List.mem_cons_of_mem _ harea)
    obtain ⟨inside, hinside, hholds⟩ := exists_anyM hsized hknown (hrects rect List.mem_cons_self)
    unfold Screen.keep
    rw [hinside]
    simp only [Option.bind_eq_bind, Option.bind_some]
    cases inside with
    | true =>
      obtain ⟨kept, hkept, hkeeps⟩ := ih hknown hrest
      refine ⟨kept, hkept, fun areas hareas => ⟨(hkeeps areas hareas).inside, fun i hin => ?_⟩⟩
      refine (hkeeps areas hareas).holds i ?_
      obtain ⟨area, harea, hwithin⟩ := hin
      rcases List.mem_append.mp harea with hold | hnew
      · exact ⟨area, List.mem_append_left _ hold, hwithin⟩
      · rcases List.mem_cons.mp hnew with rfl | hlater
        · obtain ⟨outer, houter, houterHolds⟩ := hholds rfl i hwithin
          exact ⟨outer, List.mem_append_left _ houter, houterHolds⟩
        · exact ⟨area, List.mem_append_right _ hlater, hwithin⟩
    | false =>
      rw [if_neg Bool.false_ne_true]
      split
      · exact ⟨none, rfl, fun areas hareas => absurd hareas (by simp)⟩
      · have hadded : ∀ area ∈ known ++ [rect], area.Inside width height := by
          intro area harea
          rcases List.mem_append.mp harea with hold | hnew
          · exact hknown area hold
          · exact hrects area (List.mem_singleton.mp hnew ▸ List.mem_cons_self)
        obtain ⟨kept, hkept, hkeeps⟩ := ih hadded hrest
        refine ⟨kept, hkept, fun areas hareas => ?_⟩
        rw [List.append_cons]
        exact hkeeps areas hareas

/-- What a new frame does to the damage: it stays unless everything is, and then the size did too. -/
theorem exists_note {s : Screen} {width height : Nat} (hsized : Sized width height) (damage : Option (List Rect))
    (hknown : ∀ known ∈ s.damage, ∀ area ∈ known, area.Inside s.width s.height)
    (hdamage : ∀ rects ∈ damage, ∀ area ∈ rects, area.Inside width height) :
    ∃ kept, s.note (width, height) damage = some { s with
        width, height, frames := s.frames + 1, damage := kept } ∧
      ∀ areas ∈ kept, s.width = width ∧ s.height = height ∧
        ∃ known rects, s.damage = some known ∧ damage = some rects ∧ Keeps width height (known ++ rects) areas := by
  unfold Screen.note Screen.addDamage
  simp only
  split
  · rename_i known rects hdamageKnown hrects
    obtain ⟨hsome, hcondition⟩ := Option.filter_eq_some_iff.mp hrects
    rw [Bool.and_eq_true, Bool.not_eq_true', decide_eq_false_iff_not, not_not] at hcondition
    obtain ⟨hwidth, hheight⟩ := Prod.mk.inj hcondition.1
    have hin : ∀ area ∈ known, area.Inside width height := by
      rw [← hwidth, ← hheight]
      exact hknown known hdamageKnown
    obtain ⟨kept, hkept, hkeeps⟩ := exists_keep hsized hin (hdamage rects hsome)
    rw [hkept]
    refine ⟨kept, rfl, fun areas hareas => ⟨hwidth, hheight, known, rects, hdamageKnown, hsome, ?_⟩⟩
    exact hkeeps areas hareas
  · exact ⟨none, rfl, fun areas hareas => absurd hareas (by simp)⟩

/-! ## Buffers -/

/-- The damage in a buffer's metadata. -/
def RawBuffer.damages (raw : RawBuffer) : List (List Region) :=
  (raw.metas.getD []).filterMap fun
    | .videoDamage regions => some regions
    | _ => none

/-- What metadata is read to: it is skipped where a header says that the buffer is corrupted, and else the damage
is as before or that of a list of regions, cut to the frame. -/
def ReadsMetas (width height : Nat) (metas : List Meta) (damage : Option (List Rect)) :
    Except Stop (Option (List Rect)) → Prop
  | .error stop => stop = .skip ∧ .header true ∈ metas
  | .ok result => .header true ∉ metas ∧ (result = damage ∨
    ∃ regions areas, .videoDamage regions ∈ metas ∧ result = some areas ∧ Cuts width height regions areas)

theorem ReadsMetas.cons {width height : Nat} {first : Meta} {rest : List Meta} {damage : Option (List Rect)}
    {outcome : Except Stop (Option (List Rect))} (hfirst : .header true ≠ first)
    (h : ReadsMetas width height rest damage outcome) : ReadsMetas width height (first :: rest) damage outcome := by
  cases outcome with
  | error stop => exact ⟨h.1, List.mem_cons_of_mem _ h.2⟩
  | ok result =>
    refine ⟨fun hin => (List.mem_cons.mp hin).elim hfirst h.1, h.2.imp_right ?_⟩
    rintro ⟨regions, areas, hregions, hareas, hcuts⟩
    exact ⟨regions, areas, List.mem_cons_of_mem _ hregions, hareas, hcuts⟩

/-- **Metadata is read without an overflow.** -/
theorem reads_readMetas {width height : Nat} (hsized : Sized width height) (metas : List Meta)
    (damage : Option (List Rect)) : ReadsMetas width height metas damage (readMetas (width, height) metas damage) := by
  induction metas generalizing damage with
  | nil => exact ⟨List.not_mem_nil, .inl rfl⟩
  | cons first rest ih =>
    cases first with
    | null => exact (ih damage).cons (by simp)
    | other => exact (ih damage).cons (by simp)
    | header corrupted =>
      cases corrupted with
      | true => exact ⟨rfl, List.mem_cons_self⟩
      | false => exact (ih damage).cons (by simp)
    | videoDamage regions =>
      obtain ⟨cuts, hcuts, hholds⟩ := exists_cuts regions hsized
      have hread : readMetas (width, height) (.videoDamage regions :: rest) damage =
          readMetas (width, height) rest (some cuts.reduceOption) := by
        simp only [readMetas, hcuts]
      rw [hread]
      have hrest : ReadsMetas width height (.videoDamage regions :: rest) (some cuts.reduceOption) _ :=
        (ih (some cuts.reduceOption)).cons (by simp)
      cases houtcome : readMetas (width, height) rest (some cuts.reduceOption) with
      | error stop =>
        rw [houtcome] at hrest
        exact hrest
      | ok result =>
        rw [houtcome] at hrest
        refine ⟨hrest.1, .inr ?_⟩
        rcases hrest.2 with rfl | hlater
        · exact ⟨regions, _, List.mem_cons_self, rfl, hholds⟩
        · exact hlater

/-- **A frame's bytes lie inside its chunk and its buffer.** -/
theorem frame_eq_some {len offset size width height begin_ end_ : Nat} {stride : Int}
    (h : frame len offset size stride width height = some (begin_, end_)) :
    begin_ = offset ∧ end_ = offset + (stride.toNat * (height - 1) + width * 4) ∧ end_ ≤ len ∧
      end_ ≤ offset + size ∧ width * 4 ≤ stride.toNat ∧ 0 < width ∧ 0 < height := by
  unfold frame at h
  split at h
  · cases h
  obtain ⟨row, hrow, h⟩ := Option.bind_eq_some_iff.mp h
  split at h
  · cases h
  rename_i hshape
  obtain ⟨before, hbefore, h⟩ := Option.bind_eq_some_iff.mp h
  obtain ⟨needed, hneeded, h⟩ := Option.bind_eq_some_iff.mp h
  obtain ⟨last, hlast, h⟩ := Option.bind_eq_some_iff.mp h
  split at h
  · rename_i hfits
    cases h
    obtain ⟨rfl, -⟩ := checkedAddU64_eq_some.mp hlast
    obtain ⟨rfl, -⟩ := checkedAddU64_eq_some.mp hneeded
    unfold checkedMulU64 at hrow hbefore
    split at hrow <;> cases hrow
    split at hbefore <;> cases hbefore
    refine ⟨rfl, rfl, hfits.2, ?_, ?_, ?_, ?_⟩ <;> omega
  · cases h

/-- A held frame lies inside the memory of the buffer it is of. -/
structure Screen.Held.InBuffer (held : Screen.Held) (raw : RawBuffer) (width height : Nat) : Prop where
  buffer : held.buffer = raw.id
  rows : width * 4 ≤ held.stride ∧ held.len = held.stride * (height - 1) + width * 4
  mapped : ∃ data chunk, raw.data = some data ∧ data.mapped = true ∧ data.chunk = some chunk ∧
    held.memory = data.memory ∧ held.data = chunk.offset.toNat ∧ held.len ≤ chunk.size.toNat ∧
      held.data + held.len ≤ data.maxsize.toNat

/-- **What a buffer's data is read to**: a frame inside it, and nothing is skipped that was recorded. -/
theorem held_spec {raw : RawBuffer} {width height : Nat} {outcome : Except Stop Screen.Held}
    (h : raw.held (width, height) = outcome) :
    match outcome with
    | .ok held => raw.recorded = true ∧ held.InBuffer raw width height
    | .error stop => stop ≠ .overflow ∧ (stop = .skip → raw.recorded = false) := by
  unfold RawBuffer.held at h
  cases hdata : raw.data with
  | none =>
    rw [hdata] at h
    subst h
    exact ⟨by decide, fun _ => by simp [RawBuffer.recorded, hdata]⟩
  | some data =>
    simp only [hdata] at h
    cases hchunk : data.chunk with
    | none =>
      simp only [hchunk] at h
      subst h
      exact ⟨by decide, fun _ => by simp [RawBuffer.recorded, hdata, hchunk]⟩
    | some chunk =>
      simp only [hchunk] at h
      have hrecorded : raw.recorded = (chunk.size ≠ 0 && !chunk.corrupted) := by
        simp [RawBuffer.recorded, hdata, hchunk]
      by_cases hempty : chunk.size = 0 ∨ chunk.corrupted = true
      · rw [if_pos hempty] at h
        subst h
        refine ⟨by decide, fun _ => ?_⟩
        rw [hrecorded]
        rcases hempty with hzero | hcorrupted
        · simp [hzero]
        · simp [hcorrupted]
      · rw [if_neg hempty] at h
        obtain ⟨hsize, hclean⟩ := not_or.mp hempty
        cases hmapped : data.mapped with
        | false =>
          rw [hmapped] at h
          subst h
          exact ⟨by decide, fun hskip => absurd hskip (by decide)⟩
        | true =>
          simp only [hmapped] at h
          cases hframe : frame data.maxsize.toNat chunk.offset.toNat chunk.size.toNat chunk.stride.toInt width height with
          | none =>
            simp only [hframe] at h
            subst h
            exact ⟨by decide, fun hskip => absurd hskip (by decide)⟩
          | some range =>
            simp only [hframe] at h
            subst h
            obtain ⟨begin_, end_⟩ := range
            obtain ⟨rfl, hend, hlen, hchunkSize, hstride, -, -⟩ := frame_eq_some hframe
            refine ⟨?_, rfl, ⟨hstride, ?_⟩, data, chunk, hdata, hmapped, hchunk, rfl, rfl, ?_, ?_⟩
            · rw [hrecorded]
              simp [hsize, hclean]
            · simp only
              omega
            · simp only
              omega
            · simp only
              omega

/-- **What a buffer is read to**: its frame, with the damage of its own metadata; one that is skipped was flagged
corrupted or is empty. -/
theorem inspect_spec {raw : RawBuffer} {width height : Nat} (hsized : Sized width height)
    {outcome : Except Stop (Screen.Held × Option (List Rect))} (h : inspect raw (width, height) = outcome) :
    match outcome with
    | .ok (held, damage) => raw.intact = true ∧ raw.held (width, height) = .ok held ∧
        ∀ areas ∈ damage, ∃ regions ∈ raw.damages, Cuts width height regions areas
    | .error stop => stop ≠ .overflow ∧ (stop = .skip → raw.intact = false) := by
  unfold inspect at h
  cases hmetas : raw.metas with
  | none =>
    rw [hmetas] at h
    subst h
    exact ⟨by decide, fun _ => by simp [RawBuffer.intact, hmetas]⟩
  | some metas =>
    simp only [hmetas] at h
    have hread := reads_readMetas hsized metas none
    cases hdamage : readMetas (width, height) metas none with
    | error stop =>
      rw [hdamage] at h hread
      subst h
      obtain ⟨rfl, hcorrupted⟩ := hread
      exact ⟨by decide, fun _ => by simp [RawBuffer.intact, hmetas, hcorrupted]⟩
    | ok damage =>
      rw [hdamage] at h hread
      obtain ⟨hclean, hresult⟩ := hread
      cases hheld : raw.held (width, height) with
      | error stop =>
        rw [hheld] at h
        subst h
        obtain ⟨hstop, hskip⟩ := held_spec hheld
        refine ⟨hstop, fun h => ?_⟩
        rw [RawBuffer.intact, hskip h, Bool.and_false]
      | ok held =>
        rw [hheld] at h
        subst h
        refine ⟨?_, rfl, fun areas hareas => ?_⟩
        · simp [RawBuffer.intact, hmetas, hclean, (held_spec hheld).1]
        · rcases hresult with rfl | ⟨regions, found, hregions, hfound, hcuts⟩
          · cases hareas
          · obtain rfl := Option.some.inj (hfound.symm.trans hareas)
            refine ⟨regions, List.mem_filterMap.mpr ⟨.videoDamage regions, ?_, rfl⟩, hcuts⟩
            rw [hmetas]
            exact hregions

/-! ## Recordings -/

/-- **What the recorder promises**: the damage of an intact buffer covers every pixel in which its frame differs
from the one of the last buffer that was neither flagged corrupted nor empty. -/
def Promised (r : Recording) : StreamEvent → Prop
  | .buffer raw => raw.intact = true → ∀ last ∈ r.last, ∀ size ∈ r.stream.size, ∀ regions ∈ raw.damages,
    match last.held size, raw.held size with
    | .ok before, .ok now => ∀ i < size.1 * size.2 * 4,
      now.capture.at_ size.1 i ≠ before.capture.at_ size.1 i → ∃ region ∈ regions, region.Holds size.1 i
    | _, _ => True
  | _ => True

instance (r : Recording) : (event : StreamEvent) → Decidable (Promised r event)
  | .format _ _ | .take => inferInstanceAs (Decidable True)
  | .buffer raw => by
    unfold Promised
    have hpair (last : RawBuffer) (size : Nat × Nat) (regions : List Region) : Decidable
        (match last.held size, raw.held size with
          | .ok before, .ok now => ∀ i < size.1 * size.2 * 4,
            now.capture.at_ size.1 i ≠ before.capture.at_ size.1 i → ∃ region ∈ regions, region.Holds size.1 i
          | _, _ => True) := by
      split <;> infer_instance
    infer_instance

/-- **The invariant.** What is kept since the last take covers what differs since, and unless the next frame
replaces everything the held one is that of the last intact buffer. -/
structure Kept (r : Recording) : Prop where
  formatted : ∀ size ∈ r.stream.size, Sized size.1 size.2
  sized : Sized r.stream.screen.width r.stream.screen.height
  inside : ∀ areas ∈ r.stream.screen.damage, ∀ area ∈ areas,
    area.Inside r.stream.screen.width r.stream.screen.height
  covers : ∀ areas ∈ r.stream.screen.damage, ∀ now ∈ r.stream.screen.held, ∃ before,
    r.taken = some ⟨before, r.stream.screen.width, r.stream.screen.height⟩ ∧
      Covered r.stream.screen.width r.stream.screen.height areas
        (before.capture.at_ r.stream.screen.width) (now.capture.at_ r.stream.screen.width)
  latest : r.stream.whole = false → ∃ last now, r.last = some last ∧ r.stream.screen.held = some now ∧
    r.stream.size = some (r.stream.screen.width, r.stream.screen.height) ∧
      last.held (r.stream.screen.width, r.stream.screen.height) = .ok now

theorem kept_start : Kept .start where
  formatted _ h := by cases h
  sized := ⟨by decide, by decide⟩
  inside _ h := by cases h
  covers _ h := by cases h
  latest h := by cases h

namespace Kept

variable {r next : Recording} {raw : RawBuffer}

/-- A frame is accepted: it is held, and what is kept covers what differs since the last take. -/
theorem accept {width height : Nat} {held : Screen.Held} {damage : Option (List Rect)} (h : Kept r)
    (hsize : r.stream.size = some (width, height)) (hinspect : inspect raw (width, height) = .ok (held, damage)) :
    ∃ previous screen, r.stream.screen.hold held (width, height) (damage.filter fun _ => !r.stream.whole) =
        some (previous, screen) ∧ screen.held = some held ∧ screen.width = width ∧ screen.height = height ∧
      (∀ areas ∈ screen.damage, ∀ area ∈ areas, area.Inside width height) ∧
      (Promised r (.buffer raw) → ∀ areas ∈ screen.damage, ∃ before, r.taken = some ⟨before, width, height⟩ ∧
        Covered width height areas (before.capture.at_ width) (held.capture.at_ width)) := by
  have hsized := h.formatted _ hsize
  obtain ⟨hintact, hheld, hdamage⟩ := inspect_spec hsized hinspect
  obtain ⟨kept, hnote, hkept⟩ := exists_note hsized (damage.filter fun _ => !r.stream.whole) h.inside
    fun rects hrects => by
      obtain ⟨regions, -, hcuts⟩ := hdamage rects (Option.filter_eq_some_iff.mp hrects).1
      exact hcuts.inside
  refine ⟨r.stream.screen.held.map (·.buffer),
    ⟨some held, width, height, r.stream.screen.frames + 1, kept⟩, ?_, rfl, rfl, rfl, ?_, ?_⟩
  · unfold Screen.hold
    rw [hnote]
    rfl
  · intro areas hareas
    obtain ⟨-, -, known, rects, -, -, hkeeps⟩ := hkept areas hareas
    exact hkeeps.inside
  · intro hpromised areas hareas
    obtain ⟨rfl, rfl, known, rects, hknown, hrects, hkeeps⟩ := hkept areas hareas
    obtain ⟨hsome, hwhole⟩ := Option.filter_eq_some_iff.mp hrects
    obtain ⟨last, now, hlast, hnow, -, hlastHeld⟩ := h.latest (by simpa using hwhole)
    obtain ⟨before, htaken, hcovered⟩ := h.covers known hknown now hnow
    refine ⟨before, htaken, fun i hi hdiffers => ?_⟩
    -- a byte that differs since the take differed already, or differs from the frame held until now
    have hmatter : CoversByte r.stream.screen.width (known ++ rects) i := by
      by_cases hearlier : now.capture.at_ r.stream.screen.width i = before.capture.at_ r.stream.screen.width i
      · obtain ⟨regions, hregions, hcuts⟩ := hdamage rects hsome
        have hpromise := hpromised hintact last hlast _ hsize regions hregions
        simp only [hlastHeld, hheld] at hpromise
        obtain ⟨area, harea, hwithin⟩ := hcuts.holds i hi (hpromise i hi fun hsame => hdiffers (hsame.trans hearlier))
        exact ⟨area, List.mem_append_right _ harea, hwithin⟩
      · obtain ⟨area, harea, hwithin⟩ := hcovered i hi hearlier
        exact ⟨area, List.mem_append_left _ harea, hwithin⟩
    exact hkeeps.holds i hmatter

/-- **What one buffer does.** It is taken without an overflow; what changes the picture is held, inside its
buffer. -/
theorem receive (h : Kept r) (raw : RawBuffer) : ∃ answer stream, r.stream.receive raw = some (answer, stream) ∧
      (Promised r (.buffer raw) → Kept { r with stream, last := if raw.intact then some raw else r.last }) ∧
      (answer.1 = true → ∃ held, stream.screen.held = some held ∧
        held.InBuffer raw stream.screen.width stream.screen.height) := by
  unfold Frames.receive
  cases hsize : r.stream.size with
  | none =>
    refine ⟨(false, some raw.id), r.stream, rfl, fun _ => ?_, fun hfalse => absurd hfalse Bool.false_ne_true⟩
    refine ⟨h.formatted, h.sized, h.inside, h.covers, fun hwhole => ?_⟩
    obtain ⟨last, now, -, -, hsome, -⟩ := h.latest hwhole
    cases hsize.symm.trans hsome
  | some size =>
    obtain ⟨width, height⟩ := size
    have hsized := h.formatted _ hsize
    cases hinspect : inspect raw (width, height) with
    | error stop =>
      obtain ⟨hstop, hskip⟩ := inspect_spec hsized hinspect
      cases stop with
      | overflow => exact absurd rfl hstop
      | skip =>
        refine ⟨(false, some raw.id), r.stream, by simp only [hinspect], fun _ => ?_,
          fun hfalse => absurd hfalse Bool.false_ne_true⟩
        rw [hskip rfl]
        exact h
      | lost =>
        refine ⟨(false, some raw.id), { r.stream with whole := true }, by simp only [hinspect, hsize], fun _ => ?_,
          fun hfalse => absurd hfalse Bool.false_ne_true⟩
        exact ⟨h.formatted, h.sized, h.inside, h.covers, fun hwhole => by cases hwhole⟩
    | ok read =>
      obtain ⟨held, damage⟩ := read
      obtain ⟨hintact, hheld, -⟩ := inspect_spec hsized hinspect
      obtain ⟨previous, screen, hhold, hnow, rfl, rfl, hinside, hcovers⟩ := h.accept hsize hinspect
      have hinBuffer := (held_spec hheld).2
      refine ⟨(true, previous), { r.stream with screen, whole := false }, ?_, fun hpromised => ?_,
        fun _ => ⟨held, hnow, hinBuffer⟩⟩
      · simp only [hinspect, hhold, hsize]
        rfl
      · rw [if_pos hintact]
        refine ⟨h.formatted, hsized, hinside, fun areas hareas now hsome => ?_, fun _ => ?_⟩
        · obtain rfl := Option.some.inj (hnow.symm.trans hsome)
          exact hcovers hpromised areas hareas
        · exact ⟨raw, held, rfl, hnow, hsize, hheld⟩

/-- **Every event keeps it**, and none overflows. -/
theorem step {event : StreamEvent} (h : Kept r) (hpromised : Promised r event)
    (hstep : Recording.step event r = some next) : Kept next := by
  cases event with
  | format width height =>
    cases hstep
    refine ⟨fun size hsome => ?_, h.sized, h.inside, fun _ _ _ hnone => ?_, fun hwhole => ?_⟩
    · obtain rfl := Option.some.inj hsome
      exact ⟨width.toNat_lt, height.toNat_lt⟩
    · cases hnone
    · cases hwhole
  | buffer raw =>
    obtain ⟨answer, stream, hreceive, hkept, -⟩ := h.receive raw
    simp only [Recording.step, hreceive] at hstep
    cases hstep
    exact hkept hpromised
  | take =>
    cases hstep
    refine ⟨h.formatted, h.sized, fun areas hareas => ?_, fun areas _ now hnow => ?_, h.latest⟩
    · obtain rfl := Option.some.inj hareas
      exact fun _ harea => absurd harea List.not_mem_nil
    · refine ⟨now, ?_, fun i _ hdiffers => absurd rfl hdiffers⟩
      have htaken := congrArg (Option.map (Taken.mk · r.stream.screen.width r.stream.screen.height))
        (Option.mem_def.mp hnow)
      exact htaken

theorem of_reaches (hrun : System.Reaches Recording.step Promised .start r) : Kept r :=
  hrun.invariant kept_start fun _ _ _ h hpromised hstep => h.step hpromised hstep

end Kept

/-- **Damage is truthful across frames.** In every run of a recording, the rectangles that a take answers lie inside
the frame, and with them a frame was held at the last take, of the same size, and they cover every pixel in which
the one held now differs from it. Every buffer is taken without an overflow, and a frame that it is kept for lies
inside its chunk and its mapped memory. -/
theorem damage_truthful {r : Recording} (hrun : System.Reaches Recording.step Promised .start r) :
    (∀ areas ∈ r.stream.screen.takeDamage.1,
      (∀ area ∈ areas, area.Inside r.stream.screen.width r.stream.screen.height) ∧
      ∀ now ∈ r.stream.screen.held, ∃ before, r.taken = some ⟨before, r.stream.screen.width, r.stream.screen.height⟩ ∧
          Covered r.stream.screen.width r.stream.screen.height areas
            (before.capture.at_ r.stream.screen.width) (now.capture.at_ r.stream.screen.width)) ∧
    ∀ raw, ∃ answer stream, r.stream.receive raw = some (answer, stream) ∧
      (answer.1 = true → ∃ held, stream.screen.held = some held ∧
        held.InBuffer raw stream.screen.width stream.screen.height) := by
  have h := Kept.of_reaches hrun
  refine ⟨fun areas hareas => ⟨h.inside areas hareas, h.covers areas hareas⟩, fun raw => ?_⟩
  obtain ⟨answer, stream, hreceive, -, hinBuffer⟩ := h.receive raw
  exact ⟨answer, stream, hreceive, hinBuffer⟩

/-! ### Two pixels -/

/-- A buffer of two pixels of one value, with the damage it has. -/
def twoPixels (first second : UInt8) (damage : List Meta) : RawBuffer where
  id := first.toNat
  metas := some (.header false :: damage)
  data := some ⟨true, fun i => if i < 4 then first else second, 8, some ⟨0, 8, 8, false⟩⟩

/-- The second pixel changes, as the damage says, which reaches beyond the frame. -/
theorem damage_truthful_pixel : ∃ (r : Recording) (before now : Screen.Held), System.Reaches Recording.step Promised .start r ∧
    r.stream.screen.takeDamage.1 = some [⟨1, 0, 1, 1⟩] ∧ r.stream.screen.held = some now ∧
      now.capture.at_ 2 4 ≠ before.capture.at_ 2 4 ∧
        Covered 2 1 [⟨1, 0, 1, 1⟩] (before.capture.at_ 2) (now.capture.at_ 2) := by
  have hrun : ((System.guarded Recording.step Promised).exec [.format 2 1, .buffer (twoPixels 1 1 []), .take,
        .buffer (twoPixels 1 2 [.videoDamage [⟨1, -1, 9, 9⟩]])] .start).any (fun r =>
          r.stream.screen.takeDamage.1 = some [⟨1, 0, 1, 1⟩] && decide (r.stream.screen.width = 2) &&
            decide (r.stream.screen.height = 1) && r.stream.screen.held.any fun now =>
              r.taken.any fun taken => now.capture.at_ 2 4 ≠ taken.held.capture.at_ 2 4) = true := by decide +kernel
  obtain ⟨r, hreaches, hr⟩ := System.exists_reaches_of_exec hrun
  simp only [Bool.and_eq_true, decide_eq_true_eq, Option.any_eq_true] at hr
  obtain ⟨⟨⟨hdamage, hwidth⟩, hheight⟩, now, hnow, taken, htaken, hdiffers⟩ := hr
  obtain ⟨before, hbefore, hcovered⟩ := ((damage_truthful hreaches).1 _ hdamage).2 now hnow
  obtain rfl := Option.some.inj (htaken.symm.trans hbefore)
  rw [hwidth, hheight] at hcovered
  exact ⟨r, before, now, hreaches, hdamage, hnow, hdiffers, hcovered⟩

end Zflow.Lens
