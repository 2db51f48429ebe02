import Zflow.Laws.Linux.Touchpad
import Zflow.Lib.Walks
import Zflow.Linux.Touch

/-!
# Multitouch reconstruction

The accumulator follows the surface that its events tell of (`shows_pushAll`), whatever slots, ids and positions they
name. Its arithmetic stays in range when the extents of both axes are `i32`s (`sound_pushAll`), and then a
snapshot, which only a report makes, lists the contacts of the surface's first slots, each within the size it carries
(`snapshot_faithful`). An axis is accepted whatever its extent is. **The reconstruction is total and in range
exactly for axes whose extents are `i32`s** (`reconstructs_iff`).
-/

namespace Zflow.Linux

open Zflow.Core Lib Multitouch

/-! ## An axis -/

namespace TouchAxisRange

/-- The extent fits the type of its ends. -/
def Narrow (range : TouchAxisRange) : Prop := range.maximum.1 - range.minimum.1 < 2147483648

instance (range : TouchAxisRange) : Decidable range.Narrow := inferInstanceAs (Decidable (_ < _))

/-- How far the axis goes. -/
def span (range : TouchAxisRange) : Int := range.maximum.1 - range.minimum.1

theorem span_pos (range : TouchAxisRange) : 0 < range.span := Int.sub_pos.mpr range.ordered

theorem extent_of_narrow {range : TouchAxisRange} (h : range.Narrow) : range.extent = some range.span.toNat := by
  have hpos := range.span_pos
  have hchecked : checkedI32 (range.maximum.1 - range.minimum.1) = some range.span :=
    checkedI32_of_range (by unfold span at hpos; omega) h
  unfold extent
  rw [hchecked]
  exact if_pos (Int.le_of_lt hpos)

theorem extent_of_wide {range : TouchAxisRange} (h : ¬ range.Narrow) : range.extent = none := by
  have hchecked : checkedI32 (range.maximum.1 - range.minimum.1) = none :=
    if_neg fun hrange => h (by unfold Narrow; omega)
  unfold extent
  rw [hchecked]
  rfl

/-- A position is on the axis. -/
theorem normalize_of_narrow {range : TouchAxisRange} (h : range.Narrow) (value : I32) :
    ∃ coordinate, range.normalize value = some coordinate ∧ 0 ≤ coordinate ∧ coordinate ≤ range.span := by
  have hordered := range.ordered
  unfold Narrow at h
  unfold span
  refine ⟨_, checkedI32_of_range ?_ ?_, ?_, ?_⟩ <;> omega

end TouchAxisRange

/-! ## Hundredths of a millimetre -/

/-- The exact value of a conversion. -/
def hundredths (units unitsPer100mm : Int) : Int :=
  min ((units * 10000 + unitsPer100mm.tdiv 2).tdiv unitsPer100mm) (2 ^ 31 - 1)

section

variable {units other unitsPer100mm : Int}

theorem hundredthsMm_eq (hunits : 0 ≤ units) (hshort : units < 2147483648) (hpos : 0 < unitsPer100mm)
    (hscale : unitsPer100mm ≤ 214748364800) : hundredthsMm units unitsPer100mm = some (hundredths units unitsPer100mm) := by
  have hhalf : 0 ≤ unitsPer100mm.tdiv 2 ∧ unitsPer100mm.tdiv 2 ≤ unitsPer100mm := by
    rw [Int.tdiv_eq_ediv_of_nonneg (Int.le_of_lt hpos)]
    omega
  have hscaled : InI64 (units * 10000) := by
    unfold InI64 i64Min i64Max
    omega
  have hrounded : InI64 (units * 10000 + unitsPer100mm.tdiv 2) := by
    unfold InI64 i64Min i64Max
    omega
  have hne : unitsPer100mm ≠ 0 := Int.ne_of_gt hpos
  simp only [hundredthsMm, checkedI64, if_pos hscaled, if_pos hrounded, Option.bind_eq_bind, Option.bind_some,
    if_neg hne, hundredths]

theorem hundredths_range (hunits : 0 ≤ units) (hpos : 0 < unitsPer100mm) :
    0 ≤ hundredths units unitsPer100mm ∧ hundredths units unitsPer100mm < 2147483648 := by
  have hhalf : 0 ≤ unitsPer100mm.tdiv 2 := Int.tdiv_nonneg (Int.le_of_lt hpos) (by decide)
  have hdiv : 0 ≤ (units * 10000 + unitsPer100mm.tdiv 2).tdiv unitsPer100mm :=
    Int.tdiv_nonneg (by omega) (Int.le_of_lt hpos)
  unfold hundredths
  omega

/-- Further along the axis is not less. -/
theorem hundredths_mono (hunits : 0 ≤ units) (hle : units ≤ other) (hpos : 0 < unitsPer100mm) :
    hundredths units unitsPer100mm ≤ hundredths other unitsPer100mm := by
  have hhalf : 0 ≤ unitsPer100mm.tdiv 2 := Int.tdiv_nonneg (Int.le_of_lt hpos) (by decide)
  unfold hundredths
  generalize unitsPer100mm.tdiv 2 = half at hhalf ⊢
  have hdiv : (units * 10000 + half).tdiv unitsPer100mm ≤ (other * 10000 + half).tdiv unitsPer100mm := by
    rw [Int.tdiv_eq_ediv_of_nonneg (by omega), Int.tdiv_eq_ediv_of_nonneg (by omega)]
    exact Int.ediv_le_ediv hpos (by omega)
  omega

end

/-! ## The surface that the events tell of -/

/-- What an event tells of the surface. -/
def TouchEvent.told : TouchEvent → Option Multitouch.Event
  | .absolute axis value => some (.absolute axis value.1)
  | .key code value => some (.key code (value.1 ≠ 0))
  | .report | .dropped | .otherSynchronization | .other => none

/-- The surface after some events. -/
def surfaceAfter (events : List TouchEvent) : Surface := Surface.untouched.applyAll (events.filterMap TouchEvent.told)

/-- The contact a tracking id stands for, which is none below zero. -/
def contactOf (trackingId : Int) : Option ContactId := if trackingId < 0 then none else some trackingId.toNat

/-- One of the slots the accumulator keeps. -/
def slotOf (slot : Int) : Option (Fin touchSlots) :=
  if h : 0 ≤ slot ∧ slot.toNat < touchSlots then some ⟨slot.toNat, h.2⟩ else none

theorem slotOf_eq_some {slot : Int} {index : Fin touchSlots} : slotOf slot = some index ↔ slot = index := by
  unfold slotOf
  split
  · rename_i h
    rw [Option.some.injEq, Fin.ext_iff]
    show slot.toNat = index.1 ↔ slot = index.1
    omega
  · rename_i h
    have hindex := index.2
    refine iff_of_false (by simp) fun heq => h ?_
    omega

namespace TouchAccumulator

/-- The accumulator keeps the first slots of the surface. -/
structure Follows (s : Surface) (a : TouchAccumulator) : Prop where
  current : a.currentSlot = slotOf s.current
  contacts : ∀ slot : Fin touchSlots, (a.slots slot).trackingId = contactOf (s.slots slot).trackingId

variable {s : Surface} {a : TouchAccumulator}

@[simp]
theorem edit_currentSlot (change : SlotState → SlotState) : (a.edit change).currentSlot = a.currentSlot := by
  unfold TouchAccumulator.edit
  split <;> rfl

/-- An edit is about the current slot. -/
theorem edit_slots (change : SlotState → SlotState) (slot : Fin touchSlots) :
    (a.edit change).slots slot = if a.currentSlot = some slot then change (a.slots slot) else a.slots slot := by
  unfold TouchAccumulator.edit
  split
  · rename_i index hcurrent
    by_cases heq : slot = index
    · rw [heq, if_pos hcurrent]
      exact Function.update_self ..
    · rw [if_neg fun hsame => heq (Option.some.inj (hsame.symm.trans hcurrent))]
      exact Function.update_of_ne heq ..
  · rename_i hcurrent
    rw [if_neg (by simp [hcurrent])]

/-- The current slot of the surface is that of the accumulator, among those it keeps. -/
theorem Follows.current_iff (h : Follows s a) (slot : Fin touchSlots) :
    a.currentSlot = some slot ↔ (slot : Int) = s.current := by
  rw [h.current, slotOf_eq_some, eq_comm]

/-- **An edit of the surface is followed** by one that gives the slot its contact. -/
theorem Follows.edit (h : Follows s a) {change : SlotState → SlotState} {told : Slot → Slot}
    (hid : ∀ kept slot, kept.trackingId = contactOf slot.trackingId →
      (change kept).trackingId = contactOf (told slot).trackingId) : Follows (s.edit told) (a.edit change) where
  current := by
    rw [edit_currentSlot]
    exact h.current
  contacts slot := by
    rw [edit_slots, Surface.slots_edit, if_congr (h.current_iff slot) rfl rfl]
    split
    · exact hid _ _ (h.contacts slot)
    · exact h.contacts slot

/-- An edit of the surface that keeps the contact need not be followed. -/
theorem Follows.kept (h : Follows s a) {told : Slot → Slot} (htold : ∀ slot, (told slot).trackingId = slot.trackingId) :
    Follows (s.edit told) a where
  current := h.current
  contacts slot := by
    rw [Surface.slots_edit]
    split
    · rw [htold]
      exact h.contacts slot
    · exact h.contacts slot

theorem Follows.mapped (h : Follows s a) : Follows s a.mapped := ⟨h.current, h.contacts⟩

/-- What an event about a position leaves, whether it was computed or not. -/
theorem Follows.place (h : Follows s a) {told : Slot → Slot} (htold : ∀ slot, (told slot).trackingId = slot.trackingId)
    (range : TouchAxisRange) (value : I32) {store : Int → SlotState → SlotState}
    (hstore : ∀ n kept, (store n kept).trackingId = kept.trackingId) :
    Follows (s.edit told) (TouchAccumulator.place range value store a).2 := by
  unfold TouchAccumulator.place
  split
  · exact (h.kept htold).mapped
  · split
    · exact (h.edit fun kept slot hid => by rw [hstore, htold]; exact hid).mapped
    · exact h.kept htold

/-- **The accumulator follows each event**, whatever its answer is. -/
theorem Follows.push (h : Follows s a) (event : TouchEvent) :
    Follows (s.applyAll event.told.toList) (TouchAccumulator.push event a).2 := by
  cases event with
  | report =>
    show Follows s (TouchAccumulator.push .report a).2
    simp only [TouchAccumulator.push]
    split
    · split
      · exact ⟨h.current, h.contacts⟩
      · exact h
    · exact h
  | dropped | otherSynchronization | other => exact h
  | key code value =>
    refine ⟨?_, fun slot => ?_⟩
    · show (a.tool code value).currentSlot = _
      unfold tool
      split <;> exact h.current
    · show ((a.tool code value).slots slot).trackingId = _
      unfold tool
      split <;> exact h.contacts slot
  | absolute axis value =>
    cases axis with
    | slot => exact ⟨rfl, h.contacts⟩
    | trackingId =>
      have hedit : Follows (s.edit fun slot => { slot with trackingId := value.1 })
          (a.edit fun slot => { slot with trackingId := contactOf value.1 }) := h.edit fun _ _ _ => rfl
      exact hedit.mapped
    | positionX =>
      have htold : ∀ slot : Slot, ({ slot with x := value.1 } : Slot).trackingId = slot.trackingId := fun _ => rfl
      exact h.place htold a.x value fun _ _ => rfl
    | positionY =>
      have htold : ∀ slot : Slot, ({ slot with y := value.1 } : Slot).trackingId = slot.trackingId := fun _ => rfl
      exact h.place htold a.y value fun _ _ => rfl
    | toolType =>
      refine ⟨(edit_currentSlot _).trans h.current, fun slot => ?_⟩
      show ((a.edit fun kept => { kept with palm := value.1 = mtToolPalm }).slots slot).trackingId = _
      rw [edit_slots]
      split <;> exact h.contacts slot
    | x | y | other => exact h

theorem Follows.pushAll (h : Follows s a) (events : List TouchEvent) :
    Follows (s.applyAll (events.filterMap TouchEvent.told)) (a.pushAll events) := by
  induction events generalizing s a with
  | nil => exact h
  | cons event rest ih =>
    have hrest := ih (h.push event)
    have htold : (event :: rest).filterMap TouchEvent.told = event.told.toList ++ rest.filterMap TouchEvent.told := by
      cases htold : event.told <;> simp [htold]
    rw [htold, Surface.applyAll_append]
    exact hrest

theorem follows_new {x y : TouchAxisRange} (h : new x y = some a) : Follows Surface.untouched a := by
  obtain ⟨units, -, rfl⟩ := Option.map_eq_some_iff.mp h
  exact ⟨rfl, fun _ => rfl⟩

/-! ## Arithmetic in range -/

/-- Both extents are `i32`s, the scales are those of a pad, and each slot is on it. -/
structure Sound (a : TouchAccumulator) : Prop where
  narrow : a.x.Narrow ∧ a.y.Narrow
  scaleX : 0 < a.unitsPer100mm.1 ∧ a.unitsPer100mm.1 ≤ 214748364800
  scaleY : 0 < a.unitsPer100mm.2 ∧ a.unitsPer100mm.2 ≤ 214748364800
  placedX : ∀ slot, 0 ≤ (a.slots slot).x ∧ (a.slots slot).x ≤ a.x.span
  placedY : ∀ slot, 0 ≤ (a.slots slot).y ∧ (a.slots slot).y ≤ a.y.span

theorem sound_new {x y : TouchAxisRange} (hx : x.Narrow) (hy : y.Narrow) : ∃ a, new x y = some a ∧ a.Sound := by
  have hspanX := x.span_pos
  have hspanY := y.span_pos
  have hscale : ∃ units, unitsOf x y = some units ∧ (0 < units.1 ∧ units.1 ≤ 214748364800) ∧
      (0 < units.2 ∧ units.2 ≤ 214748364800) := by
    unfold unitsOf
    split
    · have hresX := x.resolution.2
      have hresY := y.resolution.2
      exact ⟨_, rfl, by omega, by omega⟩
    · rw [TouchAxisRange.extent_of_narrow hx]
      have hshort : x.span < 2147483648 := hx
      refine ⟨(x.span.toNat, x.span.toNat), rfl, ?_, ?_⟩ <;> constructor <;> dsimp only <;> omega
  obtain ⟨units, hunits, hunitsX, hunitsY⟩ := hscale
  refine ⟨_, congrArg (Option.map _) hunits, ⟨hx, hy⟩, hunitsX, hunitsY, fun _ => ?_, fun _ => ?_⟩
  · exact ⟨Int.le_refl 0, Int.le_of_lt hspanX⟩
  · exact ⟨Int.le_refl 0, Int.le_of_lt hspanY⟩

/-- An edit that keeps the current slot on the pad. -/
theorem Sound.edit (h : a.Sound) (change : SlotState → SlotState)
    (hx : ∀ kept, 0 ≤ kept.x ∧ kept.x ≤ a.x.span → 0 ≤ (change kept).x ∧ (change kept).x ≤ a.x.span)
    (hy : ∀ kept, 0 ≤ kept.y ∧ kept.y ≤ a.y.span → 0 ≤ (change kept).y ∧ (change kept).y ≤ a.y.span) :
    (a.edit change).Sound := by
  have hx' : (a.edit change).x = a.x := by unfold TouchAccumulator.edit; split <;> rfl
  have hy' : (a.edit change).y = a.y := by unfold TouchAccumulator.edit; split <;> rfl
  have hscale : (a.edit change).unitsPer100mm = a.unitsPer100mm := by
    unfold TouchAccumulator.edit
    split <;> rfl
  refine ⟨by rw [hx', hy']; exact h.narrow, hscale ▸ h.scaleX, hscale ▸ h.scaleY, fun slot => ?_, fun slot => ?_⟩
  · rw [edit_slots, hx']
    split
    · exact hx _ (h.placedX slot)
    · exact h.placedX slot
  · rw [edit_slots, hy']
    split
    · exact hy _ (h.placedY slot)
    · exact h.placedY slot

theorem Sound.mapped (h : a.Sound) : a.mapped.Sound :=
  ⟨h.narrow, h.scaleX, h.scaleY, h.placedX, h.placedY⟩

/-- A position is computed, and leaves the slot on the pad. -/
theorem Sound.place (h : a.Sound) {range : TouchAxisRange} (hrange : range.Narrow) (value : I32)
    {store : Int → SlotState → SlotState} (hstore : ∀ n, 0 ≤ n → n ≤ range.span → (a.edit (store n)).Sound) :
    (TouchAccumulator.place range value store a).1 = .ok none ∧ (TouchAccumulator.place range value store a).2.Sound := by
  obtain ⟨n, hn, hlo, hhi⟩ := TouchAxisRange.normalize_of_narrow hrange value
  unfold TouchAccumulator.place
  split
  · exact ⟨rfl, h.mapped⟩
  · rw [hn]
    exact ⟨rfl, (hstore n hlo hhi).mapped⟩

/-- An event but a report answers nothing, or that the frame was lost. -/
theorem Sound.push_quiet (h : a.Sound) {event : TouchEvent} (hquiet : event ≠ .report) :
    ((TouchAccumulator.push event a).1 = .ok none ∨ (TouchAccumulator.push event a).1 = .error .lost) ∧
      (TouchAccumulator.push event a).2.Sound := by
  cases event with
  | report => exact absurd rfl hquiet
  | dropped => exact ⟨.inr rfl, h⟩
  | otherSynchronization | other => exact ⟨.inl rfl, h⟩
  | key code value =>
    refine ⟨.inl rfl, ?_⟩
    show (a.tool code value).Sound
    unfold tool
    split
    · exact ⟨h.narrow, h.scaleX, h.scaleY, h.placedX, h.placedY⟩
    · exact h
  | absolute axis value =>
    cases axis with
    | slot => exact ⟨.inl rfl, h.narrow, h.scaleX, h.scaleY, h.placedX, h.placedY⟩
    | trackingId =>
      have hedit := h.edit (fun slot => { slot with trackingId := contactOf value.1 }) (fun _ hx => hx) fun _ hy => hy
      exact ⟨.inl rfl, hedit.mapped⟩
    | positionX =>
      have hplace := h.place h.narrow.1 value fun n hlo hhi => h.edit (fun slot => { slot with x := n })
        (fun _ _ => ⟨hlo, hhi⟩) fun _ hy => hy
      exact ⟨.inl hplace.1, hplace.2⟩
    | positionY =>
      have hplace := h.place h.narrow.2 value fun n hlo hhi => h.edit (fun slot => { slot with y := n })
        (fun _ hx => hx) fun _ _ => ⟨hlo, hhi⟩
      exact ⟨.inl hplace.1, hplace.2⟩
    | toolType =>
      have hedit := h.edit (fun slot => { slot with palm := value.1 = mtToolPalm }) (fun _ hx => hx) fun _ hy => hy
      exact ⟨.inl rfl, hedit⟩
    | x | y | other => exact ⟨.inl rfl, h⟩

/-! ## A snapshot -/

/-- What the contacts inserted into a state leave, where no id repeats. -/
structure Inserted (state : TouchState) (contacts : List TouchContact) (out : TouchState) : Prop where
  nodup : (contacts.map (·.id)).Nodup
  fresh : ∀ contact ∈ contacts, contact.id ∉ state
  mem : ∀ id, id ∈ out ↔ id ∈ state ∨ id ∈ contacts.map (·.id)
  entry : ∀ id contact, out[id]? = some contact → state[id]? = some contact ∨ contact ∈ contacts ∧ contact.id = id
  size : out.size = state.size + contacts.length

theorem inserted_of_insertContacts {state out : TouchState} {contacts : List TouchContact}
    (h : insertContacts state contacts = .ok out) : Inserted state contacts out := by
  induction contacts generalizing state with
  | nil =>
    cases h
    exact ⟨List.nodup_nil, fun _ hmem => (nomatch hmem), by simp, fun _ _ hget => .inl hget, rfl⟩
  | cons contact rest ih =>
    unfold insertContacts at h
    split at h
    · cases h
    rename_i hfresh
    have hrest := ih h
    have hnew : contact.id ∉ rest.map (·.id) := by
      intro hmem
      obtain ⟨other, hother, hid⟩ := List.mem_map.mp hmem
      exact hrest.fresh other hother (by simp [hid])
    refine ⟨List.nodup_cons.mpr ⟨hnew, hrest.nodup⟩, ?_, fun id => ?_, fun id other hget => ?_, ?_⟩
    · intro other hmem
      rcases List.mem_cons.mp hmem with rfl | hmem
      · exact hfresh
      · exact fun hold => hrest.fresh other hmem (by simp [hold])
    · rw [hrest.mem, Std.ExtTreeMap.mem_insert, compare_eq_iff_eq, List.map_cons, List.mem_cons]
      constructor
      · rintro ((rfl | hold) | hlater)
        · exact .inr (.inl rfl)
        · exact .inl hold
        · exact .inr (.inr hlater)
      · rintro (hold | rfl | hlater)
        · exact .inl (.inr hold)
        · exact .inl (.inl rfl)
        · exact .inr hlater
    · rcases hrest.entry id other hget with hbefore | ⟨hmem, hid⟩
      · rw [Std.ExtTreeMap.getElem?_insert] at hbefore
        split at hbefore
        · rename_i hsame
          cases hbefore
          exact .inr ⟨List.mem_cons_self, compare_eq_iff_eq.mp hsame⟩
        · exact .inl hbefore
      · exact .inr ⟨List.mem_cons_of_mem _ hmem, hid⟩
    · have hcontains : ¬ state.contains contact.id = true := hfresh
      rw [hrest.size, Std.ExtTreeMap.size_insert, if_neg hcontains, List.length_cons]
      omega

theorem mem_active {entry : ContactId × SlotState} :
    entry ∈ a.active ↔ ∃ slot, (a.slots slot).trackingId = some entry.1 ∧ entry.2 = a.slots slot := by
  obtain ⟨id, kept⟩ := entry
  simp [active, eq_comm]

theorem active_ids : a.active.map Prod.fst =
    (List.finRange touchSlots).filterMap fun slot => (a.slots slot).trackingId := by
  unfold active
  rw [List.map_filterMap]
  refine List.filterMap_congr fun slot _ => ?_
  cases (a.slots slot).trackingId <;> rfl

/-- The size that every contact carries, exactly. -/
def size (a : TouchAccumulator) : SourceDimensions :=
  ⟨(hundredths a.x.span a.unitsPer100mm.1).toNat, (hundredths a.y.span a.unitsPer100mm.2).toNat⟩

/-- A contact of a snapshot, exactly. -/
def contact (a : TouchAccumulator) (entry : ContactId × SlotState) : TouchContact :=
  ⟨entry.1, hundredths entry.2.x a.unitsPer100mm.1, hundredths entry.2.y a.unitsPer100mm.2, none, none, none, none,
    .finger, some a.size⟩

theorem Sound.dimensions_eq (h : a.Sound) : a.dimensions = some a.size := by
  have hx := h.narrow.1
  have hy := h.narrow.2
  have hposX := a.x.span_pos
  have hposY := a.y.span_pos
  obtain ⟨hloX, hhiX⟩ := hundredths_range (Int.le_of_lt hposX) h.scaleX.1
  obtain ⟨hloY, hhiY⟩ := hundredths_range (Int.le_of_lt hposY) h.scaleY.1
  have hsizeX : hundredths a.x.span a.unitsPer100mm.1 % 2 ^ 32 = hundredths a.x.span a.unitsPer100mm.1 := by omega
  have hsizeY : hundredths a.y.span a.unitsPer100mm.2 % 2 ^ 32 = hundredths a.y.span a.unitsPer100mm.2 := by omega
  simp only [TouchAccumulator.dimensions, TouchAxisRange.extent_of_narrow hx, TouchAxisRange.extent_of_narrow hy,
    Option.bind_eq_bind, Option.bind_some, Int.toNat_of_nonneg (Int.le_of_lt hposX),
    Int.toNat_of_nonneg (Int.le_of_lt hposY), hundredthsMm_eq (Int.le_of_lt hposX) hx h.scaleX.1 h.scaleX.2,
    hundredthsMm_eq (Int.le_of_lt hposY) hy h.scaleY.1 h.scaleY.2, hsizeX, hsizeY]
  rfl

theorem Sound.position_eq (h : a.Sound) (slot : Fin touchSlots) : a.position (a.slots slot) =
    some (hundredths (a.slots slot).x a.unitsPer100mm.1, hundredths (a.slots slot).y a.unitsPer100mm.2) := by
  obtain ⟨hloX, hhiX⟩ := h.placedX slot
  obtain ⟨hloY, hhiY⟩ := h.placedY slot
  have hx : a.x.span < 2147483648 := h.narrow.1
  have hy : a.y.span < 2147483648 := h.narrow.2
  unfold TouchAccumulator.position
  rw [hundredthsMm_eq hloX (by omega) h.scaleX.1 h.scaleX.2, hundredthsMm_eq hloY (by omega) h.scaleY.1 h.scaleY.2]
  rfl

theorem Sound.contacts_eq (h : a.Sound) : a.contacts = some (a.active.map a.contact) := by
  unfold TouchAccumulator.contacts
  rw [h.dimensions_eq, Option.bind_eq_bind, Option.bind_some, mapM_eq_some, List.forall₂_map_right_iff,
    List.forall₂_same]
  rintro ⟨id, kept⟩ hentry
  obtain ⟨slot, -, hslot⟩ := mem_active.mp hentry
  obtain rfl : kept = a.slots slot := hslot
  simp only [h.position_eq]
  rfl

/-- **No finger overflows.** -/
theorem Sound.fingers_some (h : a.Sound) : a.fingers.isSome = true := by
  have hfingers : a.fingers = some ((a.active.filter fun entry => !entry.2.palm).map fun entry =>
      ⟨entry.1, hundredths entry.2.x a.unitsPer100mm.1, hundredths entry.2.y a.unitsPer100mm.2⟩) := by
    unfold TouchAccumulator.fingers
    rw [mapM_eq_some, List.forall₂_map_right_iff, List.forall₂_same]
    rintro ⟨id, kept⟩ hentry
    obtain ⟨slot, -, hslot⟩ := mem_active.mp (List.mem_filter.mp hentry).1
    obtain rfl : kept = a.slots slot := hslot
    simp only [h.position_eq]
    rfl
  rw [hfingers]
  rfl

/-- The contacts of a snapshot are those of the surface's first slots, each once and within the size it carries. -/
structure Faithful (s : Surface) (state : TouchState) : Prop where
  supported : state.size ≤ touchSlots
  distinct : ∀ (first second : Fin touchSlots) (id : ContactId),
    (s.slots first).trackingId = id → (s.slots second).trackingId = id → first = second
  listed : ∀ id : ContactId, id ∈ state ↔ ∃ slot : Fin touchSlots, (s.slots slot).trackingId = id
  within : ∀ (id : ContactId) (contact : TouchContact), state[id]? = some contact → contact.id = id ∧
    ∃ size, contact.sourceDimensions = some size ∧ (0 ≤ contact.x ∧ contact.x ≤ size.width) ∧
      (0 ≤ contact.y ∧ contact.y ≤ size.height)

theorem contactOf_eq_some {trackingId : Int} {id : Nat} : contactOf trackingId = some id ↔ trackingId = id := by
  unfold contactOf
  split
  · exact iff_of_false (by simp) (by omega)
  · rw [Option.some.injEq]
    show trackingId.toNat = id ↔ _
    omega

/-- Each contact is within the size it carries. -/
theorem Sound.contact_within (h : a.Sound) (slot : Fin touchSlots) (id : ContactId) :
    (0 ≤ (a.contact (id, a.slots slot)).x ∧ (a.contact (id, a.slots slot)).x ≤ a.size.width) ∧
      (0 ≤ (a.contact (id, a.slots slot)).y ∧ (a.contact (id, a.slots slot)).y ≤ a.size.height) := by
  obtain ⟨hloX, hhiX⟩ := h.placedX slot
  obtain ⟨hloY, hhiY⟩ := h.placedY slot
  have hmonoX := hundredths_mono hloX hhiX h.scaleX.1
  have hmonoY := hundredths_mono hloY hhiY h.scaleY.1
  have hrangeX := hundredths_range hloX h.scaleX.1
  have hrangeY := hundredths_range hloY h.scaleY.1
  simp only [contact, size]
  omega

/-- **A snapshot is faithful.** -/
theorem snapshot_faithful (h : a.Sound) (hs : Follows s a) {state : TouchState} (hok : a.snapshot = .ok state) :
    Faithful s state := by
  unfold TouchAccumulator.snapshot at hok
  rw [h.contacts_eq] at hok
  have hinserted := inserted_of_insertContacts (Act.mapError_eq_ok.mp hok)
  have hids : (a.active.map a.contact).map (·.id) = a.active.map Prod.fst := by
    rw [List.map_map]
    rfl
  constructor
  · rw [hinserted.size, List.length_map]
    have hlength : a.active.length ≤ (List.finRange touchSlots).length := List.length_filterMap_le ..
    simpa using hlength
  · intro first second id hfirst hsecond
    have hnodup := hinserted.nodup
    rw [hids, active_ids, List.Nodup, List.pairwise_filterMap] at hnodup
    have hsymm : Std.Symm fun i j : Fin touchSlots => ∀ id, (a.slots i).trackingId = some id →
        ∀ id', (a.slots j).trackingId = some id' → id ≠ id' :=
      ⟨fun _ _ hpair id hid id' hid' heq => hpair id' hid' id hid heq.symm⟩
    by_contra hne
    have hpair := hnodup.forall (List.mem_finRange first) (List.mem_finRange second) hne
    have hfirst' := (hs.contacts first).trans (contactOf_eq_some.mpr hfirst)
    have hsecond' := (hs.contacts second).trans (contactOf_eq_some.mpr hsecond)
    exact hpair id hfirst' id hsecond' rfl
  · intro id
    rw [hinserted.mem, hids, active_ids, List.mem_filterMap]
    constructor
    · rintro (hempty | ⟨slot, -, hslot⟩)
      · simp at hempty
      · exact ⟨slot, contactOf_eq_some.mp ((hs.contacts slot).symm.trans hslot)⟩
    · rintro ⟨slot, hslot⟩
      exact .inr ⟨slot, List.mem_finRange slot, (hs.contacts slot).trans (contactOf_eq_some.mpr hslot)⟩
  · intro id entry hget
    rcases hinserted.entry id entry hget with hempty | ⟨hmem, hid⟩
    · simp at hempty
    obtain ⟨⟨id', kept⟩, hactive, rfl⟩ := List.mem_map.mp hmem
    obtain ⟨slot, -, hslot⟩ := mem_active.mp hactive
    obtain rfl : kept = a.slots slot := hslot
    exact ⟨hid, a.size, rfl, h.contact_within slot id'⟩

/-! ## Every sequence of events -/

/-- A report does not panic. -/
theorem Sound.push_report (h : a.Sound) :
    (TouchAccumulator.push .report a).1 ≠ .error .panicked ∧ (TouchAccumulator.push .report a).2.Sound := by
  have hsnapshot : a.snapshot ≠ .error .panicked := by
    unfold TouchAccumulator.snapshot
    rw [h.contacts_eq]
    cases hinsert : insertContacts ∅ (a.active.map a.contact) <;> simp [Except.mapError, hinsert]
  simp only [TouchAccumulator.push]
  split
  · split
    · exact ⟨by simp, h.narrow, h.scaleX, h.scaleY, h.placedX, h.placedY⟩
    · rename_i error hfailed
      exact ⟨fun heq => hsnapshot (by rw [hfailed]; simpa using heq), h⟩
  · exact ⟨by simp, h⟩

theorem Sound.push (h : a.Sound) (event : TouchEvent) :
    (TouchAccumulator.push event a).1 ≠ .error .panicked ∧ (TouchAccumulator.push event a).2.Sound := by
  by_cases hreport : event = .report
  · rw [hreport]
    exact h.push_report
  · obtain ⟨hanswer, hsound⟩ := h.push_quiet hreport
    refine ⟨fun heq => ?_, hsound⟩
    rw [heq] at hanswer
    rcases hanswer with hanswer | hanswer <;> cases hanswer

theorem Sound.pushAll (h : a.Sound) (events : List TouchEvent) : (a.pushAll events).Sound := by
  induction events generalizing a with
  | nil => exact h
  | cons event rest ih => exact ih (h.push event).2

/-- What answers a snapshot is a report, and the answer is the snapshot. -/
theorem Sound.snapshot_of_push (h : a.Sound) {event : TouchEvent} {state : TouchState} {count : Nat}
    (hpush : (TouchAccumulator.push event a).1 = .ok (some (state, count))) :
    event = .report ∧ a.snapshot = .ok state := by
  by_cases hreport : event = .report
  · subst hreport
    refine ⟨rfl, ?_⟩
    simp only [TouchAccumulator.push] at hpush
    split at hpush
    · split at hpush
      · rename_i state' hok
        simp only [Except.ok.injEq, Option.some.injEq, Prod.mk.injEq] at hpush
        rw [hok, hpush.1]
      · cases hpush
    · cases hpush
  · rcases (h.push_quiet hreport).1 with hanswer | hanswer <;> rw [hanswer] at hpush <;> cases hpush

end TouchAccumulator

open TouchAccumulator

/-- **The reconstruction of a pad is total and in range**: whatever events it is pushed, none panics, a snapshot
answers only a report, and it is faithful to the surface the events tell of. -/
def Reconstructs (x y : TouchAxisRange) : Prop :=
  ∃ start, TouchAccumulator.new x y = some start ∧ ∀ (before : List TouchEvent) (event : TouchEvent),
    (push event (start.pushAll before)).1 ≠ .error .panicked ∧
      (start.pushAll before).fingers.isSome = true ∧
      ∀ state count, (push event (start.pushAll before)).1 = .ok (some (state, count)) →
        event = .report ∧ Faithful (surfaceAfter before) state

theorem reconstructs_of_narrow {x y : TouchAxisRange} (hx : x.Narrow) (hy : y.Narrow) : Reconstructs x y := by
  obtain ⟨start, hnew, hsound⟩ := sound_new hx hy
  refine ⟨start, hnew, fun before event => ?_⟩
  have hafter := hsound.pushAll before
  refine ⟨(hafter.push event).1, hafter.fingers_some, fun state count hpush => ?_⟩
  obtain ⟨hreport, hok⟩ := hafter.snapshot_of_push hpush
  exact ⟨hreport, snapshot_faithful hafter ((follows_new hnew).pushAll before) hok⟩

/-- A touch and a report compute the size of the pad. -/
theorem narrow_of_reconstructs {x y : TouchAxisRange} (h : Reconstructs x y) : x.Narrow ∧ y.Narrow := by
  obtain ⟨start, hnew, hpush⟩ := h
  obtain ⟨units, -, rfl⟩ := Option.map_eq_some_iff.mp hnew
  have hquiet := (hpush [.absolute .slot ⟨0, by decide⟩] .report).1
  by_contra hwide
  refine hquiet ?_
  have hnone : x.extent = none ∨ y.extent = none := by
    by_cases hx : x.Narrow
    · exact .inr (TouchAxisRange.extent_of_wide fun hy => hwide ⟨hx, hy⟩)
    · exact .inl (TouchAxisRange.extent_of_wide hx)
  have hdimensions : ∀ a : TouchAccumulator, a.x = x → a.y = y → a.snapshot = .error .panicked := by
    intro a hax hay
    have hsize : a.dimensions = none := by
      unfold TouchAccumulator.dimensions
      rcases hnone with hnone | hnone
      · rw [hax, hnone]
        rfl
      · rw [hay, hnone]
        cases a.x.extent with
        | none => rfl
        | some extent =>
          rw [Option.bind_eq_bind, Option.bind_some]
          cases hundredthsMm extent a.unitsPer100mm.1 <;> rfl
    unfold TouchAccumulator.snapshot TouchAccumulator.contacts
    rw [hsize]
    rfl
  simp only [TouchAccumulator.push, pushAll, List.foldl_cons, List.foldl_nil, absolute, mapped, if_true]
  rw [hdimensions _ rfl rfl]

/-- **The reconstruction is total and in range exactly for axes whose extents are `i32`s.** -/
theorem reconstructs_iff (x y : TouchAxisRange) :
    Reconstructs x y ↔ x.maximum.1 - x.minimum.1 < 2147483648 ∧ y.maximum.1 - y.minimum.1 < 2147483648 :=
  ⟨narrow_of_reconstructs, fun h => reconstructs_of_narrow h.1 h.2⟩

/-- An axis from one end of `i32` to the other, which is accepted. -/
def wideAxis : TouchAxisRange := ⟨⟨-2147483648, by decide⟩, ⟨2147483647, by decide⟩, ⟨1, by decide⟩, by decide⟩

theorem not_reconstructs : ¬ ∀ x y : TouchAxisRange, Reconstructs x y := by
  intro h
  exact absurd (narrow_of_reconstructs (h wideAxis wideAxis)).1 (by decide)

end Zflow.Linux
