import Mathlib.Data.List.Perm.Subperm
import Zflow.Linux.Touchpad

/-!
# The touchpad that the kernel sees

Whatever reports the device took before, the reports for a touch state leave the kernel with exactly its contacts,
each in its slot, and with the keys that say how many there are. Only the tracking ids can go wrong: the counter that
hands them out starts over at 65535 and does not look whether a contact still has the next one.
-/

namespace Zflow.Linux

open Zflow.Core Lib Multitouch

/-! ## On the pad -/

theorem touchAxis_range (contact : TouchContact) (horizontal : Bool) : 0 ≤ touchAxis contact horizontal ∧
    touchAxis contact horizontal ≤ if horizontal then touchpadMaxX else touchpadMaxY := by
  have hmaximum : 0 ≤ if horizontal then touchpadMaxX else touchpadMaxY := by cases horizontal <;> decide
  cases horizontal <;> exact ⟨le_max_left _ _, max_le hmaximum (min_le_right _ _)⟩

/-! ## Tracking ids -/

def IsTrackingId (id : Int) : Prop := 1 ≤ id ∧ id ≤ 65535

/-- The ids that are handed out, in closed form. -/
theorem succTrackingId_iterate {id : Int} (h : IsTrackingId id) (k : Nat) :
    succTrackingId^[k] id = (id - 1 + k) % 65535 + 1 := by
  induction k with
  | zero =>
    unfold IsTrackingId at h
    rw [Function.iterate_zero, id_eq]
    omega
  | succ k ih =>
    rw [Function.iterate_succ_apply', ih]
    unfold succTrackingId
    split <;> omega

theorem isTrackingId_iterate {id : Int} (h : IsTrackingId id) (k : Nat) : IsTrackingId (succTrackingId^[k] id) := by
  rw [succTrackingId_iterate h]
  unfold IsTrackingId
  omega

/-- The ids that one report hands out differ. -/
theorem succTrackingId_iterate_ne {id : Int} (h : IsTrackingId id) {j k : Nat} (hlt : j < k) (hk : k < 65535) :
    succTrackingId^[j] id ≠ succTrackingId^[k] id := by
  rw [succTrackingId_iterate h, succTrackingId_iterate h]
  omega

/-! ## Slots -/

theorem freeSlot_eq_some {used : List Nat} {slot : Nat} (h : freeSlot used = some slot) :
    slot < maxTouchpadContacts ∧ slot ∉ used := by
  have hfound := List.find?_some h
  exact ⟨List.mem_range.mp (List.mem_of_find?_eq_some h), of_decide_eq_true hfound⟩

/-- A slot is free while fewer are used than there are. -/
theorem exists_freeSlot {used : List Nat} (h : used.length < maxTouchpadContacts) : ∃ slot, freeSlot used = some slot := by
  cases hfree : freeSlot used with
  | some slot => exact ⟨slot, rfl⟩
  | none =>
    have hused : List.range maxTouchpadContacts ⊆ used := fun slot hslot => by
      simpa using List.find?_eq_none.mp hfree slot hslot
    have hlength := (List.subperm_of_subset List.nodup_range hused).length_le
    rw [List.length_range] at hlength
    omega

/-! ## Placing contacts -/

section Maps

variable {V : Type} {m : Std.ExtTreeMap ContactId V} {id : ContactId} {v : V}

theorem mem_of_getElem? (h : m[id]? = some v) : id ∈ m :=
  Std.ExtTreeMap.mem_iff_isSome_getElem?.mpr (by rw [h]; rfl)

theorem not_mem_of_getElem? (h : m[id]? = none) : id ∉ m := fun hmem => by
  have hsome := Std.ExtTreeMap.mem_iff_isSome_getElem?.mp hmem
  rw [h] at hsome
  cases hsome

theorem getElem?_of_mem (h : id ∈ m) : ∃ v, m[id]? = some v :=
  Option.isSome_iff_exists.mp (Std.ExtTreeMap.mem_iff_isSome_getElem?.mp h)

end Maps

/-- How many of some contacts were not there. -/
def landed (previous : TouchpadState) (done : List (ContactId × TouchContact)) : Nat :=
  (done.filter (·.1 ∉ previous.contacts)).length

/-- Where a contact is put. -/
def TargetContact.at (target : TargetContact) (contact : TouchContact) : TargetContact :=
  { target with x := touchAxis contact true, y := touchAxis contact false }

/-- **What placing some contacts comes to**: those that were there keep their slots and ids, and the others have
slots that no contact had. -/
structure Placed (previous : TouchpadState) (done : List (ContactId × TouchContact)) (used : List Nat)
    (next : TouchpadState) : Prop where
  mem : ∀ id : ContactId, id ∈ next.contacts ↔ ∃ contact, (id, contact) ∈ done
  nextId : next.nextTrackingId = succTrackingId^[landed previous done] previous.nextTrackingId
  used_length : used.length = previous.contacts.size + landed previous done
  slot_used : ∀ (id : ContactId) (c : TargetContact), next.contacts[id]? = some c → c.slot ∈ used
  previous_used : ∀ (id : ContactId) (c : TargetContact), previous.contacts[id]? = some c → c.slot ∈ used
  kept : ∀ (id : ContactId) (contact : TouchContact) (old : TargetContact), (id, contact) ∈ done → previous.contacts[id]? = some old →
    next.contacts[id]? = some (old.at contact)
  fresh : ∀ (id : ContactId) (contact : TouchContact), (id, contact) ∈ done → previous.contacts[id]? = none →
    ∃ c : TargetContact, next.contacts[id]? = some c ∧ c = c.at contact ∧ c.slot < maxTouchpadContacts ∧
    (∀ (other : ContactId) (old : TargetContact), previous.contacts[other]? = some old → old.slot ≠ c.slot) ∧
    ∃ k < landed previous done, c.trackingId = succTrackingId^[k] previous.nextTrackingId
  apart : ∀ (id id' : ContactId) (c c' : TargetContact), id ≠ id' → next.contacts[id]? = some c → next.contacts[id']? = some c' →
    previous.contacts[id]? = none → previous.contacts[id']? = none → c.slot ≠ c'.slot ∧ c.trackingId ≠ c'.trackingId
  handed : ∀ k < landed previous done, ∃ (id : ContactId) (c : TargetContact), next.contacts[id]? = some c ∧
    previous.contacts[id]? = none ∧ c.trackingId = succTrackingId^[k] previous.nextTrackingId

theorem landed_append (previous : TouchpadState) (done : List (ContactId × TouchContact)) (id : ContactId)
    (contact : TouchContact) : landed previous (done ++ [(id, contact)]) =
      landed previous done + if id ∈ previous.contacts then 0 else 1 := by
  unfold landed
  rw [List.filter_append, List.length_append]
  split <;> simp_all

theorem placed_nil (previous : TouchpadState) : Placed previous [] (previous.contacts.toList.map (·.2.slot))
    ⟨∅, previous.nextTrackingId⟩ where
  mem id := by simp
  nextId := rfl
  used_length := by simp [landed]
  slot_used id c h := by simp at h
  previous_used id c h := List.mem_map.mpr ⟨(id, c), Std.ExtTreeMap.mem_toList_iff_getElem?_eq_some.mpr h, rfl⟩
  kept _ _ _ h := by cases h
  fresh _ _ h := by cases h
  apart _ _ _ _ _ h := by simp at h
  handed _ h := by cases h

namespace Placed

variable {previous next : TouchpadState} {done : List (ContactId × TouchContact)} {used : List Nat}
  {id : ContactId} {contact : TouchContact}

theorem getElem?_insert_self (m : Std.ExtTreeMap ContactId TargetContact) (id : ContactId) (c : TargetContact) :
    (m.insert id c)[id]? = some c := by
  simp

theorem getElem?_insert_ne (m : Std.ExtTreeMap ContactId TargetContact) {id other : ContactId} (h : other ≠ id)
    (c : TargetContact) : (m.insert id c)[other]? = m[other]? := by
  rw [Std.ExtTreeMap.getElem?_insert, if_neg (by simpa using h.symm)]

theorem mem_insert {c : TargetContact} (h : Placed previous done used next) (contact : TouchContact)
    (other : ContactId) :
    other ∈ next.contacts.insert id c ↔ ∃ contact', (other, contact') ∈ done ++ [(id, contact)] := by
  rw [Std.ExtTreeMap.mem_insert, Std.compare_eq_iff_eq, h.mem]
  constructor
  · rintro (rfl | ⟨contact', hdone⟩)
    · exact ⟨contact, by simp⟩
    · exact ⟨contact', List.mem_append_left _ hdone⟩
  · rintro ⟨contact', hdone⟩
    rcases List.mem_append.mp hdone with hdone | hdone
    · exact .inr ⟨contact', hdone⟩
    · exact .inl (congrArg Prod.fst (List.mem_singleton.mp hdone)).symm

/-- A contact that was there stays in its slot. -/
theorem insert_kept (h : Placed previous done used next) (hnew : ∀ contact, (id, contact) ∉ done)
    {old : TargetContact} (hold : previous.contacts[id]? = some old) (contact : TouchContact) :
    Placed previous (done ++ [(id, contact)]) used
      { next with contacts := next.contacts.insert id (old.at contact) } := by
  have hthere : id ∈ previous.contacts := mem_of_getElem? hold
  have hlanded : landed previous (done ++ [(id, contact)]) = landed previous done := by
    rw [landed_append, if_pos hthere, Nat.add_zero]
  have hne : ∀ {other : ContactId}, previous.contacts[other]? = none → other ≠ id := by
    rintro other hother rfl
    rw [hold] at hother
    cases hother
  refine ⟨h.mem_insert contact, ?_, ?_, fun other c hc => ?_, h.previous_used, fun other contact' old' hdone hold' => ?_,
    fun other contact' hdone hother => ?_, fun id₁ id₂ c₁ c₂ hids h₁ h₂ hnone₁ hnone₂ => ?_, fun k hk => ?_⟩
  · rw [hlanded]
    exact h.nextId
  · rw [hlanded]
    exact h.used_length
  · by_cases heq : other = id
    · subst heq
      rw [getElem?_insert_self] at hc
      cases hc
      exact h.previous_used other old hold
    · rw [getElem?_insert_ne _ heq] at hc
      exact h.slot_used other c hc
  · rcases List.mem_append.mp hdone with hbefore | hdone
    · have heq : other ≠ id := by
        rintro rfl
        exact hnew _ hbefore
      rw [getElem?_insert_ne _ heq]
      exact h.kept other contact' old' hbefore hold'
    · cases List.mem_singleton.mp hdone
      rw [hold] at hold'
      cases hold'
      exact getElem?_insert_self _ _ _
  · rcases List.mem_append.mp hdone with hdone | hdone
    · rw [getElem?_insert_ne _ (hne hother), hlanded]
      exact h.fresh other contact' hdone hother
    · cases List.mem_singleton.mp hdone
      exact absurd rfl (hne hother)
  · rw [getElem?_insert_ne _ (hne hnone₁)] at h₁
    rw [getElem?_insert_ne _ (hne hnone₂)] at h₂
    exact h.apart id₁ id₂ c₁ c₂ hids h₁ h₂ hnone₁ hnone₂
  · rw [hlanded] at hk
    obtain ⟨other, c, hc, hother, hid⟩ := h.handed k hk
    exact ⟨other, c, by rw [getElem?_insert_ne _ (hne hother)]; exact hc, hother, hid⟩

/-- A contact that lands takes a free slot and the next id. -/
theorem insert_fresh (h : Placed previous done used next) (hnew : ∀ contact, (id, contact) ∉ done)
    (hnone : previous.contacts[id]? = none) {slot : Nat} (hslot : freeSlot used = some slot)
    (hid : IsTrackingId previous.nextTrackingId) (hfew : landed previous done < 65535) (contact : TouchContact) :
    Placed previous (done ++ [(id, contact)]) (slot :: used)
      ⟨next.contacts.insert id ⟨slot, next.nextTrackingId, touchAxis contact true, touchAxis contact false⟩,
        succTrackingId next.nextTrackingId⟩ := by
  obtain ⟨hlt, hfree⟩ := freeSlot_eq_some hslot
  have hlanded : landed previous (done ++ [(id, contact)]) = landed previous done + 1 := by
    rw [landed_append, if_neg (not_mem_of_getElem? hnone)]
  have hne : ∀ {other : ContactId}, other ∈ next.contacts → other ≠ id := by
    rintro other hother rfl
    obtain ⟨contact', hdone⟩ := (h.mem other).mp hother
    exact hnew _ hdone
  have hne' : ∀ {other : ContactId} {c : TargetContact}, next.contacts[other]? = some c → other ≠ id := fun hc =>
    hne (mem_of_getElem? hc)
  have hlater : ∀ (other : ContactId) (c : TargetContact), next.contacts[other]? = some c →
      previous.contacts[other]? = none → c.slot ≠ slot ∧ c.trackingId ≠ next.nextTrackingId := by
    intro other c hc hother
    refine ⟨fun heq => hfree (heq ▸ h.slot_used other c hc), ?_⟩
    obtain ⟨contact', hdone⟩ := (h.mem other).mp (mem_of_getElem? hc)
    obtain ⟨c', hc', -, -, -, k, hk, hck⟩ := h.fresh other contact' hdone hother
    cases hc.symm.trans hc'
    rw [hck, h.nextId]
    exact succTrackingId_iterate_ne hid hk hfew
  refine ⟨h.mem_insert contact, ?_, ?_, fun other c hc => ?_, fun other c hc => ?_,
    fun other contact' old' hdone hold' => ?_, fun other contact' hdone hother => ?_,
    fun id₁ id₂ c₁ c₂ hids h₁ h₂ hnone₁ hnone₂ => ?_, fun k hk => ?_⟩
  · rw [hlanded, Function.iterate_succ_apply', ← h.nextId]
  · rw [hlanded, List.length_cons, h.used_length]
    omega
  · by_cases heq : other = id
    · subst heq
      rw [getElem?_insert_self] at hc
      cases hc
      exact .head _
    · rw [getElem?_insert_ne _ heq] at hc
      exact .tail _ (h.slot_used other c hc)
  · exact .tail _ (h.previous_used other c hc)
  · rcases List.mem_append.mp hdone with hdone | hdone
    · have hkept := h.kept other contact' old' hdone hold'
      rw [getElem?_insert_ne _ (hne' hkept)]
      exact hkept
    · cases List.mem_singleton.mp hdone
      rw [hnone] at hold'
      cases hold'
  · rcases List.mem_append.mp hdone with hdone | hdone
    · obtain ⟨c, hc, hat, hslot', hold, k, hk, hck⟩ := h.fresh other contact' hdone hother
      rw [getElem?_insert_ne _ (hne' hc), hlanded]
      exact ⟨c, hc, hat, hslot', hold, k, hk.trans (Nat.lt_succ_self _), hck⟩
    · cases List.mem_singleton.mp hdone
      refine ⟨_, getElem?_insert_self _ _ _, rfl, hlt, fun other' old hold heq => ?_, ?_⟩
      · have hused : old.slot = slot := heq
        exact hfree (hused ▸ h.previous_used other' old hold)
      · exact ⟨landed previous done, by rw [hlanded]; exact Nat.lt_succ_self _, h.nextId⟩
  · by_cases heq₁ : id₁ = id
    · subst heq₁
      rw [getElem?_insert_self] at h₁
      rw [getElem?_insert_ne _ hids.symm] at h₂
      cases h₁
      obtain ⟨hslots, hids'⟩ := hlater id₂ c₂ h₂ hnone₂
      exact ⟨hslots.symm, hids'.symm⟩
    · rw [getElem?_insert_ne _ heq₁] at h₁
      by_cases heq₂ : id₂ = id
      · subst heq₂
        rw [getElem?_insert_self] at h₂
        cases h₂
        exact hlater id₁ c₁ h₁ hnone₁
      · rw [getElem?_insert_ne _ heq₂] at h₂
        exact h.apart id₁ id₂ c₁ c₂ hids h₁ h₂ hnone₁ hnone₂
  · rw [hlanded] at hk
    rcases Nat.lt_succ_iff_lt_or_eq.mp hk with hk | rfl
    · obtain ⟨other, c, hc, hother, hck⟩ := h.handed k hk
      exact ⟨other, c, by rw [getElem?_insert_ne _ (hne' hc)]; exact hc, hother, hck⟩
    · exact ⟨id, _, getElem?_insert_self _ _ _, hnone, h.nextId⟩

end Placed

/-- **The loop places every contact** while the slots suffice. -/
theorem placeContacts_spec {previous next : TouchpadState} {done rest : List (ContactId × TouchContact)}
    {used : List Nat} (h : Placed previous done used next) (hnew : ∀ entry ∈ rest, ∀ contact, (entry.1, contact) ∉ done)
    (hdistinct : rest.Pairwise (·.1 ≠ ·.1)) (hid : IsTrackingId previous.nextTrackingId)
    (hroom : previous.contacts.size + landed previous (done ++ rest) ≤ maxTouchpadContacts) :
    ∃ used' final, placeContacts previous rest used next = some final ∧ Placed previous (done ++ rest) used' final := by
  induction rest generalizing done used next with
  | nil => exact ⟨used, next, rfl, by rwa [List.append_nil]⟩
  | cons entry rest ih =>
    obtain ⟨id, contact⟩ := entry
    obtain ⟨hfirst, hrest⟩ := List.pairwise_cons.mp hdistinct
    have hsplit : done ++ (id, contact) :: rest = done ++ [(id, contact)] ++ rest := by simp
    have hnew' : ∀ entry ∈ rest, ∀ contact', (entry.1, contact') ∉ done ++ [(id, contact)] := by
      intro entry hentry contact' hmem
      rcases List.mem_append.mp hmem with hmem | hmem
      · exact hnew entry (.tail _ hentry) contact' hmem
      · exact hfirst entry hentry (congrArg Prod.fst (List.mem_singleton.mp hmem)).symm
    rw [hsplit] at hroom ⊢
    rw [placeContacts]
    cases hprevious : previous.contacts[id]? with
    | some old => exact ih (h.insert_kept (hnew _ (.head _)) hprevious contact) hnew' hrest hroom
    | none =>
      have hlanded : landed previous (done ++ [(id, contact)]) = landed previous done + 1 := by
        rw [landed_append, if_neg (not_mem_of_getElem? hprevious)]
      have hmono : landed previous (done ++ [(id, contact)]) ≤ landed previous (done ++ [(id, contact)] ++ rest) := by
        unfold landed
        rw [List.filter_append _ rest, List.length_append]
        exact Nat.le_add_right _ _
      have hused := h.used_length
      obtain ⟨slot, hslot⟩ : ∃ slot, freeSlot used = some slot := exists_freeSlot (by omega)
      have hfew : landed previous done < 65535 := by
        unfold maxTouchpadContacts at hroom
        omega
      have hplaced := h.insert_fresh (hnew _ (.head _)) hprevious hslot hid hfew contact
      obtain ⟨used', final, hfinal, hspec⟩ := ih hplaced hnew' hrest hroom
      refine ⟨used', final, ?_, hspec⟩
      show (freeSlot used).bind _ = some final
      rw [hslot]
      exact hfinal

/-- The contacts of a touch state, each placed. -/
theorem placeContacts_touch {previous : TouchpadState} (touch : TouchState) (hid : IsTrackingId previous.nextTrackingId)
    (hroom : previous.contacts.size + (landing previous touch).length ≤ maxTouchpadContacts) :
    ∃ used next, placeContacts previous touch.toList (previous.contacts.toList.map (·.2.slot))
      ⟨∅, previous.nextTrackingId⟩ = some next ∧ Placed previous touch.toList used next := by
  refine placeContacts_spec (placed_nil previous) (fun _ _ _ h => by cases h) ?_ hid hroom
  exact Std.ExtTreeMap.distinct_keys_toList.imp fun hne heq => hne (Std.compare_eq_iff_eq.mpr heq)

/-! ## The planner's state -/

/-- **What every state of the planner keeps.** -/
structure TouchpadState.Sound (s : TouchpadState) : Prop where
  few : s.contacts.size ≤ maxTouchpadContacts
  nextId : IsTrackingId s.nextTrackingId
  contacts : ∀ (id : ContactId) (c : TargetContact), s.contacts[id]? = some c → c.slot < maxTouchpadContacts ∧
    IsTrackingId c.trackingId ∧ (0 ≤ c.x ∧ c.x ≤ touchpadMaxX) ∧ 0 ≤ c.y ∧ c.y ≤ touchpadMaxY
  slots : ∀ (id id' : ContactId) (c c' : TargetContact), s.contacts[id]? = some c → s.contacts[id']? = some c' →
    c.slot = c'.slot → id = id'

/-- No two contacts have the same tracking id. -/
def TouchpadState.Distinct (s : TouchpadState) : Prop :=
  ∀ (id id' : ContactId) (c c' : TargetContact), s.contacts[id]? = some c → s.contacts[id']? = some c' →
    c.trackingId = c'.trackingId → id = id'

theorem TouchpadState.sound_initial : TouchpadState.initial.Sound where
  few := by decide
  nextId := ⟨by decide, by decide⟩
  contacts _ _ h := by simp [initial] at h
  slots _ _ _ _ h := by simp [initial] at h

namespace Placed

variable {previous next : TouchpadState} {touch : TouchState} {used : List Nat} {id : ContactId}

theorem mem_touch (h : Placed previous touch.toList used next) (id : ContactId) :
    id ∈ next.contacts ↔ id ∈ touch := by
  rw [h.mem]
  constructor
  · rintro ⟨contact, hcontact⟩
    exact mem_of_getElem? (Std.ExtTreeMap.mem_toList_iff_getElem?_eq_some.mp hcontact)
  · intro hmem
    obtain ⟨contact, hcontact⟩ := getElem?_of_mem hmem
    exact ⟨contact, Std.ExtTreeMap.mem_toList_iff_getElem?_eq_some.mpr hcontact⟩

theorem size_eq (h : Placed previous touch.toList used next) : next.contacts.size = touch.size := by
  rw [← Std.ExtTreeMap.length_keys, ← Std.ExtTreeMap.length_keys]
  refine List.Perm.length_eq ((List.perm_ext_iff_of_nodup Std.ExtTreeMap.nodup_keys Std.ExtTreeMap.nodup_keys).mpr ?_)
  intro id
  rw [Std.ExtTreeMap.mem_keys, Std.ExtTreeMap.mem_keys, h.mem_touch]

/-- A contact of the next state is one of the touch state's, which was there or lands. -/
theorem cases_contact (h : Placed previous touch.toList used next) {c : TargetContact}
    (hc : next.contacts[id]? = some c) : ∃ contact, touch[id]? = some contact ∧
      ((∃ old, previous.contacts[id]? = some old ∧ c = old.at contact) ∨
        previous.contacts[id]? = none ∧ c = c.at contact ∧ c.slot < maxTouchpadContacts ∧
        (∀ (other : ContactId) (old : TargetContact), previous.contacts[other]? = some old → old.slot ≠ c.slot) ∧
        ∃ k < landed previous touch.toList, c.trackingId = succTrackingId^[k] previous.nextTrackingId) := by
  obtain ⟨contact, hcontact⟩ := (h.mem id).mp (mem_of_getElem? hc)
  refine ⟨contact, Std.ExtTreeMap.mem_toList_iff_getElem?_eq_some.mp hcontact, ?_⟩
  cases hprevious : previous.contacts[id]? with
  | some old => exact .inl ⟨old, rfl, Option.some.inj (hc.symm.trans (h.kept id contact old hcontact hprevious))⟩
  | none =>
    obtain ⟨c', hc', hfresh⟩ := h.fresh id contact hcontact hprevious
    cases hc.symm.trans hc'
    exact .inr ⟨rfl, hfresh⟩

theorem sound (h : Placed previous touch.toList used next) (hprevious : previous.Sound)
    (hfew : touch.size ≤ maxTouchpadContacts) : next.Sound where
  few := h.size_eq ▸ hfew
  nextId := h.nextId ▸ isTrackingId_iterate hprevious.nextId _
  contacts id c hc := by
    have hplace : ∀ contact, 0 ≤ (c.at contact).x ∧ (c.at contact).x ≤ touchpadMaxX ∧ 0 ≤ (c.at contact).y ∧
        (c.at contact).y ≤ touchpadMaxY := fun contact =>
      ⟨(touchAxis_range contact true).1, (touchAxis_range contact true).2, (touchAxis_range contact false).1,
        (touchAxis_range contact false).2⟩
    obtain ⟨contact, -, ⟨old, hold, rfl⟩ | ⟨-, hat, hslot, -, k, -, hk⟩⟩ := h.cases_contact hc
    · obtain ⟨hslot, hid, -⟩ := hprevious.contacts id old hold
      exact ⟨hslot, hid, ⟨(hplace contact).1, (hplace contact).2.1⟩, (hplace contact).2.2⟩
    · rw [hat]
      refine ⟨hslot, ?_, ⟨(hplace contact).1, (hplace contact).2.1⟩, (hplace contact).2.2⟩
      show IsTrackingId c.trackingId
      rw [hk]
      exact isTrackingId_iterate hprevious.nextId k
  slots id id' c c' hc hc' hslots := by
    by_contra hne
    obtain ⟨contact, -, ⟨old, hold, rfl⟩ | ⟨hnone, -, -, hfree, -⟩⟩ := h.cases_contact hc
    · obtain ⟨contact', -, ⟨old', hold', rfl⟩ | ⟨hnone', -, -, hfree', -⟩⟩ := h.cases_contact hc'
      · exact hne (hprevious.slots id id' old old' hold hold' hslots)
      · exact hfree' id old hold hslots
    · obtain ⟨contact', -, ⟨old', hold', rfl⟩ | ⟨hnone', -, -, hfree', -⟩⟩ := h.cases_contact hc'
      · exact hfree id' old' hold' hslots.symm
      · exact (h.apart id id' c c' hne hc hc' hnone hnone').1 hslots

end Placed

/-! ## The reports -/

/-- What a report says of a contact that lifts. -/
def liftEdit (next : TouchpadState) (entry : ContactId × TargetContact) : Option Edit :=
  if entry.1 ∈ next.contacts then none else some ⟨entry.2.slot, some (-1), none, none⟩

/-- What a report says of a contact that lands or moves. -/
def updateEdit (previous : TouchpadState) (entry : ContactId × TargetContact) : Option Edit :=
  let old := previous.contacts[entry.1]?
  let current := entry.2
  if old = some current then none
  else some ⟨current.slot, if old.isNone then some current.trackingId else none,
    if old.all (·.x ≠ current.x) then some current.x else none,
    if old.all (·.y ≠ current.y) then some current.y else none⟩

def edits (previous next : TouchpadState) : List Edit :=
  previous.contacts.toList.filterMap (liftEdit next) ++ next.contacts.toList.filterMap (updateEdit previous)

theorem liftEvents_eq (next : TouchpadState) (entry : ContactId × TargetContact) :
    liftEvents next entry = (liftEdit next entry).toList.flatMap Edit.events := by
  unfold liftEvents liftEdit
  split <;> rfl

theorem updateEvents_eq (previous : TouchpadState) (entry : ContactId × TargetContact) :
    updateEvents previous entry = (updateEdit previous entry).toList.flatMap Edit.events := by
  unfold updateEvents updateEdit
  dsimp only
  by_cases hsame : previous.contacts[entry.1]? = some entry.2
  · rw [if_pos hsame, if_pos hsame]
    rfl
  · rw [if_neg hsame, if_neg hsame]
    simp only [Option.toList_some, List.flatMap_cons, List.flatMap_nil, List.append_nil, Edit.events, Edit.said]
    split <;> split <;> split <;> rfl

theorem flatMap_toList {A B C : Type} (g : A → Option B) (h : B → List C) (l : List A) :
    (l.flatMap fun a => (g a).toList.flatMap h) = (l.filterMap g).flatMap h := by
  induction l with
  | nil => rfl
  | cons a rest ih =>
    rw [List.flatMap_cons, List.filterMap_cons, ih]
    cases g a with
    | none => rfl
    | some b => simp

/-- The rest of a report, which is about no slot. -/
def countEvents (previous next : TouchpadState) : List Event :=
  toolEvents previous.contacts.size next.contacts.size ++ primaryEvents next

theorem report_events (previous next : TouchpadState) :
    previous.contacts.toList.flatMap (liftEvents next) ++ next.contacts.toList.flatMap (updateEvents previous) ++
        toolEvents previous.contacts.size next.contacts.size ++ primaryEvents next =
      (edits previous next).flatMap Edit.events ++ countEvents previous next := by
  have hlift : liftEvents next = fun entry => (liftEdit next entry).toList.flatMap Edit.events :=
    funext (liftEvents_eq next)
  have hupdate : updateEvents previous = fun entry => (updateEdit previous entry).toList.flatMap Edit.events :=
    funext (updateEvents_eq previous)
  rw [hlift, hupdate, flatMap_toList, flatMap_toList, edits, List.flatMap_append, countEvents]
  simp only [List.append_assoc]

theorem slotless_countEvents (previous next : TouchpadState) :
    ∀ event ∈ countEvents previous next, event.Slotless := by
  intro event hevent
  rcases List.mem_append.mp hevent with hevent | hevent
  · unfold toolEvents at hevent
    rcases List.mem_append.mp hevent with hevent | hevent
    · split at hevent
      · rcases List.mem_append.mp hevent with hevent | hevent <;>
          obtain ⟨code, -, rfl⟩ := List.mem_map.mp hevent <;> trivial
      · cases hevent
    · split at hevent
      · cases List.mem_singleton.mp hevent
        trivial
      · cases hevent
  · unfold primaryEvents at hevent
    split at hevent
    · rcases List.mem_cons.mp hevent with rfl | hevent
      · trivial
      · cases List.mem_singleton.mp hevent
        trivial
    · cases hevent

/-- **The keys after a report** are those of the new count. -/
def CountKeys (keys : Nat → Bool) (count : Nat) : Prop :=
  ∀ code, keys code = true ↔ (code = btnTouch ∧ count ≠ 0) ∨ touchToolKey count = some code

theorem touchToolKey_ne_touch (count : Nat) : touchToolKey count ≠ some btnTouch := by
  unfold touchToolKey
  split <;> decide

/-- One key goes up and another goes down. -/
theorem keys_swap (s : Surface) (old new : Option Nat) (code : Nat) :
    (s.applyAll (old.toList.map (.key · false) ++ new.toList.map (.key · true))).keys code =
      if new = some code then true else if old = some code then false else s.keys code := by
  cases old <;> cases new <;> simp [Surface.applyAll, Surface.apply, Function.update_apply, eq_comm]

theorem keys_toolEvents {s : Surface} {old new : Nat} (h : CountKeys s.keys old) :
    CountKeys (s.applyAll (toolEvents old new)).keys new := by
  have htools : ∀ code, (s.applyAll (if touchToolKey old ≠ touchToolKey new then
      (touchToolKey old).toList.map (.key · false) ++ (touchToolKey new).toList.map (.key · true) else [])).keys code =
        true ↔ (code = btnTouch ∧ old ≠ 0) ∨ touchToolKey new = some code := by
    intro code
    have hcode := h code
    have hold := touchToolKey_ne_touch old
    by_cases htool : touchToolKey old = touchToolKey new
    · rw [if_neg (not_not_intro htool), ← htool]
      exact hcode
    · rw [if_pos htool, keys_swap]
      split
      · simp_all
      · split
        · have hne : code ≠ btnTouch := by
            rintro rfl
            exact hold ‹_›
          simp_all
        · simp_all
  intro code
  rw [toolEvents, Surface.applyAll_append]
  have hcode := htools code
  by_cases hcount : (old == 0) = (new == 0)
  · have hzero : old ≠ 0 ↔ new ≠ 0 := by
      rw [ne_eq, ne_eq, ← beq_iff_eq, ← beq_iff_eq (a := new), hcount]
    rw [if_neg (not_not_intro hcount), ← hzero]
    exact hcode
  · rw [if_pos hcount]
    show Function.update (s.applyAll _).keys btnTouch (new != 0) code = true ↔ _
    by_cases htouch : code = btnTouch
    · subst htouch
      have hnew := touchToolKey_ne_touch new
      rw [Function.update_self]
      simp_all
    · rw [Function.update_of_ne htouch, hcode]
      simp [htouch]

theorem keys_primaryEvents (s : Surface) (next : TouchpadState) : (s.applyAll (primaryEvents next)).keys = s.keys := by
  unfold primaryEvents
  split <;> rfl

/-- **What the kernel shows** of some contacts: each in its slot, nothing else, and the keys of their count. -/
structure Shows (kernel : Surface) (contacts : Std.ExtTreeMap ContactId TargetContact) : Prop where
  there : ∀ (id : ContactId) (c : TargetContact), contacts[id]? = some c →
    kernel.slots c.slot = ⟨c.trackingId, c.x, c.y⟩
  nothing : ∀ slot : Int, (∀ (id : ContactId) (c : TargetContact), contacts[id]? = some c → (c.slot : Int) ≠ slot) →
    (kernel.slots slot).trackingId = -1
  keys : CountKeys kernel.keys contacts.size

theorem shows_untouched : Shows .untouched ∅ where
  there _ _ h := by simp at h
  nothing _ _ := rfl
  keys code := by simp [Surface.untouched, touchToolKey]

namespace Placed

variable {previous next : TouchpadState} {touch : TouchState} {used : List Nat} {id : ContactId}

theorem mem_edits {e : Edit} : e ∈ edits previous next ↔
    (∃ (id : ContactId) (old : TargetContact), previous.contacts[id]? = some old ∧ id ∉ next.contacts ∧
      e = ⟨old.slot, some (-1), none, none⟩) ∨
    ∃ (id : ContactId) (c : TargetContact), next.contacts[id]? = some c ∧ updateEdit previous (id, c) = some e := by
  unfold edits
  rw [List.mem_append, List.mem_filterMap, List.mem_filterMap]
  refine or_congr ?_ ?_
  · constructor
    · rintro ⟨⟨id, old⟩, hmem, hedit⟩
      unfold liftEdit at hedit
      split at hedit
      · cases hedit
      · cases hedit
        exact ⟨id, old, Std.ExtTreeMap.mem_toList_iff_getElem?_eq_some.mp hmem, ‹_›, rfl⟩
    · rintro ⟨id, old, hold, hgone, rfl⟩
      exact ⟨(id, old), Std.ExtTreeMap.mem_toList_iff_getElem?_eq_some.mpr hold, if_neg hgone⟩
  · constructor
    · rintro ⟨⟨id, c⟩, hmem, hedit⟩
      exact ⟨id, c, Std.ExtTreeMap.mem_toList_iff_getElem?_eq_some.mp hmem, hedit⟩
    · rintro ⟨id, c, hc, hedit⟩
      exact ⟨(id, c), Std.ExtTreeMap.mem_toList_iff_getElem?_eq_some.mpr hc, hedit⟩

theorem updateEdit_slot {c : TargetContact} {e : Edit} (h : updateEdit previous (id, c) = some e) :
    e.slot = c.slot := by
  unfold updateEdit at h
  dsimp only at h
  split at h
  · cases h
  · cases h
    rfl

/-- A slot that a contact lifts from is not one of the next state's. -/
theorem lift_slot_ne (h : Placed previous touch.toList used next) (hprevious : previous.Sound) {id' : ContactId}
    {old c : TargetContact} (hold : previous.contacts[id]? = some old) (hgone : id ∉ next.contacts)
    (hc : next.contacts[id']? = some c) : c.slot ≠ old.slot := by
  intro hslot
  obtain ⟨contact, -, ⟨old', hold', rfl⟩ | ⟨-, -, -, hfree, -⟩⟩ := h.cases_contact hc
  · obtain rfl := hprevious.slots id' id old' old hold' hold hslot
    exact hgone (mem_of_getElem? hc)
  · exact hfree id old hold hslot.symm

/-- **A report says one thing of each slot.** -/
theorem edits_agree (h : Placed previous touch.toList used next) (hprevious : previous.Sound) (hnext : next.Sound)
    {e e' : Edit} (he : e ∈ edits previous next) (he' : e' ∈ edits previous next) (hslot : e'.slot = e.slot) :
    e' = e := by
  rcases mem_edits.mp he with ⟨id, old, hold, hgone, rfl⟩ | ⟨id, c, hc, hedit⟩
  · rcases mem_edits.mp he' with ⟨id', old', hold', hgone', rfl⟩ | ⟨id', c', hc', hedit'⟩
    · rw [Int.natCast_inj.mp hslot]
    · rw [updateEdit_slot hedit'] at hslot
      exact absurd (Int.natCast_inj.mp hslot) (h.lift_slot_ne hprevious hold hgone hc')
  · rcases mem_edits.mp he' with ⟨id', old', hold', hgone', rfl⟩ | ⟨id', c', hc', hedit'⟩
    · rw [updateEdit_slot hedit] at hslot
      exact absurd (Int.natCast_inj.mp hslot.symm) (h.lift_slot_ne hprevious hold' hgone' hc)
    · rw [updateEdit_slot hedit, updateEdit_slot hedit'] at hslot
      obtain rfl := hnext.slots id' id c' c hc' hc (Int.natCast_inj.mp hslot)
      cases hc.symm.trans hc'
      exact Option.some.inj (hedit'.symm.trans hedit)

/-- What is said only where it changed. -/
theorem getD_changed (old new : Int) : (if decide (old ≠ new) = true then some new else none).getD old = new := by
  by_cases hsame : old = new <;> simp [hsame]

/-- The slot of a contact after a report. -/
theorem slots_edits (h : Placed previous touch.toList used next) (hprevious : previous.Sound) (hnext : next.Sound)
    {kernel : Surface} (hshows : Shows kernel previous.contacts) {c : TargetContact}
    (hc : next.contacts[id]? = some c) :
    (kernel.report (edits previous next)).slots c.slot = ⟨c.trackingId, c.x, c.y⟩ := by
  cases hedit : updateEdit previous (id, c) with
  | none =>
    have hold : previous.contacts[id]? = some c := by
      unfold updateEdit at hedit
      dsimp only at hedit
      split at hedit
      · assumption
      · cases hedit
    rw [slots_edits_of_not_mem, hshows.there id c hold]
    rintro e he hslot
    rcases mem_edits.mp he with ⟨id', old', hold', hgone, rfl⟩ | ⟨id', c', hc', hedit'⟩
    · exact h.lift_slot_ne hprevious hold' hgone hc (Int.natCast_inj.mp hslot).symm
    · rw [updateEdit_slot hedit'] at hslot
      obtain rfl := hnext.slots id' id c' c hc' hc (Int.natCast_inj.mp hslot)
      cases hc.symm.trans hc'
      rw [hedit] at hedit'
      cases hedit'
  | some e =>
    have hmem : e ∈ edits previous next := mem_edits.mpr (.inr ⟨id, c, hc, hedit⟩)
    have hslot := updateEdit_slot hedit
    rw [← hslot, slots_edits_of_mem (fun e' he' => h.edits_agree hprevious hnext hmem he') hmem, hslot]
    unfold updateEdit at hedit
    dsimp only at hedit
    split at hedit
    · cases hedit
    · cases hedit
      obtain ⟨contact, -, ⟨old, hold, rfl⟩ | ⟨hnone, -⟩⟩ := h.cases_contact hc
      · have hthere := hshows.there id old hold
        have hslot' : ((old.at contact).slot : Int) = old.slot := rfl
        rw [hslot', hthere, hold]
        unfold Edit.apply
        simp only [Option.isNone_some, Option.all_some, Bool.false_eq_true, if_false, Option.getD_none]
        rw [Slot.mk.injEq]
        exact ⟨rfl, getD_changed _ _, getD_changed _ _⟩
      · rw [hnone]
        rfl

/-- A slot without a contact after a report. -/
theorem nothing_edits (h : Placed previous touch.toList used next) (hprevious : previous.Sound) (hnext : next.Sound)
    {kernel : Surface} (hshows : Shows kernel previous.contacts) {slot : Int}
    (hslot : ∀ (id : ContactId) (c : TargetContact), next.contacts[id]? = some c → (c.slot : Int) ≠ slot) :
    ((kernel.report (edits previous next)).slots slot).trackingId = -1 := by
  by_cases hthere : ∃ (id : ContactId) (old : TargetContact), previous.contacts[id]? = some old ∧ (old.slot : Int) = slot
  · obtain ⟨id, old, hold, rfl⟩ := hthere
    have hgone : id ∉ next.contacts := by
      intro hmem
      obtain ⟨c, hc⟩ := getElem?_of_mem hmem
      obtain ⟨contact, -, ⟨old', hold', rfl⟩ | ⟨hnone, -⟩⟩ := h.cases_contact hc
      · cases hold.symm.trans hold'
        exact hslot id _ hc rfl
      · rw [hold] at hnone
        cases hnone
    have hmem : (⟨old.slot, some (-1), none, none⟩ : Edit) ∈ edits previous next :=
      mem_edits.mpr (.inl ⟨id, old, hold, hgone, rfl⟩)
    have hlifted := slots_edits_of_mem (s := kernel) (fun e' he' => h.edits_agree hprevious hnext hmem he') hmem
    exact congrArg Slot.trackingId hlifted
  · rw [slots_edits_of_not_mem]
    · exact hshows.nothing slot fun id old hold hold' => hthere ⟨id, old, hold, hold'⟩
    · rintro e he rfl
      rcases mem_edits.mp he with ⟨id, old, hold, hgone, rfl⟩ | ⟨id, c, hc, hedit⟩
      · exact hthere ⟨id, old, hold, rfl⟩
      · exact hslot id c hc (updateEdit_slot hedit).symm

/-- **A report leaves the kernel with the next contacts.** -/
theorem shows_report (h : Placed previous touch.toList used next) (hprevious : previous.Sound) (hnext : next.Sound)
    {kernel : Surface} (hshows : Shows kernel previous.contacts) :
    Shows (kernel.applyAll ((edits previous next).flatMap Edit.events ++ countEvents previous next)) next.contacts := by
  rw [Surface.applyAll_append]
  have hslots : ((kernel.report (edits previous next)).applyAll (countEvents previous next)).slots =
      (kernel.report (edits previous next)).slots := slots_applyAll (slotless_countEvents previous next)
  refine ⟨fun id c hc => ?_, fun slot hslot => ?_, ?_⟩
  · exact (congrFun hslots _).trans (h.slots_edits hprevious hnext hshows hc)
  · exact (congrArg Slot.trackingId (congrFun hslots _)).trans (h.nothing_edits hprevious hnext hshows hslot)
  · show CountKeys ((kernel.report (edits previous next)).applyAll (countEvents previous next)).keys _
    rw [countEvents, Surface.applyAll_append, keys_primaryEvents]
    refine keys_toolEvents ?_
    rw [keys_edits]
    exact hshows.keys

end Placed

/-! ## What a report says -/

/-- What the device's axes take. -/
def InRange : Event → Prop
  | .absolute .slot slot => 0 ≤ slot ∧ slot < maxTouchpadContacts
  | .absolute .trackingId id => id = -1 ∨ IsTrackingId id
  | .absolute .positionX x | .absolute .x x => 0 ≤ x ∧ x ≤ touchpadMaxX
  | .absolute .positionY y | .absolute .y y => 0 ≤ y ∧ y ≤ touchpadMaxY
  | .absolute _ _ => False
  | .key _ _ => True

theorem inRange_events {e : Edit} (hslot : 0 ≤ e.slot ∧ e.slot < maxTouchpadContacts)
    (hid : ∀ id ∈ e.trackingId, InRange (.absolute .trackingId id)) (hx : ∀ x ∈ e.x, InRange (.absolute .positionX x))
    (hy : ∀ y ∈ e.y, InRange (.absolute .positionY y)) : ∀ event ∈ e.events, InRange event := by
  intro event hevent
  unfold Edit.events Edit.said at hevent
  rcases List.mem_cons.mp hevent with rfl | hevent
  · exact hslot
  · simp only [List.mem_append, List.mem_map, Option.mem_toList] at hevent
    rcases hevent with (⟨id, hmem, rfl⟩ | ⟨x, hmem, rfl⟩) | ⟨y, hmem, rfl⟩
    · exact hid id hmem
    · exact hx x hmem
    · exact hy y hmem

theorem inRange_countEvents {previous next : TouchpadState} (hnext : next.Sound) :
    ∀ event ∈ countEvents previous next, InRange event := by
  intro event hevent
  rcases List.mem_append.mp hevent with hevent | hevent
  · unfold toolEvents at hevent
    rcases List.mem_append.mp hevent with hevent | hevent
    · split at hevent
      · rcases List.mem_append.mp hevent with hevent | hevent <;>
          obtain ⟨code, -, rfl⟩ := List.mem_map.mp hevent <;> trivial
      · cases hevent
    · split at hevent
      · cases List.mem_singleton.mp hevent
        trivial
      · cases hevent
  · unfold primaryEvents at hevent
    split at hevent
    next primary hprimary =>
      obtain ⟨⟨id, c⟩, hmem, rfl⟩ := List.mem_map.mp (List.argmin_mem hprimary)
      obtain ⟨-, -, hx, hy⟩ := hnext.contacts id c (Std.ExtTreeMap.mem_toList_iff_getElem?_eq_some.mp hmem)
      rcases List.mem_cons.mp hevent with rfl | hevent
      · exact hx
      · cases List.mem_singleton.mp hevent
        exact hy
    next => cases hevent

/-- **A report as it is sent** for a touch state. -/
structure Sent (previous : TouchpadState) (touch : TouchState) (report : Report) : Prop where
  placed : ∃ used, Placed previous touch.toList used report.2
  sound : report.2.Sound
  shows : ∀ kernel, Shows kernel previous.contacts → Shows (kernel.applyAll report.1) report.2.contacts
  inRange : ∀ event ∈ report.1, InRange event
  /-- No slot is both lifted from and landed in. -/
  once : ∀ start slot id id', (slot, id) ∈ trackings start report.1 → (slot, id') ∈ trackings start report.1 → id = id'
  silent : report.2.contacts = previous.contacts → report.1 = []

theorem inRange_edits {previous next : TouchpadState} (hprevious : previous.Sound) (hnext : next.Sound) {e : Edit}
    (he : e ∈ edits previous next) : ∀ event ∈ e.events, InRange event := by
  rcases Placed.mem_edits.mp he with ⟨id, old, hold, -, rfl⟩ | ⟨id, c, hc, hedit⟩
  · have hslot := (hprevious.contacts id old hold).1
    refine inRange_events ⟨Int.natCast_nonneg _, Int.ofNat_lt.mpr hslot⟩ (fun id hid => .inl ?_) (fun _ h => by cases h)
      fun _ h => by cases h
    cases hid
    rfl
  · obtain ⟨hslot, hid, hx, hy⟩ := hnext.contacts id c hc
    unfold updateEdit at hedit
    dsimp only at hedit
    split at hedit
    · cases hedit
    · cases hedit
      refine inRange_events ⟨Int.natCast_nonneg _, Int.ofNat_lt.mpr hslot⟩ ?_ ?_ ?_
      all_goals intro value hvalue; dsimp only at hvalue; split at hvalue <;> cases hvalue
      · exact .inr hid
      · exact hx
      · exact hy

/-- **Every report that is planned** while the slots suffice. -/
theorem planTouchpadReport_sent {previous : TouchpadState} {touch : TouchState} (hprevious : previous.Sound)
    (hfew : touch.size ≤ maxTouchpadContacts)
    (hroom : previous.contacts.size + (landing previous touch).length ≤ maxTouchpadContacts) :
    ∃ report, planTouchpadReport previous touch = some report ∧ Sent previous touch report := by
  obtain ⟨used, next, hplace, hplaced⟩ := placeContacts_touch touch hprevious.nextId hroom
  have hnext := hplaced.sound hprevious hfew
  have hplan : planTouchpadReport previous touch = if next.contacts = previous.contacts then some ([], next)
      else some ((edits previous next).flatMap Edit.events ++ countEvents previous next, next) := by
    unfold planTouchpadReport
    dsimp only
    rw [hplace, ← report_events]
    rfl
  by_cases hsame : next.contacts = previous.contacts
  · refine ⟨_, hplan.trans (if_pos hsame), ⟨used, hplaced⟩, hnext, fun kernel hshows => ?_, fun _ h => (by cases h),
      fun _ _ _ _ h => (by cases h), fun _ => rfl⟩
    show Shows kernel next.contacts
    rwa [hsame]
  · refine ⟨_, hplan.trans (if_neg hsame), ⟨used, hplaced⟩, hnext, fun kernel hshows =>
      hplaced.shows_report hprevious hnext hshows, fun event hevent => ?_, fun start slot id id' hid hid' => ?_,
      fun h => absurd h hsame⟩
    · rcases List.mem_append.mp hevent with hevent | hevent
      · obtain ⟨e, he, hevent⟩ := List.mem_flatMap.mp hevent
        exact inRange_edits hprevious hnext he event hevent
      · exact inRange_countEvents hnext event hevent
    · rw [trackings_edits (slotless_countEvents previous next)] at hid hid'
      obtain ⟨e, he, hmem⟩ := List.mem_flatMap.mp hid
      obtain ⟨e', he', hmem'⟩ := List.mem_flatMap.mp hid'
      obtain ⟨value, hvalue, heq⟩ := List.mem_map.mp hmem
      obtain ⟨value', hvalue', heq'⟩ := List.mem_map.mp hmem'
      obtain ⟨hslot, rfl⟩ := Prod.mk.inj heq
      obtain ⟨hslot', rfl⟩ := Prod.mk.inj heq'
      rw [hplaced.edits_agree hprevious hnext he he' (hslot'.trans hslot.symm)] at hvalue'
      exact Option.mem_unique (Option.mem_toList.mp hvalue) (Option.mem_toList.mp hvalue')

end Zflow.Linux
