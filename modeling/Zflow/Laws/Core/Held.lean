import Zflow.Core.Receiver

/-!
# Reconciling the held state

`reconcileHeld` walks four differences one element at a time. This file says what the walk comes to:
the held state is the authoritative one afterwards (`reconcileHeld_state`), and nothing else of the
activation has changed. The order of the walk matters to a backend and not to its outcome, so the
facts about `sortByKey` are about its elements only.
-/

namespace Zflow.Core

open Lib

/-! ## The order of the walk -/

/-- The sort reorders and does nothing else. -/
theorem sortByKey_perm {α : Type} (key : α → Bool) (xs : List α) : (sortByKey key xs).Perm xs := by
  have h := List.filter_append_perm (fun x => !key x) xs
  simpa [sortByKey] using h

@[simp]
theorem mem_sortByKey {α : Type} {key : α → Bool} {xs : List α} {x : α} :
    x ∈ sortByKey key xs ↔ x ∈ xs := (sortByKey_perm key xs).mem_iff

/-- A tree lists each of its elements once. -/
theorem nodup_toList {α : Type} [Ord α] [Std.TransOrd α] [Std.LawfulEqOrd α]
    (set : Std.ExtTreeSet α) : set.toList.Nodup := by
  refine set.distinct_toList.imp fun {a b} h hab => h ?_
  exact hab ▸ Std.ReflCmp.compare_self

/-! ## The walk, one family at a time -/

theorem mem_foldl_erase {α : Type} [Ord α] [Std.TransOrd α] [Std.LawfulEqOrd α] (xs : List α)
    (set : Std.ExtTreeSet α) (x : α) : x ∈ xs.foldl (fun set y => set.erase y) set ↔ x ∈ set ∧ x ∉ xs := by
  induction xs generalizing set with
  | nil => simp
  | cons y ys ih =>
    rw [List.foldl_cons, ih]
    simp only [Std.ExtTreeSet.mem_erase, List.mem_cons, not_or, ne_eq, Std.compare_eq_iff_eq]
    constructor
    · rintro ⟨⟨hne, hx⟩, hys⟩
      exact ⟨hx, fun h => hne h.symm, hys⟩
    · rintro ⟨hx, hne, hys⟩
      exact ⟨⟨fun h => hne h.symm, hx⟩, hys⟩

theorem mem_foldl_insert {α : Type} [Ord α] [Std.TransOrd α] [Std.LawfulEqOrd α] (xs : List α)
    (set : Std.ExtTreeSet α) (x : α) : x ∈ xs.foldl (fun set y => set.insert y) set ↔ x ∈ set ∨ x ∈ xs := by
  induction xs generalizing set with
  | nil => simp
  | cons y ys ih =>
    rw [List.foldl_cons, ih]
    simp only [Std.ExtTreeSet.mem_insert, List.mem_cons, Std.compare_eq_iff_eq]
    constructor
    · rintro ((hy | hx) | hys)
      · exact .inr (.inl hy.symm)
      · exact .inl hx
      · exact .inr (.inr hys)
    · rintro (hx | hy | hys)
      · exact .inl (.inr hx)
      · exact .inl (.inl hy.symm)
      · exact .inr hys

theorem foldl_releaseKey (keys : List HidUsage) (held : HeldState) : keys.foldl HeldState.releaseKey held =
      { held with pressedKeys := keys.foldl (fun set y => set.erase y) held.pressedKeys } := by
  induction keys generalizing held with
  | nil => rfl
  | cons key keys ih =>
    rw [List.foldl_cons, ih]
    rfl

theorem foldl_pressKey (keys : List HidUsage) (held : HeldState) : keys.foldl HeldState.pressKey held =
      { held with pressedKeys := keys.foldl (fun set y => set.insert y) held.pressedKeys } := by
  induction keys generalizing held with
  | nil => rfl
  | cons key keys ih =>
    rw [List.foldl_cons, ih]
    rfl

theorem foldl_releaseButton (buttons : List PointerButton) (held : HeldState) :
    buttons.foldl HeldState.releaseButton held =
      { held with
        pressedButtons := buttons.foldl (fun set y => set.erase y) held.pressedButtons } := by
  induction buttons generalizing held with
  | nil => rfl
  | cons button buttons ih =>
    rw [List.foldl_cons, ih]
    rfl

theorem foldl_pressButton (buttons : List PointerButton) (held : HeldState) :
    buttons.foldl HeldState.pressButton held =
      { held with
        pressedButtons := buttons.foldl (fun set y => set.insert y) held.pressedButtons } := by
  induction buttons generalizing held with
  | nil => rfl
  | cons button buttons ih =>
    rw [List.foldl_cons, ih]
    rfl

/-! ## The whole walk -/

/-- The keys the walk releases, in its order. -/
def keysUp (held authoritative : HeldState) : List HidUsage :=
  sortByKey isModifier (held.pressedKeys \ authoritative.pressedKeys).toList

/-- The keys the walk presses, in its order. -/
def keysDown (held authoritative : HeldState) : List HidUsage :=
  sortByKey (fun key => !isModifier key) (authoritative.pressedKeys \ held.pressedKeys).toList

def buttonsUp (held authoritative : HeldState) : List PointerButton :=
  (held.pressedButtons \ authoritative.pressedButtons).toList

def buttonsDown (held authoritative : HeldState) : List PointerButton :=
  (authoritative.pressedButtons \ held.pressedButtons).toList

/-- The walk over the touch contacts: one replacement, where they differ. -/
def touchChange (held authoritative : HeldState) : List ReceiverEffect :=
  if held.activeTouch ≠ authoritative.activeTouch then
    [.touchReplaced authoritative.activeTouch true]
  else []

theorem mem_keysUp (held authoritative : HeldState) (key : HidUsage) : key ∈ keysUp held authoritative ↔
      key ∈ held.pressedKeys ∧ key ∉ authoritative.pressedKeys := by
  rw [keysUp, mem_sortByKey, Std.ExtTreeSet.mem_toList, Std.ExtTreeSet.mem_diff_iff]

theorem mem_keysDown (held authoritative : HeldState) (key : HidUsage) : key ∈ keysDown held authoritative ↔
      key ∈ authoritative.pressedKeys ∧ key ∉ held.pressedKeys := by
  rw [keysDown, mem_sortByKey, Std.ExtTreeSet.mem_toList, Std.ExtTreeSet.mem_diff_iff]

theorem mem_buttonsUp (held authoritative : HeldState) (button : PointerButton) :
    button ∈ buttonsUp held authoritative ↔
      button ∈ held.pressedButtons ∧ button ∉ authoritative.pressedButtons := by
  rw [buttonsUp, Std.ExtTreeSet.mem_toList, Std.ExtTreeSet.mem_diff_iff]

theorem mem_buttonsDown (held authoritative : HeldState) (button : PointerButton) :
    button ∈ buttonsDown held authoritative ↔
      button ∈ authoritative.pressedButtons ∧ button ∉ held.pressedButtons := by
  rw [buttonsDown, Std.ExtTreeSet.mem_toList, Std.ExtTreeSet.mem_diff_iff]

theorem nodup_keysUp (held authoritative : HeldState) : (keysUp held authoritative).Nodup :=
  (sortByKey_perm _ _).nodup_iff.mpr (nodup_toList _)

theorem nodup_keysDown (held authoritative : HeldState) : (keysDown held authoritative).Nodup :=
  (sortByKey_perm _ _).nodup_iff.mpr (nodup_toList _)

theorem nodup_buttonsUp (held authoritative : HeldState) : (buttonsUp held authoritative).Nodup :=
  nodup_toList _

theorem nodup_buttonsDown (held authoritative : HeldState) : (buttonsDown held authoritative).Nodup := nodup_toList _

/-- Releasing what is not wanted and pressing what is missing leaves what is wanted. -/
theorem foldl_up_down {α : Type} [Ord α] [Std.TransOrd α] [Std.LawfulEqOrd α]
    {set wanted : Std.ExtTreeSet α} {up down : List α}
    (hup : ∀ x, x ∈ up ↔ x ∈ set ∧ x ∉ wanted) (hdown : ∀ x, x ∈ down ↔ x ∈ wanted ∧ x ∉ set) :
    down.foldl (fun set y => set.insert y) (up.foldl (fun set y => set.erase y) set) = wanted := by
  refine Std.ExtTreeSet.ext_mem fun x => ?_
  rw [mem_foldl_insert, mem_foldl_erase, hup, hdown]
  by_cases hx : x ∈ wanted <;> by_cases hs : x ∈ set <;> simp [hx, hs]

/-- What is missing is the same before and after the releases. -/
theorem diff_foldl_erase {α : Type} [Ord α] [Std.TransOrd α] [Std.LawfulEqOrd α]
    {set wanted : Std.ExtTreeSet α} {up : List α} (hup : ∀ x, x ∈ up ↔ x ∈ set ∧ x ∉ wanted) :
    wanted \ up.foldl (fun set y => set.erase y) set = wanted \ set := by
  refine Std.ExtTreeSet.ext_mem fun x => ?_
  rw [Std.ExtTreeSet.mem_diff_iff, Std.ExtTreeSet.mem_diff_iff, mem_foldl_erase, hup]
  by_cases hx : x ∈ wanted <;> simp [hx]

/-- **Reconciling leaves the authoritative held state**, and its effects are the four differences
and the touch replacement, each in the walk's order. -/
theorem reconcileHeld_eq (state : ActivationState) (authoritative : HeldState) :
    reconcileHeld state authoritative = ((keysUp state.held authoritative).map (.key · false true)
        ++ (keysDown state.held authoritative).map (.key · true true)
        ++ (buttonsUp state.held authoritative).map (.button · false true)
        ++ (buttonsDown state.held authoritative).map (.button · true true)
        ++ touchChange state.held authoritative,
      { state with held := authoritative }) := by
  have hkeys := foldl_up_down (mem_keysUp state.held authoritative) (mem_keysDown state.held authoritative)
  have hbuttons := foldl_up_down (mem_buttonsUp state.held authoritative) (mem_buttonsDown state.held authoritative)
  have hdown := diff_foldl_erase (mem_keysUp state.held authoritative)
  have hbuttonsDown := diff_foldl_erase (mem_buttonsUp state.held authoritative)
  unfold reconcileHeld
  simp only [foldl_releaseKey, foldl_pressKey, foldl_releaseButton, foldl_pressButton]
  unfold keysUp keysDown buttonsUp buttonsDown at *
  simp only [hdown, hkeys, hbuttonsDown, hbuttons]
  by_cases htouch : state.held.activeTouch = authoritative.activeTouch
  · simp [touchChange, htouch]
  · simp [touchChange, htouch, HeldState.replaceTouch]

/-- Releasing everything is reconciling to nothing, without a lease. -/
theorem releaseAll_state (state : ActivationState) :
    (releaseAll state).2 = { state with held := .neutral, leaseDeadline := none } := by
  unfold releaseAll
  rw [reconcileHeld_eq]

theorem releaseAll_effects (state : ActivationState) : (releaseAll state).1 = (reconcileHeld state .neutral).1 := by
  unfold releaseAll
  rw [reconcileHeld_eq]

end Zflow.Core
