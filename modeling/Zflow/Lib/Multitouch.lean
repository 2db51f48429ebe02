import Mathlib.Tactic.Common

/-!
# Multitouch slots

How a device tells of the contacts on it, one event at a time. It has slots, each with a contact or without. A slot
event names the slot that the tracking id and position events after it are about; a tracking id below zero says that
the slot's contact lifted. What one report says of one slot is an `Edit`, and edits that say one thing of each slot
can be read off in any order.
-/

namespace Zflow.Lib.Multitouch

inductive Axis where
  | slot | trackingId | positionX | positionY | toolType
  /-- The single pointer that devices without slots have. -/
  | x | y
  | other (code : Nat)
  deriving DecidableEq

inductive Event where
  | absolute (axis : Axis) (value : Int)
  | key (code : Nat) (pressed : Bool)

structure Slot where
  /-- Below zero while there is no contact. -/
  trackingId : Int
  x : Int
  y : Int

/-- What is known of a device from its events. -/
structure Surface where
  current : Int
  slots : Int → Slot
  keys : Nat → Bool

namespace Surface

/-- Nothing touches the device. -/
def untouched : Surface := ⟨0, fun _ => ⟨-1, 0, 0⟩, fun _ => false⟩

def edit (s : Surface) (f : Slot → Slot) : Surface :=
  { s with slots := Function.update s.slots s.current (f (s.slots s.current)) }

/-- An edit is about the current slot. -/
theorem slots_edit (s : Surface) (f : Slot → Slot) (slot : Int) :
    (s.edit f).slots slot = if slot = s.current then f (s.slots slot) else s.slots slot := by
  unfold edit
  split
  · rename_i h
    rw [h]
    exact Function.update_self ..
  · rename_i h
    exact Function.update_of_ne h ..

def apply (s : Surface) : Event → Surface
  | .absolute .slot slot => { s with current := slot }
  | .absolute .trackingId id => s.edit fun slot => { slot with trackingId := id }
  | .absolute .positionX x => s.edit fun slot => { slot with x }
  | .absolute .positionY y => s.edit fun slot => { slot with y }
  | .absolute _ _ => s
  | .key code pressed => { s with keys := Function.update s.keys code pressed }

def applyAll (s : Surface) (events : List Event) : Surface := events.foldl apply s

theorem applyAll_append (s : Surface) (first second : List Event) :
    s.applyAll (first ++ second) = (s.applyAll first).applyAll second := List.foldl_append

end Surface

/-- Each tracking id event, with the slot it is about. -/
def trackings : Int → List Event → List (Int × Int)
  | _, [] => []
  | slot, event :: rest => match event with
    | .absolute .slot slot => trackings slot rest
    | .absolute .trackingId id => (slot, id) :: trackings slot rest
    | _ => trackings slot rest

/-! ## Edits -/

/-- What a report says of one slot. -/
structure Edit where
  slot : Int
  trackingId : Option Int
  x : Option Int
  y : Option Int
  deriving DecidableEq

namespace Edit

def said (axis : Axis) (value : Option Int) : List Event := value.toList.map (.absolute axis)

def events (e : Edit) : List Event :=
  .absolute .slot e.slot :: (said .trackingId e.trackingId ++ said .positionX e.x ++ said .positionY e.y)

def apply (e : Edit) (slot : Slot) : Slot :=
  ⟨e.trackingId.getD slot.trackingId, e.x.getD slot.x, e.y.getD slot.y⟩

theorem apply_apply (e : Edit) (slot : Slot) : e.apply (e.apply slot) = e.apply slot := by
  obtain ⟨_, _ | _, _ | _, _ | _⟩ := e <;> rfl

/-- An edit changes its own slot. -/
theorem applyAll_events (e : Edit) (s : Surface) : s.applyAll e.events =
    { s with current := e.slot, slots := Function.update s.slots e.slot (e.apply (s.slots e.slot)) } := by
  obtain ⟨slot, _ | id, _ | x, _ | y⟩ := e <;>
    simp [Surface.applyAll, events, said, Surface.apply, Surface.edit, apply]

theorem slots_events (e : Edit) (s : Surface) : (s.applyAll e.events).slots e.slot = e.apply (s.slots e.slot) := by
  rw [applyAll_events]
  exact Function.update_self _ _ _

theorem slots_events_of_ne {e : Edit} {slot : Int} (h : e.slot ≠ slot) (s : Surface) :
    (s.applyAll e.events).slots slot = s.slots slot := by
  rw [applyAll_events]
  exact Function.update_of_ne h.symm _ _

end Edit

variable {s : Surface} {edits : List Edit}

def Surface.report (s : Surface) (edits : List Edit) : Surface := s.applyAll (edits.flatMap Edit.events)

theorem Surface.report_cons (s : Surface) (e : Edit) (rest : List Edit) :
    s.report (e :: rest) = (s.applyAll e.events).report rest := s.applyAll_append _ _

theorem keys_edits : (s.report edits).keys = s.keys := by
  induction edits generalizing s with
  | nil => rfl
  | cons e rest ih => rw [Surface.report_cons, ih, e.applyAll_events]

/-- A slot no edit is about stays as it is. -/
theorem slots_edits_of_not_mem {slot : Int} (h : ∀ e ∈ edits, e.slot ≠ slot) :
    (s.report edits).slots slot = s.slots slot := by
  induction edits generalizing s with
  | nil => rfl
  | cons e rest ih =>
    rw [Surface.report_cons, ih fun e' he' => h e' (.tail _ he')]
    exact Edit.slots_events_of_ne (h e (.head _)) s

/-- **A slot that one edit is about** is as the edit says. -/
theorem slots_edits_of_mem {e : Edit} (hagree : ∀ e' ∈ edits, e'.slot = e.slot → e' = e) (he : e ∈ edits) :
    (s.report edits).slots e.slot = e.apply (s.slots e.slot) := by
  induction edits generalizing s with
  | nil => cases he
  | cons first rest ih =>
    have hrest : ∀ e' ∈ rest, e'.slot = e.slot → e' = e := fun e' he' => hagree e' (.tail _ he')
    rw [Surface.report_cons]
    by_cases hmem : e ∈ rest
    · rw [ih hrest hmem]
      by_cases hslot : first.slot = e.slot
      · obtain rfl := hagree first (.head _) hslot
        rw [Edit.slots_events, Edit.apply_apply]
      · rw [Edit.slots_events_of_ne hslot]
    · obtain rfl : e = first := (List.mem_cons.mp he).resolve_right hmem
      rw [slots_edits_of_not_mem fun e' he' hslot => hmem (hrest e' he' hslot ▸ he')]
      exact e.slots_events s

/-! ## What edits leave alone -/

/-- An event that is about no slot. -/
def Event.Slotless : Event → Prop
  | .absolute .slot _ | .absolute .trackingId _ | .absolute .positionX _ | .absolute .positionY _ => False
  | _ => True

theorem slots_applyAll {events : List Event} (h : ∀ event ∈ events, event.Slotless) :
    (s.applyAll events).slots = s.slots := by
  induction events generalizing s with
  | nil => rfl
  | cons event rest ih =>
    have hrest : ((s.apply event).applyAll rest).slots = (s.apply event).slots :=
      ih fun event' h' => h event' (.tail _ h')
    refine hrest.trans ?_
    match event, h event (.head _) with
    | .absolute .toolType _, _ => rfl
    | .absolute .x _, _ => rfl
    | .absolute .y _, _ => rfl
    | .absolute (.other _) _, _ => rfl
    | .key _ _, _ => rfl

theorem trackings_slotless {events : List Event} (h : ∀ event ∈ events, event.Slotless) (slot : Int) :
    trackings slot events = [] := by
  induction events generalizing slot with
  | nil => rfl
  | cons event rest ih =>
    have hrest := ih (fun event' h' => h event' (.tail _ h')) slot
    match event, h event (.head _) with
    | .absolute .toolType _, _ => exact hrest
    | .absolute .x _, _ => exact hrest
    | .absolute .y _, _ => exact hrest
    | .absolute (.other _) _, _ => exact hrest
    | .key _ _, _ => exact hrest

theorem Edit.trackings_events (e : Edit) (slot : Int) (rest : List Event) : trackings slot (e.events ++ rest) =
    (e.trackingId.toList.map fun id => (e.slot, id)) ++ trackings e.slot rest := by
  obtain ⟨_, _ | _, _ | _, _ | _⟩ := e <;> rfl

/-- The tracking ids that edits tell of. -/
theorem trackings_edits {rest : List Event} (h : ∀ event ∈ rest, event.Slotless) (slot : Int) :
    trackings slot (edits.flatMap Edit.events ++ rest) =
      edits.flatMap fun e => e.trackingId.toList.map fun id => (e.slot, id) := by
  induction edits generalizing slot with
  | nil => exact trackings_slotless h slot
  | cons e edits ih =>
    rw [List.flatMap_cons, List.append_assoc, e.trackings_events, ih, List.flatMap_cons]

end Zflow.Lib.Multitouch
