import Zflow.Core.Model
import Zflow.Lib.Act
import Zflow.Lib.Multitouch

/-!
# Contacts from evdev events

`TouchAccumulator` (`src/linux/touch.rs`): slot updates of a touchpad into complete contact states. The numbers of
an event and of an axis are `i32`; where plain arithmetic leaves its type, or a value that was taken for granted is
missing, the answer is `none`, and the push that computes it panics.
-/

namespace Zflow.Linux

open Zflow.Core Lib
open Multitouch (Axis)

/-- `i32`. -/
abbrev I32 := { n : Int // -2147483648 ≤ n ∧ n < 2147483648 }

/-- `MAX_TOUCHPAD_CONTACTS`. -/
abbrev touchSlots : Nat := 5

/-- `MT_TOOL_PALM`. -/
def mtToolPalm : Int := 2

/-- `TOOL_FINGERS`: the keys for one finger, two, and so on. -/
def toolFingers : List Nat := [0x145, 0x14d, 0x14e, 0x14f, 0x148]

/-- An event of a touchpad. -/
inductive TouchEvent where
  /-- `SYN_REPORT`, which ends a frame. -/
  | report
  /-- `SYN_DROPPED`. -/
  | dropped
  | otherSynchronization
  | key (code : Nat) (value : I32)
  | absolute (axis : Axis) (value : I32)
  | other
  deriving DecidableEq

inductive TouchError where
  /-- The thread is gone. -/
  | panicked
  /-- "multitouch synchronization was lost". -/
  | lost
  /-- "duplicate active touch tracking id". -/
  | duplicate (id : ContactId)

/-! ## An axis -/

structure TouchAxisRange where
  minimum : I32
  maximum : I32
  /-- Units per millimetre; 0 when the driver does not report it. -/
  resolution : I32
  ordered : minimum.1 < maximum.1

namespace TouchAxisRange

def normalize (range : TouchAxisRange) (value : I32) : Option Int :=
  checkedI32 (max range.minimum.1 (min value.1 range.maximum.1) - range.minimum.1)

def extent (range : TouchAxisRange) : Option Nat := do
  let extent ← checkedI32 (range.maximum.1 - range.minimum.1)
  if 0 ≤ extent then some extent.toNat else none

end TouchAxisRange

/-- `hundredths_mm`: device units to hundredths of a millimetre, rounded. -/
def hundredthsMm (units unitsPer100mm : Int) : Option Int := do
  let scaled ← checkedI64 (units * 10000)
  let rounded ← checkedI64 (scaled + unitsPer100mm.tdiv 2)
  if unitsPer100mm = 0 then none else some (min (rounded.tdiv unitsPer100mm) (2 ^ 31 - 1))

/-! ## The accumulator -/

structure SlotState where
  trackingId : Option ContactId
  x : Int
  y : Int
  palm : Bool

structure TouchAccumulator where
  x : TouchAxisRange
  y : TouchAxisRange
  /-- Device units per 100 mm on x and y. -/
  unitsPer100mm : Int × Int
  slots : Fin touchSlots → SlotState
  currentSlot : Option (Fin touchSlots)
  /-- One bit per `BTN_TOOL_*` key held, lowest for one finger. -/
  tools : BitVec 8
  dirty : Bool
  eventCount : Nat

/-- `TouchState::new`, after some contacts: a repeated id is an error. -/
def insertContacts (state : TouchState) : List TouchContact → Except ContactId TouchState
  | [] => .ok state
  | contact :: rest =>
    if contact.id ∈ state then .error contact.id
    else insertContacts (state.insert contact.id contact) rest

/-- A finger of the pointer path. -/
structure PadFinger where
  id : ContactId
  x : Int
  y : Int

namespace TouchAccumulator

/-- The `units_per_100mm` of two axes. Without a resolution the pad is taken for 100 mm wide, with square units. -/
def unitsOf (x y : TouchAxisRange) : Option (Int × Int) :=
  if 0 < x.resolution.1 ∧ 0 < y.resolution.1 then some (100 * x.resolution.1, 100 * y.resolution.1)
  else x.extent.map fun extent : Nat => (extent, extent)

def new (x y : TouchAxisRange) : Option TouchAccumulator :=
  (unitsOf x y).map fun unitsPer100mm => {
    x, y, unitsPer100mm
    slots := fun _ => ⟨none, 0, 0, false⟩
    currentSlot := some 0
    tools := 0
    dirty := false
    eventCount := 0 }

/-- The slots with a contact, in order. -/
def active (a : TouchAccumulator) : List (ContactId × SlotState) :=
  (List.finRange touchSlots).filterMap fun slot => (a.slots slot).trackingId.map (·, a.slots slot)

/-- A position in hundredths of a millimetre. -/
def position (a : TouchAccumulator) (slot : SlotState) : Option (Int × Int) := do
  let x ← hundredthsMm slot.x a.unitsPer100mm.1
  let y ← hundredthsMm slot.y a.unitsPer100mm.2
  return (x, y)

/-- The fingers on the pad, palms left out. -/
def fingers (a : TouchAccumulator) : Option (List PadFinger) :=
  (a.active.filter fun entry => !entry.2.palm).mapM fun (id, slot) => do
    let (x, y) ← a.position slot
    return ⟨id, x, y⟩

/-- The size of the pad, as every contact carries it. -/
def dimensions (a : TouchAccumulator) : Option SourceDimensions := do
  let width ← hundredthsMm (← a.x.extent) a.unitsPer100mm.1
  let height ← hundredthsMm (← a.y.extent) a.unitsPer100mm.2
  return ⟨(width % 2 ^ 32).toNat, (height % 2 ^ 32).toNat⟩

def contacts (a : TouchAccumulator) : Option (List TouchContact) := do
  let dimensions ← a.dimensions
  a.active.mapM fun (id, slot) => do
    let (x, y) ← a.position slot
    return {
      id, x, y
      pressure := none, major := none, minor := none, orientationMillidegrees := none
      tool := .finger
      sourceDimensions := some dimensions }

def snapshot (a : TouchAccumulator) : Except TouchError TouchState :=
  match a.contacts with
  | none => .error .panicked
  | some contacts => (insertContacts ∅ contacts).mapError .duplicate

def mapped (a : TouchAccumulator) : TouchAccumulator :=
  { a with dirty := true, eventCount := saturatingAdd a.eventCount 1 }

/-- Changes the current slot, where there is one. -/
def edit (change : SlotState → SlotState) (a : TouchAccumulator) : TouchAccumulator :=
  match a.currentSlot with
  | some slot => { a with slots := Function.update a.slots slot (change (a.slots slot)) }
  | none => a

/-- A position of the current slot: it is only computed where there is one. -/
def place (range : TouchAxisRange) (value : I32) (store : Int → SlotState → SlotState) :
    Act TouchError TouchAccumulator (Option (TouchState × Nat)) := fun a =>
  if a.currentSlot.isNone then (.ok none, a.mapped)
  else match range.normalize value with
    | some coordinate => (.ok none, (a.edit (store coordinate)).mapped)
    | none => (.error .panicked, a)

/-- The `match` on the axis of an absolute event. -/
def absolute (axis : Axis) (value : I32) : Act TouchError TouchAccumulator (Option (TouchState × Nat)) := fun a =>
  match axis with
  | .slot =>
    let currentSlot := if h : 0 ≤ value.1 ∧ value.1.toNat < touchSlots then some ⟨value.1.toNat, h.2⟩ else none
    (.ok none, mapped { a with currentSlot })
  | .trackingId =>
    let trackingId := if value.1 < 0 then none else some value.1.toNat
    (.ok none, (a.edit fun slot => { slot with trackingId }).mapped)
  | .positionX => a |> place a.x value fun x slot => { slot with x }
  | .positionY => a |> place a.y value fun y slot => { slot with y }
  | .toolType => (.ok none, a.edit fun slot => { slot with palm := value.1 = mtToolPalm })
  | .x | .y | .other _ => (.ok none, a)

/-- Holds or releases the key of a number of fingers. -/
def tool (code : Nat) (value : I32) (a : TouchAccumulator) : TouchAccumulator :=
  match toolFingers.findIdx? (· = code) with
  | some index =>
    { a with tools := if value.1 = 0 then a.tools &&& ~~~(1#8 <<< index) else a.tools ||| (1#8 <<< index) }
  | none => a

def push (event : TouchEvent) : Act TouchError TouchAccumulator (Option (TouchState × Nat)) := fun a =>
  match event with
  | .report =>
    if a.dirty then match a.snapshot with
      | .ok state => (.ok (some (state, a.eventCount)), { a with eventCount := 0, dirty := false })
      | .error error => (.error error, a)
    else (.ok none, a)
  -- Slots changed while events were lost: contacts may have lifted.
  | .dropped => (.error .lost, a)
  | .otherSynchronization | .other => (.ok none, a)
  | .key code value => (.ok none, a.tool code value)
  | .absolute axis value => a |> absolute axis value

/-- The state after some events. -/
def pushAll (a : TouchAccumulator) (events : List TouchEvent) : TouchAccumulator :=
  events.foldl (fun a event => (push event a).2) a

end TouchAccumulator

end Zflow.Linux
