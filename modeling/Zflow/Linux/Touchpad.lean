import Mathlib.Data.List.MinMax
import Zflow.Lib.Multitouch
import Zflow.Linux.Uinput

/-!
# The virtual touchpad's reports

What `plan_touchpad_events` of `src/linux/uinput.rs` tells the kernel when a peer's contacts change: the slot and the
tracking id of each, where it is on the pad, and the keys that say how many there are. When a report is stamped is
left out. A contact is named by its key in the touch state.
-/

namespace Zflow.Linux

open Zflow.Core Lib Multitouch

/-! ## The pad -/

def touchpadMaxX : Int := 5999
def touchpadMaxY : Int := 4499
def touchpadResolution : Int := 30

/-- Assumed for a contact that arrives without a source size. -/
def unsizedSource : SourceDimensions := ⟨10000, 7300⟩

def btnTouch : Nat := 0x14a
def btnToolFinger : Nat := 0x145
def btnToolDoubletap : Nat := 0x14d
def btnToolTripletap : Nat := 0x14e
def btnToolQuadtap : Nat := 0x14f

structure TargetContact where
  slot : Nat
  trackingId : Int
  x : Int
  y : Int
  deriving DecidableEq

structure TouchpadState where
  contacts : Std.ExtTreeMap ContactId TargetContact
  nextTrackingId : Int

/-- `TouchpadState::default`. -/
def TouchpadState.initial : TouchpadState := ⟨∅, 1⟩

/-! ## The plan -/

/-- Places a contact by millimetres with the source surface centered on the pad. -/
def touchAxis (contact : TouchContact) (horizontal : Bool) : Int :=
  let source := contact.sourceDimensions.getD unsizedSource
  let (value, extent, maximum) :=
    if horizontal then (contact.x, source.width, touchpadMaxX) else (contact.y, source.height, touchpadMaxY)
  let doubled := maximum * 100 + (2 * value - extent) * touchpadResolution
  max 0 (min ((doubled + 100) / 200) maximum)

def touchToolKey : Nat → Option Nat
  | 0 => none
  | 1 => some btnToolFinger
  | 2 => some btnToolDoubletap
  | 3 => some btnToolTripletap
  | _ => some btnToolQuadtap

def succTrackingId (trackingId : Int) : Int := if trackingId = 65535 then 1 else trackingId + 1

/-- The first slot that is not used. -/
def freeSlot (used : List Nat) : Option Nat := (List.range maxTouchpadContacts).find? (· ∉ used)

/-- The loop over the touch state's contacts, `none` where no slot is free, which panics. -/
def placeContacts (previous : TouchpadState) :
    List (ContactId × TouchContact) → List Nat → TouchpadState → Option TouchpadState
  | [], _, next => some next
  | (id, contact) :: rest, used, next =>
    match previous.contacts[id]? with
    | some existing =>
      let target := { existing with x := touchAxis contact true, y := touchAxis contact false }
      placeContacts previous rest used { next with contacts := next.contacts.insert id target }
    | none => do
      let slot ← freeSlot used
      let target := ⟨slot, next.nextTrackingId, touchAxis contact true, touchAxis contact false⟩
      placeContacts previous rest (slot :: used)
        ⟨next.contacts.insert id target, succTrackingId next.nextTrackingId⟩

def liftEvents (next : TouchpadState) (entry : ContactId × TargetContact) : List Event :=
  if entry.1 ∈ next.contacts then []
  else [.absolute .slot entry.2.slot, .absolute .trackingId (-1)]

def updateEvents (previous : TouchpadState) (entry : ContactId × TargetContact) : List Event :=
  let old := previous.contacts[entry.1]?
  let current := entry.2
  if old = some current then []
  else
    [.absolute .slot current.slot] ++
      (if old.isNone then [.absolute .trackingId current.trackingId] else []) ++
      (if old.all (·.x ≠ current.x) then [.absolute .positionX current.x] else []) ++
      (if old.all (·.y ≠ current.y) then [.absolute .positionY current.y] else [])

def toolEvents (oldCount newCount : Nat) : List Event :=
  (if touchToolKey oldCount ≠ touchToolKey newCount then
    (touchToolKey oldCount).toList.map (.key · false) ++ (touchToolKey newCount).toList.map (.key · true)
  else []) ++
  (if (oldCount == 0) ≠ (newCount == 0) then [.key btnTouch (newCount != 0)] else [])

/-- Where the contact in the first slot is. -/
def primaryEvents (next : TouchpadState) : List Event :=
  match (next.contacts.toList.map (·.2)).argmin (·.slot) with
  | some primary => [.absolute .x primary.x, .absolute .y primary.y]
  | none => []

abbrev Report := List Event × TouchpadState

def planTouchpadReport (previous : TouchpadState) (touch : TouchState) : Option Report := do
  let used := previous.contacts.toList.map (·.2.slot)
  let next ← placeContacts previous touch.toList used ⟨∅, previous.nextTrackingId⟩
  if next.contacts = previous.contacts then some ([], next)
  else
    some (previous.contacts.toList.flatMap (liftEvents next) ++ next.contacts.toList.flatMap (updateEvents previous) ++
      toolEvents previous.contacts.size next.contacts.size ++ primaryEvents next, next)

/-- The contacts that were not there. -/
def landing (previous : TouchpadState) (touch : TouchState) : List (ContactId × TouchContact) :=
  touch.toList.filter (·.1 ∉ previous.contacts)

/-- One report, or one that lifts and one that lands where the slots would run out. `none` is a panic. -/
def planTouchpadEvents (previous : TouchpadState) (touch : TouchState) :
    Option (Except InputThread.InjectionError (List Report)) := do
  if touch.size > maxTouchpadContacts then return .error .tooManyTouchContacts
  if (landing previous touch).length ≤ maxTouchpadContacts - previous.contacts.size then
    return .ok [← planTouchpadReport previous touch]
  let surviving := touch.filter fun id _ => id ∈ previous.contacts
  let released ← planTouchpadReport previous surviving
  let landed ← planTouchpadReport released.2 touch
  return .ok [released, landed]

/-! ## The device -/

/-- The planner's state, and what the kernel has been told. -/
structure Touchpad where
  state : TouchpadState
  kernel : Surface

namespace Touchpad

def new : Touchpad := ⟨.initial, .untouched⟩

/-- A report that the device took. -/
def emit (p : Touchpad) (report : Report) : Touchpad := ⟨report.2, p.kernel.applyAll report.1⟩

def emitAll (p : Touchpad) (reports : List Report) : Touchpad := reports.foldl emit p

/-- `replace_at`, where the device takes the first `emitted` reports and refuses the next one. -/
def replaceAt (touch : TouchState) (emitted : Nat) (p : Touchpad) : Touchpad :=
  match planTouchpadEvents p.state touch with
  | some (.ok reports) => p.emitAll (reports.take emitted)
  | _ => p

/-- A touchpad after some calls of `replace_at`. -/
def ran (p : Touchpad) (history : List (TouchState × Nat)) : Touchpad :=
  history.foldl (fun p (touch, emitted) => p.replaceAt touch emitted) p

end Touchpad

end Zflow.Linux
