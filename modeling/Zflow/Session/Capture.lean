import Zflow.Core.Negotiation
import Zflow.Core.Sender

/-!
# Captured input on its way out

What a session does with the frames a source adapter captured (`src/session.rs`, `src/capture.rs`): the
transitions of all devices are merged into those of their union, and the sender makes messages of them.

A device path is only compared, as `PathBuf` compares it, and is a type with an order. The transports answer
through `sends`, which may refuse a message after what was sent before it.
-/

namespace Zflow.Session

open Zflow.Core Lib

inductive KeyState where
  | released | pressed | repeat

inductive CaptureTransition where
  | key (usage : HidUsage) (state : KeyState)
  | button (button : PointerButton) (state : KeyState)

/-- Clicks, motion and scrolling a source made from touchpad contacts. -/
structure PointerFrame where
  transitions : List CaptureTransition
  motion : MotionDelta

structure CaptureFrame where
  transitions : List CaptureTransition
  motion : MotionDelta
  touchSnapshot : Option TouchState
  asPointer : Option PointerFrame

/-- Keeps a touchpad frame's raw contacts for a target that posts them, and otherwise turns the frame into
its pointer input. -/
def CaptureFrame.forTarget (frame : CaptureFrame) (takesContacts : Bool) : CaptureFrame :=
  match frame.asPointer with
  | some pointer =>
    if !takesContacts then
      { transitions := pointer.transitions, motion := pointer.motion
        touchSnapshot := none, asPointer := none }
    else { frame with asPointer := none }
  | none => frame

structure CapturedDeviceFrame (P : Type) where
  devicePath : P
  frame : CaptureFrame
  capturedAt : MonotonicTimeMicros

inductive CaptureMember where
  | key (usage : HidUsage)
  | button (button : PointerButton)
  deriving DecidableEq

namespace CaptureMember

/-- Keys come before buttons. -/
def rank : CaptureMember → Nat
  | key _ => 0
  | button _ => 1

def page : CaptureMember → Nat
  | key usage => usage.page
  | button _ => 0

def code : CaptureMember → Nat
  | key usage => usage.usage
  | button number => number

instance : Ord CaptureMember :=
  ⟨compareLex (compareOn rank) (compareLex (compareOn page) (compareOn code))⟩

instance : Std.TransOrd CaptureMember := inferInstanceAs
  (Std.TransCmp (compareLex (compareOn rank) (compareLex (compareOn page) (compareOn code))))

instance : Std.LawfulEqOrd CaptureMember where
  eq_of_compare {a b} h := by
    obtain ⟨hrank, hrest⟩ := Ordering.then_eq_eq.mp (show (compare a.rank b.rank).then
      ((compare a.page b.page).then (compare a.code b.code)) = .eq from h)
    obtain ⟨hpage, hcode⟩ := Ordering.then_eq_eq.mp hrest
    rw [Std.compare_eq_iff_eq] at hrank hpage hcode
    cases a with
    | key left =>
      cases b with
      | key right =>
        obtain ⟨_, _⟩ := left
        obtain ⟨_, _⟩ := right
        cases hpage
        cases hcode
        rfl
      | button right => cases hrank
    | button left =>
      cases b with
      | key right => cases hrank
      | button right =>
        cases hcode
        rfl

end CaptureMember

/-- The member a transition is of, and whether it is pressed; a repeat changes nothing. -/
def CaptureTransition.change : CaptureTransition → Option (CaptureMember × Bool)
  | key usage .pressed => some (.key usage, true)
  | key usage .released => some (.key usage, false)
  | button code .pressed => some (.button code, true)
  | button code .released => some (.button code, false)
  | key _ .repeat | button _ .repeat => none

variable {P : Type} [Ord P] [Std.TransOrd P] [Std.LawfulEqOrd P]

structure CaptureMerger (P : Type) [Ord P] [Std.TransOrd P] [Std.LawfulEqOrd P] where
  heldByDevice : Std.ExtTreeMap P (Std.ExtTreeSet CaptureMember)

namespace CaptureMerger

def empty : CaptureMerger P := ⟨∅⟩

/-- Some device holds the member. -/
def holds (m : CaptureMerger P) (member : CaptureMember) : Bool :=
  m.heldByDevice.toList.any fun entry => entry.2.contains member

/-- One transition of a device: what it leaves, and the change of the union, where there is one. -/
def turn (path : P) (member : CaptureMember) (pressed : Bool) (m : CaptureMerger P) :
    Option (CaptureMember × Bool) × CaptureMerger P :=
  let device := (m.heldByDevice[path]?).getD ∅
  let changed := if pressed then !device.contains member else device.contains member
  let device := if pressed then device.insert member else device.erase member
  let after : CaptureMerger P := ⟨m.heldByDevice.insert path device⟩
  if changed && m.holds member != after.holds member then (some (member, pressed), after)
  else (none, after)

/-- The loop of `merge`. -/
def mergeTransitions (path : P) : List CaptureTransition → CaptureMerger P →
    List (CaptureMember × Bool) × CaptureMerger P
  | [], m => ([], m)
  | transition :: rest, m =>
    match transition.change with
    | none => mergeTransitions path rest m
    | some (member, pressed) =>
      let (change, after) := m.turn path member pressed
      let (aggregate, last) := mergeTransitions path rest after
      (change.toList ++ aggregate, last)

/-- The presses and releases of the union of all devices. -/
def merge (path : P) (transitions : List CaptureTransition) (m : CaptureMerger P) :
    List (CaptureMember × Bool) × CaptureMerger P :=
  let (aggregate, last) := m.mergeTransitions path transitions
  (aggregate, ⟨last.heldByDevice.filter fun _ held => !held.isEmpty⟩)

end CaptureMerger

/-! ## Sending -/

/-- What goes to the transports. -/
inductive Sent where
  | control (message : ReliableControlMessage)
  | motion (frame : MotionFrame)

/-- `outside` is what a transport answered. -/
inductive CaptureError where
  | sender (error : SenderError)
  | outside (message : String)
  | bail (message : String)

/-- The sender and what it has sent. -/
structure Outbound where
  sender : Sender
  sent : List Sent

section send

variable (sends : List Sent → Except String Unit)

def transmit (message : Sent) : Act CaptureError Outbound Unit := do
  .change fun o => { o with sent := o.sent ++ [message] }
  let o ← .read
  .lift .outside (sends o.sent)

/-- A control message of the sender is made, and goes out. -/
def sendControl (x : Act SenderError Sender ReliableControlMessage) : Act CaptureError Outbound Unit := do
  let message ← .on Outbound.sender (fun sender o => { o with sender }) .sender x
  transmit sends (.control message)

def sendMotion (x : Act SenderError Sender MotionFrame) : Act CaptureError Outbound Unit := do
  let frame ← .on Outbound.sender (fun sender o => { o with sender }) .sender x
  transmit sends (.motion frame)

/-- The sender's method for a change of the union. -/
def press (now : MonotonicTimeMicros) : CaptureMember × Bool → Act SenderError Sender ReliableControlMessage
  | (.key usage, true) => Sender.keyDown usage now
  | (.key usage, false) => Sender.keyUp usage now
  | (.button button, true) => Sender.buttonDown button now
  | (.button button, false) => Sender.buttonUp button now

def sendTransitions (now : MonotonicTimeMicros) :
    List (CaptureMember × Bool) → Act CaptureError Outbound Unit
  | [] => return ()
  | change :: rest => do
    sendControl sends (press now change)
    sendTransitions now rest

/-- The touch state and the motion of a frame. -/
def sendMoved (touch : Option TouchState) (motion : MotionDelta) (now : MonotonicTimeMicros) :
    Act CaptureError Outbound Unit := do
  let o ← .read
  let active := o.sender.held.activeTouch
  match touch with
  | some state =>
    if active.isEmpty && !state.isEmpty then
      sendControl sends (Sender.touchBegin state now)
      if motion ≠ 0 then sendMotion sends (Sender.captureMotion motion none now)
    else if !active.isEmpty && state.isEmpty then
      if motion ≠ 0 then sendMotion sends (Sender.captureMotion motion none now)
      sendControl sends (Sender.touchEnd false now)
    else if !state.isEmpty then sendMotion sends (Sender.captureMotion motion (some state) now)
    else if motion ≠ 0 then sendMotion sends (Sender.captureMotion motion none now)
  | none => if motion ≠ 0 then sendMotion sends (Sender.captureMotion motion none now)

def sendCapture (negotiated : NegotiatedSession) (frame : CaptureFrame)
    (transitions : List (CaptureMember × Bool)) (now : MonotonicTimeMicros) :
    Act CaptureError Outbound Unit := do
  let touch := if negotiated.capabilities.contains .touch then frame.touchSnapshot else none
  sendMoved sends touch frame.motion now
  sendTransitions sends now transitions

/-! ## The outbound half of a session -/

/-- What the session keeps for an outbound activation. -/
structure Outgoing (P : Type) [Ord P] [Std.TransOrd P] [Std.LawfulEqOrd P] where
  sender : Option Sender
  sent : List Sent
  merger : CaptureMerger P

namespace Outgoing

/-- What a call with the sender in hand leaves; `keep` says what becomes of the sender. -/
def withSender (active : Sender) (keep : Sender → Option Sender) (x : Act CaptureError Outbound Unit) :
    Act CaptureError (Outgoing P) Unit := fun o =>
  let (result, after) := x ⟨active, o.sent⟩
  (result, { o with sender := keep after.sender, sent := after.sent })

/-- `SessionCommand::BeginOutbound`. The sender is kept once `Enter` is sent. -/
def beginOutbound (config : SenderConfig) (context : SessionContext) (now : MonotonicTimeMicros) :
    Act CaptureError (Outgoing P) Unit := do
  let o ← .read
  if o.sender.isSome then .fail (.bail "outbound activation is already open")
  else
    .change fun o => { o with merger := .empty }
    let next ← .lift .sender (Sender.new config context now)
    fun o => match sendControl sends (Sender.enter now) ⟨next, o.sent⟩ with
      | (.ok (), after) => (.ok (), { o with sender := some after.sender, sent := after.sent })
      | (.error error, after) => (.error error, { o with sent := after.sent })

/-- `SessionCommand::Capture`, of a frame captured at `time`, no later than now. Sender time never runs
backwards. -/
def capture (negotiated : NegotiatedSession) (takesContacts : Bool) (captured : CapturedDeviceFrame P)
    (time : MonotonicTimeMicros) : Act CaptureError (Outgoing P) Unit := do
  let o ← .read
  match o.sender with
  -- a frame queued before the activation ended is stale
  | none => return ()
  | some active =>
    let frame := captured.frame.forTarget takesContacts
    let (transitions, merger) := o.merger.merge captured.devicePath frame.transitions
    .change fun o => { o with merger }
    withSender active some
      (sendCapture sends negotiated frame transitions (max time active.lastObservedTime))

/-- `SessionCommand::EndOutbound`. -/
def endOutbound (reason : SessionCloseReason) (now : MonotonicTimeMicros) :
    Act CaptureError (Outgoing P) Unit := do
  let o ← .read
  .change fun o => { o with sender := none }
  match o.sender with
  | some active =>
    if active.remote then withSender active (fun _ => none) (sendControl sends (Sender.leave reason now))
  | none => pure ()
  .change fun o => { o with merger := .empty }

/-- An acknowledgement can trail a return or a quick re-entry. -/
def acknowledge (session : SessionContext) (ack : SnapshotAck) : Act CaptureError (Outgoing P) Unit := do
  let o ← .read
  match o.sender with
  | some active =>
    if active.session = session then
      withSender active some
        (.on Outbound.sender (fun sender o => { o with sender }) .sender (Sender.acknowledgeSnapshot ack))
  | none => return ()

/-- The scheduled tick. -/
def tick (now : MonotonicTimeMicros) : Act CaptureError (Outgoing P) Unit := do
  let o ← .read
  match o.sender with
  | none => return ()
  | some active =>
    match Sender.tick now active with
    | (.error error, after) => do
      .change fun o => { o with sender := some after }
      .fail (.sender error)
    | (.ok .idle, after) => .change fun o => { o with sender := some after }
    | (.ok (.checkpoint message), after) => withSender after some (transmit sends (.control message))
    | (.ok (.exitRemote _ close), after) =>
      withSender after (fun _ => none) (transmit sends (.control close))

end Outgoing

end send

end Zflow.Session
