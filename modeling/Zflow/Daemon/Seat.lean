import Zflow.Daemon.Sessions

/-!
# The seat, and the gate it keeps

What logind answers about the seat (`SeatState` of `src/linux/seat.rs`), how the daemon rides out a short
Unknown (`SeatGrace`), and `watch_seat`, which keeps the gate that batches are admitted under (`src/daemon.rs`).
`watch` is the daemon of `Zflow.Daemon.Computer` beside its seat: answers come at times that do not run
backwards, each is observed as it comes, and so is each deadline. The gate is stored under the policy lock
that a batch holds until it is applied, so a batch is routed under the gate of what was observed last.
`answers` records what was observed, and nothing reads it.
-/

namespace Zflow.Daemon

open Zflow.Core Lib Linux InputThread

inductive AuthenticatedSessionKind where
  | wayland | virtualTerminal
  deriving DecidableEq

structure AuthenticatedSession where
  id : String
  uid : Nat
  kind : AuthenticatedSessionKind
  deriving DecidableEq

inductive RestrictedSeatState where
  /-- No session owns the foreground VT, as at a getty login prompt. -/
  | noActiveSession
  | greeter (sessionId : String)
  | lockScreen (sessionId : String)
  | lockedUser (session : AuthenticatedSession)
  deriving DecidableEq

/-- Pre-login permission can authorize only what logind identified conclusively, so `unknown` is not
`restricted`. -/
inductive SeatState where
  | unlocked (session : AuthenticatedSession)
  | restricted (state : RestrictedSeatState)
  | unknown (reason : String)
  deriving DecidableEq

namespace SeatState

def isUnknown : SeatState → Bool
  | .unknown _ => true
  | .unlocked _ | .restricted _ => false

def injectionGate : SeatState → InjectionGate
  | .unlocked session => .normal session.uid
  | .restricted _ => .preLogin
  | .unknown _ => .denied

end SeatState

/-- `SeatGate::DENIED`. -/
def SeatGate.refusing : SeatGate := ⟨.denied, false⟩

/-- `SEAT_UNKNOWN_GRACE`: one second. -/
def seatUnknownGrace : Duration := .fromMillis 1000

/-- The seat as the daemon judges it: the last definite state rides out a short Unknown. -/
structure SeatGrace where
  state : SeatState
  /-- Set while the latest answer is Unknown. -/
  unknownSince : Option MonotonicTimeMicros

namespace SeatGrace

def observe (next : SeatState) (now : MonotonicTimeMicros) (g : SeatGrace) : SeatGrace :=
  if !next.isUnknown then ⟨next, none⟩
  else
    let since := g.unknownSince.getD now
    { state := if g.state.isUnknown || now - since ≥ seatUnknownGrace.asMicros then next else g.state
      unknownSince := some since }

def new (current : SeatState) (now : MonotonicTimeMicros) : SeatGrace := observe current now ⟨current, none⟩

/-- When a short Unknown runs out and must be observed again. -/
def deadline (g : SeatGrace) : Option MonotonicTimeMicros :=
  if g.state.isUnknown then none else g.unknownSince.map (· + seatUnknownGrace.asMicros)

def gate (g : SeatGrace) : SeatGate := ⟨g.state.injectionGate, g.unknownSince.isSome⟩

end SeatGrace

variable {P D : Type} [DecidableEq P] [VirtualInput D]

namespace Computer

def setSeatGate (gate : SeatGate) (d : Computer P D) : Computer P D :=
  { d with shared := { d.shared with seatGate := gate } }

/-- Ends the session that owns the input once the seat stops authorizing it. -/
def updateSeatGate (gate : SeatGate) (d : Computer P D) : Computer P D :=
  if d.shared.seatGate = gate then d
  else match d.shared.inboundOwner with
    | none => d.setSeatGate gate
    | some (peer, session) =>
      if admitPeer d.shared.config peer gate = .refuse then
        (d.setSeatGate gate).closeSession peer session .permissionRevoked
      else d.setSeatGate gate

end Computer

structure Watch (P D : Type) where
  grace : SeatGrace
  /-- The seat watch still answers. -/
  watching : Bool
  latest : SeatState
  now : MonotonicTimeMicros
  computer : Computer P D
  /-- Every answer and when it was observed, the latest first. -/
  answers : List (SeatState × MonotonicTimeMicros)

inductive Seen (P : Type) where
  | answer (next : SeatState) (now : MonotonicTimeMicros)
  | deadline
  /-- Nothing is seen until `now`. -/
  | nothing (now : MonotonicTimeMicros)
  /-- The watch has ended. -/
  | gone
  /-- The daemon does something else. -/
  | work (label : Step P)

namespace Watch

/-- A round of `watch_seat`, once something is observed. -/
def observe (next : SeatState) (now : MonotonicTimeMicros) (w : Watch P D) : Watch P D :=
  let grace := w.grace.observe next now
  { w with grace, latest := next, now, computer := w.computer.updateSeatGate grace.gate }

/-- Whether it is not yet past the deadline at a time. -/
def inTime (now : MonotonicTimeMicros) (w : Watch P D) : Bool :=
  w.now ≤ now && (!w.watching || w.grace.deadline.all (now ≤ ·))

def step : System (Watch P D) (Seen P) := fun label w =>
  match label with
  | .answer next now =>
    if w.watching && w.inTime now then
      some { w.observe next now with answers := (next, now) :: w.answers }
    else none
  | .deadline =>
    match w.grace.deadline with
    | some deadline => if w.watching then some (w.observe w.latest deadline) else none
    | none => none
  | .nothing now =>
    -- What is due at the deadline is observed there.
    if w.inTime now && (!w.watching || w.grace.deadline ≠ some now) then some { w with now } else none
  | .gone => some { w with watching := false, computer := w.computer.updateSeatGate .refusing }
  | .work (.policy config generation _) =>
    (Computer.step (.policy config generation w.computer.shared.seatGate) w.computer).map
      fun computer => { w with computer }
  | .work label => (Computer.step label w.computer).map fun computer => { w with computer }

/-- A daemon whose watch has started. -/
def start (current : SeatState) (now : MonotonicTimeMicros) (computer : Computer P D) : Watch P D where
  grace := .new current now
  watching := true
  latest := current
  now
  computer := computer.updateSeatGate (SeatGrace.new current now).gate
  answers := [(current, now)]

end Watch

end Zflow.Daemon
