import Zflow.Daemon.Sessions

/-!
# Two computers that dial each other

Two daemons with a connection each has dialed to the other (`connect`, `accept_connection` and
`retire_session` of `src/daemon.rs`). A side is a `Bool`, and a connection goes by the side that dialed
it. Each daemon is a `Computer` and takes that system's steps; here is when the two connections let it.

Handshakes and negotiations succeed, unless the connection is closed first. Nothing else closes a
session: an actor stops where either end closed its connection. A connection may be accepted before
its own end has started a session, and the ends learn in any order that it is closed.
-/

namespace Zflow.Daemon.Dials

open Zflow.Core Linux InputThread

/-- Two computers that trust each other. -/
structure Pairing (P : Type) where
  config : Bool → Config P
  fingerprint : Bool → Fingerprint
  /-- What each calls the other. -/
  name : Bool → P
  /-- What each has saved of the other. -/
  record : Bool → PeerConfig
  /-- The session of a side on the connection that a side dialed. -/
  session : Bool → Bool → SessionId
  trusts : ∀ side, (config side).peers (name side) = some (record side)
  knows : ∀ side, (record side).fingerprint = some (fingerprint (!side))
  distinct : fingerprint false ≠ fingerprint true
  permitted : ∀ side, outboundPermitted (config side) (record side) = true
  fresh : ∀ side, session side false ≠ session side true

/-- How far `accept_connection` is, up to `start_session`. -/
inductive Arrival where
  | awaited
  /-- Past the first look at this computer's own dial. -/
  | checked
  /-- Past `retire_session`. -/
  | retired
  | welcomed
  /-- Closed on arrival, as this computer keeps its own connection. -/
  | refused
  deriving DecidableEq

structure Pair (P D : Type) where
  computer : Bool → Computer P D
  arrival : Bool → Arrival
  /-- Whether a side's negotiation on a connection has succeeded. -/
  agreed : Bool → Bool → Bool

/-- A side takes a step; `origin` is the side that dialed the connection. -/
inductive Label where
  /-- The handshake of the own dial is done, and `start_session` runs. -/
  | dial (side : Bool)
  | check (side : Bool) (now : MonotonicTimeMicros)
  /-- A round of `retire_session`. -/
  | retire (side : Bool)
  /-- `start_session` of the connection that was accepted. -/
  | welcome (side : Bool)
  | agree (side origin : Bool)
  /-- `start_session` fails. -/
  | fail (side origin : Bool)
  /-- The end of `connect`. -/
  | connect (side : Bool) (now : MonotonicTimeMicros)
  /-- A round of the loop of `accept_connection`. -/
  | accept (side closed : Bool) (now : MonotonicTimeMicros)
  | stop (side origin : Bool)
  /-- The `Closed` event. -/
  | closed (side origin : Bool)
  deriving DecidableEq

variable {P D : Type} [DecidableEq P] [VirtualInput D]

/-- The side whose connection is to be kept. -/
def Pairing.winner (p : Pairing P) : Bool := winsDial (p.config true) (p.fingerprint true) (p.name true)

namespace Pair

def actor (p : Pairing P) (side origin : Bool) (s : Pair P D) : Option (Actor P) :=
  (s.computer side).actors (p.session side origin)

def setArrival (side : Bool) (arrival : Arrival) (s : Pair P D) : Pair P D :=
  { s with arrival := Function.update s.arrival side arrival }

def setComputer (side : Bool) (computer : Computer P D) (s : Pair P D) : Pair P D :=
  { s with computer := Function.update s.computer side computer }

/-- An end of the connection was closed. -/
def broken (p : Pairing P) (origin : Bool) (s : Pair P D) : Bool :=
  s.arrival (!origin) = .refused ||
    [false, true].any fun side =>
      (s.actor p side origin).any fun actor => actor.closing.isSome || actor.stage ≠ .running

/-- A step of one daemon. -/
def run (side : Bool) (label : Step P) (s : Pair P D) : Option (Pair P D) :=
  (Computer.step label (s.computer side)).map fun computer => s.setComputer side computer

/-- A daemon's own dial, if it is done, was done less than `CONNECT_TIMEOUT` ago. -/
def prompt (p : Pairing P) (side : Bool) (now : MonotonicTimeMicros) (s : Pair P D) : Bool :=
  ((s.computer side).shared.dialed (p.session side side)).all fun at_ =>
    now - at_ < connectTimeout.asMicros

/-- The first look of `accept_connection` at this computer's own dial. -/
def check (p : Pairing P) (side : Bool) (now : MonotonicTimeMicros) (s : Pair P D) : Pair P D :=
  s.setArrival side
    (if (s.computer side).keepsOwnDial (p.name side) now then .refused else .checked)

def retire (p : Pairing P) (side : Bool) (s : Pair P D) : Option (Pair P D) :=
  match (s.computer side).shared.sessions (p.name side) with
  | none => some (s.setArrival side .retired)
  | some _ => s.run side (.retire (p.name side))

/-- The task of a session that has stopped before its negotiation was done is over. -/
def fail (p : Pairing P) (side origin : Bool) (s : Pair P D) : Option (Pair P D) := do
  let actor ← s.actor p side origin
  if !s.agreed side origin ∧ actor.stage ≠ .running ∧ actor.task.isSome then
    some (s.setComputer side
      (Computer.letGo (p.session side origin) actor (true, s.computer side)))
  else none

end Pair

def step (p : Pairing P) : Lib.System (Pair P D) Label := fun label s =>
  match label with
  | .dial side => s.run side (.start (p.name side) (p.session side side) .connecting)
  | .check side now =>
    if s.arrival side = .awaited ∧ s.prompt p side now then some (s.check p side now) else none
  | .retire side => if s.arrival side = .checked then s.retire p side else none
  | .welcome side =>
    if s.arrival side = .retired then
      (s.run side (.start (p.name side) (p.session side (!side)) .accepting)).map
        (Pair.setArrival side .welcomed)
    else none
  | .agree side origin =>
    if (s.actor p side origin).any (·.stage = .running) ∧ (s.actor p (!side) origin).isSome then
      some { s with
        agreed := Function.update s.agreed side (Function.update (s.agreed side) origin true) }
    else none
  | .fail side origin => s.fail p side origin
  | .connect side now =>
    if s.agreed side side then
      s.run side (.connect (p.session side side) (p.record side) 0 now)
    else none
  | .accept side closed now =>
    if s.agreed side (!side) ∧ s.prompt p side now then
      s.run side (.accept (p.session side (!side)) 0 true closed now)
    else none
  | .stop side origin =>
    if s.broken p origin then s.run side (.stop (p.session side origin) false) else none
  | .closed side origin => s.run side (.closed (p.session side origin))

/-- Both have just started. -/
def start (p : Pairing P) (seatGate : Bool → SeatGate) (devices : Bool → D) : Pair P D where
  computer side := .start (p.config side) (p.fingerprint side) (seatGate side) (devices side)
  arrival _ := .awaited
  agreed _ _ := false

end Zflow.Daemon.Dials
