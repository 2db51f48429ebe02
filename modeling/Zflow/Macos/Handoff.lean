import Zflow.Macos.Edge
import Zflow.Macos.Ownership

/-!
# The desktop handoffs a Mac answers

The handoff server (`src/macos/handoff_server.rs`): Prepare puts the cursor where the pointer enters,
Poll says when it leaves through one of the exits the peer gave, and Finish or a lapsed lease ends the
handoff. `step` is one stretch that holds the lease's lock, so a Poll is a step that begins it, cursor
samples, and steps that look for an exit to answer. A call that ends a handoff has taken it out before
it does the rest (`Ending`).

A request that is refused before it gets here (by `validate` or `desktop_allowed`) takes no step. The
ids of sessions are taken as distinct. The displays' descriptions and the answers' texts are left out
where nothing else depends on them. `story` records what happened, and nothing reads it.
-/

namespace Zflow.Macos

open Zflow.Core Desktop Lib
open Daemon (SessionId)

/-- `LEASE`. -/
def lease : Duration := .fromMillis leaseMs

structure Lease (P : Type) where
  peer : P
  session : SessionId
  token : Nat
  renewed : MonotonicTimeMicros
  /-- The display generation the entry was placed in, and its displays. -/
  generation : Nat
  geometry : Geometry
  /-- Each exit the peer gave that has a display behind it, by its index. -/
  exits : List (Nat × ArmedEdge)
  sampled : CursorPosition
  /-- The exit the pointer left through, and where, once it has. -/
  exited : Option (Nat × Nat)
  /-- A Poll has answered `exited`. -/
  delivered : Bool
  /-- The peer kept the pointer here after an exit, so a cursor resting on an exit's edge does not report
  it again until it moves off. -/
  resting : Bool

variable {P : Type}

namespace Lease

def holder (lease : Lease P) : P × SessionId := (lease.peer, lease.session)

/-- The exit a move leaves through, if any. -/
def crossing (lease : Lease P) (start stop : CursorPosition) : Option (Nat × Nat) :=
  lease.exits.findSome? fun (index, edge) => (edge.crossing start stop).map (index, ·)

/-- The exit whose outermost pixels the cursor rests on, if any. -/
def atEdge (lease : Lease P) (cursor : CursorPosition) : Option (Nat × Nat) :=
  lease.exits.findSome? fun (index, edge) => (edge.atEdge cursor).map (index, ·)

def exit (exit_ : Nat × Nat) (lease : Lease P) : Lease P :=
  { lease with exited := some exit_, delivered := false }

def permits [DecidableEq P] (lease : Lease P) (peer : P) (session : SessionId) (token : Nat) : Bool :=
  lease.peer = peer && lease.session = session && lease.token = token

/-- Where `poll` begins. Polling again after an exit means that the pointer stays here. -/
def poll (now : MonotonicTimeMicros) (lease : Lease P) : Lease P :=
  if lease.delivered then
    { lease with renewed := now, exited := none, delivered := false, resting := true }
  else { lease with renewed := now }

/-- `moved`: whether the move is dropped, and the exit it is the first to leave through. -/
def moved (start stop : CursorPosition) (lease : Lease P) : Bool × Option (Nat × Nat) :=
  if lease.exited.isSome then (true, none)
  else match lease.crossing start stop with
    | some exit_ => (true, some exit_)
    | none => (false, none)

/-- `sample`, up to the exit it finds. -/
def sample (cursor : CursorPosition) (lease : Lease P) : Option (Nat × Nat) × Lease P :=
  let previous := lease.sampled
  let lease := { lease with sampled := cursor }
  if lease.exited.isSome then (none, lease)
  else
    let resting := lease.atEdge cursor
    let lease := { lease with resting := lease.resting && resting.isSome }
    ((lease.crossing previous cursor).or (if lease.resting then none else resting), lease)

/-- `exited`, of the handoff that a Poll is for: what it answers. -/
def answer (lease : Lease P) : Option (Nat × Nat) × Lease P :=
  if lease.delivered then (none, lease)
  else (lease.exited, { lease with delivered := lease.exited.isSome })

/-- The check of `expire_at`: whether the handoff has ended. `geometry` is what the displays are now,
where it was asked for. -/
def expire (now : MonotonicTimeMicros) (generation : Nat) (geometry : Option Geometry)
    (lease : Lease P) : Bool × Lease P :=
  if lease.generation ≠ generation then
    if geometry ≠ some lease.geometry then (true, lease)
    else (decide (now - lease.renewed ≥ Macos.lease.asMicros), { lease with generation })
  else (decide (now - lease.renewed ≥ Macos.lease.asMicros), lease)

end Lease

/-! ## Ending a handoff -/

/-- Why a handoff ends. -/
inductive Cause where
  | finished
  | closed
  | expired
  /-- The cursor did not reach the entry in time. -/
  | abandoned

/-- What the call that ends a handoff does after it has taken it out. -/
inductive Deed where
  /-- Drops the lease, and with it its guard. -/
  | drop
  | releaseAll
  /-- Closes the session. -/
  | close

def Cause.deeds : Cause → List Deed
  | .finished | .closed => [.drop, .releaseAll]
  | .expired => [.drop, .releaseAll, .close]
  | .abandoned => [.drop]

/-- A handoff that was taken out, and how much of the rest is done. -/
structure Ending (P : Type) where
  holder : P × SessionId
  cause : Cause
  done : Nat

/-- What the server has the desk do. -/
inductive DeskCall (P : Type) where
  | releaseAll
  | close (peer : P) (session : SessionId)

/-! ## The server -/

/-- Where the pointer is, as the exits reported and the Polls answered tell. -/
inductive Pointer where
  | here
  /-- It left, and no Poll has answered that. -/
  | left
  /-- It left, a Poll has answered that, and none came after. -/
  | told
  deriving DecidableEq

/-- A Poll's answer: which report of an exit it is, of the exits that Prepare gave. -/
structure Answer where
  push : Nat
  given : List Exit
  exit : Nat
  position : Nat

structure Story where
  /-- How many exits were reported. -/
  pushes : Nat
  answers : List Answer
  pointer : Pointer
  /-- The peer kept the pointer, and no cursor sample off the exits' edges and no exit came after. -/
  kept : Bool
  /-- The exits of the last Prepare. -/
  given : List Exit
  /-- When the last Prepare or Poll was taken. -/
  polled : MonotonicTimeMicros

structure Server (P : Type) where
  guarded : Guarded P
  lease : Option (Lease P)
  /-- The sessions and tokens of the Polls that wait. -/
  polls : List (SessionId × Nat)
  endings : List (Ending P)
  desk : List (DeskCall P)
  story : Story

namespace Server

/-- An exit is reported. -/
def report (exit_ : Nat × Nat) (lease : Lease P) (s : Server P) : Server P :=
  { s with
    lease := some (lease.exit exit_)
    story := { s.story with pushes := s.story.pushes + 1, pointer := .left, kept := false } }

def moved (start stop : CursorPosition) (s : Server P) : Server P :=
  match s.lease with
  | none => s
  | some lease => match (lease.moved start stop).2 with
    | some exit_ => s.report exit_ lease
    | none => s

/-- Whether `moved` has a peer's move dropped. -/
def drops (start stop : CursorPosition) (s : Server P) : Bool :=
  s.lease.any fun lease => (lease.moved start stop).1

def sample (cursor : CursorPosition) (s : Server P) : Server P :=
  match s.lease with
  | none => s
  | some lease => match lease.sample cursor with
    | (some exit_, after) => s.report exit_ after
    | (none, after) =>
      { s with
        lease := some after
        story := { s.story with kept := s.story.kept && (lease.atEdge cursor).isSome } }

/-- Takes the handoff out, for the calls that end it. -/
def takeOut (cause : Cause) (lease : Lease P) (s : Server P) : Server P :=
  { s with
    lease := none
    endings := s.endings ++ [⟨lease.holder, cause, 0⟩]
    story := { s.story with pointer := .here, kept := false } }

def expire (now : MonotonicTimeMicros) (generation : Nat) (geometry : Option Geometry) (s : Server P) :
    Server P :=
  match s.lease with
  | none => s
  | some lease => match lease.expire now generation geometry with
    | (true, after) => s.takeOut .expired after
    | (false, after) => { s with lease := some after }

/-- The next thing that a call which ends a handoff does. -/
def proceed (index : Nat) (s : Server P) : Option (Server P) := do
  let ending ← s.endings[index]?
  let deed ← ending.cause.deeds[ending.done]?
  let s := { s with endings := s.endings.set index { ending with done := ending.done + 1 } }
  match deed with
  | .drop => return { s with guarded := s.guarded.drop .lease }
  | .releaseAll => return { s with desk := s.desk ++ [.releaseAll] }
  | .close => return { s with desk := s.desk ++ [.close ending.holder.1 ending.holder.2] }

/-- A Poll that waits looks for an exit to answer, of the handoff with its session and token. -/
def answer (index : Nat) (s : Server P) : Option (Server P) := do
  let (session, token) ← s.polls[index]?
  let gone := { s with polls := s.polls.eraseIdx index }
  match s.lease with
  | none => return gone
  | some lease =>
    if lease.session ≠ session ∨ lease.token ≠ token then return gone
    else match lease.answer with
      | (none, after) => return { s with lease := some after }
      | (some exit_, after) =>
        return { gone with
          lease := some after
          story := { s.story with
            pointer := .told
            answers := s.story.answers ++ [⟨s.story.pushes, s.story.given, exit_.1, exit_.2⟩] } }

end Server

/-- Each exit that has a display behind it. -/
def armedExits (geometry : Geometry) (exits : List Exit) : List (Nat × ArmedEdge) :=
  exits.zipIdx.filterMap fun (exit_, index) =>
    let armed : Except String ArmedEdge := do
      let selected ← geometry.forMonitor exit_.monitor
      ArmedEdge.new selected exit_.edge exit_.start exit_.stop
    armed.toOption.map (index, ·)

/-- What `prepare` works out before it takes the lock: the displays, the entry and the exits. -/
def planned (geometry : Except String Geometry) (request : Prepare) :
    Except String (Geometry × Point × List (Nat × ArmedEdge)) := do
  let geometry ← geometry
  let selected ← geometry.forMonitor request.monitor
  let armed ← ArmedEdge.new selected request.edge request.start request.stop
  let entry ← armed.entry request.position
  return (geometry, entry, armedExits geometry request.exits)

/-- The lease of a handoff that begins. An entry on another exit's outermost pixels is not a push out
through it. -/
def Lease.prepared (peer : P) (session : SessionId) (token : Nat) (now : MonotonicTimeMicros)
    (generation : Nat) (geometry : Geometry) (entry : Point) (exits : List (Nat × ArmedEdge)) : Lease P :=
  let lease : Lease P :=
    ⟨peer, session, token, now, generation, geometry, exits, ⟨entry.x, entry.y⟩, none, false, false⟩
  { lease with resting := (lease.atEdge lease.sampled).isSome }

namespace Server

variable [DecidableEq P]

/-- `prepare`, up to where it waits for the cursor. `current` is whether the session is still open. A
lease that was there would be dropped, with its guard. -/
def prepare (peer : P) (session : SessionId) (request : Prepare) (generation : Nat)
    (geometry : Except String Geometry) (current : Bool) (now : MonotonicTimeMicros) (s : Server P) :
    Server P :=
  match planned geometry request with
  | .error _ => s
  | .ok (geometry, entry, exits) =>
    if !current then s
    else match s.guarded.ownership.beginLease peer session with
      | .error _ => s
      | .ok _ =>
        let guarded := s.guarded.beginLease peer session
        { s with
          guarded := if s.lease.isSome then guarded.drop .lease else guarded
          lease :=
            some (.prepared peer session request.token now generation geometry entry exits)
          story := { s.story with
            pointer := .here, kept := false, given := request.exits, polled := now } }

/-- `poll`, up to where it waits. -/
def poll (peer : P) (session : SessionId) (token : Nat) (now : MonotonicTimeMicros) (s : Server P) :
    Server P :=
  match s.lease with
  | none => s
  | some lease =>
    if !lease.permits peer session token then s
    else
      { s with
        lease := some (lease.poll now)
        polls := s.polls ++ [(session, token)]
        story := { s.story with
          polled := now
          pointer := if s.story.pointer = .told then .here else s.story.pointer
          kept := s.story.kept || s.story.pointer = .told } }

def finish (peer : P) (session : SessionId) (token : Nat) (s : Server P) : Server P :=
  match s.lease with
  | none => s
  | some lease => if lease.permits peer session token then s.takeOut .finished lease else s

/-- `end`, of a handoff whose entry failed. -/
def abandon (session : SessionId) (token : Nat) (s : Server P) : Server P :=
  match s.lease with
  | none => s
  | some lease =>
    if lease.session = session ∧ lease.token = token then s.takeOut .abandoned lease else s

def closed (peer : P) (session : SessionId) (s : Server P) : Server P :=
  match s.lease with
  | none => s
  | some lease =>
    if lease.peer = peer ∧ lease.session = session then s.takeOut .closed lease else s

end Server

inductive HandoffStep (P : Type) where
  /-- The rest of the app takes or gives back this Mac's input. -/
  | own (call : GuardStep P)
  | prepare (peer : P) (session : SessionId) (request : Prepare) (generation : Nat)
    (geometry : Except String Geometry) (current : Bool) (now : MonotonicTimeMicros)
  | abandon (session : SessionId) (token : Nat)
  | poll (peer : P) (session : SessionId) (token : Nat) (now : MonotonicTimeMicros)
  | sample (cursor : CursorPosition)
  | answer (index : Nat)
  /-- A Poll answers Active, or its session is gone. -/
  | leave (index : Nat)
  | finish (peer : P) (session : SessionId) (token : Nat)
  | closed (peer : P) (session : SessionId)
  | expire (now : MonotonicTimeMicros) (generation : Nat) (geometry : Option Geometry)
  | moved (start stop : CursorPosition)
  | proceed (index : Nat)

/-- What the rest of the app calls: every call but those for a desktop handoff. -/
def GuardStep.beside : GuardStep P → Bool
  | .beginLease .. | .drop .lease => false
  | _ => true

namespace Server

variable [DecidableEq P]

def step : System (Server P) (HandoffStep P) := fun label s =>
  match label with
  | .own call =>
    if call.beside then (Guarded.step call s.guarded).map fun guarded => { s with guarded } else none
  | .prepare peer session request generation geometry current now =>
    if (DesktopRequest.prepare request).validate.isOk then
      some (s.prepare peer session request generation geometry current now)
    else none
  | .abandon session token => some (s.abandon session token)
  | .poll peer session token now => some (s.poll peer session token now)
  | .sample cursor => some (s.sample cursor)
  | .answer index => s.answer index
  | .leave index => some { s with polls := s.polls.eraseIdx index }
  | .finish peer session token => some (s.finish peer session token)
  | .closed peer session => some (s.closed peer session)
  | .expire now generation geometry => some (s.expire now generation geometry)
  | .moved start stop => some (s.moved start stop)
  | .proceed index => s.proceed index

def start : Server P := ⟨.default, none, [], [], [], ⟨0, [], .here, false, [], 0⟩⟩

end Server

end Zflow.Macos
