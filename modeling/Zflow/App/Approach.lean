import Zflow.App.Landing
import Zflow.Pairing.Neighbors

/-!
# The way to an edge

`Approach` of `src/app/sharing.rs`: when a pointer that comes to an edge of this Mac, or pushes against one, crosses it.
With pause at edges on it has to stay there first. A look at the cursor happens about every 12 ms. Of a motion's
distances only the signs count.
-/

namespace Zflow.App

open Lib Desktop Pairing

/-- A time of so many milliseconds. -/
def millis (n : Nat) : Nat := n * 1000000

/-- `EDGE_PAUSE`: how long the pointer rests against an edge before it crosses, with pause at edges on. -/
def edgePause : Nat := millis 250

/-- `PUSH_FRESH`: how old the Mac's own motion may be and still count as a push. -/
def pushFresh : Nat := millis 100

/-- `HAND_BACK_QUIET`: after a peer lets go of this Mac, how long the pointer has to be still before a push on the edge it
rests on counts. -/
def handBackQuiet : Nat := millis 200

/-- `HAND_BACK_GUARD`: how long after a peer takes control back this Mac does not cross to it. -/
def handBackGuard : Nat := millis 500

/-- The Mac's own motion since the last look. -/
structure LocalMotion where
  dx : ℚ
  dy : ℚ
  /-- How long ago the last move came. -/
  age : Nat

/-- What a look at the cursor brings, and whether pause at edges is on. -/
structure Look where
  current : Point
  push : Option LocalMotion
  now : Instant
  pause : Bool

/-- A push against an edge that crosses once it has lasted `edgePause`. -/
structure Resting where
  edge : Edge
  peer : String
  since : Instant

structure Approach where
  previous : Option Point
  resting : Option Resting
  /-- The edge the pointer crossed from, or tried to, while it stays on it. -/
  spent : Option Edge
  /-- The peer that last controlled this Mac, and when it let go. -/
  releasedBy : Option (String × Instant)
  /-- Set while a peer's hand-back settles: when the pointer last moved since. -/
  settling : Option Instant

/-- Whether a point is on any of this desktop's outer edges. -/
def onAnyEdge (geometry : Geometry) (point : Point) : Bool :=
  geometry.monitors.any fun bounds => [Edge.left, .right, .top, .bottom].any fun edge =>
    bounds.contains point && touches bounds edge point

/-- `return_mapping.edge`: the edge here that the crossing leaves over. Every crossing is planned with a mapping. -/
def Handoff.returnEdge (handoff : Handoff String Measured) : Edge :=
  match handoff.plan with
  | .plan plan => plan.returnMapping.edge
  | _ => opposite handoff.edge

namespace Approach

def fresh : Approach := ⟨none, none, none, none, none⟩

def controlledBy (peer : String) (now : Instant) : Approach :=
  { fresh with releasedBy := some (peer, now), settling := some now }

/-- Forgets the way to an edge, but not a hand-back still settling. -/
def restart (a : Approach) : Approach := { fresh with releasedBy := a.releasedBy, settling := a.settling }

/-- The look's push, unless it belongs to a peer's hand-back that has not settled. -/
def settled (geometry : Geometry) (look : Look) (a : Approach) : Option LocalMotion × Approach :=
  match a.settling with
  | none => (look.push, a)
  | some moved =>
    if !onAnyEdge geometry look.current then (look.push, { a with settling := none })
    else match look.push with
      | none => (none, a)
      | some push =>
        if look.now - moved < handBackQuiet then (none, { a with settling := some look.now })
        else (some push, { a with settling := none })

/-- The crossing that a push starts, unless its edge is spent. -/
def pushing (layout : Layout) (geometry : Geometry) (current : Point) (push : Option LocalMotion)
    (spent : Option Edge) : Option (Handoff String Measured) := do
  let push ← push.filter (·.age ≤ pushFresh)
  (layout.pushed geometry current push.dx push.dy).filter fun handoff => spent ≠ some handoff.returnEdge

/-- The end of `reaching`: a crossing that starts here, or waits from now on. -/
def starting (layout : Layout) (geometry : Geometry) (previous : Option Point) (push : Option LocalMotion)
    (look : Look) (a : Approach) : Option (Handoff String Measured) × Approach :=
  match (previous.bind (layout.crossing geometry · look.current)).or
      (pushing layout geometry look.current push a.spent) with
  | none => (none, a)
  | some handoff =>
    let a := { a with spent := some handoff.returnEdge }
    if !look.pause then (some handoff, a)
    else (none, { a with resting := some ⟨handoff.returnEdge, handoff.peer, look.now⟩ })

/-- A spent edge is spent while the pointer stays on it. -/
def keepSpent (layout : Layout) (geometry : Geometry) (current : Point) (spent : Option Edge) : Option Edge :=
  spent.filter fun edge => (layout.onEdge geometry edge current).isSome

def reaching (layout : Layout) (geometry : Geometry) (push : Option LocalMotion) (look : Look) (a : Approach) :
    Option (Handoff String Measured) × Approach :=
  let previous := a.previous
  let a := { a with previous := some look.current, spent := keepSpent layout geometry look.current a.spent }
  match a.resting with
  | none => starting layout geometry previous push look a
  | some resting =>
    match layout.onEdge geometry resting.edge look.current with
    | some handoff =>
      -- Another computer's part of the edge starts over.
      if handoff.peer ≠ resting.peer then
        (none, { a with resting := some { resting with peer := handoff.peer, since := look.now } })
      else if look.now - resting.since ≥ edgePause then (some handoff, { a with resting := none })
      else (none, a)
    | none => starting layout geometry previous push look { a with resting := none }

/-- Whether the handoff goes to a peer that just took control back. -/
def guarded (look : Look) (releasedBy : Option (String × Instant)) (handoff : Handoff String Measured) : Bool :=
  releasedBy.any fun (peer, at_) => peer = handoff.peer && look.now - at_ < handBackGuard

/-- The end of `reached`. Pushing on once the guard is over still crosses. -/
def holdBack (look : Look) : Option (Handoff String Measured) × Approach → Option (Handoff String Measured) × Approach
  | (none, a) => (none, a)
  | (some handoff, a) => if guarded look a.releasedBy handoff then (none, { a with spent := none }) else (some handoff, a)

/-- The crossing the pointer starts, if any: by moving onto an edge, or by pushing on while the cursor is held against
one. -/
def reached (layout : Layout) (geometry : Geometry) (look : Look) (a : Approach) :
    Option (Handoff String Measured) × Approach :=
  let (push, a) := settled geometry look a
  holdBack look (reaching layout geometry push look a)

/-- What happens to the approach of an observer. -/
inductive Event where
  | look (look : Look)
  | restart
  | controlledBy (peer : String) (now : Instant)

def step (layout : Layout) (geometry : Geometry) (a : Approach) : Event → Approach
  | .look look => (reached layout geometry look a).2
  | .restart => a.restart
  | .controlledBy peer now => controlledBy peer now

/-- The approach after a sequence of events. -/
def run (layout : Layout) (geometry : Geometry) (a : Approach) (events : List Event) : Approach :=
  events.foldl (step layout geometry) a

/-- The handoffs that looks one after the other return. -/
def handoffs (layout : Layout) (geometry : Geometry) : Approach → List Look → List (Handoff String Measured)
  | _, [] => []
  | a, look :: rest =>
    (reached layout geometry look a).1.toList ++ handoffs layout geometry (reached layout geometry look a).2 rest

end Approach

end Zflow.App
