import Zflow.Desktop.Protocol

/-!
# Handoffs

Where a crossing enters the other computer and where it comes back (`src/app/handoff.rs`). `X` is
what the layout measures in fractions of an edge: return mappings, transitions, the layout itself.
What is computed from them in floating point is a `Landing`; everything else is here.
-/

namespace Zflow.App

open Lib Desktop

/-- Where a way off a desktop leads: home, or on to another computer. -/
inductive Onward (P X : Type) where
  | home (mapping : X)
  | peer (peer : P) (transition : X)

structure Route (P X : Type) where
  exit_ : Exit
  onward : Onward P X

structure Handoff (P X : Type) where
  peer : P
  monitor : Option String
  edge : Edge
  start : Nat
  stop : Nat
  position : Nat
  expectedWidth : Nat
  expectedHeight : Nat
  /-- The ways off this computer's desktop, in the order Prepare lists their exits. -/
  routes : List (Route P X)
  /-- The geometry here, the return mapping and the layout, which plan the next hop. -/
  plan : X

inductive Next (P X : Type) where
  | home (point : Point)
  | hop (next : Handoff P X)

/-- What the layout's geometry answers. -/
class Landing (P X : Type) where
  /-- `from_edge`. -/
  fromEdge : X → Geometry → Option String → Edge → Nat → Option (Handoff P X)
  /-- `ReturnMapping::position`. -/
  homePosition : X → Nat → Except String Point
  /-- `entering`, at the fraction that matches a position on the exit. -/
  entering : Handoff P X → X → Nat → Option (Handoff P X)

variable {P X : Type}

namespace Handoff

def prepare (handoff : Handoff P X) (token : Nat) : DesktopRequest :=
  .prepare {
    monitor := handoff.monitor
    token
    edge := handoff.edge
    start := handoff.start
    stop := handoff.stop
    position := handoff.position
    exits := handoff.routes.map Route.exit_ }

/-- Keeps the routes home, and those on to the computers input can go to now. -/
def keepRoutes (handoff : Handoff P X) (reachable : P → Bool) : Handoff P X :=
  { handoff with
    routes := handoff.routes.filter fun route => match route.onward with
      | .home _ => true
      | .peer peer _ => reachable peer }

/-- Where the pointer goes after it left through the route of that index at `position`. -/
def next [Landing P X] (handoff : Handoff P X) (exit_ position : Nat) : Except String (Next P X) :=
  match handoff.routes[exit_]? with
  | none => .error "the other computer reported an exit it was not given"
  | some route =>
    if !(route.exit_.start ≤ position && position ≤ route.exit_.stop) then
      .error "the pointer left outside the configured edge range"
    else match route.onward with
      | .home mapping => (Landing.homePosition P mapping position).map .home
      | .peer _ transition =>
        match Landing.entering handoff transition position with
        | some next => .ok (.hop next)
        | none => .error "the layout has no computer past that edge"

/-- Checks that the other computer prepared a desktop of the size the layout expects. -/
def checkPrepared (handoff : Handoff P X) (response : DesktopResponse) : Except String Unit := do
  response.validate
  match response with
  | .prepared geometry _ => do
    let bounds ← (← geometry.forMonitor handoff.monitor).bounds
    refuseIf (!(bounds.width == handoff.expectedWidth && bounds.height == handoff.expectedHeight))
      "the other computer's desktop changed size; refresh and save the computer layout before sharing"
  | .unavailable reason =>
    .error ("the other computer's desktop is unavailable: " ++ reason)
  | _ => .error "the other computer did not prepare its desktop for input"

end Handoff

/-- Checks the other computer's answer to Finish. -/
def checkFinished : Except String DesktopResponse → Except String Unit
  | .error error => .error error
  | .ok .finished => .ok ()
  | .ok (.unavailable reason) =>
    .error ("the other computer could not finish the desktop handoff: " ++ reason)
  | .ok _ => .error "the other computer did not confirm the desktop handoff cleanup"

end Zflow.App
