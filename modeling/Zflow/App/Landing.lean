import Zflow.App.Handoff
import Zflow.App.Transitions
import Zflow.Desktop.Mapping

/-!
# Where a crossing enters and comes back

What `src/app/handoff.rs` computes from a layout: which crossing a point on an edge takes, where it enters the
other computer and every way off that one. Parts of an edge are exact fractions here. A transition's screens
are in its layout, so a lookup of one always answers.
-/

namespace Zflow.App

open Lib Desktop

/-- What plans the next hop of a crossing. -/
structure Plan where
  sourceGeometry : Geometry
  /-- Where the Mac's cursor may travel while the crossing is prepared. -/
  entryRegion : Rect
  /-- The edge here the crossing left from, and its range on the first computer it entered. -/
  returnMapping : ReturnMapping
  /-- Where the crossing entered that first computer. -/
  origin : Nat
  /-- The layout the routes come from. -/
  layout : Layout

/-- What a layout measures in parts of an edge. -/
inductive Measured where
  | layout (layout : Layout)
  | mapping (mapping : ReturnMapping)
  | transition (transition : Transition)
  | plan (plan : Plan)

/-- `DEAD_CORNER`: how far from the desktop's corners a crossing stops. -/
def deadCorner : Int := 8

/-- `fraction` of `src/app/handoff.rs`. -/
def fraction (part : ℚ) : Nat := units (clamped part)

/-- Whether a point is on an edge's outermost two points. -/
def touches (bounds : Rect) (edge : Edge) (point : Point) : Bool :=
  match edge with
  | .left => point.x ≤ bounds.x + 1
  | .right => point.x ≥ bounds.x + bounds.width - 2
  | .top => point.y ≤ bounds.y + 1
  | .bottom => point.y ≥ bounds.y + bounds.height - 2

def contains (geometry : Geometry) (point : Point) : Bool := geometry.monitors.any (·.contains point)

/-- The id with which a screen's display is looked up on its computer. -/
def Monitor.displayId (m : Monitor) : Option String := m.display.map Display.id

/-- Where the pointer may travel while a crossing is prepared: along the connected part of the monitor it is
on, nine points deep. -/
def entryRegion (geometry : Geometry) (edge : Edge) (start stop : ℚ) (entry : Point) : Option Rect := do
  let bounds ← geometry.bounds.toOption
  let monitor ← geometry.monitors.find? (·.contains entry)
  let (_, span) := bounds.offset edge entry
  let (alongStart, alongEnd) := (round (start * span), round (stop * span))
  let (x, y, right, bottom) : Int × Int × Int × Int := match edge with
    | .left => (bounds.x, bounds.y + alongStart, bounds.x + min 9 bounds.width, bounds.y + alongEnd)
    | .right => (bounds.x + bounds.width - min 9 bounds.width, bounds.y + alongStart, bounds.x + bounds.width,
        bounds.y + alongEnd)
    | .top => (bounds.x + alongStart, bounds.y, bounds.x + alongEnd, bounds.y + min 9 bounds.height)
    | .bottom => (bounds.x + alongStart, bounds.y + bounds.height - min 9 bounds.height, bounds.x + alongEnd,
        bounds.y + bounds.height)
  let (x, y) := (max x monitor.x, max y monitor.y)
  let (right, bottom) := (min right (monitor.x + monitor.width), min bottom (monitor.y + monitor.height))
  if right > x ∧ bottom > y then some ⟨x, y, (right - x).toNat, (bottom - y).toNat⟩ else none

namespace Layout

/-- Where a crossing onto a screen leads. A monitor here that is gone takes nothing back. -/
def onwardOf (geometry : Geometry) (t : Transition) (target : Monitor) : Option (Onward String Measured) :=
  match target.peer with
  | some next => some (.peer next (.transition t))
  | none => (geometry.forMonitor target.displayId).toOption.map fun selected =>
      .home (.mapping ⟨selected, opposite t.edge, t.targetStart, t.targetEnd, t.sourceStart, t.sourceEnd⟩)

/-- One way off `peer`'s screens, unless it is too short. -/
def routeOf (layout : Layout) (geometry : Geometry) (peer : String) (t : Transition) :
    Option (Route String Measured) := do
  let source ← layout.monitors[t.source]?
  let target ← layout.monitors[t.target]?
  if source.peer ≠ some peer then none
  let exit_ : Exit := ⟨source.displayId, t.edge, fraction t.sourceStart, fraction t.sourceEnd⟩
  let onward ← onwardOf geometry t target
  if exit_.start < exit_.stop then some ⟨exit_, onward⟩ else none

end Layout

def Route.isHome {P X : Type} (route : Route P X) : Bool :=
  match route.onward with
  | .home _ => true
  | .peer _ _ => false

namespace Layout

/-- Every way off `peer`'s screens that the layout shows. The ways home come first. -/
def routes (layout : Layout) (geometry : Geometry) (peer : String) : List (Route String Measured) :=
  let found := layout.transitions.filterMap (layout.routeOf geometry peer)
  ((found.filter (·.isHome)) ++ (found.filter (!·.isHome))).take maxExits

/-- The crossing through `t` onto its target computer, at `position` of the target's range. -/
def entering (layout : Layout) (geometry : Geometry) (t : Transition) (position : Nat) (entryRegion : Rect)
    (returnMapping : ReturnMapping) (origin : Nat) : Option (Handoff String Measured) := do
  let target ← layout.monitors[t.target]?
  let peer ← target.peer
  return {
    peer
    monitor := target.displayId
    edge := opposite t.edge
    start := fraction t.targetStart
    stop := fraction t.targetEnd
    position
    expectedWidth := (target.display.map (·.bounds.width)).getD target.width
    expectedHeight := (target.display.map (·.bounds.height)).getD target.height
    routes := layout.routes geometry peer
    plan := .plan ⟨geometry, entryRegion, returnMapping, origin, layout⟩ }

/-- The crossing through `t` for a cursor at `current` on its edge. -/
def handoffAt (layout : Layout) (geometry : Geometry) (t : Transition) (current : Point) :
    Option (Handoff String Measured) := do
  let source ← layout.monitors[t.source]?
  let selected ← (geometry.forMonitor source.displayId).toOption
  let returnMapping : ReturnMapping :=
    ⟨selected, t.edge, t.sourceStart, t.sourceEnd, t.targetStart, t.targetEnd⟩
  let entryRegion ← entryRegion selected t.edge t.sourceStart t.sourceEnd current
  let position ← (returnMapping.fraction current).toOption
  layout.entering geometry t position entryRegion returnMapping position

/-- The outermost point of an edge, at that part of it. -/
def outermost (bounds : Rect) (edge : Edge) (along : ℚ) : Point :=
  let offset (span : Nat) : Int := min ⌊along * span⌋ (span - 1)
  match edge with
  | .left => ⟨bounds.x, bounds.y + offset bounds.height⟩
  | .right => ⟨bounds.x + bounds.width - 1, bounds.y + offset bounds.height⟩
  | .top => ⟨bounds.x + offset bounds.width, bounds.y⟩
  | .bottom => ⟨bounds.x + offset bounds.width, bounds.y + bounds.height - 1⟩

/-- Whether `t` leaves this computer over that edge of that monitor. -/
def leaves (layout : Layout) (monitor : Option String) (edge : Edge) (t : Transition) : Bool :=
  layout.monitors[t.source]?.any fun source => source.peer = none && t.edge = edge && source.displayId = monitor

/-- The crossing for a push against `edge` at `position`, as a GNOME barrier reports it. -/
def fromEdge (layout : Layout) (geometry : Geometry) (monitor : Option String) (edge : Edge) (position : Nat) :
    Option (Handoff String Measured) := do
  let selected ← (geometry.forMonitor monitor).toOption
  let bounds ← selected.bounds.toOption
  let along : ℚ := (min position fractionMax : Nat) / (fractionMax : ℚ)
  let current := outermost bounds edge along
  let t ← (layout.transitions.filter (layout.leaves monitor edge)).find? fun t =>
    t.sourceStart ≤ along && along ≤ t.sourceEnd
  layout.handoffAt geometry t current

/-- The walk over the crossings for a pointer at `current` on one of the `wanted` edges. -/
def reachingFrom (layout : Layout) (geometry : Geometry) (current : Point) (wanted : Rect → Edge → Bool) :
    List Transition → Option (Handoff String Measured)
  | [] => none
  | t :: rest =>
    match layout.monitors[t.source]? with
    | none => none
    | some source =>
      if source.peer.isSome then layout.reachingFrom geometry current wanted rest
      else match geometry.forMonitor source.displayId with
        | .error _ => layout.reachingFrom geometry current wanted rest
        | .ok selected => match selected.bounds with
          | .error _ => none
          | .ok bounds =>
            if !bounds.contains current || !wanted bounds t.edge || !touches bounds t.edge current then
              layout.reachingFrom geometry current wanted rest
            else
              let (offset, span) := bounds.offset t.edge current
              let along := (offset : ℚ) / span
              if offset < deadCorner ∨ offset ≥ span - deadCorner ∨ along < t.sourceStart ∨ along ≥ t.sourceEnd then
                layout.reachingFrom geometry current wanted rest
              else layout.handoffAt geometry t current

def reaching (layout : Layout) (geometry : Geometry) (current : Point) (wanted : Rect → Edge → Bool) :
    Option (Handoff String Measured) :=
  if contains geometry current then layout.reachingFrom geometry current wanted layout.transitions else none

/-- The crossing for a pointer that moves from `previous` onto an edge at `current`. -/
def crossing (layout : Layout) (geometry : Geometry) (previous current : Point) : Option (Handoff String Measured) :=
  if contains geometry previous then
    layout.reaching geometry current fun bounds edge => bounds.contains previous && !touches bounds edge previous
  else none

/-- The crossing for a pointer held on an edge at `current` while it pushes on by `dx` and `dy`. -/
def pushed (layout : Layout) (geometry : Geometry) (current : Point) (dx dy : ℚ) : Option (Handoff String Measured) :=
  layout.reaching geometry current fun _ edge => match edge with
    | .left => dx < 0
    | .right => dx > 0
    | .top => dy < 0
    | .bottom => dy > 0

/-- The crossing for a pointer at `current` on this desktop's `edge`. -/
def onEdge (layout : Layout) (geometry : Geometry) (edge : Edge) (current : Point) :
    Option (Handoff String Measured) :=
  layout.reaching geometry current fun _ wanted => wanted = edge

end Layout

/-- A crossing of this kind measures only with what it was planned with. -/
instance : Landing String Measured where
  fromEdge
    | .layout layout, geometry, monitor, edge, position => layout.fromEdge geometry monitor edge position
    | _, _, _, _, _ => none
  homePosition
    | .mapping mapping, position => mapping.position position
    | _, _ => .error "no return mapping"
  entering
    | handoff, .transition t, position => match handoff.plan with
      | .plan plan =>
        -- The same linear map as a return: along the exit, then onto the next computer's part of that edge.
        let entry := carried t.sourceStart t.sourceEnd t.targetStart t.targetEnd ((position : ℚ) / fractionMax)
        plan.layout.entering plan.sourceGeometry t (fraction entry) plan.entryRegion plan.returnMapping plan.origin
      | _ => none
    | _, _, _ => none

/-- Where the pointer comes back here when the crossing ends without leaving through an exit. -/
def Handoff.home (handoff : Handoff String Measured) : Except String Point :=
  match handoff.plan with
  | .plan plan => plan.returnMapping.position plan.origin
  | _ => .error "no return mapping"

end Zflow.App
