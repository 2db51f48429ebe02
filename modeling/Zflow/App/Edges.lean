import Zflow.App.Landing

/-!
# What lies beyond an edge here

Where other parts of the program keep the crossings over this computer's edges: as the ranges of GNOME's
barriers and the check of what a barrier reports (`outbound_edges` and `edge_peer` of `src/daemon/desktop.rs`),
and as the stretches of the Mac's edges that hold the pointer (`edge_guards` of `src/app/sharing.rs`).
-/

namespace Zflow.App

open Lib Desktop

/-- The range of a barrier, along the edge of a monitor. -/
structure OutboundEdge where
  monitor : Option String
  edge : Edge
  start : Nat
  stop : Nat
  deriving DecidableEq

def OutboundEdge.has (range : OutboundEdge) (monitor : Option String) (edge : Edge) (position : Nat) : Bool :=
  range.monitor = monitor && range.edge = edge && (range.start ≤ position && position ≤ range.stop)

/-- The computer whose edge the pointer pushed against, if any. -/
def edgePeer (edges : List (OutboundEdge × String)) (monitor : Option String) (edge : Edge) (position : Nat) :
    Option String :=
  (edges.find? fun (range, _) => range.has monitor edge position).map (·.2)

/-- A stretch of a monitor's edge that holds the pointer. -/
structure EdgeGuard where
  bounds : Rect
  edge : Edge
  start : Int
  stop : Int

/-- Whether a point is on an edge's line: its outermost points. -/
def onLine (bounds : Rect) (edge : Edge) (point : Point) : Bool :=
  match edge with
  | .left => point.x = bounds.x
  | .right => point.x = bounds.x + bounds.width - 1
  | .top => point.y = bounds.y
  | .bottom => point.y = bounds.y + bounds.height - 1

/-- Whether the guard holds a pointer at `point` that pushes out over `edge`: `guarded_move` of
`src/macos/capture_bridge.c`, for one that is at the line. -/
def EdgeGuard.holds (guard : EdgeGuard) (edge : Edge) (point : Point) : Bool :=
  let along := match edge with
    | .left | .right => point.y
    | .top | .bottom => point.x
  guard.edge = edge && onLine guard.bounds edge point && (guard.start ≤ along && along < guard.stop)

namespace Layout

def outboundEdge (layout : Layout) (t : Transition) : Option (OutboundEdge × String) := do
  let source ← layout.monitors[t.source]?
  let target ← layout.monitors[t.target]?
  if source.peer ≠ none then none
  let peer ← target.peer
  let range : OutboundEdge := ⟨source.displayId, t.edge, fraction t.sourceStart, fraction t.sourceEnd⟩
  if range.start < range.stop then some (range, peer) else none

/-- The local screens' edges that touch another computer's screen, as barrier ranges. -/
def outboundEdges (layout : Layout) : List (OutboundEdge × String) := layout.transitions.filterMap layout.outboundEdge

def edgeGuard (layout : Layout) (geometry : Geometry) (ready : String → Bool) (t : Transition) : Option EdgeGuard := do
  let source ← layout.monitors[t.source]?
  let target ← layout.monitors[t.target]?
  let peer ← target.peer
  if source.peer ≠ none ∨ ready peer = false then none
  let selected ← (geometry.forMonitor source.displayId).toOption
  let bounds ← selected.bounds.toOption
  if source.display.any (·.bounds ≠ bounds) then none
  let (origin, span) := match t.edge with
    | .left | .right => (bounds.y, bounds.height)
    | .top | .bottom => (bounds.x, bounds.width)
  let start := max ⌈t.sourceStart * span⌉ deadCorner
  let stop := min ⌈t.sourceEnd * span⌉ (span - deadCorner)
  if start < stop then some ⟨bounds, t.edge, origin + start, origin + stop⟩ else none

/-- The edges to hold the pointer at: those that lead to a computer that is ready. -/
def edgeGuards (layout : Layout) (geometry : Geometry) (ready : String → Bool) : List EdgeGuard :=
  (layout.transitions.filterMap (layout.edgeGuard geometry ready)).take 256

end Layout

end Zflow.App
