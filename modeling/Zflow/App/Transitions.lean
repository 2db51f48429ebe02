import Zflow.App.LayoutModel
import Zflow.Lib.Walks

/-!
# Where screens touch

The crossings between two computers' screens and the lines the settings window draws (`transitions` and
`seams` of `src/app/layout_model.rs`). The parts of an edge are exact fractions here.
-/

namespace Zflow.App

open Lib Desktop

@[ext]
structure Transition where
  source : Nat
  target : Nat
  edge : Edge
  sourceStart : ℚ
  sourceEnd : ℚ
  targetStart : ℚ
  targetEnd : ℚ
  deriving DecidableEq

/-- Where two screens touch: the line the settings window draws between them. -/
structure Seam where
  /-- The screen left of the line, or above it. -/
  a : String
  /-- The screen right of the line, or below it. -/
  b : String
  /-- Whether the screens sit side by side, so the line stands upright. -/
  vertical : Bool
  /-- The line's x when it stands upright, else its y. -/
  at_ : Int
  start : Int
  stop : Int
  /-- Whether both screens belong to one computer. -/
  sameComputer : Bool

/-- `opposite` of `src/app/handoff.rs`. -/
def opposite : Edge → Edge
  | .left => .right
  | .right => .left
  | .top => .bottom
  | .bottom => .top

/-- The edge of `a` that lies in one line with the opposite edge of `b`. -/
def facing (a b : Bounds) : Option Edge :=
  if a.right = b.left then some .right
  else if a.left = b.right then some .left
  else if a.bottom = b.top then some .bottom
  else if a.top = b.bottom then some .top
  else none

/-- Where an edge begins and ends. -/
def Bounds.along (b : Bounds) : Edge → Int × Int
  | .left | .right => (b.top, b.bottom)
  | .top | .bottom => (b.left, b.right)

/-- A place as a part of the edge it is on. -/
def partOf (edge : Int × Int) (place : Int) : ℚ := ((place - edge.1 : Int) : ℚ) / ((edge.2 - edge.1 : Int) : ℚ)

/-- The crossing from one screen to another of another computer, where they touch. -/
def transitionOf (source : Nat) (a : Monitor) (target : Nat) (b : Monitor) : Option Transition :=
  if source = target ∨ a.peer = b.peer ∨ a.active = false ∨ b.active = false then none
  else do
    let edge ← facing a.bounds b.bounds
    let (one, other) := (a.bounds.along edge, b.bounds.along edge)
    let (start, stop) := (max one.1 other.1, min one.2 other.2)
    if start < stop then
      some {
        source
        target
        edge
        sourceStart := partOf one start
        sourceEnd := partOf one stop
        targetStart := partOf other start
        targetEnd := partOf other stop }
    else none

/-- The line between two screens, where they touch. -/
def seamOf (one other : Monitor) : Option Seam :=
  if one.active = false ∨ other.active = false then none
  else do
    let edge ← facing one.bounds other.bounds
    let (o, t) := (one.bounds.along edge, other.bounds.along edge)
    let (start, stop) := (max o.1 t.1, min o.2 t.2)
    if start ≥ stop then none
    else
      let (a, b, at_) := match edge with
        | .right => (one, other, one.bounds.right)
        | .left => (other, one, one.bounds.left)
        | .bottom => (one, other, one.bounds.bottom)
        | .top => (other, one, one.bounds.top)
      some {
        a := a.id
        b := b.id
        vertical := edge = .left ∨ edge = .right
        at_
        start
        stop
        sameComputer := one.peer = other.peer }

namespace Layout

def transitions (layout : Layout) : List Transition :=
  if layout.validate.isOk then
    layout.monitors.zipIdx.flatMap fun (a, source) =>
      layout.monitors.zipIdx.filterMap fun (b, target) => transitionOf source a target b
  else []

/-- Each pair once. Inactive screens touch nothing. -/
def seams (layout : Layout) : List Seam :=
  if layout.validate.isOk then (pairs layout.monitors).filterMap fun (one, other) => seamOf one other else []

end Layout

end Zflow.App
