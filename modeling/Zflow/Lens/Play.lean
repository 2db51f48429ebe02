import Zflow.Core.Host
import Zflow.Linux.Uinput

/-!
# Playing a viewer's input

How the lens host (`play` and `keys` of `src/lens/host.rs`) types a viewer's keys, buttons and scrolling into the
desktop it shows. The desktop itself is an interface, `Desk`. The pointer's moves, which only move it, and the
copy shortcut, which types no key of the viewer, are left out.
-/

namespace Zflow.Lens

open Zflow.Core Lib

/-- The calls on Mutter's remote desktop, each of which may fail. -/
class Desk (D : Type) where
  key : Nat → Bool → Act String D Unit
  button : Nat → Bool → Act String D Unit
  /-- `NotifyPointerAxis`. -/
  axis : Int → Int → Act String D Unit

/-- What `play` keeps; `terminal` is `FOCUSED_TERMINAL`. -/
structure Player (D : Type) where
  desk : D
  remap : KeyRemap
  /-- The buttons that are down, a bit each. -/
  buttons : BitVec 32
  terminal : Bool

namespace Player

variable {D : Type} [Desk D]

def new (desk : D) (keyboard : KeyboardMode) (terminal : Bool) : Player D := ⟨desk, .new keyboard, 0, terminal⟩

def onDesk (x : Act String D Unit) : Act String (Player D) Unit :=
  .on desk (fun desk p => { p with desk }) id x

/-- A key without a code is left out. -/
def key (edge : Edge) : Act String (Player D) Unit :=
  match Linux.hidToEvdevKey edge.1 with
  | .ok code => onDesk (Desk.key code edge.2)
  | .error _ => pure ()

def keys : List Edge → Act String (Player D) Unit
  | [] => pure ()
  | edge :: rest => do
    key edge
    keys rest

/-- `Desk::scroll`: nothing is sent for no distance. -/
def scroll (dx dy : Int) : Act String (Player D) Unit :=
  if dx = 0 ∧ dy = 0 then pure () else onDesk (Desk.axis dx dy)

/-- The buttons after one of them moved. -/
def moved (buttons : BitVec 32) (button : PointerButton) (pressed : Bool) : BitVec 32 :=
  let bit := 1#32 <<< min button 31
  if pressed then buttons ||| bit else buttons &&& ~~~bit

def playButton (button : PointerButton) (pressed : Bool) : Act String (Player D) Unit := fun p =>
  match Linux.pointerButtonToEvdev button with
  | .error _ => (.ok (), p)
  | .ok code =>
    let buttons := moved p.buttons button pressed
    let (edges, remap) := if pressed then p.remap.pointer (buttons != 0)
      else ([], p.remap.pointerReleased (buttons != 0))
    (do
      keys edges
      onDesk (Desk.button code pressed)) { p with buttons, remap }

def playKey (usage : HidUsage) (pressed : Bool) : Act String (Player D) Unit := fun p =>
  let remap := if pressed then p.remap.setTerminal p.terminal else p.remap
  let (edges, remap) := remap.key usage pressed
  keys edges { p with remap }

def playScroll (dx dy : Int) : Act String (Player D) Unit := fun p =>
  let (edges, remap) := p.remap.pointer (p.buttons != 0)
  (do
    keys edges
    scroll dx dy) { p with remap }

/-- One action of the viewer's. -/
def play : HostEvent → Act String (Player D) Unit
  | .key usage pressed => playKey usage pressed
  | .button which pressed => playButton which pressed
  | .scroll dx dy => playScroll dx dy

end Player

end Zflow.Lens
