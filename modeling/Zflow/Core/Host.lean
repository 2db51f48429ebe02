import Zflow.Core.Keymap

/-!
# Hosts of a remap

Every platform that types a peer's keys calls the same remap and posts what comes out of it, between the
buttons and the wheel. Each does so in a function of its own; what such a function does with one event is a
list of deeds, and a `Host` is one that does exactly its deeds.
-/

namespace Zflow.Core

open Lib

/-- What every platform can be sent. -/
inductive HostEvent where
  | key (usage : HidUsage) (pressed : Bool)
  | button (button : PointerButton) (pressed : Bool)
  | scroll (dx dy : Int)

/-- The event as a receiver emits it. -/
def HostEvent.effect : HostEvent → ReceiverEffect
  | .key usage pressed => .key usage pressed false
  | .button which pressed => .button which pressed false
  | .scroll dx dy => .motion ⟨0, 0, dx, dy⟩ 0

/-- What a platform does with an event, in order. -/
inductive Deed where
  /-- It calls the remap, and types the edges it gets. -/
  | ask (call : KeyRemap.Call)
  | button (button : PointerButton) (pressed : Bool)
  | scroll (dx dy : Int)

/-- An edge that was taken out of the remap, or a post between them. -/
inductive Played where
  | edge (edge : Edge)
  | button (button : PointerButton) (pressed : Bool)
  | scroll (dx dy : Int)
  deriving DecidableEq

def Deed.play (r : KeyRemap) : Deed → List Played × KeyRemap
  | .ask call => ((r.call call).1.map .edge, (r.call call).2)
  | .button which pressed => ([.button which pressed], r)
  | .scroll dx dy => ([.scroll dx dy], r)

/-- What some deeds take out of a remap and post, and the remap they leave. -/
def KeyRemap.play (r : KeyRemap) (deeds : List Deed) : List Played × KeyRemap :=
  Replay.collect Deed.play r deeds

/-- Deeds, one after the other, until one fails. -/
def doAll {ε S : Type} (does : Deed → Act ε S Unit) : List Deed → Act ε S Unit
  | [] => pure ()
  | deed :: rest => do
    does deed
    doAll does rest

/-- A platform's state `S`: `handle` is its own function, and does what `deeds` lists. -/
structure Host (ε S : Type) where
  remap : S → KeyRemap
  handle : HostEvent → Act ε S Unit
  deeds : S → HostEvent → List Deed
  does : Deed → Act ε S Unit
  handle_eq : ∀ s event, (handle event s).1 = .ok () → handle event s = doAll does (deeds s event) s
  /-- A deed leaves the remap as its call does. -/
  remap_does : ∀ s deed, (does deed s).1 = .ok () → remap (does deed s).2 = (deed.play (remap s)).2

namespace Host

variable {ε S : Type} (host : Host ε S)

/-- The state after some events. -/
def after (s : S) (events : List HostEvent) : S := events.foldl (fun s event => (host.handle event s).2) s

/-- Nothing that is posted for the events fails. -/
def Posts : S → List HostEvent → Prop
  | _, [] => True
  | s, event :: rest => (host.handle event s).1 = .ok () ∧ Posts (host.handle event s).2 rest

/-- What the platform takes out of its remap and posts, for each event. -/
def played : S → List HostEvent → List (List Played)
  | _, [] => []
  | s, event :: rest =>
    ((host.remap s).play (host.deeds s event)).1 :: played (host.handle event s).2 rest

end Host

end Zflow.Core
