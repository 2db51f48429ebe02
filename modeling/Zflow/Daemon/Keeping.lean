import Zflow.App.Edges
import Zflow.Daemon.Layouts

/-!
# Keeping a layout

One daemon's calls of `keep_layout` (`src/daemon.rs`), any number at a time: each looks whether its layout
is newer and takes it over under one lock, and after the lock is released saves it and has `apply_layout`
give the desktop agent the edges of the layout the daemon keeps by then. What a call still has to do is its
stage, and calls are run in any order, each from one `await` to the next. The configuration stays as it is
meanwhile; the offers a call ends with change nothing here and are those of `Zflow.Daemon.Layouts`.
-/

namespace Zflow.Daemon.Keeping

open Lib Desktop App Layouts

/-- What a daemon knows of its computer and its configuration. -/
structure Settings where
  /-- `identity_fingerprint`. -/
  own : Key
  /-- `peer_keys`. -/
  keys : Keys
  /-- `switching.pause_at_edges`. -/
  pauseAtEdges : Bool

/-- A call of `keep_layout`, by what it does next. -/
inductive Call where
  | keep (layout : SharedLayout)
  | save (layout : SharedLayout)
  /-- `local_layout`, up to where it has the layout. -/
  | read
  /-- `set_edges`, with the edges of the layout that was read. -/
  | place (layout : Option SharedLayout)
  /-- It has returned whether its layout was kept. -/
  | returned (kept : Bool)

def Call.hasReturned : Call → Bool
  | .returned _ => true
  | .keep _ | .save _ | .read | .place _ => false

structure Keeper where
  layout : Option SharedLayout
  /-- The layout in `LAYOUT_FILE`, as `restore_layout` would read it. -/
  file : Option SharedLayout
  /-- What the desktop agent is given: the edges, and whether the pointer rests at them. -/
  edges : List (OutboundEdge × String)
  pause : Bool
  calls : List Call

variable (settings : Settings)

/-- The edges `apply_layout` places for a layout. -/
def outboundEdges (layout : Option SharedLayout) : List (OutboundEdge × String) :=
  (layout.map fun shared =>
    (Layout.fromShared shared settings.own "This computer" settings.keys).outboundEdges).getD []

inductive Step where
  /-- A task calls `keep_layout`: it adopts a peer's layout, moves a tile, fits its own, or places new
  peers. -/
  | call (layout : SharedLayout)
  /-- A call is run; `saved` is whether `save_text` succeeds, if that is what it does. -/
  | run (index : Nat) (saved : Bool)

namespace Keeper

def setCall (index : Nat) (call : Call) (k : Keeper) : Keeper :=
  { k with calls := k.calls.set index call }

/-- What a call does next. A layout that is not saved is used until restart. -/
def run (index : Nat) (saved : Bool) (k : Keeper) : Call → Option Keeper
  | .keep layout =>
    if replaces layout k.layout then
      some ({ k with layout := some layout }.setCall index (.save layout))
    else some (k.setCall index (.returned false))
  | .save layout =>
    some ({ k with file := if saved then some layout else k.file }.setCall index .read)
  | .read => some (k.setCall index (.place k.layout))
  | .place layout =>
    some ({ k with edges := outboundEdges settings layout, pause := settings.pauseAtEdges }.setCall index
      (.returned true))
  | .returned _ => none

/-- Every call has finished. -/
def finished (k : Keeper) : Bool := k.calls.all Call.hasReturned

end Keeper

def step : System Keeper Step := fun label k =>
  match label with
  | .call layout => some { k with calls := k.calls ++ [.keep layout] }
  | .run index saved => k.calls[index]?.bind (k.run settings index saved)

/-- A daemon that has restored the layout it kept last time. -/
def start (kept : Option SharedLayout) : Keeper :=
  ⟨kept, kept, outboundEdges settings kept, settings.pauseAtEdges, []⟩

end Zflow.Daemon.Keeping
