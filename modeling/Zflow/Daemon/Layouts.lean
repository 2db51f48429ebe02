import Zflow.Desktop.Layout
import Zflow.Lib.System

/-!
# How daemons share a layout

Each daemon keeps one layout and trades it with the peers it has a session with (`offer_layout`,
`merge_layout`, `keep_layout` and `place_new_peers` of `src/daemon.rs`). `D` are the computers. What a
task still has to do is an `Errand`: an event loop, an edit and a new session are tasks of their own, so
errands are run in any order. A layout that is sent is delivered, in order on each session.

A daemon's own edits (a tile that is moved, resized, or takes a new key) are whatever valid layouts it
names itself the editor of; saving the layout and placing edges are left out. `kept` and `made` record
what was kept, and nothing reads them.
-/

namespace Zflow.Daemon.Layouts

open Lib Desktop

/-- The computers: their keys, and the keys of the computers each has paired. -/
structure Computers (D : Type) where
  key : D → Key
  /-- `peer_keys`, in the order of the peers' names. -/
  paired : D → List Key
  distinct : Function.Injective key

inductive Errand (D : Type) where
  /-- The rest of `keep_layout`: an offer to every session but the one the layout came from. -/
  | share (origin : Option D)
  /-- `offer_layout`. -/
  | offer (peer : D)
  /-- `keep_layout`; `origin` is the session the layout came from. -/
  | keep (layout : SharedLayout) (origin : Option D)
  /-- `place_new_peers`. -/
  | place

structure Keeper (D : Type) where
  layout : Option SharedLayout
  /-- The peers it has registered a session with. -/
  sessions : List D
  errands : List (Errand D)

structure Net (D : Type) where
  keepers : D → Keeper D
  /-- What was sent from one computer to another and not taken yet. -/
  channels : D → D → List SharedLayout
  /-- Every layout each computer ever kept. -/
  kept : D → List SharedLayout
  /-- The layouts each computer made itself, of those. -/
  made : D → List SharedLayout

/-- `PEER_TILE_SIZE`. -/
def peerTileSize : Nat × Nat := (1920, 1080)

/-- `place_new_peers` and the layout it would keep. -/
def Computers.place {D : Type} (computers : Computers D) (d : D) (current : Option SharedLayout) :
    Option SharedLayout := do
  (← current).withTilesFor (computers.key d) (computers.paired d) peerTileSize.1 peerTileSize.2

/-- Whether a layout that is kept gives way to another. -/
def replaces (layout : SharedLayout) (current : Option SharedLayout) : Bool :=
  current.all layout.isNewerThan

variable {D : Type} [DecidableEq D]

namespace Net

def setKeeper (d : D) (keeper : Keeper D) (n : Net D) : Net D :=
  { n with keepers := Function.update n.keepers d keeper }

def setChannel (d peer : D) (layouts : List SharedLayout) (n : Net D) : Net D :=
  { n with channels := Function.update n.channels d (Function.update (n.channels d) peer layouts) }

/-- Gives a daemon more to do. -/
def add (d : D) (errands : List (Errand D)) (n : Net D) : Net D :=
  n.setKeeper d { n.keepers d with errands := (n.keepers d).errands ++ errands }

/-- An errand that is taken up. -/
def take (d : D) (index : Nat) (n : Net D) : Net D :=
  n.setKeeper d { n.keepers d with errands := (n.keepers d).errands.eraseIdx index }

/-- `SessionHandle::send_layout`. -/
def send (d peer : D) (layout : SharedLayout) (n : Net D) : Net D :=
  if layout.validate.isOk then n.setChannel d peer (n.channels d peer ++ [layout]) else n

/-- A session with a peer is registered and offered the layout. -/
def register (d peer : D) (n : Net D) : Net D :=
  let keeper := n.keepers d
  n.setKeeper d
    { keeper with sessions := keeper.sessions ++ [peer], errands := keeper.errands ++ [.offer peer] }

def offer (d peer : D) (n : Net D) : Net D :=
  match (n.keepers d).layout with
  | some layout => n.send d peer layout
  | none => n

/-- A layout takes the place of the one that was kept. -/
def setLayout (d : D) (layout : SharedLayout) (own : Bool) (n : Net D) : Net D :=
  { n.setKeeper d { n.keepers d with layout := some layout } with
    kept := Function.update n.kept d (n.kept d ++ [layout])
    made := if own then Function.update n.made d (n.made d ++ [layout]) else n.made }

def share (d : D) (origin : Option D) (n : Net D) : Net D :=
  n.add d (((n.keepers d).sessions.filter fun peer => some peer ≠ origin).map .offer)

/-- Another task may have kept a newer layout first. A layout that came from a peer may lack a tile for
a computer paired here. -/
def keep (d : D) (layout : SharedLayout) (origin : Option D) (n : Net D) : Net D :=
  if replaces layout (n.keepers d).layout then
    (n.setLayout d layout origin.isNone).add d
      (.share origin :: if origin.isSome then [.place] else [])
  else n

def place (computers : Computers D) (d : D) (n : Net D) : Net D :=
  match computers.place d (n.keepers d).layout with
  | some placed => n.add d [.keep placed none]
  | none => n

/-- `merge_layout`, up to where it would keep the peer's layout. A peer with an older one gets this
computer's back. -/
def merge (d peer : D) (layout : SharedLayout) (n : Net D) : Net D :=
  if replaces layout (n.keepers d).layout then n.add d [.keep layout (some peer)]
  else if (n.keepers d).layout.any (·.isNewerThan layout) ∧ peer ∈ (n.keepers d).sessions then
    n.add d [.offer peer]
  else n

def run (computers : Computers D) (d : D) : Errand D → Net D → Net D
  | .share origin => share d origin
  | .offer peer => offer d peer
  | .keep layout origin => keep d layout origin
  | .place => place computers d

end Net

inductive Step (D : Type) where
  /-- A daemon registers a session with a peer. -/
  | connect (d peer : D)
  /-- A daemon has made a layout of its own. -/
  | edit (d : D) (layout : SharedLayout)
  /-- A daemon takes the next layout a peer sent. -/
  | receive (d peer : D)
  | run (d : D) (index : Nat)

/-- A step of the exchange itself. -/
def Step.exchanges : Step D → Bool
  | .receive .. | .run .. => true
  | .connect .. | .edit .. => false

def step (computers : Computers D) : System (Net D) (Step D) := fun label n =>
  match label with
  | .connect d peer =>
    if peer ∈ (n.keepers d).sessions then none else some (n.register d peer)
  | .edit d layout =>
    if layout.editor = computers.key d ∧ layout.validate.isOk then
      some (n.add d [.keep layout none])
    else none
  | .receive d peer =>
    match n.channels peer d with
    | [] => none
    | layout :: rest => some ((n.setChannel peer d rest).merge d peer layout)
  | .run d index =>
    match (n.keepers d).errands[index]? with
    | some errand => some ((n.take d index).run computers d errand)
    | none => none

/-- Daemons that have just started, with the layouts they kept last time. -/
def start (layouts : D → Option SharedLayout) : Net D where
  keepers d := ⟨layouts d, [], []⟩
  channels _ _ := []
  kept d := (layouts d).toList
  made _ := []

end Zflow.Daemon.Layouts
