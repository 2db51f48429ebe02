import Zflow.Linux.Ownership

/-!
# Taking the physical devices

The grabs of a `CaptureSet` (`src/linux/capture.rs`). A device of `evdev` is an interface, `CaptureDevice`: it
keeps its own state and answers what it likes, so that a node may fail at any call and the kernel may report other
keys each time it is asked. What the code relies on is `LawfulCaptureDevice`: the flag of a device follows
the answers it gave.

`grab_transaction` walks the nodes by their index and remembers the indices it took. Here the nodes that were
walked are kept in reverse with that mark (`grabFrom`), which is the order in which `roll_back` walks them.
-/

namespace Zflow.Linux

open Lib

/-- `io::Error`, by its `raw_os_error`. -/
structure IoError where
  rawOsError : Option Int

/-- `EBUSY`. -/
def ebusy : Int := 16

/-- `io::Error::from_raw_os_error(EBUSY)`. -/
def IoError.busy : IoError := ⟨some ebusy⟩

/-- A raw evdev device. -/
class CaptureDevice (D : Type) where
  getKeyState : Act IoError D (List KeyCode)
  grab : Act IoError D Unit
  ungrab : Act IoError D Unit
  isGrabbed : D → Bool

/-- Whether a device is grabbed follows what it answered. -/
class LawfulCaptureDevice (D : Type) [CaptureDevice D] : Prop where
  getKeyState : ∀ d : D, CaptureDevice.isGrabbed (CaptureDevice.getKeyState d).2 = CaptureDevice.isGrabbed d
  grabbed : ∀ d d' : D, CaptureDevice.grab d = (.ok (), d') → CaptureDevice.isGrabbed d' = true
  refused : ∀ (d d' : D) error, CaptureDevice.grab d = (.error error, d') →
    CaptureDevice.isGrabbed d' = CaptureDevice.isGrabbed d
  ungrabbed : ∀ d d' : D, CaptureDevice.ungrab d = (.ok (), d') → CaptureDevice.isGrabbed d' = false
  stuck : ∀ (d d' : D) error, CaptureDevice.ungrab d = (.error error, d') →
    CaptureDevice.isGrabbed d' = CaptureDevice.isGrabbed d

variable {D : Type} [CaptureDevice D]

/-- A node, but for the readers of its events. -/
structure CaptureNode (D : Type) where
  path : String
  device : D

structure UngrabFailure where
  path : String
  error : IoError

structure GrabError where
  path : String
  source : IoError
  rolledBack : Nat
  rollbackFailures : List UngrabFailure

/-- One ungrab, and how it failed. -/
def CaptureNode.ungrab (node : CaptureNode D) : Option UngrabFailure × CaptureNode D :=
  match CaptureDevice.ungrab node.device with
  | (.ok _, device) => (none, { node with device })
  | (.error error, device) => (some ⟨node.path, error⟩, { node with device })

/-! ## The transaction -/

/-- The nodes that were walked, the last first, each with whether it was grabbed. -/
abbrev Walked (D : Type) := List (CaptureNode D × Bool)

/-- `roll_back`: the failures, and the nodes in the order they were walked back. -/
def rollBack : Walked D → List UngrabFailure × List (CaptureNode D)
  | [] => ([], [])
  | (node, grabbed) :: older =>
    let (failure, node) := if grabbed then node.ungrab else (none, node)
    let (failures, nodes) := rollBack older
    (failure.toList ++ failures, node :: nodes)

/-- The rest of `grab_transaction`, after some nodes. -/
def grabFrom (skipBusy : Bool) (walked : Walked D) (skipped : List String) :
    List (CaptureNode D) → Except GrabError (List String) × List (CaptureNode D)
  | [] =>
    let nodes := (walked.map Prod.fst).reverse
    if walked.any Prod.snd then (.ok skipped, nodes)
    else match skipped.getLast? with
      | some path => (.error ⟨path, .busy, 0, []⟩, nodes)
      | none => (.ok skipped, nodes)
  | node :: rest =>
    match CaptureDevice.grab node.device with
    | (.ok _, device) => grabFrom skipBusy (({ node with device }, true) :: walked) skipped rest
    | (.error source, device) =>
      if skipBusy ∧ source.rawOsError = some ebusy then
        grabFrom skipBusy (({ node with device }, false) :: walked) (skipped ++ [node.path]) rest
      else
        let (failures, nodes) := rollBack walked
        (.error ⟨node.path, source, walked.countP Prod.snd, failures⟩,
          nodes.reverse ++ { node with device } :: rest)

/-- `grab_transaction`: every node or none. With `skipBusy`, a node that another program grabbed is left to
it, as long as one other is grabbed. -/
def grabTransaction (skipBusy : Bool) (nodes : List (CaptureNode D)) :
    Except GrabError (List String) × List (CaptureNode D) :=
  grabFrom skipBusy [] [] nodes

/-! ## The set -/

inductive CaptureSetError where
  | empty
  | notNeutral
  | grab (error : GrabError)
  | inspectState (path : String) (source : IoError)

structure CaptureSet (D : Type) where
  nodes : List (CaptureNode D)
  aggregate : AggregateInputState
  grabbed : Bool

namespace CaptureSet

/-- Fresh key states, node by node: the first that holds a key or fails ends the search. -/
def neutralFrom : List (CaptureNode D) → Except CaptureSetError Bool × List (CaptureNode D)
  | [] => (.ok true, [])
  | node :: rest =>
    match CaptureDevice.getKeyState node.device with
    | (.error source, device) => (.error (.inspectState node.path source), { node with device } :: rest)
    | (.ok held, device) =>
      if held.all isContact then
        let (answer, rest) := neutralFrom rest
        (answer, { node with device } :: rest)
      else (.ok false, { node with device } :: rest)

def kernelIsNeutral : Act CaptureSetError (CaptureSet D) Bool := fun set =>
  let (answer, nodes) := neutralFrom set.nodes
  (answer, { set with nodes })

/-- The ungrab of one node in `ungrab_all`: only of one this process grabbed. -/
def ungrabOne (node : CaptureNode D) : Option UngrabFailure × CaptureNode D :=
  if CaptureDevice.isGrabbed node.device then node.ungrab else (none, node)

/-- `ungrab_all`, from the last node to the first. -/
def ungrabAll (set : CaptureSet D) : List UngrabFailure × CaptureSet D :=
  let released := set.nodes.reverse.map ungrabOne
  let nodes := (released.map Prod.snd).reverse
  (released.filterMap Prod.fst,
    { set with nodes, grabbed := nodes.any fun node => CaptureDevice.isGrabbed node.device })

/-- The end of `grab_all`: an input that raced the grabs gives them all back. -/
def confirm (skipped : List String) : Act CaptureSetError (CaptureSet D) (List String) := fun set =>
  match kernelIsNeutral set with
  | (.ok true, set) => (.ok skipped, set)
  | (.ok false, set) => (.error .notNeutral, (ungrabAll set).2)
  | (.error error, set) => (.error error, (ungrabAll set).2)

/-- The transaction over the nodes of a set. -/
def grabNodes (skipBusy : Bool) : Act CaptureSetError (CaptureSet D) (List String) :=
  .on nodes (fun nodes set => { set with nodes }) .grab (grabTransaction skipBusy)

def grabAll (skipBusy : Bool) : Act CaptureSetError (CaptureSet D) (List String) := do
  let set ← Act.read
  if set.nodes.isEmpty then .fail .empty
  else if set.grabbed then return []
  else if !set.aggregate.nothingPressed || !set.aggregate.allAtBoundary then .fail .notNeutral
  else if !(← kernelIsNeutral) then .fail .notNeutral
  else
    let skipped ← grabNodes skipBusy
    Act.change fun set => { set with grabbed := true }
    confirm skipped

/-- Closes every descriptor. -/
def suspend (set : CaptureSet D) : List UngrabFailure × CaptureSet D :=
  (set.ungrabAll.1, ⟨[], .default, false⟩)

end CaptureSet

end Zflow.Linux
