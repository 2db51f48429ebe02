import Zflow.Lib.Exchange
import Zflow.Pairing.Neighbors
import Zflow.Session.Receive
import Zflow.Wire.Message

/-!
# Desktop requests of a session

`DesktopRelay` (`src/session/desktop.rs`) and the loop of `run_session` around it (`src/session.rs`). The relay
holds at most one request in each direction: ours waits for the peer, and the peer's waits to reach the local desktop
or to hear back from it. Every round of the loop first hands the peer's request over, where it may run by then, and then
takes whatever is there first: an answer of the local desktop, a command, a message of the peer, a datagram, a deadline.

`said` is what the relay has sent so far to the peer, to the local desktop and to those who wait for an answer. What is
outside answers each of these that can fail, and its answer may depend on all that was said before. `W` is who waits.
-/

namespace Zflow.Session

open Zflow.Core Desktop Lib Pairing Wire

/-- `REQUEST_TIMEOUT_MS`. -/
def requestTimeoutMs : Nat := 1000

/-- A layout that goes to the peer, or comes from it. -/
inductive PassedLayout where
  | sent (layout : SharedLayout)
  | received (layout : SharedLayout)

abbrev Said (W : Type) := Exchanged Nat DesktopRequest DesktopResponse W PassedLayout

/-- What the peer's transport or the daemon answered to the last thing said. -/
abbrev Hearing (W : Type) := List (Said W) → Except String Unit

/-- `incoming` is the peer's request and `reply` the one the local desktop answers, with the time at which they came. -/
structure DesktopRelay (W : Type) where
  waiter : Option (Nat × W)
  incoming : Option (Nat × DesktopRequest × Instant)
  reply : Option (Nat × Instant)
  said : List (Said W)

/-- What `next_reply` waits for: the answer, or the channel's end, or the deadline. -/
inductive Receipt where
  | answered (response : DesktopResponse)
  | stopped
  | timedOut

def isFinish : DesktopRequest → Bool
  | .finish _ => true
  | _ => false

namespace DesktopRelay

variable {W : Type}

def new : DesktopRelay W := ⟨none, none, none, []⟩

/-- Says what can fail to be heard. -/
def say (hearing : Hearing W) (event : Said W) : Act InboundError (DesktopRelay W) Unit := do
  .change fun relay => { relay with said := relay.said ++ [event] }
  let relay ← .read
  .lift .outside (hearing relay.said)

/-- Says what nobody has to hear: `let _ = reply.send(..)`. -/
def mention (event : Said W) : Act InboundError (DesktopRelay W) Unit :=
  .change fun relay => { relay with said := relay.said ++ [event] }

/-- Sends a local request to the peer. -/
def request (hearing : Hearing W) (id : Nat) (request : DesktopRequest) (reply : W) :
    Act InboundError (DesktopRelay W) Unit := do
  let relay ← .read
  if relay.waiter.isSome then mention (.refused reply (.unavailable "A desktop request is already pending"))
  else
    say hearing (.asked id reply request)
    .change fun relay => { relay with waiter := some (id, reply) }

def receive (hearing : Hearing W) (message : DesktopMessage) (now : Instant) :
    Act InboundError (DesktopRelay W) Unit := do
  let relay ← .read
  match message with
  | .request id request =>
    if relay.incoming.isSome || relay.reply.isSome then .fail (.bail "Overlapping desktop requests")
    else
      mention (.accepted id request)
      .change fun relay => { relay with incoming := some (id, request, now) }
  | .response id response =>
    match relay.waiter with
    | none => .fail (.bail "Unexpected desktop response")
    | some (expected, reply) =>
      -- the waiter is taken out before the ids are compared
      .change fun relay => { relay with waiter := none }
      if id ≠ expected then .fail (.bail "Desktop response ID does not match request")
      else mention (.delivered id reply response)
  | .layout layout => say hearing (.passed (.received layout))

/-- Hands the peer's request to the local desktop once it may run. A Finish also waits until no activation is open. -/
def dispatch (hearing : Hearing W) (controlsPending activationOpen : Bool) (now : Instant) :
    Act InboundError (DesktopRelay W) Unit := do
  let relay ← .read
  match relay.incoming with
  | none => return ()
  | some (id, request, started) =>
    if requestTimeoutMs * 1000000 ≤ now - started then .fail (.bail "Desktop operation ordering timed out")
    else if (!controlsPending && (!isFinish request || !activationOpen)) && relay.reply.isNone then
      .change fun relay => { relay with incoming := none }
      say hearing (.handedOver id request)
      .change fun relay => { relay with reply := some (id, started) }
    else return ()

/-- Waits for the local desktop's answer to the peer's request; without one it waits for ever. -/
def nextReply (relay : DesktopRelay W) (receipt : Receipt) : Option (Except InboundError (Nat × DesktopResponse)) :=
  relay.reply.map fun (id, _) => match receipt with
    | .answered response => .ok (id, response)
    | .stopped => .error (.bail "Desktop receiver stopped")
    | .timedOut => .error (.bail "Desktop receiver timed out")

def sendReply (hearing : Hearing W) (id : Nat) (response : DesktopResponse) :
    Act InboundError (DesktopRelay W) Unit := do
  .change fun relay => { relay with reply := none }
  say hearing (.replied id response)

end DesktopRelay

/-! ## The loop -/

namespace Inbound

variable {F C : Type}

def hasPendingControls (i : Inbound F C) : Bool := !i.pending.isEmpty

def activeContext (i : Inbound F C) : Option SessionContext := i.receiver.activeContext

end Inbound

structure SessionLoop (F C W : Type) where
  desktop : DesktopRelay W
  inbound : Inbound F C

/-- What a round of the loop takes. `other` is what touches neither half: a command or an acknowledgement of the outbound
activation, a message that is refused before it gets here, a rate limit. -/
inductive Taken (W : Type) where
  | reply (receipt : Receipt)
  | request (id : Nat) (request : DesktopRequest) (reply : W)
  | layout (layout : SharedLayout)
  | desktop (message : DesktopMessage) (now : Instant)
  | control (message : ReliableControlMessage) (now : MonotonicTimeMicros)
  | motion (frame : MotionFrame) (now : MonotonicTimeMicros)
  | probe (probe : ProbeMessage) (sender : Option Sender) (now : MonotonicTimeMicros)
  | deadline (clockNow now : MonotonicTimeMicros)
  | other (result : Except String Unit)

/-- A round: when `dispatch` looks, when the activation is tracked, and what is taken then. -/
structure Round (W : Type) where
  dispatchedAt : Instant
  trackedAt : MonotonicTimeMicros
  taken : Taken W

namespace SessionLoop

variable {F : Type} [F64 F] {C : Type} [ClockMapper C] {W : Type}

def onDesktop (x : Act InboundError (DesktopRelay W) Unit) : Act InboundError (SessionLoop F C W) Unit :=
  .on (fun s : SessionLoop F C W => s.desktop) (fun relay s => { s with desktop := relay }) id x

def onInbound (x : Act InboundError (Inbound F C) Unit) : Act InboundError (SessionLoop F C W) Unit :=
  .on (fun s : SessionLoop F C W => s.inbound) (fun i s => { s with inbound := i }) id x

/-- The start of a round. -/
def dispatch (hearing : Hearing W) (now : Instant) : Act InboundError (SessionLoop F C W) Unit := do
  let s ← .read
  onDesktop (DesktopRelay.dispatch hearing s.inbound.hasPendingControls s.inbound.activeContext.isSome now)

/-- An answer of the local desktop, where there is one to wait for. -/
def takeReply (hearing : Hearing W) (receipt : Receipt) : Act InboundError (SessionLoop F C W) Unit := do
  let s ← .read
  match s.desktop.nextReply receipt with
  | none => return ()
  | some response =>
    let (id, response) ← .lift id response
    onDesktop (DesktopRelay.sendReply hearing id response)

/-- The branch of `tokio::select!`. -/
def take (env : Environment) (hearing : Hearing W) : Taken W → Act InboundError (SessionLoop F C W) Unit
  | .reply receipt => takeReply hearing receipt
  | .request id request reply => onDesktop (DesktopRelay.request hearing id request reply)
  | .layout layout => onDesktop (DesktopRelay.say hearing (.passed (.sent layout)))
  | .desktop message now => onDesktop (DesktopRelay.receive hearing message now)
  | .control message now => onInbound (Inbound.receiveControl env message now)
  | .motion frame now => onInbound (Inbound.receiveMotion frame now)
  | .probe probe sender now => onInbound (Inbound.receiveProbe env probe sender now)
  | .deadline clockNow now => onInbound (Inbound.tick env clockNow now)
  | .other result => .lift .outside result

def round (env : Environment) (hearing : Hearing W) (r : Round W) : Act InboundError (SessionLoop F C W) Unit := do
  dispatch hearing r.dispatchedAt
  onInbound (.change (Inbound.trackActivation r.trackedAt))
  take env hearing r.taken

/-- The loop of `run_session`, up to the first error. -/
def run (env : Environment) (hearing : Hearing W) : List (Round W) → Act InboundError (SessionLoop F C W) Unit
  | [] => return ()
  | r :: rest => do
    round env hearing r
    run env hearing rest

end SessionLoop

end Zflow.Session
