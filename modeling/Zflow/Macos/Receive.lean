import Zflow.Macos.Inject
import Zflow.Macos.Ownership

/-!
# Sessions that control this Mac

One `Inbound` for each session takes its peer's batches (`src/macos/receive.rs`). `step` is one event of
an interleaving: a session's batch up to where it waits for the injector, the injector's next command,
a session that goes on with the answer, an `Inbound` that is dropped, and the calls and drops of
crossings and handoffs beside them.

A session's events are taken one at a time, so a session that waits takes no batch; its link may be
dropped anywhere. Ids of sessions are drawn at random from 64 bits and are taken as distinct. Waking the
display, AWDL and the clipboard that goes along are left out. `history` records what was queued and
which claims went with an activation close, `done` what the injector has taken; nothing reads them.
-/

namespace Zflow.Macos

open Zflow.Core Lib
open Daemon (SessionId isSafetyRelease opensActivation endsClosed reverseScrolling)

/-- `NOT_ALLOWED`. -/
def notAllowed : String :=
  "Desktop control requires the active unlocked local session and an authorized paired peer"

/-- `REJECTED`. -/
def rejected : String := "receiver effects were rejected before backend application"

/-- Whether a peer's input reaches this Mac. -/
inductive Admission where
  | inject | refuse
  deriving DecidableEq

/-- Whether an admission lets an effect through. -/
def Admission.lets (admission : Admission) (effect : ReceiverEffect) : Bool :=
  !effect.isInjection || admission = .inject || isSafetyRelease effect

/-- `admitted_effects`. A refused peer's safety releases still get through, so nothing stays held. -/
def admittedEffects (effects : List ReceiverEffect) (admission : Admission) :
    List ReceiverEffect × Bool :=
  (effects.filter admission.lets, effects.any fun effect => !admission.lets effect)

/-- What `admission` answers for a peer: its admission, how its keys act, and whether its scrolling
turns around. -/
structure Admitted where
  admission : Admission
  keyboard : KeyboardMode
  reverse : Bool

/-- The effects as the peer's record has them. -/
def Admitted.turn (admitted : Admitted) (effects : List ReceiverEffect) : List ReceiverEffect :=
  if admitted.reverse then reverseScrolling effects else effects

/-- A batch the injector has not answered. -/
structure Waiting where
  refused : Bool
  closes : Bool
  answer : Option (Except String Unit)

/-- One session's input from its peer. -/
structure Inbound (P : Type) where
  peer : P
  claim : Option Nat
  waiting : Option Waiting
  dropped : Bool

/-- A command on its way to the injector, with the session that held the claim when it was queued. -/
structure Sent (P : Type) where
  peer : P
  session : SessionId
  claimant : Option (P × SessionId)
  command : InjectCommand

inductive Happened (P : Type) where
  | sent (entry : Sent P)
  /-- The session's claim went with an activation close that was applied. -/
  | closed (peer : P) (session : SessionId)

structure Mac (P I : Type) where
  guarded : Guarded P
  inbounds : SessionId → Option (Inbound P)
  queue : List (Sent P)
  core : InjectorCore I
  history : List (Happened P)
  done : List (Sent P × MonotonicTimeMicros)

variable {P I : Type}

namespace Mac

def setInbound (session : SessionId) (inbound : Inbound P) (m : Mac P I) : Mac P I :=
  { m with inbounds := Function.update m.inbounds session (some inbound) }

/-- `Injector::send`. -/
def send (peer : P) (session : SessionId) (command : InjectCommand) (m : Mac P I) : Mac P I :=
  let entry := ⟨peer, session, m.guarded.ownership.claimant, command⟩
  { m with queue := m.queue ++ [entry], history := m.history ++ [.sent entry] }

def drop (guard : Guard) (m : Mac P I) : Mac P I := { m with guarded := m.guarded.drop guard }

/-- `Inbound::release`: the release is sent before the claim goes. -/
def release (session : SessionId) (inbound : Inbound P) (m : Mac P I) : Mac P I :=
  match inbound.claim with
  | some claim =>
    ((m.send inbound.peer session .releaseAll).drop (.claim claim)).setInbound session
      { inbound with claim := none }
  | none => m.setInbound session inbound

/-- The claim goes with an activation close, which already let go of everything. -/
def yield (session : SessionId) (inbound : Inbound P) (m : Mac P I) : Mac P I :=
  match inbound.claim with
  | some claim =>
    { m.drop (.claim claim) with history := m.history ++ [Happened.closed inbound.peer session] }.setInbound
      session { inbound with claim := none }
  | none => m.setInbound session inbound

/-- The end of `Inbound::effects`, and what it answers. -/
def finish (session : SessionId) (inbound : Inbound P) (refused closes : Bool)
    (applied : Except String Unit) (m : Mac P I) : Except String Unit × Mac P I :=
  (if refused then .error rejected else applied,
    if refused || !applied.isOk then m.release session inbound
    else if closes then m.yield session inbound
    else m.setInbound session inbound)

/-- Hands over what is admitted of a batch; no answer yet where the injector gets something. -/
def deliver (session : SessionId) (inbound : Inbound P) (effects : List ReceiverEffect)
    (admitted : Admitted) (m : Mac P I) : Option (Except String Unit) × Mac P I :=
  let (deliver, refused) := admittedEffects effects admitted.admission
  let deliver := admitted.turn deliver
  let closes := endsClosed effects
  if deliver.isEmpty then
    let (answer, m) := m.finish session inbound refused closes (.ok ())
    (some answer, m)
  else
    let keyboard := if opensActivation effects then some admitted.keyboard else none
    (none, (m.send inbound.peer session (.apply deliver keyboard)).setInbound session
      { inbound with waiting := some ⟨refused, closes, none⟩ })

variable [DecidableEq P]

/-- Claims this Mac for a batch that opens an activation. `again` is the admission once the claim is
there for a revocation to see. -/
def claim (session : SessionId) (inbound : Inbound P) (again : Admission) (m : Mac P I) :
    Except String (Inbound P) × Mac P I :=
  match m.guarded.ownership.claimInbound inbound.peer session with
  | .error reason => (.error reason, m.release session inbound)
  | .ok (claim, _) =>
    let m := { m with guarded := m.guarded.claimInbound inbound.peer session }
    -- the older claim of this session is dropped as the newer one takes its place
    let m := match inbound.claim with
      | some older => m.drop (.claim older)
      | none => m
    let inbound := { inbound with claim := some claim }
    if again = .refuse then (.error notAllowed, m.release session inbound)
    else (.ok inbound, m)

/-- `Inbound::effects`, up to where it waits for the injector: its answer, if it has one by then. -/
def effects (session : SessionId) (inbound : Inbound P) (effects : List ReceiverEffect)
    (admitted : Admitted) (again : Admission) (m : Mac P I) :
    Option (Except String Unit) × Mac P I :=
  if opensActivation effects then
    if admitted.admission = .refuse then (some (.error notAllowed), m.release session inbound)
    else match m.claim session inbound again with
      | (.error reason, m) => (some (.error reason), m)
      | (.ok inbound, m) => m.deliver session inbound effects admitted
  else
    -- only an activation this session claimed reaches the Mac
    m.deliver session inbound effects
      { admitted with admission := if inbound.claim.isNone then .refuse else admitted.admission }

/-- The injector answers the session whose batch it applied, if that still waits. -/
def answer (entry : Sent P) (result : Except String Unit) (m : Mac P I) : Mac P I :=
  match entry.command with
  | .releaseAll => m
  | .apply .. =>
    match m.inbounds entry.session with
    | some inbound =>
      m.setInbound entry.session
        { inbound with waiting := inbound.waiting.map fun w => { w with answer := some result } }
    | none => m

/-- The injector takes its next command. -/
def inject [MacInput I] (now : MonotonicTimeMicros) (m : Mac P I) : Option (Mac P I) :=
  match m.queue with
  | [] => none
  | entry :: rest =>
    let (result, core) := m.core.run entry.command now
    some ({ m with queue := rest, core, done := m.done ++ [(entry, now)] }.answer entry result)

end Mac

inductive Step (P : Type) where
  | beginOutbound
  | beginLease (peer : P) (session : SessionId)
  /-- A crossing or a handoff ends. -/
  | drop (guard : Guard)
  /-- `Receiving::inbound`. -/
  | inbound (peer : P) (session : SessionId)
  | effects (session : SessionId) (effects : List ReceiverEffect) (admitted : Admitted)
    (again : Admission)
  | inject (now : MonotonicTimeMicros)
  | resume (session : SessionId)
  /-- `Inbound::drop`, at any await. -/
  | dropInbound (session : SessionId)

namespace Mac

variable [DecidableEq P] [MacInput I]

def step : System (Mac P I) (Step P) := fun label m =>
  match label with
  | .beginOutbound => some { m with guarded := m.guarded.beginOutbound }
  | .beginLease peer session => some { m with guarded := m.guarded.beginLease peer session }
  | .drop guard =>
    match guard with
    | .claim _ => none
    | guard => if guard ∈ m.guarded.guards then some (m.drop guard) else none
  | .inbound peer session =>
    if (m.inbounds session).isNone then
      some (m.setInbound session ⟨peer, none, none, false⟩)
    else none
  | .effects session effects admitted again => do
    let inbound ← m.inbounds session
    if !inbound.dropped && inbound.waiting.isNone then
      some (m.effects session inbound effects admitted again).2
    else none
  | .inject now => m.inject now
  | .resume session => do
    let inbound ← m.inbounds session
    let waiting ← inbound.waiting
    let answer ← waiting.answer
    if !inbound.dropped then
      some (m.finish session { inbound with waiting := none } waiting.refused waiting.closes answer).2
    else none
  | .dropInbound session => do
    let inbound ← m.inbounds session
    if !inbound.dropped then some (m.release session { inbound with dropped := true }) else none

/-- A Mac that no session controls. -/
def start (core : InjectorCore I) : Mac P I := ⟨.default, fun _ => none, [], core, [], []⟩

end Mac

end Zflow.Macos
