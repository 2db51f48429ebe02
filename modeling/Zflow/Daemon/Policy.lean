import Zflow.Core.Keymap

/-!
# What the daemon lets a peer do

The pure part of `src/daemon.rs`: which of a session's effects reach the input runtime, which session
owns the input, and which of two dials is kept. A peer's name is a type of its own (`P`), the map
of the saved peers a function of it; a fingerprint is the number its hex string writes, all of one
length, so that the order of the strings is that of the numbers. The settings nothing here reads
(addresses, layout, chords) are left out.
-/

namespace Zflow.Linux

/-- Who has the grabbed devices (`linux/ownership.rs`). -/
inductive OwnershipPhase where
  | idle | arming | remote | releasing
  deriving DecidableEq

end Zflow.Linux

namespace Zflow.Daemon

open Zflow.Core Linux

abbrev SessionId := Nat
abbrev Fingerprint := Nat

/-- What the seat allows (`linux/seat.rs`). -/
inductive InjectionGate where
  | normal (uid : Nat)
  | preLogin
  | denied
  deriving DecidableEq

structure SeatGate where
  /-- What the last definite seat state allows. -/
  gate : InjectionGate
  /-- The latest answer is Unknown, so nothing is injected until it clears. -/
  held : Bool
  deriving DecidableEq

structure PeerPermissions where
  connect : Bool
  sendNormal : Bool
  receiveNormal : Bool
  injectPrelogin : Bool
  deriving DecidableEq

structure PeerConfig where
  fingerprint : Option Fingerprint
  permissions : PeerPermissions
  keyboard : KeyboardMode
  reverseScroll : Bool
  deriving DecidableEq

structure Config (P : Type) where
  sharing : Bool
  allowPreloginInput : Bool
  peers : P → Option PeerConfig

inductive Admission where
  | inject
  /-- Deliver releases and drop the rest without ending the session. -/
  | hold
  | refuse
  deriving DecidableEq

variable {P : Type}

def receiverAuthorized (config : Config P) (peer : P) (gate : InjectionGate) : Bool :=
  if !config.sharing then false
  else match config.peers peer with
    | none => false
    | some record =>
      if !record.permissions.connect || !record.permissions.sendNormal then false
      else match gate with
        | .normal _ => true
        | .preLogin => config.allowPreloginInput && record.permissions.injectPrelogin
        | .denied => false

/-- `admit`. -/
def admitPeer (config : Config P) (peer : P) (seat : SeatGate) : Admission :=
  if !receiverAuthorized config peer seat.gate then .refuse
  else if seat.held then .hold
  else .inject

/-- `require_outbound_permission`. -/
def outboundPermitted (config : Config P) (record : PeerConfig) : Bool :=
  config.sharing && record.permissions.connect && record.permissions.receiveNormal

/-- A release can only return keys, buttons and contacts to rest. -/
def isRelease : ReceiverEffect → Bool
  | .key _ pressed _ | .button _ pressed _ => !pressed
  | .touchReplaced state _ => state.isEmpty
  | .activationClosed .. => true
  | _ => false

/-- A synthetic touch replacement can carry the peer's contacts; only one without is a release. -/
def isSafetyRelease : ReceiverEffect → Bool
  | .touchReplaced state synthetic => synthetic && state.isEmpty
  | .key _ false true | .button _ false true | .activationClosed .. => true
  | _ => false

/-- Whether an admission lets an effect through. -/
def Admission.lets (admission : Admission) (effect : ReceiverEffect) : Bool :=
  !effect.isInjection || match admission with
    | .inject => true
    | .hold => isRelease effect
    | .refuse => isSafetyRelease effect

/-- `admitted_effects`: what reaches the backend, and whether any effect was refused outright. -/
def admittedEffects (effects : List ReceiverEffect) (admission : Admission) :
    List ReceiverEffect × Bool :=
  (effects.filter admission.lets,
    admission = .refuse ∧ effects.any fun effect => !admission.lets effect)

def opensActivation (effects : List ReceiverEffect) : Bool :=
  effects.any fun effect => match effect with | .activationOpened _ => true | _ => false

/-- Whether a batch leaves its activation closed. One batch can close an activation and open the
next, so the last of those effects decides. -/
def endsClosed (effects : List ReceiverEffect) : Bool :=
  (effects.reverse.findSome? fun effect => match effect with
    | .activationOpened _ => some false
    | .activationClosed .. => some true
    | _ => none).getD false

/-- Turns a peer's scrolling around. Pointer motion stays as it is. -/
def reverseScrolling (effects : List ReceiverEffect) : List ReceiverEffect :=
  effects.map fun effect => match effect with
    | .motion delta through =>
      .motion { delta with scrollX := -delta.scrollX, scrollY := -delta.scrollY } through
    | other => other

/-- `claim_inbound`: the owner after the claim, and whether it was granted. Grabbed or arming devices
mean that this computer is sending, and it is never controlled at the same time. -/
def claimInbound [DecidableEq P] (owner : Option (P × SessionId)) (peer : P) (session : SessionId)
    (authorized : Bool) (ownership : OwnershipPhase) : Option (P × SessionId) × Bool :=
  if !authorized || ownership ≠ .idle || owner.any fun current => current ≠ (peer, session) then
    (owner, false)
  else (some (peer, session), true)

/-- `CONNECT_TIMEOUT`. -/
def connectTimeout : Duration := .fromMillis 5000

/-- `keeps_own_dial`: a dial is simultaneous with the peer's while it is younger than an attempt to
connect. -/
def keepsOwnDial (dialedAt : Option MonotonicTimeMicros) (now : MonotonicTimeMicros) : Bool :=
  dialedAt.any fun at_ => now - at_ < connectTimeout.asMicros

/-- `wins_dial`: of two dials at once, the one of the smaller fingerprint is kept. -/
def winsDial (config : Config P) (localFingerprint : Fingerprint) (peer : P) : Bool :=
  ((config.peers peer).bind PeerConfig.fingerprint).any fun theirs => localFingerprint < theirs

end Zflow.Daemon
