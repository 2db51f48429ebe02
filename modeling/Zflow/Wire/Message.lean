import Zflow.Core.Negotiation
import Zflow.Desktop.Layout
import Zflow.Lens.Tiles
import Zflow.Pairing.Hello

/-!
# What travels between two computers

`src/wire/mod.rs`, `src/wire/bounds.rs` and the messages of `src/lens/wire.rs`: two magic bytes, a family byte,
then the payload. A message is its family and the value that family carries. The serializers of the payloads,
postcard and JSON, are a parameter.
-/

namespace Zflow.Wire

open Lib Zflow.Core

/-! ## Messages -/

/-- `MAX_TEXT_BYTES`: selections longer than a clip are not copied. -/
def maxTextBytes : Nat := 3 * 1024 * 1024

def maxReasonBytes : Nat := 256

def maxRadius : Nat := 2048

/-- What both sides of a lens say. -/
inductive LensMessage where
  | move (x y radius : UInt16) (id : UInt64)
  | ack (serial : UInt64)
  | button (button : UInt8) (pressed : Bool)
  | key (usage : HidUsage) (pressed : Bool)
  | scroll (dx dy : Int32)
  | copy
  | ready (width height : UInt16)
  /-- A tile packet follows. -/
  | frame (serial request : UInt64) (exact : Bool)
  | copied (text : String)
  | refused (reason : String)

/-- Limits checked before encoding and after decoding. -/
def LensMessage.validate : LensMessage → Except String Unit
  | .move _ _ radius _ => refuseIf (!(1 ≤ radius.toNat && radius.toNat ≤ maxRadius)) "lens radius out of range"
  | .button number _ => refuseIf (!(1 ≤ number.toNat && number.toNat ≤ 5)) "unknown button"
  | .ready width height =>
    refuseIf (!(Lens.Decoder.new width.toNat height.toNat).isOk) "unsupported desktop size"
  | .copied text => refuseIf (!(text.utf8ByteSize ≤ maxTextBytes)) "copied text too long"
  | .refused reason => refuseIf (!(reason.utf8ByteSize ≤ maxReasonBytes)) "reason too long"
  | _ => .ok ()

inductive DesktopMessage where
  | request (id : Nat) (request : Desktop.DesktopRequest)
  | response (id : Nat) (response : Desktop.DesktopResponse)
  | layout (layout : Desktop.SharedLayout)

def DesktopMessage.validate : DesktopMessage → Except String Unit
  | .layout shared => shared.validate
  | .request id asked => do
    refuseIf (id == 0) "Invalid desktop request ID"
    asked.validate
  | .response id answer => do
    refuseIf (id == 0) "Invalid desktop response ID"
    answer.validate

/-- A hello as it travels: what is read of it, and the rest. -/
structure Hello extends Pairing.Hello where
  trustsYou : Bool
  vouches : List (List UInt8)

inductive Family where
  | negotiationOffer | negotiatedSession | reliableControl | motion | probe | desktop | hello | lens
  deriving DecidableEq

namespace Family

/-- The value that a family carries. -/
abbrev Payload : Family → Type
  | negotiationOffer => NegotiationOffer
  | negotiatedSession => NegotiatedSession
  | reliableControl => ReliableControlMessage
  | motion => MotionFrame
  | probe => ProbeMessage
  | desktop => DesktopMessage
  | hello => Hello
  | lens => LensMessage

/-- `family as u8`. -/
def code : Family → UInt8
  | negotiationOffer => 1
  | negotiatedSession => 2
  | reliableControl => 3
  | motion => 4
  | probe => 5
  | desktop => 7
  | hello => 8
  | lens => 9

def maximumPayloadBytes : Family → Nat
  | negotiationOffer | negotiatedSession => 4 * 1024
  | reliableControl => 32 * 1024
  | motion => 8 * 1024
  | probe => 128
  | desktop => 32768
  | hello => 1024
  | lens => maxTextBytes + 64

end Family

structure WireMessage where
  family : Family
  payload : family.Payload

inductive WireError where
  | tooShort
  | badMagic
  | unknownFamily (code : UInt8)
  | familyMismatch (expected actual : Family)
  | sizeLimit (what : String) (actual maximum : Nat)
  | codec (error : String)
  | trailingPayload
  | invalid (error : String)
  deriving DecidableEq

def Family.tryFrom (code : UInt8) : Except WireError Family :=
  match code with
  | 1 => .ok negotiationOffer
  | 2 => .ok negotiatedSession
  | 3 => .ok reliableControl
  | 4 => .ok motion
  | 5 => .ok probe
  | 7 => .ok desktop
  | 8 => .ok hello
  | 9 => .ok lens
  | other => .error (.unknownFamily other)

/-! ## Limits a peer's message must respect -/

def limit (what : String) (actual maximum : Nat) : Except WireError Unit :=
  if maximum < actual then .error (.sizeLimit what actual maximum) else .ok ()

/-- `MAX_CONTACTS`. -/
def maxContacts : Nat := 32

def touch (state : TouchState) : Except WireError Unit := limit "touch contacts" state.size maxContacts

/-- Runs before encoding and after decoding. -/
def validate : WireMessage → Except WireError Unit
  | ⟨.negotiationOffer, offer⟩ => limit "maximum contacts" offer.maximumContacts maxContacts
  | ⟨.negotiatedSession, session⟩ => limit "contact limit" session.contactLimit maxContacts
  | ⟨.reliableControl, message⟩ => do
    message.payload.motionAnchor.elim (.ok ()) fun anchor => do
      refuseIf (anchor.activationId ≠ message.session.activationId)
        (.invalid "motion anchor activation differs from the session")
      touch anchor.finalTouchState
    match message.payload with
    | .touchBegin initialState => touch initialState
    | .stateSnapshot snapshot => do
      limit "pressed keys" snapshot.held.pressedKeys.size 32
      limit "pressed buttons" snapshot.held.pressedButtons.size 16
      touch snapshot.held.activeTouch
    | _ => .ok ()
  | ⟨.motion, frame⟩ => frame.touchSnapshot.elim (.ok ()) touch
  | ⟨.probe, _⟩ => .ok ()
  | ⟨.lens, message⟩ => message.validate.mapError .invalid
  | ⟨.hello, hello⟩ => do
    limit "name bytes" hello.name.utf8ByteSize Pairing.maxNameBytes
    limit "version bytes" hello.version.utf8ByteSize 32
    limit "hello candidates" hello.candidates.length 16
    refuseIf (hello.inputPort == 0) (.invalid "input port must be non-zero")
  | ⟨.desktop, message⟩ => message.validate.mapError .invalid

/-! ## Frames -/

/-- What the code relies on: `postcard` for the core types, `serde_json` for desktop metadata. -/
structure Serializers where
  toExtend : (family : Family) → family.Payload → Except String (List UInt8)
  /-- The value, and what is left of the bytes. -/
  takeFromBytes : (family : Family) → List UInt8 → Except String (family.Payload × List UInt8)
  toWriter : DesktopMessage → Except String (List UInt8)
  fromSlice : List UInt8 → Except String DesktopMessage

/-- `MAGIC`: `ZF`. -/
def wireMagic : List UInt8 := [0x5a, 0x46]

def checkPayloadSize (family : Family) (actual : Nat) : Except WireError Unit :=
  limit "payload bytes" actual family.maximumPayloadBytes

/-- A family that is not the one asked for is refused. -/
def checkFamily (expected : Option Family) (family : Family) : Except WireError Unit :=
  match expected with
  | none => .ok ()
  | some expected => refuseIf (family ≠ expected) (.familyMismatch expected family)

namespace Serializers

/-- The bytes of a payload. -/
def encodePayload (s : Serializers) : WireMessage → Except WireError (List UInt8)
  | ⟨.desktop, message⟩ => (s.toWriter message).mapError .invalid
  | ⟨family, payload⟩ => (s.toExtend family payload).mapError .codec

/-- `codec::decode`. -/
def decodePostcard (s : Serializers) (family : Family) (payload : List UInt8) : Except WireError family.Payload := do
  let (value, remainder) ← (s.takeFromBytes family payload).mapError .codec
  refuseIf (!remainder.isEmpty) .trailingPayload
  return value

/-- The value that a payload's bytes are. -/
def decodePayload (s : Serializers) (payload : List UInt8) : (family : Family) → Except WireError family.Payload
  | .desktop => (s.fromSlice payload).mapError .invalid
  | family => s.decodePostcard family payload

def frame (s : Serializers) (message : WireMessage) : Except WireError (List UInt8) := do
  let payload ← s.encodePayload message
  checkPayloadSize message.family payload.length
  return wireMagic ++ message.family.code :: payload

def encode (s : Serializers) (message : WireMessage) : Except WireError (List UInt8) := do
  validate message
  s.frame message

def decodeInner (s : Serializers) (bytes : List UInt8) (expected : Option Family) : Except WireError WireMessage :=
  match bytes with
  | first :: second :: code :: payload => do
    refuseIf ([first, second] ≠ wireMagic) .badMagic
    let family ← Family.tryFrom code
    checkFamily expected family
    checkPayloadSize family payload.length
    let value ← s.decodePayload payload family
    validate ⟨family, value⟩
    return ⟨family, value⟩
  | _ => .error .tooShort

def decode (s : Serializers) (bytes : List UInt8) : Except WireError WireMessage := s.decodeInner bytes none

/-- Decodes only one family. -/
def decodeFamily (s : Serializers) (bytes : List UInt8) (expected : Family) : Except WireError WireMessage :=
  s.decodeInner bytes (some expected)

end Serializers

end Zflow.Wire
