import Zflow.Lib.Arrivals
import Zflow.Wire.Message

/-!
# Messages on a stream

`write` and `read` of `src/lens/wire.rs`, and `send_wire` and `ControlReceiver` of `src/transport/connection.rs`.
Both put each message behind a four byte length. The lens reads a message in one go; the control receiver keeps
what it has of one, so that a receive can be given up between two reads and another goes on where it was.
-/

namespace Zflow.Wire

open Lib

/-! ## The lens stream -/

/-- `MAX_BODY_BYTES`: a whole desktop of exact tiles plus their record headers. -/
def maxBodyBytes : Nat := 4096 * 2160 * 4 + 64 * 1024

/-- `MAX_MESSAGE_BYTES`. -/
def maxMessageBytes : Nat := Family.lens.maximumPayloadBytes + 3

inductive StreamError where
  /-- A tile packet goes with a frame and nothing else. -/
  | bodyMismatch
  | tooLong (length maximum : Nat)
  | wire (error : WireError)
  | io (failure : ReadFailure)

/-- A message, and the tile packet that goes with a frame. -/
abbrev LensPacket : Type := LensMessage × Option (List UInt8)

def LensMessage.isFrame : LensMessage → Bool
  | .frame _ _ _ => true
  | _ => false

/-- Bytes behind their length, in four bytes. -/
def prefixed (bytes : List UInt8) : List UInt8 := beBytes 4 bytes.length ++ bytes

/-- What `write` hands to the stream. -/
def write (s : Serializers) (packet : LensPacket) : Except StreamError (List UInt8) := do
  let (message, body) := packet
  refuseIf (message.isFrame != body.isSome) .bodyMismatch
  let bytes ← (s.encode ⟨.lens, message⟩).mapError .wire
  match body with
  | none => return prefixed bytes
  | some body => do
    refuseIf (maxBodyBytes < body.length) (.tooLong body.length maxBodyBytes)
    return prefixed bytes ++ prefixed body

/-- `read_exact` of `wire.rs`: so many bytes, unless that is too many. -/
def readBounded (length maximum : Nat) (source : Arrivals) : Except StreamError (List UInt8 × Arrivals) :=
  if maximum < length then .error (.tooLong length maximum)
  else (source.readExact length).mapError .io

/-- Reads one message, and its tile packet if it is a frame. -/
def read (s : Serializers) (source : Arrivals) : Except StreamError (Option (LensPacket × Arrivals)) :=
  match source.readExact 4 with
  | .error .unexpectedEof => .ok none
  | .error failure => .error (.io failure)
  | .ok (length, source) => do
    let (bytes, source) ← readBounded (fromBe length) maxMessageBytes source
    let decoded ← (s.decodeFamily bytes .lens).mapError .wire
    match decoded with
    | ⟨.lens, message⟩ =>
      if message.isFrame then do
        let (length, source) ← (source.readExact 4).mapError .io
        let (body, source) ← readBounded (fromBe length) maxBodyBytes source
        return some ((message, some body), source)
      else return some ((message, none), source)
    -- `decode_family` returns the family it was asked for
    | _ => .error (.wire .tooShort)

/-- The messages that reading again and again gives, and the error it ends with, if it does not end with
`None`. -/
inductive ReadsAll (s : Serializers) : Arrivals → List LensPacket → Option StreamError → Prop
  | closed {source : Arrivals} : read s source = .ok none → ReadsAll s source [] none
  | failed {source : Arrivals} {error : StreamError} : read s source = .error error → ReadsAll s source [] (some error)
  | next {source left : Arrivals} {packet : LensPacket} {rest : List LensPacket} {ending : Option StreamError} :
    read s source = .ok (some (packet, left)) → ReadsAll s left rest ending →
      ReadsAll s source (packet :: rest) ending

/-! ## The control stream -/

/-- `MAX_CONTROL_FRAME_BYTES`. -/
def maxControlFrameBytes : Nat := Family.reliableControl.maximumPayloadBytes + 64

inductive InputControlMessage where
  | negotiationOffer (offer : Core.NegotiationOffer)
  | negotiatedSession (session : Core.NegotiatedSession)
  | reliable (message : Core.ReliableControlMessage)
  | desktop (message : DesktopMessage)

namespace InputControlMessage

def toWire : InputControlMessage → WireMessage
  | negotiationOffer offer => ⟨.negotiationOffer, offer⟩
  | negotiatedSession session => ⟨.negotiatedSession, session⟩
  | reliable message => ⟨.reliableControl, message⟩
  | desktop message => ⟨.desktop, message⟩

def ofWire : WireMessage → Option InputControlMessage
  | ⟨.negotiationOffer, offer⟩ => some (negotiationOffer offer)
  | ⟨.negotiatedSession, session⟩ => some (negotiatedSession session)
  | ⟨.reliableControl, message⟩ => some (reliable message)
  | ⟨.desktop, message⟩ => some (desktop message)
  | _ => none

end InputControlMessage

inductive TransportError where
  | wire (error : WireError)
  | controlFrameTooLarge (actual maximum : Nat)
  | criticalStreamClosed
  | finishedEarly (filled : Nat)
  | readError
  | invalidControlFamily
  deriving DecidableEq

/-- What `send_wire` hands to the stream. -/
def sendWire (s : Serializers) (message : WireMessage) : Except TransportError (List UInt8) := do
  let payload ← (s.encode message).mapError .wire
  refuseIf (maxControlFrameBytes < payload.length) (.controlFrameTooLarge payload.length maxControlFrameBytes)
  return prefixed payload

/-- What a receiver has of a frame: its buffer, as far as it is filled. -/
inductive ControlReceiveState where
  | length (filled : List UInt8)
  /-- The buffer is allocated. -/
  | frame (length : Nat) (filled : List UInt8)

/-- What the loop of `receive` does next. -/
inductive Turn where
  /-- It awaits a read of at most so many bytes. -/
  | read (room : Nat)
  | allocate (length : Nat)
  | refuse (length : Nat)
  | frame (bytes : List UInt8)

namespace ControlReceiveState

def turn : ControlReceiveState → Turn
  | length filled =>
    if filled.length < 4 then .read (4 - filled.length)
    else
      let size := fromBe filled
      if size = 0 ∨ maxControlFrameBytes < size then .refuse size else .allocate size
  | frame size filled => if filled.length < size then .read (size - filled.length) else .frame filled

def fill (bytes : List UInt8) : ControlReceiveState → ControlReceiveState
  | length filled => length (filled ++ bytes)
  | frame size filled => frame size (filled ++ bytes)

/-- What the end of the stream is answered with. -/
def ended : ControlReceiveState → TransportError
  | length [] => .criticalStreamClosed
  | length filled | frame _ filled => .finishedEarly filled.length

end ControlReceiveState

/-- What a complete frame is answered with. -/
def receiveFrame (s : Serializers) (bytes : List UInt8) : Except TransportError InputControlMessage := do
  let decoded ← (s.decode bytes).mapError .wire
  match InputControlMessage.ofWire decoded with
  | some message => .ok message
  | none => .error .invalidControlFamily

/-- A control receiver, whether a receive is under way, the bytes that the stream has yet to bring, and what the
receives returned. -/
structure ControlReceiver where
  state : ControlReceiveState
  receiving : Bool
  coming : List UInt8
  answers : List (Except TransportError InputControlMessage)

inductive ControlEvent where
  /-- A receive is called. -/
  | receive
  /-- The loop goes round, up to where it awaits a read. -/
  | turn
  /-- The read that is awaited brings so many bytes. -/
  | read (count : Nat)
  | ended
  | failed
  /-- The receive is given up. -/
  | cancel

namespace ControlReceiver

def start (bytes : List UInt8) : ControlReceiver := ⟨.length [], false, bytes, []⟩

/-- A receive returns. -/
def answer (r : ControlReceiver) (state : ControlReceiveState) (answer : Except TransportError InputControlMessage) :
    ControlReceiver := { r with state, receiving := false, answers := r.answers ++ [answer] }

/-- What an event does to a receive that is under way. -/
def advance (s : Serializers) (event : ControlEvent) (r : ControlReceiver) : Option ControlReceiver :=
  match event, r.state.turn with
  | .cancel, _ => some { r with receiving := false }
  | .turn, .allocate length => some { r with state := .frame length [] }
  | .turn, .refuse length => some (r.answer r.state (.error (.controlFrameTooLarge length maxControlFrameBytes)))
  | .turn, .frame bytes => some (r.answer (.length []) (receiveFrame s bytes))
  | .read count, .read room =>
    if 1 ≤ count ∧ count ≤ room ∧ count ≤ r.coming.length then
      some { r with state := r.state.fill (r.coming.take count), coming := r.coming.drop count }
    else none
  | .ended, .read _ => if r.coming = [] then some (r.answer r.state (.error r.state.ended)) else none
  | .failed, .read _ => some (r.answer r.state (.error .readError))
  | _, _ => none

def step (s : Serializers) : System ControlReceiver ControlEvent
  | .receive, r => if r.receiving then none else some { r with receiving := true }
  | event, r => if r.receiving then r.advance s event else none

end ControlReceiver

end Zflow.Wire
