import Zflow.Laws.Wire.Streams

/-!
# The control stream, received in order

A receiver keeps what it has read of a frame. So what it holds and what is yet to come are the frames it has not
returned, in every run: it does not matter how the stream is cut, or where a receive is given up.
-/

namespace Zflow.Wire

open Lib

variable {s : Serializers} {r r' : ControlReceiver} {event : ControlEvent}

/-! ## Turns -/

namespace ControlReceiveState

variable {state : ControlReceiveState}

/-- What a receiver has read of a frame. -/
def held : ControlReceiveState → List UInt8
  | length filled => filled
  | frame size filled => beBytes 4 size ++ filled

/-- A buffer is filled no further than it goes, and was allocated for a length that is accepted. -/
def Sound : ControlReceiveState → Prop
  | length filled => filled.length ≤ 4
  | frame size filled => filled.length ≤ size ∧ 0 < size ∧ size ≤ maxControlFrameBytes

@[simp] theorem held_fill (bytes : List UInt8) : (state.fill bytes).held = state.held ++ bytes := by
  cases state with
  | length filled => rfl
  | frame size filled => exact (List.append_assoc _ _ _).symm

/-- **What a turn says of the state.** -/
theorem of_turn {next : Turn} (h : state.turn = next) : match next with
    | .read room => 0 < room ∧ ((∃ filled, state = .length filled ∧ filled.length + room = 4) ∨
        ∃ size filled, state = .frame size filled ∧ filled.length + room = size)
    | .allocate size => ∃ filled, state = .length filled ∧ 4 ≤ filled.length ∧ fromBe filled = size ∧
        0 < size ∧ size ≤ maxControlFrameBytes
    | .refuse size => ∃ filled, state = .length filled ∧ 4 ≤ filled.length ∧ fromBe filled = size ∧
        (size = 0 ∨ maxControlFrameBytes < size)
    | .frame bytes => ∃ size, state = .frame size bytes ∧ size ≤ bytes.length := by
  cases state with
  | length filled =>
    simp only [turn] at h
    split at h
    · rename_i hlt
      subst h
      exact ⟨by omega, .inl ⟨filled, rfl, by omega⟩⟩
    · rename_i hle
      split at h
      · rename_i hbad
        subst h
        exact ⟨filled, rfl, Nat.le_of_not_lt hle, rfl, hbad⟩
      · rename_i hgood
        subst h
        exact ⟨filled, rfl, Nat.le_of_not_lt hle, rfl, by omega, by omega⟩
  | frame size filled =>
    simp only [turn] at h
    split at h
    · subst h
      exact ⟨by omega, .inr ⟨size, filled, rfl, by omega⟩⟩
    · rename_i hle
      subst h
      exact ⟨size, rfl, Nat.le_of_not_lt hle⟩

theorem turn_length_of_lt {filled : List UInt8} (h : filled.length < 4) :
    (length filled).turn = .read (4 - filled.length) := if_pos h

theorem turn_length_of_le {filled : List UInt8} (h : 4 ≤ filled.length) (hpos : 0 < fromBe filled)
    (hle : fromBe filled ≤ maxControlFrameBytes) : (length filled).turn = .allocate (fromBe filled) := by
  simp only [turn]
  rw [if_neg (Nat.not_lt.mpr h), if_neg (by omega)]

theorem turn_frame_of_lt {size : Nat} {filled : List UInt8} (h : filled.length < size) :
    (frame size filled).turn = .read (size - filled.length) := if_pos h

theorem turn_frame_of_le {size : Nat} {filled : List UInt8} (h : size ≤ filled.length) :
    (frame size filled).turn = .frame filled := if_neg (Nat.not_lt.mpr h)

end ControlReceiveState

/-! ## Steps -/

/-- What a receiver does at an event. -/
inductive Stepped (s : Serializers) (r : ControlReceiver) : ControlEvent → ControlReceiver → Prop
  | receive : Stepped s r .receive { r with receiving := true }
  | cancel : Stepped s r .cancel { r with receiving := false }
  | allocate {size : Nat} : r.state.turn = .allocate size → Stepped s r .turn { r with state := .frame size [] }
  | refuse {size : Nat} : r.state.turn = .refuse size →
    Stepped s r .turn (r.answer r.state (.error (.controlFrameTooLarge size maxControlFrameBytes)))
  | frame {bytes : List UInt8} : r.state.turn = .frame bytes →
    Stepped s r .turn (r.answer (.length []) (receiveFrame s bytes))
  | read {count room : Nat} : r.state.turn = .read room → 1 ≤ count → count ≤ room → count ≤ r.coming.length →
    Stepped s r (.read count)
      { r with state := r.state.fill (r.coming.take count), coming := r.coming.drop count }
  | ended {room : Nat} : r.state.turn = .read room → r.coming = [] →
    Stepped s r .ended (r.answer r.state (.error r.state.ended))
  | failed {room : Nat} : r.state.turn = .read room → Stepped s r .failed (r.answer r.state (.error .readError))

theorem stepped_of_advance (h : r.advance s event = some r') : Stepped s r event r' := by
  unfold ControlReceiver.advance at h
  split at h
  · cases h
    exact .cancel
  · rename_i hturn
    cases h
    exact .allocate hturn
  · rename_i hturn
    cases h
    exact .refuse hturn
  · rename_i hturn
    cases h
    exact .frame hturn
  · rename_i hturn
    split at h
    · rename_i hcount
      cases h
      exact .read hturn hcount.1 hcount.2.1 hcount.2.2
    · cases h
  · rename_i hturn
    split at h
    · rename_i hnone
      cases h
      exact .ended hturn hnone
    · cases h
  · rename_i hturn
    cases h
    exact .failed hturn
  · cases h

/-- **What a step can do.** -/
theorem stepped_of_step (h : ControlReceiver.step s event r = some r') : Stepped s r event r' := by
  unfold ControlReceiver.step at h
  split at h
  · split at h
    · cases h
    · cases h
      exact .receive
  · split at h
    · exact stepped_of_advance h
    · cases h

/-- **A buffer is allocated for a length that is accepted**, and filled no further than it goes. -/
theorem Stepped.sound (h : r.state.Sound) (hstep : Stepped s r event r') : r'.state.Sound := by
  cases hstep with
  | receive | cancel | refuse _ | ended _ _ | failed _ => exact h
  | allocate hturn =>
    obtain ⟨filled, -, -, -, hpos, hle⟩ := ControlReceiveState.of_turn hturn
    exact ⟨Nat.zero_le _, hpos, hle⟩
  | frame _ => exact Nat.zero_le 4
  | read hturn hpos hroom hcoming =>
    rename_i count room
    obtain ⟨-, ⟨filled, hstate, hfull⟩ | ⟨size, filled, hstate, hfull⟩⟩ := ControlReceiveState.of_turn hturn
    · simp only [hstate, ControlReceiveState.fill, ControlReceiveState.Sound, List.length_append, List.length_take]
      omega
    · rw [hstate] at h
      obtain ⟨-, hsize, hmost⟩ := h
      simp only [hstate, ControlReceiveState.fill, ControlReceiveState.Sound, List.length_append, List.length_take]
      omega

/-! ## What was sent -/

/-- The messages that the receives returned. -/
def ControlReceiver.messages (r : ControlReceiver) : List InputControlMessage := r.answers.filterMap Except.toOption

/-- Messages, and the frames they were sent as. -/
abbrev Sent (s : Serializers) (later : List InputControlMessage) (frames : List (List UInt8)) : Prop :=
  List.Forall₂ (fun message frame => sendWire s message.toWire = .ok frame) later frames

theorem sendWire_eq_ok {message : WireMessage} {frame : List UInt8} (h : sendWire s message = .ok frame) :
    ∃ payload, s.encode message = .ok payload ∧ 0 < payload.length ∧ payload.length ≤ maxControlFrameBytes ∧
      frame = prefixed payload := by
  unfold sendWire at h
  obtain ⟨payload, hpayload, h⟩ := Act.except_bind_eq_ok.mp h
  obtain ⟨hsize, h⟩ := check_bind_eq_ok.mp h
  have hencode := Act.mapError_eq_ok.mp hpayload
  refine ⟨payload, hencode, ?_, ?_, (Except.ok.inj h).symm⟩
  · exact Nat.lt_of_lt_of_le (by decide) (length_of_encode hencode).1
  · simpa using refuseIf_eq_ok.mp hsize

@[simp] theorem ofWire_toWire (message : InputControlMessage) :
    InputControlMessage.ofWire message.toWire = some message := by
  cases message <;> rfl

theorem receiveFrame_encode (hserializers : s.RoundTrips) {message : InputControlMessage} {payload : List UInt8}
    (h : s.encode message.toWire = .ok payload) : receiveFrame s payload = .ok message := by
  have hdecode : s.decode payload = .ok message.toWire :=
    decodeInner_encode hserializers h fun _ hnone => absurd hnone (by simp)
  simp only [receiveFrame, hdecode, Except.mapError, bind, Except.bind, ofWire_toWire]

/-- **The invariant.** Of what was sent, the messages are returned up to some point, and what the receiver holds and
is yet to come are the frames of the others. -/
structure Following (s : Serializers) (sent later : List InputControlMessage) (frames : List (List UInt8))
    (r : ControlReceiver) : Prop where
  sent : sent = r.messages ++ later
  encoded : Sent s later frames
  bytes : r.state.held ++ r.coming = frames.flatten
  sound : r.state.Sound
  errors : ∀ error, .error error ∈ r.answers → error = .readError ∨ (error = .criticalStreamClosed ∧ later = [])

/-- Where a receiver is in the next frame. -/
structure Next (s : Serializers) (message : InputControlMessage) (later : List InputControlMessage) (r : ControlReceiver)
    (payload : List UInt8) (rest : List (List UInt8)) : Prop where
  encode : s.encode message.toWire = .ok payload
  pos : 0 < payload.length
  le : payload.length ≤ maxControlFrameBytes
  sent : Sent s later rest
  bytes : r.state.held ++ r.coming = beBytes 4 payload.length ++ (payload ++ rest.flatten)

namespace Following

variable {sent later : List InputControlMessage} {frames : List (List UInt8)}

theorem next_of_cons {message : InputControlMessage} (h : Following s sent (message :: later) frames r) :
    ∃ payload rest, Next s message later r payload rest := by
  obtain ⟨frame, rest, hframe, hrest, hframes⟩ := List.forall₂_cons_left_iff.mp h.encoded
  obtain ⟨payload, hencode, hpos, hle, rfl⟩ := sendWire_eq_ok hframe
  refine ⟨payload, rest, hencode, hpos, hle, hrest, ?_⟩
  rw [h.bytes, hframes, List.flatten_cons, prefixed, List.append_assoc]

/-- A receiver that holds something is in a frame that was not returned. -/
theorem exists_next (h : Following s sent later frames r) (hheld : r.state.held ≠ []) :
    ∃ message after payload rest, later = message :: after ∧ Next s message after r payload rest := by
  cases later with
  | nil =>
    have hframes := List.forall₂_nil_left_iff.mp h.encoded
    have hnone := h.bytes
    rw [hframes, List.flatten_nil] at hnone
    exact absurd (List.append_eq_nil_iff.mp hnone).1 hheld
  | cons message after =>
    obtain ⟨payload, rest, hnext⟩ := h.next_of_cons
    exact ⟨message, after, payload, rest, rfl, hnext⟩

end Following

namespace Next

variable {message : InputControlMessage} {later : List InputControlMessage} {payload : List UInt8}
  {rest : List (List UInt8)}

/-- The length that is read is the one that was sent. -/
theorem fromBe_payload (h : Next s message later r payload rest) :
    fromBe (beBytes 4 payload.length) = payload.length :=
  fromBe_beBytes (h.le.trans_lt (by decide))

theorem of_length (h : Next s message later r payload rest) {filled : List UInt8} (hstate : r.state = .length filled)
    (hfull : filled.length = 4) : filled = beBytes 4 payload.length ∧ r.coming = payload ++ rest.flatten := by
  have hbytes := h.bytes
  rw [hstate] at hbytes
  exact List.append_inj hbytes (hfull.trans (length_beBytes 4 _).symm)

theorem of_frame (h : Next s message later r payload rest) {size : Nat} {filled : List UInt8}
    (hstate : r.state = .frame size filled) (hsound : r.state.Sound) :
    size = payload.length ∧ filled ++ r.coming = payload ++ rest.flatten := by
  have hbytes := h.bytes
  rw [hstate, ControlReceiveState.held, List.append_assoc] at hbytes
  obtain ⟨hsize, hrest⟩ := List.append_inj hbytes (by rw [length_beBytes, length_beBytes])
  rw [hstate] at hsound
  have hsame := congrArg fromBe hsize
  rw [h.fromBe_payload, fromBe_beBytes (hsound.2.2.trans_lt (by decide))] at hsame
  exact ⟨hsame, hrest⟩

/-- A full buffer is the frame that was sent. -/
theorem of_full (h : Next s message later r payload rest) {size : Nat} {filled : List UInt8}
    (hstate : r.state = .frame size filled) (hsound : r.state.Sound) (hfull : size ≤ filled.length) :
    filled = payload ∧ r.coming = rest.flatten := by
  obtain ⟨hsize, hbytes⟩ := h.of_frame hstate hsound
  rw [hstate] at hsound
  exact List.append_inj hbytes (by rw [← hsize]; exact Nat.le_antisymm hsound.1 hfull)

end Next

/-! ## Runs -/

theorem messages_answer_ok (state : ControlReceiveState) (message : InputControlMessage) :
    (r.answer state (.ok message)).messages = r.messages ++ [message] := by
  simp [ControlReceiver.messages, ControlReceiver.answer, Except.toOption]

theorem messages_answer_error (state : ControlReceiveState) (error : TransportError) :
    (r.answer state (.error error)).messages = r.messages := by
  simp [ControlReceiver.messages, ControlReceiver.answer, Except.toOption]

namespace Following

variable {sent later : List InputControlMessage} {frames : List (List UInt8)}

/-- A receive that ends with an error that is allowed for. -/
theorem answer_error (h : Following s sent later frames r) {error : TransportError}
    (herror : error = .readError ∨ (error = .criticalStreamClosed ∧ later = [])) :
    Following s sent later frames (r.answer r.state (.error error)) := by
  refine ⟨?_, h.encoded, h.bytes, h.sound, fun other hother => ?_⟩
  · rw [messages_answer_error]
    exact h.sent
  · rcases List.mem_append.mp hother with hold | hnew
    · exact h.errors other hold
    · cases List.mem_singleton.mp hnew
      exact herror

/-- A length that is read in full is that of the next message. -/
theorem reads_length (h : Following s sent later frames r) {filled : List UInt8} (hstate : r.state = .length filled)
    (hfull : 4 ≤ filled.length) :
    ∃ message after payload rest, Next s message after r payload rest ∧ filled = beBytes 4 payload.length := by
  have hfour : filled.length = 4 := by
    have hsound := h.sound
    rw [hstate] at hsound
    exact Nat.le_antisymm hsound hfull
  obtain ⟨message, after, payload, rest, -, hnext⟩ := h.exists_next (by
    rw [hstate, ControlReceiveState.held, ← List.length_pos_iff]
    omega)
  exact ⟨message, after, payload, rest, hnext, (hnext.of_length hstate hfour).1⟩

/-- **Every step keeps it.** -/
theorem step (hserializers : s.RoundTrips) (h : Following s sent later frames r) (hstep : Stepped s r event r') :
    ∃ later frames, Following s sent later frames r' := by
  have hsound' := hstep.sound h.sound
  cases hstep with
  | receive | cancel => exact ⟨later, frames, h.sent, h.encoded, h.bytes, h.sound, h.errors⟩
  | allocate hturn =>
    obtain ⟨filled, hstate, hfull, rfl, -, -⟩ := ControlReceiveState.of_turn hturn
    refine ⟨later, frames, h.sent, h.encoded, ?_, hsound', h.errors⟩
    obtain ⟨message, after, payload, rest, hnext, hlength⟩ := h.reads_length hstate hfull
    rw [← h.bytes, hstate]
    simp only [ControlReceiveState.held, hlength, hnext.fromBe_payload, List.append_nil]
  | refuse hturn =>
    obtain ⟨filled, hstate, hfull, rfl, hbad⟩ := ControlReceiveState.of_turn hturn
    obtain ⟨message, after, payload, rest, hnext, hlength⟩ := h.reads_length hstate hfull
    rw [hlength, hnext.fromBe_payload] at hbad
    have hpos := hnext.pos
    have hle := hnext.le
    omega
  | frame hturn =>
    obtain ⟨size, hstate, hfull⟩ := ControlReceiveState.of_turn hturn
    obtain ⟨message, after, payload, rest, rfl, hnext⟩ := h.exists_next (by
      rw [hstate, ControlReceiveState.held, ← List.length_pos_iff, List.length_append, length_beBytes]
      omega)
    obtain ⟨rfl, hcoming⟩ := hnext.of_full hstate h.sound hfull
    rw [receiveFrame_encode hserializers hnext.encode] at hsound' ⊢
    refine ⟨after, rest, ?_, hnext.sent, hcoming, hsound', fun error herror => ?_⟩
    · rw [messages_answer_ok, h.sent, List.append_assoc]
      rfl
    · rcases List.mem_append.mp herror with hold | hnew
      · rcases h.errors error hold with hread | ⟨-, hnone⟩
        · exact .inl hread
        · cases hnone
      · cases List.mem_singleton.mp hnew
  | read hturn _ _ _ =>
    refine ⟨later, frames, h.sent, h.encoded, ?_, hsound', h.errors⟩
    rw [← h.bytes]
    simp only [ControlReceiveState.held_fill, List.append_assoc, List.take_append_drop]
  | ended hturn hnone =>
    -- the stream is whole, so it ends between two frames
    refine ⟨later, frames, h.answer_error (.inr ?_)⟩
    obtain ⟨hroom, hshort⟩ := ControlReceiveState.of_turn hturn
    have hheld : r.state.held = [] := by
      by_contra hsome
      obtain ⟨message, after, payload, rest, -, hnext⟩ := h.exists_next hsome
      have hlength := congrArg List.length hnext.bytes
      rw [hnone, List.append_nil, List.length_append, List.length_append, length_beBytes] at hlength
      rcases hshort with ⟨filled, hstate, hfull⟩ | ⟨size, filled, hstate, hfull⟩
      · rw [hstate] at hlength
        simp only [ControlReceiveState.held] at hlength
        omega
      · obtain ⟨hsize, -⟩ := hnext.of_frame hstate h.sound
        rw [hstate] at hlength
        simp only [ControlReceiveState.held, List.length_append, length_beBytes] at hlength
        omega
    constructor
    · rcases hshort with ⟨filled, hstate, -⟩ | ⟨size, filled, hstate, -⟩
      · rw [hstate] at hheld ⊢
        simp only [ControlReceiveState.held] at hheld
        rw [hheld]
        rfl
      · rw [hstate] at hheld
        have hlength := congrArg List.length hheld
        rw [ControlReceiveState.held, List.length_append, length_beBytes, List.length_nil] at hlength
        omega
    · have hbytes := h.bytes
      rw [hheld, hnone, List.nil_append] at hbytes
      cases later with
      | nil => rfl
      | cons message after =>
        obtain ⟨payload, rest, hnext⟩ := h.next_of_cons
        have hlength := congrArg List.length hnext.bytes
        rw [hheld, hnone, List.append_nil, List.length_append, length_beBytes, List.length_nil] at hlength
        omega
  | failed _ => exact ⟨later, frames, h.answer_error (.inl rfl)⟩

theorem of_start {bytes : List UInt8} (hsent : Sent s sent frames) (hbytes : bytes = frames.flatten) :
    Following s sent sent frames (.start bytes) := by
  refine ⟨rfl, hsent, hbytes, Nat.zero_le 4, fun _ hnone => ?_⟩
  exact absurd hnone List.not_mem_nil

theorem of_reaches (hserializers : s.RoundTrips) {calm : ControlReceiver → ControlEvent → Prop}
    (h : Following s sent later frames r) (hrun : System.Reaches (ControlReceiver.step s) calm r r') :
    ∃ later frames, Following s sent later frames r' := by
  refine hrun.invariant (I := fun r => ∃ later frames, Following s sent later frames r) ⟨later, frames, h⟩ ?_
  rintro before event after ⟨later, frames, hfollowing⟩ - hstep
  exact hfollowing.step hserializers (stepped_of_step hstep)

end Following

/-! ## A receive comes to its end -/

/-- Events of a receiver that is neither given up nor ended. -/
def Going : ControlReceiver → ControlEvent → Prop
  | _, .receive | _, .turn | _, .read _ => True
  | _, _ => False

/-- The stream brings all that a read asks for. -/
theorem step_read {room : Nat} (hreceiving : r.receiving = true) (hturn : r.state.turn = .read room)
    (hpos : 0 < room) (henough : room ≤ r.coming.length) : ControlReceiver.step s (.read room) r =
      some { r with state := r.state.fill (r.coming.take room), coming := r.coming.drop room } := by
  simp only [ControlReceiver.step, ControlReceiver.advance, hturn, hreceiving, if_true]
  exact if_pos ⟨hpos, Nat.le_refl room, henough⟩

theorem step_allocate {size : Nat} (hreceiving : r.receiving = true) (hturn : r.state.turn = .allocate size) :
    ControlReceiver.step s .turn r = some { r with state := .frame size [] } := by
  simp only [ControlReceiver.step, ControlReceiver.advance, hturn, hreceiving, if_true]

theorem step_frame {bytes : List UInt8} (hreceiving : r.receiving = true) (hturn : r.state.turn = .frame bytes) :
    ControlReceiver.step s .turn r = some (r.answer (.length []) (receiveFrame s bytes)) := by
  simp only [ControlReceiver.step, ControlReceiver.advance, hturn, hreceiving, if_true]

namespace Next

variable {message : InputControlMessage} {later : List InputControlMessage} {payload : List UInt8}
  {rest : List (List UInt8)}

/-- A full buffer is returned. -/
theorem reaches_full (hserializers : s.RoundTrips) (h : Next s message later r payload rest)
    (hreceiving : r.receiving = true) (hstate : r.state = .frame payload.length payload) :
    ∃ r', System.Reaches (ControlReceiver.step s) Going r r' ∧ r'.messages = r.messages ++ [message] := by
  have hturn : r.state.turn = .frame payload := by
    rw [hstate]
    exact ControlReceiveState.turn_frame_of_le (Nat.le_refl _)
  have hstep := step_frame (s := s) hreceiving hturn
  rw [receiveFrame_encode hserializers h.encode] at hstep
  exact ⟨_, .step .turn .start trivial hstep, messages_answer_ok _ _⟩

/-- A buffer is filled and returned. -/
theorem reaches_frame (hserializers : s.RoundTrips) (h : Next s message later r payload rest) (hsound : r.state.Sound)
    (hreceiving : r.receiving = true) {size : Nat} {filled : List UInt8} (hstate : r.state = .frame size filled) :
    ∃ r', System.Reaches (ControlReceiver.step s) Going r r' ∧ r'.messages = r.messages ++ [message] := by
  obtain ⟨rfl, hbytes⟩ := h.of_frame hstate hsound
  by_cases hlt : filled.length < payload.length
  · have hlength := congrArg List.length hbytes
    rw [List.length_append, List.length_append] at hlength
    have hturn : r.state.turn = .read (payload.length - filled.length) := by
      rw [hstate]
      exact ControlReceiveState.turn_frame_of_lt hlt
    have hstep := step_read (s := s) hreceiving hturn (by omega) (by omega)
    have hfilled : filled ++ r.coming.take (payload.length - filled.length) = payload := by
      have htake := congrArg (List.take payload.length) hbytes
      rwa [take_append_of_le (Nat.le_of_lt hlt), List.take_left] at htake
    rw [hstate, ControlReceiveState.fill, hfilled] at hstep
    have hnext : Next s message later
        { r with state := .frame payload.length payload, coming := r.coming.drop (payload.length - filled.length) }
        payload rest := by
      refine ⟨h.encode, h.pos, h.le, h.sent, ?_⟩
      have hdrop := congrArg (List.drop payload.length) hbytes
      rw [List.drop_append, List.drop_eq_nil_of_le (Nat.le_of_lt hlt), List.nil_append, List.drop_left] at hdrop
      simp only [ControlReceiveState.held, List.append_assoc, hdrop]
    obtain ⟨r', hreaches, hmessages⟩ := hnext.reaches_full hserializers hreceiving rfl
    exact ⟨r', (System.Reaches.step _ .start trivial hstep).trans hreaches, hmessages⟩
  · obtain ⟨rfl, -⟩ := h.of_full hstate hsound (Nat.le_of_not_lt hlt)
    exact h.reaches_full hserializers hreceiving hstate

/-- A length is read, and its frame returned. -/
theorem reaches_length (hserializers : s.RoundTrips) (h : Next s message later r payload rest)
    (hreceiving : r.receiving = true) {filled : List UInt8} (hstate : r.state = .length filled)
    (hfull : filled.length = 4) :
    ∃ r', System.Reaches (ControlReceiver.step s) Going r r' ∧ r'.messages = r.messages ++ [message] := by
  obtain ⟨rfl, hcoming⟩ := h.of_length hstate hfull
  have hturn : r.state.turn = .allocate payload.length := by
    rw [hstate, ControlReceiveState.turn_length_of_le (Nat.le_of_eq hfull.symm)]
    · rw [h.fromBe_payload]
    · rw [h.fromBe_payload]
      exact h.pos
    · rw [h.fromBe_payload]
      exact h.le
  have hstep := step_allocate (s := s) hreceiving hturn
  have hnext : Next s message later { r with state := .frame payload.length [] } payload rest := by
    refine ⟨h.encode, h.pos, h.le, h.sent, ?_⟩
    simp only [ControlReceiveState.held, List.append_nil, hcoming]
  obtain ⟨r', hreaches, hmessages⟩ := hnext.reaches_frame hserializers ⟨Nat.zero_le _, h.pos, h.le⟩ hreceiving rfl
  exact ⟨r', (System.Reaches.step _ .start trivial hstep).trans hreaches, hmessages⟩

/-- **The next message is returned**, if the receive goes on. -/
theorem reaches_message (hserializers : s.RoundTrips) (h : Next s message later r payload rest)
    (hsound : r.state.Sound) (hreceiving : r.receiving = true) :
    ∃ r', System.Reaches (ControlReceiver.step s) Going r r' ∧ r'.messages = r.messages ++ [message] := by
  cases hstate : r.state with
  | frame size filled => exact h.reaches_frame hserializers hsound hreceiving hstate
  | length filled =>
    rw [hstate] at hsound
    rcases Nat.lt_or_eq_of_le (show filled.length ≤ 4 from hsound) with hlt | hfull
    · have hlength := congrArg List.length h.bytes
      rw [hstate, ControlReceiveState.held, List.length_append, List.length_append, length_beBytes] at hlength
      have hturn : r.state.turn = .read (4 - filled.length) := by
        rw [hstate]
        exact ControlReceiveState.turn_length_of_lt hlt
      have hstep := step_read (s := s) hreceiving hturn (by omega) (by omega)
      rw [hstate, ControlReceiveState.fill] at hstep
      have hnext : Next s message later
          { r with state := .length (filled ++ r.coming.take (4 - filled.length))
                   coming := r.coming.drop (4 - filled.length) } payload rest := by
        refine ⟨h.encode, h.pos, h.le, h.sent, ?_⟩
        rw [← h.bytes, hstate]
        simp only [ControlReceiveState.held, List.append_assoc, List.take_append_drop]
      have hfour : (filled ++ r.coming.take (4 - filled.length)).length = 4 := by
        rw [List.length_append, List.length_take]
        omega
      obtain ⟨r', hreaches, hmessages⟩ := hnext.reaches_length hserializers hreceiving rfl hfour
      exact ⟨r', (System.Reaches.step _ .start trivial hstep).trans hreaches, hmessages⟩
    · exact h.reaches_length hserializers hreceiving hstate hfull

end Next

/-- A receive is under way, or is called. -/
theorem reaches_receiving (r : ControlReceiver) :
    System.Reaches (ControlReceiver.step s) Going r { r with receiving := true } := by
  obtain ⟨state, receiving, coming, answers⟩ := r
  cases receiving with
  | true => exact .start
  | false => exact .step .receive .start trivial rfl

/-- **From any state all that was sent can be returned.** -/
theorem Following.reaches_all (hserializers : s.RoundTrips) {sent later : List InputControlMessage}
    {frames : List (List UInt8)} (h : Following s sent later frames r) :
    ∃ r', System.Reaches (ControlReceiver.step s) Going r r' ∧ r'.messages = sent := by
  induction later generalizing r frames with
  | nil => exact ⟨r, .start, by rw [h.sent, List.append_nil]⟩
  | cons message later ih =>
    have hcalled := reaches_receiving (s := s) r
    have hreceiving : Following s sent (message :: later) frames { r with receiving := true } :=
      ⟨h.sent, h.encoded, h.bytes, h.sound, h.errors⟩
    obtain ⟨payload, rest, hnext⟩ := hreceiving.next_of_cons
    obtain ⟨next, hreaches, hmessages⟩ := hnext.reaches_message hserializers h.sound rfl
    obtain ⟨later', frames', hlater⟩ := h.of_reaches hserializers (hcalled.trans hreaches)
    have hrest : later' = later := by
      have hsent := h.sent.symm.trans hlater.sent
      rw [hmessages, List.append_assoc] at hsent
      exact (List.cons_injective (List.append_cancel_left hsent)).symm
    subst hrest
    obtain ⟨last, hlast, hall⟩ := ih hlater
    exact ⟨last, (hcalled.trans hreaches).trans hlast, hall⟩

end Zflow.Wire
