import Zflow.Laws.Wire.Control

/-!
# Framing is exact, but for the end of a lens stream

Both streams put a message behind its length, and both readers find it again. They differ in what they make of a
stream that ends inside a length: the control receiver says that it finished early, the lens reader that it ended
cleanly.
-/

namespace Zflow.Wire

open Lib

variable {F : Type} [Lens.LensF64 F] {s : Serializers}

/-- A length that is refused is never allocated. -/
theorem refused {r : ControlReceiver} {filled : List UInt8} (hstate : r.state = .length filled)
    (hfull : 4 ≤ filled.length) (hbad : fromBe filled = 0 ∨ maxControlFrameBytes < fromBe filled)
    {event : ControlEvent} {r' : ControlReceiver} (hstep : ControlReceiver.step s event r = some r') :
    r'.state = r.state ∧ (event = .turn →
      r'.answers = r.answers ++ [.error (.controlFrameTooLarge (fromBe filled) maxControlFrameBytes)]) := by
  have hturn : r.state.turn = .refuse (fromBe filled) := by
    rw [hstate]
    simp only [ControlReceiveState.turn]
    rw [if_neg (Nat.not_lt.mpr hfull), if_pos hbad]
  cases stepped_of_step hstep with
  | receive | cancel => exact ⟨rfl, fun hevent => by cases hevent⟩
  | refuse hrefused =>
    cases hturn.symm.trans hrefused
    exact ⟨rfl, fun _ => rfl⟩
  | allocate hother | frame hother | read hother _ _ _ | ended hother _ | failed hother =>
    cases hturn.symm.trans hother

/-- **Stream framing is exact**, unless a lens stream ends inside the length of a message. What was written to a
lens stream is read back, however the stream is cut, if and only if it does not end so; every packet of the
encoder is written, and read back. In every run of a control receiver the messages that were sent are returned in
order, however the stream is cut and wherever a receive is given up, the end of the stream is answered once all
were, and from any state all can be. A frame whose length is refused is not allocated. -/
theorem framing_exact_iff (hserializers : s.RoundTrips) (hsmall : s.SmallFrames) {zstd : Lens.Zstd}
    (hzstd : zstd.RoundTrips) (hstores : Stores zstd) :
    (∀ sent packets source, Written s sent packets → source.bytes <+: packets.flatten →
      (ReadsExactly s sent packets source ↔ ¬EndsInLength packets source)) ∧
    (∀ (width height : Nat) (encoder : Lens.Encoder F) (decoder : Lens.Decoder) (picture : Buffer) (now later : UInt64)
      (sides : Lens.Sides F), Lens.Encoder.new F width height = .ok encoder →
      Lens.Decoder.new width height = .ok decoder →
      (Lens.Sides.step zstd).Reaches (fun _ _ => True) ⟨encoder, decoder, picture, now⟩ sides → sides.now ≤ later →
      ∀ capture view budget encoded, sides.encoder.encode zstd capture view budget later = .ok encoded →
      ∀ serial request, ∃ bytes,
        write s (.frame serial request encoded.packet.exact, some (encoded.packet.body.getD [])) = .ok bytes ∧
          ∀ source after, source.bytes = bytes ++ after → ∃ left, read s source = .ok (some
            ((.frame serial request encoded.packet.exact, some (encoded.packet.body.getD [])), left)) ∧
              left.bytes = after) ∧
    (∀ sent frames r, Sent s sent frames →
      System.Reaches (ControlReceiver.step s) (fun _ _ => True) (.start frames.flatten) r → r.messages <+: sent ∧
      (∀ error, .error error ∈ r.answers → error = .readError ∨ (error = .criticalStreamClosed ∧ r.messages = sent)) ∧
      ∃ r', System.Reaches (ControlReceiver.step s) Going r r' ∧ r'.messages = sent) ∧
    (∀ bytes r, System.Reaches (ControlReceiver.step s) (fun _ _ => True) (.start bytes) r →
      (∀ size filled, r.state = .frame size filled → 0 < size ∧ size ≤ maxControlFrameBytes) ∧
      ∀ filled, r.state = .length filled → 4 ≤ filled.length →
        fromBe filled = 0 ∨ maxControlFrameBytes < fromBe filled →
        ∀ event r', ControlReceiver.step s event r = some r' → r'.state = r.state ∧ (event = .turn →
          r'.answers = r.answers ++ [.error (.controlFrameTooLarge (fromBe filled) maxControlFrameBytes)])) := by
  refine ⟨fun sent packets source hsent h => readsExactly_iff hserializers hsent h, ?_, ?_, ?_⟩
  · intro width height encoder decoder picture now later sides hencoder hdecoder hrun hlater capture view budget
      encoded hencode serial request
    have hsound := (Lens.InStep.of_reaches hzstd (.of_new hencoder hdecoder picture now) hrun).sound.mono hlater
    have hbody : (encoded.packet.body.getD []).length ≤ maxBodyBytes := by
      cases hpacket : encoded.packet.body with
      | none => exact Nat.zero_le _
      | some body => exact body_length_le hstores hsound hencode hpacket
    obtain ⟨bytes, hwrite⟩ := exists_write hsmall hbody serial request encoded.packet.exact
    refine ⟨bytes, hwrite, fun source after h => ?_⟩
    obtain ⟨left, hread, hleft, -⟩ := read_append hserializers hwrite h
    exact ⟨left, hread, hleft⟩
  · intro sent frames r hsent hrun
    obtain ⟨later, left, h⟩ := (Following.of_start hsent rfl).of_reaches hserializers hrun
    refine ⟨⟨later, h.sent.symm⟩, fun error herror => (h.errors error herror).imp_right ?_, h.reaches_all hserializers⟩
    rintro ⟨hclosed, rfl⟩
    refine ⟨hclosed, ?_⟩
    rw [h.sent, List.append_nil]
  · intro bytes r hrun
    have hsound : r.state.Sound := hrun.invariant (I := fun r => r.state.Sound) (Nat.zero_le 4)
      fun _ _ _ h _ hstep => (stepped_of_step hstep).sound h
    refine ⟨fun size filled hstate => ?_, fun filled hstate hfull hbad event r' hstep => refused hstate hfull hbad hstep⟩
    rw [hstate] at hsound
    exact hsound.2

/-! ### Short messages -/

/-- A control message, and its bytes. -/
def entering : Core.ReliableControlMessage := ⟨⟨0, 7, 9⟩, 33, .enter⟩

def enteringBytes : List UInt8 := List.replicate 16 0 ++ [7, 9, 33, 0]

/-- Serializers of a few messages: small numbers are one byte each, as with postcard. -/
def fewSerializers : Serializers where
  toExtend
    | .lens, .copy => .ok [5]
    | .lens, .frame serial request exact =>
      if serial.toNat < 128 ∧ request.toNat < 128 then
        .ok [7, UInt8.ofNat serial.toNat, UInt8.ofNat request.toNat, if exact then 1 else 0]
      else .ok (7 :: (beBytes 8 serial.toNat ++ (beBytes 8 request.toNat ++ [if exact then 1 else 0])))
    | .reliableControl, message => if message = entering then .ok enteringBytes else .error "not supported"
    | _, _ => .error "not supported"
  takeFromBytes
    | .lens, [5] => .ok (.copy, [])
    | .lens, [7, serial, request, exact] =>
      .ok (.frame (UInt64.ofNat serial.toNat) (UInt64.ofNat request.toNat) (exact = 1), [])
    | .lens, 7 :: rest =>
      .ok (.frame (UInt64.ofNat (fromBe (slice rest 0 8))) (UInt64.ofNat (fromBe (slice rest 8 8)))
        (rest.getD 16 0 = 1), [])
    | .reliableControl, bytes => if bytes = enteringBytes then .ok (entering, []) else .error "not supported"
    | _, _ => .error "not supported"
  toWriter _ := .error "not supported"
  fromSlice _ := .error "not supported"

theorem fewSerializers_smallFrames : fewSerializers.SmallFrames := by
  intro serial request exact
  simp only [fewSerializers]
  split
  · exact ⟨_, rfl, by simp⟩
  · exact ⟨_, rfl, by simp⟩

theorem fewSerializers_roundTrips : fewSerializers.RoundTrips where
  json h := by cases h
  postcard {family payload bytes} h := by
    cases family with
    | lens =>
      cases payload with
      | copy =>
        cases h
        rfl
      | frame serial request exact =>
        simp only [fewSerializers] at h
        split at h
        · rename_i hsmall
          cases h
          have hserial : UInt64.ofNat (UInt8.ofNat serial.toNat).toNat = serial := by
            rw [UInt8.toNat_ofNat', Nat.mod_eq_of_lt (by omega), UInt64.ofNat_toNat]
          have hrequest : UInt64.ofNat (UInt8.ofNat request.toNat).toNat = request := by
            rw [UInt8.toNat_ofNat', Nat.mod_eq_of_lt (by omega), UInt64.ofNat_toNat]
          have hread (flag : UInt8) : fewSerializers.takeFromBytes .lens
              [7, UInt8.ofNat serial.toNat, UInt8.ofNat request.toNat, flag] = .ok (.frame
                (UInt64.ofNat (UInt8.ofNat serial.toNat).toNat) (UInt64.ofNat (UInt8.ofNat request.toNat).toNat)
                (flag = 1), []) := rfl
          rw [hread, hserial, hrequest]
          cases exact <;> rfl
        · cases h
          have hread (flag : UInt8) : fewSerializers.takeFromBytes .lens
              (7 :: (beBytes 8 serial.toNat ++ (beBytes 8 request.toNat ++ [flag]))) = .ok (.frame
                (UInt64.ofNat (fromBe (slice (beBytes 8 serial.toNat ++ (beBytes 8 request.toNat ++ [flag])) 0 8)))
                (UInt64.ofNat (fromBe (slice (beBytes 8 serial.toNat ++ (beBytes 8 request.toNat ++ [flag])) 8 8)))
                (flag = 1), []) := rfl
          rw [hread, slice_left (length_beBytes 8 _), slice_right (by rw [length_beBytes]), length_beBytes,
            slice_left (length_beBytes 8 _), fromBe_beBytes serial.toNat_lt, fromBe_beBytes request.toNat_lt,
            UInt64.ofNat_toNat, UInt64.ofNat_toNat]
          cases exact <;> rfl
      | _ => cases h
    | reliableControl =>
      simp only [fewSerializers] at h ⊢
      split at h
      · rename_i hsame
        cases h
        rw [if_pos rfl, hsame]
      · cases h
    | _ => cases h

theorem stored_stores : Stores .stored := by
  intro raw
  simp only [Lens.Zstd.stored, List.length_append, List.length_cons, List.length_nil]
  omega

/-- `Copy`, as it is written. -/
def copyBytes : List UInt8 := [0, 0, 0, 4, 0x5a, 0x46, 9, 5]

theorem written_copy : Written fewSerializers [(.copy, none)] [copyBytes] := .cons rfl .nil

theorem sent_entering : Sent fewSerializers [.reliable entering] [prefixed ([0x5a, 0x46, 3] ++ enteringBytes)] := by
  refine .cons ?_ .nil
  have hpayload : fewSerializers.toExtend .reliableControl entering = .ok enteringBytes := by
    simp only [fewSerializers, if_true]
  have hencoded : fewSerializers.encodePayload ⟨.reliableControl, entering⟩ = .ok enteringBytes := by
    simp only [Serializers.encodePayload, hpayload, Except.mapError]
  have hencode : fewSerializers.encode ⟨.reliableControl, entering⟩ = .ok ([0x5a, 0x46, 3] ++ enteringBytes) :=
    check_bind_eq_ok.mpr ⟨rfl, Act.except_bind_eq_ok.mpr ⟨_, hencoded, rfl⟩⟩
  exact Act.except_bind_eq_ok.mpr ⟨_, Act.mapError_eq_ok.mpr hencode, rfl⟩

/-- A message in three stretches, a packet of the desk, and a control message. -/
theorem framing_exact_iff_few :
    ReadsExactly fewSerializers [(.copy, none)] [copyBytes] ⟨[[0, 0], [0, 4, 0x5a], [0x46, 9, 5]], false⟩ ∧
    (∃ encoded bytes, Lens.desk.encoder.encode .stored (Lens.shade 1) none ⟨0, 0⟩ 0 = .ok encoded ∧
      encoded.packet.body.isSome = true ∧
        write fewSerializers (.frame 7 3 encoded.packet.exact, some (encoded.packet.body.getD [])) = .ok bytes) ∧
    ∃ r, System.Reaches (ControlReceiver.step fewSerializers) Going
      (.start (prefixed ([0x5a, 0x46, 3] ++ enteringBytes))) r ∧ r.messages = [.reliable entering] := by
  obtain ⟨hlens, hpackets, hcontrol, -⟩ := framing_exact_iff (F := ℚ) fewSerializers_roundTrips
    fewSerializers_smallFrames Lens.Zstd.stored_roundTrips stored_stores
  refine ⟨?_, ?_, ?_⟩
  · refine (hlens _ _ _ written_copy (List.prefix_refl _)).mpr ?_
    rintro ⟨-, k, tail, hcut, hpos, -⟩
    have hwhole : Cut [copyBytes] ⟨[[0, 0], [0, 4, 0x5a], [0x46, 9, 5]], false⟩ 1 [] :=
      ⟨Nat.le_refl 1, rfl, fun _ hnone => by cases hnone⟩
    obtain ⟨-, rfl⟩ := hcut.unique hwhole
    exact absurd hpos (Nat.lt_irrefl 0)
  · have hencoded : (match Lens.desk.encoder.encode .stored (Lens.shade 1) none ⟨0, 0⟩ 0 with
        | .ok encoded => encoded.packet.body.isSome
        | .error _ => false) = true := by decide +kernel
    split at hencoded
    · rename_i encoded hencode
      obtain ⟨bytes, hwrite, -⟩ := hpackets 65 1 _ _ _ 0 0 Lens.desk rfl rfl .start (UInt64.le_refl 0) _ _ _ encoded hencode 7 3
      exact ⟨encoded, bytes, hencode, hencoded, hwrite⟩
    · cases hencoded
  · have hbytes : [prefixed ([0x5a, 0x46, 3] ++ enteringBytes)].flatten =
        prefixed ([0x5a, 0x46, 3] ++ enteringBytes) := List.append_nil _
    obtain ⟨-, -, r, hreaches, hmessages⟩ := hcontrol _ _ _ sent_entering .start
    rw [hbytes] at hreaches
    exact ⟨r, hreaches, hmessages⟩

/-- A stream that ends after two bytes of a length is answered as one that ends before it. -/
theorem ends_in_length : read fewSerializers ⟨[[0, 0]], false⟩ = .ok none ∧
    Written fewSerializers [(.copy, none)] [copyBytes] ∧ Arrivals.bytes ⟨[[0, 0]], false⟩ <+: copyBytes ∧
      ¬ReadsExactly fewSerializers [(.copy, none)] [copyBytes] ⟨[[0, 0]], false⟩ := by
  have hprefix : Arrivals.bytes ⟨[[0, 0]], false⟩ <+: copyBytes := ⟨[0, 4, 0x5a, 0x46, 9, 5], rfl⟩
  refine ⟨rfl, written_copy, hprefix, fun hexact => ?_⟩
  refine (readsExactly_iff fewSerializers_roundTrips written_copy ?_).mp hexact ?_
  · exact (List.append_nil copyBytes).symm ▸ hprefix
  · refine ⟨rfl, 0, [0, 0], ⟨Nat.zero_le 1, rfl, fun next hnext => ?_⟩, by decide, by decide⟩
    obtain rfl := Option.some.inj hnext
    exact fun hwhole => absurd hwhole.length_le (by decide)

end Zflow.Wire
