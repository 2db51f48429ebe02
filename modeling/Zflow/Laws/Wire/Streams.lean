import Zflow.Laws.Lens.Covers
import Zflow.Wire.Streams

/-!
# Messages come back as they were sent

A reader finds each length where its writer put it, so what arrives is read as it was written, however it is
cut. A lens stream that ends inside a length is answered as one that ends between two messages: `read_exact`
gives the same end for none of four bytes and for three.
-/

namespace Zflow.Wire

open Lib

variable {s : Serializers}

/-! ## The codec -/

/-- **What is relied on** of the serializers: what they wrote is read back, and nothing is left. -/
structure Serializers.RoundTrips (s : Serializers) : Prop where
  postcard : ∀ {family : Family} {payload : family.Payload} {bytes : List UInt8},
    s.toExtend family payload = .ok bytes → s.takeFromBytes family bytes = .ok (payload, [])
  json : ∀ {message : DesktopMessage} {bytes : List UInt8},
    s.toWriter message = .ok bytes → s.fromSlice bytes = .ok message

@[simp] theorem tryFrom_code (family : Family) : Family.tryFrom family.code = .ok family := by
  cases family <;> rfl

theorem decodePayload_encodePayload (h : s.RoundTrips) {message : WireMessage} {payload : List UInt8}
    (hencode : s.encodePayload message = .ok payload) : s.decodePayload payload message.family = .ok message.payload := by
  obtain ⟨family, value⟩ := message
  have hpostcard {family : Family} {value : family.Payload}
      (hencode : (s.toExtend family value).mapError WireError.codec = .ok payload) :
      s.decodePostcard family payload = .ok value := by
    unfold Serializers.decodePostcard
    rw [h.postcard (Act.mapError_eq_ok.mp hencode)]
    rfl
  cases family with
  | desktop => exact Act.mapError_eq_ok.mpr (h.json (Act.mapError_eq_ok.mp hencode))
  | negotiationOffer => exact hpostcard hencode
  | negotiatedSession => exact hpostcard hencode
  | reliableControl => exact hpostcard hencode
  | motion => exact hpostcard hencode
  | probe => exact hpostcard hencode
  | hello => exact hpostcard hencode
  | lens => exact hpostcard hencode

/-- What an encoded message is. -/
theorem encode_eq_ok {message : WireMessage} {bytes : List UInt8} (h : s.encode message = .ok bytes) :
    validate message = .ok () ∧ ∃ payload, s.encodePayload message = .ok payload ∧
      payload.length ≤ message.family.maximumPayloadBytes ∧ bytes = wireMagic ++ message.family.code :: payload := by
  unfold Serializers.encode at h
  obtain ⟨hvalid, h⟩ := check_bind_eq_ok.mp h
  unfold Serializers.frame at h
  obtain ⟨payload, hpayload, h⟩ := Act.except_bind_eq_ok.mp h
  obtain ⟨hsize, h⟩ := check_bind_eq_ok.mp h
  refine ⟨hvalid, payload, hpayload, ?_, (Except.ok.inj h).symm⟩
  unfold checkPayloadSize limit at hsize
  split at hsize
  · cases hsize
  · rename_i hle
    exact Nat.le_of_not_lt hle

theorem length_of_encode {message : WireMessage} {bytes : List UInt8} (h : s.encode message = .ok bytes) :
    3 ≤ bytes.length ∧ bytes.length ≤ message.family.maximumPayloadBytes + 3 := by
  obtain ⟨-, payload, -, hle, rfl⟩ := encode_eq_ok h
  simp only [wireMagic, List.length_append, List.length_cons, List.length_nil]
  omega

/-- **An encoded message is decoded to itself**, as any family it may be asked for. -/
theorem decodeInner_encode (h : s.RoundTrips) {message : WireMessage} {bytes : List UInt8}
    (hencode : s.encode message = .ok bytes) {expected : Option Family} (hexpected : ∀ family ∈ expected, family = message.family) :
    s.decodeInner bytes expected = .ok message := by
  obtain ⟨hvalid, payload, hpayload, hle, rfl⟩ := encode_eq_ok hencode
  have hsize : checkPayloadSize message.family payload.length = .ok () := if_neg (Nat.not_lt.mpr hle)
  have hasked : checkFamily expected message.family = .ok () := by
    cases expected with
    | none => rfl
    | some family =>
      obtain rfl := hexpected family rfl
      exact refuseIf_eq_ok.mpr (by simp)
  have hmagic : refuseIf ([0x5a, 0x46] ≠ wireMagic) WireError.badMagic = .ok () := rfl
  simp only [wireMagic, List.cons_append, List.nil_append, Serializers.decodeInner]
  refine check_bind_eq_ok.mpr ⟨hmagic, Act.except_bind_eq_ok.mpr ⟨message.family, tryFrom_code _, ?_⟩⟩
  refine check_bind_eq_ok.mpr ⟨hasked, check_bind_eq_ok.mpr ⟨hsize, Act.except_bind_eq_ok.mpr
    ⟨message.payload, decodePayload_encodePayload h hpayload, check_bind_eq_ok.mpr ⟨hvalid, rfl⟩⟩⟩⟩

/-! ## The lens stream -/

section Lens

variable {packet : LensPacket} {bytes : List UInt8} {source : Arrivals}

/-- The tile packet, as it is written. -/
def bodyBytes (body : Option (List UInt8)) : List UInt8 := body.elim [] prefixed

theorem length_prefixed (bytes : List UInt8) : (prefixed bytes).length = 4 + bytes.length := by
  rw [prefixed, List.length_append, length_beBytes]

/-- What a written message is. -/
theorem write_eq_ok (h : write s packet = .ok bytes) : packet.1.isFrame = packet.2.isSome ∧
    ∃ payload, s.encode ⟨.lens, packet.1⟩ = .ok payload ∧ (∀ body ∈ packet.2, body.length ≤ maxBodyBytes) ∧
      bytes = prefixed payload ++ bodyBytes packet.2 := by
  obtain ⟨message, body⟩ := packet
  unfold write at h
  obtain ⟨hframe, h⟩ := check_bind_eq_ok.mp h
  obtain ⟨payload, hpayload, h⟩ := Act.except_bind_eq_ok.mp h
  have hframe : message.isFrame = body.isSome := by simpa using refuseIf_eq_ok.mp hframe
  refine ⟨hframe, payload, Act.mapError_eq_ok.mp hpayload, ?_⟩
  cases body with
  | none =>
    refine ⟨fun _ hnone => absurd hnone (by simp), ?_⟩
    rw [← Except.ok.inj h, bodyBytes, Option.elim_none, List.append_nil]
  | some body =>
    obtain ⟨hsize, h⟩ := check_bind_eq_ok.mp h
    refine ⟨fun other hother => ?_, (Except.ok.inj h).symm⟩
    obtain rfl := Option.some.inj hother
    simpa using refuseIf_eq_ok.mp hsize

/-- A length is read as it was written. -/
theorem fromBe_length {length : Nat} (h : length ≤ maxBodyBytes) : fromBe (beBytes 4 length) = length :=
  fromBe_beBytes (h.trans_lt (by decide))

theorem payload_le {message : LensMessage} {payload : List UInt8} (h : s.encode ⟨.lens, message⟩ = .ok payload) :
    3 ≤ payload.length ∧ payload.length ≤ maxMessageBytes ∧ payload.length ≤ maxBodyBytes := by
  obtain ⟨hlow, hhigh⟩ := length_of_encode h
  have hmost : maxMessageBytes ≤ maxBodyBytes := by decide
  exact ⟨hlow, hhigh, hhigh.trans hmost⟩

/-- So many bytes that all arrive are read. -/
theorem readBounded_append {maximum : Nat} {after : List UInt8} (hle : bytes.length ≤ maximum)
    (h : source.bytes = bytes ++ after) :
    ∃ left, readBounded bytes.length maximum source = .ok (bytes, left) ∧ left.bytes = after ∧
      left.breaks = source.breaks := by
  obtain ⟨left, hread, hleft⟩ := Arrivals.readExact_append rfl h
  refine ⟨left, ?_, hleft⟩
  rw [readBounded, if_neg (Nat.not_lt.mpr hle), hread]
  rfl

/-- Too few bytes are an error. -/
theorem readBounded_lt (length maximum : Nat) (source : Arrivals) (h : source.bytes.length < length) :
    ∃ error, readBounded length maximum source = .error error := by
  unfold readBounded
  split
  · exact ⟨_, rfl⟩
  · rw [Arrivals.readExact_of_lt h]
    exact ⟨_, rfl⟩

/-- **A message that arrives is read**, and what follows it is left. -/
theorem read_append (hserializers : s.RoundTrips) (hwrite : write s packet = .ok bytes) {after : List UInt8}
    (h : source.bytes = bytes ++ after) :
    ∃ left, read s source = .ok (some (packet, left)) ∧ left.bytes = after ∧ left.breaks = source.breaks := by
  obtain ⟨hframe, payload, hencode, hbody, rfl⟩ := write_eq_ok hwrite
  obtain ⟨message, body⟩ := packet
  obtain ⟨-, hmessage, hsmall⟩ := payload_le hencode
  rw [prefixed, List.append_assoc, List.append_assoc] at h
  obtain ⟨first, hlength, hfirst, hfirstBreaks⟩ := Arrivals.readExact_append (length_beBytes 4 _) h
  obtain ⟨second, hpayload, hsecond, hsecondBreaks⟩ := readBounded_append hmessage hfirst
  have hdecode : s.decodeFamily payload .lens = .ok ⟨.lens, message⟩ :=
    decodeInner_encode hserializers hencode fun family hfamily => (Option.some.inj hfamily).symm
  unfold read
  simp only [hlength, fromBe_length hsmall, hpayload, hdecode, Except.mapError, bind, Except.bind, pure, Except.pure]
  cases body with
  | none =>
    rw [Option.isSome_none] at hframe
    rw [hframe, if_neg Bool.false_ne_true]
    exact ⟨second, rfl, hsecond, hsecondBreaks.trans hfirstBreaks⟩
  | some body =>
    have hfits := hbody body rfl
    rw [Option.isSome_some] at hframe
    rw [bodyBytes, Option.elim_some, prefixed, List.append_assoc] at hsecond
    obtain ⟨third, hnext, hthird, hthirdBreaks⟩ := Arrivals.readExact_append (length_beBytes 4 _) hsecond
    obtain ⟨left, hread, hleft, hleftBreaks⟩ := readBounded_append hfits hthird
    rw [if_pos hframe, hnext]
    simp only [fromBe_length hfits, hread]
    refine ⟨left, rfl, hleft, ?_⟩
    rw [hleftBreaks, hthirdBreaks, hsecondBreaks, hfirstBreaks]

/-- Fewer than four bytes are answered as none. -/
theorem read_of_lt (h : source.bytes.length < 4) :
    read s source = if source.breaks then .error (.io .other) else .ok none := by
  rw [read, Arrivals.readExact_of_lt h, Arrivals.ending]
  cases source.breaks <;> rfl

theorem take_append_of_le {α : Type} {left right : List α} {n : Nat} (h : left.length ≤ n) :
    (left ++ right).take n = left ++ right.take (n - left.length) := by
  rw [List.take_append, List.take_of_length_le h]

/-- **A message that breaks off after its length is an error.** -/
theorem read_take (hserializers : s.RoundTrips) (hwrite : write s packet = .ok bytes) {n : Nat}
    (hn : 4 ≤ n) (hlt : n < bytes.length) (h : source.bytes = bytes.take n) : ∃ error, read s source = .error error := by
  obtain ⟨hframe, payload, hencode, hbody, rfl⟩ := write_eq_ok hwrite
  obtain ⟨message, body⟩ := packet
  obtain ⟨-, hmessage, hsmall⟩ := payload_le hencode
  rw [prefixed, List.append_assoc, take_append_of_le (by rwa [length_beBytes]), length_beBytes] at h
  rw [List.length_append, length_prefixed] at hlt
  obtain ⟨first, hlength, hfirst, -⟩ := Arrivals.readExact_append (length_beBytes 4 _) h
  unfold read
  simp only [hlength, fromBe_length hsmall]
  by_cases hcut : n - 4 < payload.length
  · obtain ⟨error, herror⟩ := readBounded_lt payload.length maxMessageBytes first (by
      rw [hfirst, List.length_take, List.length_append]
      omega)
    rw [herror]
    exact ⟨error, rfl⟩
  · rw [take_append_of_le (Nat.le_of_not_lt hcut)] at hfirst
    obtain ⟨second, hpayload, hsecond, -⟩ := readBounded_append hmessage hfirst
    have hdecode : s.decodeFamily payload .lens = .ok ⟨.lens, message⟩ :=
      decodeInner_encode hserializers hencode fun family hfamily => (Option.some.inj hfamily).symm
    simp only [hpayload, hdecode, Except.mapError, bind, Except.bind, pure, Except.pure]
    cases body with
    | none =>
      rw [bodyBytes, Option.elim_none, List.length_nil] at hlt
      omega
    | some body =>
      have hfits := hbody body rfl
      rw [Option.isSome_some] at hframe
      rw [if_pos hframe]
      rw [bodyBytes, Option.elim_some] at hlt hsecond
      rw [length_prefixed] at hlt
      by_cases hshort : n - 4 - payload.length < 4
      · have hlength : second.bytes.length < 4 := by
          rw [hsecond, List.length_take]
          omega
        rw [Arrivals.readExact_of_lt hlength]
        exact ⟨_, rfl⟩
      · rw [prefixed, take_append_of_le (by rw [length_beBytes]; omega), length_beBytes] at hsecond
        obtain ⟨third, hnext, hthird, -⟩ := Arrivals.readExact_append (length_beBytes 4 _) hsecond
        obtain ⟨error, herror⟩ := readBounded_lt body.length maxBodyBytes third (by
          rw [hthird, List.length_take]
          omega)
        simp only [hnext, fromBe_length hfits, herror]
        exact ⟨error, rfl⟩

/-- How far a stream goes into what was written: so many whole messages, and a stretch of the next one. -/
structure Cut (packets : List (List UInt8)) (source : Arrivals) (k : Nat) (tail : List UInt8) : Prop where
  le : k ≤ packets.length
  bytes : source.bytes = (packets.take k).flatten ++ tail
  short : ∀ next ∈ packets[k]?, ¬next <+: tail

theorem not_lt_of_cut {packets : List (List UInt8)} {k k' : Nat} {tail tail' : List UInt8}
    (h : Cut packets source k tail) (h' : Cut packets source k' tail') : ¬k < k' := by
  intro hlt
  have hk : k < packets.length := hlt.trans_le h'.le
  have hsplit : packets.take k' = packets.take k ++ packets[k] :: (packets.drop (k + 1)).take (k' - (k + 1)) := by
    have hlater : packets.take k' = packets.take (k + 1) ++ (packets.drop (k + 1)).take (k' - (k + 1)) := by
      rw [← List.take_add, Nat.add_sub_cancel' hlt]
    rw [hlater, List.take_succ_eq_append_getElem hk, List.append_assoc]
    rfl
  have hbytes := h.bytes.symm.trans h'.bytes
  rw [hsplit, List.flatten_append, List.flatten_cons, List.append_assoc, List.append_assoc] at hbytes
  exact h.short packets[k] (List.getElem?_eq_getElem hk) ⟨_, (List.append_cancel_left hbytes).symm⟩

/-- A stream goes just so far. -/
theorem Cut.unique {packets : List (List UInt8)} {k k' : Nat} {tail tail' : List UInt8}
    (h : Cut packets source k tail) (h' : Cut packets source k' tail') : k = k' ∧ tail = tail' := by
  have hk : k = k' := Nat.le_antisymm (Nat.le_of_not_lt (not_lt_of_cut h' h)) (Nat.le_of_not_lt (not_lt_of_cut h h'))
  subst hk
  exact ⟨rfl, List.append_cancel_left (h.bytes.symm.trans h'.bytes)⟩

theorem ReadsAll.unique {packets packets' : List LensPacket} {ending ending' : Option StreamError}
    (h : ReadsAll s source packets ending) (h' : ReadsAll s source packets' ending') :
    packets = packets' ∧ ending = ending' := by
  induction h generalizing packets' ending' with
  | closed hread =>
    cases h' with
    | closed _ => exact ⟨rfl, rfl⟩
    | failed hread' => cases hread.symm.trans hread'
    | next hread' _ => cases hread.symm.trans hread'
  | failed hread =>
    cases h' with
    | closed hread' => cases hread.symm.trans hread'
    | failed hread' =>
      cases hread.symm.trans hread'
      exact ⟨rfl, rfl⟩
    | next hread' _ => cases hread.symm.trans hread'
  | next hread _ ih =>
    cases h' with
    | closed hread' => cases hread.symm.trans hread'
    | failed hread' => cases hread.symm.trans hread'
    | next hread' hrest =>
      cases hread.symm.trans hread'
      obtain ⟨rfl, rfl⟩ := ih hrest
      exact ⟨rfl, rfl⟩

/-- What was written, message by message. -/
abbrev Written (s : Serializers) (sent : List LensPacket) (packets : List (List UInt8)) : Prop :=
  List.Forall₂ (fun packet bytes => write s packet = .ok bytes) sent packets

/-- **What reading gives**: the messages that wholly arrived, then none if the stream ends less than four bytes
later, and else an error. -/
theorem exists_readsAll (hserializers : s.RoundTrips) {sent : List LensPacket} {packets : List (List UInt8)}
    (hsent : Written s sent packets) (h : source.bytes <+: packets.flatten) :
    ∃ k tail ending, Cut packets source k tail ∧ ReadsAll s source (sent.take k) ending ∧
      (ending = none ↔ tail.length < 4 ∧ source.breaks = false) := by
  -- a stream that ends before the next message does
  have hbroken (packets : List (List UInt8)) (source : Arrivals) (hshort : ∀ next ∈ packets[0]?, ¬next <+: source.bytes)
      (hlong : 4 ≤ source.bytes.length → ∃ error, read s source = .error error) :
      ∃ ending, Cut packets source 0 source.bytes ∧ ReadsAll s source [] ending ∧
        (ending = none ↔ source.bytes.length < 4 ∧ source.breaks = false) := by
    have hcut : Cut packets source 0 source.bytes := ⟨Nat.zero_le _, rfl, hshort⟩
    by_cases hfour : source.bytes.length < 4
    · have hread := read_of_lt (s := s) hfour
      cases hbreaks : source.breaks with
      | true =>
        rw [hbreaks] at hread
        exact ⟨_, hcut, .failed hread, by simp⟩
      | false =>
        rw [hbreaks] at hread
        exact ⟨_, hcut, .closed hread, by simp [hfour]⟩
    · obtain ⟨error, hread⟩ := hlong (Nat.le_of_not_lt hfour)
      exact ⟨_, hcut, .failed hread, by simp [hfour]⟩
  induction hsent generalizing source with
  | nil =>
    have hnone : source.bytes = [] := List.prefix_nil.mp h
    obtain ⟨ending, hcut, hreads, hending⟩ := hbroken [] source (by simp) (by simp [hnone])
    exact ⟨0, source.bytes, ending, hcut, hreads, hending⟩
  | cons hwrite hrest ih =>
    rename_i packet bytes rest restBytes
    rw [List.flatten_cons] at h
    by_cases harrived : bytes <+: source.bytes
    · obtain ⟨after, hafter⟩ := harrived
      obtain ⟨left, hread, hleft, hbreaks⟩ := read_append hserializers hwrite hafter.symm
      rw [← hafter, List.prefix_append_right_inj, ← hleft] at h
      obtain ⟨k, tail, ending, hcut, hreads, hending⟩ := ih h
      refine ⟨k + 1, tail, ending, ⟨Nat.succ_le_succ hcut.le, ?_, fun next hnext => ?_⟩, .next hread hreads, ?_⟩
      · rw [← hafter, ← hleft, hcut.bytes, List.take_succ_cons, List.flatten_cons, List.append_assoc]
      · rw [List.getElem?_cons_succ] at hnext
        exact hcut.short next hnext
      · rw [hending, hbreaks]
    · have hpart : source.bytes <+: bytes :=
        (List.prefix_or_prefix_of_prefix (List.prefix_append bytes restBytes.flatten) h).resolve_left harrived
      have htake := List.prefix_iff_eq_take.mp hpart
      have hlt : source.bytes.length < bytes.length := by
        refine lt_of_le_of_ne hpart.length_le fun hsame => harrived ?_
        rw [htake, hsame, List.take_length]
      obtain ⟨ending, hcut, hreads, hending⟩ := hbroken (bytes :: restBytes) source (fun next hnext => by
          obtain rfl := Option.some.inj hnext
          exact harrived)
        (fun hfour => read_take hserializers hwrite hfour hlt htake)
      exact ⟨0, source.bytes, ending, hcut, hreads, hending⟩

/-- **What is asked of reading a stream**: the messages that wholly arrived, in order, then none where it ends
between two messages, and else an error. -/
def ReadsExactly (s : Serializers) (sent : List LensPacket) (packets : List (List UInt8)) (source : Arrivals) : Prop :=
  ∃ k tail ending, Cut packets source k tail ∧ ReadsAll s source (sent.take k) ending ∧
    (ending = none ↔ tail = [] ∧ source.breaks = false)

/-- A stream that ends inside the length of a message. -/
def EndsInLength (packets : List (List UInt8)) (source : Arrivals) : Prop :=
  source.breaks = false ∧ ∃ k tail, Cut packets source k tail ∧ 0 < tail.length ∧ tail.length < 4

/-- **A stream is read exactly unless it ends inside a length.** -/
theorem readsExactly_iff (hserializers : s.RoundTrips) {sent : List LensPacket} {packets : List (List UInt8)}
    (hsent : Written s sent packets) (h : source.bytes <+: packets.flatten) :
    ReadsExactly s sent packets source ↔ ¬EndsInLength packets source := by
  obtain ⟨k, tail, ending, hcut, hreads, hending⟩ := exists_readsAll hserializers hsent h
  constructor
  · rintro ⟨k', tail', ending', hcut', hreads', hending'⟩ ⟨hends, k'', tail'', hcut'', hpos, hlt⟩
    obtain ⟨rfl, rfl⟩ := hcut'.unique hcut
    obtain ⟨rfl, rfl⟩ := hcut''.unique hcut
    obtain ⟨-, rfl⟩ := hreads'.unique hreads
    have hnone := hending'.mp (hending.mpr ⟨hlt, hends⟩)
    rw [hnone.1] at hpos
    exact absurd hpos (Nat.lt_irrefl 0)
  · intro hnot
    refine ⟨k, tail, ending, hcut, hreads, hending.trans ⟨fun ⟨hlt, hends⟩ => ⟨?_, hends⟩, fun ⟨hnone, hends⟩ => ?_⟩⟩
    · by_contra hsome
      exact hnot ⟨hends, k, tail, hcut, List.length_pos_iff.mpr hsome, hlt⟩
    · rw [hnone]
      exact ⟨by decide, hends⟩

end Lens

/-! ## The encoder's packets -/

section Encoder

variable {F : Type} [Lens.LensF64 F]

/-- **What is relied on** of the compressor: a block that does not shrink is stored as it is. A block is 128 KiB,
and its header three bytes; there are a few more around them. -/
def Stores (zstd : Lens.Zstd) : Prop :=
  ∀ raw, (zstd.compress raw).length ≤ raw.length + raw.length / 1024 + 64

/-- **What is relied on** of postcard: a number of 64 bits takes at most ten bytes, and a variant and a flag one. -/
def Serializers.SmallFrames (s : Serializers) : Prop :=
  ∀ serial request exact, ∃ payload, s.toExtend .lens (.frame serial request exact) = .ok payload ∧ payload.length ≤ 22

/-- **A packet is no longer than a tile packet may be.** -/
theorem body_length_le {zstd : Lens.Zstd} (hstores : Stores zstd) {e : Lens.Encoder F} {now : UInt64}
    (hsound : Lens.Sound e now) {capture : Lens.Capture} {view : Option (Lens.View F)} {budget : Lens.Budget}
    {encoded : Lens.Encoder.Encoded F} (hencode : e.encode zstd capture view budget now = .ok encoded)
    {body : List UInt8} (hbody : body ∈ encoded.packet.body) : body.length ≤ maxBodyBytes := by
  obtain ⟨-, rfl⟩ := Lens.encode_eq_ok hencode
  obtain ⟨entries, hbatch, -⟩ := Lens.exists_batch hsound capture view budget
  have hraw := hbatch.raw_length_le hsound.begin_.fits
  unfold Lens.Encoder.finish at hbody
  split at hbody
  · cases hbody
  · obtain rfl := Option.some.inj hbody
    have hcompressed := hstores (e.round_ capture view budget now).1.encoder.raw
    simp only [List.length_append, length_beBytes, Lens.length_magic, maxBodyBytes]
    omega

/-- **Every packet is written.** -/
theorem exists_write (hsmall : s.SmallFrames) {body : List UInt8} (hbody : body.length ≤ maxBodyBytes)
    (serial request : UInt64) (exact : Bool) :
    ∃ bytes, write s (.frame serial request exact, some body) = .ok bytes := by
  obtain ⟨payload, hpayload, hlength⟩ := hsmall serial request exact
  have hencode : s.encode ⟨.lens, .frame serial request exact⟩ = .ok (wireMagic ++ Family.lens.code :: payload) := by
    refine check_bind_eq_ok.mpr ⟨rfl, Act.except_bind_eq_ok.mpr ⟨payload, Act.mapError_eq_ok.mpr hpayload, ?_⟩⟩
    have hmost : 22 ≤ Family.lens.maximumPayloadBytes := by decide
    exact check_bind_eq_ok.mpr ⟨if_neg (Nat.not_lt.mpr (hlength.trans hmost)), rfl⟩
  refine ⟨prefixed (wireMagic ++ Family.lens.code :: payload) ++ prefixed body,
    check_bind_eq_ok.mpr ⟨rfl, Act.except_bind_eq_ok.mpr ⟨_, Act.mapError_eq_ok.mpr hencode, ?_⟩⟩⟩
  exact check_bind_eq_ok.mpr ⟨refuseIf_eq_ok.mpr (by simp [hbody]), rfl⟩

end Encoder

end Zflow.Wire
