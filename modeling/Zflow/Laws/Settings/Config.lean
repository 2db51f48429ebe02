import Zflow.Settings.Config

/-!
# Keys and addresses of a saved computer

A key's hex reads back as the key, in either case, so two texts can be one key. An address list that has learned is short,
has one address for each IP and lists the newly heard ones first, and it learns nothing from hearing them again.
-/

namespace Zflow.Settings

open Lib Pairing

/-! ## Hex -/

theorem hexDigit_digitChar : ∀ n < 16, hexDigit (Nat.digitChar n) = some (BitVec.ofNat 8 n) := by decide

theorem byte_of_digits : ∀ byte : BitVec 8,
    BitVec.ofNat 8 (byte.toNat / 16) <<< 4 ||| BitVec.ofNat 8 (byte.toNat % 16) = byte := by decide +kernel

/-- **What is written as hex reads back.** -/
theorem decodeHex_encodeHex (bytes : Spki) : decodeHex (encodeHex bytes).toList = some bytes := by
  unfold encodeHex
  rw [String.toList_ofList]
  induction bytes with
  | nil => rfl
  | cons byte bytes ih =>
    have hlow : byte.toNat % 16 < 16 := Nat.mod_lt _ (by decide)
    have hhigh : byte.toNat / 16 < 16 := by
      have := byte.isLt
      omega
    rw [List.flatMap_cons, List.cons_append, List.cons_append, List.nil_append, decodeHex,
      hexDigit_digitChar _ hlow, hexDigit_digitChar _ hhigh, ih]
    show some (_ :: bytes) = _
    rw [byte_of_digits]

namespace PeerConfig

variable {peer : PeerConfig} {key : Spki}

theorem spkiDer_eq_ok : peer.spkiDer = .ok key ↔
    decodeHex peer.spkiDerHex.toList = some key ∧ validateSpki key = .ok () := by
  unfold spkiDer
  cases hdecode : decodeHex peer.spkiDerHex.toList with
  | none => simp [bind, Except.bind]
  | some spki =>
    rw [Act.except_bind_eq_ok]
    constructor
    · rintro ⟨_, hsome, hrest⟩
      cases hsome
      obtain ⟨hcheck, hkey⟩ := check_bind_eq_ok.mp hrest
      cases hkey
      exact ⟨rfl, hcheck⟩
    · rintro ⟨hsome, hcheck⟩
      cases hsome
      exact ⟨key, rfl, check_bind_eq_ok.mpr ⟨hcheck, rfl⟩⟩

/-- A record that spells the key as it is written has that key. -/
theorem spkiDer_of_hex (hhex : peer.spkiDerHex = encodeHex key) (hcheck : validateSpki key = .ok ()) :
    peer.spkiDer = .ok key :=
  spkiDer_eq_ok.mpr ⟨hhex ▸ decodeHex_encodeHex key, hcheck⟩

theorem fromSpki_eq_ok {addresses : List SocketAddr} {permissions : PeerPermissions} :
    fromSpki key addresses permissions = .ok peer ↔ validateSpki key = .ok () ∧
      peer = ⟨encodeHex key, addresses, permissions, .standard, false, false⟩ := by
  unfold fromSpki
  rw [check_bind_eq_ok]
  exact and_congr_right' ⟨fun h => (Except.ok.inj h).symm, fun h => congrArg _ h.symm⟩

end PeerConfig

/-! ## Addresses -/

theorem ip_canonicalAddress (address : SocketAddr) : (canonicalAddress address).ip = address.ip.toCanonical := by
  unfold canonicalAddress
  split
  · rename_i ip hip
    exact hip.symm
  · rename_i ip hip
    cases address with
    | v4 ip port => cases hip
    | v6 bits port flowinfo scopeId =>
      rw [hip]
      unfold SocketAddr.ip IpAddr.toCanonical at hip
      dsimp only at hip
      split at hip
      · cases hip
      · exact hip

theorem canonicalAddress_canonicalAddress (address : SocketAddr) :
    canonicalAddress (canonicalAddress address) = canonicalAddress address := by
  cases hip : address.ip.toCanonical with
  | v4 ip =>
    have heq : canonicalAddress address = .v4 ip address.port := by
      unfold canonicalAddress
      rw [hip]
    rw [heq]
    rfl
  | v6 ip =>
    have heq : canonicalAddress address = address := by
      unfold canonicalAddress
      rw [hip]
    rw [heq, heq]

/-- An address list that has learned `newest`. -/
structure Listed (newest : List SocketAddr) (record : PeerConfig) : Prop where
  few : record.addresses.length ≤ maxPeerAddresses
  one_per_ip : (record.addresses.map fun address => address.ip.toCanonical).Nodup
  canonical : ∀ address ∈ record.addresses, canonicalAddress address = address
  newest_first : (Firsts.firsts SocketAddr.ip (newest.map canonicalAddress)).take maxPeerAddresses <+: record.addresses
  again : (record.learnAddresses newest).1 = false

/-- **What learning makes of the address list**, whatever it was. -/
theorem listed_learnAddresses (newest : List SocketAddr) (peer : PeerConfig) :
    Listed newest (peer.learnAddresses newest).2 := by
  let heard := newest.map canonicalAddress
  let before := peer.addresses.map canonicalAddress
  have haddresses : (peer.learnAddresses newest).2.addresses =
      (Firsts.firsts SocketAddr.ip (heard ++ before)).take maxPeerAddresses := by
    unfold PeerConfig.learnAddresses
    rw [List.map_append]
  have hcanonical : ∀ address ∈ (Firsts.firsts SocketAddr.ip (heard ++ before)).take maxPeerAddresses,
      canonicalAddress address = address := by
    intro address hmem
    have hmapped := Firsts.mem_firsts (List.mem_of_mem_take hmem)
    rw [← List.map_append] at hmapped
    obtain ⟨original, -, rfl⟩ := List.mem_map.mp hmapped
    exact canonicalAddress_canonicalAddress original
  refine ⟨?_, ?_, ?_, ?_, ?_⟩
  · rw [haddresses]
    exact List.length_take_le _ _
  · have hips : ∀ address ∈ (Firsts.firsts SocketAddr.ip (heard ++ before)).take maxPeerAddresses,
        address.ip.toCanonical = address.ip := fun address hmem => by
      rw [← ip_canonicalAddress, hcanonical address hmem]
    rw [haddresses, List.map_congr_left hips]
    exact (Firsts.nodup_firsts SocketAddr.ip _).sublist ((List.take_sublist _ _).map _)
  · rw [haddresses]
    exact hcanonical
  · rw [haddresses]
    exact (Firsts.firsts_append heard before).take _
  · have hsame : ((peer.learnAddresses newest).2.learnAddresses newest).2.addresses =
        (peer.learnAddresses newest).2.addresses := by
      show (Firsts.firsts SocketAddr.ip ((newest ++ _).map canonicalAddress)).take maxPeerAddresses = _
      rw [haddresses, List.map_append, List.map_congr_left hcanonical, List.map_id']
      exact Firsts.firsts_again heard before maxPeerAddresses
    exact decide_eq_false (not_not.mpr hsame)

end Zflow.Settings
