import Std.Data.String.ToNat
import Zflow.Laws.Core.Rational
import Zflow.Laws.Settings.Config
import Zflow.Settings.Trust

/-!
# Trusting a computer keeps identities unique

A computer is looked for by the text of its key, while the daemon compares what the texts decode to. So a key that is saved
in another spelling is not found, and is saved a second time. Where no record spells the key in another way, trusting it
leaves one record with it (`trust_iff`, `replace_iff`).
-/

namespace Zflow.Settings

open Lib Pairing

variable {F : Type} {sha256 : Spki → Spki} {config : Config F} {key : Spki} {name : String} {record : PeerConfig}

/-! ## A free name -/

/-- What a tried name adds to the computer's own. -/
def triedMark (short : String) : Nat → List Char
  | 0 => []
  | 1 => " (".toList ++ short.toList ++ ")".toList
  | number => " (".toList ++ short.toList ++ ")".toList ++ " ".toList ++ (Nat.repr number).toList

theorem toList_triedName (base short : String) (number : Nat) :
    (triedName base short number).toList = base.toList ++ triedMark short number := by
  match number with
  | 0 => exact (List.append_nil _).symm
  | 1 => simp [triedName, triedMark, toString]
  | number + 2 => simp [triedName, triedMark, toString]

theorem triedMark_injective (short : String) : Function.Injective (triedMark short) := by
  have hlong : ∀ number, (triedMark short (number + 2)).length =
      (triedMark short 1).length + 1 + (Nat.repr (number + 2)).toList.length := fun number => by
    simp [triedMark]
    omega
  intro first second heq
  have hlength := congrArg List.length heq
  match first, second with
  | 0, 0 => rfl
  | 1, 1 => rfl
  | 0, 1 => simp [triedMark] at hlength
  | 1, 0 => simp [triedMark] at hlength
  | 0, number + 2 => simp [triedMark] at hlength
  | number + 2, 0 => simp [triedMark] at hlength
  | 1, number + 2 =>
    rw [hlong] at hlength
    omega
  | number + 2, 1 =>
    rw [hlong] at hlength
    omega
  | first + 2, second + 2 =>
    have hnumber := String.toList_inj.mp (List.append_cancel_left heq)
    exact Nat.repr_injective hnumber

theorem triedName_injective (base short : String) : Function.Injective (triedName base short) := by
  intro first second heq
  have hlist := congrArg String.toList heq
  rw [toList_triedName, toList_triedName] at hlist
  exact triedMark_injective short (List.append_cancel_left hlist)

/-- **The name of a new record is nobody's.** -/
theorem freeName_free (peers : Std.ExtTreeMap String PeerConfig) (base short : String) :
    peers[freeName peers base short]? = none := by
  let names := (List.range (peers.size + 1)).map (triedName base short)
  have hnames : names.Nodup := (List.nodup_map_iff (triedName_injective base short)).mpr List.nodup_range
  -- more names are tried than there are peers
  have hfree : ∃ free, names.find? (!peers.contains ·) = some free := by
    by_contra hnone
    have hall := List.find?_eq_none.mp (Option.eq_none_iff_forall_ne_some.mpr (not_exists.mp hnone))
    have hsub : names ⊆ peers.keys := fun tried hmem => by
      have htaken : tried ∈ peers := by simpa using hall tried hmem
      exact Std.ExtTreeMap.mem_keys.mpr htaken
    have hlength := (hnames.subperm hsub).length_le
    rw [Std.ExtTreeMap.length_keys, List.length_map, List.length_range] at hlength
    omega
  obtain ⟨free, hfind⟩ := hfree
  have hnot := List.find?_some hfind
  unfold freeName
  rw [hfind, Option.getD_some]
  refine Std.ExtTreeMap.getElem?_eq_none fun hmem => ?_
  rw [Std.ExtTreeMap.mem_iff_contains.mp hmem] at hnot
  cases hnot

/-! ## Unique keys -/

/-- No two peers have one key. -/
def UniqueKeys (config : Config F) : Prop := ∀ (first second : String) (a b : PeerConfig) (key : Spki),
  config.peers[first]? = some a → config.peers[second]? = some b →
  a.spkiDer = .ok key → b.spkiDer = .ok key → first = second

/-- Each peer has a key. -/
def AllKeyed (config : Config F) : Prop := ∀ (name : String) (peer : PeerConfig),
  config.peers[name]? = some peer → ∃ key, peer.spkiDer = .ok key

theorem allKeyed_of_validate [Core.F64 F] (h : config.validate = .ok ()) : AllKeyed config := by
  unfold Config.validate at h
  obtain ⟨-, h⟩ := check_bind_eq_ok.mp h
  obtain ⟨-, h⟩ := check_bind_eq_ok.mp h
  obtain ⟨-, h⟩ := check_bind_eq_ok.mp h
  obtain ⟨-, h⟩ := check_bind_eq_ok.mp h
  obtain ⟨-, h⟩ := check_bind_eq_ok.mp h
  obtain ⟨-, h⟩ := check_bind_eq_ok.mp h
  obtain ⟨-, h⟩ := check_bind_eq_ok.mp h
  obtain ⟨-, h⟩ := check_bind_eq_ok.mp h
  obtain ⟨-, h⟩ := check_bind_eq_ok.mp h
  obtain ⟨-, hpeers⟩ := check_bind_eq_ok.mp h
  intro name peer hpeer
  have hentry := forM_eq_ok.mp hpeers (name, peer) (Std.ExtTreeMap.mem_toList_iff_getElem?_eq_some.mpr hpeer)
  obtain ⟨key, hkey, -⟩ := Act.except_bind_eq_ok.mp hentry
  exact ⟨key, hkey⟩

theorem foldlM_addIdentity {entries : List (String × PeerConfig)} {identities : List (Spki × String)}
    (hkeyed : ∀ entry ∈ entries, ∃ key, entry.2.spkiDer = .ok key ∧ key ∉ identities.map Prod.fst)
    (hunique : entries.Pairwise fun a b => ∀ key, a.2.spkiDer = .ok key → b.2.spkiDer ≠ .ok key) :
    ∃ after, entries.foldlM addIdentity identities = .ok after := by
  induction entries generalizing identities with
  | nil => exact ⟨identities, rfl⟩
  | cons entry entries ih =>
    obtain ⟨hentry, hkeyed⟩ := List.forall_mem_cons.mp hkeyed
    obtain ⟨key, hkey, hnew⟩ := hentry
    obtain ⟨hfirst, hunique⟩ := List.pairwise_cons.mp hunique
    have hfind : identities.find? (·.1 = key) = none :=
      List.find?_eq_none.mpr fun known hknown heq =>
        hnew (List.mem_map.mpr ⟨known, hknown, of_decide_eq_true heq⟩)
    have hadd : addIdentity identities entry = .ok ((key, entry.1) :: identities) := by
      unfold addIdentity
      exact Act.except_bind_eq_ok.mpr ⟨key, by rw [hkey]; rfl, by rw [hfind]⟩
    have hrest : ∀ entry' ∈ entries, ∃ key', entry'.2.spkiDer = .ok key' ∧
        key' ∉ ((key, entry.1) :: identities).map Prod.fst := by
      intro entry' hmem
      obtain ⟨key', hkey', hnew'⟩ := hkeyed entry' hmem
      refine ⟨key', hkey', fun hold => ?_⟩
      rcases List.mem_cons.mp hold with rfl | hold
      · exact hfirst entry' hmem _ hkey hkey'
      · exact hnew' hold
    obtain ⟨after, hafter⟩ := ih hrest hunique
    refine ⟨after, ?_⟩
    rw [List.foldlM_cons, hadd]
    exact hafter

/-- **The daemon accepts keys that are there and unique.** -/
theorem validatePeerIdentities_of_unique (hkeyed : AllKeyed config) (hunique : UniqueKeys config) :
    validatePeerIdentities config = .ok () := by
  have hentries : ∀ entry ∈ config.peers.toList, config.peers[entry.1]? = some entry.2 := fun entry hmem =>
    Std.ExtTreeMap.mem_toList_iff_getElem?_eq_some.mp hmem
  have hpairwise : config.peers.toList.Pairwise fun a b => ∀ key, a.2.spkiDer = .ok key → b.2.spkiDer ≠ .ok key := by
    refine List.Pairwise.imp_of_mem ?_ Std.ExtTreeMap.distinct_keys_toList
    intro a b ha hb hne key hakey hbkey
    exact hne (Std.compare_eq_iff_eq.mpr (hunique _ _ _ _ key (hentries a ha) (hentries b hb) hakey hbkey))
  have hkeys : ∀ entry ∈ config.peers.toList, ∃ key, entry.2.spkiDer = .ok key ∧
      key ∉ ([] : List (Spki × String)).map Prod.fst := fun entry hmem => by
    obtain ⟨key, hkey⟩ := hkeyed entry.1 entry.2 (hentries entry hmem)
    exact ⟨key, hkey, List.not_mem_nil⟩
  obtain ⟨after, hafter⟩ := foldlM_addIdentity hkeys hpairwise
  unfold validatePeerIdentities
  rw [hafter]
  rfl

/-! ## What saving a record does -/

/-- The record is saved under a name, and nothing else is. -/
def withPeer (config : Config F) (name : String) (record : PeerConfig) : Config F :=
  { config with peers := config.peers.insert name record }

theorem getElem?_withPeer (config : Config F) (name other : String) (record : PeerConfig) :
    (withPeer config name record).peers[other]? = if other = name then some record else config.peers[other]? := by
  show (config.peers.insert name record)[other]? = _
  rw [Std.ExtTreeMap.getElem?_insert]
  exact if_congr (by rw [Std.compare_eq_iff_eq, eq_comm]) rfl rfl

/-- The settings after a computer is trusted: one record has its key and lists its addresses, and the others are as they
were. -/
structure SavedOnce (before after : Config F) (key : Spki) (name : String) (newest : List SocketAddr) : Prop where
  saved : ∃ record, after.peers[name]? = some record ∧ record.spkiDer = .ok key ∧ Listed newest record
  unique : UniqueKeys after
  accepted : validatePeerIdentities after = .ok ()
  others : ∀ other, other ≠ name → after.peers[other]? = before.peers[other]?

/-- No other record has the key. -/
def NoOther (config : Config F) (key : Spki) (name : String) : Prop := ∀ (other : String) (peer : PeerConfig),
  other ≠ name → config.peers[other]? = some peer → peer.spkiDer ≠ .ok key

/-- **Saving a record keeps keys unique** exactly when no other record has its key. -/
theorem savedOnce_iff (hkeyed : AllKeyed config) (hunique : UniqueKeys config) {newest : List SocketAddr}
    (hkey : record.spkiDer = .ok key) (hlisted : Listed newest record) :
    SavedOnce config (withPeer config name record) key name newest ↔ NoOther config key name := by
  have hat : (withPeer config name record).peers[name]? = some record := by rw [getElem?_withPeer, if_pos rfl]
  have hother : ∀ other, other ≠ name → (withPeer config name record).peers[other]? = config.peers[other]? :=
    fun other hne => by rw [getElem?_withPeer, if_neg hne]
  constructor
  · intro h other peer hne hpeer hpeerKey
    exact hne (h.unique other name peer record key ((hother other hne).trans hpeer) hat hpeerKey hkey)
  · intro hnone
    have hafter : UniqueKeys (withPeer config name record) := by
      intro first second a b shared hfirst hsecond hafirst hbsecond
      rw [getElem?_withPeer] at hfirst hsecond
      split at hfirst <;> split at hsecond
      · rename_i hfirstName hsecondName
        exact hfirstName.trans hsecondName.symm
      · rename_i hsecondName
        cases hfirst
        obtain rfl := Except.ok.inj (hafirst.symm.trans hkey)
        exact absurd hbsecond (hnone second b hsecondName hsecond)
      · rename_i hfirstName _
        cases hsecond
        obtain rfl := Except.ok.inj (hbsecond.symm.trans hkey)
        exact absurd hafirst (hnone first a hfirstName hfirst)
      · exact hunique first second a b shared hfirst hsecond hafirst hbsecond
    have hall : AllKeyed (withPeer config name record) := by
      intro other peer hpeer
      rw [getElem?_withPeer] at hpeer
      split at hpeer
      · cases hpeer
        exact ⟨key, hkey⟩
      · exact hkeyed other peer hpeer
    exact ⟨⟨record, hat, hkey, hlisted⟩, hafter, validatePeerIdentities_of_unique hall hafter, hother⟩

/-! ## Trusting -/

/-- The key is written as this computer writes keys wherever it is saved. -/
def Spelled (config : Config F) (key : Spki) : Prop := ∀ (name : String) (peer : PeerConfig),
  config.peers[name]? = some peer → peer.spkiDer = .ok key → peer.spkiDerHex = encodeHex key

/-- What trusting a computer answers and leaves: a key that is no key is refused, and any other is saved once, under the
name it had or one that nobody has. -/
def TrustedOnce (config : Config F) (key : Spki) (newest : List SocketAddr) :
    Except TrustError String × Config F → Prop
  | (.ok name, after) => SavedOnce config after key name newest ∧
      ((∃ was, config.peers[name]? = some was ∧ was.spkiDer = .ok key) ∨ config.peers[name]? = none)
  | (.error _, after) => after = config ∧ validateSpki key ≠ .ok ()

variable (sha256) in
/-- What `trust_peer` does with a key that may be saved. -/
theorem trustPeer_of_valid (config : Config F) (hcheck : validateSpki key = .ok ()) (name : String)
    (newest : List SocketAddr) : (∃ saved was, config.peers[saved]? = some was ∧ was.spkiDerHex = encodeHex key ∧
      trustPeer sha256 key name newest config = (.ok saved, withPeer config saved (was.learnAddresses newest).2)) ∨
    (∃ saved record, config.peers[saved]? = none ∧ record.spkiDer = .ok key ∧ Listed newest record ∧
      (∀ (other : String) (peer : PeerConfig), config.peers[other]? = some peer → peer.spkiDerHex ≠ encodeHex key) ∧
      trustPeer sha256 key name newest config = (.ok saved, withPeer config saved record)) := by
  let record : PeerConfig := ⟨encodeHex key, [], defaultPermissions, .standard, false, false⟩
  have hrecord : PeerConfig.fromSpki key [] defaultPermissions = .ok record :=
    PeerConfig.fromSpki_eq_ok.mpr ⟨hcheck, rfl⟩
  have hkey : record.spkiDer = .ok key := PeerConfig.spkiDer_of_hex rfl hcheck
  have hstart : trustPeer sha256 key name newest config = _ :=
    Act.bind_of_ok (Act.lift_eq_ok.mpr ⟨hrecord, rfl⟩)
  rw [hstart, Act.bind_of_ok (Act.read_apply config)]
  cases hfind : config.peers.toList.find? fun entry => entry.2.spkiDerHex = record.spkiDerHex with
  | some entry =>
    obtain ⟨saved, was⟩ := entry
    have hwas := Std.ExtTreeMap.mem_toList_iff_getElem?_eq_some.mp (List.mem_of_find?_eq_some hfind)
    have hhex : was.spkiDerHex = encodeHex key := by simpa using List.find?_some hfind
    exact .inl ⟨saved, was, hwas, hhex, rfl⟩
  | none =>
    have hprint : (record.learnAddresses newest).2.fingerprintHex sha256 = .ok (encodeHex (sha256 key)) :=
      Act.except_bind_eq_ok.mpr ⟨key, hkey, rfl⟩
    refine .inr ⟨_, (record.learnAddresses newest).2, freeName_free _ _ _, hkey, listed_learnAddresses newest record,
      fun other peer hpeer heq => ?_, Act.bind_of_ok (Act.lift_eq_ok.mpr ⟨hprint, rfl⟩)⟩
    have hmem := Std.ExtTreeMap.mem_toList_iff_getElem?_eq_some.mpr hpeer
    exact List.find?_eq_none.mp hfind (other, peer) hmem (decide_eq_true heq)

variable (sha256) in
theorem trustPeer_of_invalid (config : Config F) (hcheck : validateSpki key ≠ .ok ()) (name : String)
    (newest : List SocketAddr) : ∃ e, trustPeer sha256 key name newest config = (.error e, config) := by
  cases hrecord : PeerConfig.fromSpki key [] defaultPermissions with
  | ok record => exact absurd (PeerConfig.fromSpki_eq_ok.mp hrecord).1 hcheck
  | error e =>
    refine ⟨.config e, Act.bind_of_error ?_⟩
    rw [hrecord]
    rfl

theorem spelled_of_invalid (hcheck : validateSpki key ≠ .ok ()) : Spelled config key := fun _ _ _ hkey =>
  absurd (PeerConfig.spkiDer_eq_ok.mp hkey).2 hcheck

/-- **Trusting a computer saves its key once** exactly when no record spells the key in another way. -/
theorem trust_iff (hkeyed : AllKeyed config) (hunique : UniqueKeys config) (name : String) (newest : List SocketAddr) :
    TrustedOnce config key newest (trustPeer sha256 key name newest config) ↔ Spelled config key := by
  by_cases hcheck : validateSpki key = .ok ()
  · rcases trustPeer_of_valid sha256 config hcheck name newest with
      ⟨saved, was, hwas, hhex, htrust⟩ | ⟨saved, record, hfree, hrecord, hlisted, hnone, htrust⟩
    · -- the key is found, and no other record has it
      have hkey := PeerConfig.spkiDer_of_hex hhex hcheck
      have hother : NoOther config key saved := fun other peer hne hpeer hpeerKey =>
        hne (hunique other saved peer was key hpeer hwas hpeerKey hkey)
      have hspelled : Spelled config key := fun other peer hpeer hpeerKey => by
        obtain rfl := hunique other saved peer was key hpeer hwas hpeerKey hkey
        rwa [← Option.some.inj (hpeer.symm.trans hwas)] at hhex
      rw [htrust]
      refine iff_of_true ⟨?_, .inl ⟨was, hwas, hkey⟩⟩ hspelled
      have hlearned : (was.learnAddresses newest).2.spkiDer = .ok key := hkey
      exact (savedOnce_iff hkeyed hunique hlearned (listed_learnAddresses newest was)).mpr hother
    · -- a new record is saved, so no record may have the key
      rw [htrust]
      constructor
      · rintro ⟨hsaved, -⟩ other peer hpeer hpeerKey
        have hne : other ≠ saved := fun heq => by
          rw [heq, hfree] at hpeer
          cases hpeer
        exact absurd hpeerKey ((savedOnce_iff hkeyed hunique hrecord hlisted).mp hsaved other peer hne hpeer)
      · intro hspelled
        refine ⟨(savedOnce_iff hkeyed hunique hrecord hlisted).mpr fun other peer _ hpeer hpeerKey => ?_, .inr hfree⟩
        exact hnone other peer hpeer (hspelled other peer hpeer hpeerKey)
  · obtain ⟨e, htrust⟩ := trustPeer_of_invalid sha256 config hcheck name newest
    rw [htrust]
    exact iff_of_true ⟨rfl, hcheck⟩ (spelled_of_invalid hcheck)

/-! ## Replacing a key -/

/-- Where the computer is saved, every other record that has the key is written as this computer writes keys. -/
def OthersSpelled (config : Config F) (key : Spki) (name : String) : Prop := name ∈ config.peers →
  ∀ (other : String) (peer : PeerConfig), other ≠ name → config.peers[other]? = some peer →
    peer.spkiDer = .ok key → peer.spkiDerHex = encodeHex key

/-- What replacing a key leaves, when it succeeds. -/
def ReplacedOnce (config : Config F) (key : Spki) (name : String) (newest : List SocketAddr) :
    Except TrustError Unit × Config F → Prop
  | (.ok (), after) => SavedOnce config after key name newest
  | (.error _, after) => after = config

theorem rekey_spkiDerHex (text : String) (existing : PeerConfig) : (existing.rekey text).spkiDerHex = text := by
  unfold PeerConfig.rekey
  split
  · rfl
  · rename_i h
    exact not_not.mp h

/-- **Replacing a key saves it once** exactly when no other record spells it in another way. -/
theorem replace_iff (hkeyed : AllKeyed config) (hunique : UniqueKeys config) (name : String)
    (newest : List SocketAddr) :
    ReplacedOnce config key name newest (replaceKey name key newest config) ↔ OthersSpelled config key name := by
  by_cases hcheck : validateSpki key = .ok ()
  · let record : PeerConfig := ⟨encodeHex key, [], .default, .standard, false, false⟩
    have hrecord : PeerConfig.fromSpki key [] .default = .ok record := PeerConfig.fromSpki_eq_ok.mpr ⟨hcheck, rfl⟩
    have hstart : replaceKey name key newest config = _ := Act.bind_of_ok (Act.lift_eq_ok.mpr ⟨hrecord, rfl⟩)
    rw [hstart, Act.bind_of_ok (Act.read_apply config)]
    cases hfind : config.peers.toList.find? fun entry =>
        entry.2.spkiDerHex = record.spkiDerHex && entry.1 ≠ name with
    | some entry =>
      -- another record has the key, in the usual spelling
      obtain ⟨saved, was⟩ := entry
      have hwas := Std.ExtTreeMap.mem_toList_iff_getElem?_eq_some.mp (List.mem_of_find?_eq_some hfind)
      obtain ⟨hhex, -⟩ : was.spkiDerHex = encodeHex key ∧ saved ≠ name := by simpa using List.find?_some hfind
      refine iff_of_true rfl fun _ other peer _ hpeer hpeerKey => ?_
      obtain rfl := hunique other saved peer was key hpeer hwas hpeerKey (PeerConfig.spkiDer_of_hex hhex hcheck)
      rwa [← Option.some.inj (hpeer.symm.trans hwas)] at hhex
    | none =>
      have hnone : ∀ (other : String) (peer : PeerConfig), other ≠ name → config.peers[other]? = some peer →
          peer.spkiDerHex ≠ encodeHex key := fun other peer hne hpeer heq => by
        have hmem := Std.ExtTreeMap.mem_toList_iff_getElem?_eq_some.mpr hpeer
        have hmatch : (decide (peer.spkiDerHex = encodeHex key) && decide (other ≠ name)) = true := by simp [heq, hne]
        exact List.find?_eq_none.mp hfind (other, peer) hmem hmatch
      cases hname : config.peers[name]? with
      | none =>
        refine iff_of_true rfl fun hmem => ?_
        rw [Std.ExtTreeMap.mem_iff_isSome_getElem?, hname] at hmem
        cases hmem
      | some existing =>
        have hkey : ((existing.rekey (encodeHex key)).learnAddresses newest).2.spkiDer = .ok key :=
          PeerConfig.spkiDer_of_hex (rekey_spkiDerHex _ existing) hcheck
        have hmem : name ∈ config.peers := Std.ExtTreeMap.mem_iff_isSome_getElem?.mpr (by rw [hname]; rfl)
        refine (savedOnce_iff hkeyed hunique hkey (listed_learnAddresses newest _)).trans ?_
        constructor
        · exact fun hother _ other peer hne hpeer hpeerKey => absurd hpeerKey (hother other peer hne hpeer)
        · exact fun hspelled other peer hne hpeer hpeerKey =>
            hnone other peer hne hpeer (hspelled hmem other peer hne hpeer hpeerKey)
  · have hfail : ∃ e, replaceKey name key newest config = (.error e, config) := by
      cases hrecord : PeerConfig.fromSpki key [] .default with
      | ok record => exact absurd (PeerConfig.fromSpki_eq_ok.mp hrecord).1 hcheck
      | error e =>
        refine ⟨.config e, Act.bind_of_error ?_⟩
        rw [hrecord]
        rfl
    obtain ⟨e, hreplace⟩ := hfail
    rw [hreplace]
    exact iff_of_true rfl fun _ _ _ _ _ hkey => absurd (PeerConfig.spkiDer_eq_ok.mp hkey).2 hcheck

/-- **Trusting a computer keeps identities unique** in accepted settings, exactly when the key is saved in no other
spelling: by `trust_peer` under any name, by `replace_key` under a name of another computer. -/
theorem trusting_keeps_unique [Core.F64 F] (hvalid : config.validate = .ok ()) (hunique : UniqueKeys config)
    (name : String) (newest : List SocketAddr) :
    (TrustedOnce config key newest (trustPeer sha256 key name newest config) ↔ Spelled config key) ∧
      (ReplacedOnce config key name newest (replaceKey name key newest config) ↔ OthersSpelled config key name) :=
  have hkeyed := allKeyed_of_validate hvalid
  ⟨trust_iff hkeyed hunique name newest, replace_iff hkeyed hunique name newest⟩

/-- Settings with one computer, whose key is written as the text. -/
def oneComputer (text : String) : Config ℚ :=
  withPeer .default "desk" ⟨text, [], defaultPermissions, .standard, false, false⟩

theorem oneComputer_name {text other : String} {peer : PeerConfig} (h : (oneComputer text).peers[other]? = some peer) :
    other = "desk" ∧ peer.spkiDerHex = text := by
  unfold oneComputer at h
  rw [getElem?_withPeer] at h
  split at h
  · rename_i hname
    exact ⟨hname, (Option.some.inj h) ▸ rfl⟩
  · cases h

theorem uniqueKeys_oneComputer (text : String) : UniqueKeys (oneComputer text) := fun _ _ _ _ _ hfirst hsecond _ _ =>
  (oneComputer_name hfirst).1.trans (oneComputer_name hsecond).1.symm

theorem trusting_keeps_unique_lowercase :
    TrustedOnce (oneComputer "ab") [0xab] [] (trustPeer id [0xab] "desk" [] (oneComputer "ab")) := by
  have hvalid : (oneComputer "ab").validate = .ok () := by decide +kernel
  refine (trusting_keeps_unique hvalid (uniqueKeys_oneComputer "ab") "desk" []).1.mpr ?_
  exact fun other peer hpeer _ => (oneComputer_name hpeer).2.trans (by decide)

/-- A key written in capitals is saved a second time. -/
theorem not_saved_once_capitals : (oneComputer "AB").validate = .ok () ∧ UniqueKeys (oneComputer "AB") ∧
    ¬ TrustedOnce (oneComputer "AB") [0xab] [] (trustPeer id [0xab] "desk" [] (oneComputer "AB")) := by
  have hvalid : (oneComputer "AB").validate = .ok () := by decide +kernel
  refine ⟨hvalid, uniqueKeys_oneComputer "AB", fun h => ?_⟩
  have hspelled := (trust_iff (allKeyed_of_validate hvalid) (uniqueKeys_oneComputer "AB") "desk" []).mp h
  have hsaved : (oneComputer "AB").peers["desk"]? = some ⟨"AB", [], defaultPermissions, .standard, false, false⟩ := by
    unfold oneComputer
    rw [getElem?_withPeer, if_pos rfl]
  exact absurd (hspelled "desk" _ hsaved (by decide +kernel)) (by decide)

end Zflow.Settings
