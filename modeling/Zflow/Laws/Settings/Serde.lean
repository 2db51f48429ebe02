import Std.Data.String.ToNat
import Zflow.Laws.Core.Rational
import Zflow.Laws.Settings.Toml
import Zflow.Settings.Serde

/-!
# Saving writes exactly the draft

Every section of the settings is lawful (`Shape.Lawful`): read from a patched file it is the draft's. So a file that is
rendered parses to the draft (`render_exact`), unless an address has a flow label, which is not written.
-/

namespace Zflow.Settings

open Zflow.Core Lib Pairing Serde

variable {F : Type}

/-! ## Scalars -/

/-- The address has no flow label. -/
def Flowless : SocketAddr → Prop
  | .v4 _ _ => True
  | .v6 _ _ flowinfo _ => flowinfo = 0

/-- What is relied on of an address's text: it reads back, without its flow label. -/
structure AddressText.Lawful (addresses : AddressText) : Prop where
  fromStr_toString : ∀ {address}, Flowless address → addresses.fromStr (addresses.toString address) = some address
  flowless : ∀ {text address}, addresses.fromStr text = some address → Flowless address

section Scalars

theorem string_flat : (string : Shape (Scalar F) String).Flat := nofun

theorem string_lawful : (string : Shape (Scalar F) String).Lawful fun _ => True :=
  .of_flat string_flat (fun _ => .scalar _) (fun _ => rfl) fun _ => trivial

theorem boolean_flat : (boolean : Shape (Scalar F) Bool).Flat := nofun

theorem boolean_lawful : (boolean : Shape (Scalar F) Bool).Lawful fun _ => True :=
  .of_flat boolean_flat (fun _ => .scalar _) (fun _ => rfl) fun _ => trivial

theorem unsigned_flat {bits : Nat} : (unsigned bits : Shape (Scalar F) Nat).Flat := nofun

theorem unsigned_lawful {bits : Nat} : (unsigned bits : Shape (Scalar F) Nat).Lawful (· < 2 ^ bits) := by
  refine .of_flat unsigned_flat (fun _ => .scalar _) (fun {n} hn => ?_) (fun {data n} hread => ?_)
  · have hrange : (0 : Int) ≤ n ∧ (n : Int) < 2 ^ bits := ⟨by omega, by exact_mod_cast hn⟩
    exact if_pos hrange
  · unfold unsigned at hread
    dsimp only at hread
    split at hread
    · split at hread
      case isTrue hrange =>
        cases hread
        zify
        omega
      case isFalse => cases hread
    · cases hread

theorem u16_flat : (u16 : Shape (Scalar F) (BitVec 16)).Flat := nofun

theorem u16_lawful : (u16 : Shape (Scalar F) (BitVec 16)).Lawful fun _ => True := by
  refine .of_flat u16_flat (fun _ => .scalar _) (fun {value} _ => ?_) fun _ => trivial
  have hread := (unsigned_lawful (F := F)).read_write value.isLt
  unfold u16
  dsimp only
  rw [hread, Option.map_some, BitVec.ofNat_toNat, BitVec.setWidth_eq]

theorem float_flat [F64 F] : (float : Shape (Scalar F) F).Flat := nofun

theorem float_lawful [F64 F] : (float : Shape (Scalar F) F).Lawful fun _ => True :=
  .of_flat float_flat (fun _ => .scalar _) (fun _ => rfl) fun _ => trivial

theorem variant_flat {α : Type} {parse : String → Option α} {name : α → String} :
    (variant parse name : Shape (Scalar F) α).Flat := nofun

theorem variant_lawful {α : Type} {parse : String → Option α} {name : α → String} (h : ∀ value, parse (name value) = some value) :
    (variant parse name : Shape (Scalar F) α).Lawful fun _ => True :=
  .of_flat variant_flat (fun _ => .scalar _) (fun {value} _ => h value) fun _ => trivial

theorem playoutMode_lawful : (playoutMode : Shape (Scalar F) PlayoutMode).Lawful fun _ => True :=
  variant_lawful fun mode => by cases mode <;> rfl

theorem keyboardMode_lawful : (keyboardMode : Shape (Scalar F) KeyboardMode).Lawful fun _ => True :=
  variant_lawful fun mode => by cases mode <;> rfl

theorem address_flat {addresses : AddressText} : (address addresses : Shape (Scalar F) SocketAddr).Flat := nofun

theorem address_lawful {addresses : AddressText} (h : addresses.Lawful) :
    (address addresses : Shape (Scalar F) SocketAddr).Lawful Flowless := by
  refine .of_flat address_flat (fun _ => .scalar _) (fun hvalue => h.fromStr_toString hvalue) fun {data value} hread => ?_
  unfold address at hread
  dsimp only at hread
  split at hread
  · exact h.flowless hread
  · cases hread

end Scalars

/-! ## Sections -/

section Sections

theorem boolean_orDefault (default : Bool) : (boolean.orDefault default : Member (Scalar F) Bool).Lawful fun _ => True :=
  boolean_lawful.orDefault boolean_flat trivial

theorem boolean_skipping (default : Bool) : (boolean.skipping default : Member (Scalar F) Bool).Lawful fun _ => True :=
  boolean_lawful.skipping boolean_flat trivial

theorem string_orDefault (default : String) : (string.orDefault default : Member (Scalar F) String).Lawful fun _ => True :=
  string_lawful.orDefault string_flat trivial

theorem unsigned_orDefault {bits default : Nat} (h : default < 2 ^ bits) :
    ((unsigned bits).orDefault default : Member (Scalar F) Nat).Lawful (· < 2 ^ bits) :=
  unsigned_lawful.orDefault unsigned_flat h

theorem string_optional : (string.optional : Member (Scalar F) (Option String)).Lawful fun value => ∀ a ∈ value, True :=
  string_lawful.optional string_flat

theorem u16_optional : (u16.optional : Member (Scalar F) (Option (BitVec 16))).Lawful fun value => ∀ a ∈ value, True :=
  u16_lawful.optional u16_flat

theorem SwitchingConfig.lawful : (SwitchingConfig.fields : Fields (Scalar F) SwitchingConfig).Lawful fun _ => True := by
  refine .of_iff (.map (.cons (by simp) (boolean_orDefault _) .nil) _) fun _ => ?_
  simp

theorem ClipboardConfig.lawful : (ClipboardConfig.fields : Fields (Scalar F) ClipboardConfig).Lawful fun _ => True := by
  refine .of_iff (.map (.cons (by simp) (boolean_orDefault _) .nil) _) fun _ => ?_
  simp

theorem MacosConfig.lawful : (MacosConfig.fields : Fields (Scalar F) MacosConfig).Lawful fun _ => True := by
  refine .of_iff (.map (.cons (by simp) (boolean_orDefault _) <| .cons (by simp) (boolean_orDefault _) .nil) _) fun _ => ?_
  simp

theorem DaemonConfig.lawful : (DaemonConfig.fields : Fields (Scalar F) DaemonConfig).Lawful fun _ => True := by
  refine .of_iff (.map (.cons (by simp) (boolean_orDefault _) <| .cons (by simp) (string_orDefault _) <|
    .cons (by simp) (string_orDefault _) .nil) _) fun _ => ?_
  simp

theorem DeviceSelector.lawful : (DeviceSelector.fields : Fields (Scalar F) DeviceSelector).Lawful fun _ => True := by
  refine .of_iff (.map (.cons (by simp) (string_lawful.required string_flat) <| .cons (by simp) string_optional <|
    .cons (by simp) string_optional <| .cons (by simp) string_optional <| .cons (by simp) u16_optional <|
    .cons (by simp) u16_optional .nil) _) fun _ => ?_
  simp

theorem InputConfig.lawful : (InputConfig.fields : Fields (Scalar F) InputConfig).Lawful fun _ => True := by
  have hdevices := DeviceSelector.lawful (F := F) |>.shape.listOf.orDefault Shape.listOf_flat
    (fun _ _ => trivial : ∀ a ∈ InputConfig.default.captureDevices, True)
  have hchord : ∀ default : List String, (string.listOf.orDefault default : Member (Scalar F) (List String)).Lawful
      fun chord => ∀ a ∈ chord, True := fun default => string_lawful.listOf.orDefault Shape.listOf_flat fun _ _ => trivial
  refine .of_iff (.map (.cons (by simp) hdevices <| .cons (by simp) (hchord _) <| .cons (by simp) (hchord _) <|
    .cons (by simp) (boolean_orDefault _) <| .cons (by simp) (boolean_orDefault _) .nil) _) fun _ => ?_
  simp

/-- The numbers fit their types, and the address has no flow label. -/
structure TransportConfig.Fits (config : TransportConfig) : Prop where
  listen : Flowless config.listen
  checkpointMs : config.checkpointMs < 2 ^ 64
  leaseMs : config.leaseMs < 2 ^ 64

structure PlayoutConfig.Fits (config : PlayoutConfig F) : Prop where
  fixedDelayMs : config.fixedDelayMs < 2 ^ 64
  minimumDelayMs : config.minimumDelayMs < 2 ^ 64
  maximumDelayMs : config.maximumDelayMs < 2 ^ 64

def PeerConfig.Fits (peer : PeerConfig) : Prop := ∀ address ∈ peer.addresses, Flowless address

structure Config.Fits (config : Config F) : Prop where
  version : config.version < 2 ^ 32
  transport : config.transport.Fits
  playout : config.playout.Fits
  peers : ∀ (name : String) (peer : PeerConfig), config.peers[name]? = some peer → peer.Fits

theorem TransportConfig.default_fits : TransportConfig.default.Fits := ⟨rfl, by decide, by decide⟩

theorem PlayoutConfig.default_fits [F64 F] : (PlayoutConfig.default : PlayoutConfig F).Fits :=
  ⟨show 8 < 2 ^ 64 by decide, show 3 < 2 ^ 64 by decide, show 35 < 2 ^ 64 by decide⟩

variable {addresses : AddressText}

theorem TransportConfig.lawful (h : addresses.Lawful) :
    (TransportConfig.fields addresses : Fields (Scalar F) TransportConfig).Lawful TransportConfig.Fits := by
  have hlisten := (address_lawful (F := F) h).orDefault address_flat TransportConfig.default_fits.listen
  refine .of_iff (.map (.cons (by simp) hlisten <|
    .cons (by simp) (unsigned_orDefault TransportConfig.default_fits.checkpointMs) <|
    .cons (by simp) (unsigned_orDefault TransportConfig.default_fits.leaseMs) <|
    .cons (by simp) (boolean_orDefault _) .nil) _) fun config => ?_
  exact ⟨fun h => ⟨h.listen, h.checkpointMs, h.leaseMs, trivial, trivial⟩, fun h => ⟨h.1, h.2.1, h.2.2.1⟩⟩

theorem PlayoutConfig.lawful [F64 F] : (PlayoutConfig.fields : Fields (Scalar F) (PlayoutConfig F)).Lawful PlayoutConfig.Fits := by
  have hmode : ∀ default, (playoutMode.orDefault default : Member (Scalar F) PlayoutMode).Lawful fun _ => True := fun _ =>
    playoutMode_lawful.orDefault variant_flat trivial
  have hpercentile : ∀ default : F, (float.orDefault default : Member (Scalar F) F).Lawful fun _ => True := fun _ =>
    float_lawful.orDefault float_flat trivial
  refine .of_iff (.map (.cons (by simp) (hmode _) <|
    .cons (by simp) (unsigned_orDefault PlayoutConfig.default_fits.fixedDelayMs) <|
    .cons (by simp) (unsigned_orDefault PlayoutConfig.default_fits.minimumDelayMs) <|
    .cons (by simp) (unsigned_orDefault PlayoutConfig.default_fits.maximumDelayMs) <|
    .cons (by simp) (hpercentile _) .nil) _) fun config => ?_
  exact ⟨fun h => ⟨trivial, h.fixedDelayMs, h.minimumDelayMs, h.maximumDelayMs, trivial, trivial⟩,
    fun h => ⟨h.2.1, h.2.2.1, h.2.2.2.1⟩⟩

theorem PeerPermissions.lawful : (PeerPermissions.fields : Fields (Scalar F) PeerPermissions).Lawful fun _ => True := by
  refine .of_iff (.map (.cons (by simp) (boolean_orDefault _) <| .cons (by simp) (boolean_orDefault _) <|
    .cons (by simp) (boolean_orDefault _) <| .cons (by simp) (boolean_orDefault _) .nil) _) fun _ => ?_
  simp

theorem PeerConfig.lawful (h : addresses.Lawful) :
    (PeerConfig.fields addresses : Fields (Scalar F) PeerConfig).Lawful PeerConfig.Fits := by
  have haddresses := (address_lawful (F := F) h).listOf.orDefault Shape.listOf_flat
    (fun _ hmem => absurd hmem List.not_mem_nil : ∀ a ∈ [], Flowless a)
  have hpermissions := (PeerPermissions.lawful (F := F)).shape.orDefault_of_empty
    (Fields.read_shape_empty : _ = some PeerPermissions.default)
  have hkeyboard : (keyboardMode.skipping .standard : Member (Scalar F) KeyboardMode).Lawful fun _ => True :=
    keyboardMode_lawful.skipping variant_flat trivial
  refine .of_iff (.map (.cons (by simp) (string_lawful.required string_flat) <| .cons (by simp) haddresses <|
    .cons (by simp) hpermissions <| .cons (by simp) hkeyboard <| .cons (by simp) (boolean_skipping _) <|
    .cons (by simp) (boolean_skipping _) .nil) _) fun peer => ?_
  exact ⟨fun h => ⟨trivial, h, trivial, trivial, trivial, trivial, trivial⟩, fun h => h.2.1⟩

theorem Config.lawful [F64 F] (h : addresses.Lawful) :
    (Config.fields addresses : Fields (Scalar F) (Config F)).Lawful Config.Fits := by
  have hversion := unsigned_orDefault (F := F) (show configVersion < 2 ^ 32 by decide)
  have hdaemon := (DaemonConfig.lawful (F := F)).shape.orDefault_of_empty
    (Fields.read_shape_empty : _ = some (Config.default : Config F).daemon)
  have hinput := (InputConfig.lawful (F := F)).shape.orDefault_of_empty
    (Fields.read_shape_empty : _ = some (Config.default : Config F).input)
  have htransport := (TransportConfig.lawful (F := F) h).shape.orDefault_of_empty
    (Fields.read_shape_empty : _ = some (Config.default : Config F).transport)
  have hplayout := (PlayoutConfig.lawful (F := F)).shape.orDefault_of_empty
    (Fields.read_shape_empty : _ = some (Config.default : Config F).playout)
  have hpeers := ((PeerConfig.lawful (F := F) h).shape.mapOf Fields.read_shape_empty).orDefault_of_empty
    (Shape.read_mapOf_empty : _ = some (Config.default : Config F).peers)
  have hmacos := (MacosConfig.lawful (F := F)).shape.orDefault_of_empty
    (Fields.read_shape_empty : _ = some (Config.default : Config F).macos)
  have hswitching := (SwitchingConfig.lawful (F := F)).shape.orDefault_of_empty
    (Fields.read_shape_empty : _ = some (Config.default : Config F).switching)
  have hclipboard := (ClipboardConfig.lawful (F := F)).shape.orDefault_of_empty
    (Fields.read_shape_empty : _ = some (Config.default : Config F).clipboard)
  refine .of_iff (.map (.cons (by simp) hversion <| .cons (by simp) hdaemon <| .cons (by simp) hinput <|
    .cons (by simp) htransport <| .cons (by simp) hplayout <| .cons (by simp) hpeers <| .cons (by simp) hmacos <|
    .cons (by simp) hswitching <| .cons (by simp) hclipboard .nil) _) fun config => ?_
  exact ⟨fun h => ⟨h.version, trivial, trivial, h.transport, h.playout, h.peers, trivial, trivial, trivial, trivial⟩,
    fun h => ⟨h.1, h.2.2.2.1, h.2.2.2.2.1, h.2.2.2.2.2.1⟩⟩

end Sections

/-! ## Saving -/

section Render

variable [F64 F] {Text : Type} [DecidableEq Text] {crates : Toml.Crates (Scalar F) Text} {addresses : AddressText}
variable {leaf : Data (Scalar F) → Toml.Item (Scalar F)} {draft saved : Config F} {disk text : Text}

omit [DecidableEq Text] in
theorem Config.fromStr_eq_some {config : Config F} : Config.fromStr crates addresses text = some config ↔
    ∃ entries, crates.parse text = .ok entries ∧
      (Config.fields addresses).shape.read (.ofContent (Toml.content entries)) = some config := by
  simp [Config.fromStr, Option.bind_eq_some_iff, toOption_eq_some]

/-- **A file that is saved parses to exactly the draft**, and every key outside arrays whose value is the same in both
serializations keeps its text. -/
theorem render_exact (hcrates : Toml.Consistent crates leaf) (haddresses : addresses.Lawful)
    (hsaved : Config.fromStr crates addresses disk = some saved) (hdraft : draft.Fits)
    (hrender : Config.render crates addresses draft saved (some disk) = .ok text) :
    Config.fromStr crates addresses text = some draft ∧
      ∃ document merged, crates.parse disk = .ok document ∧ text = crates.print merged ∧
        ∀ path found, Toml.SameAt ((Config.fields addresses).content saved) ((Config.fields addresses).content draft) path →
          Toml.entryAt path document = some found → Toml.entryAt path merged = some found := by
  have hlawful := (Config.lawful (F := F) haddresses).shape
  obtain ⟨document, merged, read, hdocument, htext, hread, hpatched, hkept⟩ :=
    Toml.render_patches hcrates (hlawful.write_proper draft) (hlawful.write_proper saved) hrender
  obtain ⟨_, hparse, hdisk⟩ := Config.fromStr_eq_some.mp hsaved
  obtain rfl := Except.ok.inj (hparse.symm.trans hdocument)
  refine ⟨Config.fromStr_eq_some.mpr ⟨read, hread, ?_⟩, _, merged, hdocument, htext, hkept⟩
  exact hlawful.inside rfl rfl hdisk hdraft hpatched

end Render

/-! ## Files that show it -/

section Files

/-- An address as a number, without its flow label. -/
def addressNumber : SocketAddr → Nat
  | .v4 ip port => 2 * (ip.toNat * 2 ^ 16 + port.toNat)
  | .v6 ip port _ scopeId => 2 * ((ip.toNat * 2 ^ 16 + port.toNat) * 2 ^ 32 + scopeId.toNat) + 1

def addressOfNumber (number : Nat) : SocketAddr :=
  if number % 2 = 0 then .v4 (.ofNat 32 (number / 2 / 2 ^ 16)) (.ofNat 16 (number / 2))
  else .v6 (.ofNat 128 (number / 2 / 2 ^ 32 / 2 ^ 16)) (.ofNat 16 (number / 2 / 2 ^ 32)) 0 (.ofNat 32 (number / 2))

/-- The unspecified address in its own form, and any other as its number. -/
def numbered : AddressText where
  toString address := if address = TransportConfig.default.listen then "[::]:43119" else (addressNumber address).repr
  fromStr text := if text = "[::]:43119" then some TransportConfig.default.listen else text.toNat?.map addressOfNumber

theorem ofNat_eq {w number : Nat} {value : BitVec w} (h : number % 2 ^ w = value.toNat) : BitVec.ofNat w number = value :=
  BitVec.eq_of_toNat_eq ((BitVec.toNat_ofNat number w).trans h)

theorem addressOfNumber_addressNumber {address : SocketAddr} (h : Flowless address) :
    addressOfNumber (addressNumber address) = address := by
  cases address with
  | v4 ip port =>
    have hip := ip.isLt
    have hport := port.isLt
    have hnumber : addressNumber (.v4 ip port) = 2 * (ip.toNat * 2 ^ 16 + port.toNat) := rfl
    rw [hnumber, addressOfNumber, if_pos (by omega)]
    exact congrArg₂ _ (ofNat_eq (by omega)) (ofNat_eq (by omega))
  | v6 ip port flowinfo scopeId =>
    obtain rfl : flowinfo = 0 := h
    have hip := ip.isLt
    have hport := port.isLt
    have hscope := scopeId.isLt
    have hnumber : addressNumber (.v6 ip port 0 scopeId) =
        2 * ((ip.toNat * 2 ^ 16 + port.toNat) * 2 ^ 32 + scopeId.toNat) + 1 := rfl
    rw [hnumber, addressOfNumber, if_neg (by omega), SocketAddr.v6.injEq]
    exact ⟨ofNat_eq (by omega), ofNat_eq (by omega), rfl, ofNat_eq (by omega)⟩

theorem numbered_lawful : numbered.Lawful where
  fromStr_toString {address} h := by
    by_cases hlisten : address = TransportConfig.default.listen
    · subst hlisten
      rfl
    · have hnumber : (addressNumber address).repr ≠ "[::]:43119" := fun heq => by
        have hmem : '[' ∈ (addressNumber address).repr.toList := heq ▸ List.mem_cons_self
        rw [Nat.toList_repr] at hmem
        exact absurd (Nat.isDigit_of_mem_toDigits (by decide) (by decide) hmem) (by decide)
      have hstring : numbered.toString address = (addressNumber address).repr := if_neg hlisten
      rw [hstring]
      refine (if_neg hnumber).trans ?_
      rw [Nat.toNat?_repr, Option.map_some, addressOfNumber_addressNumber h]
  flowless {text address} h := by
    unfold numbered at h
    dsimp only at h
    split at h
    · cases h
      rfl
    · obtain ⟨number, -, rfl⟩ := Option.map_eq_some_iff.mp h
      unfold addressOfNumber
      split <;> trivial

open Toml in
/-- A file with comments. -/
def commentedFile : Entries (Scalar ℚ) :=
  [(⟨"version", some "# My desk\nversion "⟩, .scalar (.integer 1) (some "1") ⟨some " ", none⟩),
    (⟨"macos", some "macos"⟩, .table
      [(⟨"block_awdl", some "block_awdl "⟩, .scalar (.boolean false) (some "false") ⟨some " ", some " # radio"⟩)]
      ⟨⟨some "\n", none⟩, false, false⟩)]

/-- The default settings, with the radio blocked. -/
def blockedRadio : Config ℚ := { Config.default with macos := { MacosConfig.default with blockAwdl := true } }

open Classical Toml in
theorem render_exact_commented : ∃ text, Config.render treeCrates numbered blockedRadio .default (some commentedFile) = .ok text ∧
    Config.fromStr treeCrates numbered text = some blockedRadio ∧
    entryAt ["version"] text = entryAt ["version"] commentedFile := by
  have hsaved : Config.fromStr treeCrates numbered commentedFile = some (Config.default : Config ℚ) := rfl
  have hdraft : blockedRadio.Fits :=
    ⟨show configVersion < 2 ^ 32 by decide, TransportConfig.default_fits, PlayoutConfig.default_fits, fun _ _ h => by
      simp [blockedRadio, Config.default] at h⟩
  obtain ⟨text, hrender⟩ :
      ∃ text, Config.render treeCrates numbered blockedRadio .default (some commentedFile) = .ok text := ⟨_, rfl⟩
  obtain ⟨hread, document, merged, hdocument, htext, hkept⟩ :=
    render_exact treeCrates_consistent numbered_lawful hsaved hdraft hrender
  obtain rfl : commentedFile = document := Except.ok.inj hdocument
  obtain rfl : text = merged := htext
  refine ⟨text, hrender, hread, hkept ["version"] _ (.here ?_) rfl⟩
  rw [Fields.getElem?_content, Fields.getElem?_content]
  rfl

/-! ### What the settings do not keep -/

/-- A step to a key: to a member of a table, or to an element of an array. -/
inductive Step where
  | name (name : String)
  | index (index : Nat)

/-- The value at a path. -/
def valueAt {S : Type} : List Step → Data S → Option (Data S)
  | [], data => some data
  | .name name :: rest, .table fields => (fields.lookup name).bind (valueAt rest)
  | .index index :: rest, .array items => items[index]?.bind (valueAt rest)
  | _, _ => none

/-- The elements of an array, or of an array of tables. -/
def elements {S : Type} : Toml.Item S → List (Toml.Item S)
  | .array items _ _ => items
  | .arrayOfTables tables => tables
  | _ => []

/-- The key at a path, with its value. -/
def keyAt {S : Type} : List Step → Toml.Item S → Option (Toml.Key × Toml.Item S)
  | [.name name], item => item.asTableLike.bind (Toml.entry name)
  | .name name :: rest, item => (item.asTableLike.bind (Toml.get name)).bind (keyAt rest)
  | .index index :: rest, item => (elements item)[index]?.bind (keyAt rest)
  | [], _ => none

theorem keyAt_table {S : Type} {first second : String} {step : Step} {rest : List Step} {entries : Toml.Entries S}
    {head : Toml.Head} {found : Toml.Key × Toml.Item S} (h : Toml.entryAt [first, second] entries = some found) :
    keyAt (.name first :: .name second :: step :: rest) (.table entries head) = keyAt (step :: rest) found.2 := by
  obtain ⟨table, htable, hfound⟩ := Option.bind_eq_some_iff.mp h
  obtain ⟨outer, houter, hinner⟩ := Option.bind_eq_some_iff.mp htable
  have hfirst : Toml.get first entries = some outer.2 := by rw [Toml.get, houter, Option.map_some]
  have hsecond : Toml.get second table = some found.2 := by
    rw [Toml.get, show Toml.entry second table = some found from hfound, Option.map_some]
  show ((some entries).bind (Toml.get first)).bind _ = _
  rw [Option.bind_some, hfirst, Option.bind_some]
  show (outer.2.asTableLike.bind (Toml.get second)).bind _ = _
  rw [hinner, Option.bind_some, hsecond, Option.bind_some]

open Toml in
/-- A file that is saved parses to the draft, whatever draft passes the checks. -/
def ParsesToDraft : Prop := ∀ (Text : Type) (_ : DecidableEq Text) (crates : Crates (Scalar ℚ) Text)
  (leaf : Data (Scalar ℚ) → Item (Scalar ℚ)) (addresses : AddressText) (parseChord : List String → Except String Unit)
  (saved draft : Config ℚ) (disk text : Text), Consistent crates leaf → addresses.Lawful →
    Config.fromStr crates addresses disk = some saved → draft.checkSave parseChord = .ok () →
    Config.render crates addresses draft saved (some disk) = .ok text → Config.fromStr crates addresses text = some draft

open Toml in
/-- Every key of the file whose value is the same in both serializations keeps its text, also in arrays. -/
def KeepsEveryKey : Prop := ∀ (Text : Type) (_ : DecidableEq Text) (crates : Crates (Scalar ℚ) Text)
  (leaf : Data (Scalar ℚ) → Item (Scalar ℚ)) (addresses : AddressText) (parseChord : List String → Except String Unit)
  (saved draft : Config ℚ) (disk text : Text) (document : Entries (Scalar ℚ)), Consistent crates leaf → addresses.Lawful →
    Config.fromStr crates addresses disk = some saved → draft.checkSave parseChord = .ok () →
    Config.render crates addresses draft saved (some disk) = .ok text → crates.parse disk = .ok document →
    ∃ merged, text = crates.print merged ∧
      ∀ path value found, valueAt path ((Config.fields addresses).shape.write saved) = some value →
        valueAt path ((Config.fields addresses).shape.write draft) = some value →
        keyAt path (.table document .new) = some found → keyAt path (.table merged .new) = some found

/-- The default settings, listening on an address with a flow label. -/
def labelled : Config ℚ :=
  { Config.default with transport := { TransportConfig.default with listen := .v6 0 43119 1 0 } }

open Classical Toml in
theorem not_parsesToDraft : ¬ ParsesToDraft := by
  intro hall
  have hcheck : labelled.checkSave (fun _ => .ok ()) = .ok () := by decide +kernel
  obtain ⟨text, hrender⟩ : ∃ text, Config.render treeCrates numbered labelled .default (some []) = .ok text := ⟨_, rfl⟩
  have hread := hall _ inferInstance treeCrates valueOf numbered _ .default labelled [] text treeCrates_consistent
    numbered_lawful rfl hcheck hrender
  obtain ⟨entries, -, hread⟩ := Config.fromStr_eq_some.mp hread
  have hfits := (Config.lawful numbered_lawful).shape.read_valid hread
  exact absurd hfits.transport.listen (show ¬ (1 : BitVec 32) = 0 by decide)

def trackpad : DeviceSelector := ⟨"/dev/input/event1", none, none, none, none, none⟩

def touchscreen : DeviceSelector := ⟨"/dev/input/event2", none, none, none, none, none⟩

/-- The default settings, with devices. -/
def capturing (devices : List DeviceSelector) : Config ℚ :=
  { Config.default with input := { InputConfig.default with captureDevices := devices } }

/-- A device's path, as the user has written it. -/
def trackpadEntry : Toml.Key × Toml.Item (Scalar ℚ) :=
  (⟨"path", some "path "⟩, .scalar (.string "/dev/input/event1") (some "'/dev/input/event1'") ⟨some " ", some " # trackpad"⟩)

/-- What is written of the devices. -/
def writtenDevices (devices : List DeviceSelector) : Data (Scalar ℚ) := DeviceSelector.fields.shape.listOf.write devices

theorem devices_eq (input : InputConfig) :
    (InputConfig.fields.content input)["capture_devices"]? = some (writtenDevices input.captureDevices) := by
  rw [Fields.getElem?_content]
  rfl

theorem input_eq (config : Config ℚ) :
    ((Config.fields numbered).content config)["input"]? = some (.ofContent (InputConfig.fields.content config.input)) := by
  rw [Fields.getElem?_content]
  rfl

/-- A file with one element in an array of tables. -/
def trackpadFile : Toml.Entries (Scalar ℚ) :=
  [(.new "input", .table [(.new "capture_devices", .arrayOfTables [.table [trackpadEntry] .new])] ⟨.none, true, false⟩)]

open Classical Toml in
/-- The array differs, so a new one takes its place, with new keys. -/
theorem entryAt_devices {text : Entries (Scalar ℚ)} (hrender : Config.render treeCrates numbered
    (capturing [trackpad, touchscreen]) (capturing [trackpad]) (some trackpadFile) = .ok text) :
    entryAt ["input", "capture_devices"] text =
      some (.new "capture_devices", valueOf (writtenDevices [trackpad, touchscreen])) := by
  have hlawful : (Config.fields numbered : Fields (Scalar ℚ) (Config ℚ)).shape.Lawful Config.Fits :=
    (Config.lawful numbered_lawful).shape
  obtain ⟨hbefore, hsaid⟩ := printed_treeOf (hlawful.write_proper (capturing [trackpad]))
  obtain ⟨hafter, hsaid'⟩ := printed_treeOf (hlawful.write_proper (capturing [trackpad, touchscreen]))
  have hplain : Plain (writtenDevices [trackpad, touchscreen]) :=
    ⟨(DeviceSelector.lawful.shape.listOf).write_proper _, nofun⟩
  have hinput := input_eq (capturing [trackpad])
  have hinput' := input_eq (capturing [trackpad, touchscreen])
  rw [Data.ofContent_injective (eq_of_hide_eq_some hsaid)] at hinput
  rw [Data.ofContent_injective (eq_of_hide_eq_some hsaid')] at hinput'
  have hdevices := devices_eq (capturing [trackpad]).input
  have hdevices' := devices_eq (capturing [trackpad, touchscreen]).input
  have hne : (InputConfig.fields.content (capturing [trackpad]).input)["capture_devices"]? ≠
      some (writtenDevices [trackpad, touchscreen]) := by
    rw [hdevices]
    exact fun heq => nomatch heq
  obtain rfl := Except.ok.inj hrender
  exact entryAt_mergeChanges_of_plain treeCrates_consistent hbefore hafter hplain hinput hinput' hdevices' hne
    (rfl : entry "input" trackpadFile = some (.new "input", _)) rfl

open Classical Toml in
theorem not_keepsEveryKey : ¬ KeepsEveryKey := by
  intro hall
  have hcheck : (capturing [trackpad, touchscreen]).checkSave (fun _ => .ok ()) = .ok () := by decide +kernel
  obtain ⟨text, hrender⟩ : ∃ text, Config.render treeCrates numbered (capturing [trackpad, touchscreen]) (capturing [trackpad])
    (some trackpadFile) = .ok text := ⟨_, rfl⟩
  obtain ⟨merged, htext, hkept⟩ := hall _ inferInstance treeCrates valueOf numbered _ (capturing [trackpad])
    (capturing [trackpad, touchscreen]) trackpadFile text trackpadFile treeCrates_consistent numbered_lawful rfl hcheck hrender rfl
  obtain rfl : text = merged := htext
  have hkey := hkept [.name "input", .name "capture_devices", .index 0, .name "path"] (.scalar (.string "/dev/input/event1"))
    trackpadEntry rfl rfl rfl
  have hnew : keyAt [.index 0, .name "path"] (valueOf (writtenDevices [trackpad, touchscreen])) =
      some (.new "path", valueOf (.scalar (.string "/dev/input/event1"))) := rfl
  have hwritten := (hnew.symm.trans (keyAt_table (entryAt_devices hrender)).symm).trans hkey
  have htext : (none : Option String) = some "path " := congrArg (·.1.text) (Option.some.inj hwritten)
  cases htext

/-- **A flow label and the keys inside an array are not kept**, so saving does not write exactly every draft and nothing else. -/
theorem not_saved_exactly : ¬ ParsesToDraft ∧ ¬ KeepsEveryKey :=
  ⟨not_parsesToDraft, not_keepsEveryKey⟩

end Files

end Zflow.Settings
