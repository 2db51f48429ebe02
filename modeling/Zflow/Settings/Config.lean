import Zflow.Core.Keymap
import Zflow.Core.Playout
import Zflow.Lib.Firsts
import Zflow.Pairing.Neighbors

/-!
# Settings

`src/config.rs`: the settings file's data and its checks, and what a computer is saved under (`PeerConfig`). A path is its
text. The digest behind fingerprints is a parameter.
-/

namespace Zflow.Settings

open Zflow.Core Lib Pairing

/-- `CONFIG_VERSION`. -/
def configVersion : Nat := 1

/-- `MAX_LEASE`, in milliseconds. -/
def maxLease : Nat := 1000

/-- `MAX_CHECKPOINT`, in milliseconds. -/
def maxCheckpoint : Nat := 250

def maxPeerAddresses : Nat := 8

/-- `io::Error`, as far as it is told apart. -/
inductive IoError where
  | notFound
  | alreadyExists
  | isADirectory
  | other (text : String)
  deriving DecidableEq

inductive ConfigError where
  | read (path : String) (source : IoError)
  | write (path : String) (source : IoError)
  | parse (error : String)
  | serialize (error : String)
  | noParent (path : String)
  | invalidPath (path : String)
  | unsafeTarget (path : String)
  | unsupportedVersion (version : Nat)
  | invalid (message : String)
  deriving DecidableEq

/-! ## The sections -/

structure SwitchingConfig where
  /-- The pointer has to rest against an edge for a moment before it crosses. -/
  pauseAtEdges : Bool

structure ClipboardConfig where
  share : Bool

structure MacosConfig where
  sharing : Bool
  blockAwdl : Bool

structure DaemonConfig where
  sharing : Bool
  stateDir : String
  controlSocket : String

structure DeviceSelector where
  path : String
  name : Option String
  phys : Option String
  /-- Tells apart identical devices behind one Bluetooth adapter. -/
  uniq : Option String
  vendor : Option (BitVec 16)
  product : Option (BitVec 16)
  deriving DecidableEq

structure InputConfig where
  captureDevices : List DeviceSelector
  activationChord : List String
  escapeChord : List String
  allowPreloginInput : Bool
  experimentalTouchpad : Bool

structure TransportConfig where
  listen : SocketAddr
  checkpointMs : Nat
  leaseMs : Nat
  discovery : Bool

inductive PlayoutMode where
  | fixed | adaptive

structure PlayoutConfig (F : Type) where
  mode : PlayoutMode
  fixedDelayMs : Nat
  minimumDelayMs : Nat
  maximumDelayMs : Nat
  percentile : F

structure PeerPermissions where
  connect : Bool
  sendNormal : Bool
  receiveNormal : Bool
  injectPrelogin : Bool

def PeerPermissions.default : PeerPermissions := ⟨false, false, false, false⟩

structure PeerConfig where
  /-- Hex-encoded DER SubjectPublicKeyInfo pinned during authenticated pairing. -/
  spkiDerHex : String
  addresses : List SocketAddr
  permissions : PeerPermissions
  keyboard : KeyboardMode
  reverseScroll : Bool
  shareScreen : Bool

structure Config (F : Type) where
  version : Nat
  daemon : DaemonConfig
  input : InputConfig
  transport : TransportConfig
  playout : PlayoutConfig F
  peers : Std.ExtTreeMap String PeerConfig
  macos : MacosConfig
  switching : SwitchingConfig
  clipboard : ClipboardConfig

/-! ## Defaults -/

def SwitchingConfig.default : SwitchingConfig := ⟨false⟩

def ClipboardConfig.default : ClipboardConfig := ⟨false⟩

def MacosConfig.default : MacosConfig where
  sharing := true
  blockAwdl := false

def DaemonConfig.default : DaemonConfig where
  sharing := true
  stateDir := "/var/lib/zflow"
  controlSocket := "/run/zflow/zflowd.sock"

def InputConfig.default : InputConfig where
  captureDevices := []
  activationChord := ["KEY_LEFTCTRL", "KEY_LEFTMETA", "KEY_F12"]
  escapeChord := ["KEY_LEFTCTRL", "KEY_LEFTMETA", "KEY_BACKSPACE"]
  allowPreloginInput := false
  experimentalTouchpad := false

def TransportConfig.default : TransportConfig where
  listen := .v6 0 43119 0 0
  checkpointMs := 250
  leaseMs := 900
  discovery := true

def PlayoutConfig.default {F : Type} [F64 F] : PlayoutConfig F where
  mode := .adaptive
  fixedDelayMs := 8
  minimumDelayMs := 3
  maximumDelayMs := 35
  percentile := F64.div (F64.ofNat 4) (F64.ofNat 5)

def Config.default {F : Type} [F64 F] : Config F where
  version := configVersion
  daemon := .default
  input := .default
  transport := .default
  playout := .default
  peers := ∅
  macos := .default
  switching := .default
  clipboard := .default

/-! ## Keys -/

abbrev Spki := List (BitVec 8)

def validateSpki (spki : Spki) : Except ConfigError Unit :=
  refuseIf (spki.isEmpty || 2048 < spki.length) (.invalid "peer SPKI DER must contain between 1 and 2048 bytes")

/-- A digit in either case. A byte of any other character is none. -/
def hexDigit (c : Char) : Option (BitVec 8) :=
  if '0' ≤ c ∧ c ≤ '9' then some (.ofNat 8 (c.toNat - '0'.toNat))
  else if 'a' ≤ c ∧ c ≤ 'f' then some (.ofNat 8 (c.toNat - 'a'.toNat + 10))
  else if 'A' ≤ c ∧ c ≤ 'F' then some (.ofNat 8 (c.toNat - 'A'.toNat + 10))
  else none

/-- `decode_hex`, of the characters of a text: one that has a byte too many has no value either way. -/
def decodeHex : List Char → Option Spki
  | [] => some []
  | [_] => none
  | high :: low :: text => do
    let high ← hexDigit high
    let low ← hexDigit low
    let bytes ← decodeHex text
    return (high <<< 4 ||| low) :: bytes

/-- An IPv4 address in its own form; an IPv6 address keeps its interface scope. -/
def canonicalAddress (address : SocketAddr) : SocketAddr :=
  match address.ip.toCanonical with
  | .v4 ip => .v4 ip address.port
  | .v6 _ => address

namespace PeerConfig

def fromSpki (spki : Spki) (addresses : List SocketAddr) (permissions : PeerPermissions) :
    Except ConfigError PeerConfig := do
  validateSpki spki
  return ⟨encodeHex spki, addresses, permissions, .standard, false, false⟩

def spkiDer (peer : PeerConfig) : Except ConfigError Spki := do
  let spki ← match decodeHex peer.spkiDerHex.toList with
    | some spki => .ok spki
    | none => .error (.invalid "peer SPKI must be valid hexadecimal DER")
  validateSpki spki
  return spki

def fingerprintHex (sha256 : Spki → Spki) (peer : PeerConfig) : Except ConfigError String := do
  return encodeHex (sha256 (← peer.spkiDer))

/-- Puts addresses heard from just now first and keeps the newest few, one per IP: a newer port replaces an older one.
Answers whether anything changed. -/
def learnAddresses (newest : List SocketAddr) (peer : PeerConfig) : Bool × PeerConfig :=
  let learned := (Firsts.firsts SocketAddr.ip ((newest ++ peer.addresses).map canonicalAddress)).take maxPeerAddresses
  (learned ≠ peer.addresses, { peer with addresses := learned })

end PeerConfig

/-! ## Checks -/

variable {F : Type} [F64 F]

/-- `(0.5..=0.999).contains(&percentile)`. -/
def inPercentileRange (percentile : F) : Bool :=
  F64.le (F64.div (F64.ofNat 1) (F64.ofNat 2)) percentile &&
    F64.le percentile (F64.div (F64.ofNat 999) (F64.ofNat 1000))

/-- The sets of two chords: equal, or one within the other. -/
def chordsContain (activation escape : List String) : Bool :=
  activation ⊆ escape ∧ escape ⊆ activation ∨ activation ⊆ escape ∨ escape ⊆ activation

namespace Config

def validate (c : Config F) : Except ConfigError Unit := do
  refuseIf (c.version ≠ configVersion) (.unsupportedVersion c.version)
  refuseIf (c.transport.listen.port = 0) (.invalid "transport.listen port must be non-zero")
  refuseIf (!(1 ≤ c.transport.leaseMs && c.transport.leaseMs ≤ maxLease))
    (.invalid "transport.lease_ms must be between 1 and 1000")
  refuseIf (!(1 ≤ c.transport.checkpointMs && c.transport.checkpointMs ≤ maxCheckpoint))
    (.invalid "transport.checkpoint_ms must be between 1 and 250")
  refuseIf (c.input.activationChord.isEmpty || c.input.escapeChord.isEmpty)
    (.invalid "activation and escape chords cannot be empty")
  refuseIf (!(c.input.activationChord.Nodup ∧ c.input.escapeChord.Nodup : Bool))
    (.invalid "input chords cannot contain duplicates")
  refuseIf (chordsContain c.input.activationChord c.input.escapeChord)
    (.invalid "activation and escape chords cannot contain one another")
  refuseIf (!(c.input.captureDevices.Nodup : Bool)) (.invalid "capture devices must be unique")
  refuseIf (!inPercentileRange c.playout.percentile) (.invalid "playout.percentile must be between 0.5 and 0.999")
  refuseIf (c.playout.maximumDelayMs < c.playout.minimumDelayMs)
    (.invalid "playout.minimum_delay_ms cannot exceed maximum_delay_ms")
  c.peers.toList.forM fun entry => do
    let _ ← entry.2.spkiDer

end Config

end Zflow.Settings
