import Zflow.Core.Sender
import Zflow.Settings.Config
import Zflow.Settings.Toml

/-!
# The settings as data

How `serde` reads and writes `Config`, by the attributes in `src/config.rs`: a field that is missing is its default, no other
names are accepted, and a peer's fields that are at their default are left out. A section may also be an array of its fields
in order. How an address is written is not this program's (`AddressText`).
-/

namespace Zflow.Settings

open Zflow.Core Lib Pairing

/-- A scalar of TOML. -/
inductive Scalar (F : Type) where
  | string (text : String)
  | integer (value : Int)
  | float (value : F)
  | boolean (value : Bool)
  | datetime (text : String)

/-- `SocketAddr` as text: `to_string` and `from_str`. -/
structure AddressText where
  toString : SocketAddr → String
  fromStr : String → Option SocketAddr

variable {F : Type}

/-! ## Scalars -/

namespace Serde

def string : Shape (Scalar F) String where
  read
    | .scalar (.string text) => some text
    | _ => none
  write text := .scalar (.string text)

def boolean : Shape (Scalar F) Bool where
  read
    | .scalar (.boolean value) => some value
    | _ => none
  write value := .scalar (.boolean value)

/-- An unsigned integer of `bits` bits. -/
def unsigned (bits : Nat) : Shape (Scalar F) Nat where
  read
    | .scalar (.integer value) => if 0 ≤ value ∧ value < 2 ^ bits then some value.toNat else none
    | _ => none
  write value := .scalar (.integer value)

def u16 : Shape (Scalar F) (BitVec 16) where
  read data := ((unsigned 16).read data).map (BitVec.ofNat 16)
  write value := (unsigned 16).write value.toNat

def float [F64 F] : Shape (Scalar F) F where
  read
    | .scalar (.float value) => some value
    | .scalar (.integer value) => some (F64.ofInt value)
    | _ => none
  write value := .scalar (.float value)

/-- An enumeration's variant: its name, alone or over nothing. -/
def variant {α : Type} (parse : String → Option α) (name : α → String) : Shape (Scalar F) α where
  read
    | .scalar (.string text) => parse text
    | .table [(text, .table [])] => parse text
    | .table [(text, .array [])] => parse text
    | _ => none
  write value := .scalar (.string (name value))

def address (addresses : AddressText) : Shape (Scalar F) SocketAddr where
  read
    | .scalar (.string text) => addresses.fromStr text
    | _ => none
  write value := .scalar (.string (addresses.toString value))

def playoutMode : Shape (Scalar F) PlayoutMode :=
  variant
    (fun
      | "fixed" => some .fixed
      | "adaptive" => some .adaptive
      | _ => none)
    (fun
      | .fixed => "fixed"
      | .adaptive => "adaptive")

/-- The file also takes the command line's spelling of the second. -/
def keyboardMode : Shape (Scalar F) KeyboardMode :=
  variant
    (fun
      | "standard" => some .standard
      | "pc_positions" => some .pcPositions
      | "pc-positions" => some .pcPositions
      | "mac" => some .mac
      | _ => none)
    (fun
      | .standard => "standard"
      | .pcPositions => "pc_positions"
      | .mac => "mac")

end Serde

/-! ## Sections -/

open Serde

def SwitchingConfig.fields : Fields (Scalar F) SwitchingConfig :=
  (Fields.cons "pause_at_edges" (boolean.orDefault SwitchingConfig.default.pauseAtEdges) .nil).map
    ⟨fun (pause, ()) => ⟨pause⟩, fun c => (c.pauseAtEdges, ()), fun _ => rfl, fun _ => rfl⟩

def ClipboardConfig.fields : Fields (Scalar F) ClipboardConfig :=
  (Fields.cons "share" (boolean.orDefault ClipboardConfig.default.share) .nil).map
    ⟨fun (share, ()) => ⟨share⟩, fun c => (c.share, ()), fun _ => rfl, fun _ => rfl⟩

def MacosConfig.fields : Fields (Scalar F) MacosConfig :=
  (Fields.cons "sharing" (boolean.orDefault MacosConfig.default.sharing) <|
    .cons "block_awdl" (boolean.orDefault MacosConfig.default.blockAwdl) .nil).map
    ⟨fun (sharing, block, ()) => ⟨sharing, block⟩, fun c => (c.sharing, c.blockAwdl, ()), fun _ => rfl, fun _ => rfl⟩

def DaemonConfig.fields : Fields (Scalar F) DaemonConfig :=
  (Fields.cons "sharing" (boolean.orDefault DaemonConfig.default.sharing) <|
    .cons "state_dir" (string.orDefault DaemonConfig.default.stateDir) <|
    .cons "control_socket" (string.orDefault DaemonConfig.default.controlSocket) .nil).map
    ⟨fun (sharing, state, control, ()) => ⟨sharing, state, control⟩,
      fun c => (c.sharing, c.stateDir, c.controlSocket, ()), fun _ => rfl, fun _ => rfl⟩

def DeviceSelector.fields : Fields (Scalar F) DeviceSelector :=
  (Fields.cons "path" string.required <|
    .cons "name" string.optional <|
    .cons "phys" string.optional <|
    .cons "uniq" string.optional <|
    .cons "vendor" u16.optional <|
    .cons "product" u16.optional .nil).map
    ⟨fun (path, name, phys, uniq, vendor, product, ()) => ⟨path, name, phys, uniq, vendor, product⟩,
      fun s => (s.path, s.name, s.phys, s.uniq, s.vendor, s.product, ()), fun _ => rfl, fun _ => rfl⟩

def InputConfig.fields : Fields (Scalar F) InputConfig :=
  (Fields.cons "capture_devices" (DeviceSelector.fields.shape.listOf.orDefault InputConfig.default.captureDevices) <|
    .cons "activation_chord" (string.listOf.orDefault InputConfig.default.activationChord) <|
    .cons "escape_chord" (string.listOf.orDefault InputConfig.default.escapeChord) <|
    .cons "allow_prelogin_input" (boolean.orDefault InputConfig.default.allowPreloginInput) <|
    .cons "experimental_touchpad" (boolean.orDefault InputConfig.default.experimentalTouchpad) .nil).map
    ⟨fun (devices, activation, escape, prelogin, touchpad, ()) => ⟨devices, activation, escape, prelogin, touchpad⟩,
      fun c => (c.captureDevices, c.activationChord, c.escapeChord, c.allowPreloginInput, c.experimentalTouchpad, ()),
      fun _ => rfl, fun _ => rfl⟩

def TransportConfig.fields (addresses : AddressText) : Fields (Scalar F) TransportConfig :=
  (Fields.cons "listen" ((address addresses).orDefault TransportConfig.default.listen) <|
    .cons "checkpoint_ms" ((unsigned 64).orDefault TransportConfig.default.checkpointMs) <|
    .cons "lease_ms" ((unsigned 64).orDefault TransportConfig.default.leaseMs) <|
    .cons "discovery" (boolean.orDefault TransportConfig.default.discovery) .nil).map
    ⟨fun (listen, checkpoint, lease, discovery, ()) => ⟨listen, checkpoint, lease, discovery⟩,
      fun c => (c.listen, c.checkpointMs, c.leaseMs, c.discovery, ()), fun _ => rfl, fun _ => rfl⟩

def PlayoutConfig.fields [F64 F] : Fields (Scalar F) (PlayoutConfig F) :=
  (Fields.cons "mode" (playoutMode.orDefault (PlayoutConfig.default : PlayoutConfig F).mode) <|
    .cons "fixed_delay_ms" ((unsigned 64).orDefault (PlayoutConfig.default : PlayoutConfig F).fixedDelayMs) <|
    .cons "minimum_delay_ms" ((unsigned 64).orDefault (PlayoutConfig.default : PlayoutConfig F).minimumDelayMs) <|
    .cons "maximum_delay_ms" ((unsigned 64).orDefault (PlayoutConfig.default : PlayoutConfig F).maximumDelayMs) <|
    .cons "percentile" (float.orDefault (PlayoutConfig.default : PlayoutConfig F).percentile) .nil).map
    ⟨fun (mode, fixed, minimum, maximum, percentile, ()) => ⟨mode, fixed, minimum, maximum, percentile⟩,
      fun c => (c.mode, c.fixedDelayMs, c.minimumDelayMs, c.maximumDelayMs, c.percentile, ()), fun _ => rfl, fun _ => rfl⟩

def PeerPermissions.fields : Fields (Scalar F) PeerPermissions :=
  (Fields.cons "connect" (boolean.orDefault PeerPermissions.default.connect) <|
    .cons "send_normal" (boolean.orDefault PeerPermissions.default.sendNormal) <|
    .cons "receive_normal" (boolean.orDefault PeerPermissions.default.receiveNormal) <|
    .cons "inject_prelogin" (boolean.orDefault PeerPermissions.default.injectPrelogin) .nil).map
    ⟨fun (connect, send, receive, inject, ()) => ⟨connect, send, receive, inject⟩,
      fun p => (p.connect, p.sendNormal, p.receiveNormal, p.injectPrelogin, ()), fun _ => rfl, fun _ => rfl⟩

def PeerConfig.fields (addresses : AddressText) : Fields (Scalar F) PeerConfig :=
  (Fields.cons "spki_der_hex" string.required <|
    .cons "addresses" ((address addresses).listOf.orDefault []) <|
    .cons "permissions" (PeerPermissions.fields.shape.orDefault .default) <|
    .cons "keyboard" (keyboardMode.skipping .standard) <|
    .cons "reverse_scroll" (boolean.skipping false) <|
    .cons "share_screen" (boolean.skipping false) .nil).map
    ⟨fun (spki, addresses, permissions, keyboard, reverse, share, ()) =>
        ⟨spki, addresses, permissions, keyboard, reverse, share⟩,
      fun p => (p.spkiDerHex, p.addresses, p.permissions, p.keyboard, p.reverseScroll, p.shareScreen, ()),
      fun _ => rfl, fun _ => rfl⟩

def Config.fields [F64 F] (addresses : AddressText) : Fields (Scalar F) (Config F) :=
  (Fields.cons "version" ((unsigned 32).orDefault (Config.default : Config F).version) <|
    .cons "daemon" (DaemonConfig.fields.shape.orDefault (Config.default : Config F).daemon) <|
    .cons "input" (InputConfig.fields.shape.orDefault (Config.default : Config F).input) <|
    .cons "transport" ((TransportConfig.fields addresses).shape.orDefault (Config.default : Config F).transport) <|
    .cons "playout" (PlayoutConfig.fields.shape.orDefault (Config.default : Config F).playout) <|
    .cons "peers" ((PeerConfig.fields addresses).shape.mapOf.orDefault (Config.default : Config F).peers) <|
    .cons "macos" (MacosConfig.fields.shape.orDefault (Config.default : Config F).macos) <|
    .cons "switching" (SwitchingConfig.fields.shape.orDefault (Config.default : Config F).switching) <|
    .cons "clipboard" (ClipboardConfig.fields.shape.orDefault (Config.default : Config F).clipboard) .nil).map
    ⟨fun (version, daemon, input, transport, playout, peers, macos, switching, clipboard, ()) =>
        ⟨version, daemon, input, transport, playout, peers, macos, switching, clipboard⟩,
      fun c => (c.version, c.daemon, c.input, c.transport, c.playout, c.peers, c.macos, c.switching, c.clipboard, ()),
      fun _ => rfl, fun _ => rfl⟩

/-! ## Files -/

variable {Text : Type} [F64 F] (crates : Toml.Crates (Scalar F) Text) (addresses : AddressText)

/-- `toml::from_str`, where it succeeds. -/
def Config.fromStr (text : Text) : Option (Config F) := do
  let entries ← (crates.parse text).toOption
  (Config.fields addresses).shape.read (.ofContent (Toml.content entries))

/-- `Config::render`: patches only the changed fields into the file, keeping comments. -/
def Config.render [DecidableEq Text] (draft saved : Config F) (disk : Option Text) : Except String Text :=
  Toml.render crates ((Config.fields addresses).shape.write draft) ((Config.fields addresses).shape.write saved) disk

/-! ## Checks before a save -/

inductive CheckError where
  | config (error : ConfigError)
  | sender (error : Core.SenderError)
  | receiver (error : Core.ReceiverError)
  | playout (error : Core.PlayoutError)
  | message (text : String)
  deriving DecidableEq

/-- The playout that `SessionOptions::from_config` makes: the section's, over `PlayoutConfig::default`. -/
def Config.sessionPlayout (c : Config F) : Core.PlayoutConfig F where
  delayMode :=
    match c.playout.mode with
    | .fixed => .fixed
    | .adaptive => .adaptive
  fixedDelay := .fromMillis c.playout.fixedDelayMs
  -- `as u8` saturates
  adaptivePercentile := (min (F64.roundToI64 (F64.mul c.playout.percentile (F64.ofNat 100))) 255).toNat
  minimumDelay := .fromMillis c.playout.minimumDelayMs
  maximumDelay := .fromMillis c.playout.maximumDelayMs
  schedulerMargin := .fromMillis 2
  delaySampleWindow := 256
  delaySampleMaxAge := .fromMillis 3000
  growthDivisor := 1
  contractionDivisor := 16
  schedulerTick := .fromMillis 1
  maximumQueuedFrames := 4096
  catchUp :=
    { speedup := F64.ofNat 3
      minimumStep := 5
      maximumStep := 60
      velocitySampleWeight := F64.div (F64.ofNat 1) (F64.ofNat 10) }

/-- What `SessionOptions::from_config` checks. -/
def Config.checkSession (c : Config F) : Except CheckError Unit := do
  let lease := Duration.fromMillis c.transport.leaseMs
  (Core.SenderConfig.validate ⟨.fromMillis c.transport.checkpointMs, lease⟩).mapError .sender
  let _ ← (Core.ReceiverConfig.new lease).mapError .receiver
  let playout ← c.sessionPlayout.validate.mapError .playout
  -- a delay near the lease makes every renewal of a held key miss its deadline
  refuseIf (lease.nanos ≤ 2 * max playout.fixedDelay.nanos playout.maximumDelay.nanos)
    (.message "playout.fixed_delay_ms and playout.maximum_delay_ms must be less than half of transport.lease_ms")

/-- `Config::check_save`. Only Linux parses the chords. -/
def Config.checkSave (parseChord : List String → Except String Unit) (c : Config F) : Except CheckError Unit := do
  c.validate.mapError .config
  c.checkSession
  (parseChord c.input.activationChord).mapError .message
  (parseChord c.input.escapeChord).mapError .message

end Zflow.Settings
