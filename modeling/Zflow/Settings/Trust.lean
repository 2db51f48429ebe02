import Zflow.Settings.Config

/-!
# Trusting a computer

How a computer's key gets into the settings (`trust_peer` and `replace_key` of `src/hello.rs`), and how the daemon finds a
computer by its key (`peer_name_for_spki` and `validate_peer_identities` of `src/daemon.rs`).
-/

namespace Zflow.Settings

open Lib Pairing

inductive TrustError where
  | config (error : ConfigError)
  | message (text : String)

def defaultPermissions : PeerPermissions where
  connect := true
  sendNormal := true
  receiveNormal := true
  injectPrelogin := false

/-- The names that are tried for a computer, in their order. -/
def triedName (base short : String) : Nat → String
  | 0 => base
  | 1 => s!"{base} ({short})"
  | number => s!"{base} ({short}) {number}"

/-- The first of them that is free. One more name than there are peers is enough. -/
def freeName (peers : Std.ExtTreeMap String PeerConfig) (base short : String) : String :=
  (((List.range (peers.size + 1)).map (triedName base short)).find? (!peers.contains ·)).getD base

variable {F : Type} (sha256 : Spki → Spki)

/-- Saves a computer this one now trusts and answers its name. A key already saved only learns the addresses. A namesake
with another key gets an entry of its own, marked with part of its key. -/
def trustPeer (spki : Spki) (name : String) (addresses : List SocketAddr) : Act TrustError (Config F) String := do
  let record ← .lift .config (PeerConfig.fromSpki spki [] defaultPermissions)
  let config ← .read
  match config.peers.toList.find? fun entry => entry.2.spkiDerHex = record.spkiDerHex with
  | some (name, existing) =>
    .change fun config => { config with peers := config.peers.insert name (existing.learnAddresses addresses).2 }
    return name
  | none =>
    let record := (record.learnAddresses addresses).2
    let fingerprint ← .lift .config (record.fingerprintHex sha256)
    let name := freeName config.peers (peerName (some name)) (String.ofList (fingerprint.toList.take 6))
    .change fun config => { config with peers := config.peers.insert name record }
    return name

/-- The saved computer with a new key: what the old key was granted or answered at is gone. -/
def PeerConfig.rekey (key : String) (existing : PeerConfig) : PeerConfig :=
  if existing.spkiDerHex ≠ key then
    { existing with
      spkiDerHex := key
      permissions := { existing.permissions with injectPrelogin := false }
      addresses := [] }
  else existing

/-- Gives the saved computer `name` a new key, for one that was reset or reinstalled and dropped onto its old tile. -/
def replaceKey (name : String) (spki : Spki) (addresses : List SocketAddr) : Act TrustError (Config F) Unit := do
  let record ← .lift .config (PeerConfig.fromSpki spki [] .default)
  let config ← .read
  match config.peers.toList.find? fun entry => entry.2.spkiDerHex = record.spkiDerHex && entry.1 ≠ name with
  | some (other, _) => .fail (.message s!"That computer is already added as {other}")
  | none =>
    match config.peers[name]? with
    | none => .fail (.message s!"No computer is called {name}")
    | some existing =>
      .change fun config => { config with
        peers := config.peers.insert name ((existing.rekey record.spkiDerHex).learnAddresses addresses).2 }

/-! ## Finding a computer by its key -/

/-- One turn of the loop of `validate_peer_identities`: a key that is there already is an error. -/
def addIdentity (identities : List (Spki × String)) (entry : String × PeerConfig) :
    Except TrustError (List (Spki × String)) := do
  let key ← entry.2.spkiDer.mapError .config
  match identities.find? (·.1 = key) with
  | some (_, first) => .error (.message s!"peers {first} and {entry.1} use the same identity key")
  | none => .ok ((key, entry.1) :: identities)

def validatePeerIdentities (config : Config F) : Except TrustError Unit := do
  let _ ← config.peers.toList.foldlM addIdentity []

end Zflow.Settings
