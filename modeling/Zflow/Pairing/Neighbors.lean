import Zflow.Lib.System
import Zflow.Pairing.Hello

/-!
# The computers around this one

`src/neighbors.rs`: the mDNS records seen, the addresses a person added, and the keys their hellos
proved. Nothing here is trusted: it is what the pairing window weighs. The digest behind fingerprints
and marks is a parameter.
-/

namespace Zflow.Pairing

/-- A point of `tokio::time`, in nanoseconds. -/
abbrev Instant := Nat

def seconds (n : Nat) : Nat := n * 1000000000

/-- A computer nobody here trusts yet. -/
structure Stranger where
  key : String
  name : String
  mark : String
  /-- Its key answered a hello this computer sent. -/
  answered : Bool
  /-- Said hello lately. -/
  fresh : Bool
  /-- Shares its name with a trusted computer or another stranger. -/
  duplicateName : Bool
  deriving DecidableEq

/-- What the pairing window weighs. -/
structure Strangers where
  present : List Stranger
  /-- Compatible records whose key is not known yet. -/
  unidentified : Nat
  /-- Something was turned away because a table was full. -/
  turnedAway : Bool

/-! ## Keys -/

/-- The lowercase hex of some bytes. -/
def encodeHex (bytes : List (BitVec 8)) : String :=
  String.ofList (bytes.flatMap fun byte =>
    [Nat.digitChar (byte.toNat / 16), Nat.digitChar (byte.toNat % 16)])

section Keys

variable (sha256 : List (BitVec 8) → List (BitVec 8))

def fingerprint (spki : List (BitVec 8)) : String := encodeHex (sha256 spki)

/-- What is drawn beside a name, so that two computers with one name look different. -/
def mark (spki : List (BitVec 8)) : String :=
  encodeHex ((sha256 ("zflow mark v1".toList.map (fun c => BitVec.ofNat 8 c.toNat) ++ spki)).take 3)

end Keys

/-! ## The tables -/

def maxInstances : Nat := 64

def maxNeighbors : Nat := 32

/-- Addresses a person may add by hand. -/
def maxAdded : Nat := 8

/-- How long a computer stays after its last record and its last hello. -/
def neighborTtl : Nat := seconds 60

/-- A hello this recent means the computer is here now. -/
def freshHello : Nat := seconds 30

/-- How long after a hello got no answer it is tried again, at first. -/
def helloRetries : List Nat := [seconds 2, seconds 5, seconds 15]

def helloRetryLast : Nat := seconds 30

def askAgain : Nat := seconds 15

/-- A hello that never said how it went is tried again after this long. -/
def helloLost : Nat := seconds 30

def hellosPerIp : UInt32 := 5

def helloWindow : Nat := seconds 30

def maxTrackedIps : Nat := 64

def addedPrefix : String := "address:"

/-- How a computer was found. -/
inductive Via where
  | mdns
  /-- A person typed its address. -/
  | address
  deriving DecidableEq

/-- A computer whose key a hello proved. -/
structure Neighbor where
  spki : List (BitVec 8)
  name : String
  os : Os
  version : String
  mark : String
  /-- Where it takes input, best first. -/
  addresses : List SocketAddr
  via : Via
  lastHello : Instant
  /-- When its last record went away, or when it was learned without one. -/
  lastSeen : Instant

/-- Where the hellos to a record's addresses stand. -/
inductive Asking where
  /-- Not asked since its addresses changed. -/
  | due
  /-- Asked, and some hellos in a row got no answer. -/
  | waiting (again : Instant) (unanswered : UInt32)
  | answered (at_ : Instant)

structure Instance where
  addresses : List SocketAddr
  compatible : Bool
  name : Option String
  /-- The key a hello to it proved. -/
  key : Option String
  asking : Asking

structure Neighbors where
  own : String
  /-- This computer's own record, which browsing finds too. -/
  ownRecord : Option String
  instances : Std.ExtTreeMap String Instance
  neighbors : Std.ExtTreeMap String Neighbor
  added : List String
  /-- When each address began its window, and how many hellos it started since. -/
  hellos : Std.ExtTreeMap IpAddr (Instant × UInt32)
  /-- Set for good once anything was turned away for want of room. -/
  turnedAway : Bool

namespace Neighbors

def new (own : String) : Neighbors := ⟨own, none, ∅, ∅, [], ∅, false⟩

def turnedOneAway (around : Neighbors) : Neighbors := { around with turnedAway := true }

/-- Names this computer's own record, which is dropped. -/
def setOwnRecord (around : Neighbors) (instance_ : Option String) : Neighbors :=
  { around with
    instances := instance_.elim around.instances around.instances.erase
    ownRecord := instance_ }

/-- A record was resolved. One whose addresses changed is asked again. -/
def instanceSeen (around : Neighbors) (id : String) (addresses : List SocketAddr) (compatible : Bool)
    (name : Option String) : Neighbors :=
  if around.ownRecord = some id then around
  else match around.instances[id]? with
    | some known =>
      let asking := if known.addresses ≠ addresses then .due else known.asking
      { around with
        instances := around.instances.insert id { known with addresses, compatible, name, asking } }
    | none =>
      if maxInstances ≤ around.instances.size then around.turnedOneAway
      else
        { around with
          instances := around.instances.insert id ⟨addresses, compatible, name, none, .due⟩ }

/-- A record went away. Its computer stays a while in case it comes back. -/
def instanceGone (around : Neighbors) (id : String) (now : Instant) : Neighbors :=
  let neighbors := match around.instances[id]?.bind (·.key) with
    | some key => around.neighbors.alter key (·.map fun neighbor => { neighbor with lastSeen := now })
    | none => around.neighbors
  { around with instances := around.instances.erase id, neighbors }

/-- The record of an address a person added. -/
def addressId (address : SocketAddr) : String := addedPrefix ++ address.display

/-- A person added an address; the oldest goes when there are too many. -/
def addAddress (around : Neighbors) (address : SocketAddr) : Neighbors :=
  let id := addressId address
  let added := around.added.filter (· ≠ id) ++ [id]
  let (added, instances) :=
    if maxAdded < added.length then (added.tail, added.head?.elim around.instances around.instances.erase)
    else (added, around.instances)
  { around with added, instances := instances.insert id ⟨[address], true, none, none, .due⟩ }

/-- Makes the records that answered a while ago due, for an open pairing window. -/
def keepFresh (around : Neighbors) (now : Instant) : Neighbors :=
  { around with
    instances := around.instances.map fun _ known =>
      match known.asking with
      | .answered at_ => if askAgain ≤ now - at_ then { known with asking := .due } else known
      | _ => known }

/-- How many hellos got no answer so far, where one is due. -/
def Asking.due? (now : Instant) : Asking → Option UInt32
  | .due => some 0
  | .waiting again unanswered => if again ≤ now then some unanswered else none
  | .answered _ => none

/-- A record and the addresses a hello to it asks. -/
structure Asked where
  id : String
  addresses : List SocketAddr
  deriving DecidableEq

/-- One record of those looked over for hellos that are due. -/
def takeDue (room : Nat) (now : Instant) (taken : Std.ExtTreeMap String Instance × List Asked)
    (entry : String × Instance) : Std.ExtTreeMap String Instance × List Asked :=
  let (instances, due) := taken
  let (id, known) := entry
  if due.length = room then taken
  else match Asking.due? now known.asking with
    | none => taken
    | some unanswered =>
      if known.compatible then
        (instances.insert id { known with asking := .waiting (now + helloLost) unanswered },
          due ++ [⟨id, known.addresses⟩])
      else taken

/-- The records that need a hello now, at most `room` of them. -/
def takeDueHellos (around : Neighbors) (room : Nat) (now : Instant) : Neighbors × List Asked :=
  let (instances, due) := around.instances.toList.foldl (takeDue room now) (around.instances, [])
  ({ around with instances }, due)

/-- The hello to a record got no answer, so it is asked again after a wait that grows. -/
def noAnswer (around : Neighbors) (id : String) (now : Instant) : Neighbors :=
  match around.instances[id]? with
  | none => around
  | some known => match known.asking with
    | .waiting _ unanswered =>
      let wait := helloRetries[unanswered.toNat]?.getD helloRetryLast
      let asking := .waiting (now + wait) (unanswered + 1)
      { around with instances := around.instances.insert id { known with asking } }
    | _ => around

/-- The addresses whose window still runs. -/
def tracked (around : Neighbors) (now : Instant) : Std.ExtTreeMap IpAddr (Instant × UInt32) :=
  around.hellos.filter fun _ window => now - window.1 < helloWindow

/-- Whether to answer one more hello from an address now. -/
def allowHello (around : Neighbors) (ip : IpAddr) (local_ : List IpAddr) (now : Instant) :
    Neighbors × Bool :=
  let ip := ip.toCanonical
  if ip.isLoopback || local_.contains ip then (around, false)
  else
    let hellos := around.tracked now
    if !hellos.contains ip && maxTrackedIps ≤ hellos.size then
      ({ around with hellos }.turnedOneAway, false)
    else
      let (start, count) := hellos[ip]?.getD (now, 0)
      ({ around with hellos := hellos.insert ip (start, count + 1) }, count + 1 ≤ hellosPerIp)

/-- The records, by name. -/
def records (around : Neighbors) : List Instance := around.instances.toList.map Prod.snd

/-- Whether some record maps to a key. -/
def mapped (around : Neighbors) (key : String) : Bool :=
  around.records.any (·.key = some key)

/-- Drops the computers whose records are gone and which said nothing for a while. -/
def expire (around : Neighbors) (now : Instant) : Neighbors :=
  { around with
    neighbors := around.neighbors.filter fun key neighbor =>
      around.mapped key || now - max neighbor.lastHello neighbor.lastSeen < neighborTtl }

/-- The record a hello came back from maps to its key. -/
def mapKey (around : Neighbors) (id : Option String) (key : String) (now : Instant) : Neighbors :=
  { around with
    instances := match id with
      | none => around.instances
      | some id => around.instances.alter id
        (·.map fun known => { known with key := some key, asking := .answered now }) }

/-- How the computer behind a record was found. -/
def via (around : Neighbors) : Option String → Via
  | none => .mdns
  | some id => if around.instances.contains id && addedPrefix.toList.isPrefixOf id.toList then .address
    else .mdns

/-- `char::is_ascii_graphic`. -/
def isAsciiGraphic (c : Char) : Bool := 0x21 ≤ c.toNat && c.toNat ≤ 0x7e

/-- A hello came back from a record, or arrived from `remote`. The answer is the key's fingerprint,
where the computer is another one and there is room for it. -/
def hello (around : Neighbors) (sha256 : List (BitVec 8) → List (BitVec 8)) (spki : List (BitVec 8))
    (remote : SocketAddr) (said : Hello) (id : Option String) (now : Instant) :
    Neighbors × Option String :=
  let key := fingerprint sha256 spki
  let via := around.via id
  let around := around.mapKey id key now
  if key = around.own then (around, none)
  else
    let around := around.expire now
    if !around.neighbors.contains key && maxNeighbors ≤ around.neighbors.size then
      (around.turnedOneAway, none)
    else
      let neighbor := around.neighbors[key]?.getD
        { spki, name := "", os := said.os, version := "", mark := mark sha256 spki, addresses := [],
          via, lastHello := now, lastSeen := now }
      let neighbor := { neighbor with
        name := peerName said.name
        os := said.os
        version := String.ofList (said.version.toList.filter isAsciiGraphic)
        addresses := helloAddresses remote said
        via := if via = .address then via else neighbor.via
        lastHello := now
        lastSeen := now }
      ({ around with neighbors := around.neighbors.insert key neighbor }, some key)

/-! ## The strangers -/

/-- The computers this one trusts: their names, and their fingerprints where the key reads. -/
abbrev Peers := Std.ExtTreeMap String (Option String)

def trusts (peers : Peers) (key : String) : Bool := peers.toList.any (·.2 = some key)

def strangersOf (around : Neighbors) (peers : Peers) (now : Option Instant) : List Stranger :=
  let untrusted := around.neighbors.toList.filter fun entry => !trusts peers entry.1
  untrusted.map fun (key, neighbor) =>
    let namesakes := untrusted.countP fun other => other.2.name = neighbor.name
    { key
      name := neighbor.name
      mark := neighbor.mark
      answered := around.mapped key
      fresh := now.any fun now => now - neighbor.lastHello < freshHello
      duplicateName := 1 < namesakes || peers.keys.any fun name => peerName name = neighbor.name }

/-- The computers nobody here trusts yet, for the pairing window. -/
def strangers (around : Neighbors) (peers : Peers) (now : Instant) : Strangers where
  present := around.strangersOf peers (some now)
  unidentified := around.records.countP fun known => known.compatible && known.key.isNone
  turnedAway := around.turnedAway

/-- The computers found here that a peer placed: each has a tile and answered a hello this computer
sent, and none was forgotten here. -/
def introduced (around : Neighbors) (peers : Peers) (tiles forgotten : List String) : List String :=
  ((around.strangersOf peers none).filter fun stranger =>
    stranger.answered && !forgotten.contains stranger.key && tiles.contains stranger.key).map (·.key)

end Neighbors

/-! ## The hellos under way

What the daemon does with the tables: it says hello to the records it took, at every address of each,
and hands back the first answer (`say_hello` of `src/daemon/arrange.rs`). A history of the hellos is
kept beside the tables. -/

open Neighbors (Asked)

inductive Event where
  | ownRecord (instance_ : Option String)
  /-- Something was turned away elsewhere, such as a handshake while too many were under way. -/
  | turnedOneAway
  | instanceSeen (id : String) (addresses : List SocketAddr) (compatible : Bool) (name : Option String)
  | instanceGone (id : String)
  | addAddress (address : SocketAddr)
  | keepFresh
  | takeDueHellos (room : Nat)
  /-- The hello to a record was answered from one of the addresses it asked. -/
  | reply (asked : Asked) (remote : SocketAddr) (spki : List (BitVec 8)) (said : Hello)
  | noAnswer (asked : Asked)
  /-- The task of a hello was dropped. -/
  | lost (asked : Asked)
  | allowHello (ip : IpAddr) (local_ : List IpAddr)
  /-- A hello came in. -/
  | heard (remote : SocketAddr) (spki : List (BitVec 8)) (said : Hello)
  | expire

/-- An event, when it happens. -/
structure Moment where
  now : Nat
  event : Event

/-- A reply, with the hello that it answers. -/
structure Reply where
  asked : Asked
  remote : SocketAddr
  key : String

/-- A hello that came in, and whether it was answered. -/
structure CameIn where
  ip : IpAddr
  now : Nat
  answered : Bool

structure Around where
  tables : Neighbors
  now : Nat
  /-- Every hello this computer sent. -/
  sent : List Asked
  /-- The hellos still out. -/
  out : List Asked
  replies : List Reply
  cameIn : List CameIn
  /-- Something found no room. -/
  dropped : Bool

namespace Around

variable (sha256 : List (BitVec 8) → List (BitVec 8))

def start (own : String) : Around := ⟨.new own, 0, [], [], [], [], false⟩

/-- The tables after an event. -/
def act (tables : Neighbors) (now : Nat) : Event → Neighbors
  | .ownRecord instance_ => tables.setOwnRecord instance_
  | .turnedOneAway => tables.turnedOneAway
  | .instanceSeen id addresses compatible name => tables.instanceSeen id addresses compatible name
  | .instanceGone id => tables.instanceGone id now
  | .addAddress address => tables.addAddress address
  | .keepFresh => tables.keepFresh now
  | .takeDueHellos room => (tables.takeDueHellos room now).1
  | .reply asked remote spki said => (tables.hello sha256 spki remote said (some asked.id) now).1
  | .noAnswer asked => tables.noAnswer asked.id now
  | .lost _ => tables
  | .allowHello ip local_ => (tables.allowHello ip local_ now).1
  | .heard remote spki said => (tables.hello sha256 spki remote said none now).1
  | .expire => tables.expire now

/-- The hellos an event sends. -/
def asks (tables : Neighbors) (now : Nat) : Event → List Asked
  | .takeDueHellos room => (tables.takeDueHellos room now).2
  | _ => []

/-- The hello an event is the end of. -/
def settles : Event → List Asked
  | .reply asked _ _ _ | .noAnswer asked | .lost asked => [asked]
  | _ => []

def answers : Event → List Reply
  | .reply asked remote spki _ => [⟨asked, remote, fingerprint sha256 spki⟩]
  | _ => []

def comesIn (tables : Neighbors) (now : Nat) : Event → List CameIn
  | .allowHello ip local_ => [⟨ip.toCanonical, now, (tables.allowHello ip local_ now).2⟩]
  | _ => []

/-- Whether there is room for one more neighbour with this key. -/
def crowded (tables : Neighbors) (key : String) (now : Nat) : Bool :=
  let rest := (tables.expire now).neighbors
  key ≠ tables.own && !rest.contains key && maxNeighbors ≤ rest.size

/-- Whether an event finds a table full. -/
def drops (tables : Neighbors) (now : Nat) : Event → Bool
  | .turnedOneAway => true
  | .instanceSeen id _ _ _ =>
    tables.ownRecord ≠ some id && !tables.instances.contains id && maxInstances ≤ tables.instances.size
  | .allowHello ip local_ =>
    !(ip.toCanonical.isLoopback || local_.contains ip.toCanonical) &&
      (!(tables.tracked now).contains ip.toCanonical && maxTrackedIps ≤ (tables.tracked now).size)
  | .reply asked _ spki _ =>
    let key := fingerprint sha256 spki
    crowded (tables.mapKey (some asked.id) key now) key now
  | .heard _ spki _ => crowded tables (fingerprint sha256 spki) now
  | _ => false

/-- A reply comes from an address that a hello still out asked. -/
def fits (world : Around) : Event → Bool
  | .reply asked remote _ _ => asked ∈ world.out && asked.addresses.contains remote
  | _ => true

def step : Lib.System Around Moment := fun moment world =>
  if moment.now < world.now || !world.fits moment.event then none
  else some
    { tables := act sha256 world.tables moment.now moment.event
      now := moment.now
      sent := world.sent ++ asks world.tables moment.now moment.event
      out := world.out.diff (settles moment.event) ++ asks world.tables moment.now moment.event
      replies := world.replies ++ answers sha256 moment.event
      cameIn := world.cameIn ++ comesIn world.tables moment.now moment.event
      dropped := world.dropped || drops sha256 world.tables moment.now moment.event }

end Around

end Zflow.Pairing
