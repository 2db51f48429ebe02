import Mathlib.Algebra.Group.Nat.Defs
import Mathlib.Tactic.Common

/-!
# Network addresses

What the discovery code uses of `std::net`, and which addresses a computer may claim
(`validate_socket_address` of `src/discovery.rs`).
-/

namespace Zflow.Pairing

/-- An IP address, by its bits. -/
inductive IpAddr where
  | v4 (bits : BitVec 32)
  | v6 (bits : BitVec 128)
  deriving DecidableEq

namespace IpAddr

/-- Where an address stands in the order of addresses. -/
def rank : IpAddr → Nat
  | v4 bits => bits.toNat
  | v6 bits => 2 ^ 32 + bits.toNat

theorem rank_injective : Function.Injective rank := by
  intro left right h
  cases left with
  | v4 a =>
    cases right with
    | v4 b => exact congrArg v4 (BitVec.eq_of_toNat_eq h)
    | v6 b =>
      have := a.isLt
      simp only [rank] at h
      omega
  | v6 a =>
    cases right with
    | v4 b =>
      have := b.isLt
      simp only [rank] at h
      omega
    | v6 b => exact congrArg v6 (BitVec.eq_of_toNat_eq (by simpa [rank] using h))

instance : Ord IpAddr := ⟨compareOn rank⟩

instance : Std.TransOrd IpAddr := inferInstanceAs (Std.TransCmp (compareOn rank))

instance : Std.LawfulEqOrd IpAddr where
  eq_of_compare h := rank_injective (Nat.compare_eq_eq.mp h)

/-- An IPv4 address mapped into IPv6 is that IPv4 address. -/
def toCanonical : IpAddr → IpAddr
  | v6 bits => if bits >>> 32 = 0xffff then v4 (bits.setWidth 32) else v6 bits
  | v4 bits => v4 bits

def isLoopback : IpAddr → Bool
  | v4 bits => bits >>> 24 = 127
  | v6 bits => bits = 1

def isUnspecified : IpAddr → Bool
  | v4 bits => bits = 0
  | v6 bits => bits = 0

def isMulticast : IpAddr → Bool
  | v4 bits => bits >>> 28 = 0xe
  | v6 bits => bits >>> 120 = 0xff

def isBroadcast : IpAddr → Bool
  | v4 bits => bits = BitVec.allOnes 32
  | v6 _ => false

def isUnicastLinkLocal : IpAddr → Bool
  | v4 _ => false
  | v6 bits => bits >>> 118 = 0x3fa

/-! ### As text -/

def hex (n : Nat) : String := String.ofList (Nat.toDigits 16 n)

/-- The 16-bit groups of an IPv6 address. -/
def segments (bits : BitVec 128) : List Nat :=
  (List.range 8).map fun i => (bits.toNat >>> (16 * (7 - i))) % 2 ^ 16

/-- Where the first longest run of zeros begins, and its length. -/
def zeroRun (segments : List Nat) : Nat × Nat :=
  let runAt (start : Nat) : Nat := ((segments.drop start).takeWhile (· = 0)).length
  (List.range segments.length).foldl
    (fun longest start => if longest.2 < runAt start then (start, runAt start) else longest) (0, 0)

def displayV4 (bits : BitVec 32) : String :=
  ".".intercalate ((List.range 4).map fun i => toString ((bits.toNat >>> (8 * (3 - i))) % 2 ^ 8))

def displayV6 (bits : BitVec 128) : String :=
  if bits >>> 32 = 0xffff then "::ffff:" ++ displayV4 (bits.setWidth 32)
  else
    let groups := segments bits
    let (start, length) := zeroRun groups
    if 1 < length then
      ":".intercalate ((groups.take start).map hex) ++ "::"
        ++ ":".intercalate ((groups.drop (start + length)).map hex)
    else ":".intercalate (groups.map hex)

end IpAddr

/-- An IP address with a port; an IPv6 one also says its flow and its interface. -/
inductive SocketAddr where
  | v4 (ip : BitVec 32) (port : BitVec 16)
  | v6 (ip : BitVec 128) (port : BitVec 16) (flowinfo scopeId : BitVec 32)
  deriving DecidableEq

namespace SocketAddr

/-- `SocketAddr::new`. -/
def new : IpAddr → BitVec 16 → SocketAddr
  | .v4 bits, port => v4 bits port
  | .v6 bits, port => v6 bits port 0 0

def ip : SocketAddr → IpAddr
  | v4 ip _ => .v4 ip
  | v6 ip _ _ _ => .v6 ip

def port : SocketAddr → BitVec 16
  | v4 _ port => port
  | v6 _ port _ _ => port

def display : SocketAddr → String
  | v4 ip port => s!"{IpAddr.displayV4 ip}:{port.toNat}"
  | v6 ip port _ scopeId =>
    let scope := if scopeId = 0 then "" else s!"%{scopeId.toNat}"
    s!"[{IpAddr.displayV6 ip}{scope}]:{port.toNat}"

end SocketAddr

/-- `validate_ip_address`. -/
def validateIpAddress (address : IpAddr) : Except String Unit :=
  if address.isUnspecified then
    .error "unspecified addresses are not connection candidates"
  else if address.isMulticast then
    .error "multicast addresses are not connection candidates"
  else if address.isBroadcast then
    .error "broadcast addresses are not connection candidates"
  else .ok ()

/-- An IPv6 address of one link says nothing without its interface. -/
def lacksScope : SocketAddr → Bool
  | .v4 _ _ => false
  | .v6 ip _ _ scopeId => (IpAddr.v6 ip).isUnicastLinkLocal && scopeId = 0

/-- `validate_socket_address`, which `UntrustedCandidate::explicit` asks. -/
def validateSocketAddress (address : SocketAddr) : Except String Unit :=
  if address.port = 0 then .error "QUIC port must be non-zero"
  else if lacksScope address then
    .error "link-local IPv6 candidates require an interface scope"
  else validateIpAddress address.ip

end Zflow.Pairing
