import Mathlib.Data.Nat.Notation

/-!
IP addresses and the classes that the standard library sorts them into.
-/
namespace OpenMeet.IpAddresses

structure Ipv4Addr where
  first : UInt8
  second : UInt8
  third : UInt8
  fourth : UInt8
  deriving DecidableEq, Repr

structure Ipv6Addr where
  first : UInt16
  second : UInt16
  third : UInt16
  fourth : UInt16
  fifth : UInt16
  sixth : UInt16
  seventh : UInt16
  eighth : UInt16
  deriving DecidableEq, Repr

inductive IpAddr
  | v4 (ip : Ipv4Addr)
  | v6 (ip : Ipv6Addr)
  deriving DecidableEq, Repr

structure SocketAddr where
  ip : IpAddr
  port : UInt16
  deriving DecidableEq, Repr

namespace Ipv4Addr

variable (ip : Ipv4Addr)

def octets : List ℕ := [ip.first.toNat, ip.second.toNat, ip.third.toNat, ip.fourth.toNat]

def isUnspecified : Bool := ip.octets = [0, 0, 0, 0]
def isLoopback : Bool := ip.first = 127
def isPrivate : Bool :=
  ip.first = 10 || (ip.first = 172 && (16 ≤ ip.second && ip.second ≤ 31)) ||
    (ip.first = 192 && ip.second = 168)
def isLinkLocal : Bool := ip.first = 169 && ip.second = 254
def isBroadcast : Bool := ip.octets = [255, 255, 255, 255]
def isDocumentation : Bool :=
  (ip.first = 192 && ip.second = 0 && ip.third = 2) ||
    (ip.first = 198 && ip.second = 51 && ip.third = 100) ||
    (ip.first = 203 && ip.second = 0 && ip.third = 113)
def isMulticast : Bool := 224 ≤ ip.first && ip.first ≤ 239

end Ipv4Addr

namespace Ipv6Addr

variable (ip : Ipv6Addr)

def segments : List ℕ :=
  [ip.first.toNat, ip.second.toNat, ip.third.toNat, ip.fourth.toNat, ip.fifth.toNat,
    ip.sixth.toNat, ip.seventh.toNat, ip.eighth.toNat]

def isUnspecified : Bool := ip.segments = [0, 0, 0, 0, 0, 0, 0, 0]
def isLoopback : Bool := ip.segments = [0, 0, 0, 0, 0, 0, 0, 1]
def isMulticast : Bool := ip.first &&& 0xff00 = 0xff00

end Ipv6Addr

/-- The IPv4 address of two segments. -/
def ipv4OfSegments (high low : UInt16) : Ipv4Addr :=
  ⟨(high >>> 8).toUInt8, high.toUInt8, (low >>> 8).toUInt8, low.toUInt8⟩

def Ipv6Addr.toIpv4Mapped (ip : Ipv6Addr) : Option Ipv4Addr :=
  if ip.segments.take 6 = [0, 0, 0, 0, 0, 0xffff] then some (ipv4OfSegments ip.seventh ip.eighth)
  else none

end OpenMeet.IpAddresses
