import Libjingle.Base.ByteOrder

/-! `talk_base::IPAddress` and `talk_base::SocketAddress`, with their comparison
operators. -/

namespace Libjingle

/-- An IPv6 address as four words in host order. -/
structure In6Addr where
  word0 : UInt32
  word1 : UInt32
  word2 : UInt32
  word3 : UInt32
  deriving DecidableEq, Repr

/-- The address as one number; `memcmp` compares by it. -/
def In6Addr.value (a : In6Addr) : Nat :=
  ((a.word0.toNat * 2 ^ 32 + a.word1.toNat) * 2 ^ 32 + a.word2.toNat) * 2 ^ 32 + a.word3.toNat

/-- An address, or none of a known family. -/
inductive IPAddress
  | unspec
  | inet (addr : UInt32)
  | inet6 (addr : In6Addr)
  deriving DecidableEq, Repr

namespace IPAddress

/-- `operator<`: IPv4 addresses come before IPv6 addresses. -/
def less : IPAddress → IPAddress → Bool
  | .unspec, .unspec => false
  | .unspec, _ => true
  | .inet _, .inet6 _ => true
  | .inet a, .inet b => a < b
  | .inet6 a, .inet6 b => a.value < b.value
  | _, _ => false

def isAny : IPAddress → Bool
  | .unspec => false
  | .inet a => a = 0
  | .inet6 a => a = ⟨0, 0, 0, 0⟩

end IPAddress

structure SocketAddress where
  hostname : List UInt8
  ip : IPAddress
  port : UInt16
  deriving DecidableEq, Repr

namespace SocketAddress

def nil : SocketAddress := ⟨[], .unspec, 0⟩

/-- The constructor from an address and a port. -/
def ofIP (ip : IPAddress) (port : UInt16) : SocketAddress := ⟨[], ip, port⟩

def equalIPs (a b : SocketAddress) : Bool :=
  a.ip = b.ip && (!a.ip.isAny || a.hostname = b.hostname)

/-- `operator==` -/
def equal (a b : SocketAddress) : Bool := a.equalIPs b && a.port = b.port

/-- `operator<`: hostnames are compared when the address is zero. -/
def less (a b : SocketAddress) : Bool :=
  if a.ip.less b.ip then true
  else if b.ip.less a.ip then false
  else if b.ip.isAny && a.hostname < b.hostname then true
  else if b.ip.isAny && b.hostname < a.hostname then false
  else a.port < b.port

end SocketAddress

end Libjingle
