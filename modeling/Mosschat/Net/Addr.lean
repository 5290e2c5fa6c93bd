import Mosschat.Core.Identity

/-!
Owns the socket addresses of `std::net` as far as the crate reads them, and the one
normal form `sock.rs` gives them.

Does not own a socket, nor the flow label and scope of an IPv6 address, which no
modelled function reads.
-/

namespace Mosschat.Net

/-- `IpAddr`, by its octets. -/
inductive IpAddr where
  | v4 (octets : List.Vector UInt8 4)
  | v6 (octets : List.Vector UInt8 16)
deriving DecidableEq

/-- `SocketAddr`. -/
structure SocketAddr where
  ip : IpAddr
  port : UInt16
deriving DecidableEq

namespace IpAddr

/-- `Ipv4Addr::new`. -/
def newV4 (a b c d : UInt8) : IpAddr := .v4 ⟨[a, b, c, d], rfl⟩

/-- `Ipv4Addr::is_private`. -/
def isPrivateV4 (octets : List.Vector UInt8 4) : Bool :=
  octets.get 0 == 10 || (octets.get 0 == 172 && (octets.get 1 &&& 0xf0) == 16) ||
    (octets.get 0 == 192 && octets.get 1 == 168)

/-- `Ipv4Addr::is_link_local`. -/
def isLinkLocalV4 (octets : List.Vector UInt8 4) : Bool :=
  octets.get 0 == 169 && octets.get 1 == 254

/-- `Ipv4Addr::octets`. -/
def octetsV4 (octets : List.Vector UInt8 4) : UInt8 × UInt8 × UInt8 × UInt8 :=
  (octets.get 0, octets.get 1, octets.get 2, octets.get 3)

/-- `IpAddr::is_loopback`. -/
def isLoopback : IpAddr → Bool
  | .v4 octets => octets.get 0 == 127
  | .v6 octets => octets.toList == List.replicate 15 0 ++ [1]

/-- The first twelve octets of an IPv4-mapped address. -/
def mappedPrefix : List UInt8 := List.replicate 10 0 ++ [0xff, 0xff]

end IpAddr

/-- `sock::unmap_v4`. -/
def unmapV4 (addr : SocketAddr) : SocketAddr :=
  match addr.ip with
  | .v6 octets =>
    if octets.toList.take 12 == IpAddr.mappedPrefix then ⟨.v4 (octets.drop 12), addr.port⟩ else addr
  | .v4 _ => addr

theorem unmapV4_unmapV4 (addr : SocketAddr) : unmapV4 (unmapV4 addr) = unmapV4 addr := by
  obtain ⟨ip, port⟩ := addr
  cases ip with
  | v4 octets => rfl
  | v6 octets =>
      by_cases mapped : (octets.toList.take 12 == IpAddr.mappedPrefix) = true
      · simp only [unmapV4, mapped, ↓reduceIte]
      · simp only [unmapV4, mapped, Bool.false_eq_true, ↓reduceIte]

/-- `sock::synthetic_addr`: the address quinn knows a peer by, whichever path carries it. -/
def syntheticAddr (crypto : Core.Crypto) (processSalt : List.Vector UInt8 5)
    (peerKey : Core.Bytes32) : SocketAddr :=
  let octets := List.Vector.cons 0xfd processSalt ++ (crypto.blake3 peerKey.toList).take 10
  ⟨.v6 octets, 1⟩

end Mosschat.Net
