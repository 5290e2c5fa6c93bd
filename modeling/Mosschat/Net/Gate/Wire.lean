import Mosschat.Net.Addr
import Mosschat.Net.Gate

/-!
Owns the control frames and the `Relay` datagram, from `gate/wire.rs`.

Does not own the CBOR form of a frame.
-/

namespace Mosschat.Net.Gate

open Mosschat.Core Mosschat.Library.Cbor

/-- `ErrorCode::RateLimited`. -/
def errorRateLimited : UInt8 := 3

/-- `GateError`, the two kinds the modelled functions raise. -/
inductive GateError where
  /-- Its text, or the reason the CBOR decoder gave. -/
  | protocol (reason : DecodeError)
  | relayPayloadTooLarge (length : Nat)
deriving DecidableEq

/-- `Addr`: the fixed-size address of the wire. -/
structure Addr where
  family : UInt8
  bytes : Bytes16
  port : UInt16
deriving DecidableEq

/-- `Addr::from_socket_addr`. -/
def Addr.fromSocketAddr (addr : SocketAddr) : Addr :=
  match addr.ip with
  | .v4 octets => ⟨4, ⟨octets.toList ++ List.replicate 12 0, by simp⟩, addr.port⟩
  | .v6 octets => ⟨6, octets, addr.port⟩

/-- `Frame`. -/
inductive Frame where
  | register (v : UInt8) (community : Bytes32)
  | registered (v : UInt8) (observed : Addr) (keepaliveS : UInt8) (secondaryPort : UInt16)
  | reflect (v : UInt8)
  | reflected (v : UInt8) (observed : Addr)
  | introduce (v : UInt8) (tag : Bytes32) (ttlS : UInt16) (sealedBytes : Bytes)
  | introduction (v : UInt8) (tag : Bytes32) (session : UInt32) (peerObserved : Addr) (role : UInt8)
  | start (v : UInt8) (session : UInt32) (fireInMs : UInt16) (gateMs : UInt64)
  | startRequest (v : UInt8) (session : UInt32)
  | keepalive (v : UInt8)
  | keepaliveAck (v : UInt8) (observed : Addr)
  | goodbye (v : UInt8) (reason : UInt8)
  | error (v : UInt8) (code : UInt8) (detail : String)
  | knock (v : UInt8) (tag : Bytes32) (ttlS : UInt16) (sealedBytes : Bytes)
  | knockAnswer (v : UInt8) (tag : Bytes32) (accept : Bool)
deriving DecidableEq

/-! ## The `Relay` datagram -/

def relayPayloadCap : Nat := 1200

def relayDiscriminator : UInt8 := 0x01

/-- `encode_relay`. -/
def encodeRelay (session : UInt32) (payload : Bytes) : Except GateError Bytes :=
  if relayPayloadCap < payload.length then .error (.relayPayloadTooLarge payload.length)
  else .ok (relayDiscriminator :: beBytes 4 session.toNat ++ payload)

/-- `decode_relay`. -/
def decodeRelay (datagram : Bytes) : Except GateError (UInt32 × Bytes) :=
  if datagram.length < 5 then .error (.protocol (.message "relay datagram too short"))
  else if datagram.head? ≠ some relayDiscriminator then
    .error (.protocol (.message "datagram is not a Relay discriminator"))
  else
    let session := UInt32.ofNat (beValue ((datagram.drop 1).take 4))
    let payload := datagram.drop 5
    if relayPayloadCap < payload.length then .error (.relayPayloadTooLarge payload.length)
    else .ok (session, payload)

/-- What a datagram decodes to fits a datagram. -/
theorem encodeRelay_of_decodeRelay {datagram payload : Bytes} {session : UInt32}
    (decoded : decodeRelay datagram = .ok (session, payload)) :
    encodeRelay session payload =
      .ok (relayDiscriminator :: beBytes 4 session.toNat ++ payload) := by
  unfold decodeRelay at decoded
  split at decoded
  · cases decoded
  split at decoded
  · cases decoded
  simp only at decoded
  split at decoded
  · cases decoded
  next large =>
    cases decoded
    rw [encodeRelay, if_neg large]

/-- A relayed datagram names the session and carries the payload it was made of. -/
theorem decodeRelay_encodeRelay {session : UInt32} {payload encoded : Bytes}
    (isEncoded : encodeRelay session payload = .ok encoded) :
    decodeRelay encoded = .ok (session, payload) := by
  unfold encodeRelay at isEncoded
  split_ifs at isEncoded with large
  cases isEncoded
  have width := beBytes_length 4 session.toNat
  have front : (beBytes 4 session.toNat ++ payload).take 4 = beBytes 4 session.toNat :=
    List.take_left' width
  have back : (beBytes 4 session.toNat ++ payload).drop 4 = payload := List.drop_left' width
  have longEnough : ¬(relayDiscriminator :: (beBytes 4 session.toNat ++ payload)).length < 5 := by
    rw [List.length_cons, List.length_append, width]
    omega
  have small : session.toNat < 256 ^ 4 := session.toNat_lt
  have sessionBack : UInt32.ofNat (beValue (beBytes 4 session.toNat)) = session := by
    rw [beValue_beBytes, Nat.mod_eq_of_lt small, UInt32.ofNat_toNat]
  rw [List.cons_append, decodeRelay, if_neg longEnough, List.head?_cons, if_neg (not_not.mpr rfl)]
  simp only [List.drop_succ_cons, List.drop_zero, front, back, sessionBack, if_neg large]

end Mosschat.Net.Gate
