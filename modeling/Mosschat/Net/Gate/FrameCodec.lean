import Mosschat.Core.Event.Envelope
import Mosschat.Net.Gate.Wire

/-!
Owns the CBOR form of a control frame, from `gate/wire.rs`: the encoder and the decoder
of each kind, that they invert each other within the caps, and that no accepted byte
string begins another; the same for the `Relay` datagram and the address of the wire.

Does not own the length prefix a frame travels behind.
-/

namespace Mosschat.Net.Gate

open Mosschat.Core Mosschat.Library.Cbor

def controlFrameLenCap : Nat := 64 * 1024
def sealedCap : Nat := 512
def errorDetailCap : Nat := 64

def tRegister : Nat := 1
def tRegistered : Nat := 2
def tReflect : Nat := 3
def tReflected : Nat := 4
def tIntroduce : Nat := 5
def tIntroduction : Nat := 6
def tStart : Nat := 7
def tStartRequest : Nat := 8
def tKeepalive : Nat := 9
def tKeepaliveAck : Nat := 10
def tGoodbye : Nat := 11
def tError : Nat := 12
def tKnock : Nat := 14
def tKnockAnswer : Nat := 15

/-! ## The address -/

namespace Addr

/-- `Addr::to_socket_addr`. -/
def toSocketAddr (addr : Addr) : Option SocketAddr :=
  match addr.family with
  | 4 => some ⟨.v4 (addr.bytes.take 4), addr.port⟩
  | 6 => some ⟨.v6 addr.bytes, addr.port⟩
  | _ => none

/-- `Addr::to_raw`. -/
def toRaw (addr : Addr) : Bytes :=
  addr.family :: (addr.bytes.toList ++ beBytes 2 addr.port.toNat)

theorem rawBytes_length {raw : Bytes} (width : raw.length = 19) :
    ((raw.drop 1).take 16).length = 16 := by
  rw [List.length_take, List.length_drop]
  omega

/-- `Addr::from_raw`. -/
def fromRaw (raw : Bytes) : Decoder Addr :=
  if width : raw.length = 19 then
    pure
      { family := raw.headD 0
        bytes := ⟨(raw.drop 1).take 16, rawBytes_length width⟩
        port := UInt16.ofNat (beValue (raw.drop 17)) }
  else throw (.message "Addr must be exactly 19 bytes")

/-- `Addr::encode`. -/
def encode (addr : Addr) : Bytes := encodeBytes addr.toRaw

/-- `Addr::decode`. -/
def decode : Decoder Addr := do
  let raw ← Mosschat.Library.Cbor.bytes
  fromRaw raw

end Addr

/-! ## The frames -/

namespace Frame

/-- The array head of a frame, its type and its version. -/
def encodeFront (length frameType : Nat) (v : UInt8) (back : Bytes) : Bytes :=
  encodeHead majorArray length ++ (encodeUnsigned frameType ++ (encodeUnsigned v.toNat ++ back))

/-- `Frame::to_cbor`. -/
def toCbor : Frame → Bytes
  | .register v community => encodeFront 3 tRegister v (encodeBytes community.toList)
  | .registered v observed keepaliveS secondaryPort =>
    encodeFront 5 tRegistered v
      (observed.encode ++
        (encodeUnsigned keepaliveS.toNat ++ encodeUnsigned secondaryPort.toNat))
  | .reflect v => encodeFront 2 tReflect v []
  | .reflected v observed => encodeFront 3 tReflected v observed.encode
  | .introduce v tag ttlS sealedBytes =>
    encodeFront 4 tIntroduce v
      (encodeBytes tag.toList ++ (encodeUnsigned ttlS.toNat ++ encodeBytes sealedBytes))
  | .introduction v tag session peerObserved role =>
    encodeFront 5 tIntroduction v
      (encodeBytes tag.toList ++
        (encodeUnsigned session.toNat ++ (peerObserved.encode ++ encodeUnsigned role.toNat)))
  | .start v session fireInMs gateMs =>
    encodeFront 5 tStart v
      (encodeUnsigned session.toNat ++
        (encodeUnsigned fireInMs.toNat ++ encodeUnsigned gateMs.toNat))
  | .startRequest v session => encodeFront 3 tStartRequest v (encodeUnsigned session.toNat)
  | .keepalive v => encodeFront 2 tKeepalive v []
  | .keepaliveAck v observed => encodeFront 3 tKeepaliveAck v observed.encode
  | .goodbye v reason => encodeFront 3 tGoodbye v (encodeUnsigned reason.toNat)
  | .error v code detail =>
    encodeFront 4 tError v (encodeUnsigned code.toNat ++ encodeStr detail)
  | .knock v tag ttlS sealedBytes =>
    encodeFront 4 tKnock v
      (encodeBytes tag.toList ++ (encodeUnsigned ttlS.toNat ++ encodeBytes sealedBytes))
  | .knockAnswer v tag accept =>
    encodeFront 4 tKnockAnswer v (encodeBytes tag.toList ++ encodeBool accept)

/-- The fields after the version of the two frames that carry a sealed body. -/
def readSealed (build : UInt8 → Bytes32 → UInt16 → Bytes → Frame) : Decoder Frame := do
  let v ← u8
  let tag ← read32
  let ttlS ← u16
  let sealedBytes ← bytes
  if sealedCap < sealedBytes.length then throw (.message "sealed body exceeds its cap")
  else pure (build v tag ttlS sealedBytes)

/-- The fields of a frame of this type in an array of this length. -/
def readFields (frameType length : Nat) : Decoder Frame :=
  match frameType, length with
  | 1, 3 => do
    let v ← u8
    let community ← read32
    pure (.register v community)
  | 2, 5 => do
    let v ← u8
    let observed ← Addr.decode
    let keepaliveS ← u8
    let secondaryPort ← u16
    pure (.registered v observed keepaliveS secondaryPort)
  | 3, 2 => do
    let v ← u8
    pure (.reflect v)
  | 4, 3 => do
    let v ← u8
    let observed ← Addr.decode
    pure (.reflected v observed)
  | 5, 4 => readSealed .introduce
  | 6, 5 => do
    let v ← u8
    let tag ← read32
    let session ← u32
    let peerObserved ← Addr.decode
    let role ← u8
    pure (.introduction v tag session peerObserved role)
  | 7, 5 => do
    let v ← u8
    let session ← u32
    let fireInMs ← u16
    let gateMs ← u64
    pure (.start v session fireInMs gateMs)
  | 8, 3 => do
    let v ← u8
    let session ← u32
    pure (.startRequest v session)
  | 9, 2 => do
    let v ← u8
    pure (.keepalive v)
  | 10, 3 => do
    let v ← u8
    let observed ← Addr.decode
    pure (.keepaliveAck v observed)
  | 11, 3 => do
    let v ← u8
    let reason ← u8
    pure (.goodbye v reason)
  | 12, 4 => do
    let v ← u8
    let code ← u8
    let detail ← str
    if errorDetailCap < detail.utf8ByteSize then throw (.message "error detail exceeds its cap")
    else pure (.error v code detail)
  | 14, 4 => readSealed .knock
  | 15, 4 => do
    let v ← u8
    let tag ← read32
    let accept ← bool
    pure (.knockAnswer v tag accept)
  | other, _ => throw (.message ("unknown or mis-sized frame type " ++ toString other))

/-- The reads of `Frame::from_cbor`. -/
def readFrame : Decoder Frame := do
  match ← array with
  | none => throw (.message "frame must be a definite-length array")
  | some length =>
    let frameType ← u8
    readFields frameType.toNat length

/-- `Frame::from_cbor`. -/
def fromCbor (input : Bytes) : Except DecodeError Frame :=
  match readFrame input with
  | .error reason => .error reason
  | .ok (frame, rest) =>
    if rest ≠ [] then .error (.message "frame carries trailing bytes") else .ok frame

/-- The frame is within the caps of the wire. -/
def Capped : Frame → Prop
  | .introduce _ _ _ sealedBytes | .knock _ _ _ sealedBytes => sealedBytes.length ≤ sealedCap
  | .error _ _ detail => detail.utf8ByteSize ≤ errorDetailCap
  | _ => True

end Frame

/-! ## The address is read back -/

namespace Addr

theorem toRaw_length (addr : Addr) : addr.toRaw.length = 19 := by
  rw [toRaw, List.length_cons, List.length_append, beBytes_length, addr.bytes.toList_length]

theorem reads_fromRaw (addr : Addr) : Reads (fromRaw addr.toRaw) [] addr := by
  have width := addr.toRaw_length
  have middle : ((addr.toRaw.drop 1).take 16) = addr.bytes.toList := by
    rw [toRaw, List.drop_succ_cons, List.drop_zero]
    exact List.take_left' addr.bytes.toList_length
  have back : addr.toRaw.drop 17 = beBytes 2 addr.port.toNat := by
    rw [toRaw, List.drop_succ_cons]
    exact List.drop_left' addr.bytes.toList_length
  have port : UInt16.ofNat (beValue (addr.toRaw.drop 17)) = addr.port := by
    have small : addr.port.toNat < 256 ^ 2 := addr.port.toNat_lt
    rw [back, beValue_beBytes, Nat.mod_eq_of_lt small, UInt16.ofNat_toNat]
  have isAddr : (⟨addr.toRaw.headD 0, ⟨(addr.toRaw.drop 1).take 16, rawBytes_length width⟩,
      UInt16.ofNat (beValue (addr.toRaw.drop 17))⟩ : Addr) = addr := by
    have bytes : (⟨(addr.toRaw.drop 1).take 16, rawBytes_length width⟩ : Bytes16) = addr.bytes :=
      List.Vector.eq _ _ middle
    rw [port, bytes]
    rfl
  rw [fromRaw, dif_pos width, isAddr]
  exact Reads.pure addr

theorem reads_decode (addr : Addr) : Reads decode addr.encode addr := by
  have width := addr.toRaw_length
  exact (reads_bytes (by omega)).bind_pure (reads_fromRaw addr)

theorem local_decode : Local decode := by
  refine local_bytes.bind fun raw => ?_
  unfold fromRaw
  split
  · exact Local.pure _
  · exact Local.throw _

theorem encode_length (addr : Addr) : addr.encode.length = 20 := by
  rw [encode, encodeBytes, List.length_append, encodeHead_length, addr.toRaw_length]
  rfl

/-- The wire keeps an address: every IPv4 one, and every IPv6 one without flow label and
scope. -/
theorem toSocketAddr_fromSocketAddr (addr : SocketAddr) :
    (fromSocketAddr addr).toSocketAddr = some addr := by
  obtain ⟨ip, port⟩ := addr
  cases ip with
  | v4 octets =>
      have front : ((fromSocketAddr ⟨.v4 octets, port⟩).bytes.take 4 : List.Vector UInt8 4) =
          octets := by
        apply List.Vector.eq
        exact List.take_left' octets.toList_length
      exact congrArg (fun ip => some (SocketAddr.mk (.v4 ip) port)) front
  | v6 octets => rfl

end Addr

/-! ## The frames are read back -/

theorem local_read32 : Local read32 := by
  refine local_bytes.bind fun slice => ?_
  split
  · exact Local.pure _
  · exact Local.throw _

namespace Frame

/-- The front of a frame is read before its fields. -/
theorem reads_front {length frameType : Nat} {v : UInt8} {back : Bytes} {frame : Frame}
    (lengthSmall : length < 2 ^ 64) (typeSmall : frameType < 2 ^ 8)
    (reads : Reads (readFields frameType length) (encodeUnsigned v.toNat ++ back) frame) :
    Reads readFrame (encodeFront length frameType v back) frame := by
  refine (reads_lengthHead (by decide) lengthSmall).bind ?_
  have isType : (UInt8.ofNat frameType).toNat = frameType := by
    rw [UInt8.toNat_ofNat', Nat.mod_eq_of_lt typeSmall]
  have readsType := reads_u8 (UInt8.ofNat frameType)
  rw [isType] at readsType
  refine readsType.bind ?_
  rw [isType]
  exact reads

theorem reads_readSealed (build : UInt8 → Bytes32 → UInt16 → Bytes → Frame) (v : UInt8)
    (tag : Bytes32) (ttlS : UInt16) {sealedBytes : Bytes}
    (within : sealedBytes.length ≤ sealedCap) :
    Reads (readSealed build)
      (encodeUnsigned v.toNat ++
        (encodeBytes tag.toList ++ (encodeUnsigned ttlS.toNat ++ encodeBytes sealedBytes)))
      (build v tag ttlS sealedBytes) := by
  have cap : sealedCap = 512 := rfl
  refine (reads_u8 v).bind ?_
  refine (Envelope.reads_read32 tag).bind ?_
  refine (reads_u16 ttlS).bind ?_
  refine (reads_bytes (by omega)).bind_pure ?_
  exact (Reads.pure _).refuse (Nat.not_lt.mpr within)

/-- Every frame within the caps is read back from its encoding. -/
theorem reads_readFrame {frame : Frame} (capped : frame.Capped) :
    Reads readFrame frame.toCbor frame := by
  cases frame with
  | register v community =>
      refine reads_front (by decide) (by decide) ?_
      refine (reads_u8 v).bind ?_
      exact (Envelope.reads_read32 community).bind_pure (Reads.pure _)
  | registered v observed keepaliveS secondaryPort =>
      refine reads_front (by decide) (by decide) ?_
      refine (reads_u8 v).bind ?_
      refine observed.reads_decode.bind ?_
      refine (reads_u8 keepaliveS).bind ?_
      exact (reads_u16 secondaryPort).bind_pure (Reads.pure _)
  | reflect v =>
      refine reads_front (by decide) (by decide) ?_
      exact (reads_u8 v).bind (Reads.pure _)
  | reflected v observed =>
      refine reads_front (by decide) (by decide) ?_
      refine (reads_u8 v).bind ?_
      exact observed.reads_decode.bind_pure (Reads.pure _)
  | introduce v tag ttlS sealedBytes =>
      refine reads_front (by decide) (by decide) ?_
      exact reads_readSealed .introduce v tag ttlS capped
  | introduction v tag session peerObserved role =>
      refine reads_front (by decide) (by decide) ?_
      refine (reads_u8 v).bind ?_
      refine (Envelope.reads_read32 tag).bind ?_
      refine (reads_u32 session).bind ?_
      refine peerObserved.reads_decode.bind ?_
      exact (reads_u8 role).bind_pure (Reads.pure _)
  | start v session fireInMs gateMs =>
      refine reads_front (by decide) (by decide) ?_
      refine (reads_u8 v).bind ?_
      refine (reads_u32 session).bind ?_
      refine (reads_u16 fireInMs).bind ?_
      exact (reads_u64 gateMs).bind_pure (Reads.pure _)
  | startRequest v session =>
      refine reads_front (by decide) (by decide) ?_
      refine (reads_u8 v).bind ?_
      exact (reads_u32 session).bind_pure (Reads.pure _)
  | keepalive v =>
      refine reads_front (by decide) (by decide) ?_
      exact (reads_u8 v).bind (Reads.pure _)
  | keepaliveAck v observed =>
      refine reads_front (by decide) (by decide) ?_
      refine (reads_u8 v).bind ?_
      exact observed.reads_decode.bind_pure (Reads.pure _)
  | goodbye v reason =>
      refine reads_front (by decide) (by decide) ?_
      refine (reads_u8 v).bind ?_
      exact (reads_u8 reason).bind_pure (Reads.pure _)
  | error v code detail =>
      have cap : errorDetailCap = 64 := rfl
      have within : detail.utf8ByteSize ≤ errorDetailCap := capped
      refine reads_front (by decide) (by decide) ?_
      refine (reads_u8 v).bind ?_
      refine (reads_u8 code).bind ?_
      refine (reads_str (by omega)).bind_pure ?_
      exact (Reads.pure _).refuse (Nat.not_lt.mpr within)
  | knock v tag ttlS sealedBytes =>
      refine reads_front (by decide) (by decide) ?_
      exact reads_readSealed .knock v tag ttlS capped
  | knockAnswer v tag accept =>
      refine reads_front (by decide) (by decide) ?_
      refine (reads_u8 v).bind ?_
      refine (Envelope.reads_read32 tag).bind ?_
      exact (reads_bool accept).bind_pure (Reads.pure _)

theorem local_readSealed (build : UInt8 → Bytes32 → UInt16 → Bytes → Frame) :
    Local (readSealed build) := by
  refine local_u8.bind fun v => local_read32.bind fun tag => local_u16.bind fun ttlS => ?_
  exact local_bytes.bind fun sealedBytes => Local.ite (Local.throw _) (Local.pure _)

theorem local_readFields (frameType length : Nat) : Local (readFields frameType length) := by
  unfold readFields
  split
  · exact local_u8.bind fun _ => local_read32.bind fun _ => Local.pure _
  · exact local_u8.bind fun _ => Addr.local_decode.bind fun _ => local_u8.bind fun _ =>
      local_u16.bind fun _ => Local.pure _
  · exact local_u8.bind fun _ => Local.pure _
  · exact local_u8.bind fun _ => Addr.local_decode.bind fun _ => Local.pure _
  · exact local_readSealed _
  · exact local_u8.bind fun _ => local_read32.bind fun _ => local_u32.bind fun _ =>
      Addr.local_decode.bind fun _ => local_u8.bind fun _ => Local.pure _
  · exact local_u8.bind fun _ => local_u32.bind fun _ => local_u16.bind fun _ =>
      local_u64.bind fun _ => Local.pure _
  · exact local_u8.bind fun _ => local_u32.bind fun _ => Local.pure _
  · exact local_u8.bind fun _ => Local.pure _
  · exact local_u8.bind fun _ => Addr.local_decode.bind fun _ => Local.pure _
  · exact local_u8.bind fun _ => local_u8.bind fun _ => Local.pure _
  · exact local_u8.bind fun _ => local_u8.bind fun _ => local_str.bind fun _ =>
      Local.ite (Local.throw _) (Local.pure _)
  · exact local_readSealed _
  · exact local_u8.bind fun _ => local_read32.bind fun _ => local_bool.bind fun _ => Local.pure _
  · exact Local.throw _

theorem local_readFrame : Local readFrame := by
  refine local_array.bind fun length => ?_
  cases length with
  | none => exact Local.throw _
  | some length => exact local_u8.bind fun frameType => local_readFields _ length

/-! ## What is accepted is within the caps -/

theorem yields_readSealed {build : UInt8 → Bytes32 → UInt16 → Bytes → Frame}
    (capped : ∀ v tag ttlS sealedBytes, sealedBytes.length ≤ sealedCap →
      (build v tag ttlS sealedBytes).Capped) : Yields (readSealed build) Capped := by
  refine Yields.after fun v => Yields.after fun tag => Yields.after fun ttlS => ?_
  refine Yields.after fun sealedBytes => Yields.refuse fun within => ?_
  exact Yields.pure (capped v tag ttlS sealedBytes (Nat.le_of_not_lt within))

theorem yields_readFields (frameType length : Nat) :
    Yields (readFields frameType length) Capped := by
  unfold readFields
  split
  · exact Yields.after fun _ => Yields.after fun _ => Yields.pure trivial
  · exact Yields.after fun _ => Yields.after fun _ => Yields.after fun _ => Yields.after fun _ =>
      Yields.pure trivial
  · exact Yields.after fun _ => Yields.pure trivial
  · exact Yields.after fun _ => Yields.after fun _ => Yields.pure trivial
  · exact yields_readSealed fun _ _ _ _ within => within
  · exact Yields.after fun _ => Yields.after fun _ => Yields.after fun _ => Yields.after fun _ =>
      Yields.after fun _ => Yields.pure trivial
  · exact Yields.after fun _ => Yields.after fun _ => Yields.after fun _ => Yields.after fun _ =>
      Yields.pure trivial
  · exact Yields.after fun _ => Yields.after fun _ => Yields.pure trivial
  · exact Yields.after fun _ => Yields.pure trivial
  · exact Yields.after fun _ => Yields.after fun _ => Yields.pure trivial
  · exact Yields.after fun _ => Yields.after fun _ => Yields.pure trivial
  · exact Yields.after fun _ => Yields.after fun _ => Yields.after fun detail =>
      Yields.refuse fun within => Yields.pure (Nat.le_of_not_lt within)
  · exact yields_readSealed fun _ _ _ _ within => within
  · exact Yields.after fun _ => Yields.after fun _ => Yields.after fun _ => Yields.pure trivial
  · exact Yields.throw

theorem yields_readFrame : Yields readFrame Capped := by
  refine Yields.after fun length => ?_
  cases length with
  | none => exact Yields.throw
  | some length => exact Yields.after fun frameType => yields_readFields _ length

/-! ## The lengths -/

theorem encodeUnsigned_length (value : Nat) :
    (encodeUnsigned value).length = headLength value := encodeHead_length _ _

theorem headLength_u8 (value : UInt8) : headLength value.toNat ≤ 2 :=
  headLength_mono (Nat.le_of_lt_succ value.toNat_lt)

theorem headLength_u16 (value : UInt16) : headLength value.toNat ≤ 3 :=
  headLength_mono (Nat.le_of_lt_succ value.toNat_lt)

theorem headLength_u32 (value : UInt32) : headLength value.toNat ≤ 5 :=
  headLength_le_of_lt value.toNat_lt

theorem encodeBytes_length_le {slice : Bytes} {bound : Nat} (within : slice.length ≤ bound) :
    (encodeBytes slice).length ≤ headLength bound + bound := by
  have head := headLength_mono within
  rw [encodeBytes, List.length_append, encodeHead_length]
  omega

theorem encodeStr_length_le {text : String} {bound : Nat}
    (within : text.utf8ByteSize ≤ bound) : (encodeStr text).length ≤ headLength bound + bound := by
  rw [← toUTF8_length] at within
  have head := headLength_mono within
  rw [encodeStr, List.length_append, encodeHead_length]
  omega

theorem encodeBytes32_length_le (value : Bytes32) : (encodeBytes value.toList).length ≤ 34 :=
  encodeBytes_length_le (Nat.le_of_eq value.toList_length)

theorem encodeFront_length {length frameType : Nat} (v : UInt8) (back : Bytes)
    (lengthSmall : length ≤ 23) (typeSmall : frameType ≤ 23) :
    (encodeFront length frameType v back).length ≤ 4 + back.length := by
  have lengthHead : headLength length = 1 := if_pos lengthSmall
  have typeHead : headLength frameType = 1 := if_pos typeSmall
  have vHead := headLength_u8 v
  simp only [encodeFront, List.length_append, encodeHead_length, encodeUnsigned_length]
  omega

/-- A sealed body within its cap, with the fields before it. -/
theorem encodeSealed_length {length frameType : Nat} (lengthSmall : length ≤ 23)
    (typeSmall : frameType ≤ 23) (v : UInt8) (tag : Bytes32) (ttlS : UInt16) {sealedBytes : Bytes}
    (within : sealedBytes.length ≤ sealedCap) :
    (encodeFront length frameType v
      (encodeBytes tag.toList ++ (encodeUnsigned ttlS.toNat ++ encodeBytes sealedBytes))).length ≤
        556 := by
  have front := encodeFront_length v (encodeBytes tag.toList ++
    (encodeUnsigned ttlS.toNat ++ encodeBytes sealedBytes)) lengthSmall typeSmall
  have tagLength := encodeBytes32_length_le tag
  have ttlLength := headLength_u16 ttlS
  have sealedLength := encodeBytes_length_le within
  have cap : headLength sealedCap + sealedCap = 515 := rfl
  simp only [List.length_append, encodeUnsigned_length] at front
  omega

/-- An encoded frame is far under the cap on a frame. -/
theorem toCbor_length_le {frame : Frame} (capped : frame.Capped) :
    frame.toCbor.length ≤ 556 := by
  cases frame with
  | register v community =>
      have front := encodeFront_length v (encodeBytes community.toList)
        (show 3 ≤ 23 by decide) (show tRegister ≤ 23 by decide)
      have community := encodeBytes32_length_le community
      rw [toCbor]
      omega
  | registered v observed keepaliveS secondaryPort =>
      have front := encodeFront_length v (observed.encode ++
        (encodeUnsigned keepaliveS.toNat ++ encodeUnsigned secondaryPort.toNat))
        (show 5 ≤ 23 by decide) (show tRegistered ≤ 23 by decide)
      have keepalive := headLength_u8 keepaliveS
      have port := headLength_u16 secondaryPort
      simp only [List.length_append, encodeUnsigned_length, Addr.encode_length] at front
      rw [toCbor]
      omega
  | reflect v | keepalive v =>
      refine (encodeFront_length _ _ (by decide) (by decide)).trans ?_
      decide
  | reflected v observed | keepaliveAck v observed =>
      refine (encodeFront_length _ _ (by decide) (by decide)).trans ?_
      rw [Addr.encode_length]
      decide
  | introduce v tag ttlS sealedBytes | knock v tag ttlS sealedBytes =>
      exact encodeSealed_length (by decide) (by decide) v tag ttlS capped
  | introduction v tag session peerObserved role =>
      have front := encodeFront_length v (encodeBytes tag.toList ++
        (encodeUnsigned session.toNat ++ (peerObserved.encode ++ encodeUnsigned role.toNat)))
        (show 5 ≤ 23 by decide) (show tIntroduction ≤ 23 by decide)
      have tagLength := encodeBytes32_length_le tag
      have sessionLength := headLength_u32 session
      have roleLength := headLength_u8 role
      simp only [List.length_append, encodeUnsigned_length, Addr.encode_length] at front
      rw [toCbor]
      omega
  | start v session fireInMs gateMs =>
      have front := encodeFront_length v (encodeUnsigned session.toNat ++
        (encodeUnsigned fireInMs.toNat ++ encodeUnsigned gateMs.toNat))
        (show 5 ≤ 23 by decide) (show tStart ≤ 23 by decide)
      have sessionLength := headLength_u32 session
      have fireLength := headLength_u16 fireInMs
      have gateLength := headLength_le gateMs.toNat
      simp only [List.length_append, encodeUnsigned_length] at front
      rw [toCbor]
      omega
  | startRequest v session =>
      have front := encodeFront_length v (encodeUnsigned session.toNat)
        (show 3 ≤ 23 by decide) (show tStartRequest ≤ 23 by decide)
      have sessionLength := headLength_u32 session
      simp only [encodeUnsigned_length] at front
      rw [toCbor]
      omega
  | goodbye v reason =>
      have front := encodeFront_length v (encodeUnsigned reason.toNat)
        (show 3 ≤ 23 by decide) (show tGoodbye ≤ 23 by decide)
      have reasonLength := headLength_u8 reason
      simp only [encodeUnsigned_length] at front
      rw [toCbor]
      omega
  | error v code detail =>
      have front := encodeFront_length v (encodeUnsigned code.toNat ++
        encodeStr detail) (show 4 ≤ 23 by decide) (show tError ≤ 23 by decide)
      have codeLength := headLength_u8 code
      have detailLength : (encodeStr detail).length ≤ headLength errorDetailCap + errorDetailCap :=
        encodeStr_length_le capped
      have cap : headLength errorDetailCap + errorDetailCap = 66 := rfl
      simp only [List.length_append, encodeUnsigned_length] at front
      rw [toCbor]
      omega
  | knockAnswer v tag accept =>
      have front := encodeFront_length v (encodeBytes tag.toList ++
        encodeBool accept) (show 4 ≤ 23 by decide) (show tKnockAnswer ≤ 23 by decide)
      have tagLength := encodeBytes32_length_le tag
      have acceptLength : (encodeBool accept).length = 1 := by cases accept <;> rfl
      simp only [List.length_append] at front
      rw [toCbor]
      omega

theorem fromCbor_toCbor {frame : Frame} (capped : frame.Capped) :
    fromCbor frame.toCbor = .ok frame := by
  have reads := reads_readFrame capped []
  rw [List.append_nil] at reads
  rw [fromCbor, reads]
  rfl

theorem readFrame_of_fromCbor {input : Bytes} {frame : Frame}
    (decoded : fromCbor input = .ok frame) : readFrame input = .ok (frame, []) := by
  unfold fromCbor at decoded
  split at decoded
  · cases decoded
  · next read =>
      split_ifs at decoded with trailing
      cases decoded
      rw [read, not_not.mp trailing]

/-- A frame has no frame of its own as a proper prefix. -/
theorem prefix_free {input more : Bytes} {frame other : Frame}
    (decoded : fromCbor input = .ok frame) (longer : fromCbor (input ++ more) = .ok other) :
    more = [] := by
  have read : readFrame (input ++ more) = .ok (frame, more) :=
    local_readFrame.rest_eq (readFrame_of_fromCbor decoded)
  rw [readFrame_of_fromCbor longer] at read
  cases read
  rfl

end Frame

/-! ## The `Relay` datagram -/

/-- A payload is encoded exactly when it fits. -/
theorem encodeRelay_isOk_iff (session : UInt32) (payload : Bytes) :
    (∃ datagram, encodeRelay session payload = .ok datagram) ↔
      payload.length ≤ relayPayloadCap := by
  unfold encodeRelay
  split
  · next tooLarge =>
      constructor
      · intro encoded
        obtain ⟨_, isEncoded⟩ := encoded
        cases isEncoded
      · intro fits
        exact absurd tooLarge (Nat.not_lt.mpr fits)
  · next fits => exact ⟨fun _ => Nat.le_of_not_lt fits, fun _ => ⟨_, rfl⟩⟩

/-- What decodes is the encoding of what it decodes to. -/
theorem encodeRelay_eq_of_decodeRelay {datagram payload : Bytes} {session : UInt32}
    (decoded : decodeRelay datagram = .ok (session, payload)) :
    encodeRelay session payload = .ok datagram := by
  rw [encodeRelay_of_decodeRelay decoded]
  unfold decodeRelay at decoded
  split at decoded
  · cases decoded
  next longEnough =>
  split at decoded
  · cases decoded
  next discriminator =>
  simp only at decoded
  split at decoded
  · cases decoded
  cases decoded
  cases datagram with
  | nil => exact absurd (by decide) longEnough
  | cons byte rest =>
      have isByte : byte = relayDiscriminator := Option.some.inj (not_not.mp discriminator)
      have front : (rest.take 4).length = 4 := by
        rw [List.length_cons] at longEnough
        rw [List.length_take]
        omega
      have small : beValue (rest.take 4) < 2 ^ 32 := by
        have digits := beValue_lt (rest.take 4)
        rw [front] at digits
        exact digits
      have sessionBytes : beBytes 4 (UInt32.ofNat (beValue (rest.take 4))).toNat =
          rest.take 4 := by
        have digits := beBytes_beValue (rest.take 4)
        rw [front] at digits
        rw [UInt32.toNat_ofNat', Nat.mod_eq_of_lt small]
        exact digits
      simp only [List.drop_succ_cons, List.drop_zero, sessionBytes, List.cons_append]
      rw [List.take_append_drop, isByte]

theorem decodeRelay_eq_ok_iff {datagram payload : Bytes} {session : UInt32} :
    decodeRelay datagram = .ok (session, payload) ↔
      encodeRelay session payload = .ok datagram :=
  ⟨encodeRelay_eq_of_decodeRelay, decodeRelay_encodeRelay⟩

/-! ## The wire codec -/

/-- A frame within the caps is read back from its encoding, which is far under the cap on a
frame; every accepted byte string is a frame within the caps, and none begins another; a
datagram is encoded exactly when its payload fits, and exactly the encodings decode; and the
wire keeps an address. -/
theorem wire_codec :
    (∀ frame : Frame, frame.Capped →
      Frame.fromCbor frame.toCbor = .ok frame ∧ frame.toCbor.length ≤ 556 ∧
        556 < controlFrameLenCap) ∧
    (∀ input frame, Frame.fromCbor input = .ok frame → frame.Capped) ∧
    (∀ input longer frame other, Frame.fromCbor input = .ok frame →
      Frame.fromCbor longer = .ok other → input <+: longer → input = longer) ∧
    (∀ session payload, (∃ datagram, encodeRelay session payload = .ok datagram) ↔
      payload.length ≤ relayPayloadCap) ∧
    (∀ session payload datagram, decodeRelay datagram = .ok (session, payload) ↔
      encodeRelay session payload = .ok datagram) ∧
    ∀ addr : SocketAddr, (Addr.fromSocketAddr addr).toSocketAddr = some addr := by
  refine ⟨?_, ?_, ?_, encodeRelay_isOk_iff, fun _ _ _ => decodeRelay_eq_ok_iff,
    Addr.toSocketAddr_fromSocketAddr⟩
  · intro frame capped
    exact ⟨Frame.fromCbor_toCbor capped, Frame.toCbor_length_le capped, by decide⟩
  · intro input frame decoded
    exact Frame.yields_readFrame input frame [] (Frame.readFrame_of_fromCbor decoded)
  · intro input longer frame other decoded alsoDecoded isPrefix
    obtain ⟨more, isLonger⟩ := isPrefix
    rw [← isLonger] at alsoDecoded
    rw [← isLonger, Frame.prefix_free decoded alsoDecoded, List.append_nil]

end Mosschat.Net.Gate
