import Mosschat.Net.Doorbell.Attempt

/-!
Owns the packet form of a probe, from `punch.rs`: its fields at their offsets, the keyed
hash over them, and how a probe is told from QUIC.

Does not own BLAKE3: its keyed hash comes from outside the repository and is the parameter
`keyedHash`.
-/

namespace Mosschat.Net

open Mosschat.Core Mosschat.Library.Cbor Mosschat.Net.Gate

/-- `PROBE_DISCRIMINATOR`. -/
def probeDiscriminator : UInt8 := 0x2A

/-- `PROBE_LEN`. -/
def probeLen : Nat := 81

/-- `b"MSP"`. -/
def probeMagic : Bytes := [0x4D, 0x53, 0x50]

/-- `is_probe`. -/
def isProbe (segment : Bytes) : Bool :=
  segment.head? == some probeDiscriminator && segment.length == probeLen

/-- `copy_from_slice` of the bytes from an offset on. -/
def field (slice : Bytes) (offset width : Nat) : List.Vector UInt8 width :=
  List.Vector.ofFn fun index => slice.getD (offset + index) 0

/-- `addr_from_raw`. -/
def addrFromRaw (raw : Bytes) : Option Addr :=
  if raw.length ≠ 19 then none
  else
    some
      { family := raw.getD 0 0
        bytes := field raw 1 16
        port := UInt16.ofNat (beValue (field raw 17 2).toList) }

namespace Probe

/-- The bytes of a probe before its keyed hash. -/
def front (probe : Probe) : Bytes :=
  [probeDiscriminator] ++ (probeMagic ++ ([0x01] ++ ([probe.kind] ++
    (probe.attempt.toList ++ (probe.tx.toList ++ probe.observed.toRaw)))))

variable (keyedHash : Bytes32 → Bytes → Bytes32)

/-- `Probe::encode`. -/
def encode (probe : Probe) (key : Bytes32) : Bytes :=
  probe.front ++ (keyedHash key probe.front).toList

/-- `Probe::decode`. -/
def decode (packet : Bytes) (key : Bytes32) : Option Probe :=
  if packet.length ≠ probeLen then none
  else if packet.getD 0 0 ≠ probeDiscriminator ∨ (field packet 1 3).toList ≠ probeMagic ∨
      packet.getD 4 0 ≠ 0x01 then none
  else
    let kind := packet.getD 5 0
    if kind ≠ probePing ∧ kind ≠ probePong then none
    else if keyedHash key (packet.take 49) ≠ field packet 49 32 then none
    else
      (addrFromRaw (field packet 30 19).toList).map fun observed =>
        { kind, attempt := field packet 6 16, tx := field packet 22 8, observed }

end Probe

/-! ## Fields at offsets -/

theorem field_toList {slice : Bytes} {offset width : Nat} (inside : offset + width ≤ slice.length) :
    (field slice offset width).toList = (slice.drop offset).take width := by
  rw [field, List.Vector.toList_ofFn]
  apply List.ext_getElem
  · rw [List.length_ofFn, List.length_take, List.length_drop]
    omega
  · intro index below _
    rw [List.length_ofFn] at below
    have bound : offset + index < slice.length := by omega
    rw [List.getElem_ofFn, List.getElem_take, List.getElem_drop, List.getD_eq_getElem?_getD,
      List.getElem?_eq_getElem bound]
    rfl

/-- What stands behind an offset is the field there and what stands behind the field. -/
theorem drop_eq_field (slice : Bytes) (offset width : Nat)
    (inside : offset + width ≤ slice.length) :
    slice.drop offset = (field slice offset width).toList ++ slice.drop (offset + width) := by
  rw [field_toList inside, ← List.drop_drop, List.take_append_drop]

theorem field_one (slice : Bytes) (offset : Nat) :
    (field slice offset 1).toList = [slice.getD offset 0] := by
  rw [field, List.Vector.toList_ofFn]
  rfl

/-- The field is the bytes that were put there. -/
theorem field_of_append {slice behind : Bytes} {offset width : Nat} (before : Bytes)
    (value : List.Vector UInt8 width) (isSlice : slice = before ++ (value.toList ++ behind))
    (place : before.length = offset) : field slice offset width = value := by
  apply List.Vector.eq
  have length : value.toList.length = width := value.toList_length
  have inside : offset + width ≤ slice.length := by
    rw [isSlice, List.length_append, List.length_append]
    omega
  rw [field_toList inside, isSlice, List.drop_left' place, List.take_left' length]

theorem getD_of_append {slice behind : Bytes} {offset : Nat} (before : Bytes) (byte : UInt8)
    (isSlice : slice = before ++ ([byte] ++ behind)) (place : before.length = offset) :
    slice.getD offset 0 = byte := by
  have one := field_one slice offset
  rw [field_of_append before (⟨[byte], rfl⟩ : List.Vector UInt8 1) isSlice place] at one
  exact (List.singleton_inj.mp one).symm

/-! ## The address of a probe -/

theorem addrFromRaw_toRaw (addr : Addr) : addrFromRaw addr.toRaw = some addr := by
  have width := Addr.toRaw_length addr
  have octets : ([addr.family] ++ addr.bytes.toList).length = 17 := by
    rw [List.length_append, addr.bytes.toList_length]
    rfl
  have bytes : field addr.toRaw 1 16 = addr.bytes :=
    field_of_append [addr.family] addr.bytes rfl rfl
  have port : (field addr.toRaw 17 2).toList = beBytes 2 addr.port.toNat := by
    have wide : addr.toRaw.length = 17 + 2 := width
    have split : addr.toRaw = [addr.family] ++ addr.bytes.toList ++ beBytes 2 addr.port.toNat := by
      rw [List.append_assoc]
      rfl
    rw [field_toList (Nat.le_of_eq wide.symm), split, List.drop_left' octets]
    exact List.take_of_length_le (Nat.le_of_eq (beBytes_length 2 _))
  have small : addr.port.toNat < 256 ^ 2 := addr.port.toNat_lt
  have portBack : UInt16.ofNat (beValue (field addr.toRaw 17 2).toList) = addr.port := by
    rw [port, beValue_beBytes, Nat.mod_eq_of_lt small, UInt16.ofNat_toNat]
  rw [addrFromRaw, if_neg (not_not.mpr width), bytes, portBack]
  rfl

theorem toRaw_of_addrFromRaw {raw : Bytes} {addr : Addr} (read : addrFromRaw raw = some addr) :
    addr.toRaw = raw := by
  unfold addrFromRaw at read
  split_ifs at read with width
  have wide : raw.length = 19 := not_not.mp width
  have family := drop_eq_field raw 0 1 (by omega)
  have bytes := drop_eq_field raw 1 16 (by omega)
  have port := drop_eq_field raw 17 2 (by omega)
  have nothing : raw.drop 19 = [] := List.drop_eq_nil_of_le (Nat.le_of_eq wide)
  have portWidth := (field raw 17 2).toList_length
  have portBack : beBytes 2 (UInt16.ofNat (beValue (field raw 17 2).toList)).toNat =
      (field raw 17 2).toList := by
    have below := beValue_lt (field raw 17 2).toList
    have back := beBytes_beValue (field raw 17 2).toList
    rw [portWidth] at below back
    have small : beValue (field raw 17 2).toList < 2 ^ 16 := below
    rw [UInt16.toNat_ofNat', Nat.mod_eq_of_lt small, back]
  cases read
  show raw.getD 0 0 :: ((field raw 1 16).toList ++ _) = raw
  rw [portBack]
  rw [field_one, List.drop_zero] at family
  rw [family, bytes, port, nothing, List.append_nil]
  rfl

namespace Probe

variable (keyedHash : Bytes32 → Bytes → Bytes32)

theorem front_length (probe : Probe) : probe.front.length = 49 := by
  have attempt : probe.attempt.toList.length = 16 := probe.attempt.toList_length
  have tx : probe.tx.toList.length = 8 := probe.tx.toList_length
  have observed := Addr.toRaw_length probe.observed
  simp only [front, List.length_append, List.length_singleton, attempt, tx, observed]
  rfl

theorem encode_length (probe : Probe) (key : Bytes32) :
    (probe.encode keyedHash key).length = probeLen := by
  rw [encode, List.length_append, front_length, (keyedHash key probe.front).toList_length]
  rfl

/-- The parts of a packet, one behind the other. -/
theorem encode_parts (probe : Probe) (key : Bytes32) :
    probe.encode keyedHash key =
      [probeDiscriminator] ++ (probeMagic ++ ([0x01] ++ ([probe.kind] ++
        (probe.attempt.toList ++ (probe.tx.toList ++ (probe.observed.toRaw ++
          (keyedHash key probe.front).toList)))))) := by
  simp only [encode, front, List.append_assoc]

/-- What is encoded decodes to the probe, under the same key. -/
theorem decode_encode (key : Bytes32) {probe : Probe}
    (known : probe.kind = probePing ∨ probe.kind = probePong) :
    decode keyedHash (probe.encode keyedHash key) key = some probe := by
  have length := encode_length keyedHash probe key
  have parts := encode_parts keyedHash probe key
  have attemptLength : probe.attempt.toList.length = 16 := probe.attempt.toList_length
  have txLength : probe.tx.toList.length = 8 := probe.tx.toList_length
  generalize isPacket : probe.encode keyedHash key = packet at length parts
  have discriminator : packet.getD 0 0 = probeDiscriminator :=
    getD_of_append [] probeDiscriminator parts rfl
  have magic : (field packet 1 3).toList = probeMagic :=
    congrArg List.Vector.toList
      (field_of_append [probeDiscriminator] (⟨probeMagic, rfl⟩ : List.Vector UInt8 3) parts rfl)
  have version : packet.getD 4 0 = 0x01 :=
    getD_of_append ([probeDiscriminator] ++ probeMagic) 0x01 parts rfl
  have kind : packet.getD 5 0 = probe.kind :=
    getD_of_append ([probeDiscriminator] ++ probeMagic ++ [0x01]) probe.kind parts rfl
  have attempt : field packet 6 16 = probe.attempt :=
    field_of_append ([probeDiscriminator] ++ probeMagic ++ [0x01] ++ [probe.kind]) probe.attempt
      parts rfl
  have toTx : packet =
      [probeDiscriminator] ++ probeMagic ++ [0x01] ++ [probe.kind] ++ probe.attempt.toList ++
        (probe.tx.toList ++ (probe.observed.toRaw ++ (keyedHash key probe.front).toList)) := by
    rw [parts]
    simp only [List.append_assoc]
  have tx : field packet 22 8 = probe.tx := by
    refine field_of_append _ probe.tx toTx ?_
    rw [List.length_append, attemptLength]
    rfl
  have toObserved : packet =
      [probeDiscriminator] ++ probeMagic ++ [0x01] ++ [probe.kind] ++ probe.attempt.toList ++
        probe.tx.toList ++ (probe.observed.toRaw ++ (keyedHash key probe.front).toList) := by
    rw [toTx]
    simp only [List.append_assoc]
  have observed : (field packet 30 19).toList = probe.observed.toRaw := by
    refine congrArg List.Vector.toList (field_of_append _
      (⟨probe.observed.toRaw, Addr.toRaw_length _⟩ : List.Vector UInt8 19) toObserved ?_)
    rw [List.length_append, List.length_append, attemptLength, txLength]
    rfl
  have toMac : packet = probe.front ++ ((keyedHash key probe.front).toList ++ []) := by
    rw [List.append_nil, ← isPacket, encode]
  have mac : field packet 49 32 = keyedHash key probe.front :=
    field_of_append _ _ toMac (front_length probe)
  have covered : packet.take 49 = probe.front := by
    rw [toMac]
    exact List.take_left' (front_length probe)
  have isKnown : ¬(packet.getD 5 0 ≠ probePing ∧ packet.getD 5 0 ≠ probePong) := by
    rw [kind, not_and_or, not_not, not_not]
    exact known
  have framed : ¬(packet.getD 0 0 ≠ probeDiscriminator ∨ (field packet 1 3).toList ≠ probeMagic ∨
      packet.getD 4 0 ≠ 0x01) := by
    rw [discriminator, magic, version]
    simp
  have authentic : ¬keyedHash key (packet.take 49) ≠ field packet 49 32 := by
    rw [covered, mac]
    exact not_not.mpr rfl
  rw [decode, if_neg (not_not.mpr length), if_neg framed]
  simp only
  rw [if_neg isKnown, if_neg authentic, observed, addrFromRaw_toRaw, kind, attempt, tx]
  rfl

/-- Everything `decode` checks, and what it makes of the packet. -/
theorem decode_eq_some {key : Bytes32} {packet : Bytes} {probe : Probe}
    (decoded : decode keyedHash packet key = some probe) :
    packet.length = probeLen ∧ packet.getD 0 0 = probeDiscriminator ∧
      (field packet 1 3).toList = probeMagic ∧ packet.getD 4 0 = 0x01 ∧
      keyedHash key (packet.take 49) = field packet 49 32 ∧
      ∃ observed, addrFromRaw (field packet 30 19).toList = some observed ∧
        probe = ⟨packet.getD 5 0, field packet 6 16, field packet 22 8, observed⟩ := by
  unfold decode at decoded
  by_cases length : packet.length ≠ probeLen
  · rw [if_pos length] at decoded
    cases decoded
  rw [if_neg length] at decoded
  split at decoded
  · cases decoded
  · next framed =>
      have framing := not_or.mp framed
      have version := not_or.mp framing.2
      simp only at decoded
      split at decoded
      · cases decoded
      · split at decoded
        · cases decoded
        · next forged =>
            obtain ⟨observed, read, rfl⟩ := Option.map_eq_some_iff.mp decoded
            exact ⟨not_not.mp length, not_not.mp framing.1, not_not.mp version.1,
              not_not.mp version.2, not_not.mp forged, observed, read, rfl⟩

/-- A packet that is accepted is the one its probe encodes to. -/
theorem encode_of_decode {key : Bytes32} {packet : Bytes} {probe : Probe}
    (decoded : decode keyedHash packet key = some probe) :
    packet = probe.encode keyedHash key := by
  obtain ⟨length, discriminator, magic, version, authentic, observed, read, rfl⟩ :=
    decode_eq_some keyedHash decoded
  have wide : packet.length = 81 := length
  have raw := toRaw_of_addrFromRaw read
  -- The fields lie one behind the other, up to the keyed hash.
  have covered : packet.take 49 =
      front ⟨packet.getD 5 0, field packet 6 16, field packet 22 8, observed⟩ := by
    have cuts : packet = packet.take 49 ++ packet.drop 49 := (List.take_append_drop 49 packet).symm
    have first := drop_eq_field packet 0 1 (by omega)
    have second := drop_eq_field packet 1 3 (by omega)
    have third := drop_eq_field packet 4 1 (by omega)
    have fourth := drop_eq_field packet 5 1 (by omega)
    have fifth := drop_eq_field packet 6 16 (by omega)
    have sixth := drop_eq_field packet 22 8 (by omega)
    have seventh := drop_eq_field packet 30 19 (by omega)
    rw [List.drop_zero, field_one, discriminator] at first
    rw [magic] at second
    rw [field_one, version] at third
    rw [field_one] at fourth
    rw [← raw] at seventh
    have whole : packet = front ⟨packet.getD 5 0, field packet 6 16, field packet 22 8, observed⟩ ++
        packet.drop 49 := by
      conv_lhs => rw [first, second, third, fourth, fifth, sixth, seventh]
      simp only [front, List.append_assoc]
    conv_lhs => rw [whole]
    exact List.take_left' (front_length _)
  have mac := drop_eq_field packet 49 32 (by omega)
  have nothing : packet.drop (49 + 32) = [] := List.drop_eq_nil_of_le (Nat.le_of_eq length)
  rw [nothing, List.append_nil, ← authentic, covered] at mac
  conv_lhs => rw [← List.take_append_drop 49 packet, covered, mac]
  rfl

/-- Under another key the packet is accepted only if the keyed hashes of its fields
agree. -/
theorem hash_eq_of_decode {key other : Bytes32} {packet : Bytes} {probe second : Probe}
    (decoded : decode keyedHash packet key = some probe)
    (again : decode keyedHash packet other = some second) :
    keyedHash other (packet.take 49) = keyedHash key (packet.take 49) := by
  have first := (decode_eq_some keyedHash decoded).2.2.2.2.1
  have next := (decode_eq_some keyedHash again).2.2.2.2.1
  rw [first, next]

theorem isProbe_of_decode {key : Bytes32} {packet : Bytes} {probe : Probe}
    (decoded : decode keyedHash packet key = some probe) : isProbe packet = true := by
  obtain ⟨length, discriminator, _⟩ := decode_eq_some keyedHash decoded
  cases packet with
  | nil => cases length
  | cons first rest =>
      have starts : first = probeDiscriminator := discriminator
      rw [starts] at length ⊢
      rw [isProbe, List.head?_cons, length]
      rfl

end Probe

/-- A packet with QUIC's fixed bit is no probe. -/
theorem not_isProbe_of_fixedBit {first : UInt8} (rest : Bytes) (fixedBit : first &&& 0x40 ≠ 0) :
    isProbe (first :: rest) = false := by
  have other : first ≠ probeDiscriminator := by
    rintro rfl
    exact fixedBit (by decide)
  rw [isProbe, List.head?_cons]
  simp [other]

namespace Probe

/-- Under a key, exactly the packet a probe encodes to decodes to it, a packet is accepted
under two keys only where the keyed hashes of its fields collide, and no packet is both a
probe and QUIC. -/
theorem probe_codec (keyedHash : Bytes32 → Bytes → Bytes32) :
    (∀ (key : Bytes32) (probe : Probe), probe.kind = probePing ∨ probe.kind = probePong →
      ∀ packet, decode keyedHash packet key = some probe ↔ packet = probe.encode keyedHash key) ∧
    (∀ (key : Bytes32) (packet : Bytes) (probe : Probe),
      decode keyedHash packet key = some probe →
        packet = probe.encode keyedHash key ∧ isProbe packet = true) ∧
    (∀ (key other : Bytes32) (packet : Bytes) (probe : Probe),
      decode keyedHash packet key = some probe →
        keyedHash other (packet.take 49) ≠ keyedHash key (packet.take 49) →
          decode keyedHash packet other = none) ∧
    ∀ (first : UInt8) (rest : Bytes), first &&& 0x40 ≠ 0 → isProbe (first :: rest) = false := by
  refine ⟨?_, ?_, ?_, fun first rest => not_isProbe_of_fixedBit rest⟩
  · intro key probe known packet
    constructor
    · exact encode_of_decode keyedHash
    · intro isEncoded
      rw [isEncoded]
      exact decode_encode keyedHash key known
  · intro key packet probe decoded
    exact ⟨encode_of_decode keyedHash decoded, isProbe_of_decode keyedHash decoded⟩
  · intro key other packet probe decoded apart
    cases again : decode keyedHash packet other with
    | none => rfl
    | some second => exact absurd (hash_eq_of_decode keyedHash decoded again) apart

end Probe

end Mosschat.Net
