import Mosschat.Core.Identity

/-!
Owns the version 1 envelope of `event/envelope.rs`: its fields, its encoder and
decoder, the exact set of byte strings the decoder accepts, and the bound on
their length.

Does not own the signature or the body that follow the envelope.
-/

namespace Mosschat.Core

open Mosschat.Library.Cbor

/-- The fixed fields of one event, in wire order. -/
structure Envelope where
  v : UInt8
  visit : Bytes32
  author : Bytes32
  seq : UInt64
  prev : Bytes32
  tsMs : UInt64
  bodyHash : Bytes32
  bodyLen : UInt32
deriving DecidableEq

/-- `read_32`. -/
def read32 : Decoder Bytes32 := do
  let slice ← bytes
  if width : slice.length = 32 then pure ⟨slice, width⟩
  else throw (.message "expected a 32 byte string")

namespace Envelope

/-- `Envelope::to_cbor`. -/
def toCbor (envelope : Envelope) : Bytes :=
  encodeHead majorArray 8 ++
    (encodeUnsigned envelope.v.toNat ++
      (encodeBytes envelope.visit.toList ++
        (encodeBytes envelope.author.toList ++
          (encodeUnsigned envelope.seq.toNat ++
            (encodeBytes envelope.prev.toList ++
              (encodeUnsigned envelope.tsMs.toNat ++
                (encodeBytes envelope.bodyHash.toList ++
                  encodeUnsigned envelope.bodyLen.toNat)))))))

/-- The eight field reads of `Envelope::from_cbor`. -/
def readFields : Decoder Envelope := do
  let len ← array
  if len = some 8 then
    let v ← u8
    let visit ← read32
    let author ← read32
    let seq ← u64
    let prev ← read32
    let tsMs ← u64
    let bodyHash ← read32
    let bodyLen ← u32
    pure { v, visit, author, seq, prev, tsMs, bodyHash, bodyLen }
  else throw (.message "envelope must be a definite-length array of 8 elements")

/-- `Envelope::from_cbor`. -/
def fromCbor (input : Bytes) : Except DecodeError Envelope :=
  match readFields input with
  | .error reason => .error reason
  | .ok (envelope, rest) =>
    if rest ≠ [] then
      .error (.message "envelope must not carry trailing bytes after its 8 fields")
    else if envelope.toCbor ≠ input then
      .error (.message "envelope is not the canonical shortest-form CBOR encoding")
    else .ok envelope

/-! ## The codec -/

theorem reads_read32 (value : Bytes32) : Reads read32 (encodeBytes value.toList) value := by
  have width : value.toList.length = 32 := value.toList_length
  rw [← List.append_nil (encodeBytes _)]
  refine (reads_bytes (by omega)).bind ?_
  rw [dif_pos width]
  exact Reads.pure value

/-- The field reads recover every envelope from its encoding. -/
theorem reads_readFields (envelope : Envelope) :
    Reads readFields envelope.toCbor envelope := by
  refine (reads_lengthHead (by decide) (by decide)).bind ?_
  rw [if_pos rfl]
  refine (reads_u8 envelope.v).bind ?_
  refine (reads_read32 envelope.visit).bind ?_
  refine (reads_read32 envelope.author).bind ?_
  refine (reads_u64 envelope.seq).bind ?_
  refine (reads_read32 envelope.prev).bind ?_
  refine (reads_u64 envelope.tsMs).bind ?_
  refine (reads_read32 envelope.bodyHash).bind ?_
  rw [← List.append_nil (encodeUnsigned _)]
  exact (reads_u32 envelope.bodyLen).bind (Reads.pure envelope)

theorem fromCbor_toCbor (envelope : Envelope) : fromCbor envelope.toCbor = .ok envelope := by
  have fields := reads_readFields envelope []
  rw [List.append_nil] at fields
  simp [fromCbor, fields]

/-- The decoder compares the re-encoding with its input, so nothing else is accepted. -/
theorem toCbor_of_fromCbor {input : Bytes} {envelope : Envelope}
    (decoded : fromCbor input = .ok envelope) : envelope.toCbor = input := by
  unfold fromCbor at decoded
  split at decoded
  · cases decoded
  · split_ifs at decoded with trailing canonical
    cases decoded
    exact not_not.mp canonical

theorem fromCbor_injective {first second : Bytes} {envelope : Envelope}
    (left : fromCbor first = .ok envelope) (right : fromCbor second = .ok envelope) :
    first = second :=
  (toCbor_of_fromCbor left).symm.trans (toCbor_of_fromCbor right)

private theorem encodeBytes32_length (value : Bytes32) :
    (encodeBytes value.toList).length = 34 := by
  have width : value.toList.length = 32 := value.toList_length
  rw [encodeBytes, List.length_append, encodeHead_length, width]
  rfl

theorem toCbor_length (envelope : Envelope) :
    envelope.toCbor.length = 137 + headLength envelope.v.toNat + headLength envelope.seq.toNat +
      headLength envelope.tsMs.toNat + headLength envelope.bodyLen.toNat := by
  simp only [toCbor, List.length_append, encodeBytes32_length, encodeUnsigned, encodeHead_length]
  have arrayHead : headLength 8 = 1 := rfl
  omega

theorem toCbor_length_le {envelope : Envelope} (small : envelope.v ≤ 23) :
    envelope.toCbor.length ≤ 161 := by
  have version : headLength envelope.v.toNat = 1 := by
    have bound : envelope.v.toNat ≤ 23 := small
    rw [headLength, if_pos bound]
  have seq := headLength_le envelope.seq.toNat
  have time := headLength_le envelope.tsMs.toNat
  have body := headLength_le_of_lt envelope.bodyLen.toNat_lt
  rw [toCbor_length, version]
  omega

/-- The decoder accepts exactly the encoder's images, one byte string for each
envelope, and a version that fits an initial byte bounds the length. -/
theorem codec_exact :
    (∀ envelope : Envelope, fromCbor envelope.toCbor = .ok envelope) ∧
      (∀ (input : Bytes) (envelope : Envelope), fromCbor input = .ok envelope →
        envelope.toCbor = input) ∧
      (∀ (first second : Bytes) (left right : Envelope), fromCbor first = .ok left →
        fromCbor second = .ok right → first ≠ second → left ≠ right) ∧
      ∀ envelope : Envelope, envelope.v ≤ 23 → envelope.toCbor.length ≤ 161 := by
  refine ⟨fromCbor_toCbor, fun _ _ => toCbor_of_fromCbor, ?_, fun _ => toCbor_length_le⟩
  intro first second left right decodedLeft decodedRight different same
  subst same
  exact different (fromCbor_injective decodedLeft decodedRight)

end Envelope

end Mosschat.Core
