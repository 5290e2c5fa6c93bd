import Mathlib.Data.Vector.Basic
import Mosschat.Library.Cbor

/-!
Owns the fixed-width byte strings of the crate and the signature check of
`identity.rs` over the primitives it calls.

Does not own BLAKE3 or ed25519: both come from outside the repository and are
the fields of `Crypto`. What a result needs of them it names as a hypothesis.
-/

namespace Mosschat.Core

open Mosschat.Library.Cbor

/-- `[u8; 32]`: keys, visit ids and digests. -/
abbrev Bytes32 := List.Vector UInt8 32

/-- `[u8; 64]`: a raw signature. -/
abbrev Bytes64 := List.Vector UInt8 64

/-- The 32 zero bytes. -/
def zero32 : Bytes32 := List.Vector.replicate 32 0

/-- The primitives the crate takes from its dependencies. -/
structure Crypto where
  /-- `blake3::hash`. -/
  blake3 : Bytes → Bytes32
  /-- Whether `VerifyingKey::from_bytes` accepts the key. -/
  verifyingKey : Bytes32 → Bool
  /-- Whether `verify_strict` accepts the message and signature under the key. -/
  verifyStrict : Bytes32 → Bytes → Bytes64 → Bool

/-- `CoreError`. -/
inductive CoreError where
  | invalidSignature
  | malformedKeyOrSignature
deriving DecidableEq

/-- `identity::verify`. -/
def verify (crypto : Crypto) (key : Bytes32) (msg : Bytes) (sig : Bytes64) :
    Except CoreError Unit :=
  if crypto.verifyingKey key then
    if crypto.verifyStrict key msg sig then .ok () else .error .invalidSignature
  else .error .malformedKeyOrSignature

/-- `EventId`: a digest that cannot be taken for another 32 byte value. -/
structure EventId where
  fromBytes ::
  asBytes : Bytes32
deriving DecidableEq

/-- `EventId::of_envelope`. -/
def EventId.ofEnvelope (crypto : Crypto) (envelopeBytes : Bytes) : EventId :=
  .fromBytes (crypto.blake3 envelopeBytes)

end Mosschat.Core
