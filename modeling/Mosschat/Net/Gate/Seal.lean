import Mosschat.Net.Gate.Wire

/-!
Owns the sealed introduction body of `gate/client.rs`: its CBOR form, and opening a
seal with a house's signing key.

Does not own X25519, ChaCha20-Poly1305 or BLAKE3: they come from outside the
repository and are the fields of `SealCrypto`.
-/

namespace Mosschat.Net.Gate

open Mosschat.Core Mosschat.Library.Cbor

/-- What sealing takes from the crate's dependencies. -/
structure SealCrypto extends Crypto where
  /-- `SigningKey::to_scalar_bytes`. -/
  scalarBytes : Bytes32 → Bytes32
  /-- `SigningKey::verifying_key`. -/
  publicKey : Bytes32 → Bytes32
  /-- `MontgomeryPoint::mul_clamped`, of a point and a scalar. -/
  mulClamped : Bytes32 → Bytes32 → Bytes32
  /-- `blake3::derive_key`. -/
  deriveKey : String → Bytes → Bytes32
  /-- `ChaCha20Poly1305::decrypt`, of a key, a nonce and a ciphertext. -/
  decrypt : Bytes32 → Bytes → Bytes → Option Bytes

/-- `InviteProof`. -/
structure InviteProof where
  id : Bytes16
  secret : Bytes32
  bind : Bytes32
deriving DecidableEq

/-- `SealedBody`. -/
structure SealedBody where
  fromKey : Bytes32
  sentMs : UInt64
  invite : Option InviteProof
deriving DecidableEq

namespace Seal

def domain : String := "mosschat-introduce-seal-v1"

def zeroNonce : Bytes := List.replicate 12 0

/-- `derive_key`. -/
def deriveKey (crypto : SealCrypto) (dh ephPub recipient : Bytes32) : Bytes32 :=
  crypto.deriveKey domain (dh.toList ++ ephPub.toList ++ recipient.toList)

/-- A byte string of a fixed width, refused with `refusal` otherwise. -/
def readFixed (width : Nat) (refusal : String) : Decoder (List.Vector UInt8 width) := do
  let slice ← bytes
  if exact : slice.length = width then pure ⟨slice, exact⟩ else throw (.message refusal)

/-- The invite proof of a body whose array has `len` elements. -/
def readInvite (len : Nat) : Decoder (Option InviteProof) := do
  if len = 6 then
    let id ← readFixed 16 "bad invite id length"
    let secret ← readFixed 32 "bad invite secret length"
    let bind ← readFixed 32 "bad invite bind length"
    pure (some { id, secret, bind })
  else pure none

/-- The reads of `decode_body`. The version is read and not compared, and only a body
of six elements carries an invite. -/
def readBody : Decoder SealedBody := do
  match ← array with
  | none => throw (.message "sealed body must be a definite array")
  | some len =>
    let _v ← u8
    let fromKey ← readFixed 32 "bad from key length"
    let sentMs ← u64
    let invite ← readInvite len
    pure { fromKey, sentMs, invite }

/-- `decode_body`. Bytes after the body are not looked at. -/
def decodeBody (plaintext : Bytes) : Except GateError SealedBody :=
  match readBody plaintext with
  | .error reason => .error (.protocol reason)
  | .ok (body, _) => .ok body

/-- The invite proof of an encoded body. -/
def encodeInvite : Option InviteProof → Bytes
  | none => []
  | some invite =>
      encodeBytes invite.id.toList ++
        (encodeBytes invite.secret.toList ++ encodeBytes invite.bind.toList)

/-- `encode_body`. -/
def encodeBody (body : SealedBody) : Bytes :=
  encodeHead majorArray (if body.invite.isSome then 6 else 3) ++
    (encodeUnsigned 1 ++
      (encodeBytes body.fromKey.toList ++
        (encodeUnsigned body.sentMs.toNat ++ encodeInvite body.invite)))

/-- The recipient's half of the key agreement: its scalar times the seal's point. -/
def openKey (crypto : SealCrypto) (ephPub signingKey : Bytes32) : Bytes32 :=
  let dh := crypto.mulClamped ephPub (crypto.scalarBytes signingKey)
  deriveKey crypto dh ephPub (crypto.publicKey signingKey)

/-- `seal::open`. -/
def openSealed (crypto : SealCrypto) (sealedBytes : Bytes) (signingKey : Bytes32) :
    Except GateError SealedBody :=
  if sealedBytes.length < 32 + 16 then .error (.protocol (.message "sealed body too short"))
  else
    let front := sealedBytes.take 32
    let ephPub : Bytes32 := if width : front.length = 32 then ⟨front, width⟩ else zero32
    let ciphertext := sealedBytes.drop 32
    match crypto.decrypt (openKey crypto ephPub signingKey) zeroNonce ciphertext with
    | none => .error (.protocol (.message "seal did not open"))
    | some plaintext => decodeBody plaintext

/-! ## The body's codec -/

theorem reads_readFixed {width : Nat} (small : width < 2 ^ 64) (refusal : String)
    (value : List.Vector UInt8 width) :
    Reads (readFixed width refusal) (encodeBytes value.toList) value := by
  have exact : value.toList.length = width := value.toList_length
  rw [← List.append_nil (encodeBytes _)]
  refine (reads_bytes (by omega)).bind ?_
  rw [dif_pos exact]
  exact Reads.pure value

theorem reads_readInvite (invite : Option InviteProof) :
    Reads (readInvite (if invite.isSome then 6 else 3)) (encodeInvite invite) invite := by
  cases invite with
  | none => exact Reads.pure none
  | some invite =>
      show Reads (readInvite 6) (encodeInvite (some invite)) (some invite)
      rw [readInvite, if_pos rfl]
      refine (reads_readFixed (by decide) _ invite.id).bind ?_
      refine (reads_readFixed (by decide) _ invite.secret).bind ?_
      exact (reads_readFixed (by decide) _ invite.bind).bind_pure (Reads.pure _)

/-- A decoded body is the one that was encoded. -/
theorem reads_readBody (body : SealedBody) : Reads readBody (encodeBody body) body := by
  have small : (if body.invite.isSome then 6 else 3) < 2 ^ 64 := by
    split <;> decide
  refine (reads_lengthHead (by decide) small).bind ?_
  refine (reads_u8 1).bind ?_
  refine (reads_readFixed (by decide) _ body.fromKey).bind ?_
  refine (reads_u64 body.sentMs).bind ?_
  exact (reads_readInvite body.invite).bind_pure (Reads.pure body)

theorem decodeBody_encodeBody (body : SealedBody) : decodeBody (encodeBody body) = .ok body := by
  have reads := reads_readBody body []
  rw [List.append_nil] at reads
  rw [decodeBody, reads]

/-- A seal opens to the body it was made of, if its ciphertext decrypts to it. -/
theorem openSealed_of_decrypt {crypto : SealCrypto} {ephPub signingKey : Bytes32}
    {ciphertext : Bytes} {body : SealedBody} (long : 16 ≤ ciphertext.length)
    (decrypted : crypto.decrypt (openKey crypto ephPub signingKey) zeroNonce ciphertext =
      some (encodeBody body)) :
    openSealed crypto (ephPub.toList ++ ciphertext) signingKey = .ok body := by
  have width : ephPub.toList.length = 32 := ephPub.toList_length
  have front : (ephPub.toList ++ ciphertext).take 32 = ephPub.toList := List.take_left' width
  have back : (ephPub.toList ++ ciphertext).drop 32 = ciphertext := List.drop_left' width
  have longEnough : ¬(ephPub.toList ++ ciphertext).length < 32 + 16 := by
    rw [List.length_append]
    omega
  rw [openSealed, if_neg longEnough]
  simp only [front, back, width, ↓reduceDIte]
  show (match crypto.decrypt (openKey crypto ephPub signingKey) zeroNonce ciphertext with
    | none => _
    | some plaintext => decodeBody plaintext) = _
  rw [decrypted]
  exact decodeBody_encodeBody body

end Seal

end Mosschat.Net.Gate
