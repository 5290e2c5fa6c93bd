import Mosschat.Net.Gate.Seal

/-!
Owns the house side of a knock, from `gate/client.rs`: the friend and invite lists it
is answered against, and `answer_knock`; and the effects the client's tasks have.

Does not own the connection to the gate, the house's own introductions, or what follows
an accepted knock.
-/

namespace Mosschat.Net.Gate

open Mosschat.Core Mosschat.Library Mosschat.Library.Cbor

/-! ## The lists a knock is answered against -/

/-- `FriendStore`. -/
class FriendStore (φ : Type) where
  isFriend : φ → Bytes32 → Bool

/-- `InviteStore`. A redemption reads the wall clock and may mark an invite. -/
class InviteStore (ι : Type) where
  tryRedeem (store : ι) (secret bind myKey gateKey : Bytes32) (nowMs : UInt64) : Bool × ι

/-- `InMemoryFriendStore`. -/
structure InMemoryFriendStore where
  keys : HashMap Bytes32 Unit

instance : FriendStore InMemoryFriendStore where
  isFriend store key := (store.keys.lookup key).isSome

/-- `InviteRecord`. -/
structure InviteRecord where
  expiresMs : UInt64
  redeemed : Bool
deriving DecidableEq

/-- `InMemoryInviteStore`: the invites under the digests of their secrets. -/
structure InMemoryInviteStore (crypto : Crypto) where
  invites : HashMap Bytes32 InviteRecord

/-- `b"mosschat-invite-bind-v1"`. -/
def bindDomain : Bytes := "mosschat-invite-bind-v1".toUTF8.toList

/-- `invite_bind`. -/
def inviteBind (crypto : Crypto) (secret myKey gateKey : Bytes32) : Bytes32 :=
  crypto.blake3 (bindDomain ++ secret.toList ++ myKey.toList ++ gateKey.toList)

/-- `InMemoryInviteStore::try_redeem`. -/
def InMemoryInviteStore.tryRedeem {crypto : Crypto} (store : InMemoryInviteStore crypto)
    (secret bind myKey gateKey : Bytes32) (nowMs : UInt64) : Bool × InMemoryInviteStore crypto :=
  if bind ≠ inviteBind crypto secret myKey gateKey then (false, store)
  else
    let hash := crypto.blake3 secret.toList
    match store.invites.lookup hash with
    | none => (false, store)
    | some record =>
      if record.redeemed ∨ record.expiresMs < nowMs then (false, store)
      else (true, ⟨store.invites.put hash { record with redeemed := true }⟩)

instance (crypto : Crypto) : InviteStore (InMemoryInviteStore crypto) where
  tryRedeem := InMemoryInviteStore.tryRedeem

/-! ## Answering a knock -/

/-- `Inner`, as far as `answer_knock` reads and writes it. -/
structure Inner (φ ι : Type) where
  community : Bytes32
  /-- `identity_key.public_bytes()`. -/
  identityKey : Bytes32
  signingKey : Bytes32
  /-- `gate.peer_key()`. -/
  gateKey : Bytes32
  /-- How far the wall clock runs ahead of the monotonic one. -/
  epoch : Int
  friends : φ
  invites : ι
  autoAnswerKnocks : Bool
  seen : SeenSet
  pendingAccepts : HashMap Bytes32 Bytes32

/-- `GateEvent`. -/
inductive GateEvent where
  | knockAccepted (peerKey : Bytes32)
  | introduced (session : UInt32) (peerKey : Bytes32) (role : UInt8)
deriving DecidableEq

/-- What the client does besides changing its own state. -/
inductive Effect where
  /-- `diag::record` of `Step::Introduce`, with `StepOutcome::Ok`. -/
  | record (detail : String)
  | writeFrame (frame : Frame)
  | emitEvent (event : GateEvent)
  /-- `diag::record` of `Step::Introduce`, with `StepOutcome::Fail`. -/
  | recordFailure (detail : String)
  /-- `diag::record` of `Step::RelayOpen`, with `StepOutcome::Ok`. -/
  | recordRelayOpen (detail : String)
  /-- `PorchSocket::register_relay_session`. -/
  | registerRelaySession (session : UInt32) (syntheticPeer : SocketAddr)
  /-- `PorchSocket::insert_relay_path`. -/
  | insertRelayPath (peerKey : Bytes32) (synthetic : SocketAddr)
deriving DecidableEq

/-- The clock as one call of `answer_knock` reads it, in the order of its reads. -/
structure Readings where
  /-- At the freshness check. -/
  checkedAt : Nat
  /-- When an invite is redeemed. -/
  redeemedAt : Nat
  /-- When the seen set is swept. -/
  sweptAt : Nat
  /-- When the seal is recorded. -/
  insertedAt : Nat
  checkedFirst : checkedAt ≤ redeemedAt
  redeemedNext : redeemedAt ≤ sweptAt
  insertedLast : sweptAt ≤ insertedAt

section AnswerKnock

variable {φ ι : Type} [FriendStore φ] [InviteStore ι]

/-- The accept decision of `answer_knock`: a friend, or an invite redeemed now. -/
def acceptDecision (inner : Inner φ ι) (body : SealedBody) (redeemedAt : Nat) : Bool × ι :=
  if FriendStore.isFriend inner.friends body.fromKey then (true, inner.invites)
  else
    match body.invite with
    | none => (false, inner.invites)
    | some invite =>
      InviteStore.tryRedeem inner.invites invite.secret invite.bind inner.identityKey
        inner.gateKey (nowMs inner.epoch redeemedAt)

/-- What follows the accept decision: the seal is charged to the seen set, and a fresh
one is answered. -/
def answerAccepted (crypto : SealCrypto) (inner : Inner φ ι) (tag : Bytes32)
    (sealedBytes : Bytes) (fromKey : Bytes32) (sweptAt insertedAt : Nat) :
    Inner φ ι × List Effect :=
  let accepted := inner.seen.accept crypto.toCrypto sealedBytes sweptAt insertedAt
  let inner := { inner with seen := accepted.1 }
  if accepted.2 then
    ({ inner with pendingAccepts := inner.pendingAccepts.put tag fromKey },
      [.record "knock accepted", .writeFrame (.knockAnswer 1 tag true),
        .emitEvent (.knockAccepted fromKey)])
  else (inner, [])

/-- `answer_knock`. -/
def answerKnock (crypto : SealCrypto) (inner : Inner φ ι) (tag : Bytes32) (sealedBytes : Bytes)
    (readings : Readings) : Inner φ ι × List Effect :=
  match Seal.openSealed crypto sealedBytes inner.signingKey with
  | .error _ => (inner, [])
  | .ok body =>
    if !withinFreshnessWindow body.sentMs (nowMs inner.epoch readings.checkedAt) then (inner, [])
    else if pairTag crypto.toCrypto inner.community body.fromKey inner.identityKey ≠ tag then
      (inner, [])
    else
      let decision := acceptDecision inner body readings.redeemedAt
      let inner := { inner with invites := decision.2 }
      if !decision.1 then (inner, [])
      else
        answerAccepted crypto inner tag sealedBytes body.fromKey readings.sweptAt
          readings.insertedAt

end AnswerKnock

end Mosschat.Net.Gate
