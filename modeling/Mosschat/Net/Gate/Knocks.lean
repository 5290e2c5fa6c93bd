import Mosschat.Library.Machine
import Mosschat.Net.Gate.Client

/-!
Owns the runs of one house that reads knocks from its gate: which seals it answers
with an acceptance, that none is accepted twice where the seen set outlasts the
freshness of what it records, and what an early seal does otherwise.

Does not own the frames other than `Knock`, none of which touches the seen set.
-/

namespace Mosschat.Net.Gate

open Mosschat.Core Mosschat.Library Mosschat.Library.Cbor Mosschat.Library.Machine

variable {φ ι : Type}

/-! ## What an accepted knock does -/

/-- The effect is a `KnockAnswer` that accepts. -/
def Effect.isAcceptance : Effect → Bool
  | .writeFrame (.knockAnswer _ _ accept) => accept
  | _ => false

/-- The seal, once for each acceptance among the effects. -/
def acceptances (sealedBytes : Bytes) (effects : List Effect) : List Bytes :=
  (effects.filter Effect.isAcceptance).map fun _ => sealedBytes

/-- A charged knock changes the seen set and the accepts it waits for, and nothing else. -/
theorem answerAccepted_fst (crypto : SealCrypto) (inner : Inner φ ι) (tag : Bytes32)
    (sealedBytes : Bytes) (fromKey : Bytes32) (sweptAt insertedAt : Nat) :
    ∃ pendingAccepts,
      (answerAccepted crypto inner tag sealedBytes fromKey sweptAt insertedAt).1 =
        { inner with
          seen := (inner.seen.accept crypto.toCrypto sealedBytes sweptAt insertedAt).1,
          pendingAccepts } := by
  unfold answerAccepted
  simp only
  split_ifs
  · exact ⟨inner.pendingAccepts.put tag fromKey, rfl⟩
  · exact ⟨inner.pendingAccepts, rfl⟩

theorem answerAccepted_seen (crypto : SealCrypto) (inner : Inner φ ι) (tag : Bytes32)
    (sealedBytes : Bytes) (fromKey : Bytes32) (sweptAt insertedAt : Nat) :
    (answerAccepted crypto inner tag sealedBytes fromKey sweptAt insertedAt).1.seen =
      (inner.seen.accept crypto.toCrypto sealedBytes sweptAt insertedAt).1 := by
  obtain ⟨pendingAccepts, after⟩ :=
    answerAccepted_fst crypto inner tag sealedBytes fromKey sweptAt insertedAt
  rw [after]

/-- The answer is one acceptance if the seal was fresh to the seen set, and nothing
otherwise. -/
theorem answerAccepted_acceptances (crypto : SealCrypto) (inner : Inner φ ι) (tag : Bytes32)
    (sealedBytes : Bytes) (fromKey : Bytes32) (sweptAt insertedAt : Nat) :
    acceptances sealedBytes
        (answerAccepted crypto inner tag sealedBytes fromKey sweptAt insertedAt).2 =
      if (inner.seen.accept crypto.toCrypto sealedBytes sweptAt insertedAt).2 then [sealedBytes]
      else [] := by
  unfold answerAccepted
  simp only
  split_ifs <;> rfl

/-! ## Runs -/

/-- A house and the latest reading of its monotonic clock. -/
structure Process (φ ι : Type) where
  inner : Inner φ ι
  clock : Nat

/-- What happens to the house. The lists belong to other tasks as well and may change
between two knocks, and the caller may turn the answering of knocks on or off. -/
inductive Event (φ ι : Type) where
  | knock (tag : Bytes32) (sealedBytes : Bytes) (readings : Readings)
  | friendsBecome (friends : φ)
  | invitesBecome (invites : ι)
  | setAutoAnswerKnocks (on : Bool)

section Runs

variable [FriendStore φ] [InviteStore ι]

/-- The `Knock` arm of `reader_loop`. -/
def readKnock (crypto : SealCrypto) (inner : Inner φ ι) (tag : Bytes32) (sealedBytes : Bytes)
    (readings : Readings) : Inner φ ι × List Effect :=
  if inner.autoAnswerKnocks then answerKnock crypto inner tag sealedBytes readings
  else (inner, [])

/-- One event. -/
def Process.step (crypto : SealCrypto) (process : Process φ ι) : Event φ ι → Process φ ι
  | .knock tag sealedBytes readings =>
      ⟨(readKnock crypto process.inner tag sealedBytes readings).1, readings.insertedAt⟩
  | .friendsBecome friends => { process with inner := { process.inner with friends } }
  | .invitesBecome invites => { process with inner := { process.inner with invites } }
  | .setAutoAnswerKnocks on =>
      { process with inner := { process.inner with autoAnswerKnocks := on } }

/-- The sealed bytes an event is answered for with an acceptance, once for each. -/
def Process.accepted (crypto : SealCrypto) (process : Process φ ι) : Event φ ι → List Bytes
  | .knock tag sealedBytes readings =>
      acceptances sealedBytes (readKnock crypto process.inner tag sealedBytes readings).2
  | _ => []

/-- The clock never goes back. -/
def Process.InTime (process : Process φ ι) : Event φ ι → Prop
  | .knock _ _ readings => process.clock ≤ readings.checkedAt
  | _ => True

/-- The knock passes the checks that come before the accept decision, with this body. -/
structure Opened (crypto : SealCrypto) (inner : Inner φ ι) (tag : Bytes32) (sealedBytes : Bytes)
    (checkedAt : Nat) (body : SealedBody) : Prop where
  opens : Seal.openSealed crypto sealedBytes inner.signingKey = .ok body
  fresh : withinFreshnessWindow body.sentMs (nowMs inner.epoch checkedAt) = true
  tagged : pairTag crypto.toCrypto inner.community body.fromKey inner.identityKey = tag

/-- The seal is still fresh when the seen set is swept for it, and no longer fresh a
window after the instant it would be recorded at. -/
def Process.Covered (crypto : SealCrypto) (process : Process φ ι) : Event φ ι → Prop
  | .knock tag sealedBytes readings =>
      ∀ body, Opened crypto process.inner tag sealedBytes readings.checkedAt body →
        withinFreshnessWindow body.sentMs (nowMs process.inner.epoch readings.sweptAt) = true ∧
        withinFreshnessWindow body.sentMs
          (nowMs process.inner.epoch (readings.insertedAt + limits.seenWindow)) = false
  | _ => True

/-! ## What one knock does -/

/-- A knock that was not accepted leaves no effect. One that reached the seen set has
passed every check before it. -/
inductive Answered (crypto : SealCrypto) (inner : Inner φ ι) (tag : Bytes32)
    (sealedBytes : Bytes) (readings : Readings) : Inner φ ι × List Effect → Prop where
  | dropped (invites : ι) : Answered crypto inner tag sealedBytes readings
      ({ inner with invites }, [])
  | charged (body : SealedBody) (invites : ι)
      (opened : Opened crypto inner tag sealedBytes readings.checkedAt body) :
      Answered crypto inner tag sealedBytes readings
        (answerAccepted crypto { inner with invites } tag sealedBytes body.fromKey
          readings.sweptAt readings.insertedAt)

theorem answered_answerKnock (crypto : SealCrypto) (inner : Inner φ ι) (tag : Bytes32)
    (sealedBytes : Bytes) (readings : Readings) :
    Answered crypto inner tag sealedBytes readings
      (answerKnock crypto inner tag sealedBytes readings) := by
  unfold answerKnock
  split
  · exact .dropped inner.invites
  · next body opens =>
      split_ifs with stale other
      · exact .dropped inner.invites
      · exact .dropped inner.invites
      · have opened : Opened crypto inner tag sealedBytes readings.checkedAt body :=
          ⟨opens, by simpa using stale, not_not.mp other⟩
        simp only
        split_ifs
        · exact .dropped _
        · exact .charged body _ opened

theorem answered_readKnock (crypto : SealCrypto) (inner : Inner φ ι) (tag : Bytes32)
    (sealedBytes : Bytes) (readings : Readings) :
    Answered crypto inner tag sealedBytes readings
      (readKnock crypto inner tag sealedBytes readings) := by
  unfold readKnock
  split_ifs
  · exact answered_answerKnock crypto inner tag sealedBytes readings
  · exact .dropped inner.invites

/-- What no knock changes: the signing key and the offset of the wall clock. -/
theorem readKnock_keys (crypto : SealCrypto) (inner : Inner φ ι) (tag : Bytes32)
    (sealedBytes : Bytes) (readings : Readings) :
    let after := (readKnock crypto inner tag sealedBytes readings).1
    after.signingKey = inner.signingKey ∧ after.epoch = inner.epoch := by
  have answered := answered_readKnock crypto inner tag sealedBytes readings
  generalize readKnock crypto inner tag sealedBytes readings = result at answered ⊢
  cases answered with
  | dropped invites => exact ⟨rfl, rfl⟩
  | charged body invites opened =>
      obtain ⟨pendingAccepts, after⟩ :=
        answerAccepted_fst crypto { inner with invites } tag sealedBytes body.fromKey
          readings.sweptAt readings.insertedAt
      rw [after]
      exact ⟨rfl, rfl⟩

/-- An acceptance says that the seal passed every check and was fresh to the seen set. -/
theorem accepted_readKnock {crypto : SealCrypto} {process : Process φ ι} {tag : Bytes32}
    {sealedBytes : Bytes} {readings : Readings} {item : Bytes}
    (given : item ∈ process.accepted crypto (.knock tag sealedBytes readings)) :
    item = sealedBytes ∧
      (∃ body, Opened crypto process.inner tag sealedBytes readings.checkedAt body) ∧
      (process.inner.seen.accept crypto.toCrypto sealedBytes readings.sweptAt
        readings.insertedAt).2 = true ∧
      (readKnock crypto process.inner tag sealedBytes readings).1.seen =
        (process.inner.seen.accept crypto.toCrypto sealedBytes readings.sweptAt
          readings.insertedAt).1 := by
  have answered := answered_readKnock crypto process.inner tag sealedBytes readings
  change item ∈ acceptances sealedBytes _ at given
  generalize readKnock crypto process.inner tag sealedBytes readings = result at answered given ⊢
  cases answered with
  | dropped invites => cases given
  | charged body invites opened =>
      rw [answerAccepted_acceptances] at given
      split_ifs at given with fresh
      · have isSealed : item = sealedBytes := List.mem_singleton.mp given
        exact ⟨isSealed, ⟨body, opened⟩, fresh, answerAccepted_seen crypto _ tag sealedBytes _ _ _⟩
      · cases given

/-! ## No seal is accepted twice -/

/-- From now on the seal is fresh only while the seen set holds it. -/
def Process.Spent (crypto : SealCrypto) (process : Process φ ι) (sealedBytes : Bytes) : Prop :=
  ∀ body, Seal.openSealed crypto sealedBytes process.inner.signingKey = .ok body →
    ∀ now, process.clock ≤ now →
      withinFreshnessWindow body.sentMs (nowMs process.inner.epoch now) = true →
      process.inner.seen.Holds crypto.toCrypto sealedBytes now

/-- An accepted seal is spent. -/
theorem spent_of_accepted {crypto : SealCrypto} {process : Process φ ι} {event : Event φ ι}
    {sealedBytes : Bytes} (covered : process.Covered crypto event)
    (given : sealedBytes ∈ process.accepted crypto event) :
    (process.step crypto event).Spent crypto sealedBytes := by
  cases event with
  | friendsBecome friends => cases given
  | invitesBecome invites => cases given
  | setAutoAnswerKnocks on => cases given
  | knock tag knocked readings =>
      obtain ⟨rfl, ⟨body, opened⟩, fresh, seenAfter⟩ := accepted_readKnock given
      have keys := readKnock_keys crypto process.inner tag sealedBytes readings
      have cover := covered body opened
      intro other opens now later isFresh
      show SeenSet.Holds crypto.toCrypto
        (readKnock crypto process.inner tag sealedBytes readings).1.seen sealedBytes now
      have sameBody : other = body := by
        have opensFirst := opened.opens
        rw [← keys.1] at opensFirst
        exact Except.ok.inj (opens.symm.trans opensFirst)
      rw [sameBody] at isFresh
      have recorded := SeenSet.lookup_accepted fresh
      rw [seenAfter]
      refine ⟨readings.insertedAt, recorded, ?_⟩
      by_contra expired
      have inOrder : readings.checkedAt ≤ readings.insertedAt + limits.seenWindow := by
        have first := readings.checkedFirst
        have second := readings.redeemedNext
        have third := readings.insertedLast
        omega
      have after : readings.insertedAt + limits.seenWindow ≤ now := by
        have recordedBefore : readings.insertedAt ≤ now := later
        omega
      have stale := stale_of_stale opened.fresh cover.2 inOrder after
      have sameEpoch : (process.step crypto (.knock tag sealedBytes readings)).inner.epoch =
        process.inner.epoch := keys.2
      rw [sameEpoch, stale] at isFresh
      cases isFresh

/-- A spent seal is not accepted. -/
theorem not_accepted_of_spent {crypto : SealCrypto} {process : Process φ ι} {event : Event φ ι}
    {sealedBytes : Bytes} (inTime : process.InTime event) (covered : process.Covered crypto event)
    (spent : process.Spent crypto sealedBytes) :
    sealedBytes ∉ process.accepted crypto event := by
  intro given
  cases event with
  | friendsBecome friends => cases given
  | invitesBecome invites => cases given
  | setAutoAnswerKnocks on => cases given
  | knock tag knocked readings =>
      obtain ⟨rfl, ⟨body, opened⟩, fresh, -⟩ := accepted_readKnock given
      have stillFresh := (covered body opened).1
      have later : process.clock ≤ readings.sweptAt := by
        have now : process.clock ≤ readings.checkedAt := inTime
        have first := readings.checkedFirst
        have second := readings.redeemedNext
        omega
      have held := spent body opened.opens readings.sweptAt later stillFresh
      have refused : (process.inner.seen.accept crypto.toCrypto sealedBytes readings.sweptAt
        readings.insertedAt).2 = false := SeenSet.accept_of_holds held
      rw [refused] at fresh
      cases fresh

/-- Knocks leave every seal held for as long as it was. -/
theorem holds_readKnock {crypto : SealCrypto} {inner : Inner φ ι} {tag : Bytes32}
    {knocked sealedBytes : Bytes} {readings : Readings} {now : Nat}
    (ordered : readings.sweptAt ≤ now) (held : inner.seen.Holds crypto.toCrypto sealedBytes now) :
    (readKnock crypto inner tag knocked readings).1.seen.Holds crypto.toCrypto sealedBytes now := by
  have answered := answered_readKnock crypto inner tag knocked readings
  generalize readKnock crypto inner tag knocked readings = result at answered ⊢
  cases answered with
  | dropped invites => exact held
  | charged body invites opened =>
      rw [answerAccepted_seen]
      exact SeenSet.holds_accept ordered held

/-- A spent seal stays spent. -/
theorem spent_step {crypto : SealCrypto} {process : Process φ ι} {event : Event φ ι}
    {sealedBytes : Bytes} (inTime : process.InTime event)
    (spent : process.Spent crypto sealedBytes) :
    (process.step crypto event).Spent crypto sealedBytes := by
  cases event with
  | friendsBecome friends => exact spent
  | invitesBecome invites => exact spent
  | setAutoAnswerKnocks on => exact spent
  | knock tag knocked readings =>
      have keys := readKnock_keys crypto process.inner tag knocked readings
      intro body opens now later fresh
      have sweptFirst : readings.sweptAt ≤ now := readings.insertedLast.trans later
      have afterClock : process.clock ≤ now := by
        have arrived : process.clock ≤ readings.checkedAt := inTime
        have first := readings.checkedFirst
        have second := readings.redeemedNext
        omega
      have opensBefore : Seal.openSealed crypto sealedBytes process.inner.signingKey = .ok body :=
        keys.1 ▸ opens
      have freshBefore :
          withinFreshnessWindow body.sentMs (nowMs process.inner.epoch now) = true :=
        keys.2 ▸ fresh
      exact holds_readKnock sweptFirst (spent body opensBefore now afterClock freshBefore)

theorem accepted_nodup (crypto : SealCrypto) (process : Process φ ι) (event : Event φ ι) :
    (process.accepted crypto event).Nodup := by
  cases event with
  | friendsBecome friends => exact List.nodup_nil
  | invitesBecome invites => exact List.nodup_nil
  | setAutoAnswerKnocks on => exact List.nodup_nil
  | knock tag sealedBytes readings =>
      have answered := answered_readKnock crypto process.inner tag sealedBytes readings
      show (acceptances sealedBytes _).Nodup
      generalize readKnock crypto process.inner tag sealedBytes readings = result at answered ⊢
      cases answered with
      | dropped invites => exact List.nodup_nil
      | charged body invites opened =>
          rw [answerAccepted_acceptances]
          split_ifs
          · exact List.nodup_singleton _
          · exact List.nodup_nil

/-- Where every knock is covered, a house accepts no seal twice. -/
theorem knock_accepted_once (crypto : SealCrypto) (process : Process φ ι)
    (events : List (Event φ ι))
    (covered : Guarded (Process.step crypto)
      (fun process event => process.InTime event ∧ process.Covered crypto event) process events) :
    (outputs (Process.step crypto) (Process.accepted crypto) process events).Nodup := by
  refine outputs_nodup (fun process => process.Spent crypto) (accepted_nodup crypto) ?_ ?_ ?_
    covered
  · intro process event sealedBytes guard
    exact spent_of_accepted guard.2
  · intro process event sealedBytes guard
    exact not_accepted_of_spent guard.1 guard.2
  · intro process event sealedBytes guard
    exact spent_step guard.1

/-! ## Where a seal comes early -/

/-- The same reading of the clock throughout a call. -/
def Readings.all (now : Nat) : Readings :=
  ⟨now, now, now, now, Nat.le_refl now, Nat.le_refl now, Nat.le_refl now⟩

/-- A friend's knock that passes the checks goes to the seen set. -/
theorem answerKnock_of_friend {crypto : SealCrypto} {inner : Inner φ ι} {tag : Bytes32}
    {sealedBytes : Bytes} {readings : Readings} {body : SealedBody}
    (opened : Opened crypto inner tag sealedBytes readings.checkedAt body)
    (friend : FriendStore.isFriend inner.friends body.fromKey = true) :
    answerKnock crypto inner tag sealedBytes readings =
      answerAccepted crypto inner tag sealedBytes body.fromKey readings.sweptAt
        readings.insertedAt := by
  have decided : acceptDecision inner body readings.redeemedAt = (true, inner.invites) := by
    rw [acceptDecision, if_pos friend]
  have tagged : ¬pairTag crypto.toCrypto inner.community body.fromKey inner.identityKey ≠ tag :=
    not_not.mpr opened.tagged
  unfold answerKnock
  rw [opened.opens]
  simp only [opened.fresh, decided, if_neg tagged]
  rfl

/-- A friend's knock that passes the checks is accepted if the seen set accepts it. -/
theorem accepted_of_friend {crypto : SealCrypto} {process : Process φ ι} {tag : Bytes32}
    {sealedBytes : Bytes} {readings : Readings} {body : SealedBody}
    (answering : process.inner.autoAnswerKnocks = true)
    (opened : Opened crypto process.inner tag sealedBytes readings.checkedAt body)
    (friend : FriendStore.isFriend process.inner.friends body.fromKey = true)
    (fresh : (process.inner.seen.accept crypto.toCrypto sealedBytes readings.sweptAt
      readings.insertedAt).2 = true) :
    process.accepted crypto (.knock tag sealedBytes readings) = [sealedBytes] := by
  show acceptances sealedBytes (readKnock crypto process.inner tag sealedBytes readings).2 = _
  rw [readKnock, if_pos answering, answerKnock_of_friend opened friend,
    answerAccepted_acceptances, if_pos fresh]

/-- A friend's seal that is still fresh a window after it was recorded is accepted
again there: the seen set has just forgotten it. -/
theorem early_knock_accepted_again {crypto : SealCrypto} {process : Process φ ι} {tag : Bytes32}
    {sealedBytes : Bytes} {readings : Readings} {body : SealedBody}
    (recorded : process.inner.seen.RecordedBy process.clock)
    (answering : process.inner.autoAnswerKnocks = true)
    (inTime : process.clock ≤ readings.checkedAt)
    (opened : Opened crypto process.inner tag sealedBytes readings.checkedAt body)
    (friend : FriendStore.isFriend process.inner.friends body.fromKey = true)
    (fresh : (process.inner.seen.accept crypto.toCrypto sealedBytes readings.sweptAt
      readings.insertedAt).2 = true)
    (early : withinFreshnessWindow body.sentMs
      (nowMs process.inner.epoch (readings.insertedAt + limits.seenWindow)) = true) :
    outputs (Process.step crypto) (Process.accepted crypto) process
        [.knock tag sealedBytes readings,
          .knock tag sealedBytes (.all (readings.insertedAt + limits.seenWindow))] =
      [sealedBytes, sealedBytes] := by
  have first := accepted_of_friend answering opened friend fresh
  obtain ⟨pendingAccepts, after⟩ :=
    answerAccepted_fst crypto process.inner tag sealedBytes body.fromKey readings.sweptAt
      readings.insertedAt
  have stepped : process.step crypto (.knock tag sealedBytes readings) =
      ⟨{ process.inner with
          seen := (process.inner.seen.accept crypto.toCrypto sealedBytes readings.sweptAt
            readings.insertedAt).1,
          pendingAccepts }, readings.insertedAt⟩ := by
    rw [Process.step, readKnock, if_pos answering, answerKnock_of_friend opened friend, after]
  have inOrder : process.clock ≤ readings.insertedAt := by
    have one := readings.checkedFirst
    have two := readings.redeemedNext
    have three := readings.insertedLast
    omega
  have recordedThen : (process.inner.seen.accept crypto.toCrypto sealedBytes readings.sweptAt
      readings.insertedAt).1.RecordedBy readings.insertedAt :=
    SeenSet.recordedBy_accept recorded inOrder
  have second : (process.step crypto (.knock tag sealedBytes readings)).accepted crypto
      (.knock tag sealedBytes (.all (readings.insertedAt + limits.seenWindow))) =
      [sealedBytes] := by
    rw [stepped]
    exact accepted_of_friend answering ⟨opened.opens, early, opened.tagged⟩ friend
      (SeenSet.accept_of_recordedBy recordedThen (Nat.le_refl _))
  rw [outputs, outputs, outputs, first, second]
  rfl

end Runs

/-! ### A friend's knock -/

section Fixture

/-- Primitives under which a digest is the first 32 bytes, every key agreement gives
the same key, and a ciphertext is its plaintext before a tag of 16 zero bytes. -/
def plainCrypto : SealCrypto where
  blake3 input := ⟨(input ++ List.replicate 32 0).take 32, by simp⟩
  verifyingKey _ := true
  verifyStrict _ _ _ := true
  scalarBytes key := key
  publicKey key := key
  mulClamped _ _ := zero32
  deriveKey _ _ := zero32
  decrypt _ _ ciphertext :=
    if ciphertext.drop (ciphertext.length - 16) = List.replicate 16 0 then
      some (ciphertext.take (ciphertext.length - 16))
    else none

def friendKey : Bytes32 := List.Vector.replicate 32 7

/-- A friend's knock body sent at the given millisecond. -/
def friendBody (sentMs : UInt64) : SealedBody := ⟨friendKey, sentMs, none⟩

def friendSeal (sentMs : UInt64) : Bytes :=
  zero32.toList ++ (Seal.encodeBody (friendBody sentMs) ++ List.replicate 16 0)

/-- A house with one friend, a second into its monotonic clock and its wall clock. -/
def quietHouse : Process InMemoryFriendStore (InMemoryInviteStore plainCrypto.toCrypto) where
  inner :=
    { community := zero32, identityKey := zero32, signingKey := zero32, gateKey := zero32,
      epoch := 0, friends := ⟨(∅ : HashMap Bytes32 Unit).put friendKey ()⟩, invites := ⟨∅⟩,
      autoAnswerKnocks := true, seen := .new, pendingAccepts := ∅ }
  clock := fromSecs 1

def friendTag : Bytes32 := pairTag plainCrypto.toCrypto zero32 friendKey zero32

def friendKnock (sentMs : UInt64) (now : Nat) :
    Event InMemoryFriendStore (InMemoryInviteStore plainCrypto.toCrypto) :=
  .knock friendTag (friendSeal sentMs) (.all now)

/-- What is sealed in the open opens to itself. -/
theorem openSealed_plain (body : SealedBody) :
    Seal.openSealed plainCrypto
      (zero32.toList ++ (Seal.encodeBody body ++ List.replicate 16 0)) zero32 = .ok body := by
  apply Seal.openSealed_of_decrypt
  · rw [List.length_append, List.length_replicate]
    omega
  · have length : (Seal.encodeBody body ++ List.replicate 16 0).length - 16 =
        (Seal.encodeBody body).length := by
      rw [List.length_append, List.length_replicate]
      omega
    show (if _ then _ else _) = _
    rw [length, List.drop_left, List.take_left, if_pos rfl]

theorem friendSeal_opens (sentMs : UInt64) :
    Seal.openSealed plainCrypto (friendSeal sentMs) zero32 = .ok (friendBody sentMs) :=
  openSealed_plain (friendBody sentMs)

theorem friendKey_isFriend :
    FriendStore.isFriend quietHouse.inner.friends friendKey = true := by
  show (((∅ : HashMap Bytes32 Unit).put friendKey ()).lookup friendKey).isSome = true
  rw [HashMap.lookup_put, if_pos rfl]
  rfl

end Fixture

/-- A knock sent just before it is accepted, and its replay a minute later. -/
theorem knock_accepted_once_friend :
    (outputs (Process.step plainCrypto) (Process.accepted plainCrypto) quietHouse
      [friendKnock 999 (fromSecs 1), friendKnock 999 (fromSecs 61)]).Nodup := by
  apply knock_accepted_once
  have covers : ∀ (process : Process _ _) (now : Nat), process.inner.signingKey = zero32 →
      process.inner.epoch = 0 →
      withinFreshnessWindow 999 (nowMs 0 now) = true →
      withinFreshnessWindow 999 (nowMs 0 (now + limits.seenWindow)) = false →
      process.Covered plainCrypto (friendKnock 999 now) := by
    intro process now signingKey epoch fresh stale body opened
    have opens := opened.opens
    rw [signingKey, friendSeal_opens] at opens
    cases opens
    rw [epoch]
    exact ⟨fresh, stale⟩
  have keys := readKnock_keys plainCrypto quietHouse.inner friendTag (friendSeal 999)
    (.all (fromSecs 1))
  refine ⟨⟨Nat.le_refl _, covers quietHouse _ rfl rfl ?_ ?_⟩,
    ⟨?_, covers _ _ keys.1 keys.2 ?_ ?_⟩, trivial⟩
  · decide
  · decide
  · show fromSecs 1 ≤ fromSecs 61
    decide
  · decide
  · decide

/-- A knock accepted in the millisecond it was sent in, and its replay two minutes
later: both are accepted. -/
theorem knock_accepted_twice :
    quietHouse.inner.seen = .new ∧
      Guarded (Process.step plainCrypto) Process.InTime quietHouse
        [friendKnock 1000 (fromSecs 1), friendKnock 1000 (fromSecs 121)] ∧
      ¬(outputs (Process.step plainCrypto) (Process.accepted plainCrypto) quietHouse
        [friendKnock 1000 (fromSecs 1), friendKnock 1000 (fromSecs 121)]).Nodup := by
  have opened : Opened plainCrypto quietHouse.inner friendTag (friendSeal 1000)
      (Readings.all (fromSecs 1)).checkedAt (friendBody 1000) :=
    ⟨friendSeal_opens 1000, by decide, rfl⟩
  have recorded : quietHouse.inner.seen.RecordedBy quietHouse.clock := by
    intro digest inserted found
    cases found
  have twice : outputs (Process.step plainCrypto) (Process.accepted plainCrypto) quietHouse
      [friendKnock 1000 (fromSecs 1), friendKnock 1000 (fromSecs 121)] =
      [friendSeal 1000, friendSeal 1000] :=
    early_knock_accepted_again recorded rfl (Nat.le_refl _) opened friendKey_isFriend rfl
      (by decide)
  refine ⟨rfl, ⟨Nat.le_refl _, ?_, trivial⟩, ?_⟩
  · show fromSecs 1 ≤ fromSecs 121
    decide
  · rw [twice]
    simp

end Mosschat.Net.Gate
