import Mosschat.Net.Gate.Knocks

/-!
Owns what spends an invite: over every order of knocks, of invites issued, and of changes
to the friend list, when a redeemed invite was answered for, and how many strangers'
knocks it admits.

Does not own how a knock comes to the house, or what follows its acceptance.
-/

namespace Mosschat.Net.Gate

open Mosschat.Core Mosschat.Library Mosschat.Library.Cbor Mosschat.Library.Machine

/-- `InMemoryInviteStore::issue`. -/
def InMemoryInviteStore.issue {crypto : Crypto} (store : InMemoryInviteStore crypto)
    (secret : Bytes32) (expiresMs : UInt64) : InMemoryInviteStore crypto :=
  ⟨store.invites.put (crypto.blake3 secret.toList) ⟨expiresMs, false⟩⟩

/-- A house that answers knocks, and what came of its invites, each named by the digest of
its secret. -/
structure InvitingHouse (φ : Type) (crypto : SealCrypto) where
  inner : Inner φ (InMemoryInviteStore crypto.toCrypto)
  /-- The invites of which a knock with a valid proof was accepted, in a `KnockAnswer` that
  was written, since they were issued. -/
  answered : List Bytes32
  /-- The invite of each stranger's knock that was accepted, since it was issued. -/
  admitted : List Bytes32

/-- What happens to the house. -/
inductive InviteEvent (φ : Type) where
  /-- A knock is read, and its answer, where there is one, is written or not. -/
  | knock (tag : Bytes32) (sealedBytes : Bytes) (readings : Readings) (written : Bool)
  | issue (secret : Bytes32) (expiresMs : UInt64)
  | friendsBecome (friends : φ)
  | setAutoAnswerKnocks (on : Bool)

section Invites

variable {φ : Type} {crypto : SealCrypto}

/-- The invite a body carries a proof of, if the proof is for this house at this gate. -/
def provenInvite (inner : Inner φ (InMemoryInviteStore crypto.toCrypto)) (body : SealedBody) :
    Option Bytes32 :=
  body.invite.bind fun invite =>
    if invite.bind = inviteBind crypto.toCrypto invite.secret inner.identityKey inner.gateKey then
      some (crypto.blake3 invite.secret.toList)
    else none

namespace InvitingHouse

/-- A house that has issued no invite. -/
def new (inner : Inner φ (InMemoryInviteStore crypto.toCrypto)) : InvitingHouse φ crypto :=
  ⟨{ inner with invites := ⟨∅⟩ }, [], []⟩

variable [FriendStore φ]

/-- The house reads a knock, and what comes of it is noted. -/
def reads (house : InvitingHouse φ crypto) (tag : Bytes32) (sealedBytes : Bytes)
    (readings : Readings) (written : Bool) : InvitingHouse φ crypto :=
  let read := readKnock crypto house.inner tag sealedBytes readings
  match Seal.openSealed crypto sealedBytes house.inner.signingKey with
  | .error _ => { house with inner := read.1 }
  | .ok body =>
    let proven := (provenInvite house.inner body).toList
    let accepts := read.2.any Effect.isAcceptance
    let isFriend := FriendStore.isFriend house.inner.friends body.fromKey
    { inner := read.1
      answered := if accepts && written then house.answered ++ proven else house.answered
      admitted := if accepts && !isFriend then house.admitted ++ proven else house.admitted }

/-- One event. An invite that is issued again is a new one. -/
def step (house : InvitingHouse φ crypto) : InviteEvent φ → InvitingHouse φ crypto
  | .knock tag sealedBytes readings written => house.reads tag sealedBytes readings written
  | .issue secret expiresMs =>
    let digest := crypto.blake3 secret.toList
    { inner := { house.inner with invites := house.inner.invites.issue secret expiresMs }
      answered := house.answered.filter fun other => other ≠ digest
      admitted := house.admitted.filter fun other => other ≠ digest }
  | .friendsBecome friends => { house with inner := { house.inner with friends } }
  | .setAutoAnswerKnocks on =>
      { house with inner := { house.inner with autoAnswerKnocks := on } }

end InvitingHouse

/-! ## What spends an invite -/

/-- The record of the invite, where there is one. -/
def InvitingHouse.record (house : InvitingHouse φ crypto) (digest : Bytes32) :
    Option InviteRecord := house.inner.invites.invites.lookup digest

/-- Every redeemed invite was answered for, and no invite admits two strangers' knocks,
nor one without being redeemed. -/
structure SpentByAnswers (house : InvitingHouse φ crypto) : Prop where
  answered : ∀ digest record, house.record digest = some record → record.redeemed = true →
    digest ∈ house.answered
  once : house.admitted.Nodup
  redeemed : ∀ digest ∈ house.admitted, ∃ record, house.record digest = some record ∧
    record.redeemed = true

variable [FriendStore φ]

/-- A stranger's knock that passes every check, and proves an invite that is neither
redeemed nor expired. -/
structure Redeems (inner : Inner φ (InMemoryInviteStore crypto.toCrypto)) (tag : Bytes32)
    (sealedBytes : Bytes) (readings : Readings) (body : SealedBody) (digest : Bytes32)
    (record : InviteRecord) : Prop where
  answering : inner.autoAnswerKnocks = true
  opened : Opened crypto inner tag sealedBytes readings.checkedAt body
  stranger : FriendStore.isFriend inner.friends body.fromKey = false
  proven : provenInvite inner body = some digest
  issued : inner.invites.invites.lookup digest = some record
  unspent : record.redeemed = false
  inTime : nowMs inner.epoch readings.redeemedAt ≤ record.expiresMs

/-- A knock that redeems an invite is answered: its seal is fresh to the seen set, and the
answer is written. Where the invite was answered for before, it need not be. -/
def AnswersRedemption (house : InvitingHouse φ crypto) : InviteEvent φ → Prop
  | .knock tag sealedBytes readings written =>
      ∀ body digest record, Redeems house.inner tag sealedBytes readings body digest record →
        digest ∈ house.answered ∨
          ((house.inner.seen.accept crypto.toCrypto sealedBytes readings.sweptAt
            readings.insertedAt).2 = true ∧ written = true)
  | _ => True

/-! ## What one knock does to the invites -/

/-- A knock changes nothing and is not answered, or it is a friend's, or it redeems an
invite; and then its seal is charged to the seen set. -/
inductive KnockRead (inner : Inner φ (InMemoryInviteStore crypto.toCrypto)) (tag : Bytes32)
    (sealedBytes : Bytes) (readings : Readings) :
    Inner φ (InMemoryInviteStore crypto.toCrypto) × List Effect → Prop where
  | silent
      (redeemsNone : ∀ body digest record,
        ¬Redeems inner tag sealedBytes readings body digest record) :
      KnockRead inner tag sealedBytes readings (inner, [])
  | friend (body : SealedBody)
      (opened : Opened crypto inner tag sealedBytes readings.checkedAt body)
      (isFriend : FriendStore.isFriend inner.friends body.fromKey = true) :
      KnockRead inner tag sealedBytes readings
        (answerAccepted crypto inner tag sealedBytes body.fromKey readings.sweptAt
          readings.insertedAt)
  | redeemed (body : SealedBody) (digest : Bytes32) (record : InviteRecord)
      (redeems : Redeems inner tag sealedBytes readings body digest record) :
      KnockRead inner tag sealedBytes readings
        (answerAccepted crypto
          { inner with
              invites := ⟨inner.invites.invites.put digest { record with redeemed := true }⟩ }
          tag sealedBytes body.fromKey readings.sweptAt readings.insertedAt)

omit [FriendStore φ] in
theorem bound_of_proven {inner : Inner φ (InMemoryInviteStore crypto.toCrypto)}
    {body : SealedBody} {invite : InviteProof} {digest : Bytes32}
    (carried : body.invite = some invite) (proven : provenInvite inner body = some digest) :
    invite.bind = inviteBind crypto.toCrypto invite.secret inner.identityKey inner.gateKey ∧
      crypto.blake3 invite.secret.toList = digest := by
  rw [provenInvite, carried] at proven
  exact (Option.ite_none_right_eq_some.mp proven).imp id Option.some.inj

/-- An invite is redeemed where its proof is right, and it is neither redeemed nor
expired. -/
theorem tryRedeem_cases {crypto : Crypto} (store : InMemoryInviteStore crypto)
    (secret bind myKey gateKey : Bytes32) (nowMs : UInt64) :
    (store.tryRedeem secret bind myKey gateKey nowMs = (false, store) ∧
      ∀ record, bind = inviteBind crypto secret myKey gateKey →
        store.invites.lookup (crypto.blake3 secret.toList) = some record →
          record.redeemed = false → ¬nowMs ≤ record.expiresMs) ∨
    ∃ record, bind = inviteBind crypto secret myKey gateKey ∧
      store.invites.lookup (crypto.blake3 secret.toList) = some record ∧
      record.redeemed = false ∧ nowMs ≤ record.expiresMs ∧
      store.tryRedeem secret bind myKey gateKey nowMs =
        (true, ⟨store.invites.put (crypto.blake3 secret.toList)
          { record with redeemed := true }⟩) := by
  unfold InMemoryInviteStore.tryRedeem
  split
  · next unbound =>
      left
      refine ⟨rfl, ?_⟩
      intro record isBound
      exact absurd isBound unbound
  · next bound =>
      dsimp only
      split
      · next absent =>
          left
          refine ⟨rfl, ?_⟩
          intro record _ issued
          rw [absent] at issued
          cases issued
      · next found issued =>
          split
          · next spent =>
              left
              refine ⟨rfl, ?_⟩
              intro record _ isIssued unspent inTime
              rw [issued] at isIssued
              cases isIssued
              rcases spent with isSpent | late
              · rw [unspent] at isSpent
                cases isSpent
              · exact absurd inTime (UInt64.not_le.mpr late)
          · next unspent =>
              rw [not_or, UInt64.not_lt] at unspent
              right
              exact ⟨found, not_not.mp bound, issued, Bool.eq_false_iff.mpr unspent.1, unspent.2,
                rfl⟩

omit [FriendStore φ] in
theorem Opened.body_eq {inner : Inner φ (InMemoryInviteStore crypto.toCrypto)} {tag : Bytes32}
    {sealedBytes : Bytes} {checkedAt : Nat} {body other : SealedBody}
    (opened : Opened crypto inner tag sealedBytes checkedAt other)
    (opens : Seal.openSealed crypto sealedBytes inner.signingKey = .ok body) : other = body :=
  Except.ok.inj (opened.opens.symm.trans opens)

theorem knockRead_answerKnock (inner : Inner φ (InMemoryInviteStore crypto.toCrypto))
    (answering : inner.autoAnswerKnocks = true) (tag : Bytes32) (sealedBytes : Bytes)
    (readings : Readings) :
    KnockRead inner tag sealedBytes readings
      (answerKnock crypto inner tag sealedBytes readings) := by
  unfold answerKnock
  split
  · next reason fails =>
      apply KnockRead.silent
      intro body digest record redeems
      have opens := redeems.opened.opens
      rw [fails] at opens
      cases opens
  · next body opens =>
      have same : ∀ {other digest record},
          Redeems inner tag sealedBytes readings other digest record → other = body :=
        fun redeems => redeems.opened.body_eq opens
      split_ifs with stale apart
      · apply KnockRead.silent
        intro other digest record redeems
        have fresh := redeems.opened.fresh
        rw [same redeems] at fresh
        rw [fresh] at stale
        cases stale
      · apply KnockRead.silent
        intro other digest record redeems
        have tagged := redeems.opened.tagged
        rw [same redeems] at tagged
        exact apart tagged
      · have opened : Opened crypto inner tag sealedBytes readings.checkedAt body :=
          ⟨opens, by simpa using stale, not_not.mp apart⟩
        -- silence is right where no invite is redeemed
        have silent : (∀ digest record, provenInvite inner body = some digest →
            FriendStore.isFriend inner.friends body.fromKey = false →
            inner.invites.invites.lookup digest = some record → record.redeemed = false →
            ¬nowMs inner.epoch readings.redeemedAt ≤ record.expiresMs) →
            KnockRead inner tag sealedBytes readings (inner, []) := by
          intro none
          apply KnockRead.silent
          intro other digest record redeems
          have proven := redeems.proven
          have stranger := redeems.stranger
          rw [same redeems] at proven stranger
          exact none digest record proven stranger redeems.issued redeems.unspent redeems.inTime
        unfold acceptDecision
        by_cases isFriend : FriendStore.isFriend inner.friends body.fromKey = true
        · rw [if_pos isFriend]
          exact .friend body opened isFriend
        · rw [if_neg isFriend]
          have stranger := Bool.eq_false_iff.mpr isFriend
          cases carried : body.invite with
          | none =>
              apply silent
              intro digest record proven
              rw [provenInvite, carried] at proven
              cases proven
          | some invite =>
              have decided := tryRedeem_cases inner.invites invite.secret invite.bind
                inner.identityKey inner.gateKey (nowMs inner.epoch readings.redeemedAt)
              show KnockRead inner tag sealedBytes readings
                (let decision := inner.invites.tryRedeem invite.secret invite.bind
                    inner.identityKey inner.gateKey (nowMs inner.epoch readings.redeemedAt)
                  if !decision.1 then ({ inner with invites := decision.2 }, [])
                  else answerAccepted crypto { inner with invites := decision.2 } tag sealedBytes
                    body.fromKey readings.sweptAt readings.insertedAt)
              rcases decided with ⟨refused, unproven⟩ | ⟨record, isBound, issued, unspent, inTime, redeemed⟩
              · rw [refused]
                apply silent
                intro digest record proven _ issued unspent
                obtain ⟨isBound, isDigest⟩ := bound_of_proven carried proven
                rw [← isDigest] at issued
                exact unproven record isBound issued unspent
              · rw [redeemed]
                have proven : provenInvite inner body =
                    some (crypto.blake3 invite.secret.toList) := by
                  rw [provenInvite, carried]
                  exact if_pos isBound
                exact .redeemed body _ record
                  ⟨answering, opened, stranger, proven, issued, unspent, inTime⟩

theorem knockRead_readKnock (inner : Inner φ (InMemoryInviteStore crypto.toCrypto))
    (tag : Bytes32) (sealedBytes : Bytes) (readings : Readings) :
    KnockRead inner tag sealedBytes readings
      (readKnock crypto inner tag sealedBytes readings) := by
  unfold readKnock
  split_ifs with answering
  · exact knockRead_answerKnock inner answering tag sealedBytes readings
  · apply KnockRead.silent
    intro body digest record redeems
    exact answering redeems.answering

/-! ## What one event keeps -/

omit [FriendStore φ] in
theorem SpentByAnswers.of_same {before after : InvitingHouse φ crypto}
    (spent : SpentByAnswers before) (invites : after.inner.invites = before.inner.invites)
    (answered : before.answered ⊆ after.answered) (admitted : after.admitted = before.admitted) :
    SpentByAnswers after where
  answered := by
    intro digest record isRecord isSpent
    rw [InvitingHouse.record, invites] at isRecord
    exact answered (spent.answered digest record isRecord isSpent)
  once := by
    rw [admitted]
    exact spent.once
  redeemed := by
    intro digest member
    rw [admitted] at member
    rw [InvitingHouse.record, invites]
    exact spent.redeemed digest member

omit [FriendStore φ] in
/-- An acceptance is written where the seal is fresh to the seen set. -/
theorem answerAccepted_accepts (inner : Inner φ (InMemoryInviteStore crypto.toCrypto))
    (tag : Bytes32) (sealedBytes : Bytes) (fromKey : Bytes32) (sweptAt insertedAt : Nat) :
    (answerAccepted crypto inner tag sealedBytes fromKey sweptAt insertedAt).2.any
        Effect.isAcceptance =
      (inner.seen.accept crypto.toCrypto sealedBytes sweptAt insertedAt).2 := by
  unfold answerAccepted
  dsimp only
  split
  · next fresh => exact fresh.symm
  · next known => exact (Bool.eq_false_iff.mpr known).symm

omit [FriendStore φ] in
theorem answerAccepted_invites (inner : Inner φ (InMemoryInviteStore crypto.toCrypto))
    (tag : Bytes32) (sealedBytes : Bytes) (fromKey : Bytes32) (sweptAt insertedAt : Nat) :
    (answerAccepted crypto inner tag sealedBytes fromKey sweptAt insertedAt).1.invites =
      inner.invites := by
  obtain ⟨pendingAccepts, after⟩ :=
    answerAccepted_fst crypto inner tag sealedBytes fromKey sweptAt insertedAt
  rw [after]

omit [FriendStore φ] in
/-- A stranger's knock that redeems an invite, and is answered for or not. -/
theorem spentByAnswers_redeemed {before after : InvitingHouse φ crypto} {digest : Bytes32}
    {record : InviteRecord} {accepts written : Bool} (spent : SpentByAnswers before)
    (issued : before.record digest = some record) (unspent : record.redeemed = false)
    (invites : after.inner.invites =
      ⟨before.inner.invites.invites.put digest { record with redeemed := true }⟩)
    (answered : after.answered =
      if accepts && written then before.answered ++ [digest] else before.answered)
    (admitted : after.admitted =
      if accepts then before.admitted ++ [digest] else before.admitted) :
    SpentByAnswers after ↔ digest ∈ before.answered ∨ (accepts = true ∧ written = true) := by
  have lookup : ∀ other, after.record other =
      if other = digest then some { record with redeemed := true } else before.record other := by
    intro other
    rw [InvitingHouse.record, invites]
    exact HashMap.lookup_put _ digest other _
  have isIn : digest ∈ after.answered ↔
      digest ∈ before.answered ∨ (accepts = true ∧ written = true) := by
    rw [answered, ← Bool.and_eq_true]
    split
    · next both => simp [both]
    · next notBoth => simp [notBoth]
  rw [← isIn]
  constructor
  · intro after
    exact after.answered digest _ ((lookup digest).trans (if_pos rfl)) rfl
  · intro isAnswered
    have grown : before.answered ⊆ after.answered := by
      rw [answered]
      split
      · exact List.subset_append_left _ _
      · exact List.Subset.refl _
    have isNew : digest ∉ before.admitted := by
      intro member
      obtain ⟨found, isFound, isSpent⟩ := spent.redeemed digest member
      rw [issued] at isFound
      cases isFound
      rw [unspent] at isSpent
      cases isSpent
    constructor
    · intro other found isFound isSpent
      rw [lookup] at isFound
      split at isFound
      · next isDigest =>
          rw [isDigest]
          exact isAnswered
      · exact grown (spent.answered other found isFound isSpent)
    · rw [admitted]
      split
      · rw [List.nodup_append]
        refine ⟨spent.once, List.nodup_singleton digest, ?_⟩
        intro other member same isSame isEqual
        rw [isEqual, List.mem_singleton.mp isSame] at member
        exact isNew member
      · exact spent.once
    · intro other member
      rw [lookup]
      split
      · exact ⟨_, rfl, rfl⟩
      · next apart =>
          apply spent.redeemed other
          rw [admitted] at member
          split at member
          · exact (List.mem_append.mp member).resolve_right
              fun same => apart (List.mem_singleton.mp same)
          · exact member

/-- A knock leaves every redeemed invite answered for where it answers what it redeems,
and only there. -/
theorem spentByAnswers_reads {house : InvitingHouse φ crypto} (spent : SpentByAnswers house)
    (tag : Bytes32) (sealedBytes : Bytes) (readings : Readings) (written : Bool) :
    SpentByAnswers (house.reads tag sealedBytes readings written) ↔
      AnswersRedemption house (.knock tag sealedBytes readings written) := by
  have knockRead := knockRead_readKnock house.inner tag sealedBytes readings
  unfold InvitingHouse.reads AnswersRedemption
  dsimp only
  generalize readKnock crypto house.inner tag sealedBytes readings = read at knockRead ⊢
  cases knockRead with
  | silent redeemsNone =>
      apply iff_of_true
      · split
        · exact spent.of_same rfl (List.Subset.refl _) rfl
        · exact spent.of_same rfl (List.Subset.refl _) rfl
      · intro body digest record redeems
        exact absurd redeems (redeemsNone body digest record)
  | friend body opened isFriend =>
      apply iff_of_true
      · rw [opened.opens]
        apply spent.of_same (answerAccepted_invites house.inner tag sealedBytes _ _ _)
        · dsimp only
          split
          · exact List.subset_append_left _ _
          · exact List.Subset.refl _
        · dsimp only
          rw [isFriend, Bool.not_true, Bool.and_false]
          rfl
      · intro other digest record redeems
        have stranger := redeems.stranger
        rw [redeems.opened.body_eq opened.opens, isFriend] at stranger
        cases stranger
  | redeemed body digest record redeems =>
      have only : ∀ {other otherDigest otherRecord},
          Redeems house.inner tag sealedBytes readings other otherDigest otherRecord →
            otherDigest = digest := by
        intro other otherDigest otherRecord also
        have proven := also.proven
        rw [also.opened.body_eq redeems.opened.opens, redeems.proven] at proven
        exact (Option.some.inj proven).symm
      have answers : (∀ other otherDigest otherRecord,
          Redeems house.inner tag sealedBytes readings other otherDigest otherRecord →
            otherDigest ∈ house.answered ∨
              ((house.inner.seen.accept crypto.toCrypto sealedBytes readings.sweptAt
                readings.insertedAt).2 = true ∧ written = true)) ↔
          digest ∈ house.answered ∨
            ((house.inner.seen.accept crypto.toCrypto sealedBytes readings.sweptAt
              readings.insertedAt).2 = true ∧ written = true) := by
        constructor
        · intro all
          exact all body digest record redeems
        · intro here other otherDigest otherRecord also
          rw [only also]
          exact here
      rw [answers, redeems.opened.opens]
      apply spentByAnswers_redeemed spent redeems.issued redeems.unspent
      · exact answerAccepted_invites _ tag sealedBytes _ _ _
      · dsimp only
        rw [answerAccepted_accepts, redeems.proven]
        rfl
      · dsimp only
        rw [answerAccepted_accepts, redeems.proven, redeems.stranger, Bool.not_false, Bool.and_true]
        rfl

/-- An invite that is issued is not redeemed, and nobody was admitted with it. -/
theorem spentByAnswers_issue {house : InvitingHouse φ crypto} (spent : SpentByAnswers house)
    (secret : Bytes32) (expiresMs : UInt64) :
    SpentByAnswers (house.step (.issue secret expiresMs)) := by
  have lookup : ∀ other, (house.step (.issue secret expiresMs)).record other =
      if other = crypto.blake3 secret.toList then some ⟨expiresMs, false⟩
      else house.record other := fun other => HashMap.lookup_put _ _ other _
  constructor
  · intro other found isFound isSpent
    rw [lookup] at isFound
    split at isFound
    · cases isFound
      cases isSpent
    · next apart =>
        apply List.mem_filter.mpr
        exact ⟨spent.answered other found isFound isSpent, decide_eq_true apart⟩
  · exact spent.once.filter _
  · intro other member
    obtain ⟨inside, apart⟩ := List.mem_filter.mp member
    rw [lookup, if_neg (of_decide_eq_true apart)]
    exact spent.redeemed other inside

theorem spentByAnswers_step (house : InvitingHouse φ crypto) (event : InviteEvent φ)
    (spent : SpentByAnswers house) :
    SpentByAnswers (house.step event) ↔ AnswersRedemption house event := by
  cases event with
  | knock tag sealedBytes readings written =>
      exact spentByAnswers_reads spent tag sealedBytes readings written
  | issue secret expiresMs =>
      exact iff_of_true (spentByAnswers_issue spent secret expiresMs) trivial
  | friendsBecome friends =>
      exact iff_of_true (spent.of_same rfl (List.Subset.refl _) rfl) trivial
  | setAutoAnswerKnocks on =>
      exact iff_of_true (spent.of_same rfl (List.Subset.refl _) rfl) trivial

/-- Over every order of events from a house without invites: throughout, every redeemed
invite was answered for by a `KnockAnswer` that was written and each admits at most one
stranger's knock, exactly if every knock that redeems an invite is fresh to the seen set
and its answer is written, or the invite was answered for before. -/
theorem invite_spent_by_answer_iff (inner : Inner φ (InMemoryInviteStore crypto.toCrypto))
    (events : List (InviteEvent φ)) :
    Throughout InvitingHouse.step SpentByAnswers (.new inner) events ↔
      Guarded InvitingHouse.step AnswersRedemption (.new inner) events := by
  apply throughout_iff_guarded spentByAnswers_step
  constructor
  · intro digest record isRecord
    cases isRecord
  · exact List.nodup_nil
  · intro digest member
    cases member

end Invites

/-! ### A stranger's knock whose answer is not written -/

/-- The secret of the invite a stranger was given. -/
def givenSecret : Bytes32 := List.Vector.replicate 32 5

/-- The stranger's body, with the proof for this house at this gate. -/
def strangerBody : SealedBody :=
  ⟨List.Vector.replicate 32 9, 999, some ⟨List.Vector.replicate 16 1, givenSecret,
    inviteBind plainCrypto.toCrypto givenSecret zero32 zero32⟩⟩

def strangerSeal : Bytes :=
  zero32.toList ++ (Seal.encodeBody strangerBody ++ List.replicate 16 0)

/-- An invite is issued, and the stranger knocks with it as the control stream fails. -/
def unwrittenKnock : List (InviteEvent InMemoryFriendStore) :=
  [.issue givenSecret 5000,
    .knock (pairTag plainCrypto.toCrypto zero32 strangerBody.fromKey zero32) strangerSeal
      (.all (fromSecs 1)) false]

/-- The invite is redeemed, and no answer was written. -/
theorem invite_spent_unanswered :
    ¬Throughout InvitingHouse.step SpentByAnswers (.new quietHouse.inner) unwrittenKnock := by
  intro always
  have issued : SpentByAnswers ((InvitingHouse.new quietHouse.inner).step
      (.issue givenSecret 5000)) := always [.issue givenSecret 5000] ⟨_, rfl⟩
  have read := always unwrittenKnock ⟨[], List.append_nil _⟩
  rw [unwrittenKnock, run_cons, run_cons, run_nil] at read
  have answers := (spentByAnswers_step _ _ issued).mp read
  have redeems := answers strangerBody (plainCrypto.blake3 givenSecret.toList) ⟨5000, false⟩
    { answering := rfl
      opened := ⟨openSealed_plain strangerBody, by decide, rfl⟩
      stranger := by
        show (((∅ : HashMap Bytes32 Unit).put friendKey ()).lookup strangerBody.fromKey).isSome = _
        rw [HashMap.lookup_put, if_neg (by decide)]
        rfl
      proven := if_pos rfl
      issued := (HashMap.lookup_put _ _ _ _).trans (if_pos rfl)
      unspent := rfl
      inTime := by decide }
  rcases redeems with answered | ⟨_, written⟩
  · cases answered
  · cases written

end Mosschat.Net.Gate
