import Mosschat.Net.Gate.FrameCodec
import Mosschat.Net.Gate.Knocks
import Mosschat.Net.Gate.Starts

/-!
Owns the dispatch of `Introduction` frames in `gate/client.rs`: the calls of `introduce`
that wait for one, the knocks the house accepted and waits for one after, and what the
reader does with each frame.

Does not own the gate that sends them, nor the socket that a session is registered with.
-/

namespace Mosschat.Net.Gate

open Mosschat.Core Mosschat.Library Mosschat.Library.Cbor Mosschat.Library.Machine
  Mosschat.Library.Oneshot

/-- `IntroduceOutcome`. -/
structure IntroduceOutcome where
  session : UInt32
  peerObserved : Addr
  role : UInt8
deriving DecidableEq

/-- What a call of `introduce` waits for. -/
structure Asking where
  tag : Bytes32
  peerKey : Bytes32
  ttlS : UInt16
deriving DecidableEq

/-- The client, as far as introductions go. -/
structure Introducer (φ ι : Type) where
  inner : Inner φ ι
  processSalt : List.Vector UInt8 5
  sessions : SessionMap
  /-- The senders, each by its call. -/
  introductions : HashMap Bytes32 CallId
  calls : Calls CallId Asking IntroduceOutcome
  /-- The sender the reader has taken out of the map, and what it is about to send. -/
  handing : Option (CallId × IntroduceOutcome)
  /-- The accepted knocks that no `Introduction` with role 2 has followed yet. -/
  owed : List (Bytes32 × Bytes32)

/-- What happens to the client. -/
inductive IntroduceAction (φ ι : Type) where
  /-- A call seals its body, leaves its sender in the map and writes its frame. -/
  | introduce (call : CallId) (peerKey : Bytes32) (ttlS : UInt16) (sealedBytes : Bytes)
  /-- `ttl_s` is over. -/
  | deadline (call : CallId)
  | wake (call : CallId) (now : Nat)
  /-- The call whose wait failed removes the sender of its tag and returns. -/
  | leave (call : CallId)
  /-- The call is dropped, by its caller or because its frame could not be written. -/
  | cancel (call : CallId)
  /-- The reader reads a `Knock`. -/
  | knock (tag : Bytes32) (sealedBytes : Bytes) (readings : Readings)
  /-- The reader reads an `Introduction`, and finds a sender for it or none. -/
  | introduction (tag : Bytes32) (session : UInt32) (peerObserved : Addr) (role : UInt8)
      (now : Nat)
  /-- The reader uses the sender it found. -/
  | handOver
  /-- Other tasks own the lists a knock is answered against. -/
  | listsBecome (friends : φ) (invites : ι) (autoAnswerKnocks : Bool)

namespace Introducer

variable {φ ι : Type}

/-- A client that has just connected. -/
def connected (inner : Inner φ ι) (processSalt : List.Vector UInt8 5) : Introducer φ ι where
  inner := { inner with pendingAccepts := ∅ }
  processSalt := processSalt
  sessions := ∅
  introductions := ∅
  calls := ∅
  handing := none
  owed := []

/-- The sender of `tag` is dropped with its entry, or for another one. -/
def dropSender (world : Introducer φ ι) (tag : Bytes32) : Calls CallId Asking IntroduceOutcome :=
  match world.introductions.lookup tag with
  | none => world.calls
  | some call => world.calls.move call Stage.sever

/-- What registers a session with a peer, for either side. -/
def registers (crypto : SealCrypto) (world : Introducer φ ι) (session : UInt32)
    (peerKey : Bytes32) : List Effect :=
  let synthetic := syntheticAddr crypto.toCrypto world.processSalt peerKey
  [.registerRelaySession session synthetic, .insertRelayPath peerKey synthetic]

/-- What follows in `introduce` once the outcome has reached it. -/
def introduced (crypto : SealCrypto) (world : Introducer φ ι) (asking : Asking)
    (outcome : IntroduceOutcome) : List Effect :=
  let role := outcome.role
  let session := outcome.session
  world.registers crypto session asking.peerKey ++
    [.record s!"introduced as role {role}, session {session}",
      .recordRelayOpen s!"relay session {session}"]

/-- What the reader does with an `Introduction` that follows a knock it accepted from
`peerKey`. -/
def responds (crypto : SealCrypto) (world : Introducer φ ι) (session : UInt32) (role : UInt8)
    (peerKey : Bytes32) : List Effect :=
  world.registers crypto session peerKey ++
    [.recordRelayOpen s!"relay session {session}, as the responder",
      .emitEvent (.introduced session peerKey role)]

/-- The keys whose knocks the effects accept. -/
def acceptedKeys (effects : List Effect) : List Bytes32 :=
  effects.filterMap fun effect =>
    match effect with
    | .emitEvent (.knockAccepted peerKey) => some peerKey
    | _ => none

variable [FriendStore φ] [InviteStore ι]

/-- One action, and its effects. What is not due, or names what is not there, does nothing. -/
def act (crypto : SealCrypto) (world : Introducer φ ι) :
    IntroduceAction φ ι → Introducer φ ι × List Effect
  | .introduce call peerKey ttlS sealedBytes =>
    if call ∈ world.calls then (world, [])
    else
      let tag := pairTag crypto.toCrypto world.inner.community world.inner.identityKey peerKey
      ({ world with
          introductions := world.introductions.put tag call
          calls := (world.dropSender tag).put call ⟨⟨tag, peerKey, ttlS⟩, .waiting⟩ },
        [.writeFrame (.introduce 1 tag ttlS sealedBytes)])
  | .deadline call => ({ world with calls := world.calls.move call Stage.expire }, [])
  | .wake call now =>
    let woken := { world with calls := world.calls.move call Stage.wake }
    match world.calls.lookup call with
    | some ⟨asking, .handed outcome⟩ =>
      ({ woken with
          sessions := world.sessions.rememberSession outcome.session
            outcome.peerObserved.toSocketAddr now },
        world.introduced crypto asking outcome)
    | _ => (woken, [])
  | .leave call =>
    match world.calls.lookup call with
    | some ⟨⟨tag, _, ttlS⟩, .leaving⟩ =>
      ({ world with
          introductions := world.introductions.erase tag
          calls := (world.dropSender tag).move call Stage.leave },
        [.recordFailure s!"no Introduction inside {ttlS} s"])
    | _ => (world, [])
  | .cancel call => ({ world with calls := world.calls.move call Stage.cancel }, [])
  | .knock tag sealedBytes readings =>
    if world.handing.isSome then (world, [])
    else
      let answered := readKnock crypto world.inner tag sealedBytes readings
      ({ world with
          inner := answered.1
          owed := world.owed ++ (acceptedKeys answered.2).map fun peerKey => (tag, peerKey) },
        answered.2)
  | .introduction tag session peerObserved role now =>
    if world.handing.isSome then (world, [])
    else
      let owed := if role = 2 then world.owed.eraseP fun knock => knock.1 == tag else world.owed
      match world.introductions.lookup tag with
      | some call =>
        ({ world with
            introductions := world.introductions.erase tag
            handing := some (call, ⟨session, peerObserved, role⟩)
            owed := owed }, [])
      | none =>
        match world.inner.pendingAccepts.lookup tag with
        | none => ({ world with owed := owed }, [])
        | some peerKey =>
          ({ world with
              inner := { world.inner with
                pendingAccepts := world.inner.pendingAccepts.erase tag }
              sessions := world.sessions.rememberSession session peerObserved.toSocketAddr now
              owed := owed },
            world.responds crypto session role peerKey)
  | .handOver =>
    match world.handing with
    | none => (world, [])
    | some (call, outcome) =>
      ({ world with calls := world.calls.move call (Stage.send outcome), handing := none }, [])
  | .listsBecome friends invites autoAnswerKnocks =>
    ({ world with inner := { world.inner with friends, invites, autoAnswerKnocks } }, [])

def step (crypto : SealCrypto) (world : Introducer φ ι) (action : IntroduceAction φ ι) :
    Introducer φ ι := (world.act crypto action).1

/-! ## What goes wrong -/

/-- The map holds the sender of a call that still waits for `tag`. -/
def awaited (world : Introducer φ ι) (tag : Bytes32) : Bool :=
  (world.introductions.lookup tag).any world.calls.waits

/-- What no action may do: take the sender of a call that waits out of the map, accept a
second knock before the first is followed up, or give an `Introduction` to a call that no
longer waits, a responder's to a call, or an asker's to an accepted knock. -/
def loses (crypto : SealCrypto) (world : Introducer φ ι) : IntroduceAction φ ι → Bool
  | .introduce call peerKey _ _ =>
    decide (call ∉ world.calls) &&
      world.awaited
        (pairTag crypto.toCrypto world.inner.community world.inner.identityKey peerKey)
  | .leave call =>
    match world.calls.lookup call with
    | some ⟨asking, .leaving⟩ => world.awaited asking.tag
    | _ => false
  | .knock tag sealedBytes readings =>
    world.handing.isNone && (world.inner.pendingAccepts.lookup tag).isSome &&
      !(acceptedKeys (readKnock crypto world.inner tag sealedBytes readings).2).isEmpty
  | .introduction tag _ _ role _ =>
    world.handing.isNone &&
      match world.introductions.lookup tag with
      | some call => role != 1 || !world.calls.waits call
      | none => role != 2 && (world.inner.pendingAccepts.lookup tag).isSome
  | .handOver => world.handing.any fun handing => !world.calls.waits handing.1
  | _ => false

/-! ## What every action of a good run does -/

/-- A call that waits goes on waiting, or gets what it waits for, unless its own time is
over or it is dropped. An `Introduction` with role 1 goes to the call that waits for its
tag; one with role 2 that follows an accepted knock registers the session with that peer
and is announced once, with its role; none goes to a call that no longer waits. -/
structure Dispatches (crypto : SealCrypto) (world : Introducer φ ι)
    (action : IntroduceAction φ ι) : Prop where
  undisturbed : ∀ call asking, world.calls.Waits call asking → action ≠ .deadline call →
    action ≠ .cancel call →
      (world.step crypto action).calls.Waits call asking ∨
      ∃ outcome, (world.step crypto action).calls.lookup call = some ⟨asking, .handed outcome⟩
  asked : ∀ tag session peerObserved now, action = .introduction tag session peerObserved 1 now →
    world.handing = none → ∀ call asking, world.calls.Waits call asking → asking.tag = tag →
      (world.step crypto action).handing = some (call, ⟨session, peerObserved, 1⟩)
  answered : ∀ tag session peerObserved now, action = .introduction tag session peerObserved 2 now →
    world.handing = none → ∀ peerKey, (tag, peerKey) ∈ world.owed →
      (world.act crypto action).2 = world.responds crypto session 2 peerKey ∧
      (world.step crypto action).sessions = world.sessions.rememberSession session
        peerObserved.toSocketAddr now ∧
      (world.step crypto action).handing = none
  taken : ∀ call outcome, world.handing = none →
    (world.step crypto action).handing = some (call, outcome) →
      ∃ asking, world.calls.Waits call asking
  handed : ∀ call outcome, action = .handOver → world.handing = some (call, outcome) →
    ∃ asking, world.calls.Waits call asking ∧
      (world.step crypto action).calls.lookup call = some ⟨asking, .handed outcome⟩

/-! ## The senders and the calls -/

/-- The senders in the map and in the reader's hand belong to the calls that wait, no call
was made to fail by another, and the accepted knocks that are owed an `Introduction` are
those the map has. -/
structure Paired (world : Introducer φ ι) : Prop where
  unsevered : ∀ call found, world.calls.lookup call = some found → found.stage ≠ .severed
  sender : ∀ tag call, world.introductions.lookup tag = some call →
    ∃ asking stage, world.calls.lookup call = some ⟨asking, stage⟩ ∧ asking.tag = tag
  waiting : ∀ call asking, world.calls.Waits call asking →
    world.introductions.lookup asking.tag = some call ∨
      ∃ outcome, world.handing = some (call, outcome)
  known : ∀ call outcome, world.handing = some (call, outcome) → call ∈ world.calls
  apart : ∀ call outcome, world.handing = some (call, outcome) →
    ∀ tag, world.introductions.lookup tag ≠ some call
  owed : ∀ tag peerKey, (tag, peerKey) ∈ world.owed ↔
    world.inner.pendingAccepts.lookup tag = some peerKey
  once : (world.owed.map Prod.fst).Nodup

/-- Where every tag is there once, removing the first of a tag removes it. -/
theorem mem_eraseP_of_nodup {knocks : List (Bytes32 × Bytes32)} {tag other key : Bytes32}
    (once : (knocks.map Prod.fst).Nodup) :
    (other, key) ∈ knocks.eraseP (fun knock => knock.1 == tag) ↔
      (other, key) ∈ knocks ∧ other ≠ tag := by
  induction knocks with
  | nil => simp
  | cons knock rest ih =>
      rw [List.map_cons, List.nodup_cons] at once
      rw [List.eraseP_cons, cond_eq_ite]
      split
      · next isTag =>
          have sameTag : knock.1 = tag := eq_of_beq isTag
          rw [List.mem_cons]
          constructor
          · intro inside
            refine ⟨Or.inr inside, ?_⟩
            intro same
            apply once.1
            rw [sameTag, ← same]
            exact List.mem_map_of_mem inside
          · intro both
            refine both.1.resolve_left ?_
            intro isKnock
            rw [← isKnock] at sameTag
            exact both.2 sameTag
      · next notTag =>
          rw [List.mem_cons, List.mem_cons, ih once.2]
          have apart : knock.1 ≠ tag := by simpa using notTag
          constructor
          · intro either
            rcases either with isKnock | inside
            · refine ⟨Or.inl isKnock, ?_⟩
              rw [← isKnock] at apart
              exact apart
            · exact ⟨Or.inr inside.1, inside.2⟩
          · intro both
            rcases both.1 with isKnock | inside
            · exact Or.inl isKnock
            · exact Or.inr ⟨inside, both.2⟩

section Steps

variable {crypto : SealCrypto} {world : Introducer φ ι}

omit [FriendStore φ] [InviteStore ι] in
/-- Where no call waits for the tag, no call misses the sender that is dropped. -/
theorem dropSender_of_unawaited {tag : Bytes32} (unawaited : world.awaited tag = false) :
    world.dropSender tag = world.calls := by
  unfold dropSender
  cases isSender : world.introductions.lookup tag with
  | none => rfl
  | some call =>
      apply Calls.move_of_same
      intro found isThere
      apply Stage.sever_of_ne_waiting
      intro isWaiting
      have waits : world.calls.waits call = true := by
        rw [Calls.waits_iff]
        refine ⟨found.key, ?_⟩
        show world.calls.lookup call = _
        rw [isThere, ← isWaiting]
      unfold awaited at unawaited
      rw [isSender, Option.any_some, waits] at unawaited
      cases unawaited

omit [FriendStore φ] [InviteStore ι] in
theorem awaited_of_waits {call : CallId} {asking : Asking}
    (waits : world.calls.Waits call asking)
    (isSender : world.introductions.lookup asking.tag = some call) :
    world.awaited asking.tag = true := by
  unfold awaited
  rw [isSender, Option.any_some]
  exact Calls.waits_iff.mpr ⟨asking, waits⟩

/-- A knock that is accepted is one more the map has; another changes neither. -/
theorem accepted_readKnock_keys (crypto : SealCrypto) (inner : Inner φ ι) (tag : Bytes32)
    (sealedBytes : Bytes) (readings : Readings) :
    let answered := readKnock crypto inner tag sealedBytes readings
    (acceptedKeys answered.2 = [] ∧ answered.1.pendingAccepts = inner.pendingAccepts) ∨
    ∃ peerKey, acceptedKeys answered.2 = [peerKey] ∧
      answered.1.pendingAccepts = inner.pendingAccepts.put tag peerKey := by
  have answered := answered_readKnock crypto inner tag sealedBytes readings
  generalize readKnock crypto inner tag sealedBytes readings = result at answered ⊢
  cases answered with
  | dropped invites => exact Or.inl ⟨rfl, rfl⟩
  | charged body invites opened =>
      unfold answerAccepted
      simp only
      split
      · exact Or.inr ⟨body.fromKey, rfl, rfl⟩
      · exact Or.inl ⟨rfl, rfl⟩

omit [FriendStore φ] [InviteStore ι] in
/-- A call moves on without coming to wait or being cut off. -/
theorem Paired.moveCall (paired : Paired world) (call : CallId)
    {onward : Stage IntroduceOutcome → Stage IntroduceOutcome}
    (unsevered : ∀ stage, stage ≠ .severed → onward stage ≠ .severed)
    (waited : ∀ stage, onward stage = .waiting → stage = .waiting) :
    Paired { world with calls := world.calls.move call onward } where
  unsevered := by
    intro other found isThere
    obtain ⟨before, wasThere, _, isStage⟩ := Calls.lookup_of_move isThere
    rw [isStage]
    split
    · exact unsevered _ (paired.unsevered other before wasThere)
    · exact paired.unsevered other before wasThere
  sender := by
    intro tag other isSender
    obtain ⟨asking, stage, isThere, isTag⟩ := paired.sender tag other isSender
    exact ⟨asking, _, Calls.lookup_move_of_lookup isThere call onward, isTag⟩
  waiting := by
    intro other asking waits
    obtain ⟨stage, isThere, isWaiting⟩ := Calls.lookup_of_waits_move waits
    have wasWaiting : stage = .waiting := by
      split at isWaiting
      · exact waited stage isWaiting
      · exact isWaiting
    rw [wasWaiting] at isThere
    exact paired.waiting other asking isThere
  known := by
    intro other outcome inHand
    have inside := AList.lookup_isSome.mpr (paired.known other outcome inHand)
    obtain ⟨found, isThere⟩ := Option.isSome_iff_exists.mp inside
    apply AList.lookup_isSome.mp
    rw [Calls.lookup_move_of_lookup isThere call onward]
    rfl
  apart := paired.apart
  owed := paired.owed
  once := paired.once

omit [FriendStore φ] [InviteStore ι] in
/-- A new call waits for a tag no call waits for. -/
theorem Paired.introduce (paired : Paired world) {call : CallId} (fresh : call ∉ world.calls)
    (asking : Asking) (unawaited : world.awaited asking.tag = false) :
    Paired { world with
      introductions := world.introductions.put asking.tag call
      calls := world.calls.put call ⟨asking, .waiting⟩ } := by
  have notFresh : ∀ other, other ∈ world.calls → other ≠ call := by
    intro other inside same
    rw [same] at inside
    exact fresh inside
  have isOld : ∀ other found, world.calls.lookup other = some found → other ∈ world.calls :=
    fun other found isThere => AList.lookup_isSome.mp (Option.isSome_of_mem isThere)
  exact
    { unsevered := by
        intro other found isThere
        rw [HashMap.lookup_put] at isThere
        split at isThere
        · cases isThere
          exact nofun
        · exact paired.unsevered other found isThere
      sender := by
        intro tag other isSender
        rw [HashMap.lookup_put] at isSender
        split at isSender
        · next isTag =>
            cases isSender
            refine ⟨asking, .waiting, ?_, isTag.symm⟩
            rw [HashMap.lookup_put, if_pos rfl]
        · obtain ⟨found, stage, isThere, isTag⟩ := paired.sender tag other isSender
          refine ⟨found, stage, ?_, isTag⟩
          rw [HashMap.lookup_put, if_neg (notFresh other (isOld other _ isThere))]
          exact isThere
      waiting := by
        intro other found waits
        change (world.calls.put call _).lookup other = _ at waits
        rw [HashMap.lookup_put] at waits
        split at waits
        · next isCall =>
            cases waits
            left
            rw [HashMap.lookup_put, if_pos rfl, isCall]
        · have before : world.calls.Waits other found := waits
          rcases paired.waiting other found before with isSender | inHand
          · left
            have apart : found.tag ≠ asking.tag := by
              intro same
              have isAwaited := awaited_of_waits before isSender
              rw [same, unawaited] at isAwaited
              cases isAwaited
            rw [HashMap.lookup_put, if_neg apart]
            exact isSender
          · exact Or.inr inHand
      known := by
        intro other outcome inHand
        rw [HashMap.mem_put]
        exact Or.inr (paired.known other outcome inHand)
      apart := by
        intro other outcome inHand tag isSender
        rw [HashMap.lookup_put] at isSender
        split at isSender
        · cases isSender
          exact notFresh _ (paired.known _ outcome inHand) rfl
        · exact paired.apart other outcome inHand tag isSender
      owed := paired.owed
      once := paired.once }

omit [FriendStore φ] [InviteStore ι] in
/-- The sender of a tag no call waits for can go. -/
theorem Paired.eraseSender (paired : Paired world) {tag : Bytes32}
    (unawaited : world.awaited tag = false) :
    Paired { world with introductions := world.introductions.erase tag } where
  unsevered := paired.unsevered
  sender := by
    intro other call isSender
    rw [HashMap.lookup_erase] at isSender
    split at isSender
    · cases isSender
    · exact paired.sender other call isSender
  waiting := by
    intro call asking waits
    have before : world.calls.Waits call asking := waits
    rcases paired.waiting call asking before with isSender | inHand
    · left
      have apart : asking.tag ≠ tag := by
        intro same
        have isAwaited := awaited_of_waits before isSender
        rw [same, unawaited] at isAwaited
        cases isAwaited
      rw [HashMap.lookup_erase, if_neg apart]
      exact isSender
    · exact Or.inr inHand
  known := paired.known
  apart := by
    intro call outcome inHand other isSender
    rw [HashMap.lookup_erase] at isSender
    split at isSender
    · cases isSender
    · exact paired.apart call outcome inHand other isSender
  owed := paired.owed
  once := paired.once

omit [FriendStore φ] [InviteStore ι] in
/-- The reader takes a sender out of the map. -/
theorem Paired.takeSender (paired : Paired world) {tag : Bytes32} {call : CallId}
    (isSender : world.introductions.lookup tag = some call) (free : world.handing = none)
    (outcome : IntroduceOutcome) :
    Paired { world with
      introductions := world.introductions.erase tag
      handing := some (call, outcome) } := by
  obtain ⟨asking, stage, isThere, isTag⟩ := paired.sender tag call isSender
  exact
    { unsevered := paired.unsevered
      sender := by
        intro other found isFound
        rw [HashMap.lookup_erase] at isFound
        split at isFound
        · cases isFound
        · exact paired.sender other found isFound
      waiting := by
        intro other found waits
        rcases paired.waiting other found waits with isFound | ⟨_, inHand⟩
        · by_cases same : found.tag = tag
          · right
            rw [same, isSender] at isFound
            cases isFound
            exact ⟨outcome, rfl⟩
          · left
            rw [HashMap.lookup_erase, if_neg same]
            exact isFound
        · rw [free] at inHand
          cases inHand
      known := by
        intro other found inHand
        cases inHand
        exact AList.lookup_isSome.mp (Option.isSome_of_mem isThere)
      apart := by
        intro other found inHand key isFound
        cases inHand
        rw [HashMap.lookup_erase] at isFound
        split at isFound
        · cases isFound
        · next apart =>
            obtain ⟨alsoAsking, alsoStage, alsoThere, alsoTag⟩ := paired.sender key call isFound
            rw [isThere] at alsoThere
            cases alsoThere
            exact apart (alsoTag.symm.trans isTag)
      owed := paired.owed
      once := paired.once }

omit [FriendStore φ] [InviteStore ι] in
/-- What the reader has in its hand goes to its call, which waits for nothing after. -/
theorem Paired.handOver (paired : Paired world) {call : CallId} {outcome : IntroduceOutcome}
    (inHand : world.handing = some (call, outcome)) :
    Paired { world with
      calls := world.calls.move call (Stage.send outcome)
      handing := none } where
  unsevered := by
    intro other found isThere
    obtain ⟨before, wasThere, _, isStage⟩ := Calls.lookup_of_move isThere
    have wasUnsevered := paired.unsevered other before wasThere
    rw [isStage]
    split
    · cases isBefore : before.stage with
      | waiting => exact nofun
      | handed value => exact nofun
      | severed => exact absurd isBefore wasUnsevered
      | leaving => exact nofun
      | returned got => exact nofun
    · exact wasUnsevered
  sender := by
    intro tag other isSender
    obtain ⟨asking, stage, isThere, isTag⟩ := paired.sender tag other isSender
    exact ⟨asking, _, Calls.lookup_move_of_lookup isThere call _, isTag⟩
  waiting := by
    intro other asking waits
    obtain ⟨stage, isThere, isWaiting⟩ := Calls.lookup_of_waits_move waits
    have apart : other ≠ call := by
      intro same
      rw [if_pos same] at isWaiting
      exact Stage.send_ne_waiting isWaiting
    rw [if_neg apart] at isWaiting
    rw [isWaiting] at isThere
    rcases paired.waiting other asking isThere with isSender | ⟨found, alsoInHand⟩
    · exact Or.inl isSender
    · rw [inHand] at alsoInHand
      cases alsoInHand
      exact absurd rfl apart
  known := by
    intro other found isNone
    cases isNone
  apart := by
    intro other found isNone
    cases isNone
  owed := paired.owed
  once := paired.once

omit [FriendStore φ] [InviteStore ι] in
/-- A knock is accepted from a peer that is owed nothing yet. -/
theorem Paired.owe (paired : Paired world) {inner : Inner φ ι} {tag peerKey : Bytes32}
    (free : world.inner.pendingAccepts.lookup tag = none)
    (isPut : inner.pendingAccepts = world.inner.pendingAccepts.put tag peerKey) :
    Paired { world with inner := inner, owed := world.owed ++ [(tag, peerKey)] } where
  unsevered := paired.unsevered
  sender := paired.sender
  waiting := paired.waiting
  known := paired.known
  apart := paired.apart
  owed := by
    intro other key
    show (other, key) ∈ world.owed ++ [(tag, peerKey)] ↔ inner.pendingAccepts.lookup other = some key
    rw [isPut, HashMap.lookup_put, List.mem_append, List.mem_singleton, paired.owed other key]
    split
    · next same =>
        rw [same, free, Prod.mk.injEq, Option.some.injEq]
        constructor
        · intro either
          rcases either with impossible | ⟨_, isKey⟩
          · cases impossible
          · exact isKey.symm
        · exact fun isKey => Or.inr ⟨rfl, isKey.symm⟩
    · next apart =>
        rw [Prod.mk.injEq]
        exact or_iff_left fun same => apart same.1
  once := by
    show ((world.owed ++ [(tag, peerKey)]).map Prod.fst).Nodup
    rw [List.map_append, List.nodup_append]
    refine ⟨paired.once, List.nodup_singleton tag, ?_⟩
    intro other inside last isLast same
    obtain ⟨⟨knock, key⟩, member, isKnock⟩ := List.mem_map.mp inside
    have isTag : knock = tag := by
      rw [List.map_singleton, List.mem_singleton] at isLast
      exact isKnock.trans (same.trans isLast)
    rw [isTag, paired.owed, free] at member
    cases member

omit [FriendStore φ] [InviteStore ι] in
/-- A knock is followed up. -/
theorem Paired.settle (paired : Paired world) {inner : Inner φ ι} (tag : Bytes32)
    (isErased : ∀ other, inner.pendingAccepts.lookup other =
      if other = tag then none else world.inner.pendingAccepts.lookup other)
    (sessions : SessionMap) :
    Paired { world with
      inner := inner
      sessions := sessions
      owed := world.owed.eraseP fun knock => knock.1 == tag } where
  unsevered := paired.unsevered
  sender := paired.sender
  waiting := paired.waiting
  known := paired.known
  apart := paired.apart
  owed := by
    intro other key
    show (other, key) ∈ world.owed.eraseP _ ↔ inner.pendingAccepts.lookup other = some key
    rw [isErased, mem_eraseP_of_nodup paired.once, paired.owed]
    split
    · next same =>
        exact iff_of_false (fun both => both.2 same) nofun
    · next apart => exact and_iff_left apart
  once := by
    have shorter : (world.owed.eraseP fun knock => knock.1 == tag).Sublist world.owed :=
      List.eraseP_sublist
    exact (shorter.map Prod.fst).nodup paired.once

/-- What an action of a good run keeps of the senders and the calls. -/
theorem paired_step (action : IntroduceAction φ ι) (paired : Paired world)
    (keeps : world.loses crypto action = false) : Paired (world.step crypto action) := by
  unfold step
  cases action with
  | introduce call peerKey ttlS sealedBytes =>
      simp only [act]
      split
      · exact paired
      · next fresh =>
          simp only [loses, decide_eq_true fresh, Bool.true_and] at keeps
          rw [dropSender_of_unawaited keeps]
          exact paired.introduce fresh ⟨_, peerKey, ttlS⟩ keeps
  | deadline call =>
      apply paired.moveCall call
      · intro stage unsevered
        cases stage <;> simp_all [Stage.expire]
      · exact fun stage waits => absurd waits Stage.expire_ne_waiting
  | wake call now =>
      have woken : Paired { world with calls := world.calls.move call Stage.wake } := by
        apply paired.moveCall call
        · intro stage unsevered
          cases stage <;> simp_all [Stage.wake]
        · exact fun stage => Stage.waiting_of_wake
      simp only [act]
      split
      · exact { woken with }
      · exact woken
  | leave call =>
      simp only [act]
      split
      · next tag peerKey ttlS isLeaving =>
          simp only [loses, isLeaving] at keeps
          rw [dropSender_of_unawaited keeps]
          apply (paired.eraseSender keeps).moveCall call
          · intro stage unsevered
            cases stage <;> simp_all [Stage.leave]
          · exact fun stage => Stage.waiting_of_leave
      · exact paired
  | cancel call =>
      apply paired.moveCall call
      · intro stage unsevered
        cases stage <;> simp_all [Stage.cancel]
      · exact fun stage waits => absurd waits Stage.cancel_ne_waiting
  | knock tag sealedBytes readings =>
      simp only [act]
      split
      · exact paired
      · next free =>
          rcases accepted_readKnock_keys crypto world.inner tag sealedBytes readings with
            ⟨isNone, same⟩ | ⟨peerKey, isOne, isPut⟩
          · rw [isNone, List.map_nil, List.append_nil]
            refine { paired with owed := ?_ }
            intro other key
            show _ ↔ (readKnock crypto world.inner tag sealedBytes readings).1.pendingAccepts.lookup
              other = some key
            rw [same]
            exact paired.owed other key
          · have unowed : world.inner.pendingAccepts.lookup tag = none := by
              simp only [loses, isOne] at keeps
              have idle : world.handing = none := by simpa using free
              simpa [idle] using keeps
            rw [isOne]
            exact paired.owe unowed isPut
  | introduction tag session peerObserved role now =>
      simp only [act]
      split
      · exact paired
      · next busy =>
          have free : world.handing = none := by simpa using busy
          simp only [loses] at keeps
          cases isSender : world.introductions.lookup tag with
          | some call =>
              have isAsker : role = 1 := by
                simp [free, isSender] at keeps
                exact keeps.1
              have notResponder : ¬role = 2 := by
                rw [isAsker]
                decide
              rw [if_neg notResponder]
              exact paired.takeSender isSender free ⟨session, peerObserved, role⟩
          | none =>
              cases isPending : world.inner.pendingAccepts.lookup tag with
              | none =>
                  have nothing : ∀ other, world.inner.pendingAccepts.lookup other =
                      if other = tag then none else world.inner.pendingAccepts.lookup other := by
                    intro other
                    split
                    · next same =>
                        rw [same]
                        exact isPending
                    · rfl
                  show Paired { world with owed := _ }
                  split
                  · exact paired.settle tag nothing world.sessions
                  · exact paired
              | some peerKey =>
                  have isResponder : role = 2 := by
                    simpa [free, isSender, isPending] using keeps
                  rw [if_pos isResponder]
                  exact paired.settle tag (HashMap.lookup_erase _ tag) _
  | handOver =>
      simp only [act]
      split
      · exact paired
      · next call outcome inHand => exact paired.handOver inHand
  | listsBecome friends invites autoAnswerKnocks => exact { paired with }

/-- No call that waits is disturbed but by its own deadline and its own caller. -/
theorem undisturbed_step (action : IntroduceAction φ ι) (keeps : world.loses crypto action = false)
    {call : CallId} {asking : Asking} (waits : world.calls.Waits call asking)
    (notDeadline : action ≠ .deadline call) (notCancel : action ≠ .cancel call) :
    (world.step crypto action).calls.Waits call asking ∨
      ∃ outcome, (world.step crypto action).calls.lookup call =
        some ⟨asking, .handed outcome⟩ := by
  have isThere : world.calls.lookup call = some ⟨asking, .waiting⟩ := waits
  have inside : call ∈ world.calls := AList.lookup_isSome.mp (Option.isSome_of_mem isThere)
  have elsewhere : ∀ other onward, other ≠ call →
      (world.calls.move other onward).lookup call = some ⟨asking, .waiting⟩ := by
    intro other onward apart
    rw [Calls.lookup_move, if_neg apart.symm]
    exact isThere
  unfold step
  cases action with
  | introduce other peerKey ttlS sealedBytes =>
      left
      simp only [act]
      split
      · exact waits
      · next fresh =>
          simp only [loses, decide_eq_true fresh, Bool.true_and] at keeps
          have apart : call ≠ other := by
            intro same
            rw [same] at inside
            exact fresh inside
          rw [dropSender_of_unawaited keeps]
          show (world.calls.put other _).lookup call = _
          rw [HashMap.lookup_put, if_neg apart]
          exact isThere
  | deadline other =>
      left
      have apart : other ≠ call := fun same => notDeadline (congrArg _ same)
      exact elsewhere other Stage.expire apart
  | wake other now =>
      left
      have stays : (world.calls.move other Stage.wake).lookup call = some ⟨asking, .waiting⟩ := by
        rw [Calls.lookup_move_of_lookup isThere]
        show some (⟨asking, if call = other then Stage.wake .waiting else .waiting⟩ :
          Oneshot.Call _ _) = _
        split <;> rfl
      simp only [act]
      split <;> exact stays
  | leave other =>
      left
      simp only [act]
      split
      · next tag peerKey ttlS isLeaving =>
          simp only [loses, isLeaving] at keeps
          have apart : other ≠ call := by
            intro same
            rw [same, isThere] at isLeaving
            cases isLeaving
          rw [dropSender_of_unawaited keeps]
          exact elsewhere other Stage.leave apart
      · exact waits
  | cancel other =>
      left
      have apart : other ≠ call := fun same => notCancel (congrArg _ same)
      exact elsewhere other Stage.cancel apart
  | knock tag sealedBytes readings =>
      left
      simp only [act]
      split <;> exact waits
  | introduction tag session peerObserved role now =>
      left
      simp only [act]
      split
      · exact waits
      · split
        · exact waits
        · split <;> exact waits
  | handOver =>
      simp only [act]
      split
      · exact Or.inl waits
      · next other outcome inHand =>
          by_cases same : other = call
          · right
            refine ⟨outcome, ?_⟩
            show (world.calls.move other _).lookup call = _
            rw [same, Calls.lookup_move_of_lookup isThere, if_pos rfl]
            rfl
          · exact Or.inl (elsewhere other _ same)
  | listsBecome friends invites autoAnswerKnocks => exact Or.inl waits

/-- What an action of a good run does. -/
theorem dispatches_step (action : IntroduceAction φ ι) (paired : Paired world)
    (keeps : world.loses crypto action = false) : world.Dispatches crypto action where
  undisturbed := by
    intro call asking waits notDeadline notCancel
    exact undisturbed_step action keeps waits notDeadline notCancel
  asked := by
    intro tag session peerObserved now isAction free call asking waits isTag
    have isSender : world.introductions.lookup asking.tag = some call := by
      rcases paired.waiting call asking waits with isSender | ⟨outcome, inHand⟩
      · exact isSender
      · rw [free] at inHand
        cases inHand
    rw [isTag] at isSender
    rw [isAction]
    unfold step
    simp only [act, free, Option.isSome_none, Bool.false_eq_true, if_false, isSender]
  answered := by
    intro tag session peerObserved now isAction free peerKey isOwed
    rw [isAction] at keeps ⊢
    have isPending := (paired.owed tag peerKey).mp isOwed
    have noSender : world.introductions.lookup tag = none := by
      cases isSender : world.introductions.lookup tag with
      | none => rfl
      | some call =>
          simp only [loses, free, isSender] at keeps
          cases keeps
    unfold step
    simp only [act, free, Option.isSome_none, Bool.false_eq_true, if_false, noSender, isPending]
    exact ⟨trivial, trivial, trivial⟩
  taken := by
    intro call outcome free isTaken
    have sameHand : ∀ next : Introducer φ ι, next.handing = world.handing →
        next.handing ≠ some (call, outcome) := by
      intro next same inHand
      rw [same, free] at inHand
      cases inHand
    unfold step at isTaken
    cases action with
    | introduce other peerKey ttlS sealedBytes =>
        simp only [act] at isTaken
        split at isTaken <;> exact absurd isTaken (sameHand _ rfl)
    | deadline other => exact absurd isTaken (sameHand _ rfl)
    | wake other now =>
        simp only [act] at isTaken
        split at isTaken <;> exact absurd isTaken (sameHand _ rfl)
    | leave other =>
        simp only [act] at isTaken
        split at isTaken <;> exact absurd isTaken (sameHand _ rfl)
    | cancel other => exact absurd isTaken (sameHand _ rfl)
    | knock tag sealedBytes readings =>
        simp only [act] at isTaken
        split at isTaken <;> exact absurd isTaken (sameHand _ rfl)
    | introduction tag session peerObserved role now =>
        simp only [act, free, Option.isSome_none, Bool.false_eq_true, if_false] at isTaken
        split at isTaken
        · next other isSender =>
            cases isTaken
            simp only [loses, free, isSender] at keeps
            have both : role = 1 ∧ world.calls.waits call = true := by simpa using keeps
            exact Calls.waits_iff.mp both.2
        · split at isTaken
          · exact absurd isTaken nofun
          · exact absurd isTaken nofun
    | handOver =>
        simp only [act, free] at isTaken
        exact absurd isTaken nofun
    | listsBecome friends invites autoAnswerKnocks => exact absurd isTaken (sameHand _ rfl)
  handed := by
    intro call outcome isAction inHand
    rw [isAction] at keeps ⊢
    have waits : world.calls.waits call = true := by
      simp only [loses, inHand, Option.any_some] at keeps
      simpa using keeps
    obtain ⟨asking, isWaiting⟩ := Calls.waits_iff.mp waits
    have isThere : world.calls.lookup call = some ⟨asking, .waiting⟩ := isWaiting
    refine ⟨asking, isWaiting, ?_⟩
    unfold step
    simp only [act, inHand]
    rw [Calls.lookup_move_of_lookup isThere, if_pos rfl]
    rfl

end Steps

/-! ## Runs -/

omit [FriendStore φ] [InviteStore ι] in
theorem paired_connected (inner : Inner φ ι) (processSalt : List.Vector UInt8 5) :
    Paired (connected inner processSalt) where
  unsevered := by
    intro call found isThere
    cases isThere
  sender := by
    intro tag call isSender
    cases isSender
  waiting := by
    intro call asking waits
    cases waits
  known := by
    intro call outcome inHand
    cases inHand
  apart := by
    intro call outcome inHand
    cases inHand
  owed := by
    intro tag peerKey
    exact iff_of_false List.not_mem_nil nofun
  once := List.nodup_nil

/-- In every run of a client in which no action loses anything, every `Introduction` is
dispatched as its role says, no call fails because of another, and none takes a frame it
no longer waits for. -/
theorem introductions_dispatched (crypto : SealCrypto) (inner : Inner φ ι)
    (processSalt : List.Vector UInt8 5) (actions : List (IntroduceAction φ ι))
    (keeps : Guarded (step crypto) (fun world action => world.loses crypto action = false)
      (connected inner processSalt) actions) :
    Guarded (step crypto) (fun world action => world.Dispatches crypto action)
        (connected inner processSalt) actions ∧
      ∀ call found, (run (step crypto) (connected inner processSalt) actions).calls.lookup call =
        some found → found.stage ≠ .severed := by
  have preserved : ∀ (world : Introducer φ ι) action, Paired world →
      world.loses crypto action = false → Paired (world.step crypto action) :=
    fun _ action paired keeps => paired_step action paired keeps
  have start : Paired (connected inner processSalt) := paired_connected inner processSalt
  constructor
  · apply guarded_imp preserved
    · exact fun _ action paired keeps => dispatches_step action paired keeps
    · exact start
    · exact keeps
  · exact (run_preserves preserved start keeps).unsevered

/-! ### Two houses knock on each other -/

def salt : List.Vector UInt8 5 := List.Vector.replicate 5 9

/-- The address the gate observed the friend at. -/
def friendAddr : Addr := ⟨4, List.Vector.replicate 16 1, 4433⟩

/-- The house asks for its friend and is introduced; later the friend's own knock is
accepted, and followed up. -/
def inTurn : List (IntroduceAction InMemoryFriendStore (InMemoryInviteStore plainCrypto.toCrypto)) :=
  [.introduce 0 friendKey 30 [], .introduction friendTag 7 friendAddr 1 (fromSecs 1), .handOver,
    .wake 0 (fromSecs 1), .knock friendTag (friendSeal 999) (.all (fromSecs 2)),
    .introduction friendTag 8 friendAddr 2 (fromSecs 3)]

/-- The friend's knock is accepted while the house's own call still waits, and the gate
follows the friend's knock up first. -/
def crossed : List (IntroduceAction InMemoryFriendStore (InMemoryInviteStore plainCrypto.toCrypto)) :=
  [.introduce 0 friendKey 30 [], .knock friendTag (friendSeal 999) (.all (fromSecs 2))]

theorem introductions_dispatched_inTurn :
    Guarded (step plainCrypto) (fun world action => world.Dispatches plainCrypto action)
      (connected quietHouse.inner salt) inTurn :=
  (introductions_dispatched plainCrypto quietHouse.inner salt inTurn (by decide +kernel)).1

/-- The responder's `Introduction` goes to the call that waits: the friend is owed it, and
is neither registered nor announced. -/
theorem swallowed_crossed :
    let world := run (step plainCrypto) (connected quietHouse.inner salt) crossed
    let action : IntroduceAction _ _ := .introduction friendTag 8 friendAddr 2 (fromSecs 3)
    (friendTag, friendKey) ∈ world.owed ∧ (world.act plainCrypto action).2 = [] ∧
      (world.step plainCrypto action).handing = some (0, ⟨8, friendAddr, 2⟩) ∧
      ¬world.Dispatches plainCrypto action := by
  intro world action
  have isOwed : (friendTag, friendKey) ∈ world.owed := by decide +kernel
  have free : world.handing = none := by decide
  have silent : (world.act plainCrypto action).2 = [] := by decide +kernel
  refine ⟨isOwed, silent, by decide +kernel, ?_⟩
  intro dispatches
  have answered := (dispatches.answered friendTag 8 friendAddr (fromSecs 3) rfl free friendKey
    isOwed).1
  rw [silent] at answered
  cases answered

end Introducer

end Mosschat.Net.Gate
