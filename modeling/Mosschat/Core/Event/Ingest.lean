import Mosschat.Core.Event.Signed
import Mosschat.Library.HashMap

/-!
Owns `event/ingest.rs`: the recording of one visit, the rules an offered event
must meet in the order they are checked, the honouring of a drop-request, and
the direct insertion of a tombstone.

`Standing` holds the four maps that decide who may author, apart from the
slots, because every per-type rule writes to the one and none to the other.
-/

namespace Mosschat.Core

open Mosschat.Library Mosschat.Library.Cbor

structure StoredEvent where
  event : SignedEvent
deriving DecidableEq

/-- What is left of a dropped event: its place and its id. -/
structure Tombstone where
  seq : UInt64
  eventId : EventId
deriving DecidableEq

inductive Slot where
  | event (stored : StoredEvent)
  | tombstone (tombstone : Tombstone)
deriving DecidableEq

/-- `Slot::event_id`. -/
def Slot.eventId : Slot → EventId
  | .event stored => stored.event.eventId
  | .tombstone dropped => dropped.eventId

structure JoinRecord where
  seq : UInt64
  devices : List Bytes32
  leftAt : Option UInt64
deriving DecidableEq

structure Participant where
  joins : List JoinRecord
deriving DecidableEq

inductive IngestError where
  | zeroVisit
  | malformed (reason : SignedEventError)
  | wrongVisit
  | unknownAuthor
  | revokedAuthor
  | deviceAddGrantNotInForce
  | authorHasLeft
  | broken
  | predecessorMissing (seq : UInt64)
  | replyTargetNotFound
  | reactionTargetNotFound
  | joinNotByHost
  | leaveNotByHost
  | leaveWithoutActiveJoin
  | deviceInForceForDifferentPerson
  | invalidRevokeTarget
  | deviceAddOfRevokedKey
  | dropRequestTargetNotOwnPerson
  | alreadyBroken
  | dropRequestNotFound
deriving DecidableEq

inductive AuthorStatus where
  | unknown
  | left
  | active
deriving DecidableEq

/-- Who has joined, which keys are revoked, in force, or granted for a window. -/
structure Standing where
  participants : HashMap Bytes32 Participant
  revoked : HashMap Bytes32 Bytes32
  devicesInForce : HashMap Bytes32 Bytes32
  deviceAddWindows : HashMap Bytes32 (UInt64 × UInt64)

/-- One visit's recording. The reactions are a set, kept as a list. -/
structure Recording extends Standing where
  visit : Bytes32
  host : Bytes32
  slots : HashMap UInt64 Slot
  reactionsAdded : List (Bytes32 × EventId × String)
  broken : Bool

/-! ## Author standing -/

/-- `is_join || is_leave`: the two types whose author is checked in their own rules. -/
def Body.isJoinOrLeave : Body → Bool
  | .join _ => true
  | .leave _ => true
  | _ => false

namespace JoinRecord

/-- Not closed by a `leave` at or before `atSeq`. -/
def stillOpen (record : JoinRecord) (atSeq : UInt64) : Bool :=
  match record.leftAt with
  | none => true
  | some leftSeq => atSeq < leftSeq

/-- The `leave` at `seq` closes this join. -/
def closes (seq : UInt64) (record : JoinRecord) : Bool :=
  decide (record.seq < seq) && record.leftAt.isNone

def closeAt (seq : UInt64) (record : JoinRecord) : JoinRecord :=
  if closes seq record then { record with leftAt := some seq } else record

/-- The loop over joins in `author_status` and `join_device_status`: the first
open one ends it, a closed one is remembered. -/
def scan (counts : JoinRecord → Bool) (atSeq : UInt64) :
    List JoinRecord → Bool → Option AuthorStatus
  | [], foundEver => if foundEver then some .left else none
  | record :: rest, foundEver =>
      if atSeq < record.seq ∨ counts record = false then scan counts atSeq rest foundEver
      else if record.stillOpen atSeq then some .active
      else scan counts atSeq rest true

end JoinRecord

namespace Standing

def personOf (standing : Standing) (device : Bytes32) : Option Bytes32 :=
  standing.devicesInForce.lookup device

/-- `person_of(..).unwrap_or(..)`: a key in force for nobody stands for itself. -/
def personOrSelf (standing : Standing) (device : Bytes32) : Bytes32 :=
  (standing.personOf device).getD device

def joinsOf (standing : Standing) (person : Bytes32) : List JoinRecord :=
  ((standing.participants.lookup person).map Participant.joins).getD []

def allJoins (standing : Standing) : List JoinRecord :=
  standing.participants.values.flatMap Participant.joins

/-- `join_device_status`. -/
def joinDeviceStatus (standing : Standing) (author : Bytes32) (atSeq : UInt64) :
    Option AuthorStatus :=
  JoinRecord.scan (fun record => record.devices.contains author) atSeq standing.allJoins false

/-- `author_status`. -/
def authorStatus (standing : Standing) (author : Bytes32) (atSeq : UInt64) : AuthorStatus :=
  match standing.joinDeviceStatus author atSeq with
  | some status => status
  | none =>
    match standing.personOf author with
    | none => .unknown
    | some person =>
      (JoinRecord.scan (fun _ => true) atSeq (standing.joinsOf person) false).getD .unknown

/-- `device_add_grant_in_force`. -/
def deviceAddGrantInForce (notBeforeMs notAfterMs evaluationInstantMs : UInt64) : Bool :=
  decide (notBeforeMs ≤ evaluationInstantMs) && decide (evaluationInstantMs < notAfterMs)

/-- The author rules of `ingest`: R-7, R-27, R-30, R-32 and R-37. -/
def checkAuthor (standing : Standing) (event : SignedEvent) (nowMs : UInt64) :
    Except IngestError Unit :=
  let author := event.envelope.author
  if author ∈ standing.revoked then .error .revokedAuthor
  else if event.body.isJoinOrLeave then .ok ()
  else
    match standing.authorStatus author event.envelope.seq with
    | .unknown => .error .unknownAuthor
    | .left => .error .authorHasLeft
    | .active =>
      match standing.deviceAddWindows.lookup author with
      | none => .ok ()
      | some (notBeforeMs, notAfterMs) =>
        if deviceAddGrantInForce notBeforeMs notAfterMs nowMs then .ok ()
        else .error .deviceAddGrantNotInForce

/-! ## Effects of the per-type rules -/

/-- `apply_join`. -/
def applyJoin (standing : Standing) (join : Join) (seq : UInt64) : Standing :=
  { standing with
    devicesInForce :=
      join.devices.foldl (fun inForce device => inForce.orInsert device join.person)
        standing.devicesInForce
    participants :=
      standing.participants.put join.person
        ⟨standing.joinsOf join.person ++ [⟨seq, join.devices, none⟩]⟩ }

/-- `apply_leave`. -/
def applyLeave (standing : Standing) (leave : Leave) (seq : UInt64) :
    Except IngestError Standing :=
  match standing.participants.lookup leave.person with
  | none => .error .leaveWithoutActiveJoin
  | some participant =>
    if participant.joins.any (JoinRecord.closes seq) then
      .ok
        { standing with
          participants :=
            standing.participants.put leave.person
              ⟨participant.joins.map (JoinRecord.closeAt seq)⟩ }
    else .error .leaveWithoutActiveJoin

/-- `check_device_add`. -/
def checkDeviceAdd (standing : Standing) (author : Bytes32) (deviceAdd : DeviceAdd) :
    Except IngestError Unit :=
  if deviceAdd.device ∈ standing.revoked then .error .deviceAddOfRevokedKey
  else
    match standing.personOf deviceAdd.device with
    | none => .ok ()
    | some existingPerson =>
      if existingPerson ≠ standing.personOrSelf author then
        .error .deviceInForceForDifferentPerson
      else .ok ()

/-- The effect of an accepted `device-add`. -/
def applyDeviceAdd (standing : Standing) (author : Bytes32) (deviceAdd : DeviceAdd) : Standing :=
  { standing with
    devicesInForce :=
      standing.devicesInForce.orInsert deviceAdd.device (standing.personOrSelf author)
    deviceAddWindows :=
      standing.deviceAddWindows.put deviceAdd.device
        (deviceAdd.notBeforeMs, deviceAdd.notAfterMs) }

/-- `check_device_revoke`. -/
def checkDeviceRevoke (standing : Standing) (author : Bytes32) (deviceRevoke : DeviceRevoke) :
    Except IngestError Unit :=
  if deviceRevoke.device = author then .error .invalidRevokeTarget
  else if standing.personOf deviceRevoke.device ≠ some (standing.personOrSelf author) then
    .error .invalidRevokeTarget
  else .ok ()

/-- The effect of an accepted `device-revoke`. -/
def applyDeviceRevoke (standing : Standing) (author : Bytes32) (deviceRevoke : DeviceRevoke) :
    Standing :=
  { standing with
    revoked := standing.revoked.put deviceRevoke.device author
    devicesInForce := standing.devicesInForce.erase deviceRevoke.device }

end Standing

/-! ## The recording -/

namespace Recording

/-- `Recording::new`. -/
def new (visit host : Bytes32) : Except IngestError Recording :=
  if visit = zero32 then .error .zeroVisit
  else
    .ok
      { visit, host
        slots := ∅
        participants := ∅
        revoked := ∅
        devicesInForce := ∅
        deviceAddWindows := ∅
        reactionsAdded := []
        broken := false }

/-- `Recording::get`. -/
def get (recording : Recording) (seq : UInt64) : Option StoredEvent :=
  match recording.slots.lookup seq with
  | some (.event stored) => some stored
  | _ => none

/-- `Recording::tombstone_at`. -/
def tombstoneAt (recording : Recording) (seq : UInt64) : Option Tombstone :=
  match recording.slots.lookup seq with
  | some (.tombstone tombstone) => some tombstone
  | _ => none

/-- `seq_of`. -/
def seqOf (recording : Recording) (id : EventId) : Option UInt64 :=
  recording.slots.findKey fun slot => slot.eventId = id

/-- The `prev` that R-13 expects at `seq`; `none` when the predecessor is not held. -/
def expectedPrev (recording : Recording) (seq : UInt64) : Option Bytes32 :=
  if seq = 0 then some zero32
  else (recording.slots.lookup (seq - 1)).map fun slot => slot.eventId.asBytes

/-- The checks of `ingest` on where an event belongs: R-11, R-12 and R-13. -/
def checkPlace (recording : Recording) (event : SignedEvent) : Except IngestError Unit :=
  let seq := event.envelope.seq
  if event.envelope.visit = zero32 then .error .zeroVisit
  else if event.envelope.visit ≠ recording.visit then .error .wrongVisit
  else if ∃ slot ∈ recording.slots.lookup seq, slot.eventId ≠ event.eventId then .error .broken
  else
    match recording.expectedPrev seq with
    | none => .error (.predecessorMissing (seq - 1))
    | some expected => if event.envelope.prev ≠ expected then .error .broken else .ok ()

/-- `require_stored_at_lower_seq`. -/
def storedAtLowerSeq (recording : Recording) (id : EventId) (atSeq : UInt64) : Bool :=
  match recording.seqOf id with
  | some foundSeq => foundSeq < atSeq
  | none => false

/-- One target of `check_drop_request`: a live event of the requester's person. -/
def ownsTarget (recording : Recording) (author target : Bytes32) : Bool :=
  match recording.seqOf (.fromBytes target) with
  | none => false
  | some targetSeq =>
    match recording.get targetSeq with
    | none => false
    | some stored =>
      recording.personOrSelf stored.event.envelope.author = recording.personOrSelf author

/-- `check_drop_request`. -/
def checkDropRequest (recording : Recording) (author : Bytes32) (dropRequest : DropRequest) :
    Except IngestError Unit :=
  match dropRequest.targets with
  | none => .ok ()
  | some targets =>
    if targets.all (recording.ownsTarget author) then .ok ()
    else .error .dropRequestTargetNotOwnPerson

/-- The per-type rules of `ingest`, with the standing they leave. -/
def applyBody (recording : Recording) (event : SignedEvent) : Except IngestError Standing :=
  let standing := recording.toStanding
  let author := event.envelope.author
  let seq := event.envelope.seq
  match event.body with
  | .message message =>
    match message.replyTo with
    | none => .ok standing
    | some replyTo =>
      if recording.storedAtLowerSeq (.fromBytes replyTo) seq then .ok standing
      else .error .replyTargetNotFound
  | .reaction reaction =>
    if recording.storedAtLowerSeq (.fromBytes reaction.target) seq then .ok standing
    else .error .reactionTargetNotFound
  | .attachment _ => .ok standing
  | .join join =>
    if author ≠ recording.host then .error .joinNotByHost
    else .ok (standing.applyJoin join seq)
  | .leave leave =>
    if author ≠ recording.host then .error .leaveNotByHost
    else standing.applyLeave leave seq
  | .deviceAdd deviceAdd => do
    standing.checkDeviceAdd author deviceAdd
    pure (standing.applyDeviceAdd author deviceAdd)
  | .deviceRevoke deviceRevoke => do
    standing.checkDeviceRevoke author deviceRevoke
    pure (standing.applyDeviceRevoke author deviceRevoke)
  | .dropRequest dropRequest => do
    recording.checkDropRequest author dropRequest
    pure standing
  | .unknown _ _ => .ok standing

/-- The reactions after `event` has been stored. -/
def noteReaction (reactionsAdded : List (Bytes32 × EventId × String)) (event : SignedEvent) :
    List (Bytes32 × EventId × String) :=
  match event.body with
  | .reaction reaction =>
    if reaction.remove then reactionsAdded
    else
      reactionsAdded.insert
        (event.envelope.author, .fromBytes reaction.target, reaction.symbol)
  | _ => reactionsAdded

/-- The recording with `event` in its slot and its effects in place. -/
def store (recording : Recording) (event : SignedEvent) (standing : Standing) : Recording :=
  { recording with
    toStanding := standing
    slots := recording.slots.put event.envelope.seq (.event ⟨event⟩)
    reactionsAdded := noteReaction recording.reactionsAdded event }

/-- The rules of `ingest` past parsing, none of which has changed anything yet. -/
def checkEvent (recording : Recording) (event : SignedEvent) (nowMs : UInt64) :
    Except IngestError Standing := do
  recording.checkPlace event
  recording.checkAuthor event nowMs
  recording.applyBody event

/-- `Recording::ingest` on a parsed event. Only R-13 leaves a trace of a refusal. -/
def ingestEvent (recording : Recording) (event : SignedEvent) (nowMs : UInt64) :
    Recording × Except IngestError EventId :=
  match recording.checkEvent event nowMs with
  | .error .broken => ({ recording with broken := true }, .error .broken)
  | .error reason => (recording, .error reason)
  | .ok standing => (recording.store event standing, .ok event.eventId)

/-- `Recording::ingest`. -/
def ingest (crypto : Crypto) (recording : Recording) (input : Bytes) (nowMs : UInt64) :
    Recording × Except IngestError EventId :=
  if recording.broken then (recording, .error .alreadyBroken)
  else
    match SignedEvent.parse crypto input with
    | .error reason => (recording, .error (.malformed reason))
    | .ok event => recording.ingestEvent event nowMs

/-! ## Tombstones -/

/-- `Recording::insert_tombstone`. -/
def insertTombstone (recording : Recording) (seq : UInt64) (id : EventId) : Recording :=
  { recording with slots := recording.slots.put seq (.tombstone ⟨seq, id⟩) }

/-- One round of the loop in `honour_drop_request`. -/
def dropSlot (state : Recording × Nat) (seq : UInt64) : Recording × Nat :=
  match state.1.get seq with
  | none => state
  | some stored => (state.1.insertTombstone seq stored.event.eventId, state.2 + 1)

/-- The seqs `honour_drop_request` goes through. -/
def dropTargets (recording : Recording) (requestSeq : UInt64) (dropRequest : DropRequest) :
    List UInt64 :=
  if dropRequest.scope = 0 then
    recording.slots.keys.filter fun seq => seq ≠ requestSeq ∧ (recording.get seq).isSome
  else (dropRequest.targets.getD []).filterMap fun id => recording.seqOf (.fromBytes id)

/-- The stored drop-request that `request` names, and its seq. -/
def dropRequestAt (recording : Recording) (request : EventId) : Option (UInt64 × DropRequest) :=
  match recording.seqOf request with
  | none => none
  | some requestSeq =>
    match recording.get requestSeq with
    | none => none
    | some stored =>
      match stored.event.body with
      | .dropRequest dropRequest => some (requestSeq, dropRequest)
      | _ => none

/-- `Recording::honour_drop_request`. -/
def honourDropRequest (recording : Recording) (request : EventId) :
    Except IngestError (Recording × Nat) :=
  match recording.dropRequestAt request with
  | none => .error .dropRequestNotFound
  | some (requestSeq, dropRequest) =>
    .ok ((recording.dropTargets requestSeq dropRequest).foldl dropSlot (recording, 0))

end Recording

end Mosschat.Core
