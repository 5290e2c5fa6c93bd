import Mosschat.Core.Recording.Strangers
import Mosschat.Library.InPlace

/-!
Owns `Recording::ingest` as the source writes it: one method on `&mut self` whose
writes and early returns stand in one body, so that whatever was written before a
`return Err` stays written. Its call is the transition of `Recording.ingest`, and
so a refused event has written nothing but the broken flag.
-/

namespace Mosschat.Core

open Mosschat.Library Mosschat.Library.Cbor

/-- A method of `Recording` on `&mut self`. -/
abbrev Ingesting (α : Type) := InPlace Recording IngestError α

namespace Ingesting

/-- R-12 and R-11. -/
def checkVisit (event : SignedEvent) : Ingesting Unit := do
  if event.envelope.visit = zero32 then throw .zeroVisit
  if event.envelope.visit ≠ (← get).visit then throw .wrongVisit

/-- R-13 on an occupied seq: the flag is written before the return. -/
def checkCollision (event : SignedEvent) : Ingesting Unit := do
  if let some existing := (← get).slots.lookup event.envelope.seq then
    if existing.eventId ≠ event.eventId then
      modify fun recording => { recording with broken := true }
      throw .broken

/-- R-13 on `prev`: the flag is written before the return, unless the predecessor
is not held. -/
def checkPrev (event : SignedEvent) : Ingesting Unit := do
  let seq := event.envelope.seq
  let expectedPrev ←
    if seq = 0 then pure zero32
    else
      match (← get).slots.lookup (seq - 1) with
      | some slot => pure slot.eventId.asBytes
      | none => throw (.predecessorMissing (seq - 1))
  if event.envelope.prev ≠ expectedPrev then
    modify fun recording => { recording with broken := true }
    throw .broken

/-- The checks on where an event belongs. -/
def checkPlace (event : SignedEvent) : Ingesting Unit := do
  checkVisit event
  checkCollision event
  checkPrev event

/-- R-7, R-27, R-30, R-32 and R-37. -/
def checkAuthor (event : SignedEvent) (nowMs : UInt64) : Ingesting Unit := do
  let author := event.envelope.author
  if author ∈ (← get).revoked then throw .revokedAuthor
  if event.body.isJoinOrLeave = false then
    match (← get).authorStatus author event.envelope.seq with
    | .unknown => throw .unknownAuthor
    | .left => throw .authorHasLeft
    | .active => pure ()
    if let some (notBeforeMs, notAfterMs) := (← get).deviceAddWindows.lookup author then
      if Standing.deviceAddGrantInForce notBeforeMs notAfterMs nowMs = false then
        throw .deviceAddGrantNotInForce

/-- `require_stored_at_lower_seq(..).map_err(..)?`. -/
def requireStoredAtLowerSeq (id : EventId) (atSeq : UInt64) (reason : IngestError) :
    Ingesting Unit :=
  InPlace.reading fun recording =>
    if recording.storedAtLowerSeq id atSeq then .ok () else .error reason

/-- The loop of `apply_join` over `join.devices`. -/
def claimDevices (person : Bytes32) : List Bytes32 → Ingesting Unit
  | [] => pure ()
  | device :: rest => do
      modify fun recording =>
        { recording with devicesInForce := recording.devicesInForce.orInsert device person }
      claimDevices person rest

/-- `apply_join`. -/
def applyJoin (join : Join) (seq : UInt64) : Ingesting Unit := do
  claimDevices join.person join.devices
  modify fun recording =>
    { recording with participants := recording.participants.orInsert join.person ⟨[]⟩ }
  modify fun recording =>
    { recording with
      participants :=
        recording.participants.put join.person
          ⟨recording.joinsOf join.person ++ [⟨seq, join.devices, none⟩]⟩ }

/-- The loop of `apply_leave`: every join it closes is written where it stands. -/
def closeJoins (person : Bytes32) (seq : UInt64) :
    List JoinRecord → List JoinRecord → Bool → Ingesting Bool
  | _, [], closedAny => pure closedAny
  | done, join :: rest, closedAny =>
      if join.seq < seq ∧ join.leftAt.isNone then do
        let closed := { join with leftAt := some seq }
        modify fun recording =>
          { recording with
            participants := recording.participants.put person ⟨done ++ closed :: rest⟩ }
        closeJoins person seq (done ++ [closed]) rest true
      else closeJoins person seq (done ++ [join]) rest closedAny

/-- `apply_leave`. -/
def applyLeave (leave : Leave) (seq : UInt64) : Ingesting Unit := do
  match (← get).participants.lookup leave.person with
  | none => throw .leaveWithoutActiveJoin
  | some participant =>
    let closedAny ← closeJoins leave.person seq [] participant.joins false
    if closedAny then pure () else throw .leaveWithoutActiveJoin

/-- The per-type rules, checks and writes in one match. -/
def applyBody (event : SignedEvent) : Ingesting Unit := do
  let author := event.envelope.author
  let seq := event.envelope.seq
  match event.body with
  | .message message =>
    match message.replyTo with
    | none => pure ()
    | some replyTo => requireStoredAtLowerSeq (.fromBytes replyTo) seq .replyTargetNotFound
  | .reaction reaction =>
    requireStoredAtLowerSeq (.fromBytes reaction.target) seq .reactionTargetNotFound
  | .attachment _ => pure ()
  | .join join =>
    if author ≠ (← get).host then throw .joinNotByHost
    applyJoin join seq
  | .leave leave =>
    if author ≠ (← get).host then throw .leaveNotByHost
    applyLeave leave seq
  | .deviceAdd deviceAdd =>
    InPlace.reading fun recording => recording.checkDeviceAdd author deviceAdd
    let adderPerson := (← get).personOrSelf author
    modify fun recording =>
      { recording with
        devicesInForce := recording.devicesInForce.orInsert deviceAdd.device adderPerson }
    modify fun recording =>
      { recording with
        deviceAddWindows :=
          recording.deviceAddWindows.put deviceAdd.device
            (deviceAdd.notBeforeMs, deviceAdd.notAfterMs) }
  | .deviceRevoke deviceRevoke =>
    InPlace.reading fun recording => recording.checkDeviceRevoke author deviceRevoke
    modify fun recording =>
      { recording with revoked := recording.revoked.put deviceRevoke.device author }
    modify fun recording =>
      { recording with devicesInForce := recording.devicesInForce.erase deviceRevoke.device }
  | .dropRequest dropRequest =>
    InPlace.reading fun recording => recording.checkDropRequest author dropRequest
  | .unknown _ _ => pure ()

/-- The slot and the reaction an accepted event leaves. -/
def storeEvent (event : SignedEvent) : Ingesting Unit := do
  modify fun recording =>
    { recording with slots := recording.slots.put event.envelope.seq (.event ⟨event⟩) }
  modify fun recording =>
    { recording with reactionsAdded := Recording.noteReaction recording.reactionsAdded event }

/-- `Recording::ingest`. -/
def ingest (crypto : Crypto) (input : Bytes) (nowMs : UInt64) : Ingesting EventId := do
  if (← get).broken then throw .alreadyBroken
  match SignedEvent.parse crypto input with
  | .error reason => throw (.malformed reason)
  | .ok event =>
    checkPlace event
    checkAuthor event nowMs
    applyBody event
    storeEvent event
    pure event.eventId

/-! ## What each part leaves -/

variable {event : SignedEvent} {recording : Recording} {seq nowMs : UInt64} {person : Bytes32}

theorem call_checkVisit (event : SignedEvent) (recording : Recording) :
    (checkVisit event).call recording =
      (recording,
        if event.envelope.visit = zero32 then .error .zeroVisit
        else if event.envelope.visit ≠ recording.visit then .error .wrongVisit
        else .ok ()) := by
  unfold checkVisit
  by_cases zeroed : event.envelope.visit = zero32
  · simp [zeroed, InPlace.call_bind]
  · by_cases foreign : event.envelope.visit ≠ recording.visit
    · simp [zeroed, foreign, InPlace.call_bind]
    · simp [zeroed, foreign, InPlace.call_bind]

theorem call_checkCollision (event : SignedEvent) (recording : Recording) :
    (checkCollision event).call recording =
      if ∃ slot ∈ recording.slots.lookup event.envelope.seq, slot.eventId ≠ event.eventId then
        (recording.markBroken, .error .broken)
      else (recording, .ok ()) := by
  unfold checkCollision
  cases held : recording.slots.lookup event.envelope.seq with
  | none => simp [held, InPlace.call_bind]
  | some slot =>
    by_cases differs : slot.eventId ≠ event.eventId
    · simp [held, differs, InPlace.call_bind, Recording.markBroken]
    · simp [held, differs, InPlace.call_bind]

theorem call_checkPrev (event : SignedEvent) (recording : Recording) :
    (checkPrev event).call recording =
      match recording.expectedPrev event.envelope.seq with
      | none => (recording, .error (.predecessorMissing (event.envelope.seq - 1)))
      | some expected =>
        if event.envelope.prev ≠ expected then (recording.markBroken, .error .broken)
        else (recording, .ok ()) := by
  unfold checkPrev Recording.expectedPrev
  by_cases first : event.envelope.seq = 0
  · simp [first, InPlace.call_bind, Recording.markBroken]
  · cases before : recording.slots.lookup (event.envelope.seq - 1) with
    | none => simp [first, before, InPlace.call_bind]
    | some slot => simp [first, before, InPlace.call_bind, Recording.markBroken]

/-- Of the refusals on place, R-13 alone has written something: the flag. -/
theorem call_checkPlace (event : SignedEvent) (recording : Recording) :
    (checkPlace event).call recording =
      match recording.checkPlace event with
      | .error .broken => (recording.markBroken, .error .broken)
      | answer => (recording, answer) := by
  have visited := call_checkVisit event recording
  have collided := call_checkCollision event recording
  have followed := call_checkPrev event recording
  unfold checkPlace Recording.checkPlace
  by_cases zeroed : event.envelope.visit = zero32
  · rw [if_pos zeroed] at visited
    rw [InPlace.call_bind_error visited]
    simp [zeroed]
  by_cases foreign : event.envelope.visit ≠ recording.visit
  · rw [if_neg zeroed, if_pos foreign] at visited
    rw [InPlace.call_bind_error visited]
    simp [zeroed, foreign]
  rw [if_neg zeroed, if_neg foreign] at visited
  rw [InPlace.call_bind_ok visited]
  simp only [if_neg zeroed, if_neg foreign]
  by_cases collides : ∃ slot ∈ recording.slots.lookup event.envelope.seq,
      slot.eventId ≠ event.eventId
  · rw [if_pos collides] at collided
    rw [InPlace.call_bind_error collided, if_pos collides]
  rw [if_neg collides] at collided
  rw [InPlace.call_bind_ok collided, followed, if_neg collides]
  cases recording.expectedPrev event.envelope.seq with
  | none => rfl
  | some expected =>
    simp only
    split_ifs <;> rfl

theorem call_checkAuthor (event : SignedEvent) (nowMs : UInt64) (recording : Recording) :
    (checkAuthor event nowMs).call recording =
      (recording, recording.toStanding.checkAuthor event nowMs) := by
  unfold checkAuthor Standing.checkAuthor
  by_cases revoked : event.envelope.author ∈ recording.revoked
  · simp [revoked, InPlace.call_bind]
  by_cases own : event.body.isJoinOrLeave = true
  · simp [revoked, own, InPlace.call_bind]
  cases status : recording.authorStatus event.envelope.author event.envelope.seq with
  | unknown => simp [revoked, own, status, InPlace.call_bind]
  | left => simp [revoked, own, status, InPlace.call_bind]
  | active =>
    cases window : recording.deviceAddWindows.lookup event.envelope.author with
    | none => simp [revoked, own, status, window, InPlace.call_bind]
    | some grant =>
      by_cases inForce : Standing.deviceAddGrantInForce grant.1 grant.2 nowMs = true
      · simp [revoked, own, status, window, inForce, InPlace.call_bind]
      · simp [revoked, own, status, window, inForce, InPlace.call_bind]

theorem call_requireStoredAtLowerSeq (id : EventId) (atSeq : UInt64) (reason : IngestError)
    (recording : Recording) :
    (requireStoredAtLowerSeq id atSeq reason).call recording =
      (recording, if recording.storedAtLowerSeq id atSeq then .ok () else .error reason) :=
  InPlace.call_reading _ recording

theorem call_claimDevices (person : Bytes32) (devices : List Bytes32) (recording : Recording) :
    (claimDevices person devices).call recording =
      ({ recording with
          devicesInForce :=
            devices.foldl (fun inForce device => inForce.orInsert device person)
              recording.devicesInForce },
        .ok ()) := by
  induction devices generalizing recording with
  | nil => rfl
  | cons device rest ih =>
      rw [claimDevices, InPlace.call_bind_ok (InPlace.call_modify _ _), ih]
      rfl

theorem call_applyJoin (join : Join) (seq : UInt64) (recording : Recording) :
    (applyJoin join seq).call recording =
      ({ recording with toStanding := recording.toStanding.applyJoin join seq }, .ok ()) := by
  rw [applyJoin, InPlace.call_bind_ok (call_claimDevices _ _ _),
    InPlace.call_bind_ok (InPlace.call_modify _ _), InPlace.call_modify]
  have joins : (((recording.participants.orInsert join.person ⟨[]⟩).lookup join.person).map
      Participant.joins).getD [] = recording.joinsOf join.person := by
    rw [HashMap.lookup_orInsert, if_pos rfl, Standing.joinsOf]
    cases recording.participants.lookup join.person <;> rfl
  simp only [Standing.applyJoin, Standing.joinsOf] at joins ⊢
  rw [joins, HashMap.put_orInsert]

/-- The loop closes the joins still ahead of it, in place. -/
theorem call_closeJoins (rest : List JoinRecord) :
    ∀ (done : List JoinRecord) (closedAny : Bool) (recording : Recording),
      recording.participants.lookup person = some ⟨done ++ rest⟩ →
        (closeJoins person seq done rest closedAny).call recording =
          ({ recording with
              participants :=
                recording.participants.put person ⟨done ++ rest.map (JoinRecord.closeAt seq)⟩ },
            .ok (closedAny || rest.any (JoinRecord.closes seq))) := by
  induction rest with
  | nil =>
      intro done closedAny recording found
      have same : recording.participants.put person ⟨done ++ []⟩ = recording.participants :=
        HashMap.put_of_lookup found
      rw [List.map_nil, same, List.any_nil, Bool.or_false]
      rfl
  | cons join rest ih =>
      intro done closedAny recording found
      by_cases closes : join.seq < seq ∧ join.leftAt.isNone
      · have marked : JoinRecord.closes seq join = true := by simp [JoinRecord.closes, closes]
        have closed : JoinRecord.closeAt seq join = { join with leftAt := some seq } :=
          if_pos marked
        rw [closeJoins, if_pos closes]
        simp only
        rw [InPlace.call_bind_ok (InPlace.call_modify _ _), ih]
        · simp only [HashMap.put_put, List.map_cons, List.any_cons, marked, closed,
            List.append_assoc, List.cons_append, List.nil_append, Bool.true_or, Bool.or_true]
        · simp
      · have unmarked : JoinRecord.closes seq join = false := by
          rw [JoinRecord.closes, Bool.and_eq_false_iff, decide_eq_false_iff_not,
            ← Bool.not_eq_true, ← not_and_or]
          exact closes
        have kept : JoinRecord.closeAt seq join = join := by simp [JoinRecord.closeAt, unmarked]
        rw [closeJoins, if_neg closes, ih]
        · simp only [List.map_cons, List.any_cons, unmarked, kept, List.append_assoc,
            List.cons_append, List.nil_append, Bool.false_or]
        · simpa using found

/-- A leave that closes nothing has written nothing. -/
theorem call_applyLeave (leave : Leave) (seq : UInt64) (recording : Recording) :
    (applyLeave leave seq).call recording =
      match recording.toStanding.applyLeave leave seq with
      | .ok standing => ({ recording with toStanding := standing }, .ok ())
      | .error reason => (recording, .error reason) := by
  unfold applyLeave Standing.applyLeave
  rw [InPlace.call_bind_ok (InPlace.call_get recording)]
  cases found : recording.participants.lookup leave.person with
  | none => rfl
  | some participant =>
    have closed :
        (closeJoins leave.person seq [] participant.joins false).call recording =
          ({ recording with
              participants := recording.participants.put leave.person
                ⟨[] ++ participant.joins.map (JoinRecord.closeAt seq)⟩ },
            .ok (false || participant.joins.any (JoinRecord.closes seq))) :=
      call_closeJoins participant.joins [] false recording found
    simp only
    rw [InPlace.call_bind_ok closed, Bool.false_or, InPlace.call_ite]
    by_cases any : participant.joins.any (JoinRecord.closes seq) = true
    · rw [if_pos any, if_pos any]
      rfl
    · have kept : ∀ join ∈ participant.joins, JoinRecord.closeAt seq join = join := by
        intro join member
        have unmarked : ¬JoinRecord.closes seq join = true :=
          fun marked => any (List.any_eq_true.mpr ⟨join, member, marked⟩)
        exact if_neg unmarked
      have same : participant.joins.map (JoinRecord.closeAt seq) = participant.joins :=
        (List.map_congr_left kept).trans (List.map_id participant.joins)
      have unwritten : recording.participants.put leave.person ⟨participant.joins⟩ =
          recording.participants := HashMap.put_of_lookup found
      rw [if_neg any, if_neg any, same, List.nil_append, unwritten]
      rfl

theorem call_applyBody (event : SignedEvent) (recording : Recording) :
    (applyBody event).call recording =
      match recording.applyBody event with
      | .ok standing => ({ recording with toStanding := standing }, .ok ())
      | .error reason => (recording, .error reason) := by
  unfold applyBody Recording.applyBody
  simp only
  cases event.body with
  | message message =>
    simp only
    cases message.replyTo with
    | none => rfl
    | some replyTo =>
      simp only [call_requireStoredAtLowerSeq]
      split_ifs <;> rfl
  | reaction reaction =>
    simp only [call_requireStoredAtLowerSeq]
    split_ifs <;> rfl
  | attachment attachment => rfl
  | join join =>
    simp only
    rw [InPlace.call_bind_ok (InPlace.call_get recording), InPlace.call_ite, call_applyJoin]
    split_ifs <;> rfl
  | leave leave =>
    simp only
    rw [InPlace.call_bind_ok (InPlace.call_get recording), InPlace.call_ite, call_applyLeave]
    split_ifs <;> rfl
  | deviceAdd deviceAdd =>
    simp only
    have checked := InPlace.call_reading
      (fun recording => recording.toStanding.checkDeviceAdd event.envelope.author deviceAdd) recording
    cases check : recording.toStanding.checkDeviceAdd event.envelope.author deviceAdd with
    | error reason =>
      rw [check] at checked
      rw [InPlace.call_bind_error checked]
      rfl
    | ok =>
      rw [check] at checked
      rw [InPlace.call_bind_ok checked]
      rfl
  | deviceRevoke deviceRevoke =>
    simp only
    have checked := InPlace.call_reading (fun recording : Recording =>
      recording.toStanding.checkDeviceRevoke event.envelope.author deviceRevoke) recording
    cases check : recording.toStanding.checkDeviceRevoke event.envelope.author deviceRevoke with
    | error reason =>
      rw [check] at checked
      rw [InPlace.call_bind_error checked]
      rfl
    | ok =>
      rw [check] at checked
      rw [InPlace.call_bind_ok checked]
      rfl
  | dropRequest dropRequest =>
    simp only [InPlace.call_reading]
    cases recording.checkDropRequest event.envelope.author dropRequest <;> rfl
  | unknown typeValue raw => rfl

/-- The method on `&mut self` makes the transition of `Recording.ingest`. -/
theorem call_ingest (crypto : Crypto) (input : Bytes) (nowMs : UInt64) (recording : Recording) :
    (ingest crypto input nowMs).call recording = recording.ingest crypto input nowMs := by
  unfold ingest Recording.ingest
  rw [InPlace.call_bind_ok (InPlace.call_get recording), InPlace.call_ite]
  by_cases broken : recording.broken = true
  · rw [if_pos broken, if_pos broken]
    rfl
  rw [if_neg broken, if_neg broken]
  cases SignedEvent.parse crypto input with
  | error reason => rfl
  | ok event =>
    have placed := call_checkPlace event recording
    have authored := call_checkAuthor event nowMs recording
    have ruled := call_applyBody event recording
    simp only
    unfold Recording.ingestEvent Recording.checkEvent
    cases place : recording.checkPlace event with
    | error reason =>
      rw [place] at placed
      cases reason <;> rw [InPlace.call_bind_error placed] <;> rfl
    | ok =>
      rw [place] at placed
      rw [InPlace.call_bind_ok placed]
      cases author : recording.toStanding.checkAuthor event nowMs with
      | error reason =>
        rw [author] at authored
        have other : reason ≠ .broken := by
          intro broke
          rw [broke] at author
          exact Standing.checkAuthor_ne_broken author
        rw [InPlace.call_bind_error authored]
        cases reason <;> first | rfl | exact absurd rfl other
      | ok =>
        rw [author] at authored
        rw [InPlace.call_bind_ok authored]
        cases body : recording.applyBody event with
        | error reason =>
          rw [body] at ruled
          have other : reason ≠ .broken := by
            intro broke
            rw [broke] at body
            exact Recording.applyBody_ne_broken body
          rw [InPlace.call_bind_error ruled]
          cases reason <;> first | rfl | exact absurd rfl other
        | ok standing =>
          rw [body] at ruled
          rw [InPlace.call_bind_ok ruled]
          rfl

/-! ## Refusals -/

/-- One call of a method of `Recording` on `&mut self`. -/
inductive Mutation where
  | ingest (input : Bytes) (nowMs : UInt64)
  | honourDropRequest (request : EventId)
  | insertTombstone (seq : UInt64) (id : EventId)

/-- The recording a call leaves, whatever it answers. -/
def mutate (crypto : Crypto) (recording : Recording) : Mutation → Recording
  | .ingest input nowMs => ((ingest crypto input nowMs).call recording).1
  | .honourDropRequest request => recording.call crypto (.honourDropRequest request)
  | .insertTombstone seq id => recording.insertTombstone seq id

theorem ingest_of_broken {crypto : Crypto} {input : Bytes} (broken : recording.broken = true) :
    (ingest crypto input nowMs).call recording = (recording, .error .alreadyBroken) := by
  rw [call_ingest, Recording.ingest, if_pos broken]

/-- No call takes the flag back. -/
theorem mutate_broken {crypto : Crypto} (mutation : Mutation) (broken : recording.broken = true) :
    (mutate crypto recording mutation).broken = true := by
  cases mutation with
  | ingest input nowMs =>
    rw [mutate, ingest_of_broken broken]
    exact broken
  | honourDropRequest request =>
    show (recording.call crypto (.honourDropRequest request)).broken = true
    simp only [Recording.call]
    cases honoured : recording.honourDropRequest request with
    | error reason => exact broken
    | ok outcome =>
      obtain ⟨_, _, _, drops⟩ := Recording.honourDropRequest_ok honoured
      exact drops.broken.trans broken
  | insertTombstone seq id => exact broken

theorem run_mutate_broken {crypto : Crypto} (broken : recording.broken = true)
    (mutations : List Mutation) :
    (Machine.run (mutate crypto) recording mutations).broken = true := by
  have step : ∀ state mutation, state.broken = true →
      (mutate crypto state mutation).broken = true :=
    fun _ mutation held => mutate_broken mutation held
  exact Machine.run_always step broken mutations

/-- A refused event leaves every field as it was, but for the flag where R-13
refuses it; and a broken recording refuses every event from then on, unchanged. -/
theorem ingest_atomic (crypto : Crypto) (recording : Recording) (input : Bytes)
    (nowMs : UInt64) :
    (∀ reason, ((ingest crypto input nowMs).call recording).2 = .error reason →
        reason ≠ .broken → ((ingest crypto input nowMs).call recording).1 = recording) ∧
      (((ingest crypto input nowMs).call recording).2 = .error .broken →
        recording.broken = false ∧
          ((ingest crypto input nowMs).call recording).1 = { recording with broken := true }) ∧
      (recording.broken = true → ∀ mutations : List Mutation,
        (ingest crypto input nowMs).call (Machine.run (mutate crypto) recording mutations) =
          (Machine.run (mutate crypto) recording mutations, .error .alreadyBroken)) := by
  refine ⟨?_, ?_, fun broken mutations => ingest_of_broken (run_mutate_broken broken mutations)⟩
  · intro reason refused other
    rw [call_ingest] at refused ⊢
    rcases recording.ingest_cases crypto input nowMs with
      ⟨_, _, _, _, _, stored⟩ | ⟨_, _, _, _, broke⟩ | ⟨_, _, unchanged⟩
    · rw [stored] at refused
      cases refused
    · rw [broke] at refused
      cases refused
      exact absurd rfl other
    · rw [unchanged]
  · intro refused
    rw [call_ingest] at refused ⊢
    rcases recording.ingest_cases crypto input nowMs with
      ⟨_, _, _, _, _, stored⟩ | ⟨_, sound, _, _, broke⟩ | ⟨_, other, unchanged⟩
    · rw [stored] at refused
      cases refused
    · rw [broke]
      exact ⟨sound, rfl⟩
    · rw [unchanged] at refused
      cases refused
      exact absurd rfl other

/-- The stranger's event is refused by R-13 and writes the flag, which stays. -/
theorem ingest_atomic_strangerEvent :
    ((ingest Recording.strangerCrypto Recording.strangerEvent.toBytes 6).call
        Recording.joinedVisit).1 = { Recording.joinedVisit with broken := true } ∧
      (ingest Recording.strangerCrypto openingDrop.toBytes 6).call
          { Recording.joinedVisit with broken := true } =
        ({ Recording.joinedVisit with broken := true }, .error .alreadyBroken) := by
  have refused : ((ingest Recording.strangerCrypto Recording.strangerEvent.toBytes 6).call
      Recording.joinedVisit).2 = .error .broken := by
    rw [call_ingest]
    decide +kernel
  constructor
  · exact ((ingest_atomic Recording.strangerCrypto Recording.joinedVisit
      Recording.strangerEvent.toBytes 6).2.1 refused).2
  · exact (ingest_atomic Recording.strangerCrypto { Recording.joinedVisit with broken := true }
      openingDrop.toBytes 6).2.2 rfl []

end Ingesting

end Mosschat.Core
