import Mosschat.Core.Event.IngestRules

/-!
Owns the per-type rules as conditions, and what each leaves in the four maps of
the standing, one lemma for each map and each effect.
-/

namespace Mosschat.Core

open Mosschat.Library Mosschat.Library.Cbor

namespace JoinRecord

variable {record : JoinRecord} {seq atSeq : UInt64}

theorem closes_iff : record.closes seq = true ↔ record.seq < seq ∧ record.leftAt = none := by
  rw [closes, Bool.and_eq_true, decide_eq_true_eq, Option.isNone_iff_eq_none]

@[simp] theorem closeAt_seq : (closeAt seq record).seq = record.seq := by
  unfold closeAt
  split_ifs <;> rfl

@[simp] theorem closeAt_devices : (closeAt seq record).devices = record.devices := by
  unfold closeAt
  split_ifs <;> rfl

end JoinRecord

namespace Standing

variable {standing after : Standing} {author person device : Bytes32} {seq : UInt64}

/-! ## Joins and leaves -/

theorem joinsOf_put (standing : Standing) (who person : Bytes32) (joins : List JoinRecord) :
    { standing with participants := standing.participants.put who ⟨joins⟩ }.joinsOf person =
      if person = who then joins else standing.joinsOf person := by
  unfold joinsOf
  dsimp only
  rw [HashMap.lookup_put]
  split_ifs <;> rfl

@[simp] theorem joinsOf_applyJoin (standing : Standing) (join : Join) :
    (standing.applyJoin join seq).joinsOf person =
      if person = join.person then
        standing.joinsOf join.person ++ [⟨seq, join.devices, none⟩]
      else standing.joinsOf person :=
  joinsOf_put standing join.person person _

@[simp] theorem personOf_applyJoin (standing : Standing) (join : Join) :
    (standing.applyJoin join seq).personOf device =
      if device ∈ join.devices then some ((standing.personOf device).getD join.person)
      else standing.personOf device :=
  HashMap.lookup_foldl_orInsert _ _ _ _

@[simp] theorem revoked_applyJoin (standing : Standing) (join : Join) :
    (standing.applyJoin join seq).revoked = standing.revoked := rfl

@[simp] theorem deviceAddWindows_applyJoin (standing : Standing) (join : Join) :
    (standing.applyJoin join seq).deviceAddWindows = standing.deviceAddWindows := rfl

/-- The standing after a `leave` of `person` at `seq`. -/
def closeJoins (standing : Standing) (person : Bytes32) (seq : UInt64) : Standing :=
  { standing with
    participants :=
      standing.participants.put person
        ⟨(standing.joinsOf person).map (JoinRecord.closeAt seq)⟩ }

theorem applyLeave_eq_ok {leave : Leave} :
    standing.applyLeave leave seq = .ok after ↔
      (∃ record ∈ standing.joinsOf leave.person, record.seq < seq ∧ record.leftAt = none) ∧
        after = standing.closeJoins leave.person seq := by
  unfold applyLeave
  cases found : standing.participants.lookup leave.person with
  | none => simp [joinsOf, found]
  | some participant =>
    have joins := joinsOf_of_lookup found
    have anyClosed : participant.joins.any (JoinRecord.closes seq) = true ↔
        ∃ record ∈ standing.joinsOf leave.person, record.seq < seq ∧ record.leftAt = none := by
      rw [List.any_eq_true, joins]
      simp only [JoinRecord.closes_iff]
    dsimp only
    rw [← anyClosed, closeJoins, joins]
    split_ifs with closed
    · simp [closed, eq_comm]
    · simp [closed]

@[simp] theorem joinsOf_closeJoins (standing : Standing) (who : Bytes32) :
    (standing.closeJoins who seq).joinsOf person =
      if person = who then (standing.joinsOf who).map (JoinRecord.closeAt seq)
      else standing.joinsOf person :=
  joinsOf_put standing who person _

@[simp] theorem personOf_closeJoins (standing : Standing) (who : Bytes32) :
    (standing.closeJoins who seq).personOf device = standing.personOf device := rfl

@[simp] theorem revoked_closeJoins (standing : Standing) (who : Bytes32) :
    (standing.closeJoins who seq).revoked = standing.revoked := rfl

@[simp] theorem deviceAddWindows_closeJoins (standing : Standing) (who : Bytes32) :
    (standing.closeJoins who seq).deviceAddWindows = standing.deviceAddWindows := rfl

/-! ## Grants and revocations -/

/-- R-34 and R-37: the key is not revoked, and in force for nobody else. -/
structure MayAdd (standing : Standing) (author : Bytes32) (deviceAdd : DeviceAdd) : Prop where
  notRevoked : deviceAdd.device ∉ standing.revoked
  ownPerson : ∀ existing, standing.personOf deviceAdd.device = some existing →
    existing = standing.personOrSelf author

theorem checkDeviceAdd_eq_ok {deviceAdd : DeviceAdd} :
    standing.checkDeviceAdd author deviceAdd = .ok () ↔ standing.MayAdd author deviceAdd := by
  unfold checkDeviceAdd
  constructor
  · intro passed
    split_ifs at passed with revoked
    split at passed
    · next vacant => exact ⟨revoked, by simp [vacant]⟩
    · next existing found =>
      split_ifs at passed with differs
      exact ⟨revoked, by simpa [found] using differs⟩
  · rintro ⟨notRevoked, ownPerson⟩
    rw [if_neg notRevoked]
    split
    · rfl
    · next existing found => rw [if_neg (not_not.mpr (ownPerson existing found))]

@[simp] theorem joinsOf_applyDeviceAdd (standing : Standing) (deviceAdd : DeviceAdd) :
    (standing.applyDeviceAdd author deviceAdd).joinsOf person = standing.joinsOf person := rfl

@[simp] theorem personOf_applyDeviceAdd (standing : Standing) (deviceAdd : DeviceAdd) :
    (standing.applyDeviceAdd author deviceAdd).personOf device =
      if device = deviceAdd.device then
        some ((standing.personOf deviceAdd.device).getD (standing.personOrSelf author))
      else standing.personOf device :=
  HashMap.lookup_orInsert _ _ _ _

@[simp] theorem revoked_applyDeviceAdd (standing : Standing) (deviceAdd : DeviceAdd) :
    (standing.applyDeviceAdd author deviceAdd).revoked = standing.revoked := rfl

@[simp] theorem lookup_deviceAddWindows_applyDeviceAdd (standing : Standing)
    (deviceAdd : DeviceAdd) :
    (standing.applyDeviceAdd author deviceAdd).deviceAddWindows.lookup device =
      if device = deviceAdd.device then some (deviceAdd.notBeforeMs, deviceAdd.notAfterMs)
      else standing.deviceAddWindows.lookup device :=
  HashMap.lookup_put _ _ _ _

/-- R-36: another key, in force for the author's own person. -/
structure MayRevoke (standing : Standing) (author : Bytes32) (deviceRevoke : DeviceRevoke) :
    Prop where
  other : deviceRevoke.device ≠ author
  ownPerson : standing.personOf deviceRevoke.device = some (standing.personOrSelf author)

theorem checkDeviceRevoke_eq_ok {deviceRevoke : DeviceRevoke} :
    standing.checkDeviceRevoke author deviceRevoke = .ok () ↔
      standing.MayRevoke author deviceRevoke := by
  unfold checkDeviceRevoke
  constructor
  · intro passed
    split_ifs at passed with same differs
    exact ⟨same, not_not.mp differs⟩
  · rintro ⟨other, ownPerson⟩
    rw [if_neg other, if_neg (not_not.mpr ownPerson)]

@[simp] theorem joinsOf_applyDeviceRevoke (standing : Standing) (deviceRevoke : DeviceRevoke) :
    (standing.applyDeviceRevoke author deviceRevoke).joinsOf person = standing.joinsOf person :=
  rfl

@[simp] theorem personOf_applyDeviceRevoke (standing : Standing) (deviceRevoke : DeviceRevoke) :
    (standing.applyDeviceRevoke author deviceRevoke).personOf device =
      if device = deviceRevoke.device then none else standing.personOf device :=
  HashMap.lookup_erase _ _ _

@[simp] theorem mem_revoked_applyDeviceRevoke (standing : Standing)
    (deviceRevoke : DeviceRevoke) :
    device ∈ (standing.applyDeviceRevoke author deviceRevoke).revoked ↔
      device = deviceRevoke.device ∨ device ∈ standing.revoked :=
  HashMap.mem_put _ _ _ _

@[simp] theorem deviceAddWindows_applyDeviceRevoke (standing : Standing)
    (deviceRevoke : DeviceRevoke) :
    (standing.applyDeviceRevoke author deviceRevoke).deviceAddWindows =
      standing.deviceAddWindows := rfl

end Standing

/-! ## The rule of each body type -/

namespace Recording

variable {recording : Recording} {event : SignedEvent} {after : Standing} {seq : UInt64}
  {id : EventId}

theorem storedAtLowerSeq_eq_true :
    recording.storedAtLowerSeq id seq = true ↔
      ∃ found, recording.seqOf id = some found ∧ found < seq := by
  unfold storedAtLowerSeq
  cases recording.seqOf id <;> simp

theorem ownsTarget_eq_true {author target : Bytes32} :
    recording.ownsTarget author target = true ↔
      ∃ targetSeq stored, recording.seqOf (.fromBytes target) = some targetSeq ∧
        recording.get targetSeq = some stored ∧
        recording.personOrSelf stored.event.envelope.author = recording.personOrSelf author := by
  unfold ownsTarget
  constructor
  · intro owns
    split at owns
    · cases owns
    · next targetSeq held =>
      split at owns
      · cases owns
      · next stored live => exact ⟨targetSeq, stored, held, live, of_decide_eq_true owns⟩
  · rintro ⟨targetSeq, stored, held, live, same⟩
    rw [held]
    dsimp only
    rw [live]
    exact decide_eq_true same

theorem checkDropRequest_eq_ok {author : Bytes32} {dropRequest : DropRequest} :
    recording.checkDropRequest author dropRequest = .ok () ↔
      ∀ targets, dropRequest.targets = some targets →
        ∀ target ∈ targets, recording.ownsTarget author target = true := by
  unfold checkDropRequest
  cases dropRequest.targets with
  | none => simp
  | some targets =>
    dsimp only
    split_ifs with owns
    · simpa using owns
    · simpa using owns

/-- The per-type rule of an event, and the standing it leaves. -/
def Ruled (recording : Recording) (event : SignedEvent) (after : Standing) : Prop :=
  match event.body with
  | .message message =>
    (∀ replyTo, message.replyTo = some replyTo →
      recording.storedAtLowerSeq (.fromBytes replyTo) event.envelope.seq = true) ∧
        after = recording.toStanding
  | .reaction reaction =>
    recording.storedAtLowerSeq (.fromBytes reaction.target) event.envelope.seq = true ∧
      after = recording.toStanding
  | .attachment _ => after = recording.toStanding
  | .join join =>
    event.envelope.author = recording.host ∧
      after = recording.toStanding.applyJoin join event.envelope.seq
  | .leave leave =>
    event.envelope.author = recording.host ∧
      (∃ record ∈ recording.joinsOf leave.person,
        record.seq < event.envelope.seq ∧ record.leftAt = none) ∧
      after = recording.toStanding.closeJoins leave.person event.envelope.seq
  | .deviceAdd deviceAdd =>
    recording.MayAdd event.envelope.author deviceAdd ∧
      after = recording.toStanding.applyDeviceAdd event.envelope.author deviceAdd
  | .deviceRevoke deviceRevoke =>
    recording.MayRevoke event.envelope.author deviceRevoke ∧
      after = recording.toStanding.applyDeviceRevoke event.envelope.author deviceRevoke
  | .dropRequest dropRequest =>
    (∀ targets, dropRequest.targets = some targets →
      ∀ target ∈ targets, recording.ownsTarget event.envelope.author target = true) ∧
        after = recording.toStanding
  | .unknown _ _ => after = recording.toStanding

private theorem checked_eq_ok {check : Except IngestError Unit} {result : Standing} :
    (do check; pure result : Except IngestError Standing) = .ok after ↔
      check = .ok () ∧ after = result := by
  cases check with
  | error reason => simp [bind, Except.bind]
  | ok =>
    change Except.ok result = Except.ok after ↔ _
    rw [Except.ok.injEq, eq_comm]
    simp

private theorem ok_eq_ok {result : Standing} :
    (.ok result : Except IngestError Standing) = .ok after ↔ after = result := by
  rw [Except.ok.injEq, eq_comm]

theorem applyBody_eq_ok :
    recording.applyBody event = .ok after ↔ recording.Ruled event after := by
  unfold applyBody Ruled
  dsimp only
  cases event.body with
  | message message =>
    dsimp only
    cases message.replyTo with
    | none =>
      rw [ok_eq_ok]
      simp
    | some replyTo =>
      dsimp only
      split_ifs with lower
      · rw [ok_eq_ok]
        simp [lower]
      · simp [lower]
  | reaction reaction =>
    dsimp only
    split_ifs with lower
    · rw [ok_eq_ok]
      simp [lower]
    · simp [lower]
  | attachment => exact ok_eq_ok
  | join join =>
    dsimp only
    split_ifs with stranger
    · simp [stranger]
    · rw [ok_eq_ok, iff_and_self]
      exact fun _ => not_not.mp stranger
  | leave leave =>
    dsimp only
    split_ifs with stranger
    · simp [stranger]
    · rw [Standing.applyLeave_eq_ok]
      simp [not_not.mp stranger]
  | deviceAdd deviceAdd => rw [checked_eq_ok, Standing.checkDeviceAdd_eq_ok]
  | deviceRevoke deviceRevoke => rw [checked_eq_ok, Standing.checkDeviceRevoke_eq_ok]
  | dropRequest dropRequest => rw [checked_eq_ok, checkDropRequest_eq_ok]
  | unknown => exact ok_eq_ok

/-! ## What an admitted event changes in each map -/

section Changes

variable {device person : Bytes32} {record : JoinRecord}

theorem Ruled.mem_revoked (ruled : recording.Ruled event after) :
    device ∈ after.revoked ↔
      (∃ deviceRevoke, event.body = .deviceRevoke deviceRevoke ∧
        deviceRevoke.device = device) ∨ device ∈ recording.revoked := by
  unfold Ruled at ruled
  cases body : event.body with
  | deviceRevoke deviceRevoke =>
    rw [body] at ruled
    rw [ruled.2, Standing.mem_revoked_applyDeviceRevoke]
    simp [eq_comm]
  | join join =>
    rw [body] at ruled
    simp [ruled.2]
  | leave leave =>
    rw [body] at ruled
    simp [ruled.2.2]
  | attachment attachment =>
    rw [body] at ruled
    simp [ruled]
  | unknown typeValue raw =>
    rw [body] at ruled
    simp [ruled]
  | _ =>
    rw [body] at ruled
    simp [ruled.2]

/-- Only a join brings a person in, and nothing takes one out. -/
theorem Ruled.mem_participants (ruled : recording.Ruled event after) (person : Bytes32) :
    person ∈ after.participants ↔
      person ∈ recording.participants ∨
        ∃ join, event.body = .join join ∧ join.person = person := by
  unfold Ruled at ruled
  cases body : event.body with
  | join join =>
    rw [body] at ruled
    rw [ruled.2]
    simp [Standing.applyJoin, eq_comm, or_comm]
  | leave leave =>
    rw [body] at ruled
    obtain ⟨_, ⟨record, member, _⟩, equal⟩ := ruled
    have joined : leave.person ∈ recording.participants := by
      by_contra stranger
      have none : recording.participants.lookup leave.person = none :=
        AList.lookup_eq_none.mpr stranger
      simp [Standing.joinsOf, none] at member
    have stays : person = leave.person → person ∈ recording.participants := by
      rintro rfl
      exact joined
    rw [equal]
    simpa [Standing.closeJoins] using stays
  | attachment attachment =>
    rw [body] at ruled
    simp [ruled]
  | unknown typeValue raw =>
    rw [body] at ruled
    simp [ruled]
  | _ =>
    rw [body] at ruled
    simp [ruled.2, Standing.applyDeviceAdd, Standing.applyDeviceRevoke]

/-- The window of a key is that of the grant just admitted, if it names the key. -/
theorem Ruled.lookup_deviceAddWindows (ruled : recording.Ruled event after) (device : Bytes32) :
    (∃ deviceAdd, event.body = .deviceAdd deviceAdd ∧ deviceAdd.device = device ∧
        after.deviceAddWindows.lookup device =
          some (deviceAdd.notBeforeMs, deviceAdd.notAfterMs)) ∨
      (∀ deviceAdd, event.body = .deviceAdd deviceAdd → deviceAdd.device ≠ device) ∧
        after.deviceAddWindows.lookup device = recording.deviceAddWindows.lookup device := by
  unfold Ruled at ruled
  cases body : event.body with
  | deviceAdd deviceAdd =>
    rw [body] at ruled
    by_cases names : deviceAdd.device = device
    · refine Or.inl ⟨deviceAdd, rfl, names, ?_⟩
      rw [ruled.2, Standing.lookup_deviceAddWindows_applyDeviceAdd, if_pos names.symm]
    · refine Or.inr ⟨?_, ?_⟩
      · rintro other equal
        cases equal
        exact names
      · rw [ruled.2, Standing.lookup_deviceAddWindows_applyDeviceAdd, if_neg (Ne.symm names)]
  | leave leave =>
    rw [body] at ruled
    exact Or.inr ⟨by simp, by rw [ruled.2.2]; rfl⟩
  | attachment attachment =>
    rw [body] at ruled
    exact Or.inr ⟨by simp, by rw [ruled]⟩
  | unknown typeValue raw =>
    rw [body] at ruled
    exact Or.inr ⟨by simp, by rw [ruled]⟩
  | _ =>
    rw [body] at ruled
    exact Or.inr ⟨by simp, by simp [ruled.2]⟩

/-- A record after the event was there before, or is the event's own, or has just
been closed by it; and a leave leaves no record of its person open. -/
theorem Ruled.mem_joinsOf (ruled : recording.Ruled event after)
    (member : record ∈ after.joinsOf person) :
    (∃ join, event.body = .join join ∧ join.person = person ∧
        record = ⟨event.envelope.seq, join.devices, none⟩) ∨
      ∃ old ∈ recording.joinsOf person,
        (record = old ∨ record = { old with leftAt := some event.envelope.seq }) ∧
        ∀ leave, event.body = .leave leave → leave.person = person →
          old.seq < event.envelope.seq → record.leftAt ≠ none := by
  unfold Ruled at ruled
  cases body : event.body with
  | join join =>
    rw [body] at ruled
    rw [ruled.2, Standing.joinsOf_applyJoin] at member
    split_ifs at member with same
    · subst same
      rcases List.mem_append.mp member with old | new
      · exact Or.inr ⟨record, old, Or.inl rfl, by simp⟩
      · exact Or.inl ⟨join, rfl, rfl, List.mem_singleton.mp new⟩
    · exact Or.inr ⟨record, member, Or.inl rfl, by simp⟩
  | leave leave =>
    rw [body] at ruled
    rw [ruled.2.2, Standing.joinsOf_closeJoins] at member
    split_ifs at member with same
    · obtain ⟨old, oldMember, equal⟩ := List.mem_map.mp member
      refine Or.inr ⟨old, same ▸ oldMember, ?_, ?_⟩
      · unfold JoinRecord.closeAt at equal
        split_ifs at equal
        · exact Or.inr equal.symm
        · exact Or.inl equal.symm
      · rintro _ _ _ below isOpen
        unfold JoinRecord.closeAt at equal
        split_ifs at equal with closes
        · rw [← equal] at isOpen
          cases isOpen
        · rw [← equal] at isOpen
          exact closes (JoinRecord.closes_iff.mpr ⟨below, isOpen⟩)
    · refine Or.inr ⟨record, member, Or.inl rfl, ?_⟩
      intro other equal samePerson
      cases equal
      exact absurd samePerson.symm same
  | attachment attachment =>
    rw [body] at ruled
    exact Or.inr ⟨record, ruled ▸ member, Or.inl rfl, by simp⟩
  | unknown typeValue raw =>
    rw [body] at ruled
    exact Or.inr ⟨record, ruled ▸ member, Or.inl rfl, by simp⟩
  | _ =>
    rw [body] at ruled
    rw [ruled.2] at member
    exact Or.inr ⟨record, member, Or.inl rfl, by simp⟩

/-- Every record stays, open or closed. -/
theorem Ruled.exists_joinsOf (ruled : recording.Ruled event after)
    (member : record ∈ recording.joinsOf person) :
    ∃ kept ∈ after.joinsOf person, kept.seq = record.seq ∧ kept.devices = record.devices := by
  unfold Ruled at ruled
  cases body : event.body with
  | join join =>
    rw [body] at ruled
    rw [ruled.2, Standing.joinsOf_applyJoin]
    split_ifs with same
    · exact ⟨record, List.mem_append_left _ (same ▸ member), rfl, rfl⟩
    · exact ⟨record, member, rfl, rfl⟩
  | leave leave =>
    rw [body] at ruled
    rw [ruled.2.2, Standing.joinsOf_closeJoins]
    split_ifs with same
    · exact ⟨_, List.mem_map_of_mem (same ▸ member), JoinRecord.closeAt_seq,
        JoinRecord.closeAt_devices⟩
    · exact ⟨record, member, rfl, rfl⟩
  | attachment attachment =>
    rw [body] at ruled
    exact ⟨record, ruled ▸ member, rfl, rfl⟩
  | unknown typeValue raw =>
    rw [body] at ruled
    exact ⟨record, ruled ▸ member, rfl, rfl⟩
  | _ =>
    rw [body] at ruled
    rw [ruled.2]
    exact ⟨record, member, rfl, rfl⟩

theorem Ruled.joinsOf_join (ruled : recording.Ruled event after) {join : Join}
    (body : event.body = .join join) :
    ⟨event.envelope.seq, join.devices, none⟩ ∈ after.joinsOf join.person := by
  unfold Ruled at ruled
  rw [body] at ruled
  rw [ruled.2, Standing.joinsOf_applyJoin, if_pos rfl]
  simp

/-- A key comes into force by a join that lists it or a grant that names it, and
never moves from one person to another. -/
theorem Ruled.personOf_eq_some (ruled : recording.Ruled event after)
    (inForce : after.personOf device = some person) :
    recording.personOf device = some person ∨
      recording.personOf device = none ∧
        ((∃ join, event.body = .join join ∧ join.person = person ∧ device ∈ join.devices) ∨
          ∃ deviceAdd, event.body = .deviceAdd deviceAdd ∧ deviceAdd.device = device ∧
            person = recording.personOrSelf event.envelope.author) := by
  unfold Ruled at ruled
  cases body : event.body with
  | join join =>
    rw [body] at ruled
    rw [ruled.2, Standing.personOf_applyJoin] at inForce
    split_ifs at inForce with lists
    · cases found : recording.personOf device with
      | none =>
        rw [found] at inForce
        exact Or.inr ⟨rfl, Or.inl ⟨join, rfl, Option.some.inj inForce, lists⟩⟩
      | some holder =>
        rw [found] at inForce
        exact Or.inl inForce
    · exact Or.inl inForce
  | leave leave =>
    rw [body] at ruled
    rw [ruled.2.2] at inForce
    exact Or.inl inForce
  | deviceAdd deviceAdd =>
    rw [body] at ruled
    rw [ruled.2, Standing.personOf_applyDeviceAdd] at inForce
    split_ifs at inForce with names
    · subst names
      cases found : recording.personOf deviceAdd.device with
      | none =>
        rw [found] at inForce
        exact Or.inr ⟨rfl, Or.inr ⟨deviceAdd, rfl, rfl, (Option.some.inj inForce).symm⟩⟩
      | some holder =>
        rw [found] at inForce
        exact Or.inl inForce
    · exact Or.inl inForce
  | deviceRevoke deviceRevoke =>
    rw [body] at ruled
    rw [ruled.2, Standing.personOf_applyDeviceRevoke] at inForce
    split_ifs at inForce
    exact Or.inl inForce
  | attachment attachment =>
    rw [body] at ruled
    exact Or.inl (ruled ▸ inForce)
  | unknown typeValue raw =>
    rw [body] at ruled
    exact Or.inl (ruled ▸ inForce)
  | _ =>
    rw [body] at ruled
    rw [ruled.2] at inForce
    exact Or.inl inForce

/-- A key stays in force for its person until it is revoked. -/
theorem Ruled.personOf_kept (ruled : recording.Ruled event after)
    (inForce : recording.personOf device = some person) (held : device ∉ after.revoked) :
    after.personOf device = some person := by
  have notRevoked : ∀ deviceRevoke, event.body = .deviceRevoke deviceRevoke →
      deviceRevoke.device ≠ device := by
    intro deviceRevoke body same
    exact held (ruled.mem_revoked.mpr (Or.inl ⟨deviceRevoke, body, same⟩))
  unfold Ruled at ruled
  cases body : event.body with
  | join join =>
    rw [body] at ruled
    rw [ruled.2, Standing.personOf_applyJoin, inForce]
    split_ifs <;> rfl
  | leave leave =>
    rw [body] at ruled
    rw [ruled.2.2]
    exact inForce
  | deviceAdd deviceAdd =>
    rw [body] at ruled
    rw [ruled.2, Standing.personOf_applyDeviceAdd]
    split_ifs with names
    · rw [← names, inForce]
      rfl
    · exact inForce
  | deviceRevoke deviceRevoke =>
    rw [body] at ruled
    rw [ruled.2, Standing.personOf_applyDeviceRevoke,
      if_neg (Ne.symm (notRevoked deviceRevoke body))]
    exact inForce
  | attachment attachment =>
    rw [body] at ruled
    rw [ruled]
    exact inForce
  | unknown typeValue raw =>
    rw [body] at ruled
    rw [ruled]
    exact inForce
  | _ =>
    rw [body] at ruled
    rw [ruled.2]
    exact inForce

/-- A grant leaves the key in force for the person of its author. -/
theorem Ruled.personOf_deviceAdd (ruled : recording.Ruled event after) {deviceAdd : DeviceAdd}
    (body : event.body = .deviceAdd deviceAdd) :
    after.personOf deviceAdd.device = some (recording.personOrSelf event.envelope.author) := by
  unfold Ruled at ruled
  rw [body] at ruled
  rw [ruled.2, Standing.personOf_applyDeviceAdd, if_pos rfl]
  cases found : recording.personOf deviceAdd.device with
  | none => rfl
  | some existing => rw [ruled.1.ownPerson existing found]; rfl

end Changes

end Recording

end Mosschat.Core
