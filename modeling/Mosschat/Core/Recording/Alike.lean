import Mosschat.Core.Recording.Run

/-!
Owns the equality of recordings as admission sees it: the same slots, and
standings with the same joins as sets and the same answers from the three maps.
Recordings that are alike give every later event the same verdict, whatever
calls come between.
-/

namespace Mosschat.Core

open Mosschat.Library Mosschat.Library.Cbor

namespace Standing

/-- The same joins of each person, as sets, and the same answers from each map. -/
structure Alike (left right : Standing) : Prop where
  joins : ∀ person record, record ∈ left.joinsOf person ↔ record ∈ right.joinsOf person
  persons : ∀ device, left.personOf device = right.personOf device
  windows : ∀ device, left.deviceAddWindows.lookup device = right.deviceAddWindows.lookup device
  revoked : ∀ device, device ∈ left.revoked ↔ device ∈ right.revoked

namespace Alike

variable {left right : Standing} {author : Bytes32} {seq : UInt64}

theorem refl (standing : Standing) : Alike standing standing :=
  ⟨fun _ _ => Iff.rfl, fun _ => rfl, fun _ => rfl, fun _ => Iff.rfl⟩

theorem symm (alike : Alike left right) : Alike right left :=
  ⟨fun person record => (alike.joins person record).symm, fun device => (alike.persons device).symm,
    fun device => (alike.windows device).symm, fun device => (alike.revoked device).symm⟩

theorem personOrSelf (alike : Alike left right) (device : Bytes32) :
    left.personOrSelf device = right.personOrSelf device := by
  rw [Standing.personOrSelf, Standing.personOrSelf, alike.persons]

theorem authorStatus (alike : Alike left right) (author : Bytes32) (atSeq : UInt64) :
    left.authorStatus author atSeq = right.authorStatus author atSeq := by
  have allJoins : ∀ record, record ∈ left.allJoins ↔ record ∈ right.allJoins := by
    intro record
    simp only [mem_allJoins, alike.joins]
  have named : left.joinDeviceStatus author atSeq = right.joinDeviceStatus author atSeq :=
    JoinRecord.scan_congr allJoins
  unfold Standing.authorStatus
  rw [named, alike.persons]
  have byPerson : ∀ person,
      JoinRecord.scan (fun _ => true) atSeq (left.joinsOf person) false =
        JoinRecord.scan (fun _ => true) atSeq (right.joinsOf person) false :=
    fun person => JoinRecord.scan_congr (alike.joins person)
  simp only [byPerson]

theorem authored (alike : Alike left right) {event : SignedEvent} {nowMs : UInt64}
    (authored : left.Authored event nowMs) : right.Authored event nowMs where
  notRevoked := fun revoked => authored.notRevoked ((alike.revoked _).mpr revoked)
  active := by
    intro byDevice
    rw [← alike.authorStatus]
    exact authored.active byDevice
  window := by
    intro byDevice window found
    rw [← alike.windows] at found
    exact authored.window byDevice window found

theorem mayAdd (alike : Alike left right) {deviceAdd : DeviceAdd}
    (may : left.MayAdd author deviceAdd) : right.MayAdd author deviceAdd where
  notRevoked := fun revoked => may.notRevoked ((alike.revoked _).mpr revoked)
  ownPerson := by
    intro existing found
    rw [← alike.personOrSelf]
    exact may.ownPerson existing ((alike.persons _).trans found)

theorem mayRevoke (alike : Alike left right) {deviceRevoke : DeviceRevoke}
    (may : left.MayRevoke author deviceRevoke) : right.MayRevoke author deviceRevoke where
  other := may.other
  ownPerson := by
    rw [← alike.persons, ← alike.personOrSelf]
    exact may.ownPerson

theorem applyJoin (alike : Alike left right) (join : Join) :
    Alike (left.applyJoin join seq) (right.applyJoin join seq) where
  joins := by
    intro person record
    rw [joinsOf_applyJoin, joinsOf_applyJoin]
    split_ifs
    · simp only [List.mem_append, alike.joins]
    · exact alike.joins person record
  persons := by
    intro device
    rw [personOf_applyJoin, personOf_applyJoin, alike.persons]
  windows := alike.windows
  revoked := alike.revoked

theorem closeJoins (alike : Alike left right) (who : Bytes32) :
    Alike (left.closeJoins who seq) (right.closeJoins who seq) where
  joins := by
    intro person record
    rw [joinsOf_closeJoins, joinsOf_closeJoins]
    split_ifs
    · simp only [List.mem_map, alike.joins]
    · exact alike.joins person record
  persons := alike.persons
  windows := alike.windows
  revoked := alike.revoked

theorem applyDeviceAdd (alike : Alike left right) (deviceAdd : DeviceAdd) :
    Alike (left.applyDeviceAdd author deviceAdd) (right.applyDeviceAdd author deviceAdd) where
  joins := alike.joins
  persons := by
    intro device
    simp only [personOf_applyDeviceAdd, alike.persons, alike.personOrSelf]
  windows := by
    intro device
    rw [lookup_deviceAddWindows_applyDeviceAdd, lookup_deviceAddWindows_applyDeviceAdd,
      alike.windows]
  revoked := alike.revoked

theorem applyDeviceRevoke (alike : Alike left right) (deviceRevoke : DeviceRevoke) :
    Alike (left.applyDeviceRevoke author deviceRevoke)
      (right.applyDeviceRevoke author deviceRevoke) where
  joins := alike.joins
  persons := by
    intro device
    rw [personOf_applyDeviceRevoke, personOf_applyDeviceRevoke, alike.persons]
  windows := alike.windows
  revoked := by
    intro device
    rw [mem_revoked_applyDeviceRevoke, mem_revoked_applyDeviceRevoke, alike.revoked]

end Alike

end Standing

namespace Recording

/-- The same slots of the same visit, and standings that are alike. -/
structure Alike (left right : Recording) : Prop where
  standing : left.toStanding.Alike right.toStanding
  visit : left.visit = right.visit
  host : left.host = right.host
  slots : left.slots = right.slots
  broken : left.broken = right.broken

namespace Alike

variable {left right after : Recording} {event : SignedEvent} {standing other : Standing}
  {nowMs : UInt64} {crypto : Crypto}

theorem symm (alike : Alike left right) : Alike right left :=
  ⟨alike.standing.symm, alike.visit.symm, alike.host.symm, alike.slots.symm, alike.broken.symm⟩

theorem ids (alike : Alike left right) : left.ids = right.ids := by
  rw [Recording.ids, Recording.ids, alike.slots]

theorem seqOf (alike : Alike left right) (id : EventId) : left.seqOf id = right.seqOf id := by
  rw [Recording.seqOf, Recording.seqOf, alike.slots]

theorem get (alike : Alike left right) (seq : UInt64) : left.get seq = right.get seq := by
  rw [Recording.get, Recording.get, alike.slots]

theorem expectedPrev (alike : Alike left right) (seq : UInt64) :
    left.expectedPrev seq = right.expectedPrev seq := by
  rw [Recording.expectedPrev, Recording.expectedPrev, alike.slots]

theorem linked (alike : Alike left right) (linked : left.Linked event) : right.Linked event where
  inVisit := ⟨linked.inVisit.nonzero, linked.inVisit.same.trans alike.visit⟩
  sameId := alike.ids ▸ linked.sameId
  prev := (alike.expectedPrev _).symm.trans linked.prev

theorem storedAtLowerSeq (alike : Alike left right) (id : EventId) (seq : UInt64) :
    left.storedAtLowerSeq id seq = right.storedAtLowerSeq id seq := by
  unfold Recording.storedAtLowerSeq
  rw [alike.seqOf]

theorem ownsTarget (alike : Alike left right) (author target : Bytes32) :
    left.ownsTarget author target = right.ownsTarget author target := by
  unfold Recording.ownsTarget
  simp only [alike.seqOf, alike.get, alike.standing.personOrSelf]

/-- The type rule of an event passes in both, and leaves standings that are alike. -/
theorem ruled (alike : Alike left right) (ruled : left.Ruled event standing) :
    ∃ other, right.Ruled event other ∧ standing.Alike other := by
  unfold Ruled at ruled ⊢
  simp only [← alike.storedAtLowerSeq, ← alike.ownsTarget, ← alike.host]
  cases body : event.body with
  | message message =>
    rw [body] at ruled
    obtain ⟨lower, rfl⟩ := ruled
    exact ⟨right.toStanding, ⟨lower, rfl⟩, alike.standing⟩
  | reaction reaction =>
    rw [body] at ruled
    obtain ⟨lower, rfl⟩ := ruled
    exact ⟨right.toStanding, ⟨lower, rfl⟩, alike.standing⟩
  | attachment attachment =>
    rw [body] at ruled
    subst ruled
    exact ⟨right.toStanding, rfl, alike.standing⟩
  | join join =>
    rw [body] at ruled
    obtain ⟨byHost, rfl⟩ := ruled
    exact ⟨_, ⟨byHost, rfl⟩, alike.standing.applyJoin join⟩
  | leave leave =>
    rw [body] at ruled
    obtain ⟨byHost, ⟨record, member, isOpen⟩, rfl⟩ := ruled
    exact ⟨_, ⟨byHost, ⟨record, (alike.standing.joins _ _).mp member, isOpen⟩, rfl⟩,
      alike.standing.closeJoins leave.person⟩
  | deviceAdd deviceAdd =>
    rw [body] at ruled
    obtain ⟨may, rfl⟩ := ruled
    exact ⟨_, ⟨alike.standing.mayAdd may, rfl⟩, alike.standing.applyDeviceAdd deviceAdd⟩
  | deviceRevoke deviceRevoke =>
    rw [body] at ruled
    obtain ⟨may, rfl⟩ := ruled
    exact ⟨_, ⟨alike.standing.mayRevoke may, rfl⟩,
      alike.standing.applyDeviceRevoke deviceRevoke⟩
  | dropRequest dropRequest =>
    rw [body] at ruled
    obtain ⟨owned, rfl⟩ := ruled
    exact ⟨right.toStanding, ⟨owned, rfl⟩, alike.standing⟩
  | unknown typeValue raw =>
    rw [body] at ruled
    subst ruled
    exact ⟨right.toStanding, rfl, alike.standing⟩

theorem admits (alike : Alike left right) (admits : left.Admits event nowMs standing) :
    ∃ other, right.Admits event nowMs other ∧ standing.Alike other := by
  obtain ⟨other, ruled, after⟩ := alike.ruled (applyBody_eq_ok.mp admits.ruled)
  exact ⟨other, ⟨alike.linked admits.linked, alike.standing.authored admits.authored,
    applyBody_eq_ok.mpr ruled⟩, after⟩

theorem tripsR13 (alike : Alike left right) (trips : left.TripsR13 event) :
    right.TripsR13 event := by
  obtain ⟨⟨nonzero, same⟩, clash⟩ := trips
  refine ⟨⟨nonzero, same.trans alike.visit⟩, ?_⟩
  rwa [← alike.ids, ← alike.expectedPrev]

theorem store (alike : Alike left right) (after : standing.Alike other) :
    Alike (left.store event standing) (right.store event other) where
  standing := after
  visit := alike.visit
  host := alike.host
  slots := by
    change left.slots.put _ _ = right.slots.put _ _
    rw [alike.slots]
  broken := alike.broken

/-- One offered event ends alike in recordings that are alike. -/
theorem ingest (alike : Alike left right) (bytes : Bytes) (nowMs : UInt64) :
    (∀ id, (left.ingest crypto bytes nowMs).2 = .ok id ↔
        (right.ingest crypto bytes nowMs).2 = .ok id) ∧
      Alike (left.ingest crypto bytes nowMs).1 (right.ingest crypto bytes nowMs).1 := by
  rcases left.ingest_cases crypto bytes nowMs with
    ⟨event, after, sound, parsed, admits, equal⟩ | ⟨event, sound, parsed, trips, equal⟩ |
      ⟨reason, notBroken, equal⟩
  · obtain ⟨other, alsoAdmits, afterAlike⟩ := alike.admits admits
    have follows := ingest_of_admits (alike.broken ▸ sound) parsed alsoAdmits
    rw [equal, follows]
    exact ⟨fun _ => Iff.rfl, alike.store afterAlike⟩
  · have follows : right.ingest crypto bytes nowMs = (right.markBroken, .error .broken) :=
      ingest_of_tripsR13 (alike.broken ▸ sound) parsed (alike.tripsR13 trips)
    rw [equal, follows]
    exact ⟨fun _ => Iff.rfl, alike.standing, alike.visit, alike.host, alike.slots, rfl⟩
  · -- A refusal on the left: anything but a refusal on the right would show on the left.
    rcases right.ingest_cases crypto bytes nowMs with
      ⟨event, after, sound, parsed, admits, _⟩ | ⟨event, sound, parsed, trips, _⟩ |
        ⟨other, _, follows⟩
    · obtain ⟨standing, alsoAdmits, _⟩ := alike.symm.admits admits
      rw [ingest_of_admits (alike.broken ▸ sound) parsed alsoAdmits] at equal
      have verdict := congrArg Prod.snd equal
      cases verdict
    · rw [ingest_of_tripsR13 (alike.broken ▸ sound) parsed (alike.symm.tripsR13 trips)] at equal
      have verdict := congrArg Prod.snd equal
      exact absurd (Except.error.inj verdict).symm notBroken
    · rw [equal, follows]
      exact ⟨fun _ => by simp, alike⟩

theorem dropSlot (alike : Alike left right) (seq : UInt64) (count : Nat) :
    Alike (Recording.dropSlot (left, count) seq).1 (Recording.dropSlot (right, count) seq).1 ∧
      (Recording.dropSlot (left, count) seq).2 = (Recording.dropSlot (right, count) seq).2 := by
  unfold Recording.dropSlot
  dsimp only
  rw [alike.get]
  cases right.get seq with
  | none => exact ⟨alike, rfl⟩
  | some stored =>
    refine ⟨⟨alike.standing, alike.visit, alike.host, ?_, alike.broken⟩, rfl⟩
    change left.slots.put _ _ = right.slots.put _ _
    rw [alike.slots]

theorem foldl_dropSlot (alike : Alike left right) (targets : List UInt64) (count : Nat) :
    Alike (targets.foldl Recording.dropSlot (left, count)).1
      (targets.foldl Recording.dropSlot (right, count)).1 := by
  induction targets generalizing left right count with
  | nil => exact alike
  | cons target rest ih =>
      rw [List.foldl_cons, List.foldl_cons]
      obtain ⟨dropped, sameCount⟩ := alike.dropSlot target count
      have step := ih dropped (Recording.dropSlot (left, count) target).2
      rw [Prod.mk.eta] at step
      rwa [sameCount, Prod.mk.eta] at step

theorem honourDropRequest (alike : Alike left right) (request : EventId) :
    Alike (left.call crypto (.honourDropRequest request))
      (right.call crypto (.honourDropRequest request)) := by
  have found : left.dropRequestAt request = right.dropRequestAt request := by
    unfold dropRequestAt
    simp only [alike.seqOf, alike.get]
  have targets : ∀ requestSeq dropRequest,
      left.dropTargets requestSeq dropRequest = right.dropTargets requestSeq dropRequest := by
    intro requestSeq dropRequest
    unfold dropTargets
    simp only [alike.seqOf, alike.get, alike.slots]
  unfold call Recording.honourDropRequest
  dsimp only
  rw [found]
  cases right.dropRequestAt request with
  | none => exact alike
  | some place =>
    dsimp only
    rw [targets]
    exact alike.foldl_dropSlot _ 0

theorem call (alike : Alike left right) (input : Call) :
    Alike (left.call crypto input) (right.call crypto input) := by
  cases input with
  | ingest bytes nowMs => exact (alike.ingest bytes nowMs).2
  | honourDropRequest request => exact alike.honourDropRequest request

/-- Recordings that are alike stay alike over every run. -/
theorem run (alike : Alike left right) (calls : List Call) :
    Alike (Machine.run (Recording.call crypto) left calls)
      (Machine.run (Recording.call crypto) right calls) := by
  induction calls generalizing left right with
  | nil => exact alike
  | cons input rest ih => exact ih (alike.call input)

end Alike

/-- Every later event gets the same verdict, whatever calls come before it. -/
def SameFuture (crypto : Crypto) (left right : Recording) : Prop :=
  ∀ (calls : List Call) (bytes : Bytes) (nowMs : UInt64) (id : EventId),
    ((Machine.run (call crypto) left calls).ingest crypto bytes nowMs).2 = .ok id ↔
      ((Machine.run (call crypto) right calls).ingest crypto bytes nowMs).2 = .ok id

theorem Alike.sameFuture {left right : Recording} (alike : Alike left right) (crypto : Crypto) :
    SameFuture crypto left right := by
  intro calls bytes nowMs id
  exact ((alike.run calls).ingest bytes nowMs).1 id

end Recording

end Mosschat.Core
