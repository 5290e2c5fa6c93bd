import Mosschat.Core.Recording.Run

/-!
Owns what keeps the devices of one person out of the reach of another. A device
is in force for the person that first claimed it, by a grant or by a join, and
no later join moves it. A join that lists a device claimed by somebody else
therefore leaves it under the other person's hand; where no join does, the open
joins and the map of devices in force agree.
-/

namespace Mosschat.Core

open Mosschat.Library Mosschat.Library.Cbor

namespace Standing

variable {standing after : Standing} {device person other author : Bytes32} {seq : UInt64}

/-- An open join of the person lists the device. -/
def ListedFor (standing : Standing) (device person : Bytes32) : Prop :=
  ∃ record ∈ standing.joinsOf person, record.leftAt = none ∧ device ∈ record.devices

/-- The open joins list the device for this person and for nobody else. -/
structure ListedOnlyFor (standing : Standing) (device person : Bytes32) : Prop where
  listed : standing.ListedFor device person
  only : ∀ other, standing.ListedFor device other → other = person

/-- No device of the join is in force for another person or listed in an open join
of another person. -/
def TakesOwn (standing : Standing) (join : Join) : Prop :=
  ∀ device ∈ join.devices,
    (∀ person, standing.personOf device = some person → person = join.person) ∧
      ∀ person, standing.ListedFor device person → person = join.person

instance (standing : Standing) (device person : Bytes32) :
    Decidable (standing.ListedFor device person) :=
  inferInstanceAs (Decidable (∃ record ∈ standing.joinsOf person, _ ∧ _))

/-- Only the keys of the map of participants have joins. -/
theorem ListedFor.mem_keys (listed : standing.ListedFor device person) :
    person ∈ standing.participants.keys := by
  obtain ⟨record, member, _⟩ := listed
  rw [← AList.mem_keys, ← AList.lookup_isSome]
  cases found : standing.participants.lookup person with
  | none => simp [joinsOf, found] at member
  | some participant => rfl

instance (standing : Standing) (device person : Bytes32) :
    Decidable (standing.ListedOnlyFor device person) :=
  letI : Decidable (∀ other ∈ standing.participants.keys,
      standing.ListedFor device other → other = person) := List.decidableBAll _ _
  decidable_of_iff
    (standing.ListedFor device person ∧
      ∀ other ∈ standing.participants.keys, standing.ListedFor device other → other = person)
    ⟨fun both => ⟨both.1, fun other listed => both.2 other listed.mem_keys listed⟩,
      fun only => ⟨only.listed, fun other _ => only.only other⟩⟩

instance (standing : Standing) (join : Join) : Decidable (standing.TakesOwn join) :=
  letI (device : Bytes32) : Decidable (∀ person ∈ standing.personOf device,
      person = join.person) := Option.decidableForallMem _
  letI (device : Bytes32) : Decidable (∀ person ∈ standing.participants.keys,
      standing.ListedFor device person → person = join.person) := List.decidableBAll _ _
  letI : Decidable (∀ device ∈ join.devices,
      (∀ person ∈ standing.personOf device, person = join.person) ∧
        ∀ person ∈ standing.participants.keys,
          standing.ListedFor device person → person = join.person) := List.decidableBAll _ _
  decidable_of_iff
    (∀ device ∈ join.devices, (∀ person ∈ standing.personOf device, person = join.person) ∧
      ∀ person ∈ standing.participants.keys,
        standing.ListedFor device person → person = join.person)
    (forall₂_congr fun _ _ => and_congr Iff.rfl
      ⟨fun among person listed => among person listed.mem_keys listed,
        fun all person _ => all person⟩)

theorem listedFor_applyJoin {join : Join} :
    (standing.applyJoin join seq).ListedFor device person ↔
      standing.ListedFor device person ∨ (person = join.person ∧ device ∈ join.devices) := by
  unfold ListedFor
  rw [joinsOf_applyJoin]
  split_ifs with same
  · subst same
    simp only [List.mem_append, List.mem_singleton, or_and_right, exists_or, exists_eq_left,
      true_and]
  · simp [same]

theorem ListedFor.of_closeJoins
    (listed : (standing.closeJoins other seq).ListedFor device person) :
    standing.ListedFor device person := by
  obtain ⟨record, member, isOpen, lists⟩ := listed
  rw [joinsOf_closeJoins] at member
  split_ifs at member with same
  · subst same
    obtain ⟨old, oldMember, rfl⟩ := List.mem_map.mp member
    -- A closed record is not open, so this one was not closed.
    unfold JoinRecord.closeAt at isOpen lists
    split_ifs at isOpen lists
    exact ⟨old, oldMember, isOpen, lists⟩
  · exact ⟨record, member, isOpen, lists⟩

/-! ## The invariant -/

/-- A device that an open join lists is in force for the join's person, or revoked
and in force for nobody; and every join lists its person. -/
structure Apart (standing : Standing) : Prop where
  claimed : ∀ device person, standing.ListedFor device person →
    standing.personOf device = some person ∨
      device ∈ standing.revoked ∧ standing.personOf device = none
  identity : ∀ person, ∀ record ∈ standing.joinsOf person, person ∈ record.devices

namespace Apart

theorem applyJoin (apart : standing.Apart) {join : Join} (own : standing.TakesOwn join)
    (identity : join.person ∈ join.devices) : (standing.applyJoin join seq).Apart where
  claimed := by
    intro device person listed
    rw [listedFor_applyJoin] at listed
    rw [personOf_applyJoin, revoked_applyJoin]
    split_ifs with joined
    · left
      obtain ⟨inForce, listedOpen⟩ := own device joined
      have samePerson : person = join.person := by
        rcases listed with old | ⟨same, _⟩
        · exact listedOpen person old
        · exact same
      rw [samePerson]
      cases found : standing.personOf device with
      | none => rfl
      | some holder => rw [inForce holder found]; rfl
    · rcases listed with old | ⟨_, joins⟩
      · exact apart.claimed device person old
      · exact absurd joins joined
  identity := by
    intro person record member
    rw [joinsOf_applyJoin] at member
    split_ifs at member with same
    · rcases List.mem_append.mp member with old | new
      · exact apart.identity person record (same ▸ old)
      · rw [List.mem_singleton.mp new, same]
        exact identity
    · exact apart.identity person record member

theorem closeJoins (apart : standing.Apart) (who : Bytes32) :
    (standing.closeJoins who seq).Apart where
  claimed := fun device person listed => apart.claimed device person listed.of_closeJoins
  identity := by
    intro person record member
    rw [joinsOf_closeJoins] at member
    split_ifs at member with same
    · obtain ⟨old, oldMember, rfl⟩ := List.mem_map.mp member
      rw [JoinRecord.closeAt_devices]
      exact apart.identity person old (same ▸ oldMember)
    · exact apart.identity person record member

theorem applyDeviceAdd (apart : standing.Apart) {deviceAdd : DeviceAdd}
    (may : standing.MayAdd author deviceAdd) :
    (standing.applyDeviceAdd author deviceAdd).Apart where
  claimed := by
    intro device person listed
    rw [personOf_applyDeviceAdd, revoked_applyDeviceAdd]
    have before := apart.claimed device person listed
    split_ifs with added
    · subst added
      rcases before with inForce | ⟨revoked, _⟩
      · rw [inForce]
        exact Or.inl rfl
      · exact absurd revoked may.notRevoked
    · exact before
  identity := apart.identity

theorem applyDeviceRevoke (apart : standing.Apart) (deviceRevoke : DeviceRevoke) :
    (standing.applyDeviceRevoke author deviceRevoke).Apart where
  claimed := by
    intro device person listed
    rw [personOf_applyDeviceRevoke, mem_revoked_applyDeviceRevoke]
    split_ifs with revoked
    · exact Or.inr ⟨Or.inl revoked, rfl⟩
    · rcases apart.claimed device person listed with inForce | ⟨old, vacant⟩
      · exact Or.inl inForce
      · exact Or.inr ⟨Or.inr old, vacant⟩
  identity := apart.identity

end Apart

/-! ## What an event of one device leaves of another -/

/-- The keys, the window and the joins that decide how the device stands. -/
structure SameFor (before after : Standing) (device : Bytes32) : Prop where
  person : after.personOf device = before.personOf device
  window : after.deviceAddWindows.lookup device = before.deviceAddWindows.lookup device
  revoked : device ∈ after.revoked ↔ device ∈ before.revoked
  joins : ∀ person, after.joinsOf person = before.joinsOf person

theorem SameFor.refl (standing : Standing) (device : Bytes32) :
    SameFor standing standing device :=
  ⟨rfl, rfl, Iff.rfl, fun _ => rfl⟩

theorem sameFor_applyDeviceAdd {deviceAdd : DeviceAdd} (differs : deviceAdd.device ≠ device) :
    SameFor standing (standing.applyDeviceAdd author deviceAdd) device where
  person := by rw [personOf_applyDeviceAdd, if_neg (Ne.symm differs)]
  window := by rw [lookup_deviceAddWindows_applyDeviceAdd, if_neg (Ne.symm differs)]
  revoked := Iff.rfl
  joins := fun _ => rfl

theorem sameFor_applyDeviceRevoke {deviceRevoke : DeviceRevoke}
    (differs : deviceRevoke.device ≠ device) :
    SameFor standing (standing.applyDeviceRevoke author deviceRevoke) device where
  person := by rw [personOf_applyDeviceRevoke, if_neg (Ne.symm differs)]
  window := rfl
  revoked := by simp [Ne.symm differs]
  joins := fun _ => rfl

end Standing

namespace Recording

variable {crypto : Crypto} {recording start : Recording} {event : SignedEvent} {bytes : Bytes}
  {author device person other visit host : Bytes32} {nowMs : UInt64} {after : Standing}

/-- The event revokes the device, grants it, or asks for an event of its to be
dropped: one target, if it is live at all, is the device's. -/
def ActsOn (recording : Recording) (event : SignedEvent) (device : Bytes32) : Prop :=
  match event.body with
  | .deviceRevoke deviceRevoke => deviceRevoke.device = device
  | .deviceAdd deviceAdd => deviceAdd.device = device
  | .dropRequest dropRequest =>
    ∃ targets, dropRequest.targets = some targets ∧ ∃ target ∈ targets,
      ∀ seq stored, recording.seqOf (.fromBytes target) = some seq →
        recording.get seq = some stored → stored.event.envelope.author = device
  | _ => False

/-- No event of `author` acts on `device`, and only the host's joins and leaves
among its events change how `device` stands. -/
structure Isolated (crypto : Crypto) (recording : Recording) (author device : Bytes32) :
    Prop where
  rejected : ∀ bytes nowMs event, SignedEvent.parse crypto bytes = .ok event →
    event.envelope.author = author → recording.ActsOn event device →
      ∃ reason, (recording.ingest crypto bytes nowMs).2 = .error reason
  unchanged : ∀ bytes nowMs event, SignedEvent.parse crypto bytes = .ok event →
    event.envelope.author = author → event.body.isJoinOrLeave = false →
      recording.toStanding.SameFor (recording.ingest crypto bytes nowMs).1.toStanding device

/-- Devices that the open joins list for different persons only, in a recording
whose standing is `Apart`, are in force for different persons. -/
theorem personOrSelf_ne (apart : recording.Apart)
    (mine : recording.ListedOnlyFor author person) (theirs : recording.ListedOnlyFor device other)
    (differ : person ≠ other) (notRevoked : author ∉ recording.revoked) :
    recording.personOrSelf author = person ∧ recording.personOf device ≠ some person ∧
      recording.personOrSelf device ≠ person := by
  have authorFor : recording.personOf author = some person := by
    rcases apart.claimed author person mine.listed with inForce | ⟨revoked, _⟩
    · exact inForce
    · exact absurd revoked notRevoked
  -- The open join that lists `author` lists its person too, so `device` is not that key.
  have notPerson : device ≠ person := by
    rintro rfl
    obtain ⟨record, member, isOpen, _⟩ := mine.listed
    exact differ (theirs.only _ ⟨record, member, isOpen, apart.identity _ record member⟩)
  refine ⟨by rw [Standing.personOrSelf, authorFor]; rfl, ?_⟩
  unfold Standing.personOrSelf
  rcases apart.claimed device other theirs.listed with inForce | ⟨_, vacant⟩
  · rw [inForce]
    exact ⟨fun equal => differ (Option.some.inj equal).symm, Ne.symm differ⟩
  · rw [vacant]
    exact ⟨fun equal => (nomatch equal), notPerson⟩

/-- No rule lets an event of one device act on a device of another person. -/
theorem not_admits_of_actsOn (apart : recording.Apart)
    (mine : recording.ListedOnlyFor author person) (theirs : recording.ListedOnlyFor device other)
    (differ : person ≠ other) (byAuthor : event.envelope.author = author)
    (acts : recording.ActsOn event device) : ¬recording.Admits event nowMs after := by
  rintro ⟨_, authored, ruled⟩
  have notRevoked : author ∉ recording.revoked := byAuthor ▸ authored.notRevoked
  obtain ⟨standsFor, notInForce, notFor⟩ := personOrSelf_ne apart mine theirs differ notRevoked
  have ruled := applyBody_eq_ok.mp ruled
  unfold Ruled at ruled
  unfold ActsOn at acts
  rw [byAuthor] at ruled
  cases body : event.body with
  | deviceRevoke deviceRevoke =>
    rw [body] at ruled acts
    have ownPerson := ruled.1.ownPerson
    rw [acts, standsFor] at ownPerson
    exact notInForce ownPerson
  | deviceAdd deviceAdd =>
    rw [body] at ruled acts
    obtain ⟨may, _⟩ := ruled
    rcases apart.claimed device other theirs.listed with inForce | ⟨revoked, _⟩
    · have same := may.ownPerson other (acts ▸ inForce)
      exact differ (same.trans standsFor).symm
    · exact may.notRevoked (acts ▸ revoked)
  | dropRequest dropRequest =>
    rw [body] at ruled acts
    obtain ⟨targets, named, target, member, isTheirs⟩ := acts
    obtain ⟨seq, stored, held, live, same⟩ :=
      ownsTarget_eq_true.mp (ruled.1 targets named target member)
    rw [isTheirs seq stored held live, standsFor] at same
    exact notFor same
  | _ => simp [body] at acts

theorem isolated_of_apart (apart : recording.Apart)
    (mine : recording.ListedOnlyFor author person) (theirs : recording.ListedOnlyFor device other)
    (differ : person ≠ other) : Isolated crypto recording author device where
  rejected := fun _ _ _ parsed byAuthor acts =>
    ingest_error_of_not_admits parsed fun _ =>
      not_admits_of_actsOn apart mine theirs differ byAuthor acts
  unchanged := by
    intro bytes nowMs event parsed byAuthor notJoinOrLeave
    rcases recording.ingest_cases crypto bytes nowMs with
      ⟨found, after, _, alsoParsed, admits, equal⟩ | ⟨_, _, _, _, equal⟩ | ⟨_, _, equal⟩
    · rw [parsed] at alsoParsed
      cases alsoParsed
      rw [equal]
      have quiet : ¬recording.ActsOn event device := fun acts =>
        not_admits_of_actsOn apart mine theirs differ byAuthor acts admits
      have ruled := applyBody_eq_ok.mp admits.ruled
      unfold Ruled at ruled
      unfold ActsOn at quiet
      cases body : event.body with
      | join join => simp [body, Body.isJoinOrLeave] at notJoinOrLeave
      | leave leave => simp [body, Body.isJoinOrLeave] at notJoinOrLeave
      | deviceAdd deviceAdd =>
        rw [body] at ruled quiet
        obtain ⟨_, rfl⟩ := ruled
        exact Standing.sameFor_applyDeviceAdd quiet
      | deviceRevoke deviceRevoke =>
        rw [body] at ruled quiet
        obtain ⟨_, rfl⟩ := ruled
        exact Standing.sameFor_applyDeviceRevoke quiet
      | attachment attachment =>
        rw [body] at ruled
        subst ruled
        exact Standing.SameFor.refl _ device
      | unknown typeValue raw =>
        rw [body] at ruled
        subst ruled
        exact Standing.SameFor.refl _ device
      | _ =>
        rw [body] at ruled
        obtain ⟨_, rfl⟩ := ruled
        exact Standing.SameFor.refl _ device
    · rw [equal]
      exact Standing.SameFor.refl _ device
    · rw [equal]
      exact Standing.SameFor.refl _ device

/-! ## Runs -/

/-- An accepted join takes no device of another person. -/
def JoinsOwn (crypto : Crypto) (recording : Recording) : Call → Prop
  | .ingest bytes nowMs => ∀ event join after, SignedEvent.parse crypto bytes = .ok event →
      recording.Admits event nowMs after → event.body = .join join → recording.TakesOwn join
  | .honourDropRequest _ => True

theorem apart_of_ruled (apart : recording.Apart) (parsed : SignedEvent.Parsed crypto event)
    (ruled : recording.Ruled event after)
    (own : ∀ join, event.body = .join join → recording.TakesOwn join) : after.Apart := by
  unfold Ruled at ruled
  cases body : event.body with
  | join join =>
    rw [body] at ruled
    obtain ⟨_, rfl⟩ := ruled
    exact apart.applyJoin (own join body) (parsed.person_mem_devices body)
  | leave leave =>
    rw [body] at ruled
    obtain ⟨_, _, rfl⟩ := ruled
    exact apart.closeJoins leave.person
  | deviceAdd deviceAdd =>
    rw [body] at ruled
    obtain ⟨may, rfl⟩ := ruled
    exact apart.applyDeviceAdd may
  | deviceRevoke deviceRevoke =>
    rw [body] at ruled
    obtain ⟨_, rfl⟩ := ruled
    exact apart.applyDeviceRevoke deviceRevoke
  | attachment attachment =>
    rw [body] at ruled
    rwa [ruled]
  | unknown typeValue raw =>
    rw [body] at ruled
    rwa [ruled]
  | _ =>
    rw [body] at ruled
    rwa [ruled.2]

theorem apart_call (apart : recording.Apart) {input : Call} (own : JoinsOwn crypto recording input) :
    (recording.call crypto input).Apart := by
  rcases recording.call_cases crypto input with
    ⟨bytes, nowMs, event, after, rfl, _, parsed, admits, equal⟩ | ⟨_, _, _, _, _, _, _, equal⟩ |
      ⟨_, _, _, _, _, drops⟩ | equal
  · rw [equal]
    exact apart_of_ruled apart (SignedEvent.parsed_of_parse parsed)
      (applyBody_eq_ok.mp admits.ruled) fun join body => own event join after parsed admits body
  · rw [equal]
    exact apart
  · rw [drops.standing]
    exact apart
  · rw [equal]
    exact apart

theorem apart_new (opened : Recording.new visit host = .ok start) : start.Apart := by
  obtain ⟨_, rfl⟩ := new_eq_ok opened
  have noJoins : ∀ person, (∅ : HashMap Bytes32 Participant).lookup person = none := fun _ => rfl
  refine ⟨?_, ?_⟩
  · rintro device person ⟨record, member, _⟩
    simp [Standing.joinsOf, noJoins] at member
  · intro person record member
    simp [Standing.joinsOf, noJoins] at member

/-- Where no accepted join takes a device of another person, the devices of
different persons are isolated in every state the run reaches. -/
theorem run_isolated (opened : Recording.new visit host = .ok start) (calls : List Call)
    (own : Machine.Guarded (call crypto) (JoinsOwn crypto) start calls) :
    Machine.Throughout (call crypto)
      (fun recording => ∀ author device person other, recording.ListedOnlyFor author person →
        recording.ListedOnlyFor device other → person ≠ other →
          Isolated crypto recording author device)
      start calls := by
  have apart : Machine.Throughout (call crypto) (fun recording => recording.Apart) start calls :=
    Machine.guarded_throughout (fun _ _ here meets => apart_call here meets) (apart_new opened) own
  intro front inside author device person other mine theirs differ
  exact isolated_of_apart (apart front inside) mine theirs differ

/-! ## A laptop claimed before it joins -/

/-- The guest joins with the laptop at seq 2. -/
def laptopJoin : SignedEvent :=
  .assembled
    { v := 1, visit := visitId, author := hostKey, seq := 2
      prev := laptopAdd.eventId.asBytes
      tsMs := 0
      bodyHash := bytes32
        0x496d005c03b6cd3ba011878a8216e06279d55d741f5d527131c604fe7934ce1f
      bodyLen := 108 }
    (bytes64
      0x054392af849c7027b8f042e62f51784fc24bbc3673e24f1bbf4178285ee0e97d
      0x82bc9119362d801fdbc0a9510082de1a511f222ca52faa3e19cfcd93fa594f00)
    (.join ⟨guestKey, [guestKey, laptopKey], none⟩)
    (bytes32
      0xdf338550c68dcf08e9aa06255472eb1b76c785d081fa1f1c0fa20bee9168b69e)

/-- The host revokes the laptop at seq 3. -/
def laptopRevoke : SignedEvent :=
  .assembled
    { v := 1, visit := visitId, author := hostKey, seq := 3
      prev := laptopJoin.eventId.asBytes
      tsMs := 0
      bodyHash := bytes32
        0x72234134bec624699c8bc59b39f916bc7867f6cddf999037d09516ab162600d1
      bodyLen := 40 }
    (bytes64
      0x708168616a777dfce7b8c752f8fad0f3fc58ebd9831feba68d6498f760c40c3b
      0x365ea7438dbbd01de0223836d3dac6c4e0e7ae040a94f322eb2c9b5e3b94bb04)
    (.deviceRevoke ⟨laptopKey, 7⟩)
    (bytes32
      0x01587ba43477cec810fcbb02f367bf68ff1f3272277aaf070100c8dfd4e9c769)

def laptopCrypto : Crypto := .recordedFor [openingJoin, laptopAdd, laptopJoin, laptopRevoke]

/-- The guest joins with a laptop that the host has claimed. -/
def laptopCalls : List Call :=
  [.ingest openingJoin.toBytes 5, .ingest laptopAdd.toBytes 5, .ingest laptopJoin.toBytes 5]

def laptopVisit : Recording := Machine.run (call laptopCrypto) openedVisit laptopCalls

theorem laptopCalls_checks :
    (∀ event ∈ [openingJoin, laptopAdd, laptopJoin, laptopRevoke],
        SignedEvent.parse laptopCrypto event.toBytes = .ok event) ∧
      Machine.Guarded (call laptopCrypto) (Fresh laptopCrypto) openedVisit laptopCalls ∧
      laptopVisit.ListedOnlyFor hostKey hostKey ∧ laptopVisit.ListedOnlyFor laptopKey guestKey ∧
      hostKey ≠ guestKey ∧ laptopVisit.seqOf laptopRevoke.eventId = none ∧
      (laptopVisit.ingest laptopCrypto laptopRevoke.toBytes 6).2 =
        .ok laptopRevoke.eventId := by
  decide +kernel

/-- In a run of fresh events the open joins come to list the laptop for the guest
only and the host's key for the host only; the host's revocation of the laptop is
accepted. -/
theorem laptopRevoke_accepted :
    Machine.Guarded (call laptopCrypto) (Fresh laptopCrypto) openedVisit laptopCalls ∧
      laptopVisit.ListedOnlyFor hostKey hostKey ∧ laptopVisit.ListedOnlyFor laptopKey guestKey ∧
      hostKey ≠ guestKey ∧
      SignedEvent.parse laptopCrypto laptopRevoke.toBytes = .ok laptopRevoke ∧
      laptopRevoke.envelope.author = hostKey ∧ laptopVisit.ActsOn laptopRevoke laptopKey ∧
      laptopVisit.seqOf laptopRevoke.eventId = none ∧
      (laptopVisit.ingest laptopCrypto laptopRevoke.toBytes 6).2 =
        .ok laptopRevoke.eventId := by
  obtain ⟨parses, fresh, hostListed, laptopListed, apart, notHeld, accepted⟩ := laptopCalls_checks
  exact ⟨fresh, hostListed, laptopListed, apart, parses _ (by simp), rfl, rfl, notHeld, accepted⟩

/-! ## Two joins with keys of their own -/

def twoJoins : List Call := [.ingest openingJoin.toBytes 5, .ingest guestJoin.toBytes 5]

def twoJoinsCrypto : Crypto := .recordedFor [openingJoin, guestJoin]

theorem twoJoins_checks :
    SignedEvent.parse twoJoinsCrypto openingJoin.toBytes = .ok openingJoin ∧
      SignedEvent.parse twoJoinsCrypto guestJoin.toBytes = .ok guestJoin ∧
      openedVisit.TakesOwn ⟨hostKey, [hostKey], none⟩ ∧
      (call twoJoinsCrypto openedVisit (.ingest openingJoin.toBytes 5)).TakesOwn
        ⟨guestKey, [guestKey], none⟩ := by
  decide +kernel

theorem joinsOwn_twoJoins :
    Machine.Guarded (call twoJoinsCrypto) (JoinsOwn twoJoinsCrypto) openedVisit twoJoins := by
  obtain ⟨opening, guest, hostTakes, guestTakes⟩ := twoJoins_checks
  refine ⟨?_, ?_, trivial⟩
  · intro event join after parsed _ body
    rw [opening] at parsed
    cases parsed
    cases body
    exact hostTakes
  · intro event join after parsed _ body
    rw [guest] at parsed
    cases parsed
    cases body
    exact guestTakes

/-- The isolation of the two persons, after either join. -/
theorem run_isolated_twoJoins :
    Machine.Throughout (call twoJoinsCrypto)
      (fun recording => ∀ author device person other, recording.ListedOnlyFor author person →
        recording.ListedOnlyFor device other → person ≠ other →
          Isolated twoJoinsCrypto recording author device)
      openedVisit twoJoins :=
  run_isolated new_openedVisit twoJoins joinsOwn_twoJoins

end Recording

end Mosschat.Core
