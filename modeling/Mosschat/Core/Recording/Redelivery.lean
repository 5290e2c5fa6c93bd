import Mosschat.Core.Recording.Alike
import Mosschat.Core.Recording.WellFormed

/-!
Owns what offering a held event a second time does. The slot is rewritten with
the same event; the effects of the type rule run again, and `Settled` says when
they leave the standing as it was.
-/

namespace Mosschat.Core

open Mosschat.Library Mosschat.Library.Cbor

namespace Recording

variable {crypto : Crypto} {recording : Recording} {event : SignedEvent} {seq nowMs : UInt64}
  {standing : Standing} {stored : StoredEvent} {count : Nat}

/-! ## Held events -/

/-- Every live event parses back from its own bytes. -/
def LiveParse (crypto : Crypto) (recording : Recording) : Prop :=
  ∀ seq stored, recording.get seq = some stored →
    SignedEvent.parse crypto stored.event.toBytes = .ok stored.event

theorem run_liveParse {visit host : Bytes32} {start : Recording}
    (opened : Recording.new visit host = .ok start) (calls : List Call) :
    LiveParse crypto (Machine.run (call crypto) start calls) := by
  apply run_call_preserves (LiveParse crypto)
  · rintro recording event nowMs after live ⟨bytes, _, _, parsed⟩ _ seq stored found
    rw [get_store] at found
    split_ifs at found with here
    · cases found
      have bytesEq := SignedEvent.toBytes_of_parse parsed
      rwa [← bytesEq] at parsed
    · exact live seq stored found
  · exact fun _ live => live
  · intro recording after gone live drops seq stored found
    exact live seq stored (drops.get_eq_some.mp found).1
  · intro seq stored found
    rw [get_new opened] at found
    cases found

/-- A live event still passes the place rules where it sits. -/
theorem WellFormed.linked (formed : recording.WellFormed crypto count)
    (live : recording.get seq = some stored) : recording.Linked stored.event := by
  obtain ⟨place, inVisit⟩ := formed.placed seq stored live
  refine ⟨⟨by rw [inVisit]; exact formed.visitNonzero, inVisit⟩, ?_, ?_⟩
  · intro held here
    rw [place, lookup_ids, get_eq_some.mp live] at here
    exact (Option.some.inj here).symm
  · rw [place]
    exact formed.chained seq stored live

/-- Rewriting a slot with the event it holds leaves the slots as they were. -/
theorem slots_store_of_live (live : recording.get event.envelope.seq = some ⟨event⟩) :
    (recording.store event standing).slots = recording.slots :=
  HashMap.put_of_lookup (get_eq_some.mp live)

/-! ## The type rules a second time -/

/-- The effects of an admitted event, run now, leave the standing as it is. -/
def EffectSettled (recording : Recording) (event : SignedEvent) : Prop :=
  match event.body with
  | .join join =>
    event.envelope.author = recording.host →
      (⟨event.envelope.seq, join.devices, none⟩ : JoinRecord) ∈ recording.joinsOf join.person ∧
        ∀ device ∈ join.devices, (recording.personOf device).isSome
  | .leave leave =>
    event.envelope.author = recording.host →
      ∀ record ∈ recording.joinsOf leave.person,
        record.seq < event.envelope.seq → record.leftAt ≠ none
  | .deviceAdd deviceAdd =>
    recording.MayAdd event.envelope.author deviceAdd →
      (recording.personOf deviceAdd.device).isSome ∧
        recording.deviceAddWindows.lookup deviceAdd.device =
          some (deviceAdd.notBeforeMs, deviceAdd.notAfterMs)
  | .deviceRevoke deviceRevoke => ¬recording.MayRevoke event.envelope.author deviceRevoke
  | _ => True

/-- Offering the event now changes nothing that admission reads: the visit is
broken, or the author is not admitted, or the effects have settled. -/
def Settled (recording : Recording) (event : SignedEvent) (nowMs : UInt64) : Prop :=
  recording.broken = true ∨ ¬recording.Authored event nowMs ∨ recording.EffectSettled event

theorem alike_applyJoin_iff (standing : Standing) (join : Join) :
    (standing.applyJoin join seq).Alike standing ↔
      (⟨seq, join.devices, none⟩ : JoinRecord) ∈ standing.joinsOf join.person ∧
        ∀ device ∈ join.devices, (standing.personOf device).isSome := by
  constructor
  · intro alike
    constructor
    · apply (alike.joins join.person _).mp
      rw [Standing.joinsOf_applyJoin, if_pos rfl]
      simp
    · intro device member
      rw [← alike.persons, Standing.personOf_applyJoin, if_pos member]
      rfl
  · rintro ⟨recorded, inForce⟩
    refine ⟨?_, ?_, fun _ => rfl, fun _ => Iff.rfl⟩
    · intro person record
      rw [Standing.joinsOf_applyJoin]
      split_ifs with isPerson
      · subst isPerson
        rw [List.mem_append, List.mem_singleton]
        exact ⟨fun either => either.elim id fun same => same ▸ recorded, Or.inl⟩
      · exact Iff.rfl
    · intro device
      rw [Standing.personOf_applyJoin]
      split_ifs with member
      · obtain ⟨person, found⟩ := Option.isSome_iff_exists.mp (inForce device member)
        rw [found]
        rfl
      · rfl

/-- A `leave` that closes a join takes the open record away. -/
theorem not_alike_closeJoins {standing : Standing} {person : Bytes32} {record : JoinRecord}
    (member : record ∈ standing.joinsOf person) (below : record.seq < seq)
    (isOpen : record.leftAt = none) : ¬(standing.closeJoins person seq).Alike standing := by
  intro alike
  have still := (alike.joins person record).mpr member
  rw [Standing.joinsOf_closeJoins, if_pos rfl] at still
  obtain ⟨old, _, closed⟩ := List.mem_map.mp still
  unfold JoinRecord.closeAt at closed
  split_ifs at closed with closes
  · rw [← closed] at isOpen
    cases isOpen
  · rw [closed] at closes
    exact closes (JoinRecord.closes_iff.mpr ⟨below, isOpen⟩)

theorem alike_applyDeviceAdd_iff (standing : Standing) (author : Bytes32)
    (deviceAdd : DeviceAdd) :
    (standing.applyDeviceAdd author deviceAdd).Alike standing ↔
      (standing.personOf deviceAdd.device).isSome ∧
        standing.deviceAddWindows.lookup deviceAdd.device =
          some (deviceAdd.notBeforeMs, deviceAdd.notAfterMs) := by
  constructor
  · intro alike
    constructor
    · rw [← alike.persons, Standing.personOf_applyDeviceAdd, if_pos rfl]
      rfl
    · rw [← alike.windows, Standing.lookup_deviceAddWindows_applyDeviceAdd, if_pos rfl]
  · rintro ⟨inForce, sameWindow⟩
    obtain ⟨person, found⟩ := Option.isSome_iff_exists.mp inForce
    refine ⟨fun _ _ => Iff.rfl, ?_, ?_, fun _ => Iff.rfl⟩
    · intro device
      rw [Standing.personOf_applyDeviceAdd]
      split_ifs with isDevice
      · rw [isDevice, found]
        rfl
      · rfl
    · intro device
      rw [Standing.lookup_deviceAddWindows_applyDeviceAdd]
      split_ifs with isDevice
      · rw [isDevice, sameWindow]
      · rfl

/-- A revocation takes its device out of force. -/
theorem not_alike_applyDeviceRevoke {standing : Standing} {author : Bytes32}
    {deviceRevoke : DeviceRevoke} (may : standing.MayRevoke author deviceRevoke) :
    ¬(standing.applyDeviceRevoke author deviceRevoke).Alike standing := by
  intro alike
  have gone := alike.persons deviceRevoke.device
  rw [Standing.personOf_applyDeviceRevoke, if_pos rfl, may.ownPerson] at gone
  cases gone

/-- The standing a rule leaves is alike exactly when its effects had settled. -/
theorem alike_of_ruled_iff (ruled : recording.Ruled event standing) :
    standing.Alike recording.toStanding ↔ recording.EffectSettled event := by
  unfold Ruled at ruled
  unfold EffectSettled
  cases body : event.body with
  | message message =>
    rw [body] at ruled
    obtain ⟨_, rfl⟩ := ruled
    simp [Standing.Alike.refl]
  | reaction reaction =>
    rw [body] at ruled
    obtain ⟨_, rfl⟩ := ruled
    simp [Standing.Alike.refl]
  | attachment attachment =>
    rw [body] at ruled
    subst ruled
    simp [Standing.Alike.refl]
  | join join =>
    rw [body] at ruled
    obtain ⟨byHost, rfl⟩ := ruled
    rw [alike_applyJoin_iff]
    exact ⟨fun settled _ => settled, fun settled => settled byHost⟩
  | leave leave =>
    rw [body] at ruled
    obtain ⟨byHost, ⟨record, member, below, isOpen⟩, rfl⟩ := ruled
    constructor
    · exact fun alike => absurd alike (not_alike_closeJoins member below isOpen)
    · exact fun settled => absurd isOpen (settled byHost record member below)
  | deviceAdd deviceAdd =>
    rw [body] at ruled
    obtain ⟨may, rfl⟩ := ruled
    rw [alike_applyDeviceAdd_iff]
    exact ⟨fun settled _ => settled, fun settled => settled may⟩
  | deviceRevoke deviceRevoke =>
    rw [body] at ruled
    obtain ⟨may, rfl⟩ := ruled
    constructor
    · exact fun alike => absurd alike (not_alike_applyDeviceRevoke may)
    · exact fun settled => absurd may settled
  | dropRequest dropRequest =>
    rw [body] at ruled
    obtain ⟨_, rfl⟩ := ruled
    simp [Standing.Alike.refl]
  | unknown typeValue raw =>
    rw [body] at ruled
    subst ruled
    simp [Standing.Alike.refl]

/-- An event whose type rule fails has no effect left to settle. -/
theorem effectSettled_of_not_ruled (refused : ∀ standing, ¬recording.Ruled event standing) :
    recording.EffectSettled event := by
  unfold Ruled at refused
  unfold EffectSettled
  cases body : event.body with
  | join join =>
    intro byHost
    rw [body] at refused
    exact absurd ⟨byHost, rfl⟩ (refused _)
  | leave leave =>
    intro byHost record member below isOpen
    rw [body] at refused
    exact refused _ ⟨byHost, ⟨record, member, below, isOpen⟩, rfl⟩
  | deviceAdd deviceAdd =>
    intro may
    rw [body] at refused
    exact absurd ⟨may, rfl⟩ (refused _)
  | deviceRevoke deviceRevoke =>
    intro may
    rw [body] at refused
    exact refused _ ⟨may, rfl⟩
  | _ => trivial

/-! ## Offering a held event again -/

/-- A held event is stored again, or refused without a trace; R-13 never trips. -/
theorem redelivery_cases (parsed : SignedEvent.parse crypto event.toBytes = .ok event)
    (linked : recording.Linked event) :
    (∃ after, recording.broken = false ∧ recording.Admits event nowMs after ∧
        recording.ingest crypto event.toBytes nowMs =
          (recording.store event after, .ok event.eventId)) ∨
      ((recording.broken = true ∨ ∀ after, ¬recording.Admits event nowMs after) ∧
        (recording.ingest crypto event.toBytes nowMs).1 = recording) := by
  rcases recording.ingest_cases crypto event.toBytes nowMs with
    ⟨other, after, sound, alsoParsed, admits, equal⟩ | ⟨other, _, alsoParsed, trips, _⟩ |
      ⟨reason, notBroken, equal⟩
  · rw [parsed] at alsoParsed
    cases alsoParsed
    exact Or.inl ⟨after, sound, admits, equal⟩
  · rw [parsed] at alsoParsed
    cases alsoParsed
    rcases trips.2 with ⟨held, here, differs⟩ | ⟨expected, found, differs⟩
    · exact absurd (linked.sameId held here) differs
    · rw [linked.prev] at found
      exact absurd (Option.some.inj found).symm differs
  · refine Or.inr ⟨?_, congrArg Prod.fst equal⟩
    by_cases sound : recording.broken = false
    · refine Or.inr ?_
      intro after admits
      rw [ingest_of_admits sound parsed admits] at equal
      have verdict := congrArg Prod.snd equal
      cases verdict
    · exact Or.inl (by simpa using sound)

theorem settled_of_alike (parsed : SignedEvent.parse crypto event.toBytes = .ok event)
    (linked : recording.Linked event)
    (alike : (recording.ingest crypto event.toBytes nowMs).1.toStanding.Alike
      recording.toStanding) : recording.Settled event nowMs := by
  rcases redelivery_cases parsed linked with ⟨after, _, admits, equal⟩ | ⟨refused, _⟩
  · rw [equal] at alike
    have ruled := applyBody_eq_ok.mp admits.ruled
    exact Or.inr (Or.inr ((alike_of_ruled_iff ruled).mp alike))
  · rcases refused with broken | notAdmitted
    · exact Or.inl broken
    · by_cases authored : recording.Authored event nowMs
      · refine Or.inr (Or.inr (effectSettled_of_not_ruled ?_))
        intro standing ruled
        exact notAdmitted standing ⟨linked, authored, applyBody_eq_ok.mpr ruled⟩
      · exact Or.inr (Or.inl authored)

theorem alike_of_settled (parsed : SignedEvent.parse crypto event.toBytes = .ok event)
    (linked : recording.Linked event) (live : recording.get event.envelope.seq = some ⟨event⟩)
    (settled : recording.Settled event nowMs) :
    (recording.ingest crypto event.toBytes nowMs).1.Alike recording := by
  rcases redelivery_cases parsed linked with ⟨after, sound, admits, equal⟩ | ⟨_, unchanged⟩
  · have effect : recording.EffectSettled event := by
      rcases settled with broken | notAuthored | effect
      · rw [sound] at broken
        cases broken
      · exact absurd admits.authored notAuthored
      · exact effect
    rw [equal]
    have ruled := applyBody_eq_ok.mp admits.ruled
    exact ⟨(alike_of_ruled_iff ruled).mpr effect, rfl, rfl, slots_store_of_live live, rfl⟩
  · rw [unchanged]
    exact ⟨Standing.Alike.refl _, rfl, rfl, rfl, rfl⟩

/-- In a reachable recording, offering a live event again leaves the standing and
every later verdict as they were exactly when the event has settled. -/
theorem redelivery_unchanged_iff {visit host : Bytes32} {start : Recording}
    (opened : Recording.new visit host = .ok start) (calls : List Call) (seq nowMs : UInt64)
    (stored : StoredEvent) (live : (Machine.run (call crypto) start calls).get seq = some stored) :
    (((Machine.run (call crypto) start calls).ingest crypto stored.event.toBytes
          nowMs).1.toStanding.Alike (Machine.run (call crypto) start calls).toStanding ∧
        SameFuture crypto
          ((Machine.run (call crypto) start calls).ingest crypto stored.event.toBytes nowMs).1
          (Machine.run (call crypto) start calls)) ↔
      (Machine.run (call crypto) start calls).Settled stored.event nowMs := by
  obtain ⟨count, formed⟩ :
      ∃ count, (Machine.run (call crypto) start calls).WellFormed crypto count :=
    run_exists_wellFormed opened calls
  have parsed : SignedEvent.parse crypto stored.event.toBytes = .ok stored.event :=
    run_liveParse opened calls seq stored live
  have linked := formed.linked live
  have here : (Machine.run (call crypto) start calls).get stored.event.envelope.seq =
      some ⟨stored.event⟩ := by
    rw [(formed.placed seq stored live).1]
    exact live
  constructor
  · exact fun unchanged => settled_of_alike parsed linked unchanged.1
  · intro settled
    have alike := alike_of_settled parsed linked here settled
    exact ⟨alike.standing, alike.sameFuture crypto⟩

/-! ## A guest who left -/

/-- The guest leaves at seq 2. -/
def guestLeave : SignedEvent :=
  .assembled
    { v := 1, visit := visitId, author := hostKey, seq := 2
      prev := guestJoin.eventId.asBytes
      tsMs := 0
      bodyHash := bytes32
        0x1be2600da860ca0555595705bbee3476043a8d3f9ce198ba9f47712cb2055a03
      bodyLen := 40 }
    (bytes64
      0x922c16bbf8b1cb68d330c0ccfaccc1d0cb886161588b5c652e5b1df894a2729e
      0x8ec8f1b031faf88a4a44140993a02a24997db988aea6c97db88ea4dd8b1dc109)
    (.leave ⟨guestKey, 0⟩)
    (bytes32
      0x57f08a330ebf4dd8cdc65a5d405e5f308277ef5c1609acc4b0beaf7680e1fdab)

/-- The guest writes at seq 3. -/
def guestEvent : SignedEvent :=
  .assembled
    { v := 1, visit := visitId, author := guestKey, seq := 3
      prev := guestLeave.eventId.asBytes
      tsMs := 0
      bodyHash := bytes32
        0xfcf4423420a7ae0ee82c5f6e2a49bd540969c7ce394b463e12608436fbdbb1a7
      bodyLen := 5 }
    (bytes64
      0x558ad2508b9a9107963b1a24be16d62fb78e74d3e74bd3e61f248a9ccccf47ac
      0x0055b7e056dc5c11766cd0800e37a3d3b87501defe08ef63295a01381972a309)
    (.dropRequest ⟨0, none, none⟩)
    (bytes32
      0x96d29f2e57c7486929aa72706ab0f527228b71ac3a018e66979a9d6d357418f3)

def guestCrypto : Crypto := .recordedFor [openingJoin, guestJoin, guestLeave, guestEvent]

/-- The visit after the guest has joined and left. -/
def guestVisit : Recording :=
  Machine.run (call guestCrypto) openedVisit
    [.ingest openingJoin.toBytes 5, .ingest guestJoin.toBytes 5, .ingest guestLeave.toBytes 5]

/-- The guest's join is held at seq 1; offered again it lets the guest write. -/
theorem guestJoin_readmits :
    guestVisit.get 1 = some ⟨guestJoin⟩ ∧
      (guestVisit.ingest guestCrypto guestEvent.toBytes 6).2 = .error .authorHasLeft ∧
      ((guestVisit.ingest guestCrypto guestJoin.toBytes 6).1.ingest guestCrypto
        guestEvent.toBytes 6).2 = .ok guestEvent.eventId := by
  refine ⟨?_, ?_, ?_⟩ <;> decide +kernel

/-- The host alone has joined. -/
def joinedCalls : List Call := [.ingest openingJoin.toBytes 5]

def joinedSlot : StoredEvent := ⟨openingJoin⟩

theorem get_joinedCalls :
    (Machine.run (call recordedCrypto) openedVisit joinedCalls).get 0 = some joinedSlot := by
  decide +kernel

/-- The condition for the first join of a visit. -/
theorem redelivery_unchanged_iff_openingJoin :
    (((Machine.run (call recordedCrypto) openedVisit joinedCalls).ingest recordedCrypto
            joinedSlot.event.toBytes 6).1.toStanding.Alike
          (Machine.run (call recordedCrypto) openedVisit joinedCalls).toStanding ∧
        SameFuture recordedCrypto
          ((Machine.run (call recordedCrypto) openedVisit joinedCalls).ingest recordedCrypto
            joinedSlot.event.toBytes 6).1
          (Machine.run (call recordedCrypto) openedVisit joinedCalls)) ↔
      (Machine.run (call recordedCrypto) openedVisit joinedCalls).Settled joinedSlot.event 6 :=
  redelivery_unchanged_iff new_openedVisit joinedCalls 0 6 joinedSlot get_joinedCalls

end Recording

end Mosschat.Core
