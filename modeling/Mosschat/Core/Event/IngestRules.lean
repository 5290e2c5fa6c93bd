import Mosschat.Core.Event.Ingest

/-!
Owns what one `ingest` call and one honoured drop-request can do to a recording:
the place of an event (R-11 to R-13), the standing of its author, the three ways
a call ends, and the slots a drop leaves.

Later modules use these statements and do not unfold `ingest`.
-/

namespace Mosschat.Core

open Mosschat.Library Mosschat.Library.Cbor

/-! ## Joins -/

namespace JoinRecord

/-- The record counts for a check made at `atSeq`. -/
def Counted (counts : JoinRecord → Bool) (atSeq : UInt64) (record : JoinRecord) : Prop :=
  record.seq ≤ atSeq ∧ counts record = true

section Scan

variable {counts : JoinRecord → Bool} {atSeq : UInt64} {head : JoinRecord}
  {rest joins : List JoinRecord} {foundEver : Bool}

private theorem skipped_iff {record : JoinRecord} :
    (atSeq < record.seq ∨ counts record = false) ↔ ¬Counted counts atSeq record := by
  rw [Counted, not_and_or, UInt64.not_le, Bool.not_eq_true]

private theorem scan_skip (skipped : ¬Counted counts atSeq head) :
    scan counts atSeq (head :: rest) foundEver = scan counts atSeq rest foundEver :=
  if_pos (skipped_iff.mpr skipped)

private theorem scan_counted (counted : Counted counts atSeq head) :
    scan counts atSeq (head :: rest) foundEver =
      if head.stillOpen atSeq then some .active else scan counts atSeq rest true :=
  if_neg (mt skipped_iff.mp (not_not.mpr counted))

theorem scan_eq_active :
    scan counts atSeq joins foundEver = some .active ↔
      ∃ record ∈ joins, Counted counts atSeq record ∧ record.stillOpen atSeq = true := by
  induction joins generalizing foundEver with
  | nil => cases foundEver <;> simp [scan]
  | cons head rest ih =>
      rw [List.exists_mem_cons_iff]
      by_cases counted : Counted counts atSeq head
      · rw [scan_counted counted]
        by_cases isOpen : head.stillOpen atSeq = true
        · simp [isOpen, counted]
        · rw [if_neg isOpen, ih]
          simp [isOpen]
      · rw [scan_skip counted, ih]
        simp [counted]

theorem scan_eq_none :
    scan counts atSeq joins foundEver = none ↔
      foundEver = false ∧ ∀ record ∈ joins, ¬Counted counts atSeq record := by
  induction joins generalizing foundEver with
  | nil => cases foundEver <;> simp [scan]
  | cons head rest ih =>
      rw [List.forall_mem_cons]
      by_cases counted : Counted counts atSeq head
      · rw [scan_counted counted]
        by_cases isOpen : head.stillOpen atSeq = true
        · simp [isOpen, counted]
        · rw [if_neg isOpen, ih]
          simp [counted]
      · rw [scan_skip counted, ih]
        simp [counted]

theorem scan_ne_unknown : scan counts atSeq joins foundEver ≠ some .unknown := by
  induction joins generalizing foundEver with
  | nil => cases foundEver <;> simp [scan]
  | cons head rest ih =>
      rw [scan]
      split_ifs
      · exact ih
      · simp
      · exact ih

/-- The scan reads its list as a set. -/
theorem scan_congr {left right : List JoinRecord}
    (same : ∀ record, record ∈ left ↔ record ∈ right) :
    scan counts atSeq left false = scan counts atSeq right false := by
  have active : scan counts atSeq left false = some .active ↔
      scan counts atSeq right false = some .active := by
    simp only [scan_eq_active, same]
  have absent : scan counts atSeq left false = none ↔
      scan counts atSeq right false = none := by
    simp only [scan_eq_none, same]
  have leftKnown : scan counts atSeq left false ≠ some .unknown := scan_ne_unknown
  have rightKnown : scan counts atSeq right false ≠ some .unknown := scan_ne_unknown
  generalize scan counts atSeq left false = first at *
  generalize scan counts atSeq right false = second at *
  rcases first with _ | _ | _ | _ <;> rcases second with _ | _ | _ | _ <;> simp_all

end Scan

end JoinRecord

/-! ## Authors -/

namespace Standing

variable {standing : Standing} {author person : Bytes32} {atSeq : UInt64}

theorem joinsOf_of_lookup {participant : Participant}
    (found : standing.participants.lookup person = some participant) :
    standing.joinsOf person = participant.joins := by
  simp [joinsOf, found]

theorem mem_allJoins {record : JoinRecord} :
    record ∈ standing.allJoins ↔ ∃ person, record ∈ standing.joinsOf person := by
  simp only [allJoins, List.mem_flatMap, HashMap.mem_values]
  constructor
  · rintro ⟨participant, ⟨person, found⟩, member⟩
    exact ⟨person, by rwa [joinsOf_of_lookup found]⟩
  · rintro ⟨person, member⟩
    cases found : standing.participants.lookup person with
    | none => simp [joinsOf, found] at member
    | some participant =>
        rw [joinsOf_of_lookup found] at member
        exact ⟨participant, ⟨person, found⟩, member⟩

/-- Some join up to `atSeq` lists the key. -/
def Named (standing : Standing) (author : Bytes32) (atSeq : UInt64) : Prop :=
  ∃ person, ∃ record ∈ standing.joinsOf person, record.seq ≤ atSeq ∧ author ∈ record.devices

/-- Some join that is open at `atSeq` lists the key. -/
def NamedOpen (standing : Standing) (author : Bytes32) (atSeq : UInt64) : Prop :=
  ∃ person, ∃ record ∈ standing.joinsOf person,
    (record.seq ≤ atSeq ∧ author ∈ record.devices) ∧ record.stillOpen atSeq = true

/-- The person has a join that is open at `atSeq`. -/
def Present (standing : Standing) (person : Bytes32) (atSeq : UInt64) : Prop :=
  ∃ record ∈ standing.joinsOf person, record.seq ≤ atSeq ∧ record.stillOpen atSeq = true

private theorem exists_mem_allJoins {holds : JoinRecord → Prop} :
    (∃ record ∈ standing.allJoins, holds record) ↔
      ∃ person, ∃ record ∈ standing.joinsOf person, holds record := by
  simp only [mem_allJoins]
  constructor
  · rintro ⟨record, ⟨person, member⟩, meets⟩
    exact ⟨person, record, member, meets⟩
  · rintro ⟨person, record, member, meets⟩
    exact ⟨record, ⟨person, member⟩, meets⟩

theorem joinDeviceStatus_eq_active :
    standing.joinDeviceStatus author atSeq = some .active ↔ standing.NamedOpen author atSeq := by
  rw [joinDeviceStatus, JoinRecord.scan_eq_active, exists_mem_allJoins]
  simp only [NamedOpen, JoinRecord.Counted, List.contains_iff_mem]

theorem joinDeviceStatus_eq_none :
    standing.joinDeviceStatus author atSeq = none ↔ ¬standing.Named author atSeq := by
  have asSearch : standing.Named author atSeq ↔ ∃ record ∈ standing.allJoins,
      JoinRecord.Counted (fun record => record.devices.contains author) atSeq record := by
    rw [exists_mem_allJoins]
    simp only [Named, JoinRecord.Counted, List.contains_iff_mem]
  rw [joinDeviceStatus, JoinRecord.scan_eq_none, asSearch]
  simp

theorem authorStatus_eq_active :
    standing.authorStatus author atSeq = .active ↔
      standing.NamedOpen author atSeq ∨
        ¬standing.Named author atSeq ∧
          ∃ person, standing.personOf author = some person ∧ standing.Present person atSeq := by
  rw [← joinDeviceStatus_eq_active, ← joinDeviceStatus_eq_none, authorStatus]
  cases named : standing.joinDeviceStatus author atSeq with
  | some status => simp
  | none =>
      cases inForce : standing.personOf author with
      | none => simp
      | some person =>
          have byPerson : JoinRecord.scan (fun _ => true) atSeq (standing.joinsOf person) false =
              some .active ↔ standing.Present person atSeq := by
            rw [JoinRecord.scan_eq_active]
            simp only [JoinRecord.Counted, and_true, Present]
          simp only [reduceCtorEq, true_and, false_or, Option.some.injEq, exists_eq_left', ← byPerson]
          cases JoinRecord.scan (fun _ => true) atSeq (standing.joinsOf person) false <;> simp

/-- The window of the key's latest grant, if it has one, covers the clock. -/
def WindowInForce (standing : Standing) (author : Bytes32) (nowMs : UInt64) : Prop :=
  ∀ window, standing.deviceAddWindows.lookup author = some window →
    deviceAddGrantInForce window.1 window.2 nowMs = true

/-- The author rules of `ingest`, as one condition. -/
structure Authored (standing : Standing) (event : SignedEvent) (nowMs : UInt64) : Prop where
  notRevoked : event.envelope.author ∉ standing.revoked
  active : event.body.isJoinOrLeave = false →
    standing.authorStatus event.envelope.author event.envelope.seq = .active
  window : event.body.isJoinOrLeave = false →
    standing.WindowInForce event.envelope.author nowMs

theorem checkAuthor_eq_ok {event : SignedEvent} {nowMs : UInt64} :
    standing.checkAuthor event nowMs = .ok () ↔ standing.Authored event nowMs := by
  constructor
  · intro passed
    unfold checkAuthor at passed
    dsimp only at passed
    split_ifs at passed with revoked byHost
    · exact ⟨revoked, by simp [byHost], by simp [byHost]⟩
    · split at passed
      · cases passed
      · cases passed
      · next active =>
        refine ⟨revoked, fun _ => active, fun _ window found => ?_⟩
        rw [found] at passed
        dsimp only at passed
        split_ifs at passed with inForce
        exact inForce
  · rintro ⟨revoked, active, window⟩
    unfold checkAuthor
    dsimp only
    rw [if_neg revoked]
    split_ifs with byHost
    · rfl
    · rw [active (by simpa using byHost)]
      dsimp only
      split
      · rfl
      · next found => rw [if_pos (window (by simpa using byHost) _ found)]

theorem checkAuthor_ne_broken {event : SignedEvent} {nowMs : UInt64} :
    standing.checkAuthor event nowMs ≠ .error .broken := by
  unfold checkAuthor
  dsimp only
  split_ifs
  · simp
  · simp
  · split
    · simp
    · simp
    · split
      · simp
      · split_ifs <;> simp

end Standing

/-! ## Slots -/

/-- What a drop leaves in a slot. -/
def Slot.drop (seq : UInt64) : Slot → Slot
  | .event stored => .tombstone ⟨seq, stored.event.eventId⟩
  | .tombstone dropped => .tombstone dropped

theorem Slot.drop_drop (seq : UInt64) (slot : Slot) :
    (slot.drop seq).drop seq = slot.drop seq := by
  cases slot <;> rfl

/-! ## Places -/

namespace Recording

variable {recording : Recording} {event : SignedEvent} {seq : UInt64} {id : EventId}
  {nowMs : UInt64} {standing : Standing}

theorem get_eq_some {stored : StoredEvent} :
    recording.get seq = some stored ↔ recording.slots.lookup seq = some (.event stored) := by
  unfold get
  split
  · next found => simp [found]
  · next other =>
    constructor
    · intro equal
      cases equal
    · intro found
      exact absurd found (other stored)

theorem tombstoneAt_eq_some {dropped : Tombstone} :
    recording.tombstoneAt seq = some dropped ↔
      recording.slots.lookup seq = some (.tombstone dropped) := by
  unfold tombstoneAt
  split
  · next found => simp [found]
  · next other =>
    constructor
    · intro equal
      cases equal
    · intro found
      exact absurd found (other dropped)

/-- The ids of the slots, tombstones included: all that R-13, R-18 and R-19 read. -/
def ids (recording : Recording) : HashMap UInt64 EventId := recording.slots.mapValues Slot.eventId

theorem lookup_ids : recording.ids.lookup seq = (recording.slots.lookup seq).map Slot.eventId :=
  HashMap.lookup_mapValues _ _ _

theorem seqOf_eq_findKey : recording.seqOf id = recording.ids.findKey fun found => found = id := by
  rw [ids, HashMap.findKey_mapValues]
  rfl

theorem lookup_ids_of_seqOf (found : recording.seqOf id = some seq) :
    recording.ids.lookup seq = some id := by
  rw [seqOf_eq_findKey] at found
  obtain ⟨value, here, equal⟩ := HashMap.lookup_of_findKey found
  rw [here, of_decide_eq_true equal]

theorem seqOf_eq_none : recording.seqOf id = none ↔ ∀ seq, recording.ids.lookup seq ≠ some id := by
  rw [seqOf_eq_findKey, HashMap.findKey_eq_none]
  constructor
  · intro absent seq here
    exact of_decide_eq_false (absent seq id here) rfl
  · intro absent seq value here
    exact decide_eq_false fun equal => absent seq (equal ▸ here)

theorem expectedPrev_eq : recording.expectedPrev seq =
    if seq = 0 then some zero32 else (recording.ids.lookup (seq - 1)).map EventId.asBytes := by
  rw [expectedPrev, lookup_ids, Option.map_map]
  rfl

/-- The event belongs to this visit. -/
structure InVisit (recording : Recording) (event : SignedEvent) : Prop where
  nonzero : event.envelope.visit ≠ zero32
  same : event.envelope.visit = recording.visit

/-- The event's seq is free or holds this very event, dropped or not, and its
`prev` is the id below. -/
structure Linked (recording : Recording) (event : SignedEvent) : Prop where
  inVisit : recording.InVisit event
  sameId : ∀ held, recording.ids.lookup event.envelope.seq = some held → held = event.eventId
  prev : recording.expectedPrev event.envelope.seq = some event.envelope.prev

/-- What R-13 breaks a visit for: another id in the slot, or a held predecessor
that is not the event's `prev`. -/
def TripsR13 (recording : Recording) (event : SignedEvent) : Prop :=
  recording.InVisit event ∧
    ((∃ held, recording.ids.lookup event.envelope.seq = some held ∧ held ≠ event.eventId) ∨
      ∃ expected, recording.expectedPrev event.envelope.seq = some expected ∧
        expected ≠ event.envelope.prev)

private theorem collides_iff :
    (∃ slot ∈ recording.slots.lookup event.envelope.seq, slot.eventId ≠ event.eventId) ↔
      ∃ held, recording.ids.lookup event.envelope.seq = some held ∧ held ≠ event.eventId := by
  rw [lookup_ids]
  cases recording.slots.lookup event.envelope.seq <;> simp

theorem checkPlace_eq_ok : recording.checkPlace event = .ok () ↔ recording.Linked event := by
  constructor
  · intro passed
    unfold checkPlace at passed
    dsimp only at passed
    split_ifs at passed with zero other collides
    have sameId : ∀ held, recording.ids.lookup event.envelope.seq = some held →
        held = event.eventId := by
      intro held here
      by_contra differs
      exact collides (collides_iff.mpr ⟨held, here, differs⟩)
    split at passed
    · cases passed
    · next expected found =>
      split_ifs at passed with differs
      rw [← not_not.mp differs] at found
      exact ⟨⟨zero, not_not.mp other⟩, sameId, found⟩
  · rintro ⟨⟨nonzero, same⟩, sameId, prev⟩
    have free : ¬∃ slot ∈ recording.slots.lookup event.envelope.seq,
        slot.eventId ≠ event.eventId := by
      rw [collides_iff]
      rintro ⟨held, here, differs⟩
      exact differs (sameId held here)
    unfold checkPlace
    dsimp only
    rw [if_neg nonzero, if_neg (not_not.mpr same), if_neg free, prev]
    simp

theorem checkPlace_eq_broken :
    recording.checkPlace event = .error .broken ↔ recording.TripsR13 event := by
  constructor
  · intro failed
    unfold checkPlace at failed
    dsimp only at failed
    split_ifs at failed with zero other collides
    · cases failed
    · cases failed
    · exact ⟨⟨zero, not_not.mp other⟩, Or.inl (collides_iff.mp collides)⟩
    · split at failed
      · cases failed
      · next expected found =>
        split_ifs at failed with differs
        exact ⟨⟨zero, not_not.mp other⟩, Or.inr ⟨expected, found, Ne.symm differs⟩⟩
  · rintro ⟨⟨nonzero, same⟩, trips⟩
    unfold checkPlace
    dsimp only
    rw [if_neg nonzero, if_neg (not_not.mpr same)]
    by_cases collides : ∃ slot ∈ recording.slots.lookup event.envelope.seq,
        slot.eventId ≠ event.eventId
    · rw [if_pos collides]
    · rw [if_neg collides]
      rcases trips with collision | ⟨expected, found, differs⟩
      · exact absurd (collides_iff.mpr collision) collides
      · rw [found]
        dsimp only
        rw [if_pos (Ne.symm differs)]

/-! ## One call of `ingest` -/

/-- The event passes every rule and leaves `after` as the standing. -/
structure Admits (recording : Recording) (event : SignedEvent) (nowMs : UInt64)
    (after : Standing) : Prop where
  linked : recording.Linked event
  authored : recording.Authored event nowMs
  ruled : recording.applyBody event = .ok after

theorem checkEvent_eq_ok :
    recording.checkEvent event nowMs = .ok standing ↔ recording.Admits event nowMs standing := by
  unfold checkEvent
  constructor
  · intro passed
    cases placed : recording.checkPlace event with
    | error reason => simp [placed, bind, Except.bind] at passed
    | ok =>
      cases authored : recording.checkAuthor event nowMs with
      | error reason => simp [placed, authored, bind, Except.bind] at passed
      | ok =>
        simp only [placed, authored, bind, Except.bind] at passed
        exact ⟨checkPlace_eq_ok.mp placed, Standing.checkAuthor_eq_ok.mp authored, passed⟩
  · rintro ⟨linked, authored, ruled⟩
    rw [checkPlace_eq_ok.mpr linked, Standing.checkAuthor_eq_ok.mpr authored]
    exact ruled

theorem applyBody_ne_broken : recording.applyBody event ≠ .error .broken := by
  unfold applyBody
  dsimp only
  split
  · split
    · simp
    · split_ifs <;> simp
  · split_ifs <;> simp
  · simp
  · split_ifs <;> simp
  · unfold Standing.applyLeave
    split_ifs
    · simp
    · split
      · simp
      · split_ifs <;> simp
  · unfold Standing.checkDeviceAdd
    split_ifs
    · simp [bind, Except.bind]
    · split
      · simp [bind, Except.bind, pure, Except.pure]
      · split_ifs <;> simp [bind, Except.bind, pure, Except.pure]
  · unfold Standing.checkDeviceRevoke
    split_ifs <;> simp [bind, Except.bind, pure, Except.pure]
  · unfold checkDropRequest
    split
    · simp [bind, Except.bind, pure, Except.pure]
    · split_ifs <;> simp [bind, Except.bind, pure, Except.pure]
  · simp

theorem checkEvent_eq_broken :
    recording.checkEvent event nowMs = .error .broken ↔ recording.TripsR13 event := by
  rw [← checkPlace_eq_broken]
  unfold checkEvent
  cases placed : recording.checkPlace event with
  | error reason => simp [bind, Except.bind]
  | ok =>
    cases authored : recording.checkAuthor event nowMs with
    | error reason =>
      have other : recording.checkAuthor event nowMs ≠ .error .broken :=
        Standing.checkAuthor_ne_broken
      rw [authored] at other
      simpa [bind, Except.bind] using other
    | ok => simp [bind, Except.bind, applyBody_ne_broken]

/-- The recording R-13 leaves: as before, and broken. -/
def markBroken (recording : Recording) : Recording := { recording with broken := true }

/-- The three ways a call of `ingest` on a parsed event ends. -/
theorem ingestEvent_cases (recording : Recording) (event : SignedEvent) (nowMs : UInt64) :
    (∃ after, recording.Admits event nowMs after ∧
        recording.ingestEvent event nowMs = (recording.store event after, .ok event.eventId)) ∨
      (recording.TripsR13 event ∧
        recording.ingestEvent event nowMs = (recording.markBroken, .error .broken)) ∨
      ∃ reason, reason ≠ .broken ∧ recording.checkEvent event nowMs = .error reason ∧
        recording.ingestEvent event nowMs = (recording, .error reason) := by
  unfold ingestEvent
  cases checked : recording.checkEvent event nowMs with
  | ok after => exact Or.inl ⟨after, checkEvent_eq_ok.mp checked, rfl⟩
  | error reason =>
    by_cases broke : reason = .broken
    · subst broke
      exact Or.inr (Or.inl ⟨checkEvent_eq_broken.mp checked, rfl⟩)
    · refine Or.inr (Or.inr ⟨reason, broke, rfl, ?_⟩)
      cases reason <;> first | rfl | exact absurd rfl broke

/-- The three ways a call of `ingest` ends: the event is stored, or R-13 breaks
the visit, or nothing has changed. -/
theorem ingest_cases (crypto : Crypto) (recording : Recording) (input : Bytes) (nowMs : UInt64) :
    (∃ event after, recording.broken = false ∧ SignedEvent.parse crypto input = .ok event ∧
        recording.Admits event nowMs after ∧
        recording.ingest crypto input nowMs = (recording.store event after, .ok event.eventId)) ∨
      (∃ event, recording.broken = false ∧ SignedEvent.parse crypto input = .ok event ∧
        recording.TripsR13 event ∧
        recording.ingest crypto input nowMs = (recording.markBroken, .error .broken)) ∨
      ∃ reason, reason ≠ .broken ∧
        recording.ingest crypto input nowMs = (recording, .error reason) := by
  by_cases broken : recording.broken = true
  · exact Or.inr (Or.inr ⟨.alreadyBroken, by simp, by rw [ingest, if_pos broken]⟩)
  · have sound : recording.broken = false := by simpa using broken
    cases parsed : SignedEvent.parse crypto input with
    | error reason =>
      refine Or.inr (Or.inr ⟨.malformed reason, by simp, ?_⟩)
      rw [ingest, if_neg broken, parsed]
    | ok event =>
      have ends : recording.ingest crypto input nowMs = recording.ingestEvent event nowMs := by
        rw [ingest, if_neg broken, parsed]
      rw [ends]
      rcases recording.ingestEvent_cases event nowMs with
        ⟨after, admits, equal⟩ | ⟨trips, equal⟩ | ⟨reason, other, _, equal⟩
      · exact Or.inl ⟨event, after, sound, rfl, admits, equal⟩
      · exact Or.inr (Or.inl ⟨event, sound, rfl, trips, equal⟩)
      · exact Or.inr (Or.inr ⟨reason, other, equal⟩)

/-- A call that answers `Ok` stored the event it parsed. -/
theorem ingest_ok {crypto : Crypto} {input : Bytes}
    (accepted : (recording.ingest crypto input nowMs).2 = .ok id) :
    ∃ event after, recording.broken = false ∧ SignedEvent.parse crypto input = .ok event ∧
      recording.Admits event nowMs after ∧ id = event.eventId ∧
      (recording.ingest crypto input nowMs).1 = recording.store event after := by
  rcases recording.ingest_cases crypto input nowMs with
    ⟨event, after, sound, parsed, admits, equal⟩ | ⟨event, _, _, _, equal⟩ | ⟨reason, _, equal⟩
  · rw [equal] at accepted
    cases accepted
    exact ⟨event, after, sound, parsed, admits, rfl, by rw [equal]⟩
  · rw [equal] at accepted
    cases accepted
  · rw [equal] at accepted
    cases accepted

theorem ingest_of_admits {crypto : Crypto} {input : Bytes} (sound : recording.broken = false)
    (parsed : SignedEvent.parse crypto input = .ok event)
    (admits : recording.Admits event nowMs standing) :
    recording.ingest crypto input nowMs = (recording.store event standing, .ok event.eventId) := by
  rw [ingest, if_neg (by simp [sound]), parsed]
  change recording.ingestEvent event nowMs = _
  rw [ingestEvent, checkEvent_eq_ok.mpr admits]

theorem ingest_of_tripsR13 {crypto : Crypto} {input : Bytes} (sound : recording.broken = false)
    (parsed : SignedEvent.parse crypto input = .ok event) (trips : recording.TripsR13 event) :
    recording.ingest crypto input nowMs = (recording.markBroken, .error .broken) := by
  rw [ingest, if_neg (by simp [sound]), parsed]
  change recording.ingestEvent event nowMs = _
  rw [ingestEvent, checkEvent_eq_broken.mpr trips]
  rfl

/-- An event that some rule refuses is refused, whatever refuses it. -/
theorem ingest_error_of_not_admits {crypto : Crypto} {input : Bytes}
    (parsed : SignedEvent.parse crypto input = .ok event)
    (refused : ∀ after, ¬recording.Admits event nowMs after) :
    ∃ reason, (recording.ingest crypto input nowMs).2 = .error reason := by
  rcases recording.ingest_cases crypto input nowMs with
    ⟨other, after, _, alsoParsed, admits, _⟩ | ⟨_, _, _, _, equal⟩ | ⟨reason, _, equal⟩
  · rw [parsed] at alsoParsed
    cases alsoParsed
    exact absurd admits (refused after)
  · exact ⟨.broken, by rw [equal]⟩
  · exact ⟨reason, by rw [equal]⟩

/-! ### The stored event -/

@[simp] theorem store_toStanding : (recording.store event standing).toStanding = standing := rfl

@[simp] theorem store_visit : (recording.store event standing).visit = recording.visit := rfl

@[simp] theorem store_host : (recording.store event standing).host = recording.host := rfl

@[simp] theorem store_broken : (recording.store event standing).broken = recording.broken := rfl

@[simp] theorem lookup_store_slots : (recording.store event standing).slots.lookup seq =
    if seq = event.envelope.seq then some (.event ⟨event⟩) else recording.slots.lookup seq :=
  HashMap.lookup_put _ _ _ _

theorem ids_store : (recording.store event standing).ids =
    recording.ids.put event.envelope.seq event.eventId :=
  HashMap.mapValues_put _ _ _ _

theorem get_store : (recording.store event standing).get seq =
    if seq = event.envelope.seq then some ⟨event⟩ else recording.get seq := by
  unfold get
  rw [lookup_store_slots]
  split_ifs <;> rfl

/-! ## Drops -/

/-- `after` is `before` with the live slots among `gone` turned into tombstones. -/
structure DropsTo (before after : Recording) (gone : UInt64 → Prop) : Prop where
  standing : after.toStanding = before.toStanding
  visit : after.visit = before.visit
  host : after.host = before.host
  reactionsAdded : after.reactionsAdded = before.reactionsAdded
  broken : after.broken = before.broken
  ids : after.ids = before.ids
  dropped : ∀ seq, gone seq →
    after.slots.lookup seq = (before.slots.lookup seq).map (Slot.drop seq)
  kept : ∀ seq, ¬gone seq → after.slots.lookup seq = before.slots.lookup seq

namespace DropsTo

variable {before middle after : Recording} {gone more : UInt64 → Prop}

theorem refl (recording : Recording) : DropsTo recording recording fun _ => False :=
  ⟨rfl, rfl, rfl, rfl, rfl, rfl, fun _ absurd => absurd.elim, fun _ _ => rfl⟩

theorem trans (first : DropsTo before middle gone) (second : DropsTo middle after more) :
    DropsTo before after fun seq => gone seq ∨ more seq where
  standing := second.standing.trans first.standing
  visit := second.visit.trans first.visit
  host := second.host.trans first.host
  reactionsAdded := second.reactionsAdded.trans first.reactionsAdded
  broken := second.broken.trans first.broken
  ids := second.ids.trans first.ids
  dropped := by
    intro seq either
    by_cases later : more seq
    · rw [second.dropped seq later]
      by_cases earlier : gone seq
      · rw [first.dropped seq earlier, Option.map_map]
        congr 1
        funext slot
        exact Slot.drop_drop seq slot
      · rw [first.kept seq earlier]
    · rw [second.kept seq later, first.dropped seq (either.resolve_right later)]
  kept := by
    intro seq neither
    rw [second.kept seq (fun later => neither (Or.inr later)),
      first.kept seq (fun earlier => neither (Or.inl earlier))]

theorem congr_gone (same : ∀ seq, gone seq ↔ more seq) (drops : DropsTo before after gone) :
    DropsTo before after more := by
  have equal : gone = more := funext fun seq => propext (same seq)
  rwa [equal] at drops

/-- A slot after a drop holds the live event it held, or a tombstone with its id. -/
theorem get_eq_some (drops : DropsTo before after gone) {seq : UInt64} {stored : StoredEvent} :
    after.get seq = some stored ↔ before.get seq = some stored ∧ ¬gone seq := by
  rw [Recording.get_eq_some, Recording.get_eq_some]
  by_cases isGone : gone seq
  · rw [drops.dropped seq isGone]
    cases before.slots.lookup seq with
    | none => simp
    | some slot => cases slot <;> simp [Slot.drop, isGone]
  · rw [drops.kept seq isGone]
    simp [isGone]

theorem seqOf (drops : DropsTo before after gone) (id : EventId) :
    after.seqOf id = before.seqOf id := by
  rw [seqOf_eq_findKey, seqOf_eq_findKey, drops.ids]

end DropsTo

theorem get_insertTombstone {other : UInt64} : (recording.insertTombstone seq id).get other =
    if other = seq then none else recording.get other := by
  unfold get insertTombstone
  dsimp only
  rw [HashMap.lookup_put]
  split_ifs <;> rfl

theorem ids_insertTombstone :
    (recording.insertTombstone seq id).ids = recording.ids.put seq id :=
  HashMap.mapValues_put _ _ _ _

theorem dropsTo_dropSlot (state : Recording × Nat) (seq : UInt64) :
    DropsTo state.1 (dropSlot state seq).1 fun other => other = seq := by
  unfold dropSlot
  cases live : state.1.get seq with
  | none =>
    refine ⟨rfl, rfl, rfl, rfl, rfl, rfl, ?_, fun _ _ => rfl⟩
    rintro other rfl
    -- Nothing live here: the slot is vacant, or a tombstone that stays.
    cases here : state.1.slots.lookup other with
    | none => simp
    | some slot =>
      cases slot with
      | event stored =>
        rw [Recording.get_eq_some.mpr here] at live
        cases live
      | tombstone dropped => simp [Slot.drop]
  | some stored =>
    have here := Recording.get_eq_some.mp live
    refine ⟨rfl, rfl, rfl, rfl, rfl, ?_, ?_, ?_⟩
    · have held : state.1.ids.lookup seq = some stored.event.eventId := by
        rw [lookup_ids, here]
        rfl
      exact ids_insertTombstone.trans (HashMap.put_of_lookup held)
    · rintro other rfl
      rw [here]
      exact (HashMap.lookup_put _ _ _ _).trans (if_pos rfl)
    · intro other differs
      exact (HashMap.lookup_put _ _ _ _).trans (if_neg differs)

theorem dropsTo_foldl_dropSlot (targets : List UInt64) (state : Recording × Nat) :
    DropsTo state.1 (targets.foldl dropSlot state).1 fun seq => seq ∈ targets := by
  induction targets generalizing state with
  | nil => exact (DropsTo.refl state.1).congr_gone (by simp)
  | cons target rest ih =>
      rw [List.foldl_cons]
      exact ((dropsTo_dropSlot state target).trans (ih _)).congr_gone
        (by simp)

theorem dropRequestAt_eq_some {dropRequest : DropRequest} :
    recording.dropRequestAt id = some (seq, dropRequest) ↔
      recording.seqOf id = some seq ∧
        ∃ stored, recording.get seq = some stored ∧ stored.event.body = .dropRequest dropRequest := by
  unfold dropRequestAt
  constructor
  · intro found
    split at found
    · cases found
    · next requestSeq held =>
      split at found
      · cases found
      · next stored live =>
        split at found
        · next body =>
          cases found
          exact ⟨held, stored, live, body⟩
        · cases found
  · rintro ⟨held, stored, live, body⟩
    rw [held]
    dsimp only
    rw [live]
    dsimp only
    rw [body]

/-- An honoured drop-request is live in the recording, and its targets are gone. -/
theorem honourDropRequest_ok {after : Recording} {count : Nat}
    (honoured : recording.honourDropRequest id = .ok (after, count)) :
    ∃ requestSeq dropRequest, recording.dropRequestAt id = some (requestSeq, dropRequest) ∧
      DropsTo recording after fun seq => seq ∈ recording.dropTargets requestSeq dropRequest := by
  unfold honourDropRequest at honoured
  split at honoured
  · cases honoured
  · next requestSeq dropRequest found =>
    have drops := dropsTo_foldl_dropSlot (recording.dropTargets requestSeq dropRequest)
      (recording, 0)
    have equal := Except.ok.inj honoured
    rw [equal] at drops
    exact ⟨requestSeq, dropRequest, found, drops⟩

theorem mem_dropTargets {requestSeq : UInt64} {dropRequest : DropRequest} :
    seq ∈ recording.dropTargets requestSeq dropRequest ↔
      if dropRequest.scope = 0 then seq ≠ requestSeq ∧ (recording.get seq).isSome
      else ∃ targets, dropRequest.targets = some targets ∧
        ∃ target ∈ targets, recording.seqOf (.fromBytes target) = some seq := by
  unfold dropTargets
  split_ifs with whole
  · simp only [List.mem_filter, decide_eq_true_eq]
    constructor
    · exact fun held => held.2
    · rintro ⟨other, live⟩
      refine ⟨?_, other, live⟩
      obtain ⟨stored, here⟩ := Option.isSome_iff_exists.mp live
      have found := Recording.get_eq_some.mp here
      exact AList.mem_keys.mp (AList.lookup_isSome.mp (by simp [found]))
  · cases dropRequest.targets <;> simp

end Recording

end Mosschat.Core
