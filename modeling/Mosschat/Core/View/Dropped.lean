import Mosschat.Core.Recording.Spoiled
import Mosschat.Core.View.Restart

/-!
Owns the restart of a house that honours drop-requests. The replay offers the
surviving request again, to a recording in which what it needs is gone, so a house
that has honoured one is never read back. A house that has honoured none, whose
visit is not broken, is read back to the recording it has.
-/

namespace Mosschat.Core

open Mosschat.Library Mosschat.Library.Cbor

/-! ## The recording a replay has reached -/

namespace View

variable {crypto : Crypto} {live middle after : Recording} {seq : UInt64} {nowMs : UInt64}
  {count : Nat} {slot : Slot}

/-- A recording reached while the rows of `live` are replayed: its slots are among
those of `live`, and whoever has joined did so by an event it holds. -/
structure Within (live middle : Recording) : Prop where
  slots : ∀ seq slot, middle.slots.lookup seq = some slot → live.slots.lookup seq = some slot
  joins : ∀ person record, record ∈ middle.joinsOf person →
    ∃ stored join, middle.get record.seq = some stored ∧ stored.event.body = .join join

theorem Within.get (within : Within live middle) {stored : StoredEvent}
    (held : middle.get seq = some stored) : live.get seq = some stored :=
  Recording.get_eq_some.mpr (within.slots seq _ (Recording.get_eq_some.mp held))

theorem Within.ids (within : Within live middle) {id : EventId}
    (held : middle.ids.lookup seq = some id) : live.ids.lookup seq = some id := by
  rw [Recording.lookup_ids] at held ⊢
  obtain ⟨slot, here, rfl⟩ := Option.map_eq_some_iff.mp held
  rw [within.slots seq slot here]
  rfl

/-- The event of a live slot, admitted again. -/
theorem Within.store (within : Within live middle) {stored : StoredEvent} {standing : Standing}
    (isLive : live.get stored.event.envelope.seq = some stored)
    (admits : middle.Admits stored.event nowMs standing) :
    Within live (middle.store stored.event standing) where
  slots := by
    intro seq slot held
    rw [Recording.lookup_store_slots] at held
    split_ifs at held with here
    · cases held
      rw [here]
      exact Recording.get_eq_some.mp isLive
    · exact within.slots seq slot held
  joins := by
    intro person record member
    rcases (Recording.applyBody_eq_ok.mp admits.ruled).mem_joinsOf member with
      ⟨join, body, _, rfl⟩ | ⟨old, oldMember, same, _⟩
    · refine ⟨stored, join, ?_, body⟩
      rw [Recording.get_store, if_pos rfl]
    · have sameSeq : record.seq = old.seq := by
        rcases same with rfl | rfl <;> rfl
      obtain ⟨joined, join, held, body⟩ := within.joins person old oldMember
      rw [sameSeq, Recording.get_store]
      split_ifs with here
      · -- Joined by the very event that is stored again.
        have wasLive := within.get held
        rw [here, isLive] at wasLive
        cases wasLive
        exact ⟨stored, join, rfl, body⟩
      · exact ⟨joined, join, held, body⟩

theorem Within.insertTombstone (within : Within live middle) {dropped : Tombstone}
    (isTombstone : live.tombstoneAt seq = some dropped) (placed : dropped.seq = seq) :
    Within live (middle.insertTombstone seq dropped.eventId) where
  slots := by
    intro other slot held
    change (middle.slots.put seq (.tombstone ⟨seq, dropped.eventId⟩)).lookup other = _ at held
    rw [HashMap.lookup_put] at held
    split_ifs at held with here
    · cases held
      subst placed
      rw [here]
      exact Recording.tombstoneAt_eq_some.mp isTombstone
    · exact within.slots other slot held
  joins := by
    intro person record member
    obtain ⟨joined, join, held, body⟩ := within.joins person record member
    refine ⟨joined, join, ?_, body⟩
    rw [Recording.get_insertTombstone]
    split_ifs with here
    · have wasLive := Recording.get_eq_some.mp (within.get held)
      rw [here, Recording.tombstoneAt_eq_some.mp isTombstone] at wasLive
      cases wasLive
    · exact held

/-- Replaying the row of a slot keeps the recording within `live`. -/
theorem Within.replayRow (within : Within live middle) (formed : live.WellFormed crypto count)
    (reparses : live.Reparses crypto) (here : live.slots.lookup seq = some slot)
    (replayed : replayRow crypto nowMs middle (seq, slot.row) = .ok after) :
    Within live after := by
  cases slot with
  | event stored =>
    have isLive : live.get seq = some stored := Recording.get_eq_some.mpr here
    have sameSeq := (formed.placed seq stored isLive).1
    rcases middle.ingest_cases crypto stored.event.toBytes nowMs with
      ⟨event, standing, _, parsed, admits, equal⟩ | ⟨_, _, _, _, equal⟩ | ⟨_, _, equal⟩
    · rw [reparses seq stored isLive] at parsed
      cases parsed
      simp only [View.replayRow, Slot.row, equal] at replayed
      cases replayed
      exact within.store (sameSeq ▸ isLive) admits
    · simp only [View.replayRow, Slot.row, equal] at replayed
      cases replayed
    · simp only [View.replayRow, Slot.row, equal] at replayed
      cases replayed
  | tombstone dropped =>
    cases replayed
    have isTombstone := Recording.tombstoneAt_eq_some.mpr here
    exact within.insertTombstone isTombstone (formed.tombstones seq dropped isTombstone)

/-- The row of a spoiled drop-request is refused from any such recording. -/
theorem Within.replayRow_of_spoiled (within : Within live middle)
    (formed : live.WellFormed crypto count) (reparses : live.Reparses crypto)
    (distinct : live.Distinct) {stored : StoredEvent} {dropRequest : DropRequest}
    (isLive : live.get seq = some stored) (body : stored.event.body = .dropRequest dropRequest)
    (spoils : live.Spoils seq dropRequest) :
    ∃ reason, View.replayRow crypto nowMs middle (seq, Slot.row (.event stored)) =
      .error reason := by
  apply replayRow_of_not_admits seq (reparses seq stored isLive)
  intro standing admits
  rcases spoils with ⟨targets, named, target, member, lower, dropped, held, tombstone⟩ | nothing
  · -- A target that is owned is live, and this one is a tombstone.
    have ruled := Recording.applyBody_eq_ok.mp admits.ruled
    unfold Recording.Ruled at ruled
    rw [body] at ruled
    obtain ⟨found, owned, foundAt, ownedLive, _⟩ :=
      Recording.ownsTarget_eq_true.mp (ruled.1 targets named target member)
    have same : found = lower :=
      distinct found lower _ (within.ids (Recording.lookup_ids_of_seqOf foundAt)) held
    have alsoLive := Recording.get_eq_some.mp (within.get ownedLive)
    rw [same, Recording.tombstoneAt_eq_some.mp tombstone] at alsoLive
    cases alsoLive
  · -- An active author has joined, by an event live below the request.
    have joined : ∃ person, ∃ record ∈ middle.joinsOf person,
        record.seq ≤ stored.event.envelope.seq := by
      have active := admits.authored.active (by rw [body]; rfl)
      rcases Standing.authorStatus_eq_active.mp active with
        ⟨person, record, member, ⟨reached, _⟩, _⟩ | ⟨_, person, _, record, member, reached, _⟩
      · exact ⟨person, record, member, reached⟩
      · exact ⟨person, record, member, reached⟩
    obtain ⟨person, record, member, reached⟩ := joined
    rw [(formed.placed seq stored isLive).1] at reached
    obtain ⟨joining, join, held, isJoin⟩ := within.joins person record member
    have wasLive := within.get held
    by_cases isRequest : record.seq = seq
    · rw [isRequest, isLive] at wasLive
      cases wasLive
      rw [body] at isJoin
      cases isJoin
    · rw [nothing record.seq (UInt64.lt_of_le_of_ne reached isRequest)] at wasLive
      cases wasLive

end View

namespace House

variable {crypto : Crypto} {house : House} {calls : List Call} {input : Call} {nowMs : UInt64}
  {visit host : Bytes32} {start : Recording}

/-! ## What is accepted is appended, or has its row -/

/-- What is accepted is appended, unless its row is in the store; and what is honoured is
honoured in the store. -/
def Appended (crypto : Crypto) (house : House) : Call → Prop
  | .ingest bytes nowMs => ∀ event,
      house.recording.acceptedBy crypto (.ingest bytes nowMs) = some event →
        (∃ after, house.store.appendEvent house.recording.visit event.envelope.seq
          event.eventId.asBytes event.toBytes = .ok after) ∨
        house.store.getEvent house.recording.visit event.envelope.seq =
          some (Slot.row (.event ⟨event⟩))
  | .honourDropRequest request => house.InStep crypto (.honourDropRequest request)

theorem InStep.appended (inStep : house.InStep crypto input) : house.Appended crypto input := by
  cases input with
  | ingest bytes nowMs => exact fun event accepted => Or.inl (inStep event accepted)
  | honourDropRequest request => exact inStep

/-- The call is in step, or stores an event again whose row is in the store. -/
theorem Appended.cases (appended : house.Appended crypto input) :
    house.InStep crypto input ∨ ∃ bytes clock event after, input = .ingest bytes clock ∧
      house.recording.acceptedBy crypto input = some event ∧
      SignedEvent.parse crypto bytes = .ok event ∧ house.recording.Admits event clock after ∧
      house.store.getEvent house.recording.visit event.envelope.seq =
        some (Slot.row (.event ⟨event⟩)) ∧
      house.call crypto input = ⟨house.recording.store event after, house.store⟩ := by
  cases input with
  | honourDropRequest request => exact Or.inl appended
  | ingest bytes nowMs =>
    by_cases inStep : house.InStep crypto (.ingest bytes nowMs)
    · exact Or.inl inStep
    · unfold InStep at inStep
      push Not at inStep
      obtain ⟨event, accepted, refused⟩ := inStep
      have present := (appended event accepted).resolve_left fun ⟨after, kept⟩ => refused after kept
      obtain ⟨_, _, after, same, _, parsed, admits, stored⟩ :=
        Recording.acceptedBy_eq_some.mp accepted
      cases same
      refine Or.inr ⟨bytes, nowMs, event, after, rfl, accepted, parsed, admits, present, ?_⟩
      have unchanged : house.keep event = house.store := by
        unfold keep
        split
        · next appendedStore kept => exact absurd kept (refused appendedStore)
        · rfl
      simp only [call, accepted, stored, unchanged]

/-! ## A house that has honoured a drop-request -/

/-- What calls in step keep, whether they ingest or honour. -/
structure Traced (crypto : Crypto) (calls : List Call) (start : Recording) (house : House) :
    Prop where
  opened : Recording.new house.recording.visit house.recording.host = .ok start
  mirrors : ∃ count, house.Mirrors crypto count
  sourced : Recording.Sourced crypto calls house.recording
  reparses : house.recording.Reparses crypto
  below : house.recording.TargetsBelow

/-- Every held seq is below the next. -/
theorem lt_of_next {count : Nat} {seq next : UInt64} {id : EventId}
    (mirrors : house.Mirrors crypto count) (isNext : next.toNat = count)
    (held : house.recording.ids.lookup seq = some id) : seq < next := by
  have inside := (mirrors.formed.dense.occupied seq).mp ⟨id, held⟩
  rw [UInt64.lt_iff_toNat_lt]
  omega

theorem traced_inStep (traced : house.Traced crypto calls start)
    (inStep : house.InStep crypto input) (member : input ∈ calls) :
    (house.call crypto input).Traced crypto calls start := by
  obtain ⟨count, mirrors⟩ := traced.mirrors
  have mirrorsAfter := mirrors.call inStep
  obtain ⟨sameVisit, sameHost⟩ := call_fixed mirrors inStep
  have opened : Recording.new (house.call crypto input).recording.visit
      (house.call crypto input).recording.host = .ok start := by
    rw [sameVisit, sameHost]
    exact traced.opened
  rcases call_cases mirrors inStep with
    ⟨bytes, clock, event, after, known, rfl, _, parsed, _, admits, _, next, equal⟩ |
      ⟨_, _, rfl, _, equal | equal⟩ | ⟨_, _, _, _, rfl, _, drops, _, _⟩
  · rw [equal] at opened mirrorsAfter ⊢
    have parsedAgain : SignedEvent.parse crypto event.toBytes = .ok event := by
      rw [SignedEvent.toBytes_of_parse parsed]
      exact parsed
    exact ⟨opened, mirrorsAfter, traced.sourced.store ⟨bytes, clock, member, parsed⟩,
      traced.reparses.store parsedAgain,
      traced.below.store admits fun _ _ => lt_of_next mirrors next⟩
  · rw [equal]
    exact traced
  · rw [equal] at opened mirrorsAfter ⊢
    exact ⟨opened, mirrorsAfter, traced.sourced, traced.reparses, traced.below⟩
  · exact ⟨opened, mirrorsAfter, traced.sourced.dropsTo drops, traced.reparses.dropsTo drops,
      traced.below.dropsTo drops⟩

/-- An event whose row is in the store is live, and stored again leaves every slot as it was. -/
theorem Traced.lookup_slots_again (traced : house.Traced crypto calls start) {bytes : Bytes}
    {event : SignedEvent} (standing : Standing)
    (parsed : SignedEvent.parse crypto bytes = .ok event)
    (present : house.store.getEvent house.recording.visit event.envelope.seq =
      some (Slot.row (.event ⟨event⟩))) (seq : UInt64) :
    (house.recording.store event standing).slots.lookup seq =
      house.recording.slots.lookup seq := by
  obtain ⟨count, mirrors⟩ := traced.mirrors
  have parsedAgain : SignedEvent.parse crypto event.toBytes = .ok event := by
    rw [SignedEvent.toBytes_of_parse parsed]
    exact parsed
  rw [mirrors.rows] at present
  obtain ⟨slot, here, sameRow⟩ := Option.map_eq_some_iff.mp present
  cases slot with
  | tombstone dropped => cases congrArg StoredRow.eventBytes sameRow
  | event stored =>
      have sameBytes := Option.some.inj (congrArg StoredRow.eventBytes sameRow)
      exact traced.reparses.store_again parsedAgain (Recording.get_eq_some.mpr here) sameBytes seq

theorem traced_call (traced : house.Traced crypto calls start)
    (appended : house.Appended crypto input) (member : input ∈ calls) :
    (house.call crypto input).Traced crypto calls start := by
  rcases appended.cases with inStep | ⟨bytes, clock, event, after, rfl, _, parsed, admits, present,
    equal⟩
  · exact traced_inStep traced inStep member
  · have same := traced.lookup_slots_again after parsed present
    have parsedAgain : SignedEvent.parse crypto event.toBytes = .ok event := by
      rw [SignedEvent.toBytes_of_parse parsed]
      exact parsed
    obtain ⟨count, mirrors⟩ := traced.mirrors
    rw [equal]
    refine ⟨traced.opened, ⟨_, mirrors.formed.store (SignedEvent.parsed_of_parse parsed) admits,
      mirrors.known, ?_⟩, traced.sourced.store ⟨bytes, clock, member, parsed⟩,
      traced.reparses.store parsedAgain, traced.below.of_sameSlots same⟩
    intro seq
    rw [same]
    exact mirrors.rows seq

theorem traced_opened {openedMs : UInt64} {before store : Store} (calls : List Call)
    (opened : Recording.new visit host = .ok start)
    (openedStore : before.openVisit visit host openedMs = .ok store) :
    Traced crypto calls start ⟨start, store⟩ := by
  have mirrors : Mirrors crypto ⟨start, store⟩ 0 := mirrors_opened opened openedStore
  have vacant := Recording.get_new opened
  refine ⟨?_, ⟨0, mirrors⟩, Recording.sourced_new opened calls, ?_, ?_⟩
  · obtain ⟨_, equal⟩ := Recording.new_eq_ok opened
    rw [equal] at opened ⊢
    exact opened
  · intro seq stored live
    rw [vacant] at live
    cases live
  · intro seq stored dropRequest targets target live
    rw [vacant] at live
    cases live

/-- Some drop-request that is live in the house cannot be read back. -/
def Doomed (house : House) : Prop := ∃ seq, house.recording.Spoiled seq

theorem Traced.distinct (traced : house.Traced crypto calls start)
    (collisionFree : Recording.CollisionFree crypto calls) : house.recording.Distinct :=
  fun _ _ _ left right => traced.sourced.distinct collisionFree left right

theorem doomed_of_honoured (traced : house.Traced crypto calls start)
    (collisionFree : Recording.CollisionFree crypto calls) {request : EventId}
    (inStep : house.InStep crypto (.honourDropRequest request)) :
    (house.call crypto (.honourDropRequest request)).Doomed := by
  obtain ⟨count, mirrors⟩ := traced.mirrors
  rcases call_cases mirrors inStep with
    ⟨_, _, _, _, _, same, _⟩ | ⟨_, _, same, _⟩ |
      ⟨_, requestSeq, dropRequest, _, _, found, drops, _, _⟩
  · cases same
  · cases same
  · exact ⟨requestSeq, Recording.spoiled_of_dropsTo mirrors.formed
      (traced.distinct collisionFree) traced.below found drops⟩

theorem doomed_call (traced : house.Traced crypto calls start)
    (collisionFree : Recording.CollisionFree crypto calls)
    (appended : house.Appended crypto input) (doomed : house.Doomed) :
    (house.call crypto input).Doomed := by
  obtain ⟨count, mirrors⟩ := traced.mirrors
  obtain ⟨seq, spoiled⟩ := doomed
  rcases appended.cases with inStep | ⟨_, _, event, after, _, _, parsed, _, present, equal⟩
  · rcases call_cases mirrors inStep with
      ⟨_, _, event, after, _, _, _, _, _, admits, _, next, equal⟩ | ⟨_, _, _, _, equal | equal⟩ |
        ⟨request, _, _, _, rfl, _⟩
    · rw [equal]
      exact ⟨seq, spoiled.store admits.linked fun _ _ => lt_of_next mirrors next⟩
    · rw [equal]
      exact ⟨seq, spoiled⟩
    · rw [equal]
      exact ⟨seq, spoiled⟩
    · exact doomed_of_honoured traced collisionFree inStep
  · rw [equal]
    exact ⟨seq, spoiled.of_sameSlots (traced.lookup_slots_again after parsed present)⟩

/-- A doomed house is not read back, whatever the clock. -/
theorem rebuilt_of_doomed (traced : house.Traced crypto calls start)
    (collisionFree : Recording.CollisionFree crypto calls) (doomed : house.Doomed)
    (nowMs : UInt64) : ∃ reason, house.rebuilt crypto nowMs = .error reason := by
  obtain ⟨count, mirrors⟩ := traced.mirrors
  obtain ⟨seq, stored, dropRequest, isLive, body, spoils⟩ := doomed
  have rowOf : ∀ seq row, (seq, row) ∈ house.store.eventsForVisit house.recording.visit ↔
      (house.recording.slots.lookup seq).map Slot.row = some row := by
    intro seq row
    rw [Store.mem_eventsForVisit, mirrors.rows]
  have preserved : ∀ middle other after,
      other ∈ house.store.eventsForVisit house.recording.visit →
      View.Within house.recording middle → View.replayRow crypto nowMs middle other = .ok after →
      View.Within house.recording after := by
    rintro middle ⟨otherSeq, row⟩ after inRows within replayed
    obtain ⟨slot, here, rfl⟩ := Option.map_eq_some_iff.mp ((rowOf otherSeq row).mp inRows)
    exact within.replayRow mirrors.formed traced.reparses here replayed
  have fails : ∀ middle, View.Within house.recording middle →
      ∃ reason, View.replayRow crypto nowMs middle (seq, Slot.row (.event stored)) =
        .error reason := by
    intro middle within
    exact within.replayRow_of_spoiled mirrors.formed traced.reparses
      (traced.distinct collisionFree) isLive body spoils
  have isRow : (seq, Slot.row (.event stored)) ∈
      house.store.eventsForVisit house.recording.visit := by
    rw [rowOf, Recording.get_eq_some.mp isLive]
    rfl
  have initial : View.Within house.recording start := by
    obtain ⟨_, rfl⟩ := Recording.new_eq_ok traced.opened
    constructor
    · intro seq slot held
      cases held
    · intro person record member
      cases member
  unfold rebuilt
  rw [View.recordingFromStore_eq traced.opened]
  exact Machine.foldlM_error_of_mem preserved fails isRow initial

theorem run_traced {openedMs : UInt64} {before store : Store}
    (opened : Recording.new visit host = .ok start)
    (openedStore : before.openVisit visit host openedMs = .ok store)
    (appended : Machine.Guarded (call crypto) (Appended crypto) ⟨start, store⟩ calls) :
    (Machine.run (call crypto) ⟨start, store⟩ calls).Traced crypto calls start := by
  have initial : Traced crypto calls start ⟨start, store⟩ := traced_opened calls opened openedStore
  have domain := Machine.guarded_and.mpr ⟨appended, Machine.guarded_mem _ calls⟩
  exact Machine.run_preserves (fun _ _ traced both => traced_call traced both.1 both.2) initial
    domain

/-- A run that has honoured a drop-request leaves a house that is never read back. -/
theorem rebuilt_of_honoured {openedMs : UInt64} {before store : Store} {request : EventId}
    (opened : Recording.new visit host = .ok start)
    (openedStore : before.openVisit visit host openedMs = .ok store)
    (appended : Machine.Guarded (call crypto) (Appended crypto) ⟨start, store⟩ calls)
    (collisionFree : Recording.CollisionFree crypto calls)
    (honoured : Call.honourDropRequest request ∈ calls) (nowMs : UInt64) :
    ∃ reason,
      (Machine.run (call crypto) ⟨start, store⟩ calls).rebuilt crypto nowMs = .error reason := by
  have initial : Traced crypto calls start ⟨start, store⟩ := traced_opened calls opened openedStore
  have domain := Machine.guarded_and.mpr ⟨appended, Machine.guarded_mem _ calls⟩
  have preserved : ∀ (house : House) (input : Call), house.Traced crypto calls start →
      house.Appended crypto input ∧ input ∈ calls →
        (house.call crypto input).Traced crypto calls start :=
    fun _ _ traced both => traced_call traced both.1 both.2
  have brought : ∀ (house : House) (input : Call), house.Traced crypto calls start →
      house.Appended crypto input ∧ input ∈ calls → ¬input.IsIngest →
        (house.call crypto input).Doomed := by
    intro house input traced both isHonour
    cases input with
    | ingest bytes clock => exact absurd trivial isHonour
    | honourDropRequest request => exact doomed_of_honoured traced collisionFree both.1
  have stays : ∀ (house : House) (input : Call), house.Traced crypto calls start →
      house.Appended crypto input ∧ input ∈ calls → house.Doomed →
        (house.call crypto input).Doomed :=
    fun _ _ traced both doomed => doomed_call traced collisionFree both.1 doomed
  have doomed := Machine.run_reaches preserved brought stays initial domain honoured id
  exact rebuilt_of_doomed (run_traced opened openedStore appended) collisionFree doomed nowMs

/-! ## A house that has honoured none -/

/-- The call leaves nothing that a replay would lose: it honours no drop-request,
R-13 does not break the visit over what it offers, no held event is accepted again,
and an accepted `seq` is not negative in its column. -/
def Quiet (crypto : Crypto) (house : House) : Call → Prop
  | .ingest bytes clock =>
    (∀ event, SignedEvent.parse crypto bytes = .ok event → ¬house.recording.TripsR13 event) ∧
      ∀ event, house.recording.acceptedBy crypto (.ingest bytes clock) = some event →
        house.recording.slots.lookup event.envelope.seq = none ∧
          event.envelope.seq.toNat < 2 ^ 63
  | .honourDropRequest _ => False

theorem Quiet.isIngest (quiet : house.Quiet crypto input) : input.IsIngest := by
  cases input with
  | ingest bytes clock => trivial
  | honourDropRequest request => exact quiet.elim

/-- At the clock of its own acceptance an event is replayable. -/
theorem Quiet.replayable (quiet : house.Quiet crypto input)
    (clock : ∀ bytes clock, input = .ingest bytes clock → clock = nowMs) :
    house.Replayable crypto nowMs input := by
  intro event accepted
  obtain ⟨bytes, ownClock, after, rfl, _, _, admits, _⟩ :=
    Recording.acceptedBy_eq_some.mp accepted
  obtain rfl : ownClock = nowMs := clock bytes ownClock rfl
  exact ⟨(quiet.2 event accepted).2, admits.authored.window⟩

/-- A quiet call whose event is appended, unless its row is there, is in step. -/
theorem Quiet.inStep {count : Nat} (quiet : house.Quiet crypto input)
    (appended : house.Appended crypto input) (mirrors : house.Mirrors crypto count) :
    house.InStep crypto input := by
  rcases appended.cases with inStep | ⟨bytes, clock, event, _, rfl, accepted, _, _, present, _⟩
  · exact inStep
  · rw [mirrors.rows, (quiet.2 event accepted).1] at present
    cases present

/-- A quiet call does not break a visit. -/
theorem Quiet.sound (quiet : house.Quiet crypto input) (sound : house.recording.broken = false) :
    (house.call crypto input).recording.broken = false := by
  cases input with
  | honourDropRequest request => exact quiet.elim
  | ingest bytes clock =>
    rw [call_recording]
    rcases house.recording.call_cases crypto (.ingest bytes clock) with
      ⟨_, _, event, after, _, _, _, _, equal⟩ | ⟨_, _, event, offered, _, parsed, trips, _⟩ |
        ⟨_, _, _, offered, _, _⟩ | equal
    · rw [equal]
      exact sound
    · cases offered
      exact absurd trips (quiet.1 event parsed)
    · cases offered
    · rw [equal]
      exact sound

/-- A quiet run at one clock is read back at that clock to the recording it left. -/
theorem rebuilt_of_quiet {openedMs : UInt64} {before store : Store}
    (opened : Recording.new visit host = .ok start)
    (openedStore : before.openVisit visit host openedMs = .ok store)
    (clocks : ∀ bytes clock, Call.ingest bytes clock ∈ calls → clock = nowMs)
    (appended : Machine.Guarded (call crypto) (Appended crypto) ⟨start, store⟩ calls)
    (quiet : Machine.Guarded (call crypto) (Quiet crypto) ⟨start, store⟩ calls) :
    (Machine.run (call crypto) ⟨start, store⟩ calls).rebuilt crypto nowMs =
      .ok (Machine.run (call crypto) ⟨start, store⟩ calls).recording := by
  have inStep : Machine.Guarded (call crypto) (InStep crypto) ⟨start, store⟩ calls := by
    have initial : ∃ count, Mirrors crypto ⟨start, store⟩ count :=
      ⟨0, mirrors_opened opened openedStore⟩
    have implied : ∀ (house : House) (input : Call), (∃ count, house.Mirrors crypto count) →
        house.Appended crypto input ∧ house.Quiet crypto input → house.InStep crypto input := by
      rintro house input ⟨count, mirrors⟩ ⟨appended, quiet⟩
      exact quiet.inStep appended mirrors
    refine Machine.guarded_imp ?_ implied initial (Machine.guarded_and.mpr ⟨appended, quiet⟩)
    rintro house input ⟨count, mirrors⟩ both
    exact mirrors.call (implied house input ⟨count, mirrors⟩ both)
  have offers : ∀ input ∈ calls, input.IsIngest :=
    Machine.forall_of_guarded (Machine.guarded_mono (fun _ _ quiet => quiet.isIngest) quiet)
  have replayable : Machine.Guarded (call crypto) (Replayable crypto nowMs) ⟨start, store⟩
      calls := by
    have domain := Machine.guarded_and.mpr ⟨quiet, Machine.guarded_mem _ calls⟩
    refine Machine.guarded_mono ?_ domain
    rintro house input ⟨quiet, member⟩
    apply quiet.replayable
    rintro bytes clock rfl
    exact clocks bytes clock member
  have sound : (Machine.run (call crypto) ⟨start, store⟩ calls).recording.broken = false := by
    have initial : start.broken = false := by
      obtain ⟨_, rfl⟩ := Recording.new_eq_ok opened
      rfl
    have preserved : ∀ (house : House) (input : Call), house.recording.broken = false →
        house.Quiet crypto input → (house.call crypto input).recording.broken = false :=
      fun _ _ sound quiet => quiet.sound sound
    exact Machine.run_preserves preserved initial quiet
  obtain ⟨kept, restarts⟩ :
      (Machine.run (call crypto) ⟨start, store⟩ calls).Kept crypto nowMs start ∧
        ((Machine.run (call crypto) ⟨start, store⟩ calls).Restarts crypto nowMs ↔ _) :=
    run_kept opened openedStore offers inStep
  obtain ⟨recording, found⟩ := restarts.mpr replayable
  have isLive := kept.faithful recording found
  rw [Recording.unbroken_eq_self sound] at isLive
  rw [found, isLive]

/-- The restart law, and where it ends. A run at one clock that honours nothing, never
breaks the visit, accepts no held event again and stays below seq 2^63 is read back to
a recording with the same section, which accepts the same events; a run that honours any
drop-request is not read back at all. -/
theorem restart_of_quiet_and_not_of_honoured {openedMs : UInt64} {before store : Store}
    (opened : Recording.new visit host = .ok start)
    (openedStore : before.openVisit visit host openedMs = .ok store) (calls : List Call)
    (nowMs : UInt64) (clocks : ∀ bytes clock, Call.ingest bytes clock ∈ calls → clock = nowMs)
    (appended : Machine.Guarded (call crypto) (Appended crypto) ⟨start, store⟩ calls) :
    (Machine.Guarded (call crypto) (Quiet crypto) ⟨start, store⟩ calls →
        ∃ recording,
          View.recordingFromStore crypto (Machine.run (call crypto) ⟨start, store⟩ calls).store
              visit host nowMs = .ok recording ∧
            visitSection recording =
              visitSection (Machine.run (call crypto) ⟨start, store⟩ calls).recording ∧
            ∀ bytes id, (recording.ingest crypto bytes nowMs).2 = .ok id ↔
              ((Machine.run (call crypto) ⟨start, store⟩ calls).recording.ingest crypto bytes
                nowMs).2 = .ok id) ∧
      (Recording.CollisionFree crypto calls →
        (∃ request, Call.honourDropRequest request ∈ calls) → ∀ clock, ∃ reason,
          View.recordingFromStore crypto (Machine.run (call crypto) ⟨start, store⟩ calls).store
              visit host clock = .error reason) := by
  have traced : (Machine.run (call crypto) ⟨start, store⟩ calls).Traced crypto calls start :=
    run_traced opened openedStore appended
  obtain ⟨sameVisit, sameHost⟩ := Recording.new_inj traced.opened opened
  constructor
  · intro quiet
    have found := rebuilt_of_quiet opened openedStore clocks appended quiet
    rw [rebuilt, sameVisit, sameHost] at found
    exact ⟨_, found, rfl, fun _ _ => Iff.rfl⟩
  · rintro collisionFree ⟨request, honoured⟩ clock
    have failed := rebuilt_of_honoured opened openedStore appended collisionFree honoured clock
    rwa [rebuilt, sameVisit, sameHost] at failed

/-! ## A dropped join -/

instance decidableQuiet (crypto : Crypto) (house : House) :
    (call : Call) → Decidable (house.Quiet crypto call)
  | .honourDropRequest _ => .isFalse id
  | .ingest bytes clock =>
    decidable_of_iff
      ((∀ event, SignedEvent.parse crypto bytes = .ok event →
          ¬house.recording.checkPlace event = .error .broken) ∧
        ∀ event ∈ house.recording.acceptedBy crypto (.ingest bytes clock),
          house.recording.slots.lookup event.envelope.seq = none ∧
            event.envelope.seq.toNat < 2 ^ 63)
      (by
        simp only [Recording.checkPlace_eq_broken]
        rfl)

/-- The host joins and asks for the join to be dropped, and the house declines. -/
def decliningCalls : List Call :=
  [.ingest openingJoin.toBytes 5, .ingest openingDrop.toBytes 5]

def droppedHouse : House :=
  Machine.run (call recordedCrypto) ⟨openedVisit, openedStore⟩ droppingCalls

theorem droppedHouse_checks :
    Machine.Guarded (call recordedCrypto) (InStep recordedCrypto) ⟨openedVisit, openedStore⟩
        droppingCalls ∧
      View.recordingFromStore recordedCrypto droppedHouse.store visitId hostKey 5 =
        .error (.ingest .unknownAuthor) ∧
      Machine.Guarded (call recordedCrypto) (InStep recordedCrypto) ⟨openedVisit, openedStore⟩
        decliningCalls ∧
      Machine.Guarded (call recordedCrypto) (Quiet recordedCrypto) ⟨openedVisit, openedStore⟩
        decliningCalls := by
  decide +kernel

/-- Every call is in step at clock 5, and at clock 5 the visit cannot be read back:
the author of the surviving request has not joined. -/
theorem droppedHouse_fails :
    Machine.Guarded (call recordedCrypto) (InStep recordedCrypto) ⟨openedVisit, openedStore⟩
        droppingCalls ∧
      View.recordingFromStore recordedCrypto droppedHouse.store visitId hostKey 5 =
        .error (.ingest .unknownAuthor) :=
  ⟨droppedHouse_checks.1, droppedHouse_checks.2.1⟩

/-- The house that declines is read back; the house that honours is not. -/
theorem restart_of_quiet_and_not_of_honoured_openingDrop :
    (∃ recording,
        View.recordingFromStore recordedCrypto
            (Machine.run (call recordedCrypto) ⟨openedVisit, openedStore⟩ decliningCalls).store
            visitId hostKey 5 = .ok recording ∧
          visitSection recording =
            visitSection (Machine.run (call recordedCrypto) ⟨openedVisit, openedStore⟩
              decliningCalls).recording ∧
          ∀ bytes id, (recording.ingest recordedCrypto bytes 5).2 = .ok id ↔
            ((Machine.run (call recordedCrypto) ⟨openedVisit, openedStore⟩
              decliningCalls).recording.ingest recordedCrypto bytes 5).2 = .ok id) ∧
      ∀ clock, ∃ reason,
        View.recordingFromStore recordedCrypto
            (Machine.run (call recordedCrypto) ⟨openedVisit, openedStore⟩ droppingCalls).store
            visitId hostKey clock = .error reason := by
  have collisionFree : Recording.CollisionFree recordedCrypto droppingCalls :=
    Recording.collisionFree_droppingRun.mono (List.subset_append_left _ _)
  have clocks : ∀ bytes clock, Call.ingest bytes clock ∈ droppingCalls → clock = 5 := by
    simp only [droppingCalls, List.mem_cons, Call.ingest.injEq, reduceCtorEq]
    tauto
  have decliningClocks : ∀ bytes clock, Call.ingest bytes clock ∈ decliningCalls → clock = 5 := by
    simp only [decliningCalls, List.mem_cons, Call.ingest.injEq]
    tauto
  obtain ⟨droppingInStep, -, decliningInStep, quiet⟩ := droppedHouse_checks
  constructor
  · exact (restart_of_quiet_and_not_of_honoured new_openedVisit openVisit_openedStore
      decliningCalls 5 decliningClocks (Machine.guarded_mono (fun _ _ inStep => inStep.appended)
        decliningInStep)).1 quiet
  · exact (restart_of_quiet_and_not_of_honoured new_openedVisit openVisit_openedStore
      droppingCalls 5 clocks (Machine.guarded_mono (fun _ _ inStep => inStep.appended)
        droppingInStep)).2 collisionFree
      ⟨openingDrop.eventId, by simp [droppingCalls]⟩

end House

end Mosschat.Core
