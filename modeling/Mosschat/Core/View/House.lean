import Mosschat.Core.Recording.WellFormed
import Mosschat.Core.View.Replay

/-!
Owns a house: one visit's recording and the store its events are kept in. An
accepted event is appended to the store, a drop-request is honoured in both, and
the rows stay the image of the slots.
-/

namespace Mosschat.Core

open Mosschat.Library Mosschat.Library.Cbor

structure House where
  recording : Recording
  store : Store

namespace House

/-- The store an accepted event leaves; an append that fails leaves it as it was. -/
def keep (house : House) (event : SignedEvent) : Store :=
  match house.store.appendEvent house.recording.visit event.envelope.seq
    event.eventId.asBytes event.toBytes with
  | .ok after => after
  | .error _ => house.store

def call (crypto : Crypto) (house : House) : Call → House
  | .ingest bytes nowMs =>
    match house.recording.acceptedBy crypto (.ingest bytes nowMs) with
    | some event => ⟨house.recording.call crypto (.ingest bytes nowMs), house.keep event⟩
    | none => ⟨house.recording.call crypto (.ingest bytes nowMs), house.store⟩
  | .honourDropRequest request =>
    let honoured :=
      View.honourDropRequest house.store house.recording.visit house.recording request
    ⟨honoured.1, honoured.2.1⟩

/-- What is accepted is appended, and what is honoured is honoured in the store. -/
def InStep (crypto : Crypto) (house : House) : Call → Prop
  | .ingest bytes nowMs => ∀ event,
      house.recording.acceptedBy crypto (.ingest bytes nowMs) = some event →
        ∃ after, house.store.appendEvent house.recording.visit event.envelope.seq
          event.eventId.asBytes event.toBytes = .ok after
  | .honourDropRequest request => ∃ tombstoned,
      (View.honourDropRequest house.store house.recording.visit house.recording
        request).2.2 = .ok tombstoned

end House

/-- The row a slot is kept in. -/
def Slot.row : Slot → StoredRow
  | .event stored => ⟨some stored.event.toBytes, stored.event.eventId.asBytes⟩
  | .tombstone dropped => ⟨none, dropped.eventId.asBytes⟩

/-! ## Tombstones in the store -/

namespace View

variable {store after : Store} {visit : Bytes32} {seq : UInt64} {seqs : List UInt64}

/-- A loop that comes to its end has tombstoned the rows of its list and no others. -/
theorem tombstoneEach_eq_ok
    (ended : tombstoneEach (fun store seq => store.tombstoneEvent visit seq) store seqs =
      (after, .ok ())) :
    after.visits = store.visits ∧ ∀ seq, after.getEvent visit seq =
      if seq ∈ seqs then
        (store.getEvent visit seq).map fun row => { row with eventBytes := none }
      else store.getEvent visit seq := by
  induction seqs generalizing store with
  | nil =>
    cases ended
    exact ⟨rfl, fun _ => rfl⟩
  | cons first rest ih =>
    unfold tombstoneEach at ended
    split at ended
    · cases congrArg Prod.snd ended
    · next middle replaced =>
      obtain ⟨row, found, known, rfl⟩ := Store.tombstoneEvent_eq_ok.mp replaced
      obtain ⟨visits, rows⟩ := ih ended
      refine ⟨visits, ?_⟩
      intro seq
      rw [rows seq, Store.getEvent_putMessage]
      by_cases isFirst : seq = first
      · subst isFirst
        simp [found]
      · simp [isFirst]

theorem mem_seqsFrom {least greatest : UInt64} :
    seq ∈ seqsFrom least greatest ↔ least ≤ seq ∧ seq ≤ greatest := by
  unfold seqsFrom
  simp only [List.mem_map, List.mem_range, UInt64.le_iff_toNat_le]
  have bound := seq.toNat_lt
  constructor
  · rintro ⟨step, within, rfl⟩
    have top := greatest.toNat_lt
    rw [Recording.toNat_ofNat_of_lt (by omega)]
    omega
  · rintro ⟨above, below⟩
    refine ⟨seq.toNat - least.toNat, by omega, ?_⟩
    rw [Nat.add_sub_cancel' above, UInt64.ofNat_toNat]

/-- The snapshot names every live seq. -/
theorem mem_liveSeqs {recording : Recording} :
    seq ∈ liveSeqs recording ↔ (recording.get seq).isSome := by
  unfold liveSeqs Recording.seqRange
  constructor
  · intro member
    split at member
    · exact (List.mem_filter.mp member).2
    · cases member
  · intro live
    obtain ⟨stored, here⟩ := Option.isSome_iff_exists.mp live
    have held : seq ∈ recording.slots.keys := by
      rw [Recording.mem_keys_slots]
      exact ⟨stored.event.eventId, by rw [Recording.lookup_ids, Recording.get_eq_some.mp here]; rfl⟩
    have nonempty := List.ne_nil_of_mem held
    cases isLeast : recording.slots.keys.min? with
    | none => exact absurd (List.min?_eq_none_iff.mp isLeast) nonempty
    | some least =>
      cases isGreatest : recording.slots.keys.max? with
      | none => exact absurd (List.max?_eq_none_iff.mp isGreatest) nonempty
      | some greatest =>
        have above := (List.min?_eq_some_iff.mp isLeast).2 seq held
        have below := (List.max?_eq_some_iff.mp isGreatest).2 seq held
        exact List.mem_filter.mpr ⟨mem_seqsFrom.mpr ⟨above, below⟩, live⟩

/-- A drop-request honoured in the recording and in the store. -/
theorem honourDropRequest_eq_ok {recording : Recording} {request : EventId}
    {tombstoned : List UInt64}
    (honoured : (honourDropRequest store visit recording request).2.2 = .ok tombstoned) :
    ∃ requestSeq dropRequest,
      recording.dropRequestAt request = some (requestSeq, dropRequest) ∧
      recording.DropsTo (honourDropRequest store visit recording request).1
        (fun seq => seq ∈ recording.dropTargets requestSeq dropRequest) ∧
      (∀ seq, seq ∈ tombstoned ↔ seq ∈ liveSeqs recording ∧
        ((honourDropRequest store visit recording request).1.tombstoneAt seq).isSome) ∧
      tombstoneEach (fun store seq => store.tombstoneEvent visit seq) store tombstoned =
        ((honourDropRequest store visit recording request).2.1, .ok ()) := by
  unfold honourDropRequest at honoured ⊢
  dsimp only at honoured ⊢
  cases found : recording.honourDropRequest request with
  | error reason =>
    rw [found] at honoured
    cases honoured
  | ok result =>
    obtain ⟨after, count⟩ := result
    obtain ⟨requestSeq, dropRequest, isRequest, drops⟩ := Recording.honourDropRequest_ok found
    rw [found] at honoured
    dsimp only at honoured ⊢
    split at honoured
    · cases honoured
    · next left ended =>
      cases honoured
      rw [ended]
      refine ⟨requestSeq, dropRequest, isRequest, drops, ?_, rfl⟩
      intro seq
      rw [List.mem_insertionSort, List.mem_filter]

end View

namespace House

variable {crypto : Crypto} {house : House} {count : Nat} {input : Call}

/-- The recording of a house takes the calls as a recording alone does. -/
theorem call_recording (house : House) (input : Call) :
    (house.call crypto input).recording = house.recording.call crypto input := by
  cases input with
  | ingest bytes nowMs =>
    simp only [call]
    cases house.recording.acceptedBy crypto (.ingest bytes nowMs) <;> rfl
  | honourDropRequest request =>
    simp only [call, View.honourDropRequest, Recording.call]
    cases house.recording.honourDropRequest request with
    | error reason => rfl
    | ok result =>
      dsimp only
      split <;> rfl

/-! ## Rows mirror slots -/

/-- The rows of the visit are the image of the recording's slots. -/
structure Mirrors (crypto : Crypto) (house : House) (count : Nat) : Prop where
  formed : house.recording.WellFormed crypto count
  known : house.recording.visit ∈ house.store.visits
  rows : ∀ seq, house.store.getEvent house.recording.visit seq =
    (house.recording.slots.lookup seq).map Slot.row

/-- The four ways a call in step ends: an event is stored and appended at the next
seq; an offered event is refused, and may break the visit; a drop-request is
honoured. -/
theorem call_cases (mirrors : house.Mirrors crypto count) (inStep : house.InStep crypto input) :
    (∃ bytes nowMs event after known, input = .ingest bytes nowMs ∧
        house.recording.acceptedBy crypto input = some event ∧
        SignedEvent.parse crypto bytes = .ok event ∧ house.recording.broken = false ∧
        house.recording.Admits event nowMs after ∧
        house.recording.slots.lookup event.envelope.seq = none ∧
        event.envelope.seq.toNat = count ∧
        house.call crypto input =
          ⟨house.recording.store event after,
            house.store.putMessage house.recording.visit event.envelope.seq
              (Slot.row (.event ⟨event⟩)) known⟩) ∨
      (∃ bytes nowMs, input = .ingest bytes nowMs ∧
        house.recording.acceptedBy crypto input = none ∧
        (house.call crypto input = house ∨
          house.call crypto input = ⟨house.recording.markBroken, house.store⟩)) ∨
      ∃ request requestSeq dropRequest tombstoned, input = .honourDropRequest request ∧
        house.recording.dropRequestAt request = some (requestSeq, dropRequest) ∧
        house.recording.DropsTo (house.call crypto input).recording
          (fun seq => seq ∈ house.recording.dropTargets requestSeq dropRequest) ∧
        (∀ seq, seq ∈ tombstoned ↔ seq ∈ View.liveSeqs house.recording ∧
          ((house.call crypto input).recording.tombstoneAt seq).isSome) ∧
        View.tombstoneEach
            (fun store seq => store.tombstoneEvent house.recording.visit seq) house.store
            tombstoned =
          ((house.call crypto input).store, .ok ()) := by
  cases input with
  | ingest bytes nowMs =>
    cases accepted : house.recording.acceptedBy crypto (.ingest bytes nowMs) with
    | none =>
      refine Or.inr (Or.inl ⟨bytes, nowMs, rfl, rfl, ?_⟩)
      simp only [call, accepted]
      rcases Recording.call_of_refused accepted with same | broke
      · exact Or.inl (by rw [same])
      · exact Or.inr (by rw [broke])
    | some event =>
      obtain ⟨_, _, after, same, sound, parsed, admits, stored⟩ :=
        Recording.acceptedBy_eq_some.mp accepted
      cases same
      obtain ⟨kept, appended⟩ := inStep event accepted
      obtain ⟨vacantRow, known, rfl⟩ := Store.appendEvent_eq_ok.mp appended
      have vacant : house.recording.slots.lookup event.envelope.seq = none := by
        rw [mirrors.rows] at vacantRow
        exact Option.map_eq_none_iff.mp vacantRow
      have next : event.envelope.seq.toNat = count := by
        have reach := mirrors.formed.dense.seq_le admits.linked
        have free : ¬event.envelope.seq.toNat < count := by
          intro below
          obtain ⟨id, held⟩ := (mirrors.formed.dense.occupied event.envelope.seq).mpr below
          rw [Recording.lookup_ids, vacant] at held
          cases held
        omega
      refine Or.inl ⟨bytes, nowMs, event, after, known, rfl, rfl, parsed, sound, admits, vacant,
        next, ?_⟩
      simp only [call, accepted, keep, appended, stored]
      rfl
  | honourDropRequest request =>
    obtain ⟨tombstoned, honoured⟩ := inStep
    obtain ⟨requestSeq, dropRequest, isRequest, drops, members, ended⟩ :=
      View.honourDropRequest_eq_ok honoured
    exact Or.inr (Or.inr
      ⟨request, requestSeq, dropRequest, tombstoned, rfl, isRequest, drops, members, ended⟩)

/-- The row of a slot after a drop, when the rows of exactly the live slots that
became tombstones have lost their bytes. -/
theorem row_of_drop {before after : Recording} {gone : UInt64 → Prop} {seq : UInt64}
    {tombstoned : List UInt64} (drops : before.DropsTo after gone)
    (members : seq ∈ tombstoned ↔ seq ∈ View.liveSeqs before ∧ (after.tombstoneAt seq).isSome) :
    (if seq ∈ tombstoned then
        ((before.slots.lookup seq).map Slot.row).map fun row => { row with eventBytes := none }
      else (before.slots.lookup seq).map Slot.row) = (after.slots.lookup seq).map Slot.row := by
  rw [View.mem_liveSeqs] at members
  by_cases isGone : gone seq
  · have dropped := drops.dropped seq isGone
    cases here : before.slots.lookup seq with
    | none =>
      rw [dropped, here]
      simp
    | some slot =>
      rw [here] at dropped
      rw [dropped]
      cases slot with
      | event stored =>
        have live : before.get seq = some stored := Recording.get_eq_some.mpr here
        have isTombstone := Recording.tombstoneAt_eq_some.mpr dropped
        rw [if_pos (members.mpr ⟨by simp [live], by simp [isTombstone]⟩)]
        rfl
      | tombstone old =>
        have notLive : before.get seq = none := by simp [Recording.get, here]
        rw [if_neg (by simp [members, notLive])]
        rfl
  · have kept := drops.kept seq isGone
    have stays : seq ∉ tombstoned := by
      rw [members]
      rintro ⟨live, isTombstone⟩
      obtain ⟨stored, here⟩ := Option.isSome_iff_exists.mp live
      obtain ⟨dropped, there⟩ := Option.isSome_iff_exists.mp isTombstone
      rw [Recording.get_eq_some, ← kept, Recording.tombstoneAt_eq_some.mp there] at here
      cases here
    rw [if_neg stays, kept]

theorem Mirrors.call (mirrors : house.Mirrors crypto count) (inStep : house.InStep crypto input) :
    ∃ after, (house.call crypto input).Mirrors crypto after := by
  rcases call_cases mirrors inStep with
    ⟨bytes, nowMs, event, after, known, _, _, parsed, _, admits, _, _, equal⟩ |
      ⟨_, _, _, _, equal | equal⟩ |
      ⟨request, requestSeq, dropRequest, tombstoned, _, _, drops, members, ended⟩
  · rw [equal]
    refine ⟨_, mirrors.formed.store (SignedEvent.parsed_of_parse parsed) admits, known, ?_⟩
    intro seq
    change (house.store.putMessage house.recording.visit _ _ known).getEvent
      house.recording.visit seq = _
    rw [Store.getEvent_putMessage, Recording.lookup_store_slots, mirrors.rows]
    by_cases here : seq = event.envelope.seq
    · simp [here]
    · simp [here]
  · rw [equal]
    exact ⟨count, mirrors⟩
  · rw [equal]
    exact ⟨count, mirrors.formed.markBroken, mirrors.known, mirrors.rows⟩
  · obtain ⟨visits, rows⟩ := View.tombstoneEach_eq_ok ended
    refine ⟨count, mirrors.formed.dropsTo drops, ?_, ?_⟩
    · rw [drops.visit, visits]
      exact mirrors.known
    · intro seq
      rw [drops.visit, rows, mirrors.rows]
      exact row_of_drop drops (members seq)

/-! ## Runs -/

variable {visit host : Bytes32} {openedMs : UInt64} {start : Recording} {before store : Store}

theorem call_fixed (mirrors : house.Mirrors crypto count) (inStep : house.InStep crypto input) :
    (house.call crypto input).recording.visit = house.recording.visit ∧
      (house.call crypto input).recording.host = house.recording.host := by
  rcases call_cases mirrors inStep with
    ⟨_, _, _, _, _, _, _, _, _, _, _, _, equal⟩ | ⟨_, _, _, _, equal | equal⟩ |
      ⟨_, _, _, _, _, _, drops, _, _⟩
  · rw [equal]
    exact ⟨rfl, rfl⟩
  · rw [equal]
    exact ⟨rfl, rfl⟩
  · rw [equal]
    exact ⟨rfl, rfl⟩
  · exact ⟨drops.visit, drops.host⟩

/-- The house of a visit whose recording and row have just been opened. -/
theorem mirrors_opened (opened : Recording.new visit host = .ok start)
    (openedStore : before.openVisit visit host openedMs = .ok store) :
    Mirrors crypto ⟨start, store⟩ 0 := by
  have formed : start.WellFormed crypto 0 := Recording.wellFormed_new opened
  obtain ⟨known, vacant⟩ := Store.getEvent_of_openVisit openedStore
  obtain ⟨_, rfl⟩ := Recording.new_eq_ok opened
  exact ⟨formed, known, vacant⟩

/-- Over a run in step the rows stay the image of the slots. -/
theorem run_mirrors {calls : List Call} (opened : Recording.new visit host = .ok start)
    (openedStore : before.openVisit visit host openedMs = .ok store)
    (inStep : Machine.Guarded (House.call crypto) (InStep crypto) ⟨start, store⟩ calls) :
    ∃ count, (Machine.run (House.call crypto) ⟨start, store⟩ calls).Mirrors crypto count := by
  have step : ∀ house input, (∃ count, House.Mirrors crypto house count) →
      House.InStep crypto house input →
        ∃ count, House.Mirrors crypto (House.call crypto house input) count := by
    rintro house input ⟨count, mirrors⟩ inStep
    exact mirrors.call inStep
  exact Machine.run_preserves step ⟨0, mirrors_opened opened openedStore⟩ inStep

end House

end Mosschat.Core
