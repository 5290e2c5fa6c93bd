import Mosschat.Core.View.House

/-!
Owns the restart of a house that has honoured nothing: the replay of its rows
against the recording they were kept from. A replay reads one clock for all of
them, so a grant in force when its key wrote need not be in force when the row
is read back; and a `seq` from 2^63 on is negative in its column and is read
before seq 0.
-/

namespace Mosschat.Core

open Mosschat.Library Mosschat.Library.Cbor

theorem toInt64_lt_toInt64 {lower upper : UInt64} (below : lower.toNat < upper.toNat)
    (small : upper.toNat < 2 ^ 63) : lower.toInt64 < upper.toInt64 := by
  have toInt : ∀ seq : UInt64, seq.toNat < 2 ^ 63 → seq.toInt64.toInt = seq.toNat := by
    intro seq inside
    exact BitVec.toInt_eq_toNat_of_lt (by change 2 * seq.toNat < 2 ^ 64; omega)
  rw [Int64.lt_iff_toInt_lt, toInt lower (by omega), toInt upper small]
  omega

def Call.IsIngest : Call → Prop
  | .ingest _ _ => True
  | .honourDropRequest _ => False

namespace Recording

variable {recording : Recording} {event : SignedEvent} {after other : Standing}
  {clock nowMs : UInt64}

/-- What a replay can make of a recording: the broken flag has no row. -/
def unbroken (recording : Recording) : Recording := { recording with broken := false }

theorem unbroken_eq_self (sound : recording.broken = false) : recording.unbroken = recording := by
  unfold unbroken
  rw [← sound]

/-- An event admitted at one clock is admitted at another exactly when its author's
window covers that one too. -/
theorem Admits.at_clock (admits : recording.Admits event clock after) :
    recording.Admits event nowMs after ↔
      (event.body.isJoinOrLeave = false →
        recording.WindowInForce event.envelope.author nowMs) := by
  constructor
  · exact fun again => again.authored.window
  · intro window
    exact ⟨admits.linked,
      ⟨admits.authored.notRevoked, admits.authored.active, window⟩, admits.ruled⟩

end Recording

namespace View

variable {crypto : Crypto} {recording after : Recording} {event : SignedEvent} {standing : Standing}
  {clock nowMs : UInt64}

theorem replayRow_of_admits (seq : UInt64) (sound : recording.broken = false)
    (parsed : SignedEvent.parse crypto event.toBytes = .ok event)
    (admits : recording.Admits event nowMs standing) :
    replayRow crypto nowMs recording (seq, Slot.row (.event ⟨event⟩)) =
      .ok (recording.store event standing) := by
  have ingested := Recording.ingest_of_admits sound parsed admits
  unfold replayRow Slot.row
  dsimp only
  rw [ingested]

theorem replayRow_of_not_admits (seq : UInt64)
    (parsed : SignedEvent.parse crypto event.toBytes = .ok event) (refused : ∀ standing, ¬recording.Admits event nowMs standing) :
    ∃ reason, replayRow crypto nowMs recording (seq, Slot.row (.event ⟨event⟩)) =
      .error reason := by
  obtain ⟨reason, failed⟩ := Recording.ingest_error_of_not_admits parsed refused
  refine ⟨.ingest reason, ?_⟩
  unfold replayRow Slot.row
  dsimp only
  generalize recording.ingest crypto event.toBytes nowMs = result at failed ⊢
  obtain ⟨_, verdict⟩ := result
  cases failed
  rfl

theorem recordingFromStore_eq {store : Store} {visit host : Bytes32} {start : Recording}
    (opened : Recording.new visit host = .ok start) :
    recordingFromStore crypto store visit host nowMs =
      (store.eventsForVisit visit).foldlM (replayRow crypto nowMs) start := by
  unfold recordingFromStore
  rw [opened]

end View

namespace House

variable {crypto : Crypto} {house : House} {count : Nat} {input : Call} {nowMs : UInt64}
  {visit host : Bytes32} {start : Recording}

/-- The visit as it would be read back now. -/
def rebuilt (crypto : Crypto) (nowMs : UInt64) (house : House) : Except ViewError Recording :=
  View.recordingFromStore crypto house.store house.recording.visit house.recording.host nowMs

/-- What the next replay needs of an accepted event: a `seq` that is not negative
in its column, and an author whose window covers the clock of the replay. -/
def Replayable (crypto : Crypto) (nowMs : UInt64) (house : House) (input : Call) : Prop :=
  ∀ event, house.recording.acceptedBy crypto input = some event →
    event.envelope.seq.toNat < 2 ^ 63 ∧
      (event.body.isJoinOrLeave = false →
        house.recording.WindowInForce event.envelope.author nowMs)

/-- A house that has only kept what it accepted; if a replay succeeds, it comes to
the recording the house has. -/
structure Kept (crypto : Crypto) (nowMs : UInt64) (start : Recording) (house : House) :
    Prop where
  opened : Recording.new house.recording.visit house.recording.host = .ok start
  mirrors : ∃ count, house.Mirrors crypto count
  live : ∀ seq slot, house.recording.slots.lookup seq = some slot → ∃ stored, slot = .event stored
  parsed : ∀ seq stored, house.recording.get seq = some stored →
    SignedEvent.parse crypto stored.event.toBytes = .ok stored.event
  faithful : ∀ recording, house.rebuilt crypto nowMs = .ok recording →
    recording = house.recording.unbroken

/-- No replay gets past a row of seq 2^63: it is the first, and has no predecessor. -/
theorem rebuilt_of_late (mirrors : house.Mirrors crypto count)
    (opened : Recording.new house.recording.visit house.recording.host = .ok start)
    (live : ∀ seq slot, house.recording.slots.lookup seq = some slot →
      ∃ stored, slot = .event stored)
    (parsed : ∀ seq stored, house.recording.get seq = some stored →
      SignedEvent.parse crypto stored.event.toBytes = .ok stored.event)
    (late : 2 ^ 63 < count) : ∃ reason, house.rebuilt crypto nowMs = .error reason := by
  -- Seq 2^63 is held, so the least column is the least there is.
  let least : UInt64 := Int64.minValue.toUInt64
  have leastNat : least.toNat = 2 ^ 63 := rfl
  obtain ⟨id, held⟩ := (mirrors.formed.dense.occupied least).mpr (by omega)
  rw [Recording.lookup_ids] at held
  obtain ⟨slot, here, _⟩ := Option.map_eq_some_iff.mp held
  have row : (least, slot.row) ∈ house.store.eventsForVisit house.recording.visit := by
    rw [Store.mem_eventsForVisit, mirrors.rows, here]
    rfl
  have sorted := house.store.sorted_eventsForVisit house.recording.visit
  unfold rebuilt
  rw [View.recordingFromStore_eq opened]
  cases rows : house.store.eventsForVisit house.recording.visit with
  | nil =>
    rw [rows] at row
    cases row
  | cons first rest =>
    obtain ⟨seq, firstRow⟩ := first
    have isLeast : seq = least := by
      rw [rows] at row sorted
      rcases List.mem_cons.mp row with same | inRest
      · exact (congrArg Prod.fst same).symm
      · have below := List.rel_of_pairwise_cons sorted inRest
        have equal := Int64.le_antisymm below (Int64.minValue_le _)
        have back := congrArg Int64.toUInt64 equal
        rwa [UInt64.toUInt64_toInt64, UInt64.toUInt64_toInt64] at back
    have member : (seq, firstRow) ∈ house.store.eventsForVisit house.recording.visit := by
      rw [rows]
      simp
    rw [Store.mem_eventsForVisit, mirrors.rows] at member
    obtain ⟨firstSlot, firstHere, rowEq⟩ := Option.map_eq_some_iff.mp member
    obtain ⟨stored, rfl⟩ := live seq firstSlot firstHere
    have isLive : house.recording.get seq = some stored := Recording.get_eq_some.mpr firstHere
    have placed := (mirrors.formed.placed seq stored isLive).1
    have refused : ∀ standing, ¬start.Admits stored.event nowMs standing := by
      intro standing admits
      have prev := admits.linked.prev
      rw [Recording.expectedPrev_eq, placed, isLeast] at prev
      rw [if_neg (by decide), Recording.lookup_ids_new opened] at prev
      cases prev
    obtain ⟨reason, failed⟩ :=
      View.replayRow_of_not_admits seq (parsed seq stored isLive) refused
    refine ⟨reason, ?_⟩
    rw [List.foldlM_cons, ← rowEq, failed]
    rfl

/-- What a replay comes to once an event has been stored and appended: it goes on
from where it came to before, with the new row. -/
theorem rebuilt_of_kept (mirrors : house.Mirrors crypto count)
    (opened : Recording.new house.recording.visit house.recording.host = .ok start)
    {event : SignedEvent} {after : Standing} (known : house.recording.visit ∈ house.store.visits)
    (vacant : house.recording.slots.lookup event.envelope.seq = none)
    (next : event.envelope.seq.toNat = count) (small : event.envelope.seq.toNat < 2 ^ 63) :
    rebuilt crypto nowMs
        ⟨house.recording.store event after,
          house.store.putMessage house.recording.visit event.envelope.seq
            (Slot.row (.event ⟨event⟩)) known⟩ =
      (house.rebuilt crypto nowMs).bind fun recording =>
        View.replayRow crypto nowMs recording
          (event.envelope.seq, Slot.row (.event ⟨event⟩)) := by
  have vacantRow : house.store.getEvent house.recording.visit event.envelope.seq = none := by
    rw [mirrors.rows, vacant]
    rfl
  have above : ∀ other held, house.store.getEvent house.recording.visit other = some held →
      other.toInt64 < event.envelope.seq.toInt64 := by
    intro other held here
    rw [mirrors.rows] at here
    obtain ⟨slot, occupied, _⟩ := Option.map_eq_some_iff.mp here
    have below := (mirrors.formed.dense.occupied other).mp
      ⟨slot.eventId, by rw [Recording.lookup_ids, occupied]; rfl⟩
    exact toInt64_lt_toInt64 (by omega) small
  have rows : (house.store.putMessage house.recording.visit event.envelope.seq
        (Slot.row (.event ⟨event⟩)) known).eventsForVisit house.recording.visit =
      house.store.eventsForVisit house.recording.visit ++
        [(event.envelope.seq, Slot.row (.event ⟨event⟩))] :=
    Store.eventsForVisit_putMessage known vacantRow above
  unfold rebuilt
  dsimp only [Recording.store_visit, Recording.store_host]
  rw [View.recordingFromStore_eq opened, View.recordingFromStore_eq opened, rows,
    List.foldlM_append]
  change Except.bind _ _ = _
  congr 1
  funext recording
  change Except.bind _ _ = _
  cases View.replayRow crypto nowMs recording
    (event.envelope.seq, Slot.row (.event ⟨event⟩)) <;> rfl

/-- A replay succeeds. -/
def Restarts (crypto : Crypto) (nowMs : UInt64) (house : House) : Prop :=
  ∃ recording, house.rebuilt crypto nowMs = .ok recording

/-- One appended row leaves the replay succeeding exactly when it did and the event
is replayable, and then it comes to the recording with that event. -/
theorem rebuilt_of_stored (kept : house.Kept crypto nowMs start)
    (mirrors : house.Mirrors crypto count) {event : SignedEvent} {after : Standing}
    {clock : UInt64} (known : house.recording.visit ∈ house.store.visits)
    (parsed : SignedEvent.parse crypto event.toBytes = .ok event)
    (sound : house.recording.broken = false)
    (admits : house.recording.Admits event clock after)
    (vacant : house.recording.slots.lookup event.envelope.seq = none)
    (next : event.envelope.seq.toNat = count) (small : event.envelope.seq.toNat < 2 ^ 63) :
    ∀ recording, rebuilt crypto nowMs
        ⟨house.recording.store event after,
          house.store.putMessage house.recording.visit event.envelope.seq
            (Slot.row (.event ⟨event⟩)) known⟩ = .ok recording ↔
      house.Restarts crypto nowMs ∧
        (event.body.isJoinOrLeave = false →
          house.recording.WindowInForce event.envelope.author nowMs) ∧
        recording = house.recording.store event after := by
  intro recording
  rw [rebuilt_of_kept mirrors kept.opened known vacant next small]
  unfold Restarts
  cases before : house.rebuilt crypto nowMs with
  | error reason => simp [Except.bind]
  | ok earlier =>
    have isLive := kept.faithful earlier before
    rw [Recording.unbroken_eq_self sound] at isLive
    subst isLive
    change View.replayRow crypto nowMs house.recording
      (event.envelope.seq, Slot.row (.event ⟨event⟩)) = .ok recording ↔ _
    constructor
    · intro replayed
      have again : house.recording.Admits event nowMs after := by
        by_contra refused
        obtain ⟨reason, failed⟩ := View.replayRow_of_not_admits event.envelope.seq parsed
          fun standing other => refused (admits.at_clock.mpr other.authored.window)
        rw [failed] at replayed
        cases replayed
      rw [View.replayRow_of_admits event.envelope.seq sound parsed again] at replayed
      exact ⟨⟨_, rfl⟩, again.authored.window, (Except.ok.inj replayed).symm⟩
    · rintro ⟨_, window, rfl⟩
      exact View.replayRow_of_admits event.envelope.seq sound parsed
        (admits.at_clock.mpr window)

theorem kept_call (kept : house.Kept crypto nowMs start) (offer : input.IsIngest)
    (inStep : house.InStep crypto input) :
    (house.call crypto input).Kept crypto nowMs start ∧
      ((house.call crypto input).Restarts crypto nowMs ↔
        house.Restarts crypto nowMs ∧ house.Replayable crypto nowMs input) := by
  obtain ⟨count, mirrors⟩ := kept.mirrors
  obtain ⟨afterCount, mirrorsAfter⟩ := mirrors.call inStep
  rcases call_cases mirrors inStep with
    ⟨bytes, clock, event, after, known, rfl, accepted, parsed, sound, admits, vacant, next,
      equal⟩ | ⟨bytes, clock, rfl, refused, ends⟩ | ⟨request, _, _, _, rfl, _⟩
  · rw [equal] at mirrorsAfter ⊢
    have parsedAgain : SignedEvent.parse crypto event.toBytes = .ok event := by
      rw [SignedEvent.toBytes_of_parse parsed]
      exact parsed
    have live : ∀ seq slot, (house.recording.store event after).slots.lookup seq = some slot →
        ∃ stored, slot = .event stored := by
      intro seq slot here
      rw [Recording.lookup_store_slots] at here
      split_ifs at here
      · exact ⟨_, (Option.some.inj here).symm⟩
      · exact kept.live seq slot here
    have parses : ∀ seq stored, (house.recording.store event after).get seq = some stored →
        SignedEvent.parse crypto stored.event.toBytes = .ok stored.event := by
      intro seq stored here
      rw [Recording.get_store] at here
      split_ifs at here
      · cases here
        exact parsedAgain
      · exact kept.parsed seq stored here
    by_cases small : event.envelope.seq.toNat < 2 ^ 63
    · have replays := rebuilt_of_stored kept mirrors known parsedAgain sound admits vacant next
        small
      refine ⟨⟨kept.opened, ⟨afterCount, mirrorsAfter⟩, live, parses, ?_⟩, ?_⟩
      · intro recording found
        rw [((replays recording).mp found).2.2]
        have soundAfter : (house.recording.store event after).broken = false := sound
        exact (Recording.unbroken_eq_self soundAfter).symm
      · constructor
        · rintro ⟨recording, found⟩
          obtain ⟨restarts, window, _⟩ := (replays recording).mp found
          refine ⟨restarts, ?_⟩
          intro other otherAccepted
          rw [accepted] at otherAccepted
          cases otherAccepted
          exact ⟨small, window⟩
        · rintro ⟨restarts, replayable⟩
          exact ⟨_, (replays _).mpr ⟨restarts, (replayable event accepted).2, rfl⟩⟩
    · have late : 2 ^ 63 < afterCount := by
        have held : event.envelope.seq.toNat < afterCount := by
          apply (mirrorsAfter.formed.dense.occupied _).mp
          refine ⟨event.eventId, ?_⟩
          rw [Recording.lookup_ids, Recording.lookup_store_slots, if_pos rfl]
          rfl
        omega
      obtain ⟨reason, failed⟩ : ∃ reason, rebuilt crypto nowMs _ = .error reason :=
        rebuilt_of_late mirrorsAfter kept.opened live parses late
      refine ⟨⟨kept.opened, ⟨afterCount, mirrorsAfter⟩, live, parses, ?_⟩, ?_⟩
      · intro recording found
        rw [failed] at found
        cases found
      · constructor
        · rintro ⟨recording, found⟩
          rw [failed] at found
          cases found
        · rintro ⟨_, replayable⟩
          exact absurd (replayable event accepted).1 small
  · have vacuous : house.Replayable crypto nowMs (.ingest bytes clock) := by
      intro event accepted
      rw [refused] at accepted
      cases accepted
    rcases ends with same | broke
    · rw [same]
      exact ⟨kept, (and_iff_left vacuous).symm⟩
    · rw [broke] at mirrorsAfter ⊢
      exact ⟨⟨kept.opened, ⟨afterCount, mirrorsAfter⟩, kept.live, kept.parsed, kept.faithful⟩,
        (and_iff_left vacuous).symm⟩
  · exact absurd offer id

/-- The house of a visit just opened restarts, to the recording it started with. -/
theorem kept_opened {openedMs : UInt64} {before store : Store}
    (opened : Recording.new visit host = .ok start)
    (openedStore : before.openVisit visit host openedMs = .ok store) :
    Kept crypto nowMs start ⟨start, store⟩ ∧ Restarts crypto nowMs ⟨start, store⟩ := by
  have mirrors : Mirrors crypto ⟨start, store⟩ 0 := mirrors_opened opened openedStore
  have vacant : ∀ seq, start.slots.lookup seq = none := by
    obtain ⟨_, rfl⟩ := Recording.new_eq_ok opened
    exact fun _ => rfl
  have samePlace : start.visit = visit ∧ start.host = host ∧ start.broken = false := by
    obtain ⟨_, rfl⟩ := Recording.new_eq_ok opened
    exact ⟨rfl, rfl, rfl⟩
  have openedAgain : Recording.new start.visit start.host = .ok start := by
    rw [samePlace.1, samePlace.2.1]
    exact opened
  have noRows : store.eventsForVisit start.visit = [] := by
    apply List.eq_nil_iff_forall_not_mem.mpr
    rintro ⟨seq, row⟩ member
    rw [Store.mem_eventsForVisit] at member
    have none := mirrors.rows seq
    dsimp only at none
    rw [vacant, member] at none
    cases none
  have restarted : rebuilt crypto nowMs ⟨start, store⟩ = .ok start := by
    unfold rebuilt
    dsimp only
    rw [View.recordingFromStore_eq openedAgain, noRows]
    rfl
  refine ⟨⟨openedAgain, ⟨0, mirrors⟩, ?_, ?_, ?_⟩, ⟨start, restarted⟩⟩
  · intro seq slot here
    rw [vacant] at here
    cases here
  · intro seq stored here
    rw [Recording.get_new opened] at here
    cases here
  · intro recording found
    rw [restarted] at found
    cases found
    exact (Recording.unbroken_eq_self samePlace.2.2).symm

/-- A run of ingests alone keeps the house in this state, and it restarts exactly
when every accepted event is replayable. -/
theorem run_kept {openedMs : UInt64} {before store : Store} {calls : List Call}
    (opened : Recording.new visit host = .ok start)
    (openedStore : before.openVisit visit host openedMs = .ok store)
    (offers : ∀ input ∈ calls, input.IsIngest)
    (inStep : Machine.Guarded (call crypto) (InStep crypto) ⟨start, store⟩ calls) :
    (Machine.run (call crypto) ⟨start, store⟩ calls).Kept crypto nowMs start ∧
      ((Machine.run (call crypto) ⟨start, store⟩ calls).Restarts crypto nowMs ↔
        Machine.Guarded (call crypto) (Replayable crypto nowMs) ⟨start, store⟩ calls) := by
  have ingests : Machine.Guarded (call crypto) (fun _ input => input.IsIngest) ⟨start, store⟩
      calls :=
    Machine.guarded_mono (fun _ input member => offers input member) (Machine.guarded_mem _ calls)
  have domain := Machine.guarded_and.mpr ⟨ingests, inStep⟩
  obtain ⟨keptStart, restarts⟩ : Kept crypto nowMs start ⟨start, store⟩ ∧
      Restarts crypto nowMs ⟨start, store⟩ := kept_opened opened openedStore
  have preserved : ∀ (house : House) (input : Call), house.Kept crypto nowMs start →
      input.IsIngest ∧ house.InStep crypto input →
        (house.call crypto input).Kept crypto nowMs start :=
    fun _ _ kept both => (kept_call kept both.1 both.2).1
  have stepExact : ∀ (house : House) (input : Call), house.Kept crypto nowMs start →
      input.IsIngest ∧ house.InStep crypto input →
        ((house.call crypto input).Restarts crypto nowMs ↔
          house.Restarts crypto nowMs ∧ house.Replayable crypto nowMs input) :=
    fun _ _ kept both => (kept_call kept both.1 both.2).2
  refine ⟨Machine.run_preserves preserved keptStart domain, ?_⟩
  rw [Machine.holds_run_iff_guarded preserved stepExact keptStart domain]
  exact and_iff_right restarts

/-- A house that has only ingested restarts with the section it shows exactly when
every event it accepted is replayable: its `seq` is below 2^63, and the window its
author had when it was accepted covers the clock of the replay. -/
theorem restart_iff {openedMs : UInt64} {before store : Store}
    (opened : Recording.new visit host = .ok start)
    (openedStore : before.openVisit visit host openedMs = .ok store) (calls : List Call)
    (offers : ∀ input ∈ calls, input.IsIngest)
    (inStep : Machine.Guarded (call crypto) (InStep crypto) ⟨start, store⟩ calls)
    (nowMs : UInt64) :
    (∃ recording,
        View.recordingFromStore crypto (Machine.run (call crypto) ⟨start, store⟩ calls).store
            visit host nowMs = .ok recording ∧
          visitSection recording =
            visitSection (Machine.run (call crypto) ⟨start, store⟩ calls).recording) ↔
      Machine.Guarded (call crypto) (Replayable crypto nowMs) ⟨start, store⟩ calls := by
  obtain ⟨kept, exact⟩ :
      (Machine.run (call crypto) ⟨start, store⟩ calls).Kept crypto nowMs start ∧
        ((Machine.run (call crypto) ⟨start, store⟩ calls).Restarts crypto nowMs ↔ _) :=
    run_kept opened openedStore offers inStep
  obtain ⟨sameVisit, sameHost⟩ := Recording.new_inj kept.opened opened
  rw [← exact, Restarts, rebuilt, sameVisit, sameHost]
  constructor
  · rintro ⟨recording, found, _⟩
    exact ⟨recording, found⟩
  · rintro ⟨recording, found⟩
    have isLive := kept.faithful recording (by rw [rebuilt, sameVisit, sameHost, found])
    refine ⟨recording, found, ?_⟩
    rw [isLive]
    rfl

/-! ## A grant that has run out -/

instance {ε α : Type} (result : Except ε α) : Decidable (∃ value, result = .ok value) :=
  match result with
  | .ok value => isTrue ⟨value, rfl⟩
  | .error _ => isFalse (by simp)

instance decidableInStep (crypto : Crypto) (house : House) :
    (call : Call) → Decidable (house.InStep crypto call)
  | .ingest bytes nowMs =>
    decidable_of_iff (∀ event ∈ house.recording.acceptedBy crypto (.ingest bytes nowMs),
      ∃ after, house.store.appendEvent house.recording.visit event.envelope.seq
        event.eventId.asBytes event.toBytes = .ok after) Iff.rfl
  | .honourDropRequest request =>
    inferInstanceAs (Decidable (∃ tombstoned, (View.honourDropRequest house.store
      house.recording.visit house.recording request).2.2 = .ok tombstoned))

instance {ε α : Type} [DecidableEq ε] (result : Except ε α) (reason : ε) :
    Decidable (result = .error reason) :=
  match result with
  | .error found => decidable_of_iff (found = reason) (by simp)
  | .ok _ => isFalse (by simp)

/-- The laptop, granted up to clock 100 at seq 1, writes at seq 2. -/
def laptopEvent : SignedEvent :=
  .assembled
    { v := 1, visit := visitId, author := laptopKey, seq := 2
      prev := laptopAdd.eventId.asBytes
      tsMs := 0
      bodyHash := bytes32
        0xfcf4423420a7ae0ee82c5f6e2a49bd540969c7ce394b463e12608436fbdbb1a7
      bodyLen := 5 }
    (bytes64
      0x25b37b8e3627d18fc85db0fbbce6318e8bea459056319b63ebb6e6deb8e031a5
      0x9ce659668ce7d3b3d782b81a8e26ff1871d59d8b74d52769d957366cbf612b0c)
    (.dropRequest ⟨0, none, none⟩)
    (bytes32
      0xe4b9e7364d4728bcac05579248413ead82f3992585957e44d4cc36e2f9ddcaa0)

def laptopCrypto : Crypto := .recordedFor [openingJoin, laptopAdd, laptopEvent]

/-- The store with the row of the visit. -/
def openedStore : Store :=
  { Store.empty with
    visits := Store.empty.visits.put visitId ⟨hostKey, 1000⟩
    referenced := fun _ _ held => absurd held (AList.notMem_empty _) }

theorem openVisit_openedStore : Store.empty.openVisit visitId hostKey 1000 = .ok openedStore :=
  if_neg (AList.notMem_empty _)

/-- The host joins and grants the laptop, and the laptop writes, all at clock 5. -/
def laptopCalls : List Call :=
  [.ingest openingJoin.toBytes 5, .ingest laptopAdd.toBytes 5,
    .ingest laptopEvent.toBytes 5]

def laptopHouse : House :=
  Machine.run (call laptopCrypto) ⟨openedVisit, openedStore⟩ laptopCalls

theorem laptopHouse_checks :
    Machine.Guarded (call laptopCrypto) (InStep laptopCrypto) ⟨openedVisit, openedStore⟩
        laptopCalls ∧
      laptopHouse.recording.get 2 = some ⟨laptopEvent⟩ ∧
      View.recordingFromStore laptopCrypto laptopHouse.store visitId hostKey 200 =
        .error (.ingest .deviceAddGrantNotInForce) := by
  decide +kernel

/-- The three events are accepted and kept at clock 5; at clock 200 the visit cannot
be read back. -/
theorem laptopHouse_fails :
    Machine.Guarded (call laptopCrypto) (InStep laptopCrypto) ⟨openedVisit, openedStore⟩
        laptopCalls ∧
      laptopHouse.recording.get 2 = some ⟨laptopEvent⟩ ∧
      View.recordingFromStore laptopCrypto laptopHouse.store visitId hostKey 200 =
        .error (.ingest .deviceAddGrantNotInForce) :=
  laptopHouse_checks

/-- The same house is read back at a clock exactly when its events are replayable at
that clock. -/
theorem restart_iff_laptopCalls :
    (∃ recording,
        View.recordingFromStore laptopCrypto
            (Machine.run (call laptopCrypto) ⟨openedVisit, openedStore⟩ laptopCalls).store
            visitId hostKey 60 = .ok recording ∧
          visitSection recording =
            visitSection (Machine.run (call laptopCrypto) ⟨openedVisit, openedStore⟩
              laptopCalls).recording) ↔
      Machine.Guarded (call laptopCrypto) (Replayable laptopCrypto 60)
        ⟨openedVisit, openedStore⟩ laptopCalls :=
  restart_iff new_openedVisit openVisit_openedStore laptopCalls
    (by simp [laptopCalls, Call.IsIngest]) laptopHouse_checks.1 60

end House

end Mosschat.Core
