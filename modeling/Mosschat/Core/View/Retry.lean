import Mosschat.Core.Recording.Tombstones
import Mosschat.Core.View.Restart

/-!
Owns the honouring of one drop-request over several calls of
`view::honour_drop_request`, any of which the store may fail. The work of a call is
read off the recording before it, and a call that fails has already dropped the
slots; so a later call finds nothing to do.
-/

namespace Mosschat.Core

open Mosschat.Library Mosschat.Library.Cbor

namespace Recording

/-- The drop-request `request` asks for what is at `seq` to be dropped. -/
def Covers (recording : Recording) (request : EventId) (seq : UInt64) : Prop :=
  ∃ requestSeq dropRequest, recording.dropRequestAt request = some (requestSeq, dropRequest) ∧
    if dropRequest.scope = 0 then seq ≠ requestSeq
    else ∃ targets, dropRequest.targets = some targets ∧
      ∃ target ∈ targets, recording.seqOf (.fromBytes target) = some seq

end Recording

namespace View

/-- The rows that one call's store errors strike. -/
abbrev Faults := UInt64 → Option StoreError

/-- `Store::tombstone_event`, which leaves the row as it was if the store fails. -/
def tombstoneEventUnder (faults : Faults) (visit : Bytes32) (store : Store) (seq : UInt64) :
    Except StoreError Store :=
  match faults seq with
  | some reason => .error reason
  | none => store.tombstoneEvent visit seq

/-- `honour_drop_request` with a store that may fail. -/
def honourDropRequestUnder (faults : Faults) (store : Store) (visit : Bytes32)
    (recording : Recording) (request : EventId) :
    Recording × Store × Except ViewError (List UInt64) :=
  let before := liveSeqs recording
  match recording.honourDropRequest request with
  | .error reason => (recording, store, .error (.ingest reason))
  | .ok (after, _) =>
    let tombstoned :=
      (before.filter fun seq => (after.tombstoneAt seq).isSome).insertionSort (· ≤ ·)
    match tombstoneEach (tombstoneEventUnder faults visit) store tombstoned with
    | (left, .error reason) => (after, left, .error (.store reason))
    | (left, .ok ()) => (after, left, .ok tombstoned)

/-- Where no row is struck it is the function as it stands. -/
theorem honourDropRequestUnder_none (store : Store) (visit : Bytes32) (recording : Recording)
    (request : EventId) :
    honourDropRequestUnder (fun _ => none) store visit recording request =
      honourDropRequest store visit recording request := rfl

end View

namespace House

open View

/-- One call for `request` on a house, and its answer. -/
def attempt (visit : Bytes32) (request : EventId) (house : House) (faults : Faults) :
    House × Except ViewError (List UInt64) :=
  let honoured := honourDropRequestUnder faults house.store visit house.recording request
  (⟨honoured.1, honoured.2.1⟩, honoured.2.2)

/-- The house after calls for `request`, with the errors of each. -/
def afterAttempts (visit : Bytes32) (request : EventId) (start : House)
    (attempts : List Faults) : House :=
  Machine.run (fun house faults => (attempt visit request house faults).1) start attempts

/-- The rows of `visit` are the image of the recording's slots. -/
def RowsMirror (visit : Bytes32) (house : House) : Prop :=
  ∀ seq, house.store.getEvent visit seq = (house.recording.slots.lookup seq).map Slot.row

/-- What an `Ok` promises: no row of a covered tombstone has bytes, and the answer
names those that had. -/
structure Settled (visit : Bytes32) (request : EventId) (before after : House)
    (tombstoned : List UInt64) : Prop where
  erased : ∀ seq, before.recording.Covers request seq →
    (after.recording.tombstoneAt seq).isSome →
      ∀ row, after.store.getEvent visit seq = some row → row.eventBytes = none
  listed : ∀ seq, before.recording.Covers request seq →
    (after.recording.tombstoneAt seq).isSome →
      ∀ row, before.store.getEvent visit seq = some row → row.eventBytes.isSome →
        seq ∈ tombstoned

/-- Whichever call of the sequence answers `Ok` keeps the promise. -/
def Retryable (visit : Bytes32) (request : EventId) (start : House) (attempts : List Faults) :
    Prop :=
  ∀ front faults rest, attempts = front ++ faults :: rest →
    ∀ tombstoned, (attempt visit request (afterAttempts visit request start front) faults).2 =
        .ok tombstoned →
      Settled visit request (afterAttempts visit request start front)
        (attempt visit request (afterAttempts visit request start front) faults).1 tombstoned

/-- The store fails on a row that the call has to empty, and the request is not one
of its own targets. -/
def Interrupted (request : EventId) (recording : Recording) (faults : Faults) : Prop :=
  (∃ seq, recording.Covers request seq ∧ (recording.get seq).isSome ∧ (faults seq).isSome) ∧
    ∀ requestSeq dropRequest, recording.dropRequestAt request = some (requestSeq, dropRequest) →
      ¬recording.Covers request requestSeq

end House

/-! ## What a request covers -/

namespace Recording

variable {before after recording : Recording} {request : EventId} {seq requestSeq : UInt64}
  {dropRequest : DropRequest}

theorem covers_iff (found : recording.dropRequestAt request = some (requestSeq, dropRequest)) :
    recording.Covers request seq ↔
      if dropRequest.scope = 0 then seq ≠ requestSeq
      else ∃ targets, dropRequest.targets = some targets ∧
        ∃ target ∈ targets, recording.seqOf (.fromBytes target) = some seq := by
  constructor
  · rintro ⟨otherSeq, other, alsoFound, covers⟩
    rw [found] at alsoFound
    cases alsoFound
    exact covers
  · exact fun covers => ⟨requestSeq, dropRequest, found, covers⟩

/-- Of the live seqs, honouring drops the ones the request covers. -/
theorem mem_dropTargets_iff_covers
    (found : recording.dropRequestAt request = some (requestSeq, dropRequest))
    (live : (recording.get seq).isSome) :
    seq ∈ recording.dropTargets requestSeq dropRequest ↔ recording.Covers request seq := by
  rw [mem_dropTargets, covers_iff found]
  split_ifs
  · exact and_iff_left live
  · exact Iff.rfl

/-- A live slot has become a tombstone exactly if the request covers it. -/
theorem DropsTo.tombstoneAt_isSome_iff
    (found : before.dropRequestAt request = some (requestSeq, dropRequest))
    (drops : before.DropsTo after fun seq => seq ∈ before.dropTargets requestSeq dropRequest)
    (live : (before.get seq).isSome) :
    (after.tombstoneAt seq).isSome ↔ before.Covers request seq := by
  rw [← mem_dropTargets_iff_covers found live]
  obtain ⟨stored, here⟩ := Option.isSome_iff_exists.mp live
  have held := Recording.get_eq_some.mp here
  by_cases isGone : seq ∈ before.dropTargets requestSeq dropRequest
  · have dropped := drops.dropped seq isGone
    rw [held] at dropped
    have isTombstone := Recording.tombstoneAt_eq_some.mpr dropped
    simp [isGone, isTombstone]
  · have kept := drops.kept seq isGone
    rw [held] at kept
    simp [isGone, Recording.tombstoneAt, kept]

/-- A covered seq is not live once the request is honoured. -/
theorem DropsTo.get_of_covers
    (found : before.dropRequestAt request = some (requestSeq, dropRequest))
    (drops : before.DropsTo after fun seq => seq ∈ before.dropTargets requestSeq dropRequest)
    (covers : before.Covers request seq) : after.get seq = none := by
  rw [Option.eq_none_iff_forall_ne_some]
  intro stored live
  obtain ⟨wasLive, stays⟩ := drops.get_eq_some.mp live
  exact stays ((mem_dropTargets_iff_covers found (by simp [wasLive])).mpr covers)

/-- A request that is not one of its own targets is found again once honoured. -/
theorem DropsTo.dropRequestAt
    (found : before.dropRequestAt request = some (requestSeq, dropRequest))
    (drops : before.DropsTo after fun seq => seq ∈ before.dropTargets requestSeq dropRequest)
    (apart : ¬before.Covers request requestSeq) :
    after.dropRequestAt request = some (requestSeq, dropRequest) := by
  obtain ⟨held, stored, live, body⟩ := dropRequestAt_eq_some.mp found
  have stays : requestSeq ∉ before.dropTargets requestSeq dropRequest := by
    rwa [mem_dropTargets_iff_covers found (by simp [live])]
  exact dropRequestAt_eq_some.mpr
    ⟨(drops.seqOf request).trans held, stored, drops.get_eq_some.mpr ⟨live, stays⟩, body⟩

/-- A request among its own targets is gone once honoured. -/
theorem DropsTo.dropRequestAt_eq_none
    (found : before.dropRequestAt request = some (requestSeq, dropRequest))
    (drops : before.DropsTo after fun seq => seq ∈ before.dropTargets requestSeq dropRequest)
    (own : before.Covers request requestSeq) : after.dropRequestAt request = none := by
  rw [Option.eq_none_iff_forall_ne_some]
  rintro ⟨otherSeq, other⟩ alsoFound
  obtain ⟨held, stored, live, _⟩ := dropRequestAt_eq_some.mp alsoFound
  rw [drops.seqOf, (dropRequestAt_eq_some.mp found).1] at held
  cases held
  rw [drops.get_of_covers found own] at live
  cases live

/-- What a request covers is the same after it is honoured. -/
theorem DropsTo.covers_iff {gone : UInt64 → Prop} (drops : before.DropsTo after gone)
    (found : before.dropRequestAt request = some (requestSeq, dropRequest))
    (stillFound : after.dropRequestAt request = some (requestSeq, dropRequest)) :
    after.Covers request seq ↔ before.Covers request seq := by
  rw [Recording.covers_iff found, Recording.covers_iff stillFound]
  simp only [drops.seqOf]

theorem honourDropRequest_of_none (missing : recording.dropRequestAt request = none) :
    recording.honourDropRequest request = .error .dropRequestNotFound := by
  rw [honourDropRequest, missing]

end Recording

/-! ## The loop over the store -/

namespace View

variable {faults : Faults} {visit : Bytes32} {store left : Store} {seqs : List UInt64}
  {ended : Except StoreError Unit} {seq : UInt64}

/-- A loop that comes to its end was not struck on the way. -/
theorem unstruck_of_ok
    (looped : tombstoneEach (tombstoneEventUnder faults visit) store seqs = (left, .ok ())) :
    (∀ seq ∈ seqs, faults seq = none) ∧
      tombstoneEach (fun store seq => store.tombstoneEvent visit seq) store seqs =
        (left, .ok ()) := by
  induction seqs generalizing store with
  | nil => exact ⟨by simp, looped⟩
  | cons first rest ih =>
    unfold tombstoneEach at looped ⊢
    cases struck : faults first with
    | some reason =>
      rw [tombstoneEventUnder, struck] at looped
      cases congrArg Prod.snd looped
    | none =>
      rw [tombstoneEventUnder, struck] at looped
      dsimp only at looped
      cases replaced : store.tombstoneEvent visit first with
      | error reason =>
        rw [replaced] at looped
        cases congrArg Prod.snd looped
      | ok middle =>
        rw [replaced] at looped
        obtain ⟨others, goesOn⟩ := ih looped
        exact ⟨List.forall_mem_cons.mpr ⟨struck, others⟩, goesOn⟩

/-- A row that is struck is as it was, however the loop ends. -/
theorem getEvent_of_struck
    (looped : tombstoneEach (tombstoneEventUnder faults visit) store seqs = (left, ended))
    (struck : (faults seq).isSome) : left.getEvent visit seq = store.getEvent visit seq := by
  induction seqs generalizing store with
  | nil =>
    cases looped
    rfl
  | cons first rest ih =>
    unfold tombstoneEach at looped
    split at looped
    · cases looped
      rfl
    · next middle replaced =>
      rw [ih looped]
      unfold tombstoneEventUnder at replaced
      split at replaced
      · cases replaced
      · next unstruck =>
        obtain ⟨row, _, known, rfl⟩ := Store.tombstoneEvent_eq_ok.mp replaced
        have elsewhere : seq ≠ first := by
          intro same
          rw [same, unstruck] at struck
          cases struck
        rw [Store.getEvent_putMessage, if_neg (by simp [elsewhere])]

/-- A loop over rows that are there, none of them struck, comes to its end. -/
theorem ok_of_unstruck (present : ∀ seq ∈ seqs, (store.getEvent visit seq).isSome)
    (unstruck : ∀ seq ∈ seqs, faults seq = none) :
    ∃ left, tombstoneEach (tombstoneEventUnder faults visit) store seqs = (left, .ok ()) := by
  induction seqs generalizing store with
  | nil => exact ⟨store, rfl⟩
  | cons first rest ih =>
    rw [List.forall_mem_cons] at present unstruck
    obtain ⟨row, found⟩ := Option.isSome_iff_exists.mp present.1
    have known : visit ∈ store.visits :=
      store.referenced visit first.toInt64 (AList.lookup_isSome.mp present.1)
    have replaced : tombstoneEventUnder faults visit store first =
        .ok (store.putMessage visit first { row with eventBytes := none } known) := by
      rw [tombstoneEventUnder, unstruck.1]
      exact Store.tombstoneEvent_eq_ok.mpr ⟨row, found, known, rfl⟩
    rw [tombstoneEach, replaced]
    refine ih (fun seq member => ?_) unstruck.2
    rw [Store.getEvent_putMessage]
    split_ifs
    · rfl
    · exact present.2 seq member

end View

namespace House

open View

variable {visit : Bytes32} {request : EventId} {house start : House} {faults : Faults}
  {requestSeq seq : UInt64} {dropRequest : DropRequest} {tombstoned : List UInt64}

/-- A house whose calls have been in step. -/
theorem Mirrors.rowsMirror {crypto : Crypto} {count : Nat} (mirrors : house.Mirrors crypto count)
    (isVisit : house.recording.visit = visit) : house.RowsMirror visit := by
  intro seq
  rw [← isVisit]
  exact mirrors.rows seq

/-! ## One call -/

/-- A call for a request that is not there changes nothing. -/
theorem attempt_of_none (missing : house.recording.dropRequestAt request = none) :
    attempt visit request house faults = (house, .error (.ingest .dropRequestNotFound)) := by
  simp only [attempt, honourDropRequestUnder]
  rw [Recording.honourDropRequest_of_none missing]

/-- A call for a request that is there drops the slots, then goes through the rows of
the slots it dropped. -/
theorem attempt_of_some (visit : Bytes32) (faults : Faults)
    (found : house.recording.dropRequestAt request = some (requestSeq, dropRequest)) :
    ∃ after tombstoned left ended,
      house.recording.DropsTo after
        (fun seq => seq ∈ house.recording.dropTargets requestSeq dropRequest) ∧
      (∀ seq, seq ∈ tombstoned ↔
        (house.recording.get seq).isSome ∧ house.recording.Covers request seq) ∧
      tombstoneEach (tombstoneEventUnder faults visit) house.store tombstoned = (left, ended) ∧
      (attempt visit request house faults).1 = ⟨after, left⟩ ∧
      (attempt visit request house faults).2 =
        match ended with
        | .error reason => .error (.store reason)
        | .ok () => .ok tombstoned := by
  simp only [attempt, honourDropRequestUnder]
  cases honoured : house.recording.honourDropRequest request with
  | error reason =>
    rw [Recording.honourDropRequest, found] at honoured
    cases honoured
  | ok outcome =>
    obtain ⟨otherSeq, other, alsoFound, drops⟩ := Recording.honourDropRequest_ok honoured
    rw [found] at alsoFound
    cases alsoFound
    dsimp only
    generalize isList : ((liveSeqs house.recording).filter fun seq =>
      (outcome.1.tombstoneAt seq).isSome).insertionSort (· ≤ ·) = tombstoned
    have members : ∀ seq, seq ∈ tombstoned ↔
        (house.recording.get seq).isSome ∧ house.recording.Covers request seq := by
      intro seq
      rw [← isList, List.mem_insertionSort, List.mem_filter, mem_liveSeqs]
      exact and_congr_right fun live => drops.tombstoneAt_isSome_iff found live
    generalize looped : tombstoneEach (tombstoneEventUnder faults visit) house.store tombstoned =
      result
    obtain ⟨left, ended⟩ := result
    refine ⟨outcome.1, tombstoned, left, ended, drops, members, looped, ?_⟩
    cases ended <;> exact ⟨rfl, rfl⟩

/-- From rows that mirror the slots, an `Ok` keeps the promise and leaves such rows. -/
theorem settled_of_ok (mirror : house.RowsMirror visit)
    (answered : (attempt visit request house faults).2 = .ok tombstoned) :
    (attempt visit request house faults).1.RowsMirror visit ∧
      Settled visit request house (attempt visit request house faults).1 tombstoned := by
  cases found : house.recording.dropRequestAt request with
  | none =>
    rw [attempt_of_none found] at answered
    cases answered
  | some isRequest =>
    obtain ⟨after, names, left, ended, drops, members, looped, state, answer⟩ :=
      attempt_of_some visit faults found
    rw [answer] at answered
    cases ended with
    | error reason => cases answered
    | ok =>
      cases answered
      have rows := (tombstoneEach_eq_ok (unstruck_of_ok looped).2).2
      have mirrorAfter : House.RowsMirror visit ⟨after, left⟩ := by
        intro seq
        show left.getEvent visit seq = _
        rw [rows, mirror]
        refine row_of_drop drops ?_
        rw [members, mem_liveSeqs]
        exact and_congr_right fun live => (drops.tombstoneAt_isSome_iff found live).symm
      rw [state]
      refine ⟨mirrorAfter, ?_, ?_⟩
      · intro seq _ isTombstone row held
        obtain ⟨dropped, there⟩ := Option.isSome_iff_exists.mp isTombstone
        have slot := Recording.tombstoneAt_eq_some.mp there
        have same := mirrorAfter seq
        rw [slot] at same
        have equal := held.symm.trans same
        cases equal
        rfl
      · intro seq covers _ row held bytes
        rw [members]
        refine ⟨?_, covers⟩
        rw [mirror] at held
        obtain ⟨slot, here, rfl⟩ := Option.map_eq_some_iff.mp held
        cases slot with
        | event stored => simp [Recording.get_eq_some.mpr here]
        | tombstone dropped => cases bytes

/-- The request covers nothing that is live. -/
def Spent (request : EventId) (house : House) : Prop :=
  ∀ seq, house.recording.Covers request seq → house.recording.get seq = none

/-- The request is not there, or all it covers has been dropped and emptied. -/
def Done (visit : Bytes32) (request : EventId) (house : House) : Prop :=
  house.recording.dropRequestAt request = none ∨
    (house.RowsMirror visit ∧ house.Spent request)

/-- A request that is not one of its own targets is spent after one call. -/
theorem spent_attempt (visit : Bytes32) (faults : Faults)
    (found : house.recording.dropRequestAt request = some (requestSeq, dropRequest))
    (apart : ¬house.recording.Covers request requestSeq) :
    (attempt visit request house faults).1.recording.dropRequestAt request =
        some (requestSeq, dropRequest) ∧
      (attempt visit request house faults).1.Spent request ∧
      ∀ seq, (attempt visit request house faults).1.recording.Covers request seq ↔
        house.recording.Covers request seq := by
  obtain ⟨after, _, left, _, drops, _, _, state, _⟩ := attempt_of_some visit faults found
  have stillFound := drops.dropRequestAt found apart
  rw [state]
  refine ⟨stillFound, ?_, fun seq => drops.covers_iff found stillFound⟩
  intro seq covers
  exact drops.get_of_covers found ((drops.covers_iff found stillFound).mp covers)

/-- A call for a spent request answers `Ok` with an empty list and leaves the store alone. -/
theorem attempt_of_spent (visit : Bytes32) (faults : Faults)
    (found : house.recording.dropRequestAt request = some (requestSeq, dropRequest))
    (spent : house.Spent request) :
    (attempt visit request house faults).2 = .ok [] ∧
      (attempt visit request house faults).1.store = house.store := by
  obtain ⟨after, names, left, ended, _, members, looped, state, answer⟩ :=
    attempt_of_some visit faults found
  have none : names = [] := by
    rw [List.eq_nil_iff_forall_not_mem]
    intro seq member
    obtain ⟨live, covers⟩ := (members seq).mp member
    rw [spent seq covers] at live
    cases live
  subst none
  cases looped
  exact ⟨answer, by rw [state]⟩

theorem done_attempt (faults : Faults) (done : house.Done visit request) :
    (attempt visit request house faults).1.Done visit request := by
  cases found : house.recording.dropRequestAt request with
  | none =>
    rw [attempt_of_none found]
    exact Or.inl found
  | some isRequest =>
    obtain ⟨mirror, spent⟩ := done.resolve_left (by simp [found])
    have answered := (attempt_of_spent visit faults found spent).1
    have apart : ¬house.recording.Covers request isRequest.1 := by
      intro covers
      obtain ⟨_, stored, live, _⟩ := Recording.dropRequestAt_eq_some.mp found
      rw [spent _ covers] at live
      cases live
    exact Or.inr ⟨(settled_of_ok mirror answered).1, (spent_attempt visit faults found apart).2.1⟩

/-- A first call that is not interrupted leaves the request done. -/
theorem done_of_not_interrupted (mirror : house.RowsMirror visit)
    (clear : ¬Interrupted request house.recording faults) :
    (attempt visit request house faults).1.Done visit request := by
  cases found : house.recording.dropRequestAt request with
  | none =>
    rw [attempt_of_none found]
    exact Or.inl found
  | some isRequest =>
    obtain ⟨after, names, left, ended, drops, members, looped, state, answer⟩ :=
      attempt_of_some visit faults found
    by_cases own : house.recording.Covers request isRequest.1
    · rw [state]
      exact Or.inl (drops.dropRequestAt_eq_none found own)
    · have apart : ∀ requestSeq dropRequest,
          house.recording.dropRequestAt request = some (requestSeq, dropRequest) →
            ¬house.recording.Covers request requestSeq := by
        intro requestSeq dropRequest alsoFound
        rw [found] at alsoFound
        cases alsoFound
        exact own
      have unstruck : ∀ seq ∈ names, faults seq = none := by
        intro seq member
        obtain ⟨live, covers⟩ := (members seq).mp member
        by_contra struck
        exact clear ⟨⟨seq, covers, live, Option.isSome_iff_ne_none.mpr struck⟩, apart⟩
      have present : ∀ seq ∈ names, (house.store.getEvent visit seq).isSome := by
        intro seq member
        obtain ⟨stored, here⟩ := Option.isSome_iff_exists.mp ((members seq).mp member).1
        rw [mirror, Recording.get_eq_some.mp here]
        rfl
      obtain ⟨otherLeft, ends⟩ := ok_of_unstruck present unstruck
      rw [looped] at ends
      cases ends
      exact Or.inr ⟨(settled_of_ok mirror answer).1, (spent_attempt visit faults found own).2.1⟩

/-- A call that answers `Ok` on a done request keeps the promise. -/
theorem settled_of_done (done : house.Done visit request)
    (answered : (attempt visit request house faults).2 = .ok tombstoned) :
    Settled visit request house (attempt visit request house faults).1 tombstoned := by
  rcases done with missing | ⟨mirror, _⟩
  · rw [attempt_of_none missing] at answered
    cases answered
  · exact (settled_of_ok mirror answered).2

/-! ## Any number of calls -/

theorem retryable_of_clear {attempts : List Faults} (mirror : start.RowsMirror visit)
    (clear : ∀ first second rest, attempts = first :: second :: rest →
      ¬Interrupted request start.recording first) :
    Retryable visit request start attempts := by
  intro front faults rest split tombstoned answered
  cases front with
  | nil => exact (settled_of_ok mirror answered).2
  | cons first others =>
    have notFirst : ¬Interrupted request start.recording first := by
      cases others with
      | nil => exact clear first faults rest split
      | cons second others => exact clear first second (others ++ faults :: rest) split
    have opened := done_of_not_interrupted mirror notFirst
    have step : ∀ state faults, House.Done visit request state →
        House.Done visit request (attempt visit request state faults).1 :=
      fun _ faults done => done_attempt faults done
    have done : (afterAttempts visit request start (first :: others)).Done visit request :=
      Machine.run_always step opened others
    exact settled_of_done done answered

/-- After an interrupted call the next one answers `Ok`, and a covered row has its bytes. -/
theorem not_retryable_of_interrupted {first second : Faults} {rest : List Faults}
    (mirror : start.RowsMirror visit) (interrupted : Interrupted request start.recording first) :
    ¬Retryable visit request start (first :: second :: rest) := by
  intro retryable
  obtain ⟨⟨seq, covers, live, struck⟩, apart⟩ := interrupted
  obtain ⟨requestSeq, dropRequest, found, _⟩ := id covers
  have own := apart requestSeq dropRequest found
  obtain ⟨stillFound, spent, sameCover⟩ := spent_attempt visit first found own
  obtain ⟨answered, sameStore⟩ := attempt_of_spent visit second stillFound spent
  have settled := retryable [first] second rest rfl [] answered
  -- The row of the struck seq is as it was before both calls.
  obtain ⟨stored, here⟩ := Option.isSome_iff_exists.mp live
  have row : ((attempt visit request (attempt visit request start first).1 second).1.store).getEvent
      visit seq = some (Slot.row (.event stored)) := by
    obtain ⟨_, _, left, _, _, _, looped, state, _⟩ := attempt_of_some visit first found
    rw [sameStore, state]
    show left.getEvent visit seq = _
    rw [getEvent_of_struck looped struck, mirror, Recording.get_eq_some.mp here]
    rfl
  -- Its slot is a tombstone since the first call.
  have isTombstone : ((attempt visit request (attempt visit request start first).1
      second).1.recording.tombstoneAt seq).isSome := by
    obtain ⟨_, _, _, _, drops, _, _, state, _⟩ := attempt_of_some visit first found
    have dropped := (drops.tombstoneAt_isSome_iff found live).mpr covers
    obtain ⟨_, _, _, _, laterDrops, _, _, laterState, _⟩ :=
      attempt_of_some visit second stillFound
    rw [laterState]
    rw [state] at laterDrops
    obtain ⟨tombstone, there⟩ := Option.isSome_iff_exists.mp dropped
    exact Option.isSome_of_eq_some (laterDrops.tombstoneAt there)
  have erased := settled.erased seq ((sameCover seq).mpr covers) isTombstone _ row
  cases erased

/-- The calls keep the promise exactly when no second call follows an interrupted
first one. -/
theorem retryable_iff (mirror : start.RowsMirror visit) (attempts : List Faults) :
    Retryable visit request start attempts ↔
      ∀ first second rest, attempts = first :: second :: rest →
        ¬Interrupted request start.recording first := by
  constructor
  · rintro retryable first second rest rfl interrupted
    exact not_retryable_of_interrupted mirror interrupted retryable
  · exact retryable_of_clear mirror

/-! ## A store that fails once -/

/-- The store fails on the row at seq 0. -/
def failsAtZero : Faults := fun seq => if seq = 0 then some .queryReturnedNoRows else none

theorem laptopHouse_drops :
    laptopHouse.recording.dropRequestAt laptopEvent.eventId = some (2, ⟨0, none, none⟩) ∧
      laptopHouse.recording.visit = visitId ∧ (laptopHouse.recording.get 0).isSome = true := by
  decide +kernel

theorem rowsMirror_laptopHouse : laptopHouse.RowsMirror visitId := by
  have run : ∃ count, laptopHouse.Mirrors laptopCrypto count :=
    run_mirrors new_openedVisit openVisit_openedStore laptopHouse_checks.1
  obtain ⟨_, mirrors⟩ := run
  exact mirrors.rowsMirror laptopHouse_drops.2.1

theorem interrupted_laptopHouse :
    Interrupted laptopEvent.eventId laptopHouse.recording failsAtZero := by
  obtain ⟨requested, -, held⟩ := laptopHouse_drops
  constructor
  · refine ⟨0, ?_, held, by decide⟩
    rw [Recording.covers_iff requested]
    decide
  · intro requestSeq dropRequest found
    rw [Recording.covers_iff found]
    rw [requested] at found
    cases found
    decide

/-- The second call answers `Ok`, and the events of seqs 0 and 1 are still in the store. -/
theorem not_retryable_laptopHouse :
    ¬Retryable visitId laptopEvent.eventId laptopHouse [failsAtZero, fun _ => none] :=
  not_retryable_of_interrupted rowsMirror_laptopHouse interrupted_laptopHouse

/-- The condition for those calls. -/
theorem retryable_iff_laptopHouse :
    Retryable visitId laptopEvent.eventId laptopHouse [failsAtZero, fun _ => none] ↔
      ∀ first second rest, [failsAtZero, fun _ => none] = first :: second :: rest →
        ¬Interrupted laptopEvent.eventId laptopHouse.recording first :=
  retryable_iff rowsMirror_laptopHouse _

end House

end Mosschat.Core
