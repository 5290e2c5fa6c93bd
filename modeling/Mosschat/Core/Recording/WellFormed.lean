import Mosschat.Core.Recording.Run
import Mosschat.Core.View

/-!
Owns the well-formedness of every reachable recording: its occupied seqs are an
initial segment, every live event sits in its own place with its predecessor's
id below it, replies and reactions point down, no id repeats, and the section
built from it lists exactly its slots.

Distinct ids need distinct digests; that is stated for the events the run was
offered, as `CollisionFree`.
-/

namespace Mosschat.Core

open Mosschat.Library Mosschat.Library.Cbor

/-- The id a body points at: the reply target or the reaction target. -/
def Body.pointsAt : Body → Option Bytes32
  | .message body => body.replyTo
  | .reaction body => some body.target
  | _ => none

namespace Recording

variable {crypto : Crypto} {recording before after : Recording} {event : SignedEvent}
  {standing : Standing} {seq : UInt64} {id : EventId} {nowMs : UInt64} {count : Nat}

/-! ## Ids only grow -/

/-- Every occupied slot keeps its id. -/
def IdsGrow (before after : Recording) : Prop :=
  ∀ seq id, before.ids.lookup seq = some id → after.ids.lookup seq = some id

theorem idsGrow_store (linked : recording.Linked event) :
    IdsGrow recording (recording.store event standing) := by
  intro seq id held
  rw [ids_store, HashMap.lookup_put]
  split_ifs with here
  · rw [linked.sameId id (here ▸ held)]
  · exact held

theorem IdsGrow.expectedPrev (grow : IdsGrow before after) {expected : Bytes32}
    (found : before.expectedPrev seq = some expected) : after.expectedPrev seq = some expected := by
  rw [expectedPrev_eq] at found ⊢
  split_ifs at found ⊢ with opening
  · exact found
  · obtain ⟨id, held, rfl⟩ := Option.map_eq_some_iff.mp found
    rw [grow _ _ held]
    rfl

/-! ## The invariant -/

/-- The occupied seqs are the first `count`. -/
structure Dense (recording : Recording) (count : Nat) : Prop where
  bounded : count ≤ 2 ^ 64
  occupied : ∀ seq, (∃ id, recording.ids.lookup seq = some id) ↔ seq.toNat < count

structure WellFormed (crypto : Crypto) (recording : Recording) (count : Nat) : Prop where
  dense : recording.Dense count
  visitNonzero : recording.visit ≠ zero32
  parsed : ∀ seq stored, recording.get seq = some stored →
    SignedEvent.Parsed crypto stored.event
  placed : ∀ seq stored, recording.get seq = some stored →
    stored.event.envelope.seq = seq ∧ stored.event.envelope.visit = recording.visit
  chained : ∀ seq stored, recording.get seq = some stored →
    recording.expectedPrev seq = some stored.event.envelope.prev
  tombstones : ∀ seq dropped, recording.tombstoneAt seq = some dropped → dropped.seq = seq
  pointers : ∀ seq stored target, recording.get seq = some stored →
    stored.event.body.pointsAt = some target →
      ∃ lower, lower < seq ∧ recording.ids.lookup lower = some (.fromBytes target)

/-! ### The predecessor rule keeps the seqs dense -/

theorem Dense.seq_le (dense : recording.Dense count) (linked : recording.Linked event) :
    event.envelope.seq.toNat ≤ count := by
  have held := linked.prev
  rw [expectedPrev_eq] at held
  split_ifs at held with opening
  · rw [opening]
    exact Nat.zero_le _
  · obtain ⟨id, found, _⟩ := Option.map_eq_some_iff.mp held
    have below := (dense.occupied _).mp ⟨id, found⟩
    have positive : (1 : UInt64) ≤ event.envelope.seq := by
      rw [UInt64.le_iff_toNat_le]
      have nonzero : event.envelope.seq.toNat ≠ 0 := fun zero => opening (UInt64.toNat_inj.mp zero)
      change 1 ≤ event.envelope.seq.toNat
      omega
    rw [UInt64.toNat_sub_of_le _ _ positive] at below
    change event.envelope.seq.toNat - 1 < count at below
    omega

theorem Dense.store (dense : recording.Dense count) (linked : recording.Linked event) :
    (recording.store event standing).Dense (max count (event.envelope.seq.toNat + 1)) where
  bounded := by
    have small := event.envelope.seq.toNat_lt
    have bounded := dense.bounded
    omega
  occupied := by
    intro seq
    have reach := dense.seq_le linked
    rw [ids_store, HashMap.lookup_put]
    split_ifs with here
    · subst here
      simp
    · rw [dense.occupied]
      have apart : seq.toNat ≠ event.envelope.seq.toNat := fun same =>
        here (UInt64.toNat_inj.mp same)
      omega

theorem Dense.congr (dense : before.Dense count) (same : after.ids = before.ids) :
    after.Dense count :=
  ⟨dense.bounded, by rw [same]; exact dense.occupied⟩

/-! ### The invariant survives every effect -/

/-- An accepted event points at an id held below it. -/
theorem pointsAt_of_ruled (ruled : recording.Ruled event standing) {target : Bytes32}
    (points : event.body.pointsAt = some target) :
    ∃ lower, lower < event.envelope.seq ∧
      recording.ids.lookup lower = some (.fromBytes target) := by
  have lower : recording.storedAtLowerSeq (.fromBytes target) event.envelope.seq = true := by
    unfold Ruled at ruled
    cases body : event.body with
    | message message =>
      rw [body] at ruled points
      exact ruled.1 target points
    | reaction reaction =>
      rw [body] at ruled points
      cases points
      exact ruled.1
    | _ => simp [body, Body.pointsAt] at points
  obtain ⟨found, held, less⟩ := storedAtLowerSeq_eq_true.mp lower
  exact ⟨found, less, lookup_ids_of_seqOf held⟩

theorem WellFormed.store (formed : recording.WellFormed crypto count)
    (parsed : SignedEvent.Parsed crypto event) (admits : recording.Admits event nowMs standing) :
    (recording.store event standing).WellFormed crypto
      (max count (event.envelope.seq.toNat + 1)) := by
  have grow : IdsGrow recording (recording.store event standing) := idsGrow_store admits.linked
  -- A slot read after the step is the new event's, or was read before it.
  have live : ∀ seq stored, (recording.store event standing).get seq = some stored →
      (seq = event.envelope.seq ∧ stored.event = event) ∨ recording.get seq = some stored := by
    intro seq stored found
    rw [get_store] at found
    split_ifs at found with here
    · cases found
      exact Or.inl ⟨here, rfl⟩
    · exact Or.inr found
  refine ⟨formed.dense.store admits.linked, formed.visitNonzero, ?_, ?_, ?_, ?_, ?_⟩
  · intro seq stored found
    rcases live seq stored found with ⟨_, isEvent⟩ | old
    · rw [isEvent]
      exact parsed
    · exact formed.parsed seq stored old
  · intro seq stored found
    rcases live seq stored found with ⟨here, isEvent⟩ | old
    · rw [here, isEvent]
      exact ⟨rfl, admits.linked.inVisit.same⟩
    · exact formed.placed seq stored old
  · intro seq stored found
    rcases live seq stored found with ⟨here, isEvent⟩ | old
    · rw [here, isEvent]
      exact grow.expectedPrev admits.linked.prev
    · exact grow.expectedPrev (formed.chained seq stored old)
  · intro seq dropped found
    rw [tombstoneAt_eq_some, lookup_store_slots] at found
    split_ifs at found
    · cases found
    · exact formed.tombstones seq dropped (tombstoneAt_eq_some.mpr found)
  · intro seq stored target found points
    rcases live seq stored found with ⟨here, isEvent⟩ | old
    · rw [isEvent] at points
      obtain ⟨lower, less, held⟩ := pointsAt_of_ruled (applyBody_eq_ok.mp admits.ruled) points
      exact ⟨lower, here ▸ less, grow _ _ held⟩
    · obtain ⟨lower, less, held⟩ := formed.pointers seq stored target old points
      exact ⟨lower, less, grow _ _ held⟩

theorem WellFormed.markBroken (formed : recording.WellFormed crypto count) :
    recording.markBroken.WellFormed crypto count :=
  ⟨⟨formed.dense.bounded, formed.dense.occupied⟩, formed.visitNonzero, formed.parsed,
    formed.placed, formed.chained, formed.tombstones, formed.pointers⟩

theorem WellFormed.dropsTo {gone : UInt64 → Prop} (formed : before.WellFormed crypto count)
    (drops : DropsTo before after gone) : after.WellFormed crypto count where
  dense := formed.dense.congr drops.ids
  visitNonzero := by
    rw [drops.visit]
    exact formed.visitNonzero
  parsed := fun seq stored found => formed.parsed seq stored (drops.get_eq_some.mp found).1
  placed := by
    intro seq stored found
    rw [drops.visit]
    exact formed.placed seq stored (drops.get_eq_some.mp found).1
  chained := by
    intro seq stored found
    have chained := formed.chained seq stored (drops.get_eq_some.mp found).1
    rw [expectedPrev_eq] at chained ⊢
    rwa [drops.ids]
  tombstones := by
    intro seq dropped found
    rw [tombstoneAt_eq_some] at found
    by_cases isGone : gone seq
    · rw [drops.dropped seq isGone] at found
      obtain ⟨slot, here, equal⟩ := Option.map_eq_some_iff.mp found
      cases slot with
      | event stored =>
        cases equal
        rfl
      | tombstone old =>
        cases equal
        exact formed.tombstones seq dropped (tombstoneAt_eq_some.mpr here)
    · rw [drops.kept seq isGone] at found
      exact formed.tombstones seq dropped (tombstoneAt_eq_some.mpr found)
  pointers := by
    intro seq stored target found points
    rw [drops.ids]
    exact formed.pointers seq stored target (drops.get_eq_some.mp found).1 points

theorem wellFormed_new {visit host : Bytes32} {start : Recording}
    (opened : Recording.new visit host = .ok start) : start.WellFormed crypto 0 := by
  have vacant := get_new opened
  refine ⟨⟨Nat.zero_le _, ?_⟩, ?_, ?_, ?_, ?_, ?_, ?_⟩
  · intro seq
    simp [lookup_ids_new opened]
  · obtain ⟨nonzero, rfl⟩ := new_eq_ok opened
    exact nonzero
  · intro seq stored found
    simp [vacant] at found
  · intro seq stored found
    simp [vacant] at found
  · intro seq stored found
    simp [vacant] at found
  · intro seq dropped found
    obtain ⟨_, rfl⟩ := new_eq_ok opened
    cases found
  · intro seq stored target found
    simp [vacant] at found

/-- Every reachable recording is well formed. -/
theorem run_exists_wellFormed {visit host : Bytes32} {start : Recording}
    (opened : Recording.new visit host = .ok start) (calls : List Call) :
    ∃ count, (Machine.run (call crypto) start calls).WellFormed crypto count := by
  apply run_call_preserves (fun recording => ∃ count, recording.WellFormed crypto count)
  · rintro recording event nowMs standing ⟨count, formed⟩ offered admits
    exact ⟨_, formed.store offered.parsed admits⟩
  · rintro recording ⟨count, formed⟩
    exact ⟨count, formed.markBroken⟩
  · rintro recording after gone ⟨count, formed⟩ drops
    exact ⟨count, formed.dropsTo drops⟩
  · exact ⟨0, wellFormed_new opened⟩

/-! ## Distinct ids -/

/-- BLAKE3 gives no two envelopes offered to the run one digest. -/
def CollisionFree (crypto : Crypto) (calls : List Call) : Prop :=
  ∀ first second, Offers crypto calls first → Offers crypto calls second →
    crypto.blake3 first.envelopeBytes = crypto.blake3 second.envelopeBytes →
      first.envelopeBytes = second.envelopeBytes

theorem CollisionFree.mono {fewer calls : List Call} (collisionFree : CollisionFree crypto calls)
    (inside : fewer ⊆ calls) : CollisionFree crypto fewer := by
  have offers : ∀ event, Offers crypto fewer event → Offers crypto calls event := by
    rintro event ⟨bytes, nowMs, member, parsed⟩
    exact ⟨bytes, nowMs, inside member, parsed⟩
  intro first second left right
  exact collisionFree first second (offers first left) (offers second right)

/-- Every held id, live or dropped, is that of an event offered for that seq. -/
def Sourced (crypto : Crypto) (calls : List Call) (recording : Recording) : Prop :=
  ∀ seq id, recording.ids.lookup seq = some id →
    ∃ event, Offers crypto calls event ∧ event.eventId = id ∧ event.envelope.seq = seq

theorem Sourced.store {calls : List Call} (sourced : Sourced crypto calls recording)
    (offered : Offers crypto calls event) : Sourced crypto calls (recording.store event standing) := by
  intro seq id held
  rw [ids_store, HashMap.lookup_put] at held
  split_ifs at held with here
  · cases held
    exact ⟨event, offered, rfl, here.symm⟩
  · exact sourced seq id held

theorem Sourced.dropsTo {calls : List Call} {gone : UInt64 → Prop}
    (sourced : Sourced crypto calls before) (drops : DropsTo before after gone) :
    Sourced crypto calls after := by
  intro seq id held
  rw [drops.ids] at held
  exact sourced seq id held

theorem sourced_new {visit host : Bytes32} {start : Recording}
    (opened : Recording.new visit host = .ok start) (calls : List Call) :
    Sourced crypto calls start := by
  intro seq id held
  rw [lookup_ids_new opened] at held
  cases held

theorem run_sourced {visit host : Bytes32} {start : Recording}
    (opened : Recording.new visit host = .ok start) (calls : List Call) :
    Sourced crypto calls (Machine.run (call crypto) start calls) := by
  apply run_call_preserves (Sourced crypto calls)
  · exact fun _ _ _ _ sourced offered _ => sourced.store offered
  · exact fun _ sourced => sourced
  · exact fun _ _ _ sourced drops => sourced.dropsTo drops
  · exact sourced_new opened calls

/-- An envelope's seq is under its digest. -/
theorem Sourced.distinct {calls : List Call} (sourced : Sourced crypto calls recording)
    (collisionFree : CollisionFree crypto calls) {first second : UInt64}
    (left : recording.ids.lookup first = some id)
    (right : recording.ids.lookup second = some id) : first = second := by
  obtain ⟨leftEvent, leftOffered, leftId, rfl⟩ := sourced first id left
  obtain ⟨rightEvent, rightOffered, rightId, rfl⟩ := sourced second id right
  have sameId : leftEvent.eventId = rightEvent.eventId := leftId.trans rightId.symm
  rw [leftOffered.parsed.identity, rightOffered.parsed.identity] at sameId
  have sameBytes := collisionFree leftEvent rightEvent leftOffered rightOffered
    (EventId.fromBytes.inj sameId)
  have sameEnvelope : leftEvent.envelope = rightEvent.envelope := by
    have leftDecodes := leftOffered.parsed.envelopeDecodes
    rw [sameBytes, rightOffered.parsed.envelopeDecodes] at leftDecodes
    exact (Except.ok.inj leftDecodes).symm
  rw [sameEnvelope]

/-! ## The section -/

instance : Std.LawfulOrderMax UInt64 where
  max_le_iff first second bound := by
    change (if first ≤ second then second else first) ≤ bound ↔ _
    simp only [UInt64.le_iff_toNat_le]
    split_ifs <;> omega
  max_eq_or first second := by
    change (if first ≤ second then second else first) = first ∨
      (if first ≤ second then second else first) = second
    split_ifs <;> simp

theorem toNat_ofNat_of_lt {value : Nat} (small : value < 2 ^ 64) :
    (UInt64.ofNat value).toNat = value :=
  UInt64.toNat_ofNat_of_lt' small

theorem mem_keys_slots : seq ∈ recording.slots.keys ↔ ∃ id, recording.ids.lookup seq = some id := by
  rw [← AList.mem_keys, ← AList.lookup_isSome, lookup_ids]
  cases recording.slots.lookup seq <;> simp

theorem Dense.seqRange_eq_none (dense : recording.Dense 0) : recording.seqRange = none := by
  have vacant : recording.slots.keys = [] := by
    apply List.eq_nil_iff_forall_not_mem.mpr
    intro seq member
    exact absurd ((dense.occupied seq).mp (mem_keys_slots.mp member)) (Nat.not_lt_zero _)
  simp [seqRange, vacant]

theorem Dense.seqRange_eq_some (dense : recording.Dense (count + 1)) :
    recording.seqRange = some (0, UInt64.ofNat count) := by
  have bounded := dense.bounded
  have last : (UInt64.ofNat count).toNat = count := toNat_ofNat_of_lt (by omega)
  have occupied : ∀ seq, seq ∈ recording.slots.keys ↔ seq.toNat < count + 1 := by
    intro seq
    rw [mem_keys_slots, dense.occupied]
  have least : recording.slots.keys.min? = some 0 := by
    rw [List.min?_eq_some_iff]
    exact ⟨(occupied 0).mpr (Nat.succ_pos count), fun seq _ => UInt64.le_iff_toNat_le.mpr
      (Nat.zero_le _)⟩
  have greatest : recording.slots.keys.max? = some (UInt64.ofNat count) := by
    rw [List.max?_eq_some_iff]
    refine ⟨(occupied _).mpr (by omega), ?_⟩
    intro seq member
    have below := (occupied seq).mp member
    rw [UInt64.le_iff_toNat_le]
    omega
  rw [seqRange, least, greatest]

theorem seqsFrom_zero (small : count < 2 ^ 64) :
    seqsFrom 0 (UInt64.ofNat count) = (List.range (count + 1)).map UInt64.ofNat := by
  have last : (UInt64.ofNat count).toNat = count := toNat_ofNat_of_lt small
  simp [seqsFrom, last]

/-- The entry of a slot shows the slot's id, as dropped exactly for a tombstone. -/
theorem viewEntry_eq_some {entry : ViewEntry} (shown : viewEntry recording seq = some entry) :
    entry.seq = seq ∧ recording.ids.lookup seq = some entry.eventId ∧
      (entry.isDropped = true ↔ ∃ dropped, recording.tombstoneAt seq = some dropped) := by
  unfold viewEntry at shown
  split at shown
  · next stored live =>
    cases shown
    have here := Recording.get_eq_some.mp live
    have alive : recording.tombstoneAt seq = none := by simp [tombstoneAt, here]
    refine ⟨rfl, by rw [lookup_ids, here]; rfl, ?_⟩
    simp [ViewEntry.isDropped, alive]
  · split at shown
    · next dropped found =>
      cases shown
      have here := tombstoneAt_eq_some.mp found
      exact ⟨rfl, by rw [lookup_ids, here]; rfl, by simp [ViewEntry.isDropped, found]⟩
    · cases shown

theorem exists_viewEntry (held : recording.ids.lookup seq = some id) :
    ∃ entry, viewEntry recording seq = some entry := by
  rw [lookup_ids] at held
  obtain ⟨slot, here, _⟩ := Option.map_eq_some_iff.mp held
  unfold viewEntry
  cases slot with
  | event stored =>
    rw [get_eq_some.mpr here]
    exact ⟨_, rfl⟩
  | tombstone dropped =>
    have notLive : recording.get seq = none := by simp [get, here]
    rw [notLive, tombstoneAt_eq_some.mpr here]
    exact ⟨_, rfl⟩

end Recording

/-- The entries are those of the first `count` seqs, in ascending order, each
with its slot's id, and dropped exactly at the tombstones. -/
structure VisitSection.Lists (shown : VisitSection) (recording : Recording) (count : Nat) :
    Prop where
  seqs : shown.entries.map ViewEntry.seq = (List.range count).map UInt64.ofNat
  ids : ∀ entry ∈ shown.entries, recording.ids.lookup entry.seq = some entry.eventId
  dropped : ∀ entry ∈ shown.entries, entry.isDropped = true ↔
    ∃ tombstone, recording.tombstoneAt entry.seq = some tombstone

namespace Recording

variable {crypto : Crypto} {recording : Recording} {count : Nat}

private theorem map_seq_filterMap {seqs : List UInt64}
    (shown : ∀ seq ∈ seqs, ∃ entry, viewEntry recording seq = some entry) :
    (seqs.filterMap (viewEntry recording)).map ViewEntry.seq = seqs := by
  induction seqs with
  | nil => rfl
  | cons seq rest ih =>
      obtain ⟨entry, here⟩ := shown seq (by simp)
      have others := ih fun other member => shown other (by simp [member])
      rw [List.filterMap_cons_some here, List.map_cons, others, (viewEntry_eq_some here).1]

theorem Dense.entries_eq (dense : recording.Dense count) :
    (visitSection recording).entries =
      ((List.range count).map UInt64.ofNat).filterMap (viewEntry recording) := by
  unfold visitSection
  dsimp only
  cases count with
  | zero => rw [dense.seqRange_eq_none]; rfl
  | succ last =>
    have bounded := dense.bounded
    rw [dense.seqRange_eq_some, ← seqsFrom_zero (by omega)]

theorem Dense.lists (dense : recording.Dense count) :
    (visitSection recording).Lists recording count := by
  have walked : ∀ entry ∈ (visitSection recording).entries,
      viewEntry recording entry.seq = some entry := by
    intro entry member
    rw [dense.entries_eq] at member
    obtain ⟨seq, _, here⟩ := List.mem_filterMap.mp member
    rwa [(viewEntry_eq_some here).1]
  refine ⟨?_, ?_, ?_⟩
  · rw [dense.entries_eq]
    apply map_seq_filterMap
    intro seq member
    obtain ⟨index, inside, rfl⟩ := List.mem_map.mp member
    have bounded := dense.bounded
    have below := List.mem_range.mp inside
    have toNat : (UInt64.ofNat index).toNat = index := toNat_ofNat_of_lt (by omega)
    obtain ⟨id, held⟩ := (dense.occupied (UInt64.ofNat index)).mpr (by omega)
    exact exists_viewEntry held
  · exact fun entry member => (viewEntry_eq_some (walked entry member)).2.1
  · exact fun entry member => (viewEntry_eq_some (walked entry member)).2.2

/-- Whatever calls a recording receives from its opening on, it is well formed,
its ids are distinct, and its section lists its slots. -/
theorem run_wellFormed {visit host : Bytes32} {start : Recording}
    (opened : Recording.new visit host = .ok start) (calls : List Call)
    (collisionFree : CollisionFree crypto calls) :
    ∃ count, (Machine.run (call crypto) start calls).WellFormed crypto count ∧
      (∀ first second id, (Machine.run (call crypto) start calls).ids.lookup first = some id →
        (Machine.run (call crypto) start calls).ids.lookup second = some id → first = second) ∧
      (visitSection (Machine.run (call crypto) start calls)).Lists
        (Machine.run (call crypto) start calls) count := by
  obtain ⟨count, formed⟩ :
      ∃ count, (Machine.run (call crypto) start calls).WellFormed crypto count :=
    run_exists_wellFormed opened calls
  have sourced : Sourced crypto calls (Machine.run (call crypto) start calls) :=
    run_sourced opened calls
  exact ⟨count, formed, fun _ _ _ left right => sourced.distinct collisionFree left right,
    formed.dense.lists⟩

private theorem offers_droppingRun {event : SignedEvent}
    (offered : Offers recordedCrypto droppingRun event) :
    event = openingJoin ∨ event = openingDrop := by
  obtain ⟨bytes, nowMs, member, parsed⟩ := offered
  have bytesEq : bytes = openingJoin.toBytes ∨ bytes = openingDrop.toBytes := by
    simp only [droppingRun, droppingCalls, List.mem_append, List.mem_cons, Call.ingest.injEq,
      reduceCtorEq, List.not_mem_nil, or_false] at member
    rcases member with (⟨rfl, _⟩ | ⟨rfl, _⟩) | ⟨rfl, _⟩
    · exact Or.inl rfl
    · exact Or.inr rfl
    · exact Or.inl rfl
  rcases bytesEq with rfl | rfl
  · rw [parse_openingJoin] at parsed
    exact Or.inl (Except.ok.inj parsed).symm
  · rw [parse_openingDrop] at parsed
    exact Or.inr (Except.ok.inj parsed).symm

theorem collisionFree_droppingRun : CollisionFree recordedCrypto droppingRun := by
  have apart : ∀ first ∈ [openingJoin, openingDrop], ∀ second ∈ [openingJoin, openingDrop],
      recordedCrypto.blake3 first.envelopeBytes = recordedCrypto.blake3 second.envelopeBytes →
        first.envelopeBytes = second.envelopeBytes := by
    decide +kernel
  intro first second left right
  exact apart first (by simpa using offers_droppingRun left) second
    (by simpa using offers_droppingRun right)

/-- The theorem on a run that drops its first event and is offered it again. -/
theorem run_wellFormed_droppingRun :
    ∃ count, (Machine.run (call recordedCrypto) openedVisit droppingRun).WellFormed
        recordedCrypto count ∧
      (∀ first second id,
        (Machine.run (call recordedCrypto) openedVisit droppingRun).ids.lookup first = some id →
          (Machine.run (call recordedCrypto) openedVisit droppingRun).ids.lookup second =
            some id → first = second) ∧
      (visitSection (Machine.run (call recordedCrypto) openedVisit droppingRun)).Lists
        (Machine.run (call recordedCrypto) openedVisit droppingRun) count :=
  run_wellFormed new_openedVisit droppingRun collisionFree_droppingRun

end Recording

end Mosschat.Core
