import Mosschat.Core.Identity
import Mosschat.Library.Table

/-!
Owns the two tables of `store.rs` that a recording is rebuilt from, `visit` and
`message`, with the constraints SQLite enforces on them: the primary keys and the
reference of a message to its visit. A `seq` is kept in a signed column.

Does not own the file, its key and lock, or the tables no recording is read from.
-/

namespace Mosschat.Core

open Mosschat.Library Mosschat.Library.Cbor

/-- What `rusqlite` reports. -/
inductive StoreError where
  | primaryKey
  | foreignKey
  | queryReturnedNoRows
deriving DecidableEq

/-- A row of `message`: a live event's bytes and id, or a tombstone's id alone. -/
structure StoredRow where
  eventBytes : Option Bytes
  eventId : Bytes32
deriving DecidableEq

structure VisitRow where
  host : Bytes32
  openedMs : UInt64
deriving DecidableEq

/-- `Store`, with `seq as i64` in the key of a message. -/
structure Store where
  visits : HashMap Bytes32 VisitRow
  messages : HashMap (Bytes32 × Int64) StoredRow
  referenced : ∀ visit seq, (visit, seq) ∈ messages → visit ∈ visits

namespace Store

/-- `create_schema`. -/
def empty : Store where
  visits := ∅
  messages := ∅
  referenced := fun _ _ held => absurd held (AList.notMem_empty _)

/-- `Store::open_visit`. -/
def openVisit (store : Store) (visit host : Bytes32) (openedMs : UInt64) :
    Except StoreError Store :=
  if visit ∈ store.visits then .error .primaryKey
  else
    .ok
      { store with
        visits := store.visits.put visit ⟨host, openedMs⟩
        referenced := fun other seq held =>
          (HashMap.mem_put _ _ _ _).mpr (Or.inr (store.referenced other seq held)) }

/-- A row set under a key whose visit is there. -/
def putMessage (store : Store) (visit : Bytes32) (seq : UInt64) (row : StoredRow)
    (known : visit ∈ store.visits) : Store where
  visits := store.visits
  messages := store.messages.put (visit, seq.toInt64) row
  referenced := by
    intro other column held
    rcases (HashMap.mem_put _ _ _ _).mp held with same | old
    · cases same
      exact known
    · exact store.referenced other column old

/-- `Store::append_event`. -/
def appendEvent (store : Store) (visit : Bytes32) (seq : UInt64) (eventId : Bytes32)
    (eventBytes : Bytes) : Except StoreError Store :=
  if known : visit ∈ store.visits then
    if (visit, seq.toInt64) ∈ store.messages then .error .primaryKey
    else .ok (store.putMessage visit seq ⟨some eventBytes, eventId⟩ known)
  else .error .foreignKey

/-- `Store::get_event`. -/
def getEvent (store : Store) (visit : Bytes32) (seq : UInt64) : Option StoredRow :=
  store.messages.lookup (visit, seq.toInt64)

/-- `Store::tombstone_event`. -/
def tombstoneEvent (store : Store) (visit : Bytes32) (seq : UInt64) : Except StoreError Store :=
  match found : store.getEvent visit seq with
  | none => .error .queryReturnedNoRows
  | some row =>
    .ok
      (store.putMessage visit seq { row with eventBytes := none }
        (store.referenced visit seq.toInt64 (AList.lookup_isSome.mp (Option.isSome_of_eq_some found))))

/-- `Store::events_for_visit`: `ORDER BY seq` orders the signed column. -/
def eventsForVisit (store : Store) (visit : Bytes32) : List (UInt64 × StoredRow) :=
  (Table.scan (· ≤ ·) store.messages visit).map fun row => (row.1.toUInt64, row.2)

/-- `Store::visit_row`. -/
def visitRow (store : Store) (visit : Bytes32) : Option VisitRow := store.visits.lookup visit

/-- `Store::list_visits`: `ORDER BY opened_ms`, a signed column too. -/
def listVisits (store : Store) : List Bytes32 :=
  (store.visits.entries.insertionSort fun first second =>
    first.2.openedMs.toInt64 ≤ second.2.openedMs.toInt64).map Sigma.fst

/-! ## What each operation leaves -/

section Rows

variable {store after : Store} {visit other host : Bytes32} {seq atSeq openedMs : UInt64}
  {row : StoredRow}

@[simp] theorem getEvent_putMessage (known : visit ∈ store.visits) :
    (store.putMessage visit seq row known).getEvent other atSeq =
      if other = visit ∧ atSeq = seq then some row else store.getEvent other atSeq := by
  have sameColumn : ((other, atSeq.toInt64) = (visit, seq.toInt64)) ↔
      other = visit ∧ atSeq = seq := by
    rw [Prod.mk.injEq]
    constructor
    · rintro ⟨sameVisit, columns⟩
      have back := congrArg Int64.toUInt64 columns
      rw [UInt64.toUInt64_toInt64, UInt64.toUInt64_toInt64] at back
      exact ⟨sameVisit, back⟩
    · rintro ⟨rfl, rfl⟩
      exact ⟨rfl, rfl⟩
  unfold getEvent putMessage
  dsimp only
  rw [HashMap.lookup_put]
  simp only [sameColumn]

theorem appendEvent_eq_ok {eventId : Bytes32} {eventBytes : Bytes} :
    store.appendEvent visit seq eventId eventBytes = .ok after ↔
      store.getEvent visit seq = none ∧ ∃ known : visit ∈ store.visits,
        after = store.putMessage visit seq ⟨some eventBytes, eventId⟩ known := by
  unfold appendEvent getEvent
  rw [AList.lookup_eq_none]
  by_cases known : visit ∈ store.visits
  · by_cases occupied : (visit, seq.toInt64) ∈ store.messages
    · simp [known, occupied]
    · simp [known, occupied, eq_comm]
  · simp [known]

theorem tombstoneEvent_eq_ok :
    store.tombstoneEvent visit seq = .ok after ↔
      ∃ row, store.getEvent visit seq = some row ∧ ∃ known : visit ∈ store.visits,
        after = store.putMessage visit seq { row with eventBytes := none } known := by
  unfold tombstoneEvent
  constructor
  · intro replaced
    split at replaced
    · cases replaced
    · next row found =>
      refine ⟨row, found, store.referenced visit seq.toInt64 ?_, (Except.ok.inj replaced).symm⟩
      exact AList.lookup_isSome.mp (Option.isSome_of_eq_some found)
  · rintro ⟨row, found, known, rfl⟩
    split
    · next vacant =>
      rw [vacant] at found
      cases found
    · next held here =>
      rw [here] at found
      cases found
      rfl

theorem mem_eventsForVisit :
    (seq, row) ∈ store.eventsForVisit visit ↔ store.getEvent visit seq = some row := by
  unfold eventsForVisit getEvent
  rw [List.mem_map]
  constructor
  · rintro ⟨⟨column, held⟩, member, equal⟩
    cases equal
    rw [Int64.toInt64_toUInt64]
    exact Table.mem_scan.mp member
  · intro found
    exact ⟨(seq.toInt64, row), Table.mem_scan.mpr found, by rw [UInt64.toUInt64_toInt64]⟩

theorem sorted_eventsForVisit (store : Store) (visit : Bytes32) :
    (store.eventsForVisit visit).Pairwise fun first second =>
      first.1.toInt64 ≤ second.1.toInt64 := by
  have total : Std.Total fun first second : Int64 => first ≤ second := ⟨Int64.le_total⟩
  have trans : IsTrans Int64 fun first second => first ≤ second :=
    ⟨fun _ _ _ lower upper => Int64.le_trans lower upper⟩
  unfold eventsForVisit
  rw [List.pairwise_map]
  simp only [Int64.toInt64_toUInt64]
  exact Table.pairwise_scan

/-- A row above all rows of its visit is listed last. -/
theorem eventsForVisit_putMessage (known : visit ∈ store.visits)
    (vacant : store.getEvent visit seq = none)
    (above : ∀ other held, store.getEvent visit other = some held →
      other.toInt64 < seq.toInt64) :
    (store.putMessage visit seq row known).eventsForVisit visit =
      store.eventsForVisit visit ++ [(seq, row)] := by
  have last : ∀ column held, store.messages.lookup (visit, column) = some held →
      ¬seq.toInt64 ≤ column := by
    intro column held here
    have below : column < seq.toInt64 := by
      have found : store.getEvent visit column.toUInt64 = some held := by
        rw [getEvent, Int64.toInt64_toUInt64]
        exact here
      have lower := above column.toUInt64 held found
      rwa [Int64.toInt64_toUInt64] at lower
    exact Int64.not_le.mpr below
  have appended : Table.scan (· ≤ ·) (store.messages.put (visit, seq.toInt64) row) visit =
      Table.scan (· ≤ ·) store.messages visit ++ [(seq.toInt64, row)] :=
    Table.scan_put_last last (AList.lookup_eq_none.mp vacant)
  unfold eventsForVisit putMessage
  dsimp only
  rw [appended, List.map_append, List.map_singleton, UInt64.toUInt64_toInt64]

/-- A visit just opened has no rows: a message needs its visit. -/
theorem getEvent_of_openVisit (opened : store.openVisit visit host openedMs = .ok after) :
    visit ∈ after.visits ∧ ∀ seq, after.getEvent visit seq = none := by
  unfold openVisit at opened
  split_ifs at opened with known
  cases opened
  refine ⟨(HashMap.mem_put _ _ _ _).mpr (Or.inl rfl), ?_⟩
  intro seq
  apply AList.lookup_eq_none.mpr
  exact fun held => known (store.referenced visit seq.toInt64 held)

end Rows

end Store

end Mosschat.Core
