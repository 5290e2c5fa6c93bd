import Mosschat.Core.Store
import Mosschat.Core.View

/-!
Owns the two paths of `view/mod.rs` between a recording and its rows: the replay
that rebuilds a recording, and the honouring of a drop-request in both.
-/

namespace Mosschat.Core

open Mosschat.Library Mosschat.Library.Cbor

inductive ViewError where
  | store (reason : StoreError)
  | ingest (reason : IngestError)
  | recordingOpen (reason : IngestError)
  | noSuchVisit
deriving DecidableEq

namespace View

/-- One round of the loop in `recording_from_store`. -/
def replayRow (crypto : Crypto) (nowMs : UInt64) (recording : Recording)
    (row : UInt64 × StoredRow) : Except ViewError Recording :=
  match row.2.eventBytes with
  | some bytes =>
    match recording.ingest crypto bytes nowMs with
    | (after, .ok _) => .ok after
    | (_, .error reason) => .error (.ingest reason)
  | none => .ok (recording.insertTombstone row.1 (.fromBytes row.2.eventId))

/-- `recording_from_store`. -/
def recordingFromStore (crypto : Crypto) (store : Store) (visit host : Bytes32)
    (nowMs : UInt64) : Except ViewError Recording :=
  match Recording.new visit host with
  | .error reason => .error (.recordingOpen reason)
  | .ok recording => (store.eventsForVisit visit).foldlM (replayRow crypto nowMs) recording

/-- `recordings_from_store`. -/
def recordingsFromStore (crypto : Crypto) (store : Store) (nowMs : UInt64) :
    Except ViewError (List Recording) :=
  store.listVisits.mapM fun visit =>
    match store.visitRow visit with
    | none => .error .noSuchVisit
    | some row => recordingFromStore crypto store visit row.host nowMs

/-- The loop over the store in `honour_drop_request`. The first error ends it, and
the rows before it stay tombstoned. -/
def tombstoneEach (tombstoneEvent : Store → UInt64 → Except StoreError Store) :
    Store → List UInt64 → Store × Except StoreError Unit
  | store, [] => (store, .ok ())
  | store, seq :: rest =>
    match tombstoneEvent store seq with
    | .error reason => (store, .error reason)
    | .ok after => tombstoneEach tombstoneEvent after rest

/-- The seqs that are live in a recording, ascending. -/
def liveSeqs (recording : Recording) : List UInt64 :=
  match recording.seqRange with
  | some (least, greatest) =>
    (seqsFrom least greatest).filter fun seq => (recording.get seq).isSome
  | none => []

/-- `honour_drop_request`, with the recording and the store it leaves. -/
def honourDropRequest (store : Store) (visit : Bytes32) (recording : Recording)
    (request : EventId) : Recording × Store × Except ViewError (List UInt64) :=
  let before := liveSeqs recording
  match recording.honourDropRequest request with
  | .error reason => (recording, store, .error (.ingest reason))
  | .ok (after, _) =>
    let tombstoned :=
      (before.filter fun seq => (after.tombstoneAt seq).isSome).insertionSort (· ≤ ·)
    match tombstoneEach (fun store seq => store.tombstoneEvent visit seq) store tombstoned with
    | (left, .error reason) => (after, left, .error (.store reason))
    | (left, .ok ()) => (after, left, .ok tombstoned)

end View

end Mosschat.Core
