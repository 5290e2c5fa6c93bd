import Mosschat.Core.Event.IngestRules
import Mathlib.Data.List.Sort

/-!
Owns the section a recording is shown as (`view/mod.rs`): the walk over its seqs,
the rendered entries, and the sorted participants.

Does not own the pages that group sections, nor the store they are rebuilt from.
-/

namespace Mosschat.Core

open Mosschat.Library Mosschat.Library.Cbor

inductive RenderedBody where
  | readable (body : Body)
  | unreadable (typeValue : UInt64) (raw : Bytes)
deriving DecidableEq

inductive ViewEntry where
  | event (seq : UInt64) (author : Bytes32) (tsMs : UInt64) (eventId : EventId)
      (body : RenderedBody)
  | dropped (seq : UInt64) (eventId : EventId)
deriving DecidableEq

/-- `ViewEntry::seq`. -/
def ViewEntry.seq : ViewEntry → UInt64
  | .event seq .. => seq
  | .dropped seq _ => seq

def ViewEntry.eventId : ViewEntry → EventId
  | .event _ _ _ eventId _ => eventId
  | .dropped _ eventId => eventId

def ViewEntry.isDropped : ViewEntry → Bool
  | .event .. => false
  | .dropped .. => true

structure VisitSection where
  visit : Bytes32
  host : Bytes32
  openedMs : UInt64
  participants : List Bytes32
  entries : List ViewEntry
deriving DecidableEq

def renderBody : Body → RenderedBody
  | .unknown typeValue raw => .unreadable typeValue raw
  | known => .readable known

namespace Recording

/-- `Recording::participant_keys`: sorted, without repetition. -/
def participantKeys (recording : Recording) : List Bytes32 :=
  (recording.participants.keys.insertionSort fun first second =>
    first.toList ≤ second.toList).dedup

/-- `Recording::seq_range`. -/
def seqRange (recording : Recording) : Option (UInt64 × UInt64) :=
  match recording.slots.keys.min?, recording.slots.keys.max? with
  | some least, some greatest => some (least, greatest)
  | _, _ => none

end Recording

/-- `least..=greatest`. -/
def seqsFrom (least greatest : UInt64) : List UInt64 :=
  (List.range (greatest.toNat + 1 - least.toNat)).map fun step =>
    UInt64.ofNat (least.toNat + step)

/-- What `visit_section` pushes for one seq, if anything. -/
def viewEntry (recording : Recording) (seq : UInt64) : Option ViewEntry :=
  match recording.get seq with
  | some stored =>
    some (.event seq stored.event.envelope.author stored.event.envelope.tsMs
      stored.event.eventId (renderBody stored.event.body))
  | none =>
    match recording.tombstoneAt seq with
    | some dropped => some (.dropped seq dropped.eventId)
    | none => none

/-- `visit_section`. -/
def visitSection (recording : Recording) : VisitSection where
  visit := recording.visit
  host := recording.host
  openedMs := ((recording.get 0).map fun stored => stored.event.envelope.tsMs).getD 0
  participants := recording.participantKeys
  entries :=
    match recording.seqRange with
    | none => []
    | some (least, greatest) => (seqsFrom least greatest).filterMap (viewEntry recording)

end Mosschat.Core
