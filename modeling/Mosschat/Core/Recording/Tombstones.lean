import Mosschat.Core.Recording.Run

/-!
Owns how long a tombstone lasts. A tombstone shares its id with the event it
replaced, and R-13 compares ids only, so the event's own bytes pass its check
again; the slot then turns live exactly when the author and type rules admit
those bytes a second time.
-/

namespace Mosschat.Core

open Mosschat.Library Mosschat.Library.Cbor

namespace Recording

variable {crypto : Crypto} {recording before after : Recording} {event : SignedEvent}
  {standing : Standing} {seq : UInt64} {dropped : Tombstone} {input : Call}

/-- The call offers bytes for the slot at `seq` that the place, author and type
rules admit in this state. -/
def Revives (crypto : Crypto) (seq : UInt64) (recording : Recording) : Call → Prop
  | .ingest bytes nowMs =>
    recording.broken = false ∧ ∃ event, SignedEvent.parse crypto bytes = .ok event ∧
      event.envelope.seq = seq ∧ recording.Linked event ∧ recording.Authored event nowMs ∧
      ∃ after, recording.Ruled event after
  | .honourDropRequest _ => False

theorem tombstoneAt_store (elsewhere : event.envelope.seq ≠ seq) :
    (recording.store event standing).tombstoneAt seq = recording.tombstoneAt seq := by
  unfold tombstoneAt
  rw [lookup_store_slots, if_neg (Ne.symm elsewhere)]

theorem DropsTo.tombstoneAt {gone : UInt64 → Prop} (drops : DropsTo before after gone)
    (held : before.tombstoneAt seq = some dropped) : after.tombstoneAt seq = some dropped := by
  rw [tombstoneAt_eq_some] at held ⊢
  by_cases isGone : gone seq
  · rw [drops.dropped seq isGone, held]
    rfl
  · rw [drops.kept seq isGone, held]

/-- One call leaves a tombstone where it is, or revives it. -/
theorem tombstoneAt_call_iff (held : recording.tombstoneAt seq = some dropped) :
    (recording.call crypto input).tombstoneAt seq = some dropped ↔
      ¬Revives crypto seq recording input := by
  constructor
  · intro stays revives
    cases input with
    | honourDropRequest request => exact revives
    | ingest bytes nowMs =>
      obtain ⟨sound, event, parsed, place, linked, authored, standing, ruled⟩ := revives
      have admits : recording.Admits event nowMs standing :=
        ⟨linked, authored, applyBody_eq_ok.mpr ruled⟩
      rw [call, ingest_of_admits sound parsed admits, tombstoneAt_eq_some, lookup_store_slots,
        if_pos place.symm] at stays
      cases stays
  · intro quiet
    rcases recording.call_cases crypto input with
      ⟨bytes, nowMs, event, standing, rfl, sound, parsed, admits, equal⟩ |
        ⟨_, _, _, _, _, _, _, equal⟩ | ⟨_, _, _, _, _, drops⟩ | equal
    · have elsewhere : event.envelope.seq ≠ seq := by
        intro place
        exact quiet ⟨sound, event, parsed, place, admits.linked, admits.authored, standing,
          applyBody_eq_ok.mp admits.ruled⟩
      rw [equal, tombstoneAt_store elsewhere]
      exact held
    · rw [equal]
      exact held
    · exact drops.tombstoneAt held
    · rw [equal]
      exact held

/-- A tombstone lasts through a run exactly when no call of the run revives it. -/
theorem tombstone_lasts_iff (held : recording.tombstoneAt seq = some dropped)
    (calls : List Call) :
    Machine.Throughout (call crypto)
        (fun reached => reached.get seq = none ∧ reached.tombstoneAt seq = some dropped)
        recording calls ↔
      Machine.Guarded (call crypto) (fun reached input => ¬Revives crypto seq reached input)
        recording calls := by
  have notLive : ∀ reached : Recording, reached.tombstoneAt seq = some dropped →
      reached.get seq = none := by
    intro reached here
    simp [get, tombstoneAt_eq_some.mp here]
  apply Machine.throughout_iff_guarded
  · rintro reached input ⟨_, here⟩
    rw [← tombstoneAt_call_iff here]
    exact ⟨fun both => both.2, fun stays => ⟨notLive _ stays, stays⟩⟩
  · exact ⟨notLive recording held, held⟩

/-- Offered again, the dropped join is live at seq 0. -/
theorem droppedVisit_revived :
    droppedVisit.tombstoneAt 0 = some ⟨0, openingJoin.eventId⟩ ∧
      (droppedVisit.call recordedCrypto (.ingest openingJoin.toBytes 6)).get 0 =
        some ⟨openingJoin⟩ := by
  decide +kernel

/-- The condition at that tombstone, for a second honour and the same bytes. -/
theorem tombstone_lasts_iff_droppedVisit :
    Machine.Throughout (call recordedCrypto)
        (fun reached => reached.get 0 = none ∧
          reached.tombstoneAt 0 = some ⟨0, openingJoin.eventId⟩)
        droppedVisit
        [.honourDropRequest openingDrop.eventId, .ingest openingJoin.toBytes 6] ↔
      Machine.Guarded (call recordedCrypto)
        (fun reached input => ¬Revives recordedCrypto 0 reached input) droppedVisit
        [.honourDropRequest openingDrop.eventId, .ingest openingJoin.toBytes 6] :=
  tombstone_lasts_iff (by decide +kernel) _

end Recording

end Mosschat.Core
