import Mosschat.Core.Recording.Run

/-!
Owns what an event of an unauthorised author does to a recording. Such an event
is never stored; but the place of an event is checked before its author, so R-13
can break the visit on an event that R-7 would have refused.
-/

namespace Mosschat.Core

open Mosschat.Library Mosschat.Library.Cbor

namespace Recording

variable {crypto : Crypto} {recording : Recording} {event : SignedEvent} {bytes : Bytes}
  {nowMs : UInt64} {after : Standing}

/-- The author is revoked; or it is not the host, no join open at the event's seq
lists it, and it is in force for nobody with such a join. -/
def Unauthorised (recording : Recording) (event : SignedEvent) : Prop :=
  event.envelope.author ∈ recording.revoked ∨
    (event.envelope.author ≠ recording.host ∧
      ¬recording.NamedOpen event.envelope.author event.envelope.seq ∧
      ∀ person, recording.personOf event.envelope.author = some person →
        ¬recording.Present person event.envelope.seq)

/-- No rule lets an unauthorised event through. -/
theorem Unauthorised.not_admits (unauthorised : recording.Unauthorised event) :
    ¬recording.Admits event nowMs after := by
  rintro ⟨_, authored, ruled⟩
  rcases unauthorised with revoked | ⟨stranger, notNamed, notPresent⟩
  · exact authored.notRevoked revoked
  · have ruled := applyBody_eq_ok.mp ruled
    unfold Ruled at ruled
    cases body : event.body with
    | join join =>
      rw [body] at ruled
      exact stranger ruled.1
    | leave leave =>
      rw [body] at ruled
      exact stranger ruled.1
    | _ =>
      have active := authored.active (by rw [body]; rfl)
      rcases Standing.authorStatus_eq_active.mp active with named | ⟨_, person, inForce, present⟩
      · exact notNamed named
      · exact notPresent person inForce present

/-- An unauthorised event is refused with the recording unchanged exactly when it
does not trip R-13. -/
theorem unauthorised_unchanged_iff (parsed : SignedEvent.parse crypto bytes = .ok event)
    (unauthorised : recording.Unauthorised event) :
    ((∃ reason, (recording.ingest crypto bytes nowMs).2 = .error reason) ∧
        (recording.ingest crypto bytes nowMs).1 = recording) ↔
      ¬(recording.broken = false ∧ recording.TripsR13 event) := by
  constructor
  · rintro ⟨_, unchanged⟩ ⟨sound, trips⟩
    rw [ingest_of_tripsR13 sound parsed trips] at unchanged
    have flag : recording.markBroken.broken = recording.broken := congrArg Recording.broken unchanged
    rw [sound] at flag
    cases flag
  · intro quiet
    rcases recording.ingest_cases crypto bytes nowMs with
      ⟨other, standing, _, alsoParsed, admits, _⟩ | ⟨other, sound, alsoParsed, trips, _⟩ |
        ⟨reason, _, equal⟩
    · rw [parsed] at alsoParsed
      cases alsoParsed
      exact absurd admits unauthorised.not_admits
    · rw [parsed] at alsoParsed
      cases alsoParsed
      exact absurd ⟨sound, trips⟩ quiet
    · rw [equal]
      exact ⟨⟨reason, rfl⟩, rfl⟩

/-! ## A stranger at seq 0 -/

def strangerKey : Bytes32 :=
  bytes32 0x91a28a0b74381593a4d9469579208926afc8ad82c8839b7644359b9eba9a4b3a

/-- A well-signed event of a key nobody has admitted, at the seq of the first join. -/
def strangerEvent : SignedEvent :=
  .assembled
    { v := 1, visit := visitId, author := strangerKey, seq := 0
      prev := zero32
      tsMs := 0
      bodyHash := bytes32
        0xfcf4423420a7ae0ee82c5f6e2a49bd540969c7ce394b463e12608436fbdbb1a7
      bodyLen := 5 }
    (bytes64
      0xae9af18e8966cad9aef9c84c4bc14663c4f1a5f9563abe46c2622f2126e5bc06
      0xfd8c3d7eae9d87e0a43b29c1d2fb7ef455fa79e81903292a93499645486fe905)
    (.dropRequest ⟨0, none, none⟩)
    (bytes32
      0x5f5fb77f43e07e576739acb78406b794f493e933bfc4c1e087042107aa4258f0)

def strangerCrypto : Crypto := .recordedFor [openingJoin, openingDrop, strangerEvent]

/-- The visit with the host's join in it. -/
def joinedVisit : Recording := openedVisit.call strangerCrypto (.ingest openingJoin.toBytes 5)

theorem joinedVisit_checks :
    SignedEvent.parse strangerCrypto strangerEvent.toBytes = .ok strangerEvent ∧
      strangerEvent.envelope.author ≠ joinedVisit.host ∧
      joinedVisit.joinDeviceStatus strangerEvent.envelope.author strangerEvent.envelope.seq ≠
        some .active ∧
      joinedVisit.personOf strangerKey = none ∧ joinedVisit.broken = false ∧
      (joinedVisit.ingest strangerCrypto strangerEvent.toBytes 6).1.broken = true ∧
      (joinedVisit.ingest strangerCrypto openingDrop.toBytes 6).2 = .ok openingDrop.eventId ∧
      ((joinedVisit.ingest strangerCrypto strangerEvent.toBytes 6).1.ingest strangerCrypto
        openingDrop.toBytes 6).2 = .error .alreadyBroken := by
  decide +kernel

theorem unauthorised_strangerEvent : joinedVisit.Unauthorised strangerEvent := by
  obtain ⟨-, first, second, vacant, -⟩ := joinedVisit_checks
  refine Or.inr ⟨first, ?_, ?_⟩
  · rw [← Standing.joinDeviceStatus_eq_active]
    exact second
  · intro person inForce
    change joinedVisit.personOf strangerKey = some person at inForce
    rw [vacant] at inForce
    cases inForce

/-- The stranger's event breaks the visit, and the host's next event is refused. -/
theorem strangerEvent_breaks :
    SignedEvent.parse strangerCrypto strangerEvent.toBytes = .ok strangerEvent ∧
      joinedVisit.Unauthorised strangerEvent ∧
      joinedVisit.broken = false ∧
      (joinedVisit.ingest strangerCrypto strangerEvent.toBytes 6).1.broken = true ∧
      (joinedVisit.ingest strangerCrypto openingDrop.toBytes 6).2 = .ok openingDrop.eventId ∧
      ((joinedVisit.ingest strangerCrypto strangerEvent.toBytes 6).1.ingest strangerCrypto
        openingDrop.toBytes 6).2 = .error .alreadyBroken := by
  obtain ⟨parsed, -, -, -, behind⟩ := joinedVisit_checks
  exact ⟨parsed, unauthorised_strangerEvent, behind⟩

/-- The condition for that event. -/
theorem unauthorised_unchanged_iff_strangerEvent :
    ((∃ reason, (joinedVisit.ingest strangerCrypto strangerEvent.toBytes 6).2 = .error reason) ∧
        (joinedVisit.ingest strangerCrypto strangerEvent.toBytes 6).1 = joinedVisit) ↔
      ¬(joinedVisit.broken = false ∧ joinedVisit.TripsR13 strangerEvent) :=
  unauthorised_unchanged_iff joinedVisit_checks.1 unauthorised_strangerEvent

end Recording

end Mosschat.Core
