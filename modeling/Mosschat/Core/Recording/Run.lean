import Mosschat.Core.Event.BodyRules
import Mosschat.Library.Machine

/-!
Owns runs of one recording: the calls its callers make, the recording each call
leaves, and what any call can change.
-/

namespace Mosschat.Core

open Mosschat.Library Mosschat.Library.Cbor

/-- One call on a recording. -/
inductive Call where
  | ingest (input : Bytes) (nowMs : UInt64)
  | honourDropRequest (request : EventId)

namespace Recording

/-- The recording a call leaves; a refused honour leaves it as it was. -/
def call (crypto : Crypto) (recording : Recording) : Call → Recording
  | .ingest input nowMs => (recording.ingest crypto input nowMs).1
  | .honourDropRequest request =>
    match recording.honourDropRequest request with
    | .error _ => recording
    | .ok (after, _) => after

/-- The event that a call gets accepted, if it does. -/
def acceptedBy (crypto : Crypto) (recording : Recording) : Call → Option SignedEvent
  | .ingest bytes nowMs =>
    match SignedEvent.parse crypto bytes, (recording.ingest crypto bytes nowMs).2 with
    | .ok event, .ok _ => some event
    | _, _ => none
  | .honourDropRequest _ => none

variable {crypto : Crypto} {recording start : Recording} {visit host : Bytes32}

/-- What a call does to a recording: it stores an event, breaks the visit, drops
slots, or changes nothing. -/
theorem call_cases (crypto : Crypto) (recording : Recording) (input : Call) :
    (∃ bytes nowMs event after, input = .ingest bytes nowMs ∧ recording.broken = false ∧
        SignedEvent.parse crypto bytes = .ok event ∧ recording.Admits event nowMs after ∧
        recording.call crypto input = recording.store event after) ∨
      (∃ bytes nowMs event, input = .ingest bytes nowMs ∧ recording.broken = false ∧
        SignedEvent.parse crypto bytes = .ok event ∧ recording.TripsR13 event ∧
        recording.call crypto input = recording.markBroken) ∨
      (∃ request requestSeq dropRequest, input = .honourDropRequest request ∧
        recording.dropRequestAt request = some (requestSeq, dropRequest) ∧
        recording.DropsTo (recording.call crypto input)
          fun seq => seq ∈ recording.dropTargets requestSeq dropRequest) ∨
      recording.call crypto input = recording := by
  cases input with
  | ingest bytes nowMs =>
    rcases recording.ingest_cases crypto bytes nowMs with
      ⟨event, after, sound, parsed, admits, equal⟩ | ⟨event, sound, parsed, trips, equal⟩ |
        ⟨reason, _, equal⟩
    · exact Or.inl ⟨bytes, nowMs, event, after, rfl, sound, parsed, admits,
        congrArg Prod.fst equal⟩
    · exact Or.inr (Or.inl ⟨bytes, nowMs, event, rfl, sound, parsed, trips,
        congrArg Prod.fst equal⟩)
    · exact Or.inr (Or.inr (Or.inr (congrArg Prod.fst equal)))
  | honourDropRequest request =>
    cases honoured : recording.honourDropRequest request with
    | error reason =>
      refine Or.inr (Or.inr (Or.inr ?_))
      simp only [call, honoured]
    | ok result =>
      rcases result with ⟨after, count⟩
      obtain ⟨requestSeq, dropRequest, found, drops⟩ := honourDropRequest_ok honoured
      refine Or.inr (Or.inr (Or.inl ⟨request, requestSeq, dropRequest, rfl, found, ?_⟩))
      simpa only [call, honoured] using drops

/-- The event is one of those a run was offered. -/
def Offers (crypto : Crypto) (calls : List Call) (event : SignedEvent) : Prop :=
  ∃ bytes nowMs, Call.ingest bytes nowMs ∈ calls ∧ SignedEvent.parse crypto bytes = .ok event

theorem Offers.parsed {calls : List Call} {event : SignedEvent}
    (offered : Offers crypto calls event) : SignedEvent.Parsed crypto event := by
  obtain ⟨_, _, _, parsed⟩ := offered
  exact SignedEvent.parsed_of_parse parsed

theorem acceptedBy_eq_some {input : Call} {event : SignedEvent} :
    recording.acceptedBy crypto input = some event ↔
      ∃ bytes nowMs after, input = .ingest bytes nowMs ∧ recording.broken = false ∧
        SignedEvent.parse crypto bytes = .ok event ∧ recording.Admits event nowMs after ∧
        recording.call crypto input = recording.store event after := by
  cases input with
  | honourDropRequest request => simp [acceptedBy]
  | ingest bytes nowMs =>
    rcases recording.ingest_cases crypto bytes nowMs with
      ⟨found, after, sound, parsed, admits, equal⟩ | ⟨found, sound, parsed, trips, equal⟩ |
        ⟨reason, _, equal⟩
    · simp only [acceptedBy, parsed, equal, Option.some.injEq, call]
      constructor
      · rintro rfl
        exact ⟨bytes, nowMs, after, rfl, sound, parsed, admits, rfl⟩
      · rintro ⟨_, _, _, same, _, alsoParsed, _⟩
        cases same
        rw [parsed] at alsoParsed
        exact Except.ok.inj alsoParsed
    · have refused : recording.acceptedBy crypto (.ingest bytes nowMs) = none := by
        simp [acceptedBy, parsed, equal]
      rw [refused]
      constructor
      · intro impossible
        cases impossible
      · rintro ⟨_, _, _, same, _, alsoParsed, admits, _⟩
        cases same
        rw [ingest_of_admits sound alsoParsed admits] at equal
        cases congrArg Prod.snd equal
    · have refused : recording.acceptedBy crypto (.ingest bytes nowMs) = none := by
        cases parsed : SignedEvent.parse crypto bytes <;> simp [acceptedBy, parsed, equal]
      rw [refused]
      constructor
      · intro impossible
        cases impossible
      · rintro ⟨_, _, _, same, sound, parsed, admits, _⟩
        cases same
        rw [ingest_of_admits sound parsed admits] at equal
        cases congrArg Prod.snd equal

/-- A refused event leaves the recording as it was, or breaks it. -/
theorem call_of_refused {bytes : Bytes} {nowMs : UInt64}
    (refused : recording.acceptedBy crypto (.ingest bytes nowMs) = none) :
    recording.call crypto (.ingest bytes nowMs) = recording ∨
      recording.call crypto (.ingest bytes nowMs) = recording.markBroken := by
  rcases recording.ingest_cases crypto bytes nowMs with
    ⟨event, after, sound, parsed, admits, equal⟩ | ⟨event, sound, parsed, trips, equal⟩ |
      ⟨reason, _, equal⟩
  · have accepted : recording.acceptedBy crypto (.ingest bytes nowMs) = some event :=
      acceptedBy_eq_some.mpr
        ⟨bytes, nowMs, after, rfl, sound, parsed, admits, congrArg Prod.fst equal⟩
    rw [refused] at accepted
    cases accepted
  · exact Or.inr (congrArg Prod.fst equal)
  · exact Or.inl (congrArg Prod.fst equal)

/-- The call does not offer again an event whose id its slot already holds. -/
def Fresh (crypto : Crypto) (recording : Recording) : Call → Prop
  | .ingest bytes _ => ∀ event, SignedEvent.parse crypto bytes = .ok event →
      recording.ids.lookup event.envelope.seq ≠ some event.eventId
  | .honourDropRequest _ => True

theorem fresh_of_parse {bytes : Bytes} {nowMs : UInt64} {event : SignedEvent}
    (parsed : SignedEvent.parse crypto bytes = .ok event)
    (vacant : recording.ids.lookup event.envelope.seq ≠ some event.eventId) :
    Fresh crypto recording (.ingest bytes nowMs) := by
  intro other alsoParsed
  rw [parsed] at alsoParsed
  cases alsoParsed
  exact vacant

instance decidableForallOk {ε α : Type} (result : Except ε α) (holds : α → Prop)
    [DecidablePred holds] : Decidable (∀ value, result = .ok value → holds value) :=
  match result with
  | .error _ => .isTrue nofun
  | .ok value => decidable_of_iff (holds value) (by simp)

instance decidableFresh (crypto : Crypto) (recording : Recording) :
    (call : Call) → Decidable (Fresh crypto recording call)
  | .honourDropRequest _ => .isTrue trivial
  | .ingest bytes _ => decidableForallOk (SignedEvent.parse crypto bytes) fun event =>
      recording.ids.lookup event.envelope.seq ≠ some event.eventId

/-- A property of recordings that every effect of a call keeps holds after every
run. -/
theorem run_call_preserves (invariant : Recording → Prop) {calls : List Call}
    (stored : ∀ recording event nowMs after, invariant recording →
      Offers crypto calls event → recording.Admits event nowMs after →
      invariant (recording.store event after))
    (broke : ∀ recording, invariant recording → invariant recording.markBroken)
    (dropped : ∀ recording after gone, invariant recording →
      recording.DropsTo after gone → invariant after)
    (initial : invariant start) : invariant (Machine.run (call crypto) start calls) := by
  refine Machine.run_preserves ?_ initial (Machine.guarded_mem start calls)
  intro recording input holds member
  rcases recording.call_cases crypto input with
    ⟨bytes, nowMs, event, after, rfl, _, parsed, admits, equal⟩ | ⟨_, _, _, _, _, _, _, equal⟩ |
      ⟨_, _, _, _, _, drops⟩ | equal
  · rw [equal]
    exact stored recording event nowMs after holds ⟨bytes, nowMs, member, parsed⟩ admits
  · rw [equal]
    exact broke recording holds
  · exact dropped recording _ _ holds drops
  · rw [equal]
    exact holds

theorem new_eq_ok (opened : Recording.new visit host = .ok start) :
    visit ≠ zero32 ∧ start =
      { visit, host, slots := ∅, participants := ∅, revoked := ∅, devicesInForce := ∅
        deviceAddWindows := ∅, reactionsAdded := [], broken := false } := by
  unfold Recording.new at opened
  split_ifs at opened with zero
  exact ⟨zero, (Except.ok.inj opened).symm⟩

theorem new_inj {otherVisit otherHost : Bytes32} (opened : Recording.new visit host = .ok start)
    (alsoOpened : Recording.new otherVisit otherHost = .ok start) :
    visit = otherVisit ∧ host = otherHost := by
  obtain ⟨_, first⟩ := new_eq_ok opened
  obtain ⟨_, second⟩ := new_eq_ok alsoOpened
  rw [second] at first
  exact ⟨(congrArg Recording.visit first).symm, (congrArg Recording.host first).symm⟩

theorem lookup_ids_new (opened : Recording.new visit host = .ok start) (seq : UInt64) :
    start.ids.lookup seq = none := by
  obtain ⟨_, rfl⟩ := new_eq_ok opened
  rw [lookup_ids]
  rfl

theorem get_new (opened : Recording.new visit host = .ok start) (seq : UInt64) :
    start.get seq = none := by
  obtain ⟨_, rfl⟩ := new_eq_ok opened
  rfl

end Recording

/-! ## One recorded visit -/

def visitId : Bytes32 := List.Vector.replicate 32 0x11

def hostKey : Bytes32 :=
  bytes32 0xea4a6c63e29c520abef5507b132ec5f9954776aebebe7b92421eea691446d22c

/-- The visit before its first event. -/
def openedVisit : Recording where
  visit := visitId
  host := hostKey
  slots := ∅
  participants := ∅
  revoked := ∅
  devicesInForce := ∅
  deviceAddWindows := ∅
  reactionsAdded := []
  broken := false

theorem new_openedVisit : Recording.new visitId hostKey = .ok openedVisit :=
  if_neg (by decide)

/-- The host joins the visit at seq 0. -/
def openingJoin : SignedEvent :=
  .assembled
    { v := 1, visit := visitId, author := hostKey, seq := 0
      prev := zero32
      tsMs := 0
      bodyHash := bytes32
        0xa473edd8e5b0af36a0ed0306b2d7a8affd677111048eb7c8d15a7749dcb97b00
      bodyLen := 74 }
    (bytes64
      0x169ebd58b1089b6d29f42447228d1d14836b1decf8477eb799e46be9bf1d389f
      0x23da20e45b9ee6a97a442dcfb8b04d57f16d87be75e920e6aa68caadfdd77301)
    (.join ⟨hostKey, [hostKey], none⟩)
    (bytes32
      0x7026b50bdfdfe983b43ee32d402c9feca6470da9b32e7e3561d61232c1e4e859)

/-- At seq 1 the host asks for that join to be dropped. -/
def openingDrop : SignedEvent :=
  .assembled
    { v := 1, visit := visitId, author := hostKey, seq := 1
      prev := openingJoin.eventId.asBytes
      tsMs := 0
      bodyHash := bytes32
        0x0c5170cdd68a6626a0710dd11a3a76219f3520d4c1d6191ddd001e75a0e9ef5e
      bodyLen := 41 }
    (bytes64
      0xde1fe5c169b38678a1b1dac63a4d47820f9a3567b0a490fc186025b6673522da
      0xeb53e82fdef693a5dce9f4be71415a896e45b183143170e288bf02779ee45f09)
    (.dropRequest ⟨1, some [openingJoin.eventId.asBytes], none⟩)
    (bytes32
      0xf9299c3dc6d57736c5fecc165d1c5fda1f7928a2ccde1bd360cc80c673f68931)

def guestKey : Bytes32 :=
  bytes32 0xfd1724385aa0c75b64fb78cd602fa1d991fdebf76b13c58ed702eac835e9f618

def laptopKey : Bytes32 :=
  bytes32 0x66be7e332c7a453332bd9d0a7f7db055f5c5ef1a06ada66d98b39fb6810c473a

/-- The host admits the guest at seq 1. -/
def guestJoin : SignedEvent :=
  .assembled
    { v := 1, visit := visitId, author := hostKey, seq := 1
      prev := openingJoin.eventId.asBytes
      tsMs := 0
      bodyHash := bytes32
        0xa566fd4cd2991a3e836591cfbbfab89dee6aa78530561c35dfe14a2f39c3f39e
      bodyLen := 74 }
    (bytes64
      0xf1846cf5f02ab74911def99f61e8f746516316ffb1019f290e1a80e781859ddb
      0xf1a681d1a2562aac63a26baeb8754d2349bb2414ec3f240e6a1b95fec9e5940f)
    (.join ⟨guestKey, [guestKey], none⟩)
    (bytes32
      0xaba307a52227e65f807688aeba6e76fa5faaf0eceb8838066fd79b35c3589227)

/-- The host claims the laptop for itself at seq 1. -/
def laptopAdd : SignedEvent :=
  .assembled
    { v := 1, visit := visitId, author := hostKey, seq := 1
      prev := openingJoin.eventId.asBytes
      tsMs := 0
      bodyHash := bytes32
        0xd662f7968666a4494bc1445b1cfb5d89bac1e3ad281214ca72854322f3def079
      bodyLen := 43 }
    (bytes64
      0x2e591d3574a3fc3855240d4ce305318386740a2c83278d15e1359a6174a4a1b3
      0xc14a5e5c1250917ef51ffea618c65532e2b9cd8edbc3371fc99f4249ed528b0a)
    (.deviceAdd ⟨laptopKey, 0, 100, none⟩)
    (bytes32
      0x181237337929bc732653aec998d9a83c1bed2b0435e148cbb41d944e2c83aca8)

def recordedCrypto : Crypto := .recordedFor [openingJoin, openingDrop]

theorem parse_openingJoin :
    SignedEvent.parse recordedCrypto openingJoin.toBytes = .ok openingJoin := by
  decide +kernel

theorem parse_openingDrop :
    SignedEvent.parse recordedCrypto openingDrop.toBytes = .ok openingDrop := by
  decide +kernel

/-- The host joins, asks for the join to be dropped, and is honoured. -/
def droppingCalls : List Call :=
  [.ingest openingJoin.toBytes 5, .ingest openingDrop.toBytes 5,
    .honourDropRequest openingDrop.eventId]

/-- The recording those calls leave: a tombstone at seq 0 below the drop-request. -/
def droppedVisit : Recording :=
  Machine.run (Recording.call recordedCrypto) openedVisit droppingCalls

/-- The same calls, and the dropped join offered again. -/
def droppingRun : List Call := droppingCalls ++ [.ingest openingJoin.toBytes 6]

end Mosschat.Core
