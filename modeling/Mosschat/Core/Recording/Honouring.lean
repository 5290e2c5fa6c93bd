import Mosschat.Core.Recording.Run

/-!
Owns the comparison of two houses that ingest the same events at the same
clocks, one honouring drop-requests and one declining them. The declining
recording shadows the honouring one: everything admission reads is equal in
both, except that a dropped slot is still live in the declining one. Only the
ownership check of a further drop-request reads that difference.
-/

namespace Mosschat.Core

open Mosschat.Library Mosschat.Library.Cbor

/-- Two recordings of one visit, in a house that honours and in one that declines. -/
structure Houses where
  honouring : Recording
  declining : Recording

namespace Houses

/-- Events go to both houses, an honoured request to one. -/
def call (crypto : Crypto) (houses : Houses) : Call → Houses
  | .ingest bytes nowMs =>
    ⟨houses.honouring.call crypto (.ingest bytes nowMs),
      houses.declining.call crypto (.ingest bytes nowMs)⟩
  | .honourDropRequest request =>
    ⟨houses.honouring.call crypto (.honourDropRequest request), houses.declining⟩

/-- Both houses accept the event or both reject it, with the same id and the same
broken flag afterwards. -/
def Agree (crypto : Crypto) (houses : Houses) : Call → Prop
  | .ingest bytes nowMs =>
    (∀ id, (houses.honouring.ingest crypto bytes nowMs).2 = .ok id ↔
      (houses.declining.ingest crypto bytes nowMs).2 = .ok id) ∧
    (houses.honouring.ingest crypto bytes nowMs).1.broken =
      (houses.declining.ingest crypto bytes nowMs).1.broken
  | .honourDropRequest _ => True

/-- The call offers a drop-request, well placed and by an admitted author, whose
targets the declining house holds for the author's person, and one of them is a
tombstone in the honouring house. -/
def ReachesDropped (crypto : Crypto) (houses : Houses) : Call → Prop
  | .ingest bytes nowMs =>
    houses.honouring.broken = false ∧ ∃ event dropRequest targets,
      SignedEvent.parse crypto bytes = .ok event ∧ houses.honouring.Linked event ∧
      houses.honouring.Authored event nowMs ∧ event.body = .dropRequest dropRequest ∧
      dropRequest.targets = some targets ∧
      (∀ target ∈ targets,
        houses.declining.ownsTarget event.envelope.author target = true) ∧
      ∃ target ∈ targets, ∃ seq dropped,
        houses.honouring.seqOf (.fromBytes target) = some seq ∧
        houses.honouring.tombstoneAt seq = some dropped
  | .honourDropRequest _ => False

/-! ## The shadow -/

/-- All that admission reads is equal, but for slots dropped on the left. -/
structure Shadows (honouring declining : Recording) : Prop where
  standing : honouring.toStanding = declining.toStanding
  visit : honouring.visit = declining.visit
  host : honouring.host = declining.host
  broken : honouring.broken = declining.broken
  ids : honouring.ids = declining.ids
  live : ∀ seq stored, honouring.get seq = some stored → declining.get seq = some stored

namespace Shadows

variable {honouring declining after : Recording} {event : SignedEvent} {author target : Bytes32}
  {standing : Standing} {nowMs : UInt64} {id : EventId} {seq : UInt64}

theorem refl (recording : Recording) : Shadows recording recording :=
  ⟨rfl, rfl, rfl, rfl, rfl, fun _ _ live => live⟩

theorem seqOf (shadows : Shadows honouring declining) (id : EventId) :
    honouring.seqOf id = declining.seqOf id := by
  rw [Recording.seqOf_eq_findKey, Recording.seqOf_eq_findKey, shadows.ids]

theorem expectedPrev (shadows : Shadows honouring declining) (seq : UInt64) :
    honouring.expectedPrev seq = declining.expectedPrev seq := by
  rw [Recording.expectedPrev_eq, Recording.expectedPrev_eq, shadows.ids]

theorem linked_iff (shadows : Shadows honouring declining) :
    honouring.Linked event ↔ declining.Linked event := by
  have inVisit : honouring.InVisit event ↔ declining.InVisit event := by
    constructor
    · exact fun inVisit => ⟨inVisit.nonzero, inVisit.same.trans shadows.visit⟩
    · exact fun inVisit => ⟨inVisit.nonzero, inVisit.same.trans shadows.visit.symm⟩
  constructor
  · intro linked
    exact ⟨inVisit.mp linked.inVisit, shadows.ids ▸ linked.sameId,
      (shadows.expectedPrev _).symm.trans linked.prev⟩
  · intro linked
    exact ⟨inVisit.mpr linked.inVisit, shadows.ids ▸ linked.sameId,
      (shadows.expectedPrev _).trans linked.prev⟩

theorem tripsR13_iff (shadows : Shadows honouring declining) :
    honouring.TripsR13 event ↔ declining.TripsR13 event := by
  have inVisit : honouring.InVisit event ↔ declining.InVisit event := by
    constructor
    · exact fun inVisit => ⟨inVisit.nonzero, inVisit.same.trans shadows.visit⟩
    · exact fun inVisit => ⟨inVisit.nonzero, inVisit.same.trans shadows.visit.symm⟩
  unfold Recording.TripsR13
  rw [inVisit, shadows.ids, shadows.expectedPrev]

/-- A target owned in the honouring house is owned in the declining one. -/
theorem ownsTarget (shadows : Shadows honouring declining)
    (owns : honouring.ownsTarget author target = true) :
    declining.ownsTarget author target = true := by
  obtain ⟨targetSeq, stored, held, live, same⟩ := Recording.ownsTarget_eq_true.mp owns
  rw [shadows.seqOf] at held
  rw [shadows.standing] at same
  exact Recording.ownsTarget_eq_true.mpr
    ⟨targetSeq, stored, held, shadows.live targetSeq stored live, same⟩

/-- A target owned in the declining house alone is a tombstone in the honouring one. -/
theorem dropped_of_ownsTarget (shadows : Shadows honouring declining)
    (owns : declining.ownsTarget author target = true)
    (lost : honouring.ownsTarget author target = false) :
    ∃ seq dropped, honouring.seqOf (.fromBytes target) = some seq ∧
      honouring.tombstoneAt seq = some dropped := by
  obtain ⟨targetSeq, stored, held, live, same⟩ := Recording.ownsTarget_eq_true.mp owns
  rw [← shadows.seqOf] at held
  rw [← shadows.standing] at same
  have occupied := Recording.lookup_ids_of_seqOf held
  rw [Recording.lookup_ids] at occupied
  obtain ⟨slot, here, _⟩ := Option.map_eq_some_iff.mp occupied
  cases slot with
  | event kept =>
    -- Live in both houses, hence the same event, and owned after all.
    have alsoLive := shadows.live targetSeq kept (Recording.get_eq_some.mpr here)
    rw [live] at alsoLive
    cases alsoLive
    have owned := Recording.ownsTarget_eq_true.mpr
      ⟨targetSeq, stored, held, Recording.get_eq_some.mpr here, same⟩
    rw [lost] at owned
    cases owned
  | tombstone dropped =>
    exact ⟨targetSeq, dropped, held, Recording.tombstoneAt_eq_some.mpr here⟩

theorem storedAtLowerSeq (shadows : Shadows honouring declining) :
    honouring.storedAtLowerSeq id seq = declining.storedAtLowerSeq id seq := by
  unfold Recording.storedAtLowerSeq
  rw [shadows.seqOf]

/-- What the honouring house admits the declining house admits. -/
theorem admits (shadows : Shadows honouring declining)
    (admits : honouring.Admits event nowMs standing) :
    declining.Admits event nowMs standing := by
  refine ⟨shadows.linked_iff.mp admits.linked, shadows.standing ▸ admits.authored, ?_⟩
  have ruled := Recording.applyBody_eq_ok.mp admits.ruled
  apply Recording.applyBody_eq_ok.mpr
  unfold Recording.Ruled at ruled ⊢
  rw [shadows.standing, shadows.host] at ruled
  simp only [shadows.storedAtLowerSeq] at ruled
  cases body : event.body with
  | dropRequest dropRequest =>
    rw [body] at ruled
    obtain ⟨owned, same⟩ := ruled
    exact ⟨fun targets named target member =>
      shadows.ownsTarget (owned targets named target member), same⟩
  | _ =>
    rw [body] at ruled
    exact ruled

/-- What the declining house admits the honouring house admits, unless it is a
drop-request that reaches a dropped target. -/
theorem admits_or_dropped (shadows : Shadows honouring declining)
    (admits : declining.Admits event nowMs standing) :
    honouring.Admits event nowMs standing ∨
      ∃ dropRequest targets, event.body = .dropRequest dropRequest ∧
        dropRequest.targets = some targets ∧
        (∀ target ∈ targets, declining.ownsTarget event.envelope.author target = true) ∧
        ∃ target ∈ targets, ∃ seq dropped,
          honouring.seqOf (.fromBytes target) = some seq ∧
          honouring.tombstoneAt seq = some dropped := by
  have linked := shadows.linked_iff.mpr admits.linked
  have authored : honouring.Authored event nowMs := shadows.standing ▸ admits.authored
  have ruled := Recording.applyBody_eq_ok.mp admits.ruled
  suffices inner : honouring.Ruled event standing ∨ _ from
    inner.imp_left fun ruled => ⟨linked, authored, Recording.applyBody_eq_ok.mpr ruled⟩
  unfold Recording.Ruled at ruled ⊢
  rw [shadows.standing, shadows.host]
  simp only [shadows.storedAtLowerSeq]
  cases body : event.body with
  | dropRequest dropRequest =>
    rw [body] at ruled
    obtain ⟨owned, same⟩ := ruled
    by_cases all : ∀ targets, dropRequest.targets = some targets →
        ∀ target ∈ targets, honouring.ownsTarget event.envelope.author target = true
    · exact Or.inl ⟨all, same⟩
    · simp only [not_forall, Bool.not_eq_true] at all
      obtain ⟨targets, named, target, member, lost⟩ := all
      exact Or.inr ⟨dropRequest, targets, rfl, named, owned targets named, target, member,
        shadows.dropped_of_ownsTarget (owned targets named target member) lost⟩
  | _ =>
    rw [body] at ruled
    exact Or.inl ruled

theorem store (shadows : Shadows honouring declining) :
    Shadows (honouring.store event standing) (declining.store event standing) where
  standing := rfl
  visit := shadows.visit
  host := shadows.host
  broken := shadows.broken
  ids := by rw [Recording.ids_store, Recording.ids_store, shadows.ids]
  live := by
    intro seq stored live
    rw [Recording.get_store] at live ⊢
    split_ifs at live ⊢ with here
    · exact live
    · exact shadows.live seq stored live

theorem markBroken (shadows : Shadows honouring declining) :
    Shadows honouring.markBroken declining.markBroken :=
  ⟨shadows.standing, shadows.visit, shadows.host, rfl, shadows.ids, shadows.live⟩

theorem dropsTo {gone : UInt64 → Prop} (shadows : Shadows honouring declining)
    (drops : honouring.DropsTo after gone) : Shadows after declining where
  standing := drops.standing.trans shadows.standing
  visit := drops.visit.trans shadows.visit
  host := drops.host.trans shadows.host
  broken := drops.broken.trans shadows.broken
  ids := drops.ids.trans shadows.ids
  live := fun seq stored live => shadows.live seq stored (drops.get_eq_some.mp live).1

/-- An event that does not reach a dropped target ends alike in both houses. -/
theorem ingest (shadows : Shadows honouring declining) {crypto : Crypto} {bytes : Bytes}
    (avoids : ¬ReachesDropped crypto ⟨honouring, declining⟩ (.ingest bytes nowMs)) :
    (∀ id, (honouring.ingest crypto bytes nowMs).2 = .ok id ↔
        (declining.ingest crypto bytes nowMs).2 = .ok id) ∧
      Shadows (honouring.ingest crypto bytes nowMs).1 (declining.ingest crypto bytes nowMs).1 := by
  rcases honouring.ingest_cases crypto bytes nowMs with
    ⟨event, after, sound, parsed, admits, equal⟩ | ⟨event, sound, parsed, trips, equal⟩ |
      ⟨reason, notBroken, equal⟩
  · have alike := Recording.ingest_of_admits (shadows.broken ▸ sound) parsed
      (shadows.admits admits)
    rw [equal, alike]
    exact ⟨fun _ => Iff.rfl, shadows.store⟩
  · have alike : declining.ingest crypto bytes nowMs = (declining.markBroken, .error .broken) :=
      Recording.ingest_of_tripsR13 (shadows.broken ▸ sound) parsed (shadows.tripsR13_iff.mp trips)
    rw [equal, alike]
    exact ⟨fun _ => Iff.rfl, shadows.markBroken⟩
  · -- The honouring house refused without a trace; the declining one did too.
    rcases declining.ingest_cases crypto bytes nowMs with
      ⟨event, after, sound, parsed, admits, _⟩ | ⟨event, sound, parsed, trips, _⟩ |
        ⟨other, _, alike⟩
    · have sound : honouring.broken = false := shadows.broken ▸ sound
      rcases shadows.admits_or_dropped admits with
        alsoAdmits | ⟨dropRequest, targets, body, named, owned, dropped⟩
      · rw [Recording.ingest_of_admits sound parsed alsoAdmits] at equal
        have verdict := congrArg Prod.snd equal
        cases verdict
      · exact absurd ⟨sound, event, dropRequest, targets, parsed,
          shadows.linked_iff.mpr admits.linked, shadows.standing ▸ admits.authored, body, named,
          owned, dropped⟩ avoids
    · have sound : honouring.broken = false := shadows.broken ▸ sound
      rw [Recording.ingest_of_tripsR13 sound parsed (shadows.tripsR13_iff.mpr trips)] at equal
      have verdict := congrArg Prod.snd equal
      exact absurd (Except.error.inj verdict).symm notBroken
    · rw [equal, alike]
      refine ⟨fun _ => ?_, shadows⟩
      simp

/-- An event that reaches a dropped target is accepted by the declining house alone. -/
theorem not_agree (shadows : Shadows honouring declining) {crypto : Crypto} {bytes : Bytes}
    (reaches : ReachesDropped crypto ⟨honouring, declining⟩ (.ingest bytes nowMs)) :
    ¬Agree crypto ⟨honouring, declining⟩ (.ingest bytes nowMs) := by
  obtain ⟨sound, event, dropRequest, targets, parsed, linked, authored, body, named, owned,
    target, member, seq, dropped, held, gone⟩ := reaches
  have admits : declining.Admits event nowMs declining.toStanding := by
    refine ⟨shadows.linked_iff.mp linked, shadows.standing ▸ authored,
      Recording.applyBody_eq_ok.mpr ?_⟩
    unfold Recording.Ruled
    rw [body]
    refine ⟨?_, rfl⟩
    intro others alsoNamed other otherMember
    rw [named] at alsoNamed
    cases alsoNamed
    exact owned other otherMember
  intro agree
  have accepted : (declining.ingest crypto bytes nowMs).2 = .ok event.eventId := by
    rw [Recording.ingest_of_admits (shadows.broken ▸ sound) parsed admits]
  obtain ⟨other, standing, _, alsoParsed, alsoAdmits, _⟩ :=
    Recording.ingest_ok ((agree.1 event.eventId).mpr accepted)
  rw [parsed] at alsoParsed
  cases alsoParsed
  have ruled := Recording.applyBody_eq_ok.mp alsoAdmits.ruled
  unfold Recording.Ruled at ruled
  rw [body] at ruled
  obtain ⟨targetSeq, stored, alsoHeld, live, _⟩ :=
    Recording.ownsTarget_eq_true.mp (ruled.1 targets named target member)
  change honouring.seqOf _ = some targetSeq at alsoHeld
  change honouring.seqOf _ = some seq at held
  rw [held] at alsoHeld
  cases alsoHeld
  have here := Recording.tombstoneAt_eq_some.mp gone
  rw [Recording.get_eq_some.mp live] at here
  cases here

end Shadows

variable {crypto : Crypto} {houses : Houses}

theorem agree_iff (shadows : Shadows houses.honouring houses.declining) (input : Call) :
    Agree crypto houses input ↔ ¬ReachesDropped crypto houses input := by
  cases input with
  | honourDropRequest request => exact ⟨fun _ reaches => reaches, fun _ => trivial⟩
  | ingest bytes nowMs =>
    constructor
    · exact fun agree reaches => shadows.not_agree reaches agree
    · intro avoids
      obtain ⟨verdicts, after⟩ := shadows.ingest avoids
      exact ⟨verdicts, after.broken⟩

theorem shadows_call (shadows : Shadows houses.honouring houses.declining) {input : Call}
    (avoids : ¬ReachesDropped crypto houses input) :
    Shadows (houses.call crypto input).honouring (houses.call crypto input).declining := by
  cases input with
  | ingest bytes nowMs => exact (shadows.ingest avoids).2
  | honourDropRequest request =>
    cases honoured : houses.honouring.honourDropRequest request with
    | error reason =>
      simp only [call, Recording.call, honoured]
      exact shadows
    | ok result =>
      rcases result with ⟨after, count⟩
      obtain ⟨_, _, _, drops⟩ := Recording.honourDropRequest_ok honoured
      simp only [call, Recording.call, honoured]
      exact shadows.dropsTo drops

/-- The two houses agree on every event of a run exactly when no event of the run
reaches a dropped target. -/
theorem agree_iff_avoids_dropped (crypto : Crypto) (start : Recording) (calls : List Call) :
    Machine.Guarded (call crypto) (Agree crypto) ⟨start, start⟩ calls ↔
      Machine.Guarded (call crypto) (fun houses input => ¬ReachesDropped crypto houses input)
        ⟨start, start⟩ calls := by
  apply Machine.guarded_congr (fun houses input shadows avoids => shadows_call shadows avoids)
  · intro houses input shadows
    exact agree_iff shadows input
  · exact Shadows.refl start

/-! ## A second request for a dropped event -/

/-- At seq 2 the host asks again for the join at seq 0. -/
def secondDrop : SignedEvent :=
  .assembled
    { v := 1, visit := visitId, author := hostKey, seq := 2
      prev := openingDrop.eventId.asBytes
      tsMs := 0
      bodyHash := bytes32
        0x0c5170cdd68a6626a0710dd11a3a76219f3520d4c1d6191ddd001e75a0e9ef5e
      bodyLen := 41 }
    (bytes64
      0x96e837255f1b6ad3be3cf665de014478d52bcad9f44175c96aa2a9066a0baab5
      0xc194addde6bce27c6b0a910685a8f1a0068ac7f1d65b4fdc393f0661c9492901)
    (.dropRequest ⟨1, some [openingJoin.eventId.asBytes], none⟩)
    (bytes32
      0x223e31eb31bfba5c8b8bebfbf7fbe238492acaffa2114ffb2bd36745340bea76)

def chainCrypto : Crypto := .recordedFor [openingJoin, openingDrop, secondDrop]

/-- Both houses after the join, the first request, and its honouring in one of them. -/
def droppedHouses : Houses :=
  Machine.run (call chainCrypto) ⟨openedVisit, openedVisit⟩
    [.ingest openingJoin.toBytes 5, .ingest openingDrop.toBytes 5,
      .honourDropRequest openingDrop.eventId]

/-- The second request is rejected where the first was honoured, and accepted
where it was declined. -/
theorem secondDrop_disagrees :
    (droppedHouses.honouring.ingest chainCrypto secondDrop.toBytes 6).2 =
        .error .dropRequestTargetNotOwnPerson ∧
      (droppedHouses.declining.ingest chainCrypto secondDrop.toBytes 6).2 =
        .ok secondDrop.eventId := by
  constructor <;> decide +kernel

end Houses

end Mosschat.Core
