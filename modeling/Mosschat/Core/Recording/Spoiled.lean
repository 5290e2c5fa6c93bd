import Mosschat.Core.Recording.WellFormed

/-!
Owns the drop-requests that no replay can accept again. A drop-request stays live
when it is honoured, while what it asks for is gone: a target of its author is a
tombstone, or, when it asked for the whole recording, nothing below it is live and
so nobody has joined.
-/

namespace Mosschat.Core

open Mosschat.Library Mosschat.Library.Cbor

namespace Recording

variable {crypto : Crypto} {recording before after : Recording} {event : SignedEvent}
  {standing : Standing} {seq : UInt64} {id : EventId} {nowMs : UInt64} {count : Nat}
  {gone : UInt64 → Prop}

/-! ## Live events are read back as themselves -/

/-- The bytes of a live event parse to it. -/
def Reparses (crypto : Crypto) (recording : Recording) : Prop :=
  ∀ seq stored, recording.get seq = some stored →
    SignedEvent.parse crypto stored.event.toBytes = .ok stored.event

theorem Reparses.store (reparses : recording.Reparses crypto)
    (parsed : SignedEvent.parse crypto event.toBytes = .ok event) :
    (recording.store event standing).Reparses crypto := by
  intro seq stored live
  rw [get_store] at live
  split_ifs at live
  · cases live
    exact parsed
  · exact reparses seq stored live

theorem Reparses.dropsTo (reparses : before.Reparses crypto) (drops : DropsTo before after gone) :
    after.Reparses crypto := by
  intro seq stored live
  exact reparses seq stored (drops.get_eq_some.mp live).1

/-! ## The same slots -/

section SameSlots

variable (same : ∀ seq, after.slots.lookup seq = before.slots.lookup seq)

include same

theorem get_of_sameSlots (seq : UInt64) : after.get seq = before.get seq := by
  unfold get
  rw [same]

theorem tombstoneAt_of_sameSlots (seq : UInt64) :
    after.tombstoneAt seq = before.tombstoneAt seq := by
  unfold tombstoneAt
  rw [same]

theorem lookup_ids_of_sameSlots (seq : UInt64) :
    after.ids.lookup seq = before.ids.lookup seq := by
  rw [lookup_ids, lookup_ids, same]

end SameSlots

/-- A live event that is stored again leaves every slot as it was. -/
theorem Reparses.store_again (reparses : recording.Reparses crypto)
    (parsed : SignedEvent.parse crypto event.toBytes = .ok event) {stored : StoredEvent}
    (live : recording.get event.envelope.seq = some stored)
    (sameBytes : stored.event.toBytes = event.toBytes) (seq : UInt64) :
    (recording.store event standing).slots.lookup seq = recording.slots.lookup seq := by
  have again := reparses event.envelope.seq stored live
  rw [sameBytes, parsed] at again
  have isEvent : stored = ⟨event⟩ := by
    rw [Except.ok.inj again]
  rw [lookup_store_slots]
  split_ifs with here
  · rw [here, get_eq_some.mp live, isEvent]
  · rfl

/-! ## One seq for an id -/

def Distinct (recording : Recording) : Prop :=
  ∀ first second id, recording.ids.lookup first = some id →
    recording.ids.lookup second = some id → first = second

theorem Distinct.seqOf (distinct : recording.Distinct)
    (held : recording.ids.lookup seq = some id) : recording.seqOf id = some seq := by
  cases found : recording.seqOf id with
  | none => exact absurd held (seqOf_eq_none.mp found seq)
  | some other =>
    have same : other = seq := distinct other seq id (lookup_ids_of_seqOf found) held
    rw [same]

/-! ## Targets are held below their request -/

def TargetsBelow (recording : Recording) : Prop :=
  ∀ seq stored dropRequest targets target, recording.get seq = some stored →
    stored.event.body = .dropRequest dropRequest → dropRequest.targets = some targets →
    target ∈ targets →
      ∃ lower, lower < seq ∧ recording.ids.lookup lower = some (.fromBytes target)

theorem TargetsBelow.store (below : recording.TargetsBelow)
    (admits : recording.Admits event nowMs standing)
    (last : ∀ seq id, recording.ids.lookup seq = some id → seq < event.envelope.seq) :
    (recording.store event standing).TargetsBelow := by
  have grow : IdsGrow recording (recording.store event standing) := idsGrow_store admits.linked
  intro seq stored dropRequest targets target live body named member
  rw [get_store] at live
  split_ifs at live with here
  · cases live
    have ruled := applyBody_eq_ok.mp admits.ruled
    unfold Ruled at ruled
    rw [body] at ruled
    have owns := ruled.1 targets named target member
    obtain ⟨lower, _, found, _, _⟩ := ownsTarget_eq_true.mp owns
    have held := lookup_ids_of_seqOf found
    exact ⟨lower, here ▸ last lower _ held, grow _ _ held⟩
  · obtain ⟨lower, less, held⟩ := below seq stored dropRequest targets target live body named member
    exact ⟨lower, less, grow _ _ held⟩

theorem TargetsBelow.dropsTo (below : before.TargetsBelow) (drops : DropsTo before after gone) :
    after.TargetsBelow := by
  intro seq stored dropRequest targets target live
  rw [drops.ids]
  exact below seq stored dropRequest targets target (drops.get_eq_some.mp live).1

theorem TargetsBelow.of_sameSlots (below : before.TargetsBelow)
    (same : ∀ seq, after.slots.lookup seq = before.slots.lookup seq) : after.TargetsBelow := by
  intro seq stored dropRequest targets target live
  simp only [get_of_sameSlots same, lookup_ids_of_sameSlots same] at live ⊢
  exact below seq stored dropRequest targets target live

/-! ## Spoiled requests -/

/-- What a drop-request needs to be accepted is gone. -/
def Spoils (recording : Recording) (seq : UInt64) (dropRequest : DropRequest) : Prop :=
  (∃ targets, dropRequest.targets = some targets ∧ ∃ target ∈ targets, ∃ lower dropped,
    recording.ids.lookup lower = some (.fromBytes target) ∧
      recording.tombstoneAt lower = some dropped) ∨
    ∀ lower, lower < seq → recording.get lower = none

/-- A live drop-request sits at `seq`, and what it needs is gone. -/
def Spoiled (recording : Recording) (seq : UInt64) : Prop :=
  ∃ stored dropRequest, recording.get seq = some stored ∧
    stored.event.body = .dropRequest dropRequest ∧ recording.Spoils seq dropRequest

/-- An event stored above leaves a request as spoiled as it was. -/
theorem Spoiled.store (spoiled : recording.Spoiled seq) (linked : recording.Linked event)
    (last : ∀ seq id, recording.ids.lookup seq = some id → seq < event.envelope.seq) :
    (recording.store event standing).Spoiled seq := by
  obtain ⟨stored, dropRequest, live, body, spoils⟩ := spoiled
  have held : ∀ seq slot, recording.slots.lookup seq = some slot → seq < event.envelope.seq := by
    intro seq slot here
    apply last seq slot.eventId
    rw [lookup_ids, here]
    rfl
  have above : seq < event.envelope.seq := held seq _ (get_eq_some.mp live)
  refine ⟨stored, dropRequest, ?_, body, ?_⟩
  · rw [get_store, if_neg (UInt64.ne_of_lt above)]
    exact live
  · rcases spoils with ⟨targets, named, target, member, lower, dropped, found, tombstone⟩ | nothing
    · refine Or.inl ⟨targets, named, target, member, lower, dropped,
        idsGrow_store linked lower _ found, ?_⟩
      have here := tombstoneAt_eq_some.mp tombstone
      rw [tombstoneAt_eq_some, lookup_store_slots,
        if_neg (UInt64.ne_of_lt (held lower _ here))]
      exact here
    · refine Or.inr ?_
      intro lower less
      rw [get_store, if_neg (UInt64.ne_of_lt (UInt64.lt_trans less above))]
      exact nothing lower less

theorem Spoiled.of_sameSlots (spoiled : before.Spoiled seq)
    (same : ∀ seq, after.slots.lookup seq = before.slots.lookup seq) : after.Spoiled seq := by
  obtain ⟨stored, dropRequest, live, body, spoils⟩ := spoiled
  refine ⟨stored, dropRequest, (get_of_sameSlots same seq).trans live, body, ?_⟩
  unfold Spoils at spoils ⊢
  simp only [get_of_sameSlots same, lookup_ids_of_sameSlots same, tombstoneAt_of_sameSlots same]
  exact spoils

/-- Honouring a drop-request spoils it. -/
theorem spoiled_of_dropsTo (formed : before.WellFormed crypto count) (distinct : before.Distinct)
    (below : before.TargetsBelow) {dropRequest : DropRequest}
    (found : before.dropRequestAt id = some (seq, dropRequest))
    (drops : DropsTo before after fun other => other ∈ before.dropTargets seq dropRequest) :
    after.Spoiled seq := by
  obtain ⟨_, stored, live, body⟩ := dropRequestAt_eq_some.mp found
  by_cases whole : dropRequest.scope = 0
  · have stays : seq ∉ before.dropTargets seq dropRequest := by
      rw [mem_dropTargets, if_pos whole]
      exact fun both => both.1 rfl
    refine ⟨stored, dropRequest, drops.get_eq_some.mpr ⟨live, stays⟩, body, Or.inr ?_⟩
    intro lower less
    cases there : after.get lower with
    | none => rfl
    | some other =>
      obtain ⟨wasLive, notGone⟩ := drops.get_eq_some.mp there
      refine absurd ?_ notGone
      rw [mem_dropTargets, if_pos whole]
      exact ⟨UInt64.ne_of_lt less, by simp [wasLive]⟩
  · have decodes := (formed.parsed seq stored live).bodyDecodes
    rw [body] at decodes
    obtain ⟨targets, named, nonempty⟩ := dropRequest_of_fromCbor decodes whole
    have placed : ∀ target ∈ targets, ∃ lower, lower < seq ∧
        before.seqOf (.fromBytes target) = some lower := by
      intro target member
      obtain ⟨lower, less, held⟩ := below seq stored dropRequest targets target live body named member
      exact ⟨lower, less, distinct.seqOf held⟩
    have stays : seq ∉ before.dropTargets seq dropRequest := by
      rw [mem_dropTargets, if_neg whole]
      rintro ⟨others, alsoNamed, target, member, isTarget⟩
      rw [named] at alsoNamed
      cases alsoNamed
      obtain ⟨lower, less, here⟩ := placed target member
      rw [isTarget] at here
      cases here
      exact UInt64.lt_irrefl seq less
    refine ⟨stored, dropRequest, drops.get_eq_some.mpr ⟨live, stays⟩, body, Or.inl ?_⟩
    obtain ⟨target, member⟩ := List.exists_mem_of_ne_nil targets nonempty
    obtain ⟨lower, _, here⟩ := placed target member
    have isGone : lower ∈ before.dropTargets seq dropRequest := by
      rw [mem_dropTargets, if_neg whole]
      exact ⟨targets, named, target, member, here⟩
    have held := lookup_ids_of_seqOf here
    have tombstone : ∃ dropped, after.tombstoneAt lower = some dropped := by
      obtain ⟨slot, occupied, _⟩ := Option.map_eq_some_iff.mp (lookup_ids ▸ held)
      have dropped := drops.dropped lower isGone
      rw [occupied] at dropped
      cases slot with
      | event kept => exact ⟨_, tombstoneAt_eq_some.mpr dropped⟩
      | tombstone old => exact ⟨_, tombstoneAt_eq_some.mpr dropped⟩
    obtain ⟨dropped, isTombstone⟩ := tombstone
    refine ⟨targets, named, target, member, lower, dropped, ?_, isTombstone⟩
    rw [drops.ids]
    exact held

end Recording

end Mosschat.Core
