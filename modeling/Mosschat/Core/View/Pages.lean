import Mathlib.Data.List.Dedup
import Mosschat.Core.Recording.Authorisation
import Mosschat.Library.SortedMap

/-!
Owns the pages of `view/mod.rs`: the page of a contact, the pages of the groups,
and that they depend on the recordings alone, not on the order of the list nor on
the iteration order of any map inside a recording.

Does not own what a drop changes of them.
-/

namespace Mosschat.Core

open Mosschat.Library Mosschat.Library.Cbor

/-! ## Orders -/

/-- The order of `[u8; 32]`. -/
def KeyBelow (first second : Bytes32) : Prop := first.toList ≤ second.toList

/-- The order of `Vec<[u8; 32]>`. -/
def KeysBelow (first second : List Bytes32) : Prop :=
  first.map List.Vector.toList ≤ second.map List.Vector.toList

/-- `section_order_key`. -/
def sectionOrderKey (page : VisitSection) : UInt64 × Bytes32 := (page.openedMs, page.visit)

/-- The order of the pairs `section_order_key` gives. -/
def OpensBefore (first second : VisitSection) : Prop :=
  (sectionOrderKey first).1 < (sectionOrderKey second).1 ∨
    (sectionOrderKey first).1 = (sectionOrderKey second).1 ∧
      KeyBelow (sectionOrderKey first).2 (sectionOrderKey second).2

instance : DecidableRel KeyBelow :=
  fun first second => inferInstanceAs (Decidable (first.toList ≤ second.toList))

instance : DecidableRel KeysBelow := fun first second =>
  inferInstanceAs (Decidable (first.map List.Vector.toList ≤ second.map List.Vector.toList))

instance : DecidableRel OpensBefore :=
  fun first second => inferInstanceAs (Decidable (_ ∨ _ ∧ KeyBelow first.visit second.visit))

instance : Std.Total KeyBelow := ⟨fun first second => Std.Total.total first.toList second.toList⟩

instance : IsTrans Bytes32 KeyBelow :=
  ⟨fun first second third lower upper =>
    IsTrans.trans first.toList second.toList third.toList lower upper⟩

instance : Std.Antisymm KeyBelow :=
  ⟨fun first second lower upper =>
    List.Vector.toList_injective (Std.Antisymm.antisymm first.toList second.toList lower upper)⟩

instance : Std.Total KeysBelow :=
  ⟨fun first second =>
    Std.Total.total (first.map List.Vector.toList) (second.map List.Vector.toList)⟩

instance : IsTrans (List Bytes32) KeysBelow :=
  ⟨fun first second third lower upper =>
    IsTrans.trans (first.map List.Vector.toList) (second.map List.Vector.toList)
      (third.map List.Vector.toList) lower upper⟩

instance : Std.Antisymm KeysBelow :=
  ⟨fun _ _ lower upper =>
    List.map_injective_iff.mpr List.Vector.toList_injective
      (Std.Antisymm.antisymm (r := (· ≤ ·)) _ _ lower upper)⟩

instance : Std.Total OpensBefore := by
  refine ⟨fun first second => ?_⟩
  rcases Nat.lt_trichotomy first.openedMs.toNat second.openedMs.toNat with earlier | same | later
  · exact Or.inl (Or.inl earlier)
  · have same : first.openedMs = second.openedMs := UInt64.toNat_inj.mp same
    rcases Std.Total.total (r := KeyBelow) first.visit second.visit with lower | upper
    · exact Or.inl (Or.inr ⟨same, lower⟩)
    · exact Or.inr (Or.inr ⟨same.symm, upper⟩)
  · exact Or.inr (Or.inl later)

instance : IsTrans VisitSection OpensBefore := by
  refine ⟨fun first second third lower upper => ?_⟩
  rcases lower with earlier | ⟨same, lower⟩ <;> rcases upper with later | ⟨alsoSame, upper⟩
  · exact Or.inl (UInt64.lt_trans earlier later)
  · exact Or.inl (alsoSame ▸ earlier)
  · exact Or.inl (same ▸ later)
  · exact Or.inr ⟨same.trans alsoSame, IsTrans.trans _ _ _ lower upper⟩

/-! ## The pages -/

structure ContactView where
  person : Bytes32
  sections : List VisitSection
deriving DecidableEq

structure GroupView where
  participants : List Bytes32
  sections : List VisitSection
deriving DecidableEq

/-- `contact_view`. -/
def contactView (recordings : List Recording) (person : Bytes32) : ContactView where
  person := person
  sections :=
    ((recordings.filter fun recording => recording.participantKeys.contains person).map
      visitSection).insertionSort OpensBefore

/-- `group_views`. -/
def groupViews (recordings : List Recording) : List GroupView :=
  let groups : SortedMap (List Bytes32) (List VisitSection) KeysBelow :=
    recordings.foldl (fun groups recording =>
      groups.upsert recording.participantKeys fun held =>
        held.getD [] ++ [visitSection recording]) .empty
  groups.entries.map fun group => ⟨group.1, group.2.insertionSort OpensBefore⟩

theorem contactView_eq (recordings : List Recording) (person : Bytes32) :
    contactView recordings person =
      ⟨person, ((recordings.map visitSection).filter fun page =>
        page.participants.contains person).insertionSort OpensBefore⟩ := by
  rw [List.filter_map]
  rfl

theorem groupViews_eq (recordings : List Recording) :
    groupViews recordings =
      (pages KeysBelow VisitSection.participants OpensBefore
        (recordings.map visitSection)).map fun page => ⟨page.1, page.2⟩ := by
  unfold groupViews pages groupBy
  rw [List.foldl_map, List.map_map]
  rfl

/-! ## Iteration orders -/

/-- The same recording with its maps and its set in other iteration orders. -/
structure Recording.Reordered (left right : Recording) : Prop where
  visit : left.visit = right.visit
  host : left.host = right.host
  broken : left.broken = right.broken
  slots : HashMap.Reordered left.slots right.slots
  participants : HashMap.Reordered left.participants right.participants
  revoked : HashMap.Reordered left.revoked right.revoked
  devicesInForce : HashMap.Reordered left.devicesInForce right.devicesInForce
  deviceAddWindows : HashMap.Reordered left.deviceAddWindows right.deviceAddWindows
  reactionsAdded : left.reactionsAdded.Perm right.reactionsAdded

/-- The range is read off which slots there are. -/
theorem Recording.seqRange_congr {left right : Recording}
    (sameSeqs : ∀ seq, seq ∈ left.slots.keys ↔ seq ∈ right.slots.keys) :
    left.seqRange = right.seqRange := by
  have least : left.slots.keys.min? = right.slots.keys.min? := by
    ext seq
    rw [List.min?_eq_some_iff, List.min?_eq_some_iff]
    simp only [sameSeqs]
  have greatest : left.slots.keys.max? = right.slots.keys.max? := by
    ext seq
    rw [List.max?_eq_some_iff, List.max?_eq_some_iff]
    simp only [sameSeqs]
  unfold Recording.seqRange
  rw [least, greatest]

namespace Recording.Reordered

theorem refl (recording : Recording) : recording.Reordered recording where
  visit := rfl
  host := rfl
  broken := rfl
  slots := List.Perm.refl _
  participants := List.Perm.refl _
  revoked := List.Perm.refl _
  devicesInForce := List.Perm.refl _
  deviceAddWindows := List.Perm.refl _
  reactionsAdded := List.Perm.refl _

variable {left right : Recording}

theorem get (reordered : left.Reordered right) (seq : UInt64) : left.get seq = right.get seq := by
  unfold Recording.get
  rw [reordered.slots.lookup_eq]

theorem tombstoneAt (reordered : left.Reordered right) (seq : UInt64) :
    left.tombstoneAt seq = right.tombstoneAt seq := by
  unfold Recording.tombstoneAt
  rw [reordered.slots.lookup_eq]

theorem participantKeys (reordered : left.Reordered right) :
    left.participantKeys = right.participantKeys := by
  unfold Recording.participantKeys
  congr 1
  show left.participants.keys.insertionSort KeyBelow = right.participants.keys.insertionSort KeyBelow
  apply insertionSort_eq_of_perm reordered.participants.keys_perm
  intro first _ second _ lower upper
  exact Std.Antisymm.antisymm first second lower upper

theorem seqRange (reordered : left.Reordered right) : left.seqRange = right.seqRange :=
  seqRange_congr fun _ => reordered.slots.keys_perm.mem_iff

/-- A section shows nothing of an iteration order. -/
theorem visitSection (reordered : left.Reordered right) :
    visitSection left = visitSection right := by
  have entry : viewEntry left = viewEntry right := by
    funext seq
    unfold viewEntry
    rw [reordered.get, reordered.tombstoneAt]
  unfold Core.visitSection
  rw [reordered.visit, reordered.host, reordered.get, reordered.participantKeys,
    reordered.seqRange, entry]

end Recording.Reordered

/-- The same recordings, in another order and each with its maps in other orders. -/
def Rearranged (left right : List Recording) : Prop :=
  ∃ middle, List.Forall₂ Recording.Reordered left middle ∧ middle.Perm right

theorem Rearranged.sections_perm {left right : List Recording} (rearranged : Rearranged left right) :
    (left.map visitSection).Perm (right.map visitSection) := by
  obtain ⟨middle, reordered, perm⟩ := rearranged
  have same : left.map visitSection = middle.map visitSection := by
    induction reordered generalizing right with
    | nil => rfl
    | cons first _ ih =>
      rw [List.map_cons, List.map_cons, first.visitSection, ih (List.Perm.refl _)]
  rw [same]
  exact perm.map visitSection

/-! ## Who has a page -/

/-- The person was named by a join the recording accepted. -/
def Chronicle.Joined (chronicle : Chronicle) (person : Bytes32) : Prop :=
  ∃ event ∈ chronicle.accepted, ∃ join, event.body = .join join ∧ join.person = person

/-- The recordings a house can hold: opened, called, given tombstones by a replay,
and with any iteration order at any time; each with the events it accepted. -/
inductive Built (crypto : Crypto) : Chronicle → Prop where
  | opened {visit host : Bytes32} {start : Recording} (opened : Recording.new visit host = .ok start) :
      Built crypto ⟨start, []⟩
  | called {chronicle : Chronicle} (built : Built crypto chronicle) (input : Call) :
      Built crypto (chronicle.call crypto input)
  | tombstoned {chronicle : Chronicle} (built : Built crypto chronicle) (seq : UInt64)
      (id : EventId) :
      Built crypto ⟨chronicle.recording.insertTombstone seq id, chronicle.accepted⟩
  | reordered {chronicle : Chronicle} {recording : Recording} (built : Built crypto chronicle)
      (reordered : chronicle.recording.Reordered recording) :
      Built crypto ⟨recording, chronicle.accepted⟩

theorem Built.mem_participants {crypto : Crypto} {chronicle : Chronicle}
    (built : Built crypto chronicle) (person : Bytes32) :
    person ∈ chronicle.recording.participants ↔ chronicle.Joined person := by
  induction built with
  | opened opened =>
    obtain ⟨_, rfl⟩ := Recording.new_eq_ok opened
    simp [Chronicle.Joined]
  | called built input ih =>
    rename_i chronicle
    rcases chronicle.call_cases crypto input with
      ⟨_, nowMs, event, after, _, _, admits, equal⟩ | ⟨accepted, standing, _, _⟩
    · have ruled := Recording.applyBody_eq_ok.mp admits.ruled
      rw [equal]
      show person ∈ after.participants ↔ _
      rw [ruled.mem_participants, ih]
      simp only [Chronicle.Joined, List.mem_append, List.mem_singleton, or_and_right, exists_or,
        exists_eq_left]
    · have participants := congrArg Standing.participants standing
      show person ∈ (chronicle.call crypto input).recording.toStanding.participants ↔ _
      rw [participants, Chronicle.Joined, accepted]
      exact ih
  | tombstoned built seq id ih => exact ih
  | reordered built reordered ih =>
    exact (reordered.participants.mem_iff person).symm.trans ih

theorem Recording.mem_participantKeys {recording : Recording} {person : Bytes32} :
    person ∈ recording.participantKeys ↔ person ∈ recording.participants := by
  rw [Recording.participantKeys, List.mem_dedup, List.mem_insertionSort, AList.mem_keys]

/-! ## Purity -/

/-- The pages of the groups of these recordings: each recording on one page, that of
its participants, and the pages in the order of their participants. -/
structure Partitions (recordings : List Recording) (groups : List GroupView) : Prop where
  ascending : groups.Pairwise fun earlier later =>
    ¬KeysBelow later.participants earlier.participants
  keyed : ∀ group ∈ groups, ∀ page, page ∈ group.sections ↔
    ∃ recording ∈ recordings, recording.participantKeys = group.participants ∧
      visitSection recording = page
  nonempty : ∀ group ∈ groups, group.sections ≠ []
  once : ∀ group ∈ groups, group.sections.Nodup
  unique : ∀ recording ∈ recordings,
    ∃! group, group ∈ groups ∧ visitSection recording ∈ group.sections

section Purity

variable {recordings left right : List Recording}

/-- No two sections of different visits open alike. -/
theorem eq_of_opensBefore (distinct : (recordings.map Recording.visit).Nodup)
    {first second : VisitSection} (isFirst : first ∈ recordings.map visitSection)
    (isSecond : second ∈ recordings.map visitSection) (lower : OpensBefore first second)
    (upper : OpensBefore second first) : first = second := by
  obtain ⟨firstRecording, firstMember, rfl⟩ := List.mem_map.mp isFirst
  obtain ⟨secondRecording, secondMember, rfl⟩ := List.mem_map.mp isSecond
  have sameVisit : firstRecording.visit = secondRecording.visit := by
    rcases lower with earlier | ⟨same, lower⟩
    · rcases upper with later | ⟨same, _⟩
      · exact absurd later (UInt64.lt_asymm earlier)
      · exact absurd same.symm (UInt64.ne_of_lt earlier)
    · rcases upper with later | ⟨_, upper⟩
      · exact absurd same.symm (UInt64.ne_of_lt later)
      · exact Std.Antisymm.antisymm _ _ lower upper
  have same := List.inj_on_of_nodup_map distinct firstMember secondMember sameVisit
  rw [same]

theorem nodup_sections (distinct : (recordings.map Recording.visit).Nodup) :
    (recordings.map visitSection).Nodup := by
  have visits : recordings.map Recording.visit =
      (recordings.map visitSection).map VisitSection.visit := by
    rw [List.map_map]
    rfl
  rw [visits] at distinct
  exact distinct.of_map

theorem groupViews_of_rearranged (distinct : (left.map Recording.visit).Nodup)
    (rearranged : Rearranged left right) : groupViews left = groupViews right := by
  rw [groupViews_eq, groupViews_eq]
  congr 1
  apply pages_eq_of_perm rearranged.sections_perm
  intro first isFirst second isSecond
  exact eq_of_opensBefore distinct isFirst isSecond

theorem contactView_of_rearranged (distinct : (left.map Recording.visit).Nodup)
    (rearranged : Rearranged left right) (person : Bytes32) :
    contactView left person = contactView right person := by
  rw [contactView_eq, contactView_eq]
  congr 1
  apply insertionSort_eq_of_perm (rearranged.sections_perm.filter _)
  intro first isFirst second isSecond
  exact eq_of_opensBefore distinct (List.mem_of_mem_filter isFirst) (List.mem_of_mem_filter isSecond)

theorem mem_groupViews {group : GroupView} : group ∈ groupViews recordings ↔
    (∃ page ∈ recordings.map visitSection, page.participants = group.participants) ∧
      group.sections = ((recordings.map visitSection).filter fun page =>
        page.participants = group.participants).insertionSort OpensBefore := by
  rw [groupViews_eq, List.mem_map]
  constructor
  · rintro ⟨page, member, rfl⟩
    exact mem_pages.mp member
  · intro both
    exact ⟨(group.participants, group.sections), mem_pages.mpr both, rfl⟩

theorem partitions_groupViews (distinct : (recordings.map Recording.visit).Nodup) :
    Partitions recordings (groupViews recordings) := by
  have keyed : ∀ group ∈ groupViews recordings, ∀ page, page ∈ group.sections ↔
      ∃ recording ∈ recordings, recording.participantKeys = group.participants ∧
        visitSection recording = page := by
    intro group member page
    rw [(mem_groupViews.mp member).2, List.mem_insertionSort, List.mem_filter, List.mem_map,
      decide_eq_true_iff]
    constructor
    · rintro ⟨⟨recording, held, rfl⟩, isKey⟩
      exact ⟨recording, held, isKey, rfl⟩
    · rintro ⟨recording, held, isKey, rfl⟩
      exact ⟨⟨recording, held, rfl⟩, isKey⟩
  refine ⟨?_, keyed, ?_, ?_, ?_⟩
  · rw [groupViews_eq]
    exact List.pairwise_map.mpr ascending_pages
  · intro group member
    obtain ⟨page, isPage, isKey⟩ := (mem_groupViews.mp member).1
    obtain ⟨recording, held, rfl⟩ := List.mem_map.mp isPage
    exact List.ne_nil_of_mem ((keyed group member _).mpr ⟨recording, held, isKey, rfl⟩)
  · intro group member
    rw [(mem_groupViews.mp member).2]
    exact (List.perm_insertionSort _ _).nodup_iff.mpr ((nodup_sections distinct).filter _)
  · intro recording held
    have isPage : visitSection recording ∈ recordings.map visitSection :=
      List.mem_map_of_mem held
    have occurs : ∃ page ∈ recordings.map visitSection,
        page.participants = recording.participantKeys :=
      ⟨visitSection recording, isPage, rfl⟩
    let sections := ((recordings.map visitSection).filter fun page =>
      page.participants = recording.participantKeys).insertionSort OpensBefore
    refine ⟨⟨recording.participantKeys, sections⟩, ⟨mem_groupViews.mpr ⟨occurs, rfl⟩, ?_⟩, ?_⟩
    · rw [List.mem_insertionSort, List.mem_filter]
      exact ⟨isPage, decide_eq_true rfl⟩
    · rintro ⟨participants, sections⟩ ⟨member, listed⟩
      obtain ⟨_, isSorted⟩ := mem_groupViews.mp member
      obtain ⟨other, _, isKey, same⟩ := (keyed _ member _).mp listed
      have sameKeys : recording.participantKeys = participants := by
        have participantsEq := congrArg VisitSection.participants same
        exact participantsEq.symm.trans isKey
      subst sameKeys
      exact congrArg (GroupView.mk _) isSorted

theorem mem_contactView {person : Bytes32} {page : VisitSection} :
    page ∈ (contactView recordings person).sections ↔
      ∃ recording ∈ recordings, person ∈ recording.participants ∧
        visitSection recording = page := by
  rw [contactView, List.mem_insertionSort, List.mem_map]
  simp only [List.mem_filter, List.contains_iff_mem, Recording.mem_participantKeys, and_assoc]

theorem nodup_contactView (distinct : (recordings.map Recording.visit).Nodup) (person : Bytes32) :
    (contactView recordings person).sections.Nodup := by
  rw [contactView_eq]
  exact (List.perm_insertionSort _ _).nodup_iff.mpr ((nodup_sections distinct).filter _)

theorem sorted_pages (group : GroupView) (member : group ∈ groupViews recordings) :
    group.sections.Pairwise OpensBefore := by
  rw [(mem_groupViews.mp member).2]
  exact List.pairwise_insertionSort _ _

/-- The pages depend on which recordings there are and on nothing else; they partition
the recordings by who took part in them, a contact's page holds the visits with a
join of theirs, and every page is in the order of opening. -/
theorem views_pure (crypto : Crypto) :
    (∀ left right, (left.map Recording.visit).Nodup → Rearranged left right →
      groupViews left = groupViews right ∧
        ∀ person, contactView left person = contactView right person) ∧
    ∀ recordings : List Recording, (recordings.map Recording.visit).Nodup →
      Partitions recordings (groupViews recordings) ∧
        (∀ person, (contactView recordings person).sections.Nodup ∧
          ∀ page, page ∈ (contactView recordings person).sections ↔
            ∃ recording ∈ recordings, person ∈ recording.participants ∧
              visitSection recording = page) ∧
        (∀ chronicle, Built crypto chronicle → chronicle.recording ∈ recordings → ∀ person,
          (visitSection chronicle.recording ∈ (contactView recordings person).sections ↔
            chronicle.Joined person) ∧
          (person ∈ chronicle.recording.participantKeys ↔ chronicle.Joined person)) ∧
        (∀ group ∈ groupViews recordings, group.sections.Pairwise OpensBefore) ∧
        ∀ person, (contactView recordings person).sections.Pairwise OpensBefore := by
  refine ⟨?_, ?_⟩
  · intro left right distinct rearranged
    exact ⟨groupViews_of_rearranged distinct rearranged,
      contactView_of_rearranged distinct rearranged⟩
  · intro recordings distinct
    refine ⟨partitions_groupViews distinct,
      fun person => ⟨nodup_contactView distinct person, fun page => mem_contactView⟩, ?_,
      sorted_pages, fun person => List.pairwise_insertionSort _ _⟩
    intro chronicle built held person
    have joined := built.mem_participants person
    refine ⟨?_, Recording.mem_participantKeys.trans joined⟩
    rw [mem_contactView, ← joined]
    constructor
    · rintro ⟨other, isOther, present, same⟩
      have sameVisit : other.visit = chronicle.recording.visit :=
        congrArg VisitSection.visit same
      rwa [List.inj_on_of_nodup_map distinct isOther held sameVisit] at present
    · exact fun present => ⟨chronicle.recording, held, present, rfl⟩

end Purity

/-- The visit once its host has joined. -/
def joinedVisit : Chronicle :=
  Chronicle.call recordedCrypto ⟨openedVisit, []⟩ (.ingest openingJoin.toBytes 5)

/-- Another visit of the same host, with nothing in it yet. -/
def emptyVisit : Recording := { openedVisit with visit := List.Vector.replicate 32 0x22 }

theorem views_pure_joinedVisit :
    groupViews [joinedVisit.recording, emptyVisit] =
        groupViews [emptyVisit, joinedVisit.recording] ∧
      visitSection joinedVisit.recording ∈
        (contactView [joinedVisit.recording, emptyVisit] hostKey).sections := by
  have pure := views_pure recordedCrypto
  have distinct : ([joinedVisit.recording, emptyVisit].map Recording.visit).Nodup := by
    decide +kernel
  have rearranged : Rearranged [joinedVisit.recording, emptyVisit]
      [emptyVisit, joinedVisit.recording] :=
    ⟨[joinedVisit.recording, emptyVisit],
      .cons (.refl _) (.cons (.refl _) .nil), List.Perm.swap _ _ _⟩
  refine ⟨(pure.1 _ _ distinct rearranged).1, ?_⟩
  have built : Built recordedCrypto joinedVisit := .called (.opened new_openedVisit) _
  have joined : joinedVisit.Joined hostKey := by
    have accepted : joinedVisit.accepted = [openingJoin] := by decide +kernel
    refine ⟨openingJoin, ?_, ⟨hostKey, [hostKey], none⟩, rfl, rfl⟩
    rw [accepted]
    exact List.mem_singleton_self openingJoin
  obtain ⟨_, _, pages, _⟩ := pure.2 [joinedVisit.recording, emptyVisit] distinct
  exact (pages joinedVisit built List.mem_cons_self hostKey).1.mpr joined

end Mosschat.Core
