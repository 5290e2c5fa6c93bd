import Mosschat.Core.View.Pages

/-!
Owns what an honoured drop-request changes of the pages: exactly when the dropped
entries become markers and everything else stays, the order of the pages included.

Does not own the drop itself, nor what a drop loses in the store.
-/

namespace Mosschat.Core

open Mosschat.Library Mosschat.Library.Cbor

/-! ## Marking -/

/-- The entry as it is shown once its seq is dropped. -/
def ViewEntry.mark (gone : List UInt64) (entry : ViewEntry) : ViewEntry :=
  if entry.seq ∈ gone then .dropped entry.seq entry.eventId else entry

/-- The section with markers for the dropped entries, where it is the visit's. -/
def VisitSection.mark (visit : Bytes32) (gone : List UInt64) (page : VisitSection) : VisitSection :=
  if page.visit = visit then { page with entries := page.entries.map (ViewEntry.mark gone) }
  else page

def GroupView.mark (visit : Bytes32) (gone : List UInt64) (group : GroupView) : GroupView :=
  { group with sections := group.sections.map (VisitSection.mark visit gone) }

def ContactView.mark (visit : Bytes32) (gone : List UInt64) (contact : ContactView) : ContactView :=
  { contact with sections := contact.sections.map (VisitSection.mark visit gone) }

/-- The pages differ only in the markers: no section is moved or otherwise changed. -/
def OnlyMarks (visit : Bytes32) (gone : List UInt64) (before after : List Recording) : Prop :=
  groupViews after = (groupViews before).map (GroupView.mark visit gone) ∧
    ∀ person, contactView after person = (contactView before person).mark visit gone

section Mark

variable {visit : Bytes32} {gone : List UInt64} (page : VisitSection)

@[simp] theorem VisitSection.visit_mark : (page.mark visit gone).visit = page.visit := by
  unfold mark
  split_ifs <;> rfl

@[simp] theorem VisitSection.openedMs_mark : (page.mark visit gone).openedMs = page.openedMs := by
  unfold mark
  split_ifs <;> rfl

@[simp] theorem VisitSection.participants_mark :
    (page.mark visit gone).participants = page.participants := by
  unfold mark
  split_ifs <;> rfl

theorem opensBefore_mark (first second : VisitSection) :
    OpensBefore first second ↔ OpensBefore (first.mark visit gone) (second.mark visit gone) := by
  simp only [OpensBefore, sectionOrderKey, VisitSection.openedMs_mark, VisitSection.visit_mark]

end Mark

/-- Pages of sections that only got markers only got markers. -/
theorem onlyMarks_of_sections {visit : Bytes32} {gone : List UInt64} {before after : List Recording}
    (sections : after.map visitSection =
      (before.map visitSection).map (VisitSection.mark visit gone)) :
    OnlyMarks visit gone before after := by
  refine ⟨?_, ?_⟩
  · rw [groupViews_eq, groupViews_eq, sections,
      pages_map VisitSection.participants_mark opensBefore_mark, List.map_map, List.map_map]
    rfl
  · intro person
    rw [contactView_eq, contactView_eq, sections, List.filter_map, ContactView.mark,
      List.map_insertionSort OpensBefore OpensBefore (VisitSection.mark visit gone) _
        fun first _ second _ => opensBefore_mark first second]
    simp only [Function.comp_def, VisitSection.participants_mark]

/-! ## One recording -/

section Recording

variable {recording dropped : Recording} {gone : List UInt64}

/-- What a slot is shown as. -/
theorem viewEntry_eq (seq : UInt64) : viewEntry recording seq =
    (recording.slots.lookup seq).map fun slot =>
      match slot with
      | .event stored => .event seq stored.event.envelope.author stored.event.envelope.tsMs
          stored.event.eventId (renderBody stored.event.body)
      | .tombstone dropped => .dropped seq dropped.eventId := by
  unfold viewEntry Recording.get Recording.tombstoneAt
  cases recording.slots.lookup seq with
  | none => rfl
  | some slot => cases slot <;> rfl

theorem viewEntry_of_dropsTo (drops : recording.DropsTo dropped fun seq => seq ∈ gone)
    (seq : UInt64) :
    viewEntry dropped seq = (viewEntry recording seq).map (ViewEntry.mark gone) := by
  rw [viewEntry_eq, viewEntry_eq, Option.map_map]
  by_cases isGone : seq ∈ gone
  · rw [drops.dropped seq isGone, Option.map_map]
    congr 1
    funext slot
    cases slot <;>
      simp [ViewEntry.mark, ViewEntry.seq, ViewEntry.eventId, Slot.drop, isGone]
  · rw [drops.kept seq isGone]
    congr 1
    funext slot
    cases slot <;> simp [ViewEntry.mark, ViewEntry.seq, isGone]

theorem entries_of_dropsTo (drops : recording.DropsTo dropped fun seq => seq ∈ gone) :
    (visitSection dropped).entries = (visitSection recording).entries.map (ViewEntry.mark gone) := by
  have range : dropped.seqRange = recording.seqRange := by
    apply Recording.seqRange_congr
    intro seq
    rw [Recording.mem_keys_slots, Recording.mem_keys_slots, drops.ids]
  have entry : viewEntry dropped = fun seq => (viewEntry recording seq).map (ViewEntry.mark gone) :=
    funext (viewEntry_of_dropsTo drops)
  unfold visitSection
  dsimp only
  rw [range, entry]
  cases recording.seqRange with
  | none => rfl
  | some range => exact List.map_filterMap.symm

/-- When the visit opened, as its section tells it. -/
theorem openedMs_eq : (visitSection recording).openedMs =
    ((recording.get 0).map fun stored => stored.event.envelope.tsMs).getD 0 := rfl

/-- A drop leaves the section its opening, or takes the opening with the event at seq 0. -/
theorem openedMs_of_dropsTo (drops : recording.DropsTo dropped fun seq => seq ∈ gone) :
    (visitSection dropped).openedMs =
      if 0 ∈ gone then 0 else (visitSection recording).openedMs := by
  rw [openedMs_eq, openedMs_eq]
  split_ifs with isGone
  · have noEvent : dropped.get 0 = none := by
      by_contra live
      obtain ⟨stored, held⟩ := Option.ne_none_iff_exists'.mp live
      exact (drops.get_eq_some.mp held).2 isGone
    rw [noEvent]
    rfl
  · have same : dropped.get 0 = recording.get 0 := by
      ext stored
      rw [drops.get_eq_some]
      exact and_iff_left isGone
    rw [same]

/-- A section that keeps its opening only gets markers. -/
theorem visitSection_of_dropsTo (drops : recording.DropsTo dropped fun seq => seq ∈ gone)
    (keeps : (visitSection dropped).openedMs = (visitSection recording).openedMs) :
    visitSection dropped = (visitSection recording).mark recording.visit gone := by
  have participants : (visitSection dropped).participants = (visitSection recording).participants := by
    show dropped.participantKeys = recording.participantKeys
    unfold Recording.participantKeys
    rw [drops.standing]
  have isVisit : (visitSection recording).visit = recording.visit := rfl
  have entries := entries_of_dropsTo drops
  have visit : (visitSection dropped).visit = (visitSection recording).visit := drops.visit
  have host : (visitSection dropped).host = (visitSection recording).host := drops.host
  rw [VisitSection.mark, if_pos isVisit]
  cases shown : visitSection dropped with
  | mk shownVisit shownHost shownOpened shownParticipants shownEntries =>
    rw [shown] at participants entries visit host keeps
    dsimp only at participants entries visit host keeps
    rw [participants, entries, visit, host, keeps]

end Recording

/-! ## The pages -/

/-- Seq 0 holds an event with a time on it, and the request has it dropped. -/
def Recording.OpeningDropped (recording : Recording) (request : EventId) : Prop :=
  ∃ requestSeq dropRequest stored,
    recording.dropRequestAt request = some (requestSeq, dropRequest) ∧
      recording.get 0 = some stored ∧ stored.event.envelope.tsMs ≠ 0 ∧
      if dropRequest.scope = 0 then requestSeq ≠ 0
      else ∃ targets, dropRequest.targets = some targets ∧
        ∃ target ∈ targets, recording.seqOf (.fromBytes target) = some 0

section Pages

variable {earlier later : List Recording} {recording dropped : Recording} {request : EventId}
  {requestSeq : UInt64} {dropRequest : DropRequest}

theorem openingDropped_iff
    (found : recording.dropRequestAt request = some (requestSeq, dropRequest)) :
    recording.OpeningDropped request ↔
      0 ∈ recording.dropTargets requestSeq dropRequest ∧ (visitSection recording).openedMs ≠ 0 := by
  have opened : (visitSection recording).openedMs ≠ 0 ↔
      ∃ stored, recording.get 0 = some stored ∧ stored.event.envelope.tsMs ≠ 0 := by
    rw [openedMs_eq]
    cases recording.get 0 <;> simp
  rw [opened, Recording.mem_dropTargets]
  constructor
  · rintro ⟨_, _, stored, alsoFound, live, timed, targets⟩
    rw [found] at alsoFound
    cases alsoFound
    refine ⟨?_, stored, live, timed⟩
    split_ifs at targets ⊢
    · exact ⟨targets.symm, by rw [live]; rfl⟩
    · exact targets
  · rintro ⟨targets, stored, live, timed⟩
    refine ⟨requestSeq, dropRequest, stored, found, live, timed, ?_⟩
    split_ifs at targets ⊢
    · exact targets.1.symm
    · exact targets

/-- The sections of the recordings with one of them dropped from. -/
theorem sections_of_dropsTo {gone : List UInt64}
    (distinct : ((earlier ++ recording :: later).map Recording.visit).Nodup)
    (drops : recording.DropsTo dropped fun seq => seq ∈ gone)
    (keeps : (visitSection dropped).openedMs = (visitSection recording).openedMs) :
    (earlier ++ dropped :: later).map visitSection =
      ((earlier ++ recording :: later).map visitSection).map
        (VisitSection.mark recording.visit gone) := by
  have elsewhere : ∀ other ∈ earlier ++ later,
      visitSection other = (visitSection other).mark recording.visit gone := by
    intro other member
    have visits := distinct
    rw [List.map_append, List.map_cons, List.nodup_middle, List.nodup_cons] at visits
    have differs : other.visit ≠ recording.visit := by
      intro same
      apply visits.1
      rw [← List.map_append, ← same]
      exact List.mem_map_of_mem member
    exact (if_neg differs).symm
  rw [List.map_map, List.map_append, List.map_append, List.map_cons, List.map_cons]
  congr 1
  · exact List.map_congr_left fun other member => elsewhere other (List.mem_append_left later member)
  · congr 1
    · exact visitSection_of_dropsTo drops keeps
    · exact List.map_congr_left fun other member =>
        elsewhere other (List.mem_append_right earlier member)

/-- On pages that only got markers, the section of the dropped recording is found
where it was, opened when it was. -/
theorem openedMs_of_onlyMarks {gone : List UInt64}
    (distinct : ((earlier ++ recording :: later).map Recording.visit).Nodup)
    (sameVisit : dropped.visit = recording.visit)
    (onlyMarks : OnlyMarks recording.visit gone (earlier ++ recording :: later)
      (earlier ++ dropped :: later)) :
    (visitSection dropped).openedMs = (visitSection recording).openedMs := by
  have distinctAfter : ((earlier ++ dropped :: later).map Recording.visit).Nodup := by
    rw [List.map_append, List.map_cons, sameVisit, ← List.map_cons, ← List.map_append]
    exact distinct
  have isHeld : dropped ∈ earlier ++ dropped :: later :=
    List.mem_append_right earlier List.mem_cons_self
  obtain ⟨after, ⟨isAfter, listed⟩, _⟩ := (partitions_groupViews distinctAfter).unique dropped isHeld
  rw [onlyMarks.1] at isAfter
  obtain ⟨before, isBefore, rfl⟩ := List.mem_map.mp isAfter
  obtain ⟨page, isPage, same⟩ := List.mem_map.mp listed
  obtain ⟨other, isOther, _, rfl⟩ := ((partitions_groupViews distinct).keyed before isBefore page).mp isPage
  have otherVisit : other.visit = recording.visit := by
    have visits := congrArg VisitSection.visit same
    rw [VisitSection.visit_mark] at visits
    exact visits.trans sameVisit
  have isRecording : other = recording :=
    List.inj_on_of_nodup_map distinct isOther (List.mem_append_right earlier List.mem_cons_self)
      otherVisit
  have opened := congrArg VisitSection.openedMs same
  rw [VisitSection.openedMs_mark, isRecording] at opened
  exact opened.symm

/-- An honoured drop-request only puts markers on the pages exactly where it does not
drop an event at seq 0 with a time on it. -/
theorem drop_only_marks_iff {count : Nat}
    (distinct : ((earlier ++ recording :: later).map Recording.visit).Nodup)
    (honoured : recording.honourDropRequest request = .ok (dropped, count)) :
    ∃ requestSeq dropRequest,
      recording.dropRequestAt request = some (requestSeq, dropRequest) ∧
        (OnlyMarks recording.visit (recording.dropTargets requestSeq dropRequest)
          (earlier ++ recording :: later) (earlier ++ dropped :: later) ↔
            ¬recording.OpeningDropped request) := by
  obtain ⟨requestSeq, dropRequest, found, drops⟩ := Recording.honourDropRequest_ok honoured
  refine ⟨requestSeq, dropRequest, found, ?_⟩
  have opening := openedMs_of_dropsTo drops
  rw [openingDropped_iff found]
  constructor
  · rintro onlyMarks ⟨isGone, timed⟩
    have keeps := openedMs_of_onlyMarks distinct drops.visit onlyMarks
    rw [opening, if_pos isGone] at keeps
    exact timed keeps.symm
  · intro spared
    apply onlyMarks_of_sections
    apply sections_of_dropsTo distinct drops
    rw [opening]
    split_ifs with isGone
    · by_contra timed
      exact spared ⟨isGone, fun zero => timed zero.symm⟩
    · rfl

end Pages

/-! ## Two visits of one host -/

/-- The host opens the visit a second into its clock. -/
def timedJoin : SignedEvent :=
  .assembled
    { v := 1, visit := visitId, author := hostKey, seq := 0
      prev := zero32
      tsMs := 1000
      bodyHash := bytes32
        0xa473edd8e5b0af36a0ed0306b2d7a8affd677111048eb7c8d15a7749dcb97b00
      bodyLen := 74 }
    (bytes64
      0x54843b135e5ce11580a1b209574ecf385684a4e738a43103237fe62e718e4c6b
      0xa712549590dabc41fb8aa4434182e7253acf850675893df01c86dcb11fc40206)
    (.join ⟨hostKey, [hostKey], none⟩)
    (bytes32
      0x7fc52952b728b9e47a9fa73430ad50f756c2b04aa2960cd737a763f68ec36fff)

/-- The host asks for that opening to be dropped. -/
def timedDrop : SignedEvent :=
  .assembled
    { v := 1, visit := visitId, author := hostKey, seq := 1
      prev := timedJoin.eventId.asBytes
      tsMs := 1001
      bodyHash := bytes32
        0x24baa16886efa8e0822cc1d4d42112062ebb65e98c1926a6bccd91c18cfda67d
      bodyLen := 41 }
    (bytes64
      0xc04ca52d4f1f0aa32358f3df05cbc54ce5c22b0f8c270b3653906fed35cd023d
      0xbf9233b7be2501ea90f3a8b79d177690da644903dce31423f50c10fd8b1ed20e)
    (.dropRequest ⟨1, some [timedJoin.eventId.asBytes], none⟩)
    (bytes32
      0x9201aa7b476bd6597a8ecf0b9f424555ad5d36a7c3ab61d40113ee6d53d3102a)

def earlierVisitId : Bytes32 := List.Vector.replicate 32 0x22

/-- The host opened another visit before. -/
def earlierJoin : SignedEvent :=
  .assembled
    { v := 1, visit := earlierVisitId, author := hostKey, seq := 0
      prev := zero32
      tsMs := 500
      bodyHash := bytes32
        0xa473edd8e5b0af36a0ed0306b2d7a8affd677111048eb7c8d15a7749dcb97b00
      bodyLen := 74 }
    (bytes64
      0x84404eacc8c2001d4d1c89f3ab261169df299194d73643f711ff1b272d0373da
      0x270dca3829609ac048eaad2775cd602e25b3674a2b45ff074c7ccddac47d2202)
    (.join ⟨hostKey, [hostKey], none⟩)
    (bytes32
      0xc8a1a8a1d229b51a81df6ec44fdb39d79767986d58b25dddc9f7668eb77943e7)

def timedCrypto : Crypto := .recordedFor [timedJoin, timedDrop, earlierJoin]

def timedVisit : Recording :=
  Machine.run (Recording.call timedCrypto) openedVisit
    [.ingest timedJoin.toBytes 2000, .ingest timedDrop.toBytes 2000]

/-- The visit with the request honoured. -/
def timedDropped : Recording :=
  timedVisit.call timedCrypto (.honourDropRequest timedDrop.eventId)

def earlierVisit : Recording :=
  Recording.call timedCrypto { openedVisit with visit := earlierVisitId }
    (.ingest earlierJoin.toBytes 2000)

theorem timedVisit_checks :
    (([] ++ timedVisit :: [earlierVisit]).map Recording.visit).Nodup ∧
      (timedVisit.honourDropRequest timedDrop.eventId).toOption.isSome = true ∧
      (contactView [timedVisit, earlierVisit] hostKey).sections.map VisitSection.visit =
        [earlierVisitId, visitId] ∧
      (contactView [timedDropped, earlierVisit] hostKey).sections.map VisitSection.visit =
        [visitId, earlierVisitId] := by
  decide +kernel

theorem honour_timedVisit :
    ∃ count, timedVisit.honourDropRequest timedDrop.eventId = .ok (timedDropped, count) := by
  have accepted := timedVisit_checks.2.1
  cases honoured : timedVisit.honourDropRequest timedDrop.eventId with
  | error reason =>
    rw [honoured] at accepted
    cases accepted
  | ok result =>
    obtain ⟨after, count⟩ := result
    refine ⟨count, ?_⟩
    rw [timedDropped, Recording.call, honoured]

theorem drop_only_marks_iff_timedVisit :
    ∃ requestSeq dropRequest,
      timedVisit.dropRequestAt timedDrop.eventId = some (requestSeq, dropRequest) ∧
        (OnlyMarks timedVisit.visit (timedVisit.dropTargets requestSeq dropRequest)
          ([] ++ timedVisit :: [earlierVisit]) ([] ++ timedDropped :: [earlierVisit]) ↔
            ¬timedVisit.OpeningDropped timedDrop.eventId) := by
  obtain ⟨count, honoured⟩ := honour_timedVisit
  exact drop_only_marks_iff timedVisit_checks.1 honoured

/-- The drop moves the visit to the front of the host's page: its opening was on the
event that is gone. -/
theorem timedDrop_reorders :
    (∃ count, timedVisit.honourDropRequest timedDrop.eventId = .ok (timedDropped, count)) ∧
      (contactView [timedVisit, earlierVisit] hostKey).sections.map VisitSection.visit =
        [earlierVisitId, visitId] ∧
      (contactView [timedDropped, earlierVisit] hostKey).sections.map VisitSection.visit =
        [visitId, earlierVisitId] ∧
      ¬OnlyMarks visitId [0] [timedVisit, earlierVisit] [timedDropped, earlierVisit] := by
  obtain ⟨-, -, before, after⟩ := timedVisit_checks
  refine ⟨honour_timedVisit, before, after, ?_⟩
  intro onlyMarks
  have sections := congrArg (fun contact => contact.sections.map VisitSection.visit)
    (onlyMarks.2 hostKey)
  have kept : ((contactView [timedVisit, earlierVisit] hostKey).mark visitId [0]).sections.map
      VisitSection.visit =
        (contactView [timedVisit, earlierVisit] hostKey).sections.map VisitSection.visit := by
    rw [ContactView.mark, List.map_map]
    apply List.map_congr_left
    intro page _
    exact VisitSection.visit_mark page
  change _ = ((contactView [timedVisit, earlierVisit] hostKey).mark visitId [0]).sections.map
    VisitSection.visit at sections
  rw [kept, before] at sections
  have moved := after.symm.trans sections
  exact absurd moved (by decide)

end Mosschat.Core
