import Mathlib.Data.List.Induction
import Mosschat.Core.Recording.Authorisation
import Mosschat.Core.Recording.Logged

/-!
Owns whose events a drop-request may name (R-40): the devices of a person by what the recording
has accepted, who holds a device by the order in which it was taken and lost, and where the two
answer alike.

A revoked device is nobody's but its own, so the events it left behind are no longer its
person's.
-/

namespace Mosschat.Core

open Mosschat.Library Mosschat.Library.Cbor

/-! ## Devices by what was accepted -/

/-- A device that is a person's. -/
structure Membership where
  device : Bytes32
  person : Bytes32
deriving DecidableEq

/-- The devices an event makes a person's: those a join lists, and the one that a device of the
person adds. -/
def Recording.membershipsOf (recording : Recording) (event : SignedEvent) : List Membership :=
  match event.body with
  | .join join => join.devices.map fun device => ⟨device, join.person⟩
  | .deviceAdd deviceAdd => [⟨deviceAdd.device, recording.personOrSelf event.envelope.author⟩]
  | _ => []

/-- What an accepted event says of a device: that it is a person's, or that it is lost. -/
inductive Mark where
  | taken (membership : Membership)
  | lost (device : Bytes32)
deriving DecidableEq

def Recording.marksOf (recording : Recording) (event : SignedEvent) : List Mark :=
  match event.body with
  | .deviceRevoke deviceRevoke => [.lost deviceRevoke.device]
  | _ => (recording.membershipsOf event).map .taken

/-- The devices that were made a person's. -/
def membersOf (marks : List Mark) : List Membership :=
  marks.filterMap fun mark =>
    match mark with
    | .taken membership => some membership
    | .lost _ => none

/-- Who holds the device after the mark: whoever takes it first holds it until it is lost. -/
def Mark.heldBy (device : Bytes32) (holder : Option Bytes32) : Mark → Option Bytes32
  | .taken membership =>
    if device = membership.device then some (holder.getD membership.person) else holder
  | .lost gone => if device = gone then none else holder

/-- Who has taken the device first since it was lost last. -/
def holder (marks : List Mark) (device : Bytes32) : Option Bytes32 :=
  marks.foldl (Mark.heldBy device) none

/-- A recording, and what it has accepted of the devices. -/
abbrev Roster := Logged Mark

section Marks

variable {marks : List Mark} {device person : Bytes32}

theorem membersOf_append (marks more : List Mark) :
    membersOf (marks ++ more) = membersOf marks ++ membersOf more := List.filterMap_append

theorem membersOf_taken (members : List Membership) : membersOf (members.map .taken) = members := by
  unfold membersOf
  rw [List.filterMap_map]
  exact List.filterMap_some

theorem holder_append (marks more : List Mark) (device : Bytes32) :
    holder (marks ++ more) device = more.foldl (Mark.heldBy device) (holder marks device) :=
  List.foldl_append

/-- A device that a person takes is that person's, unless it is held. -/
theorem holder_taken (marks : List Mark) (devices : List Bytes32) (person device : Bytes32) :
    holder (marks ++ (devices.map fun device => ⟨device, person⟩).map .taken) device =
      if device ∈ devices then some ((holder marks device).getD person)
      else holder marks device := by
  rw [holder_append]
  generalize holder marks device = held
  induction devices generalizing held with
  | nil => rfl
  | cons first rest ih =>
      rw [List.map_cons, List.map_cons, List.foldl_cons, ih]
      unfold Mark.heldBy
      by_cases isFirst : device = first
      · simp [isFirst]
      · simp [isFirst]

theorem holder_mem (isHeld : holder marks device = some person) :
    ⟨device, person⟩ ∈ membersOf marks := by
  induction marks using List.reverseRecOn generalizing person with
  | nil => cases isHeld
  | append_singleton front mark ih =>
      rw [holder_append] at isHeld
      rw [membersOf_append, List.mem_append]
      cases mark with
      | taken membership =>
          change (if device = membership.device then some ((holder front device).getD
            membership.person) else holder front device) = some person at isHeld
          split_ifs at isHeld with names
          · cases before : holder front device with
            | none =>
                rw [before] at isHeld
                right
                rw [← Option.some.inj isHeld, names]
                exact List.mem_singleton_self _
            | some other =>
                rw [before] at isHeld
                left
                rw [← Option.some.inj isHeld]
                exact ih before
          · exact Or.inl (ih isHeld)
      | lost gone =>
          change (if device = gone then none else holder front device) = some person at isHeld
          split_ifs at isHeld
          exact Or.inl (ih isHeld)

end Marks

namespace Roster

def call (crypto : Crypto) : Roster → Call → Roster := Logged.call crypto Recording.marksOf

variable {crypto : Crypto} {start recording : Recording} {visit host device person : Bytes32}
  {standing after : Standing} {marks : List Mark} {member : Membership}
  {event : SignedEvent} {nowMs : UInt64}

/-- What the maps of the standing keep of the devices. -/
structure Sound (standing : Standing) (marks : List Mark) : Prop where
  inForce : ∀ device, standing.personOf device = holder marks device
  identity : ∀ member : Membership, member ∈ membersOf marks →
    ⟨member.person, member.person⟩ ∈ membersOf marks
  held : ∀ member : Membership, member ∈ membersOf marks → member.device ∉ standing.revoked →
    (standing.personOf member.device).isSome
  listed : ∀ person : Bytes32, ∀ record ∈ standing.joinsOf person,
    ∀ device ∈ record.devices, ⟨device, person⟩ ∈ membersOf marks

/-- A device that may author is held by a person. -/
theorem Sound.holder_of_active (sound : Sound standing marks) {seq : UInt64}
    (notRevoked : device ∉ standing.revoked)
    (active : standing.authorStatus device seq = .active) :
    ∃ person, holder marks device = some person := by
  rw [← sound.inForce]
  rcases Standing.authorStatus_eq_active.mp active with
    ⟨person, record, joined, ⟨_, lists⟩, _⟩ | ⟨_, person, inForce, _⟩
  · have isMember := sound.listed person record joined device lists
    exact Option.isSome_iff_exists.mp (sound.held _ isMember notRevoked)
  · exact ⟨person, inForce⟩

theorem Sound.personOrSelf (sound : Sound standing marks) (device : Bytes32) :
    standing.personOrSelf device = (holder marks device).getD device := by
  rw [Standing.personOrSelf, sound.inForce]

theorem mem_membershipsOf : member ∈ recording.membershipsOf event ↔
    (∃ join, event.body = .join join ∧ member.device ∈ join.devices ∧ member.person = join.person) ∨
      ∃ deviceAdd, event.body = .deviceAdd deviceAdd ∧
        member = ⟨deviceAdd.device, recording.personOrSelf event.envelope.author⟩ := by
  unfold Recording.membershipsOf
  cases event.body with
  | join join =>
      simp only [List.mem_map, Body.join.injEq, exists_eq_left', reduceCtorEq, false_and,
        exists_false, or_false]
      constructor
      · intro found
        obtain ⟨device, lists, isMember⟩ := found
        rw [← isMember]
        exact ⟨lists, rfl⟩
      · intro found
        exact ⟨member.device, found.1, by rw [← found.2]⟩
  | _ => simp

/-- The person that the author of a grant stands for has its own key as a device. -/
theorem Sound.identity_of_author (sound : Sound recording.toStanding marks)
    (admits : recording.Admits event nowMs after) (notJoinOrLeave : event.body.isJoinOrLeave = false) :
    ⟨recording.personOrSelf event.envelope.author,
      recording.personOrSelf event.envelope.author⟩ ∈ membersOf marks := by
  obtain ⟨person, isHeld⟩ := sound.holder_of_active admits.authored.notRevoked
    (admits.authored.active notJoinOrLeave)
  rw [sound.personOrSelf, isHeld]
  exact sound.identity _ (holder_mem isHeld)

theorem membersOf_marksOf (recording : Recording) (event : SignedEvent) :
    membersOf (recording.marksOf event) = recording.membershipsOf event := by
  unfold Recording.marksOf
  cases body : event.body with
  | deviceRevoke deviceRevoke =>
      unfold Recording.membershipsOf
      rw [body]
      rfl
  | _ => exact membersOf_taken _

/-- The map of the devices in force holds whoever holds a device by the marks. -/
theorem holder_marksOf (sound : Sound recording.toStanding marks)
    (ruled : recording.Ruled event after) (device : Bytes32) :
    after.personOf device = holder (marks ++ recording.marksOf event) device := by
  have before := sound.inForce device
  have quiet : recording.marksOf event = [] → after = recording.toStanding →
      after.personOf device = holder (marks ++ recording.marksOf event) device := by
    intro silent same
    rw [silent, List.append_nil, same, before]
  unfold Recording.Ruled at ruled
  unfold Recording.marksOf Recording.membershipsOf at quiet ⊢
  cases body : event.body with
  | join join =>
      rw [body] at ruled
      rw [ruled.2, Standing.personOf_applyJoin, before]
      exact (holder_taken marks join.devices join.person device).symm
  | deviceAdd deviceAdd =>
      rw [body] at ruled
      have taken := holder_taken marks [deviceAdd.device]
        (recording.personOrSelf event.envelope.author) device
      rw [ruled.2, Standing.personOf_applyDeviceAdd]
      refine Eq.trans ?_ taken.symm
      by_cases names : device = deviceAdd.device
      · rw [if_pos names, if_pos (List.mem_singleton.mpr names), ← names, before]
      · rw [if_neg names, if_neg fun inside => names (List.mem_singleton.mp inside), before]
  | deviceRevoke deviceRevoke =>
      rw [body] at ruled
      rw [ruled.2, Standing.personOf_applyDeviceRevoke, holder_append, ← before]
      rfl
  | leave leave =>
      rw [body] at ruled
      rw [ruled.2.2, Standing.personOf_closeJoins, before]
      exact congrArg (fun marks => holder marks device) (List.append_nil marks).symm
  | message message =>
      rw [body] at ruled quiet
      exact quiet rfl ruled.2
  | reaction reaction =>
      rw [body] at ruled quiet
      exact quiet rfl ruled.2
  | attachment attachment =>
      rw [body] at ruled quiet
      exact quiet rfl ruled
  | dropRequest dropRequest =>
      rw [body] at ruled quiet
      exact quiet rfl ruled.2
  | unknown typeValue raw =>
      rw [body] at ruled quiet
      exact quiet rfl ruled

theorem Sound.store (sound : Sound recording.toStanding marks)
    (parsed : SignedEvent.Parsed crypto event) (admits : recording.Admits event nowMs after) :
    Sound after (marks ++ recording.marksOf event) := by
  have ruled := Recording.applyBody_eq_ok.mp admits.ruled
  have members : membersOf (marks ++ recording.marksOf event) =
      membersOf marks ++ recording.membershipsOf event := by
    rw [membersOf_append, membersOf_marksOf]
  refine ⟨holder_marksOf sound ruled, ?_, ?_, ?_⟩
  · intro member inside
    rw [members] at inside ⊢
    rcases List.mem_append.mp inside with old | new
    · exact List.mem_append_left _ (sound.identity member old)
    · rcases mem_membershipsOf.mp new with ⟨join, body, _, isPerson⟩ | ⟨deviceAdd, body, rfl⟩
      · have decoded := parsed.bodyDecodes
        rw [body] at decoded
        apply List.mem_append_right
        rw [isPerson]
        exact mem_membershipsOf.mpr (Or.inl ⟨join, body, (join_of_fromCbor decoded).2, rfl⟩)
      · apply List.mem_append_left
        exact sound.identity_of_author admits (by rw [body]; rfl)
  · intro member inside notRevoked
    rw [members] at inside
    rcases List.mem_append.mp inside with old | new
    · have wasNotRevoked : member.device ∉ recording.revoked :=
        fun revoked => notRevoked (ruled.mem_revoked.mpr (Or.inr revoked))
      obtain ⟨person, inForce⟩ :=
        Option.isSome_iff_exists.mp (sound.held member old wasNotRevoked)
      rw [ruled.personOf_kept inForce notRevoked]
      rfl
    · rcases mem_membershipsOf.mp new with ⟨join, body, lists, _⟩ | ⟨deviceAdd, body, rfl⟩
      · unfold Recording.Ruled at ruled
        rw [body] at ruled
        rw [ruled.2, Standing.personOf_applyJoin, if_pos lists]
        rfl
      · rw [ruled.personOf_deviceAdd body]
        rfl
  · intro person record joined device lists
    rw [members]
    rcases ruled.mem_joinsOf joined with ⟨join, body, isPerson, isRecord⟩ | ⟨old, wasJoined, same, _⟩
    · apply List.mem_append_right
      rw [isRecord] at lists
      exact mem_membershipsOf.mpr (Or.inl ⟨join, body, lists, isPerson.symm⟩)
    · apply List.mem_append_left
      apply sound.listed person old wasJoined
      rcases same with isOld | isClosed
      · rw [← isOld]
        exact lists
      · rw [isClosed] at lists
        exact lists

theorem sound_run (opened : Recording.new visit host = .ok start) (calls : List Call) :
    Sound (Machine.run (call crypto) ⟨start, []⟩ calls).recording.toStanding
      (Machine.run (call crypto) ⟨start, []⟩ calls).log := by
  apply Logged.run_preserves
  · obtain ⟨_, rfl⟩ := Recording.new_eq_ok opened
    exact ⟨fun _ => rfl, nofun, nofun, fun person record joined => by cases joined⟩
  · intro recording log event nowMs after sound parsed admits
    exact sound.store parsed admits

/-! ## Requests -/

/-- The target names an event that is held, and a device of the person is its author. -/
def Owned (recording : Recording) (marks : List Mark) (person target : Bytes32) : Prop :=
  ∃ seq stored, recording.seqOf (.fromBytes target) = some seq ∧ recording.get seq = some stored ∧
    ⟨stored.event.envelope.author, person⟩ ∈ membersOf marks

/-- The target names an event that is held, and the person holds its author: took it first since
it was lost last, or has it as its own key that nobody has taken since. -/
def Held (recording : Recording) (marks : List Mark) (person target : Bytes32) : Prop :=
  ∃ seq stored, recording.seqOf (.fromBytes target) = some seq ∧ recording.get seq = some stored ∧
    (holder marks stored.event.envelope.author = some person ∨
      holder marks stored.event.envelope.author = none ∧ stored.event.envelope.author = person)

/-- What was taken and lost leaves a request by `author` for these targets to be decided as the
person's: the person holds the author, and holds every target if they are all the person's. Or
another holds the author, and the targets are all of both, or not all of either. -/
inductive Undisputed (recording : Recording) (marks : List Mark) (author person : Bytes32)
    (targets : List Bytes32) : Prop where
  | own (isOwn : holder marks author = some person)
      (keeps : (∀ target ∈ targets, Owned recording marks person target) →
        ∀ target ∈ targets, Held recording marks person target)
  | shared (other : Bytes32) (isOther : holder marks author = some other) (differs : other ≠ person)
      (both : ∀ target ∈ targets,
        Owned recording marks person target ∧ Held recording marks other target)
  | apart (other : Bytes32) (isOther : holder marks author = some other) (differs : other ≠ person)
      (notOwned : ∃ target ∈ targets, ¬Owned recording marks person target)
      (notHeld : ∃ target ∈ targets, ¬Held recording marks other target)

/-- An event that is otherwise valid is accepted exactly where its type's rule holds. -/
theorem accepted_iff {bytes : Bytes} {dropRequest : DropRequest} {targets : List Bytes32}
    (unbroken : recording.broken = false) (parsed : SignedEvent.parse crypto bytes = .ok event)
    (linked : recording.Linked event) (authored : recording.Authored event nowMs)
    (body : event.body = .dropRequest dropRequest) (named : dropRequest.targets = some targets) :
    (∃ id, (recording.ingest crypto bytes nowMs).2 = .ok id) ↔
      ∀ target ∈ targets, recording.ownsTarget event.envelope.author target = true := by
  constructor
  · intro accepted
    obtain ⟨id, isOk⟩ := accepted
    obtain ⟨other, after, _, alsoParsed, admits, _⟩ := Recording.ingest_ok isOk
    rw [parsed] at alsoParsed
    have same := Except.ok.inj alsoParsed
    rw [← same] at admits
    have ruled := Recording.applyBody_eq_ok.mp admits.ruled
    unfold Recording.Ruled at ruled
    rw [body] at ruled
    exact ruled.1 targets named
  · intro owns
    have ruled : recording.Ruled event recording.toStanding := by
      unfold Recording.Ruled
      rw [body]
      refine ⟨?_, rfl⟩
      intro others isTargets
      rw [named] at isTargets
      rw [← Option.some.inj isTargets]
      exact owns
    have admits : recording.Admits event nowMs recording.toStanding :=
      ⟨linked, authored, Recording.applyBody_eq_ok.mpr ruled⟩
    refine ⟨event.eventId, ?_⟩
    rw [Recording.ingest_of_admits unbroken parsed admits]

/-- The check of a target asks whether whoever holds the request's author holds the target. -/
theorem Sound.ownsTarget_iff (sound : Sound recording.toStanding marks) {author target : Bytes32}
    (isHolder : holder marks author = some person) :
    recording.ownsTarget author target = true ↔ Held recording marks person target := by
  have stands : recording.personOrSelf author = person := by
    rw [sound.personOrSelf, isHolder]
    rfl
  have asks : ∀ device, recording.personOrSelf device = recording.personOrSelf author ↔
      holder marks device = some person ∨ holder marks device = none ∧ device = person := by
    intro device
    rw [stands, sound.personOrSelf]
    cases holder marks device with
    | none => simp
    | some other => simp
  rw [Recording.ownsTarget_eq_true]
  unfold Held
  simp only [asks]

/-- What the person holds that holds the request's author is the person's. -/
theorem Sound.owned_of_held (sound : Sound recording.toStanding marks) {author target : Bytes32}
    (isOwn : holder marks author = some person) (held : Held recording marks person target) :
    Owned recording marks person target := by
  obtain ⟨seq, stored, found, live, isHolder | ⟨-, isSelf⟩⟩ := held
  · exact ⟨seq, stored, found, live, holder_mem isHolder⟩
  · refine ⟨seq, stored, found, live, ?_⟩
    rw [isSelf]
    exact sound.identity _ (holder_mem isOwn)

/-- R-40 is decided by what was accepted exactly where nothing of it is disputed. -/
theorem Sound.accepted_iff_owned (sound : Sound recording.toStanding marks) {bytes : Bytes}
    {dropRequest : DropRequest} {targets : List Bytes32} (unbroken : recording.broken = false)
    (parsed : SignedEvent.parse crypto bytes = .ok event) (linked : recording.Linked event)
    (authored : recording.Authored event nowMs) (body : event.body = .dropRequest dropRequest)
    (named : dropRequest.targets = some targets) :
    ((∃ id, (recording.ingest crypto bytes nowMs).2 = .ok id) ↔
        ∀ target ∈ targets, Owned recording marks person target) ↔
      Undisputed recording marks event.envelope.author person targets := by
  obtain ⟨other, isHolder⟩ := sound.holder_of_active authored.notRevoked
    (authored.active (by rw [body]; rfl))
  rw [accepted_iff unbroken parsed linked authored body named]
  simp only [sound.ownsTarget_iff isHolder]
  constructor
  · intro decided
    by_cases isOwn : other = person
    · subst isOwn
      exact .own isHolder decided.mpr
    · by_cases owned : ∀ target ∈ targets, Owned recording marks person target
      · exact .shared other isHolder isOwn
          fun target inside => ⟨owned target inside, decided.mpr owned target inside⟩
      · have notHeld := mt decided.mp owned
        push Not at owned notHeld
        exact .apart other isHolder isOwn owned notHeld
  · intro undisputed
    cases undisputed with
    | own isOwn keeps =>
        rw [isHolder] at isOwn
        obtain rfl := Option.some.inj isOwn
        exact ⟨fun held target inside => sound.owned_of_held isHolder (held target inside), keeps⟩
    | shared again isOther differs both =>
        rw [isHolder] at isOther
        obtain rfl := Option.some.inj isOther
        exact iff_of_true (fun target inside => (both target inside).2)
          fun target inside => (both target inside).1
    | apart again isOther differs notOwned notHeld =>
        rw [isHolder] at isOther
        obtain rfl := Option.some.inj isOther
        obtain ⟨one, oneInside, notOne⟩ := notOwned
        obtain ⟨two, twoInside, notTwo⟩ := notHeld
        exact iff_of_false (fun held => notTwo (held two twoInside))
          fun owned => notOne (owned one oneInside)

/-- In every state that a run of a new recording reaches, a drop-request that names targets and
is otherwise valid is accepted exactly where each target is an event of the person's devices, or
not, as what was taken and lost leaves no dispute. -/
theorem run_dropRequest_iff (opened : Recording.new visit host = .ok start) (calls : List Call)
    {bytes : Bytes} {dropRequest : DropRequest} {targets : List Bytes32}
    (unbroken : (Machine.run (call crypto) ⟨start, []⟩ calls).recording.broken = false)
    (parsed : SignedEvent.parse crypto bytes = .ok event)
    (linked : (Machine.run (call crypto) ⟨start, []⟩ calls).recording.Linked event)
    (authored : (Machine.run (call crypto) ⟨start, []⟩ calls).recording.Authored event nowMs)
    (body : event.body = .dropRequest dropRequest) (named : dropRequest.targets = some targets) :
    let roster := Machine.run (call crypto) ⟨start, []⟩ calls
    ((∃ id, (roster.recording.ingest crypto bytes nowMs).2 = .ok id) ↔
        ∀ target ∈ targets, Owned roster.recording roster.log person target) ↔
      Undisputed roster.recording roster.log event.envelope.author person targets :=
  (sound_run opened calls).accepted_iff_owned unbroken parsed linked authored body named

/-! ### A message from a lost laptop -/

/-- The host has joined. -/
def hostJoined : Roster :=
  Machine.run (call recordedCrypto) ⟨openedVisit, []⟩ [.ingest openingJoin.toBytes 5]

theorem hostJoined_checks :
    hostJoined.recording.broken = false ∧
      hostJoined.recording.checkPlace openingDrop = .ok () ∧
      hostJoined.recording.checkAuthor openingDrop 5 = .ok () ∧
      holder hostJoined.log hostKey = some hostKey ∧
      hostJoined.recording.seqOf openingJoin.eventId = some 0 ∧
      hostJoined.recording.get 0 = some ⟨openingJoin⟩ := by
  decide +kernel

/-- The host asks for its own join to be dropped, and nobody has lost a device. -/
theorem run_dropRequest_iff_openingDrop :
    let roster := Machine.run (call recordedCrypto) ⟨openedVisit, []⟩
      [.ingest openingJoin.toBytes 5]
    (∃ id, (roster.recording.ingest recordedCrypto openingDrop.toBytes 5).2 = .ok id) ↔
      ∀ target ∈ [openingJoin.eventId.asBytes],
        Owned roster.recording roster.log hostKey target := by
  obtain ⟨unbroken, linked, authored, holds, isSeq, isStored⟩ := hostJoined_checks
  apply (run_dropRequest_iff new_openedVisit [.ingest openingJoin.toBytes 5] unbroken
    parse_openingDrop (Recording.checkPlace_eq_ok.mp linked)
    (Standing.checkAuthor_eq_ok.mp authored) rfl rfl).mpr
  apply Undisputed.own
  · exact holds
  · intro _ target inside
    rw [List.mem_singleton.mp inside]
    exact ⟨0, ⟨openingJoin⟩, isSeq, isStored, Or.inl holds⟩

/-- The laptop writes at seq 1. -/
def laptopMessage : SignedEvent :=
  .assembled
    { v := 1, visit := visitId, author := laptopKey, seq := 1
      prev := Chronicle.sharedJoin.eventId.asBytes
      tsMs := 0
      bodyHash := bytes32
        0x292e8add47b9b457832b286899e3eae164a3d1eb77e3e3b9f2f5198b5aefe972
      bodyLen := 14 }
    (bytes64
      0xd252cc84514dcc3b4d8c71f829b2d3b6523067f1004e1b6408e01efb998569f1
      0xb898b7caa897c21c4a253dc77309ed8215bdf2e6886e30f09c05d6e8e85e5a01)
    (.message ⟨"on my way", none⟩)
    (bytes32
      0x17ea528d19d37d2fb278d2844c3156f5bffe603c8da5963e064458948ebbe330)

/-- The host revokes the laptop at seq 2. -/
def laptopLost : SignedEvent :=
  .assembled
    { v := 1, visit := visitId, author := hostKey, seq := 2
      prev := laptopMessage.eventId.asBytes
      tsMs := 0
      bodyHash := bytes32
        0x72234134bec624699c8bc59b39f916bc7867f6cddf999037d09516ab162600d1
      bodyLen := 40 }
    (bytes64
      0x015593b66bc7ef645d332923c11410b60d5d1100c2535e94731a2e278683f36b
      0x095b87a8d22d57db796f2515dd79ec2ad41607011d39f2542f8bbee1ead7120b)
    (.deviceRevoke ⟨laptopKey, 7⟩)
    (bytes32
      0xc80416b63fb7832ae2a574cc2fd4ec61d9ad7b43b0c778ff934e44cedee00007)

/-- The host asks at seq 3 for the laptop's message to be dropped. -/
def laptopDrop : SignedEvent :=
  .assembled
    { v := 1, visit := visitId, author := hostKey, seq := 3
      prev := laptopLost.eventId.asBytes
      tsMs := 0
      bodyHash := bytes32
        0x1578477613a239db54d865abff2268f2f8b491027c04a4ab698b07feed36acad
      bodyLen := 41 }
    (bytes64
      0xeb84b1342c0535f1970757445707c243c81bca99510e75d43d80585c7e513ec9
      0x0e168fd7bba37a473e6e2d177861e4042c9b478b313e4c1461720b531bcbf50f)
    (.dropRequest ⟨1, some [laptopMessage.eventId.asBytes], none⟩)
    (bytes32
      0x8928645ec25da31b0d45ff958c35b898fc9ca3c75ac2bad4150bcc06281d43e1)

def lostCrypto : Crypto :=
  .recordedFor [Chronicle.sharedJoin, laptopMessage, laptopLost, laptopDrop]

/-- The host joins with the laptop, the laptop writes, and the host revokes it. -/
def lostCalls : List Call :=
  [.ingest Chronicle.sharedJoin.toBytes 5, .ingest laptopMessage.toBytes 5,
    .ingest laptopLost.toBytes 5]

def lostRoster : Roster := Machine.run (call lostCrypto) ⟨openedVisit, []⟩ lostCalls

theorem lostRoster_checks :
    SignedEvent.parse lostCrypto laptopDrop.toBytes = .ok laptopDrop ∧
      lostRoster.recording.broken = false ∧
      lostRoster.recording.checkPlace laptopDrop = .ok () ∧
      lostRoster.recording.checkAuthor laptopDrop 6 = .ok () ∧
      ⟨hostKey, hostKey⟩ ∈ membersOf lostRoster.log ∧
      ⟨laptopKey, hostKey⟩ ∈ membersOf lostRoster.log ∧
      lostRoster.recording.seqOf laptopMessage.eventId = some 1 ∧
      lostRoster.recording.get 1 = some ⟨laptopMessage⟩ ∧
      (lostRoster.recording.ingest lostCrypto laptopDrop.toBytes 6).2 =
        .error .dropRequestTargetNotOwnPerson := by
  decide +kernel

/-- The laptop is one that the host has joined with, nothing has been honoured, and the request
meets every other rule; yet it is refused. -/
theorem laptopDrop_refused :
    (∀ input ∈ lostCalls, ∃ bytes nowMs, input = .ingest bytes nowMs) ∧
      SignedEvent.parse lostCrypto laptopDrop.toBytes = .ok laptopDrop ∧
      lostRoster.recording.broken = false ∧ lostRoster.recording.Linked laptopDrop ∧
      lostRoster.recording.Authored laptopDrop 6 ∧ ⟨hostKey, hostKey⟩ ∈ membersOf lostRoster.log ∧
      (∀ target ∈ [laptopMessage.eventId.asBytes],
        Owned lostRoster.recording lostRoster.log hostKey target) ∧
      (lostRoster.recording.ingest lostCrypto laptopDrop.toBytes 6).2 =
        .error .dropRequestTargetNotOwnPerson := by
  obtain ⟨parsed, unbroken, linked, authored, isMember, hadLaptop, isSeq, isStored, refused⟩ :=
    lostRoster_checks
  refine ⟨?_, parsed, unbroken, Recording.checkPlace_eq_ok.mp linked,
    Standing.checkAuthor_eq_ok.mp authored, isMember, ?_, refused⟩
  · intro input inside
    simp only [lostCalls, List.mem_cons, List.not_mem_nil, or_false] at inside
    rcases inside with isFirst | isSecond | isThird
    · exact ⟨_, _, isFirst⟩
    · exact ⟨_, _, isSecond⟩
    · exact ⟨_, _, isThird⟩
  · intro target inside
    rw [List.mem_singleton.mp inside]
    exact ⟨1, ⟨laptopMessage⟩, isSeq, isStored, hadLaptop⟩

end Roster

end Mosschat.Core
