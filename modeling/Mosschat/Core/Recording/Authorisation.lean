import Mosschat.Core.Recording.Isolation
import Mosschat.Core.Recording.WellFormed

/-!
Owns the authorisation of accepted events by the history before them. A
`Chronicle` is a recording with the events it has accepted; what an author may do
is read off that list alone, and the four maps of the standing are shown to
follow it.

A device whose open join names another person than the one it is in force for
grants keys to the wrong person; the history authorises every accepted event
where no such device grants.
-/

namespace Mosschat.Core

open Mosschat.Library Mosschat.Library.Cbor

/-! ## What a history authorises -/

namespace History

/-- An accepted join below `atSeq`, with no accepted leave of its person between. -/
structure OpenJoin (history : List SignedEvent) (event : SignedEvent) (join : Join)
    (atSeq : UInt64) : Prop where
  accepted : event ∈ history
  body : event.body = .join join
  below : event.envelope.seq < atSeq
  stays : ∀ later ∈ history, ∀ leave, later.body = .leave leave → leave.person = join.person →
    event.envelope.seq < later.envelope.seq → atSeq ≤ later.envelope.seq

/-- A join of the person that is open at `atSeq` lists the device. -/
def Listed (history : List SignedEvent) (device person : Bytes32) (atSeq : UInt64) : Prop :=
  ∃ event join, OpenJoin history event join atSeq ∧ join.person = person ∧
    device ∈ join.devices

def Present (history : List SignedEvent) (person : Bytes32) (atSeq : UInt64) : Prop :=
  ∃ event join, OpenJoin history event join atSeq ∧ join.person = person

/-- The device is the person's at `atSeq`: an open join lists it, or a device that
was the person's granted it and the person is present. -/
inductive Belongs (history : List SignedEvent) :
    (device person : Bytes32) → (atSeq : UInt64) → Prop
  | listed {device person : Bytes32} {atSeq : UInt64}
      (listed : Listed history device person atSeq) : Belongs history device person atSeq
  | granted {device person : Bytes32} {atSeq : UInt64} (grant : SignedEvent)
      (deviceAdd : DeviceAdd) (accepted : grant ∈ history)
      (body : grant.body = .deviceAdd deviceAdd) (names : deviceAdd.device = device)
      (below : grant.envelope.seq < atSeq)
      (adder : Belongs history grant.envelope.author person grant.envelope.seq)
      (present : Present history person atSeq) : Belongs history device person atSeq

/-- What holds of every accepted event: a join or leave is the host's; no
accepted revocation named the author; the latest grant that names the author
covers the clock. -/
structure Cleared (history : List SignedEvent) (host : Bytes32) (event : SignedEvent)
    (nowMs : UInt64) : Prop where
  byHost : event.body.isJoinOrLeave = true → event.envelope.author = host
  notRevoked : ∀ revoke ∈ history, ∀ deviceRevoke, revoke.body = .deviceRevoke deviceRevoke →
    deviceRevoke.device ≠ event.envelope.author
  window : event.body.isJoinOrLeave = false →
    ∀ grant ∈ history, ∀ deviceAdd, grant.body = .deviceAdd deviceAdd →
      deviceAdd.device = event.envelope.author →
      (∀ later ∈ history, ∀ laterAdd, later.body = .deviceAdd laterAdd →
        laterAdd.device = event.envelope.author →
          later.envelope.seq ≤ grant.envelope.seq) →
      Standing.deviceAddGrantInForce deviceAdd.notBeforeMs deviceAdd.notAfterMs nowMs = true

/-- The author of an event that is no join or leave belongs to a person. -/
structure Authorised (history : List SignedEvent) (host : Bytes32) (event : SignedEvent)
    (nowMs : UInt64) : Prop extends Cleared history host event nowMs where
  belongs : event.body.isJoinOrLeave = false →
    ∃ person, Belongs history event.envelope.author person event.envelope.seq

variable {history : List SignedEvent} {event : SignedEvent} {device person : Bytes32}
  {atSeq : UInt64}

/-- What a history says about a seq, no later event changes. -/
theorem OpenJoin.append {opening : SignedEvent} {join : Join}
    (isOpen : OpenJoin history opening join atSeq) (above : atSeq ≤ event.envelope.seq) :
    OpenJoin (history ++ [event]) opening join atSeq where
  accepted := List.mem_append_left [event] isOpen.accepted
  body := isOpen.body
  below := isOpen.below
  stays := by
    intro later member leave body same after
    rcases List.mem_append.mp member with old | new
    · exact isOpen.stays later old leave body same after
    · rw [List.mem_singleton.mp new]
      exact above

theorem Belongs.append (belongs : Belongs history device person atSeq)
    (above : atSeq ≤ event.envelope.seq) : Belongs (history ++ [event]) device person atSeq := by
  induction belongs with
  | listed listed =>
    obtain ⟨opening, join, isOpen, same, lists⟩ := listed
    exact .listed ⟨opening, join, isOpen.append above, same, lists⟩
  | granted grant deviceAdd accepted body names below adder present ih =>
    obtain ⟨opening, join, isOpen, same⟩ := present
    have earlier : grant.envelope.seq ≤ event.envelope.seq :=
      UInt64.le_trans (UInt64.le_of_lt below) above
    exact .granted grant deviceAdd (List.mem_append_left [event] accepted) body names below
      (ih earlier) ⟨opening, join, isOpen.append above, same⟩

end History

/-! ## Recordings with their history -/

/-- The key stands for a person whose open join lists it, or no join lists it. -/
def Recording.GrantsOwn (recording : Recording) (author : Bytes32) : Prop :=
  recording.ListedFor author (recording.personOrSelf author) ∨
    ∀ person, ∀ record ∈ recording.joinsOf person, author ∉ record.devices

/-- An accepted grant is by a key in that position. -/
def Recording.GrantsByOwn (crypto : Crypto) (recording : Recording) : Call → Prop
  | .ingest bytes nowMs => ∀ event deviceAdd after, SignedEvent.parse crypto bytes = .ok event →
      recording.Admits event nowMs after → event.body = .deviceAdd deviceAdd →
        recording.GrantsOwn event.envelope.author
  | .honourDropRequest _ => True

/-- A recording, and the events it has accepted, oldest first. -/
structure Chronicle where
  recording : Recording
  accepted : List SignedEvent

namespace Chronicle

def call (crypto : Crypto) (chronicle : Chronicle) (input : Call) : Chronicle :=
  ⟨chronicle.recording.call crypto input,
    chronicle.accepted ++ (chronicle.recording.acceptedBy crypto input).toList⟩

variable {crypto : Crypto} {chronicle : Chronicle} {start : Recording} {calls : List Call}
  {visit host : Bytes32}

/-- A call stores an event and notes it, or leaves the standing, the ids and the
history as they were. -/
theorem call_cases (crypto : Crypto) (chronicle : Chronicle) (input : Call) :
    (∃ bytes nowMs event after, input = .ingest bytes nowMs ∧
        SignedEvent.parse crypto bytes = .ok event ∧
        chronicle.recording.Admits event nowMs after ∧
        chronicle.call crypto input =
          ⟨chronicle.recording.store event after, chronicle.accepted ++ [event]⟩) ∨
      ((chronicle.call crypto input).accepted = chronicle.accepted ∧
        (chronicle.call crypto input).recording.toStanding = chronicle.recording.toStanding ∧
        (chronicle.call crypto input).recording.host = chronicle.recording.host ∧
        (chronicle.call crypto input).recording.ids = chronicle.recording.ids) := by
  cases input with
  | ingest bytes nowMs =>
    rcases chronicle.recording.ingest_cases crypto bytes nowMs with
      ⟨event, after, _, parsed, admits, equal⟩ | ⟨event, _, parsed, _, equal⟩ | ⟨reason, _, equal⟩
    · refine Or.inl ⟨bytes, nowMs, event, after, rfl, parsed, admits, ?_⟩
      simp only [call, Recording.call, Recording.acceptedBy, equal, parsed, Option.toList_some]
    · refine Or.inr ⟨?_, ?_, ?_, ?_⟩ <;>
        simp [call, Recording.call, Recording.acceptedBy, equal, parsed, Recording.markBroken,
          Recording.ids]
    · refine Or.inr ⟨?_, ?_, ?_, ?_⟩
      · cases parsed : SignedEvent.parse crypto bytes <;>
          simp [call, Recording.acceptedBy, equal, parsed]
      all_goals simp [call, Recording.call, equal]
  | honourDropRequest request =>
    refine Or.inr ⟨by simp [call, Recording.acceptedBy], ?_⟩
    rcases chronicle.recording.call_cases crypto (.honourDropRequest request) with
      ⟨_, _, _, _, impossible, _⟩ | ⟨_, _, _, impossible, _⟩ | ⟨_, _, _, _, _, drops⟩ | equal
    · cases impossible
    · cases impossible
    · exact ⟨drops.standing, drops.host, drops.ids⟩
    · simp [call, equal]

/-- A condition on the recording is met in the chronicle's run when it is met in
the recording's. -/
theorem guarded_of_recording {guard : Recording → Call → Prop}
    (guarded : Machine.Guarded (Recording.call crypto) guard chronicle.recording calls) :
    Machine.Guarded (call crypto) (fun state input => guard state.recording input) chronicle
      calls := by
  induction calls generalizing chronicle with
  | nil => trivial
  | cons input rest ih => exact ⟨guarded.1, ih guarded.2⟩

/-! ## The maps follow the history -/

/-- What each map of the standing, and each seq, says about the accepted events. -/
structure Follows (chronicle : Chronicle) (host : Bytes32) : Prop where
  host : chronicle.recording.host = host
  dense : chronicle.recording.Dense chronicle.accepted.length
  placed : ∀ event ∈ chronicle.accepted,
    event.envelope.seq.toNat < chronicle.accepted.length
  joined : ∀ person, ∀ record ∈ chronicle.recording.joinsOf person,
    ∃ event ∈ chronicle.accepted, ∃ join, event.body = .join join ∧ join.person = person ∧
      event.envelope.seq = record.seq ∧ join.devices = record.devices ∧
      (record.leftAt = none → ∀ later ∈ chronicle.accepted, ∀ leave,
        later.body = .leave leave → leave.person = person →
          later.envelope.seq ≤ event.envelope.seq)
  left : ∀ person, ∀ record ∈ chronicle.recording.joinsOf person, ∀ seq,
    record.leftAt = some seq → seq.toNat < chronicle.accepted.length
  revoked : ∀ event ∈ chronicle.accepted, ∀ deviceRevoke,
    event.body = .deviceRevoke deviceRevoke → deviceRevoke.device ∈ chronicle.recording.revoked
  windows : ∀ grant ∈ chronicle.accepted, ∀ deviceAdd, grant.body = .deviceAdd deviceAdd →
    (∀ later ∈ chronicle.accepted, ∀ laterAdd, later.body = .deviceAdd laterAdd →
      laterAdd.device = deviceAdd.device → later.envelope.seq ≤ grant.envelope.seq) →
    chronicle.recording.deviceAddWindows.lookup deviceAdd.device =
      some (deviceAdd.notBeforeMs, deviceAdd.notAfterMs)

/-- A device is in force for a person because a join of the person lists it, or a
device that was the person's granted it. -/
def Claims (chronicle : Chronicle) : Prop :=
  ∀ device person, chronicle.recording.personOf device = some person →
    (∃ record ∈ chronicle.recording.joinsOf person, device ∈ record.devices) ∨
      ∃ grant ∈ chronicle.accepted, ∃ deviceAdd, grant.body = .deviceAdd deviceAdd ∧
        deviceAdd.device = device ∧
        History.Belongs chronicle.accepted grant.envelope.author person grant.envelope.seq

section Step

variable {event : SignedEvent} {after : Standing} {nowMs : UInt64} {person device : Bytes32}

/-- A fresh event that is admitted takes the next seq. -/
theorem Follows.seq_eq (follows : chronicle.Follows host)
    (linked : chronicle.recording.Linked event)
    (fresh : chronicle.recording.ids.lookup event.envelope.seq ≠ some event.eventId) :
    event.envelope.seq.toNat = chronicle.accepted.length := by
  have reach := follows.dense.seq_le linked
  have vacant : ¬event.envelope.seq.toNat < chronicle.accepted.length := by
    intro below
    obtain ⟨held, here⟩ := (follows.dense.occupied event.envelope.seq).mpr below
    rw [linked.sameId held here] at here
    exact fresh here
  omega

theorem Follows.lt (follows : chronicle.Follows host)
    (next : event.envelope.seq.toNat = chronicle.accepted.length) {earlier : SignedEvent}
    (member : earlier ∈ chronicle.accepted) : earlier.envelope.seq < event.envelope.seq := by
  rw [UInt64.lt_iff_toNat_lt, next]
  exact follows.placed earlier member

/-- A record that is open at the next seq has not been closed. -/
theorem Follows.leftAt_eq_none (follows : chronicle.Follows host)
    (next : event.envelope.seq.toNat = chronicle.accepted.length) {record : JoinRecord}
    (member : record ∈ chronicle.recording.joinsOf person)
    (isOpen : record.stillOpen event.envelope.seq = true) : record.leftAt = none := by
  cases closed : record.leftAt with
  | none => rfl
  | some seq =>
    have early := follows.left person record member seq closed
    rw [JoinRecord.stillOpen, closed] at isOpen
    have late := UInt64.lt_iff_toNat_lt.mp (of_decide_eq_true isOpen)
    omega

/-- An open record is an open join of the history. -/
theorem Follows.openJoin (follows : chronicle.Follows host)
    (next : event.envelope.seq.toNat = chronicle.accepted.length) {record : JoinRecord}
    (member : record ∈ chronicle.recording.joinsOf person) (isOpen : record.leftAt = none) :
    ∃ opening join, History.OpenJoin chronicle.accepted opening join event.envelope.seq ∧
      join.person = person ∧ join.devices = record.devices := by
  obtain ⟨opening, accepted, join, body, same, _, devices, stays⟩ :=
    follows.joined person record member
  refine ⟨opening, join, ⟨accepted, body, follows.lt next accepted, ?_⟩, same, devices⟩
  intro later laterMember leave leaveBody samePerson above
  have atMost := stays isOpen later laterMember leave leaveBody (samePerson.trans same)
  exact absurd above (UInt64.not_lt.mpr atMost)

theorem Follows.listed (follows : chronicle.Follows host)
    (next : event.envelope.seq.toNat = chronicle.accepted.length)
    (lists : chronicle.recording.ListedFor device person) :
    History.Listed chronicle.accepted device person event.envelope.seq := by
  obtain ⟨record, member, isOpen, lists⟩ := lists
  obtain ⟨opening, join, openJoin, same, devices⟩ := follows.openJoin next member isOpen
  exact ⟨opening, join, openJoin, same, devices ▸ lists⟩

/-- A key that no join lists and that acts for a person belongs to that person. -/
theorem Follows.belongs_of_granted (follows : chronicle.Follows host)
    (claims : chronicle.Claims)
    (next : event.envelope.seq.toNat = chronicle.accepted.length)
    (notListed : ∀ record ∈ chronicle.recording.joinsOf person, device ∉ record.devices)
    (inForce : chronicle.recording.personOf device = some person)
    (present : chronicle.recording.Present person event.envelope.seq) :
    History.Belongs chronicle.accepted device person event.envelope.seq := by
  obtain ⟨record, member, _, isOpen⟩ := present
  obtain ⟨opening, join, openJoin, same, _⟩ :=
    follows.openJoin next member (follows.leftAt_eq_none next member isOpen)
  rcases claims device person inForce with ⟨listing, listingMember, lists⟩ |
    ⟨grant, accepted, deviceAdd, body, names, adder⟩
  · exact absurd lists (notListed listing listingMember)
  · exact .granted grant deviceAdd accepted body names (follows.lt next accepted) adder
      ⟨opening, join, openJoin, same⟩

/-- The author of an admitted event belongs to some person. -/
theorem Follows.belongs (follows : chronicle.Follows host) (claims : chronicle.Claims)
    (next : event.envelope.seq.toNat = chronicle.accepted.length)
    (active : chronicle.recording.authorStatus device event.envelope.seq = .active) :
    ∃ person, History.Belongs chronicle.accepted device person event.envelope.seq := by
  rcases Standing.authorStatus_eq_active.mp active with
    ⟨person, record, member, ⟨_, lists⟩, isOpen⟩ | ⟨notNamed, person, inForce, present⟩
  · have notClosed := follows.leftAt_eq_none next member isOpen
    exact ⟨person, .listed (follows.listed next ⟨record, member, notClosed, lists⟩)⟩
  · refine ⟨person, follows.belongs_of_granted claims next ?_ inForce present⟩
    intro record member lists
    obtain ⟨opening, accepted, _, _, _, seqEq, _⟩ := follows.joined person record member
    have below := UInt64.le_of_lt (follows.lt next accepted)
    exact notNamed ⟨person, record, member, seqEq ▸ below, lists⟩

theorem Follows.cleared (follows : chronicle.Follows host)
    (admits : chronicle.recording.Admits event nowMs after) :
    History.Cleared chronicle.accepted host event nowMs where
  byHost := by
    intro joinOrLeave
    rw [← follows.host]
    have ruled := Recording.applyBody_eq_ok.mp admits.ruled
    unfold Recording.Ruled at ruled
    cases body : event.body with
    | join join =>
      rw [body] at ruled
      exact ruled.1
    | leave leave =>
      rw [body] at ruled
      exact ruled.1
    | _ => simp [body, Body.isJoinOrLeave] at joinOrLeave
  notRevoked := by
    intro revoke member deviceRevoke body names
    have revoked := follows.revoked revoke member deviceRevoke body
    exact admits.authored.notRevoked (names ▸ revoked)
  window := by
    intro notJoinOrLeave grant member deviceAdd body names latest
    have held := follows.windows grant member deviceAdd body (by rwa [names])
    rw [names] at held
    exact admits.authored.window notJoinOrLeave _ held

end Step

/-! ## The invariants survive every call -/

section Preservation

variable {event : SignedEvent} {after : Standing} {nowMs : UInt64} {person device : Bytes32}
  {next : Recording}

theorem Follows.quiet (follows : chronicle.Follows host)
    (standing : next.toStanding = chronicle.recording.toStanding)
    (sameHost : next.host = chronicle.recording.host)
    (ids : next.ids = chronicle.recording.ids) :
    Follows ⟨next, chronicle.accepted⟩ host where
  host := sameHost.trans follows.host
  dense := follows.dense.congr ids
  placed := follows.placed
  joined := by
    dsimp only
    rw [standing]
    exact follows.joined
  left := by
    dsimp only
    rw [standing]
    exact follows.left
  revoked := by
    dsimp only
    rw [standing]
    exact follows.revoked
  windows := by
    dsimp only
    rw [standing]
    exact follows.windows

theorem Follows.store (follows : chronicle.Follows host)
    (admits : chronicle.recording.Admits event nowMs after)
    (nextSeq : event.envelope.seq.toNat = chronicle.accepted.length) :
    Follows ⟨chronicle.recording.store event after, chronicle.accepted ++ [event]⟩ host := by
  have ruled := Recording.applyBody_eq_ok.mp admits.ruled
  have longer : (chronicle.accepted ++ [event]).length = chronicle.accepted.length + 1 := by simp
  have seqLt : ∀ {earlier}, earlier ∈ chronicle.accepted →
      earlier.envelope.seq < event.envelope.seq := follows.lt nextSeq
  refine ⟨follows.host, ?_, ?_, ?_, ?_, ?_, ?_⟩
  · have dense : (chronicle.recording.store event after).Dense _ :=
      follows.dense.store admits.linked
    have count : max chronicle.accepted.length (event.envelope.seq.toNat + 1) =
        chronicle.accepted.length + 1 := by omega
    rw [count] at dense
    rwa [longer]
  · intro earlier member
    rw [longer]
    rcases List.mem_append.mp member with old | new
    · have below := follows.placed earlier old
      omega
    · rw [List.mem_singleton.mp new, nextSeq]
      omega
  · intro person record member
    rcases ruled.mem_joinsOf member with ⟨join, body, same, rfl⟩ | ⟨old, oldMember, equal, closed⟩
    · refine ⟨event, by simp, join, body, same, rfl, rfl, ?_⟩
      intro _ later laterMember leave leaveBody _
      rcases List.mem_append.mp laterMember with earlier | new
      · exact UInt64.le_of_lt (seqLt earlier)
      · rw [List.mem_singleton.mp new]
        exact UInt64.le_refl _
    · obtain ⟨opening, accepted, join, body, same, seqEq, devices, stays⟩ :=
        follows.joined person old oldMember
      have oldSeq : old.seq < event.envelope.seq := seqEq ▸ seqLt accepted
      have kept : record.seq = old.seq ∧ record.devices = old.devices ∧
          (record.leftAt = none → old.leftAt = none) := by
        rcases equal with rfl | rfl
        · exact ⟨rfl, rfl, id⟩
        · exact ⟨rfl, rfl, fun isOpen => nomatch isOpen⟩
      refine ⟨opening, List.mem_append_left [event] accepted, join, body, same,
        seqEq.trans kept.1.symm, devices.trans kept.2.1.symm, ?_⟩
      intro isOpen later laterMember leave leaveBody samePerson
      rcases List.mem_append.mp laterMember with earlier | new
      · exact stays (kept.2.2 isOpen) later earlier leave leaveBody samePerson
      · rw [List.mem_singleton.mp new] at leaveBody
        exact absurd isOpen (closed leave leaveBody samePerson oldSeq)
  · intro person record member seq closedAt
    rw [longer]
    rcases ruled.mem_joinsOf member with ⟨_, _, _, rfl⟩ | ⟨old, oldMember, rfl | rfl, _⟩
    · cases closedAt
    · have below := follows.left person record oldMember seq closedAt
      omega
    · cases closedAt
      omega
  · intro revoke member deviceRevoke body
    rw [Recording.store_toStanding, ruled.mem_revoked]
    rcases List.mem_append.mp member with old | new
    · exact Or.inr (follows.revoked revoke old deviceRevoke body)
    · rw [List.mem_singleton.mp new] at body
      exact Or.inl ⟨deviceRevoke, body, rfl⟩
  · intro grant member deviceAdd body latest
    rcases ruled.lookup_deviceAddWindows deviceAdd.device with
      ⟨newAdd, newBody, names, found⟩ | ⟨other, found⟩
    · -- The new event names the key, so only it can be the latest grant.
      have last := latest event (by simp) newAdd newBody names
      have isEvent : grant = event := by
        rcases List.mem_append.mp member with old | new
        · exact absurd (seqLt old) (UInt64.not_lt.mpr last)
        · exact List.mem_singleton.mp new
      rw [isEvent, newBody] at body
      cases body
      exact found
    · have old : grant ∈ chronicle.accepted := by
        rcases List.mem_append.mp member with old | new
        · exact old
        · rw [List.mem_singleton.mp new] at body
          exact absurd rfl (other deviceAdd body)
      rw [Recording.store_toStanding, found]
      refine follows.windows grant old deviceAdd body ?_
      intro later laterMember laterAdd laterBody names
      exact latest later (List.mem_append_left [event] laterMember) laterAdd laterBody names

/-- A grant leaves the claims in order when its author stands for the person it
belongs to. -/
theorem Claims.store (claims : chronicle.Claims) (follows : chronicle.Follows host)
    (admits : chronicle.recording.Admits event nowMs after)
    (nextSeq : event.envelope.seq.toNat = chronicle.accepted.length)
    (own : ∀ deviceAdd, event.body = .deviceAdd deviceAdd →
      chronicle.recording.GrantsOwn event.envelope.author) :
    Claims ⟨chronicle.recording.store event after, chronicle.accepted ++ [event]⟩ := by
  have ruled := Recording.applyBody_eq_ok.mp admits.ruled
  have extend : ∀ {device person atSeq}, atSeq ≤ event.envelope.seq →
      History.Belongs chronicle.accepted device person atSeq →
        History.Belongs (chronicle.accepted ++ [event]) device person atSeq :=
    fun above belongs => belongs.append above
  intro device person inForce
  rcases ruled.personOf_eq_some inForce with
    old | ⟨_, ⟨join, body, rfl, lists⟩ | ⟨deviceAdd, body, names, rfl⟩⟩
  · rcases claims device person old with
      ⟨record, member, lists⟩ | ⟨grant, accepted, deviceAdd, body, names, adder⟩
    · obtain ⟨kept, keptMember, _, devices⟩ := ruled.exists_joinsOf member
      exact Or.inl ⟨kept, keptMember, devices ▸ lists⟩
    · refine Or.inr ⟨grant, List.mem_append_left [event] accepted, deviceAdd, body, names, ?_⟩
      exact extend (UInt64.le_of_lt (follows.lt nextSeq accepted)) adder
  · have joined := ruled.joinsOf_join body
    exact Or.inl ⟨_, joined, lists⟩
  · refine Or.inr ⟨event, by simp, deviceAdd, body, names, extend (UInt64.le_refl _) ?_⟩
    have active := admits.authored.active (by rw [body]; rfl)
    rcases own deviceAdd body with lists | notListed
    · exact .listed (follows.listed nextSeq lists)
    · rcases Standing.authorStatus_eq_active.mp active with
        ⟨other, record, member, ⟨_, lists⟩, _⟩ | ⟨_, other, found, present⟩
      · exact absurd lists (notListed other record member)
      · have same : chronicle.recording.personOrSelf event.envelope.author = other := by
          rw [Standing.personOrSelf, found]
          rfl
        rw [same]
        exact follows.belongs_of_granted claims nextSeq (notListed other) found present

theorem claims_quiet (claims : chronicle.Claims)
    (standing : next.toStanding = chronicle.recording.toStanding) :
    Claims ⟨next, chronicle.accepted⟩ := by
  intro device person inForce
  dsimp only at inForce ⊢
  rw [standing] at inForce ⊢
  exact claims device person inForce

end Preservation

/-! ## Runs -/

/-- The call offers an event, and if it is accepted it meets a condition on the
history before it. -/
def Accepts (crypto : Crypto) (holds : List SignedEvent → SignedEvent → UInt64 → Prop)
    (chronicle : Chronicle) : Call → Prop
  | .ingest bytes nowMs => ∀ event, SignedEvent.parse crypto bytes = .ok event →
      (chronicle.recording.ingest crypto bytes nowMs).2 = .ok event.eventId →
        holds chronicle.accepted event nowMs
  | .honourDropRequest _ => True

theorem accepts_of_admits {holds : List SignedEvent → SignedEvent → UInt64 → Prop} {input : Call}
    (admitted : ∀ event nowMs after, chronicle.recording.Admits event nowMs after →
      (∀ bytes, input = .ingest bytes nowMs → SignedEvent.parse crypto bytes = .ok event →
        holds chronicle.accepted event nowMs)) :
    chronicle.Accepts crypto holds input := by
  cases input with
  | honourDropRequest request => trivial
  | ingest bytes nowMs =>
    intro event parsed accepted
    obtain ⟨found, after, _, alsoParsed, admits, _⟩ := Recording.ingest_ok accepted
    rw [parsed] at alsoParsed
    cases alsoParsed
    exact admitted event nowMs after admits bytes rfl parsed

theorem follows_call {input : Call} (follows : chronicle.Follows host)
    (fresh : chronicle.recording.Fresh crypto input) :
    (chronicle.call crypto input).Follows host := by
  rcases chronicle.call_cases crypto input with
    ⟨bytes, nowMs, event, after, rfl, parsed, admits, equal⟩ | ⟨accepted, standing, sameHost, ids⟩
  · rw [equal]
    exact follows.store admits (follows.seq_eq admits.linked (fresh event parsed))
  · have quiet := follows.quiet standing sameHost ids
    rwa [← accepted] at quiet

theorem claims_call {input : Call} (claims : chronicle.Claims) (follows : chronicle.Follows host)
    (fresh : chronicle.recording.Fresh crypto input)
    (own : chronicle.recording.GrantsByOwn crypto input) :
    (chronicle.call crypto input).Claims := by
  rcases chronicle.call_cases crypto input with
    ⟨bytes, nowMs, event, after, rfl, parsed, admits, equal⟩ | ⟨accepted, standing, _, _⟩
  · rw [equal]
    exact claims.store follows admits (follows.seq_eq admits.linked (fresh event parsed))
      fun deviceAdd body => own event deviceAdd after parsed admits body
  · have quiet := claims_quiet claims standing
    rwa [← accepted] at quiet

theorem follows_new (opened : Recording.new visit host = .ok start) :
    Follows ⟨start, []⟩ host := by
  have noJoins : ∀ person, (∅ : HashMap Bytes32 Participant).lookup person = none := fun _ => rfl
  have formed : start.WellFormed ⟨fun _ => zero32, fun _ => false, fun _ _ _ => false⟩ 0 :=
    Recording.wellFormed_new opened
  have dense := formed.dense
  obtain ⟨_, rfl⟩ := Recording.new_eq_ok opened
  refine ⟨rfl, dense, by simp, ?_, ?_, by simp, by simp⟩
  · intro person record member
    simp [Standing.joinsOf, noJoins] at member
  · intro person record member
    simp [Standing.joinsOf, noJoins] at member

theorem claims_new (opened : Recording.new visit host = .ok start) : Claims ⟨start, []⟩ := by
  obtain ⟨_, rfl⟩ := Recording.new_eq_ok opened
  intro device person inForce
  cases inForce

/-- In a run that offers no held event again, every accepted event is cleared by
the history before it; and where no accepted grant is by a key that an open join
lists for another person than it stands for, the history authorises it. -/
theorem run_authorised (opened : Recording.new visit host = .ok start) (calls : List Call)
    (fresh : Machine.Guarded (Recording.call crypto) (Recording.Fresh crypto) start calls) :
    Machine.Guarded (call crypto)
        (Accepts crypto fun history => History.Cleared history host) ⟨start, []⟩ calls ∧
      (Machine.Guarded (Recording.call crypto) (Recording.GrantsByOwn crypto) start calls →
        Machine.Guarded (call crypto)
          (Accepts crypto fun history => History.Authorised history host) ⟨start, []⟩ calls) := by
  have preserved : ∀ (state : Chronicle) (input : Call), state.Follows host →
      state.recording.Fresh crypto input → (state.call crypto input).Follows host :=
    fun _ _ follows fresh => follows_call follows fresh
  constructor
  · apply Machine.guarded_imp preserved _ (follows_new opened) (guarded_of_recording fresh)
    intro state input follows _
    exact accepts_of_admits fun event nowMs after admits _ _ _ => follows.cleared admits
  · intro own
    have both : Machine.Guarded (call crypto)
        (fun state input => state.recording.Fresh crypto input ∧
          state.recording.GrantsByOwn crypto input) ⟨start, []⟩ calls :=
      guarded_of_recording (Machine.guarded_and.mpr ⟨fresh, own⟩)
    have preservedBoth : ∀ (state : Chronicle) (input : Call),
        state.Follows host ∧ state.Claims →
        state.recording.Fresh crypto input ∧ state.recording.GrantsByOwn crypto input →
          (state.call crypto input).Follows host ∧ (state.call crypto input).Claims := by
      rintro state input ⟨follows, claims⟩ ⟨fresh, own⟩
      exact ⟨follows_call follows fresh, claims_call claims follows fresh own⟩
    apply Machine.guarded_imp preservedBoth _ ⟨follows_new opened, claims_new opened⟩ both
    rintro state input ⟨follows, claims⟩ ⟨fresh, _⟩
    apply accepts_of_admits
    rintro event nowMs after admits bytes rfl parsed
    have next := follows.seq_eq admits.linked (fresh event parsed)
    exact ⟨follows.cleared admits, fun notJoinOrLeave =>
      follows.belongs claims next (admits.authored.active notJoinOrLeave)⟩

/-- The host, whom its own join lists, is the one to grant in that run. -/
theorem grantsByOwn_laptopCalls :
    Machine.Guarded (Recording.call Recording.laptopCrypto)
      (Recording.GrantsByOwn Recording.laptopCrypto) openedVisit Recording.laptopCalls := by
  have parses := Recording.laptopCalls_checks.1
  refine ⟨?_, ?_, ?_, trivial⟩
  · intro event deviceAdd after parsed _ body
    rw [parses openingJoin (by simp)] at parsed
    cases parsed
    cases body
  · intro event deviceAdd after parsed _ body
    rw [parses laptopAdd (by simp)] at parsed
    cases parsed
    exact Or.inl (by decide +kernel)
  · intro event deviceAdd after parsed _ body
    rw [parses Recording.laptopJoin (by simp)] at parsed
    cases parsed
    cases body

/-- The history of that run authorises each of its events. -/
theorem run_authorised_laptopCalls :
    Machine.Guarded (call Recording.laptopCrypto)
        (Accepts Recording.laptopCrypto fun history => History.Cleared history hostKey)
        ⟨openedVisit, []⟩ Recording.laptopCalls ∧
      Machine.Guarded (call Recording.laptopCrypto)
        (Accepts Recording.laptopCrypto fun history => History.Authorised history hostKey)
        ⟨openedVisit, []⟩ Recording.laptopCalls :=
  ⟨(run_authorised new_openedVisit Recording.laptopCalls Recording.laptopCalls_checks.2.1).1,
    (run_authorised new_openedVisit Recording.laptopCalls Recording.laptopCalls_checks.2.1).2
      grantsByOwn_laptopCalls⟩

/-! ## A tablet that belongs to nobody present -/

def tabletKey : Bytes32 :=
  bytes32 0xd9bf2148748a85c89da5aad8ee0b0fc2d105fd39d41a4c796536354f0ae2900c

/-- The host joins at seq 0 with a laptop. -/
def sharedJoin : SignedEvent :=
  .assembled
    { v := 1, visit := visitId, author := hostKey, seq := 0
      prev := zero32
      tsMs := 0
      bodyHash := bytes32
        0x4bda215ac92c8dbca8e34398da9b442f1f57a843ca4fbd4f3987b9896c90b6e9
      bodyLen := 108 }
    (bytes64
      0xe0517dd50296d04ca4e92e663f43d4e81fa3362d0b03468257521760b2dbac7a
      0x0fcb1f136b02ae1ecc71d9fbdec9ed5249bf5f1e1b312455045ddbbfc8d2d80c)
    (.join ⟨hostKey, [hostKey, laptopKey], none⟩)
    (bytes32
      0x67ba1e9e0e0eec84e14558599615c6471b12a7bd1a83dc882b9dc2b36ef0b25e)

/-- The host leaves at seq 1; the laptop stays in force for it. -/
def hostLeave : SignedEvent :=
  .assembled
    { v := 1, visit := visitId, author := hostKey, seq := 1
      prev := sharedJoin.eventId.asBytes
      tsMs := 0
      bodyHash := bytes32
        0xccf6bcd9b3afe732bb2b595454a67a98922d8b7271c715c8e26ffc096459c4a1
      bodyLen := 40 }
    (bytes64
      0x5139e8c7cca97043a39488d0c94a460fbd1c4906e695860adbbbac90396a2f91
      0xa5ab6838e903833a74f3e17566bd89cffd7002318f6e041dd8afb1044b4e830a)
    (.leave ⟨hostKey, 0⟩)
    (bytes32
      0x8169a9a27466860889d16c241bcb1011c0b0578e9caf6a5f32b4015283e03de6)

/-- The guest joins at seq 2 with the laptop. -/
def takenJoin : SignedEvent :=
  .assembled
    { v := 1, visit := visitId, author := hostKey, seq := 2
      prev := hostLeave.eventId.asBytes
      tsMs := 0
      bodyHash := bytes32
        0x496d005c03b6cd3ba011878a8216e06279d55d741f5d527131c604fe7934ce1f
      bodyLen := 108 }
    (bytes64
      0x81f88e79d454c27cb23078512991bac876ca5b71c6cd4aef94370fb38d582718
      0x3a56ad8a040fa2d7c765c3128dddd0402f713adfd5098b31b833beb504acb70c)
    (.join ⟨guestKey, [guestKey, laptopKey], none⟩)
    (bytes32
      0x55b3aa59f6f6847572328b68f854dbce5f2685fc4cd85d94b6f8661999fe3b81)

/-- The laptop grants a tablet at seq 3. -/
def tabletAdd : SignedEvent :=
  .assembled
    { v := 1, visit := visitId, author := laptopKey, seq := 3
      prev := takenJoin.eventId.asBytes
      tsMs := 0
      bodyHash := bytes32
        0xf0909b4fa115a1bc8481eb5db8d00c5dd001232900cfa3a65355c34f39e3f42e
      bodyLen := 43 }
    (bytes64
      0x4145198b2f28848bc54fcbfc4fe878fe67d590fac0d217548a05e2d52588821e
      0x9a7395dce2b7e73e65cb20b99ce318c21b5fdfaa5fe06f3f12036b5e0ebe7e02)
    (.deviceAdd ⟨tabletKey, 0, 100, none⟩)
    (bytes32
      0xb1144e7c9d000b456e568f3ed2a91580488c00b0c4b900383385e9c2ab70648e)

/-- The host joins again at seq 4, without the laptop. -/
def hostRejoin : SignedEvent :=
  .assembled
    { v := 1, visit := visitId, author := hostKey, seq := 4
      prev := tabletAdd.eventId.asBytes
      tsMs := 0
      bodyHash := bytes32
        0xa473edd8e5b0af36a0ed0306b2d7a8affd677111048eb7c8d15a7749dcb97b00
      bodyLen := 74 }
    (bytes64
      0xd736312f4f81bb80e506084ed5259b64b62c4cb862f6fe1834eeb1110f625498
      0xb4d863016a4ef520f1af3c5c704b0af6530c8edd162e7ea1f4e7379b128d5a0b)
    (.join ⟨hostKey, [hostKey], none⟩)
    (bytes32
      0xfff85bce44d3f0b348dad19616455645ff1e2f445c351dd7936d39afd46289c5)

/-- The guest leaves at seq 5. -/
def guestLeaves : SignedEvent :=
  .assembled
    { v := 1, visit := visitId, author := hostKey, seq := 5
      prev := hostRejoin.eventId.asBytes
      tsMs := 0
      bodyHash := bytes32
        0x1be2600da860ca0555595705bbee3476043a8d3f9ce198ba9f47712cb2055a03
      bodyLen := 40 }
    (bytes64
      0xc622f9efa1d531f72d4d7387178195ebc9037c7d89a9fc497a322cc41899403a
      0x9a9375fa39a5cd6904b3572c43e5af490bd783b753b535b313dbeeba7bf16103)
    (.leave ⟨guestKey, 0⟩)
    (bytes32
      0x1ae6e95abf03e59f336e3f2308bf5b4298b45c69fd5a159655dc308e47b5d419)

/-- The tablet writes at seq 6. -/
def tabletEvent : SignedEvent :=
  .assembled
    { v := 1, visit := visitId, author := tabletKey, seq := 6
      prev := guestLeaves.eventId.asBytes
      tsMs := 0
      bodyHash := bytes32
        0xfcf4423420a7ae0ee82c5f6e2a49bd540969c7ce394b463e12608436fbdbb1a7
      bodyLen := 5 }
    (bytes64
      0xce5cf2a0519abb58cc01bc5b3189b9251197190d18187baf354970f58e6a4943
      0xa6058b9f330e65cae1c59b8a3b0399b1e51601398abd1f6b7283df60c32d0a0b)
    (.dropRequest ⟨0, none, none⟩)
    (bytes32
      0x12b4b97fcb2888418f83a9ce02df67bc80ca743eddddfcf25d05e93f1ff20288)

def tabletCrypto : Crypto :=
  .recordedFor
    [sharedJoin, hostLeave, takenJoin, tabletAdd, hostRejoin, guestLeaves, tabletEvent]

def tabletHistory : List SignedEvent :=
  [sharedJoin, hostLeave, takenJoin, tabletAdd, hostRejoin, guestLeaves]

/-- The calls that leave the tablet in force for the host. -/
def tabletCalls : List Call := tabletHistory.map fun event => .ingest event.toBytes 5

def tabletChronicle : Chronicle :=
  Machine.run (call tabletCrypto) ⟨openedVisit, []⟩ tabletCalls

/-- The joins of that history, each with the seqs at which it is open. -/
theorem openJoin_tabletHistory {event : SignedEvent} {join : Join} {atSeq : UInt64}
    (isOpen : History.OpenJoin tabletHistory event join atSeq) :
    (join = ⟨hostKey, [hostKey, laptopKey], none⟩ ∧ atSeq ≤ 1) ∨
      (join = ⟨guestKey, [guestKey, laptopKey], none⟩ ∧ atSeq ≤ 5) ∨
      (join = ⟨hostKey, [hostKey], none⟩ ∧ 4 < atSeq) := by
  obtain ⟨accepted, body, below, stays⟩ := isOpen
  have left : hostLeave ∈ tabletHistory := by simp [tabletHistory]
  have guestLeft : guestLeaves ∈ tabletHistory := by simp [tabletHistory]
  simp only [tabletHistory, List.mem_cons, List.not_mem_nil, or_false] at accepted
  rcases accepted with rfl | rfl | rfl | rfl | rfl | rfl
  · cases body
    exact Or.inl ⟨rfl, stays hostLeave left _ rfl rfl (by decide)⟩
  · cases body
  · cases body
    exact Or.inr (Or.inl ⟨rfl, stays guestLeaves guestLeft _ rfl rfl (by decide)⟩)
  · cases body
  · cases body
    exact Or.inr (Or.inr ⟨rfl, below⟩)
  · cases body

theorem grant_tabletHistory {grant : SignedEvent} {deviceAdd : DeviceAdd}
    (accepted : grant ∈ tabletHistory) (body : grant.body = .deviceAdd deviceAdd) :
    grant = tabletAdd ∧ deviceAdd.device = tabletKey := by
  simp only [tabletHistory, List.mem_cons, List.not_mem_nil, or_false] at accepted
  rcases accepted with rfl | rfl | rfl | rfl | rfl | rfl
  · cases body
  · cases body
  · cases body
  · cases body
    exact ⟨rfl, rfl⟩
  · cases body
  · cases body

theorem not_belongs_tabletKey (person : Bytes32) :
    ¬History.Belongs tabletHistory tabletKey person 6 := by
  intro belongs
  cases belongs with
  | listed listed =>
    obtain ⟨_, join, isOpen, _, lists⟩ := listed
    rcases openJoin_tabletHistory isOpen with ⟨rfl, _⟩ | ⟨rfl, _⟩ | ⟨rfl, _⟩ <;>
      exact absurd lists (by decide)
  | granted grant deviceAdd accepted body names below adder present =>
    obtain ⟨rfl, _⟩ := grant_tabletHistory accepted body
    obtain ⟨_, join, isOpen, same⟩ := present
    -- Only the host is present at seq 6, by a join without the laptop.
    have isHost : hostKey = person := by
      rcases openJoin_tabletHistory isOpen with ⟨_, late⟩ | ⟨_, late⟩ | ⟨rfl, _⟩
      · exact absurd late (by decide)
      · exact absurd late (by decide)
      · exact same
    change History.Belongs tabletHistory laptopKey person 3 at adder
    cases adder with
    | listed listed =>
      obtain ⟨_, join, isOpen, samePerson, _⟩ := listed
      rcases openJoin_tabletHistory isOpen with ⟨_, late⟩ | ⟨rfl, _⟩ | ⟨_, early⟩
      · exact absurd late (by decide)
      · exact absurd (samePerson.trans isHost.symm) (by decide)
      · exact absurd early (by decide)
    | granted other otherAdd accepted body names =>
      have tablet := (grant_tabletHistory accepted body).2
      exact absurd (names.symm.trans tablet) (by decide)

theorem tabletCalls_checks :
    Machine.Guarded (Recording.call tabletCrypto) (Recording.Fresh tabletCrypto) openedVisit
        (tabletCalls ++ [.ingest tabletEvent.toBytes 5]) ∧
      SignedEvent.parse tabletCrypto tabletEvent.toBytes = .ok tabletEvent ∧
      tabletChronicle.accepted = tabletHistory ∧
      (tabletChronicle.recording.ingest tabletCrypto tabletEvent.toBytes 5).2 =
        .ok tabletEvent.eventId := by
  decide +kernel

/-- A run of fresh events ends with the tablet's being accepted, though its history
does not authorise it. -/
theorem tabletEvent_accepted :
    Machine.Guarded (Recording.call tabletCrypto) (Recording.Fresh tabletCrypto) openedVisit
        (tabletCalls ++ [.ingest tabletEvent.toBytes 5]) ∧
      SignedEvent.parse tabletCrypto tabletEvent.toBytes = .ok tabletEvent ∧
      (tabletChronicle.recording.ingest tabletCrypto tabletEvent.toBytes 5).2 =
        .ok tabletEvent.eventId ∧
      ¬History.Authorised tabletChronicle.accepted hostKey tabletEvent 5 := by
  obtain ⟨fresh, parsed, history, accepted⟩ := tabletCalls_checks
  refine ⟨fresh, parsed, accepted, ?_⟩
  intro authorised
  obtain ⟨person, belongs⟩ := authorised.belongs rfl
  rw [history] at belongs
  exact not_belongs_tabletKey person belongs

end Chronicle

end Mosschat.Core
