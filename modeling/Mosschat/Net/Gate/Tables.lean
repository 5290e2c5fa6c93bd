import Mosschat.Library.Links
import Mosschat.Net.Gate.Sessions

/-!
Owns what the gate's tables say of one another: the registrations, the session table and
each registration's own set, what a handler is still to do to them, and the sections that
leave them alone.

Does not own who may open a session, or what is relayed over it.
-/

namespace Mosschat.Net.Gate.Server

open Mosschat.Core Mosschat.Library Mosschat.Library.Cbor Mosschat.Library.Machine

/-! ## What a handler is still to do to the tables -/

/-- The registrations a handler may yet tear down, each with the key it does it for. -/
def Task.carries : Task → List (Bytes32 × Registration)
  | .register registration | .controlLoop registration | .keepalive registration
  | .introduce registration _ _ _ | .introduceTarget registration _ _ _
  | .introduceSeat registration _ _ _ _ | .introduceRecord registration _ _ _ _ _
  | .introduceSend registration _ _ _ _ | .answer registration _ _
  | .answerCheck registration _ _ _ | .answerOpen registration _ _ _
  | .answerNote registration _ _ _ _ _ _ _ | .startRequest registration _
  | .startSend registration _ _ _ _ => [(registration.key, registration)]
  | .teardown peerKey registration later | .teardownIds peerKey registration later =>
      (peerKey, registration) :: later.getD []
  | .teardownSessions _ _ later | .teardownOrphans _ later => later.getD []
  | _ => []

/-- The sessions a teardown has read out, and not put away yet. -/
def Task.names : Task → List UInt32
  | .teardownSessions _ sessionIds _ => sessionIds
  | .teardownOrphans orphaned _ => orphaned.map Prod.snd
  | _ => []

/-- The tasks that are spawned beside a connection's control loop. -/
def Handler.spawnable : Handler → Bool
  | .relay _ | .writer _ | .drain _ => true
  | _ => false

/-- The sections such a task runs. -/
def Task.inert : Task → Bool
  | .relayLoop .. | .forward .. | .enqueue .. | .writer .. | .drain .. | .drainCheck ..
  | .drainSeat .. | .drainSend .. => true
  | _ => false

/-- The handler is between two sections that change the tables together: a session is
created and not noted, or a teardown is past its first section and not through its
last. -/
def Task.midWay : Task → Bool
  | .answerNote .. | .teardownIds .. | .teardownSessions .. | .teardownOrphans .. => true
  | _ => false

/-- The handler is at the first of the sections that follow a change of the tables. -/
def Task.starts : Task → Bool
  | .answerNote .. | .teardownIds .. => true
  | _ => false

section Tables

variable {F : Type}

/-- The registration behind the id holds the session. -/
def Holds (state : ServerState F) (id : Nat) (session : UInt32) : Prop :=
  (state.cells id).sessions.lookup session = some ()

/-- The registration is in its key's slot. -/
def Listed (state : ServerState F) (key : Bytes32) (registration : Registration) : Prop :=
  ∃ list, state.registrations.lookup key = some list ∧ registration ∈ list

/-- Past the first section of a teardown for the key, and about to remove the session. -/
def Task.dooms (state : ServerState F) (key : Bytes32) (session : UInt32) : Task → Prop
  | .teardownIds peerKey registration _ => peerKey = key ∧ Holds state registration.id session
  | .teardownSessions peerKey sessionIds _ => peerKey = key ∧ session ∈ sessionIds
  | _ => False

/-- The session left the table, and is about to leave the registrations of the key. -/
def Task.orphans (key : Bytes32) (session : UInt32) : Task → Prop
  | .teardownOrphans orphaned _ => (key, session) ∈ orphaned
  | _ => False

/-- The session is in the table, and the registration of the key about to hold it. -/
def Task.notes (session : UInt32) (key : Bytes32) (id : Nat) : Task → Prop
  | .answerNote _ _ knock created requester target _ _ =>
      created = session ∧
        ((key = knock.requester ∧ id = requester.id) ∨ (key = knock.target ∧ id = target.id))
  | _ => False

/-- May yet tear the registration behind the id down for the key. -/
def Task.tears (key : Bytes32) (id : Nat) (task : Task) : Prop :=
  ∃ entry ∈ task.carries, entry.1 = key ∧ entry.2.id = id

/-- Some handler is at such a section. -/
def World.At (world : World F) (meets : Task → Prop) : Prop :=
  ∃ handler task, world.tasks.lookup handler = some task ∧ meets task

/-- Some handler other than this one is at such a section. -/
def World.Elsewhere (world : World F) (handler : Handler) (meets : Task → Prop) : Prop :=
  ∃ other task, other ≠ handler ∧ world.tasks.lookup other = some task ∧ meets task

/-- The sessions as links between keys, each held by a registration of either. -/
def World.links (world : World F) : Links Bytes32 Nat UInt32 where
  slot key id := ∃ registration, Listed world.gate key registration ∧ registration.id = id
  holds := Holds world.gate
  joins session key := ∃ found, world.gate.sessions.lookup session = some found ∧
    (key = found.keyA ∨ key = found.keyB)
  torn key id := world.At (Task.tears key id)
  doomed key session := world.At (Task.dooms world.gate key session)
  orphaned key session := world.At (Task.orphans key session)
  noting session key id := world.At (Task.notes session key id)

/-- A handler may yet act on the session because of what it read before: a teardown
names it, or a registration that may be torn down holds it. -/
def Task.remembers (state : ServerState F) (session : UInt32) (task : Task) : Bool :=
  task.names.contains session ||
    task.carries.any fun entry => ((state.cells entry.2.id).sessions.lookup session).isSome

/-- The id that is drawn for a session, where one is, is remembered by no handler. -/
def World.drawsUnremembered (world : World F) : Action → Bool
  | .connect .. => true
  | .resume handler ambient =>
    match world.tasks.lookup handler with
    | some (.answerOpen ..) =>
      match ambient.sessionIds.find? fun session => (world.gate.sessions.lookup session).isNone with
      | none => true
      | some session => world.tasks.values.all fun task => !task.remembers world.gate session
    | _ => true

/-- No handler is midway of changing the tables. Every handler that is at its loop is
not. -/
def World.Settled (world : World F) : Prop :=
  ∀ handler task, world.tasks.lookup handler = some task → task.midWay = false

/-- What the gate's three tables say of one another. -/
structure TablesAgree (capacity : Nat) (state : ServerState F) : Prop where
  keys : state.registrations.entries.length ≤ capacity
  connections : ∀ key list, state.registrations.lookup key = some list →
    0 < list.length ∧ list.length ≤ limits.maxConnectionsPerKey
  own : ∀ key registration, Listed state key registration → registration.key = key
  few : ∀ id, (state.cells id).sessions.entries.length ≤ limits.maxSessionsPerRegistration
  /-- A session in the table is held by one live registration of each of its keys. -/
  held : ∀ session found key, state.sessions.lookup session = some found →
    key = found.keyA ∨ key = found.keyB →
      ∃! registration, Listed state key registration ∧ Holds state registration.id session
  /-- What a live registration holds is in the table, as a session of its key. -/
  joined : ∀ key registration session, Listed state key registration →
    Holds state registration.id session →
      ∃ found, state.sessions.lookup session = some found ∧
        (key = found.keyA ∨ key = found.keyB)

/-- What holds of the gate's tables by themselves. -/
structure Slotted (state : ServerState F) : Prop where
  sized : ∀ key list, state.registrations.lookup key = some list →
    0 < list.length ∧ list.length ≤ limits.maxConnectionsPerKey
  apart : ∀ key list, state.registrations.lookup key = some list →
    (list.map Registration.id).Nodup
  made : ∀ key registration, Listed state key registration →
    registration.key = key ∧ registration.id < state.allocated
  bounded : state.registrations.entries.length ≤ state.capacity
  few : ∀ id, (state.cells id).sessions.entries.length ≤ limits.maxSessionsPerRegistration

/-- What the handlers are at. -/
structure Placed (world : World F) : Prop where
  inert : ∀ handler task, world.tasks.lookup handler = some task →
    handler.spawnable = true → task.inert = true
  control : ∀ id task, world.tasks.lookup (.control id) = some task →
    id < world.gate.allocated
  carried : ∀ handler task, world.tasks.lookup handler = some task →
    ∀ entry ∈ task.carries, entry.2.key = entry.1 ∧ entry.2.id < world.gate.allocated
  seized : ∀ handler peerKey registration later,
    world.tasks.lookup handler = some (.teardownIds peerKey registration later) →
      ∀ key other, Listed world.gate key other → other.id ≠ registration.id
  alone : ∀ handler other task otherTask, world.tasks.lookup handler = some task →
    world.tasks.lookup other = some otherTask → task.holdsRegistrations = true →
      otherTask.holdsRegistrations = true → handler = other
  room : ∀ handler registration tag knock session requester target aToBShaper bToAShaper,
    world.tasks.lookup handler = some (.answerNote registration tag knock session requester
      target aToBShaper bToAShaper) →
      (world.gate.cells requester.id).sessions.entries.length <
          limits.maxSessionsPerRegistration ∧
        (world.gate.cells target.id).sessions.entries.length <
          limits.maxSessionsPerRegistration

/-- What every reachable world keeps. -/
structure Tidy (world : World F) : Prop where
  slotted : Slotted world.gate
  placed : Placed world
  links : world.links.Consistent

end Tables

/-! ## One section's commit -/

section Commit

variable {F : Type} {world : World F} {handler : Handler} {task : Task} {outcome : Outcome F}

/-- A task beside a control loop is to do nothing to the tables. -/
theorem Task.carries_of_inert (isInert : task.inert = true) : task.carries = [] := by
  cases task with
  | relayLoop | forward | enqueue | writer | drain | drainCheck | drainSeat | drainSend => rfl
  | _ => cases isInert

theorem Task.midWay_of_inert (isInert : task.inert = true) : task.midWay = false := by
  cases task with
  | relayLoop | forward | enqueue | writer | drain | drainCheck | drainSeat | drainSend => rfl
  | _ => cases isInert

/-- What is spawned runs beside a control loop, and so does what follows such a task. -/
structure Outcome.Beside (outcome : Outcome F) (task : Task) : Prop where
  next : task.inert = true → ∀ following ∈ outcome.next, following.inert = true
  spawned : ∀ entry ∈ outcome.spawned, entry.1.spawnable = true ∧ entry.2.inert = true

/-- Nothing is spawned in the place of a connection's handler or the sweep. -/
theorem lookup_commit_unspawned (beside : outcome.Beside task) {other : Handler}
    (unspawned : other.spawnable = false) :
    (world.commit handler outcome).tasks.lookup other =
      if other = handler then outcome.next else world.tasks.lookup other := by
  have kept : (world.commit handler outcome).tasks.lookup other =
      (world.commit handler { outcome with spawned := [] }).tasks.lookup other := by
    apply HashMap.lookup_foldl_put_of_not_mem
    intro entry member isOther
    have isSpawnable := (beside.spawned entry member).1
    rw [isOther, unspawned] at isSpawnable
    cases isSpawnable
  rw [kept]
  unfold World.commit
  rw [List.foldl_nil]
  cases outcome.next with
  | none => exact HashMap.lookup_erase world.tasks handler other
  | some following => exact HashMap.lookup_put world.tasks handler other following

/-- After a commit, what does not hold of the tasks beside the control loops holds where
it did, or of what follows. -/
theorem at_commit (placed : Placed world) (isAt : world.tasks.lookup handler = some task)
    (beside : outcome.Beside task) {meets : Task → Prop}
    (notInert : ∀ task : Task, task.inert = true → ¬meets task) :
    (world.commit handler outcome).At meets ↔
      (∃ following ∈ outcome.next, meets following) ∨ world.Elsewhere handler meets := by
  constructor
  · rintro ⟨other, found, isFound, isMet⟩
    rcases lookup_commit_tasks isFound with isSpawned | ⟨_, isNext⟩ | ⟨apart, before⟩
    · exact absurd isMet (notInert found (beside.spawned (other, found) isSpawned).2)
    · exact Or.inl ⟨found, isNext, isMet⟩
    · exact Or.inr ⟨other, found, apart, before, isMet⟩
  · -- nothing is spawned in the place of a handler whose task is not inert
    rintro (⟨following, isNext, isMet⟩ | ⟨other, found, apart, isFound, isMet⟩)
    · have unspawned : handler.spawnable = false := by
        rw [← Bool.not_eq_true]
        intro isSpawnable
        have wasInert := placed.inert handler task isAt isSpawnable
        exact notInert following (beside.next wasInert following isNext) isMet
      refine ⟨handler, following, ?_, isMet⟩
      rw [lookup_commit_unspawned beside unspawned, if_pos rfl]
      exact isNext
    · have unspawned : other.spawnable = false := by
        rw [← Bool.not_eq_true]
        intro isSpawnable
        exact notInert found (placed.inert other found isFound isSpawnable) isMet
      refine ⟨other, found, ?_, isMet⟩
      rw [lookup_commit_unspawned beside unspawned, if_neg apart]
      exact isFound

/-- Before it, at the handler or elsewhere. -/
theorem at_iff (isAt : world.tasks.lookup handler = some task) {meets : Task → Prop} :
    world.At meets ↔ meets task ∨ world.Elsewhere handler meets := by
  constructor
  · rintro ⟨other, found, isFound, isMet⟩
    by_cases isHandler : other = handler
    · rw [isHandler, isAt] at isFound
      cases isFound
      exact Or.inl isMet
    · exact Or.inr ⟨other, found, isHandler, isFound, isMet⟩
  · rintro (isMet | ⟨other, found, _, isFound, isMet⟩)
    · exact ⟨handler, task, isAt, isMet⟩
    · exact ⟨other, found, isFound, isMet⟩

theorem World.Elsewhere.imp {meets alsoMeets : Task → Prop}
    (elsewhere : world.Elsewhere handler meets)
    (implies : ∀ other task, world.tasks.lookup other = some task → meets task →
      alsoMeets task) : world.Elsewhere handler alsoMeets := by
  obtain ⟨other, found, apart, isFound, isMet⟩ := elsewhere
  exact ⟨other, found, apart, isFound, implies other found isFound isMet⟩

theorem Task.not_dooms_of_not_midWay {state : ServerState F} {key : Bytes32} {session : UInt32}
    (settled : task.midWay = false) : ¬task.dooms state key session := by
  cases task with
  | teardownIds | teardownSessions => cases settled
  | _ => exact not_false

theorem Task.not_orphans_of_not_midWay {key : Bytes32} {session : UInt32}
    (settled : task.midWay = false) : ¬task.orphans key session := by
  cases task with
  | teardownOrphans => cases settled
  | _ => exact not_false

theorem Task.not_notes_of_not_midWay {key : Bytes32} {session : UInt32} {id : Nat}
    (settled : task.midWay = false) : ¬task.notes session key id := by
  cases task with
  | answerNote => cases settled
  | _ => exact not_false

theorem Task.not_tears_of_inert {key : Bytes32} {id : Nat} (isInert : task.inert = true) :
    ¬task.tears key id := by
  rintro ⟨entry, member, _⟩
  rw [Task.carries_of_inert isInert] at member
  cases member

end Commit

/-! ## The sections that leave the tables alone -/

section Steady

variable {F : Type}

/-- Of a session, what no section changes. -/
def SessionState.ends (found : SessionState F) : Bytes32 × Bytes32 × Nat :=
  (found.keyA, found.keyB, found.aToBShaper)

/-- The same registrations, which hold the same sessions, and the same sessions in the
table. -/
structure Undisturbed (before after : ServerState F) : Prop where
  capacity : after.capacity = before.capacity
  allocated : after.allocated = before.allocated
  registrations : after.registrations = before.registrations
  held : ∀ id, (after.cells id).sessions = (before.cells id).sessions
  sessions : ∀ session, (after.sessions.lookup session).map SessionState.ends =
    (before.sessions.lookup session).map SessionState.ends

theorem Undisturbed.refl (state : ServerState F) : Undisturbed state state :=
  ⟨rfl, rfl, rfl, fun _ => rfl, fun _ => rfl⟩

theorem Undisturbed.trans {first second third : ServerState F}
    (left : Undisturbed first second) (right : Undisturbed second third) :
    Undisturbed first third where
  capacity := right.capacity.trans left.capacity
  allocated := right.allocated.trans left.allocated
  registrations := right.registrations.trans left.registrations
  held id := (right.held id).trans (left.held id)
  sessions session := (right.sessions session).trans (left.sessions session)

theorem undisturbed_count (state : ServerState F) (bump : ServerCounters → ServerCounters) :
    Undisturbed state (state.count bump) := ⟨rfl, rfl, rfl, fun _ => rfl, fun _ => rfl⟩

theorem undisturbed_setShaper (state : ServerState F) (shaper : Nat) (value : RelayShaper F) :
    Undisturbed state (state.setShaper shaper value) :=
  ⟨rfl, rfl, rfl, fun _ => rfl, fun _ => rfl⟩

theorem undisturbed_setCells (state : ServerState F) (registration : Registration)
    {cells : RegistrationCells F}
    (held : cells.sessions = (state.cells registration.id).sessions) :
    Undisturbed state (state.setCells registration cells) where
  capacity := rfl
  allocated := rfl
  registrations := rfl
  held := by
    intro id
    show (Function.update state.cells registration.id cells id).sessions = _
    by_cases isRegistration : id = registration.id
    · rw [isRegistration, Function.update_self, held]
    · rw [Function.update_of_ne isRegistration]
  sessions _ := rfl

theorem undisturbed_sendFrame (state : ServerState F) (registration : Registration)
    (frame : Frame) : Undisturbed state (sendFrame state registration frame) := by
  unfold sendFrame
  dsimp only
  split
  · exact undisturbed_setCells state registration rfl
  · exact undisturbed_count state _

/-- One session is set to another state of itself. -/
theorem undisturbed_put (state : ServerState F) {session : UInt32}
    {found changed : SessionState F} (isFound : state.sessions.lookup session = some found)
    (same : changed.ends = found.ends) :
    Undisturbed state { state with sessions := state.sessions.put session changed } where
  capacity := rfl
  allocated := rfl
  registrations := rfl
  held _ := rfl
  sessions := by
    intro other
    show ((state.sessions.put session changed).lookup other).map SessionState.ends = _
    rw [HashMap.lookup_put]
    split
    · next isSession =>
        rw [isSession, isFound, Option.map_some, Option.map_some, same]
    · rfl

theorem undisturbed_startSend (state : ServerState F) (registration : Registration)
    (session : UInt32) (keyA keyB : Bytes32) (gateMs : UInt64) :
    Undisturbed state (startSend state registration session keyA keyB gateMs).state := by
  unfold startSend
  dsimp only
  induction [keyA, keyB] generalizing state with
  | nil => exact .refl state
  | cons key rest ih =>
      apply Undisturbed.trans _ (ih _)
      dsimp only
      split
      · exact .refl state
      · exact undisturbed_sendFrame state _ _

/-- A section that leaves the tables alone, and leads to none that is midway of changing
them. -/
structure Steady (state : ServerState F) (task : Task) (outcome : Outcome F) : Prop where
  undisturbed : Undisturbed state outcome.state
  beside : outcome.Beside task
  next : ∀ following ∈ outcome.next, following.midWay = false ∧
    ∀ entry ∈ following.carries, entry ∈ task.carries ∨ Listed state entry.1 entry.2

/-- A section of a control loop that spawns nothing. -/
theorem Steady.of_control {before after : ServerState F} {task : Task} {next : Option Task}
    {event : Option Event} (undisturbed : Undisturbed before after) (noisy : task.inert = false)
    (follows : ∀ following ∈ next, following.midWay = false ∧
      ∀ entry ∈ following.carries, entry ∈ task.carries) :
    Steady before task { state := after, next, event } where
  undisturbed := undisturbed
  beside :=
    { next := by
        intro isInert
        rw [noisy] at isInert
        cases isInert
      spawned := by simp }
  next := by
    intro following isNext
    refine ⟨(follows following isNext).1, ?_⟩
    intro entry member
    exact Or.inl ((follows following isNext).2 entry member)

/-- A section of a task beside a control loop. -/
theorem Steady.of_inert {before after : ServerState F} {task : Task} {next : Option Task}
    {event : Option Event} (undisturbed : Undisturbed before after)
    (follows : ∀ following ∈ next, following.inert = true) :
    Steady before task { state := after, next, event } where
  undisturbed := undisturbed
  beside := ⟨fun _ => follows, by simp⟩
  next := by
    intro following isNext
    have isInert := follows following isNext
    refine ⟨Task.midWay_of_inert isInert, ?_⟩
    rw [Task.carries_of_inert isInert]
    simp

/-- What follows a teardown carries what was left to tear down. -/
theorem afterTeardown_steady {later : Option (List (Bytes32 × Registration))}
    {following : Task} (isNext : following ∈ afterTeardown later) :
    following.midWay = false ∧ ∀ entry ∈ following.carries, entry ∈ later.getD [] := by
  unfold afterTeardown at isNext
  split at isNext
  · cases isNext
  · cases isNext
    exact ⟨rfl, by simp [Task.carries]⟩
  · cases isNext
    exact ⟨rfl, fun entry member => member⟩

theorem dispatch_steady (registration : Registration) (frame : Frame) :
    (dispatch registration frame).midWay = false ∧
      ∀ entry ∈ (dispatch registration frame).carries,
        entry = (registration.key, registration) := by
  cases frame <;> simp [dispatch, Task.midWay, Task.carries]

theorem steady_afterCharge (state : ServerState F) (registration : Registration)
    (session : UInt32) (payload : Bytes) (shaper : Nat) (allowed : Bool) (task : Task) :
    Steady state task (afterCharge state registration session payload shaper allowed) := by
  unfold afterCharge
  dsimp only
  split
  · split
    · exact .of_inert (.refl state) (by simp [Task.inert])
    · exact .of_inert (undisturbed_count state _) (by simp [Task.inert])
  · exact .of_inert (undisturbed_count state _) (by simp [Task.inert])

theorem Steady.after {before state : ServerState F} {task : Task} {outcome : Outcome F}
    (undisturbed : Undisturbed before state) (steady : Steady state task outcome) :
    Steady before task outcome where
  undisturbed := undisturbed.trans steady.undisturbed
  beside := steady.beside
  next := by
    intro following isNext
    refine ⟨(steady.next following isNext).1, ?_⟩
    intro entry member
    rcases (steady.next following isNext).2 entry member with carried | ⟨list, isListed, inside⟩
    · exact Or.inl carried
    · rw [undisturbed.registrations] at isListed
      exact Or.inr ⟨list, isListed, inside⟩

variable [F64 F]

/-- The sections that change the tables, or lead to one that goes on changing them. -/
def Task.changes : Task → Bool
  | .answerOpen .. | .answerNote .. | .teardown .. | .teardownIds .. | .teardownSessions ..
  | .teardownOrphans .. => true
  | _ => false

/-- Every other section is steady. -/
theorem steady_run (crypto : Crypto) (state : ServerState F) (handler : Handler)
    (ambient : Ambient) {task : Task} (settled : task.changes = false) :
    Steady state task (task.run crypto state handler ambient) := by
  cases task with
  | register registration =>
      show Steady state _ (register state registration ambient)
      unfold register
      dsimp only
      split
      · exact
          { undisturbed := .refl state
            beside := ⟨by simp [Task.inert], by simp [Handler.spawnable, Task.inert]⟩
            next := by simp [Task.midWay, Task.carries] }
      · exact .of_control (undisturbed_setCells state registration rfl) rfl (by simp)
  | controlLoop registration =>
      show Steady state _ (controlLoop state registration ambient)
      unfold controlLoop
      split
      · exact .of_control (.refl state) rfl (by simp [Task.midWay, Task.carries])
      · next frame _ =>
          dsimp only
          split
          · refine .of_control (undisturbed_setCells state registration rfl) rfl ?_
            intro following isNext
            cases isNext
            have dispatched := dispatch_steady registration frame
            refine ⟨dispatched.1, ?_⟩
            intro entry member
            rw [dispatched.2 entry member]
            exact List.mem_singleton_self _
          · refine .of_control ?_ rfl (by simp [Task.midWay, Task.carries])
            apply Undisturbed.trans _ (undisturbed_sendFrame _ registration _)
            apply Undisturbed.trans _ (undisturbed_count _ _)
            exact undisturbed_setCells state registration rfl
  | keepalive registration =>
      show Steady state _ (keepalive state registration ambient.now)
      unfold keepalive
      dsimp only
      split
      · refine .of_control ?_ rfl (by simp [Task.midWay, Task.carries])
        apply Undisturbed.trans _ (undisturbed_sendFrame _ registration _)
        exact undisturbed_setCells state registration rfl
      · refine .of_control ?_ rfl (by simp [Task.midWay, Task.carries])
        apply Undisturbed.trans _ (undisturbed_sendFrame _ registration _)
        apply Undisturbed.trans _ (undisturbed_count _ _)
        exact undisturbed_setCells state registration rfl
  | introduce registration tag ttlS sealedBytes =>
      show Steady state _ (introduce state registration tag ttlS sealedBytes ambient.now)
      unfold introduce
      dsimp only
      split
      · refine .of_control ?_ rfl (by simp [Task.midWay, Task.carries])
        exact undisturbed_setCells state registration rfl
      · refine .of_control ?_ rfl (by simp [Task.midWay, Task.carries])
        apply Undisturbed.trans _ (undisturbed_sendFrame _ registration _)
        exact undisturbed_setCells state registration rfl
  | introduceTarget registration tag ttlS sealedBytes =>
      show Steady state _ (introduceTarget crypto state registration tag ttlS sealedBytes)
      unfold introduceTarget
      split <;> exact .of_control (.refl state) rfl (by simp [Task.midWay, Task.carries])
  | introduceSeat registration tag ttlS sealedBytes targetKey =>
      show Steady state _ (introduceSeat state registration tag ttlS sealedBytes targetKey)
      unfold introduceSeat
      split <;> exact .of_control (.refl state) rfl (by simp [Task.midWay, Task.carries])
  | introduceRecord registration tag ttlS sealedBytes targetKey target =>
      exact .of_control ⟨rfl, rfl, rfl, fun _ => rfl, fun _ => rfl⟩ rfl
        (by simp [Task.midWay, Task.carries])
  | introduceSend registration tag ttlS sealedBytes target =>
      exact .of_control (undisturbed_sendFrame state target _) rfl
        (by simp [Task.midWay, Task.carries])
  | answer registration tag accept =>
      show Steady state _ (answer state handler registration tag accept)
      unfold answer
      split
      · exact .of_control (.refl state) rfl (by simp [Task.midWay, Task.carries])
      · split
        · exact .of_control ⟨rfl, rfl, rfl, fun _ => rfl, fun _ => rfl⟩ rfl
            (by simp [Task.midWay, Task.carries])
        · exact .of_control (undisturbed_count state _) rfl
            (by simp [Task.midWay, Task.carries])
  | answerCheck registration tag accept knock =>
      show Steady state _ (answerCheck state registration tag accept knock ambient.now)
      unfold answerCheck
      split
      · exact .of_control (.refl state) rfl (by simp [Task.midWay, Task.carries])
      · split <;> exact .of_control (.refl state) rfl (by simp [Task.midWay, Task.carries])
  | startRequest registration session =>
      show Steady state _ (startRequest state registration session ambient.now)
      unfold startRequest
      dsimp only
      split
      · exact .of_control (undisturbed_count state _) rfl (by simp [Task.midWay, Task.carries])
      · next found isFound =>
          split
          · exact .of_control (undisturbed_count state _) rfl
              (by simp [Task.midWay, Task.carries])
          · split
            · refine .of_control ?_ rfl (by simp [Task.midWay, Task.carries])
              apply Undisturbed.trans _ (undisturbed_count _ _)
              exact undisturbed_put state isFound rfl
            · refine .of_control ?_ rfl (by simp [Task.midWay, Task.carries])
              exact undisturbed_put state isFound rfl
  | startSend registration session keyA keyB gateMs =>
      exact .of_control (undisturbed_startSend state registration session keyA keyB gateMs) rfl
        (by simp [Task.midWay, Task.carries])
  | relayLoop registration =>
      show Steady state _ (relayLoop state registration ambient)
      unfold relayLoop
      split
      · exact .of_inert (.refl state) (by simp)
      · split
        · exact .of_inert (.refl state) (by simp [Task.inert])
        · exact .of_inert (undisturbed_count state _) (by simp [Task.inert])
  | forward registration session payload =>
      show Steady state _ (forward state registration session payload ambient.now)
      have forwarded := forwarded_forward state registration session payload ambient.now
      generalize forward state registration session payload ambient.now = outcome at forwarded ⊢
      cases forwarded with
      | refused stranger =>
          exact .of_inert (undisturbed_count state _) (by simp [Task.inert])
      | aToB found isFound sender =>
          refine .after ?_ (steady_afterCharge _ registration session payload _ _ _)
          exact undisturbed_put state isFound rfl
      | bToA found isFound other sender =>
          refine .after ?_ (steady_afterCharge _ registration session payload _ _ _)
          exact undisturbed_put state isFound rfl
  | enqueue registration session payload shaper encoded =>
      show Steady state _ (enqueue state registration shaper encoded ambient.now)
      unfold enqueue
      dsimp only
      split
      · exact .of_inert ((undisturbed_setShaper state shaper _).trans (undisturbed_count _ _))
          (by simp [Task.inert])
      · exact .of_inert (undisturbed_setShaper state shaper _) (by simp [Task.inert])
      · exact .of_inert (undisturbed_setShaper state shaper _) (by simp [Task.inert])
  | writer registration =>
      show Steady state _ (writer state registration ambient)
      unfold writer
      dsimp only
      split
      · exact .of_inert (undisturbed_setCells state registration rfl) (by simp [Task.inert])
      · exact .of_inert (undisturbed_setCells state registration rfl) (by simp)
  | drain session destinationKey shaper =>
      show Steady state _ (drain state session destinationKey shaper ambient.now)
      unfold drain
      dsimp only
      split
      · exact .of_inert (undisturbed_setShaper state shaper _) (by simp)
      · exact .of_inert (undisturbed_setShaper state shaper _) (by simp [Task.inert])
      · exact .of_inert (undisturbed_setShaper state shaper _) (by simp [Task.inert])
      · exact .of_inert (undisturbed_setShaper state shaper _) (by simp [Task.inert])
  | drainCheck session destinationKey shaper payloads =>
      show Steady state _ (drainCheck state session destinationKey shaper payloads)
      unfold drainCheck
      split <;> exact .of_inert (.refl state) (by simp [Task.inert])
  | drainSeat session destinationKey shaper payloads =>
      exact .of_inert (.refl state) (by simp [Task.inert])
  | drainSend session destinationKey shaper destination payloads =>
      show Steady state _
        (drainSend state session destinationKey shaper destination payloads ambient)
      unfold drainSend
      split
      · exact .of_inert (.refl state) (by simp [Task.inert])
      · split
        · exact .of_inert (.refl state) (by simp [Task.inert])
        · exact .of_inert (.refl state) (by simp)
  | sweepLoop =>
      exact .of_control (.refl state) rfl (by simp [Task.midWay, Task.carries])
  | sweepKnocks now =>
      exact .of_control ⟨rfl, rfl, rfl, fun _ => rfl, fun _ => rfl⟩ rfl
        (by simp [Task.midWay, Task.carries])
  | sweepExpired now =>
      exact
        { undisturbed := .refl state
          beside := ⟨by simp [Task.inert], by simp [Task.run, sweepExpired]⟩
          next := by
            intro following isNext
            have expired := afterTeardown_steady isNext
            refine ⟨expired.1, ?_⟩
            intro entry member
            obtain ⟨listed, isListed, isExpired⟩ := List.mem_flatMap.mp (expired.2 entry member)
            obtain ⟨registration, isLate, isEntry⟩ := List.mem_map.mp isExpired
            have inside := List.mem_of_mem_filter isLate
            rw [← isEntry]
            exact Or.inr ⟨listed.2, AList.mem_lookup_iff.mpr isListed, inside⟩ }
  | answerOpen | answerNote | teardown | teardownIds | teardownSessions | teardownOrphans =>
      cases settled

end Steady

end Mosschat.Net.Gate.Server
