import Mosschat.Net.Gate.Sessions

/-!
Owns what the gate relays: over every order of the handlers' sections, a datagram is
queued only on the direction of a live session its sender is a party to, spends only
that direction's budget, and is delivered only to the other key.

Does not own who may open a session.
-/

namespace Mosschat.Net.Gate.Server

open Mosschat.Core Mosschat.Library Mosschat.Library.Cbor Mosschat.Library.Machine
open Mosschat.Library.Log

/-! ## The directions of a session -/

/-- The shaper was made for what `source` sends to `destination` over the session. -/
inductive Route (history : List Event) : Nat → UInt32 → Bytes32 → Bytes32 → Prop where
  | aToB {handler : Handler} {session : UInt32} {a b tag : Bytes32} {answeredAt x y : Nat}
      (noted : .opened handler session a b tag answeredAt x y ∈ history) :
      Route history x session a b
  | bToA {handler : Handler} {session : UInt32} {a b tag : Bytes32} {answeredAt x y : Nat}
      (noted : .opened handler session a b tag answeredAt x y ∈ history) :
      Route history y session b a

/-- The shaper is the session's for what `source` sends to `destination`. -/
inductive SessionState.Carries {F : Type} (found : SessionState F) :
    Nat → Bytes32 → Bytes32 → Prop where
  | aToB : found.Carries found.aToBShaper found.keyA found.keyB
  | bToA : found.Carries found.bToAShaper found.keyB found.keyA

/-- The bytes are a datagram of `source` for the session, with the session's id and its
payload as they were sent. -/
def Sent (history : List Event) (source : Bytes32) (session : UInt32) (bytes : Bytes) : Prop :=
  ∃ payload, .relayed source session payload ∈ history ∧
    encodeRelay session payload = .ok bytes ∧ decodeRelay bytes = .ok (session, payload)

section History

variable {F : Type} {history more : List Event} {shaper : Nat} {session : UInt32}
  {source destination : Bytes32}

theorem Route.append (route : Route history shaper session source destination) :
    Route (history ++ more) shaper session source destination := by
  cases route with
  | aToB noted => exact .aToB (List.mem_append_left more noted)
  | bToA noted => exact .bToA (List.mem_append_left more noted)

theorem Sent.append {bytes : Bytes} (sent : Sent history source session bytes) :
    Sent (history ++ more) source session bytes := by
  obtain ⟨payload, relayed, encoded⟩ := sent
  exact ⟨payload, List.mem_append_left more relayed, encoded⟩

/-- Only an opening makes a route. -/
theorem route_of_append
    (unopened : ∀ handler session a b tag answeredAt x y,
      .opened handler session a b tag answeredAt x y ∉ more)
    (route : Route (history ++ more) shaper session source destination) :
    Route history shaper session source destination := by
  cases route with
  | aToB noted =>
      rcases List.mem_append.mp noted with before | new
      · exact .aToB before
      · exact absurd new (unopened _ _ _ _ _ _ _ _)
  | bToA noted =>
      rcases List.mem_append.mp noted with before | new
      · exact .bToA before
      · exact absurd new (unopened _ _ _ _ _ _ _ _)

theorem SessionState.Carries.same {found current : SessionState F} (same : current.Same found)
    (carries : found.Carries shaper source destination) :
    current.Carries shaper source destination := by
  cases carries with
  | aToB =>
      rw [← same.aToBShaper, ← same.keyA, ← same.keyB]
      exact .aToB
  | bToA =>
      rw [← same.bToAShaper, ← same.keyA, ← same.keyB]
      exact .bToA

/-- The directions of an opened session are routes. -/
theorem Opened.route {found : SessionState F} (opened : Opened history session found)
    (carries : found.Carries shaper source destination) :
    Route history shaper session source destination := by
  obtain ⟨handler, tag, answeredAt, noted⟩ := opened
  cases carries with
  | aToB => exact .aToB noted
  | bToA => exact .bToA noted

end History

/-! ## What each section can do to it -/

section Sections

variable {F : Type}

/-- Queues only lose what is at their front, closed shapers stay closed, and a session
goes only with its shapers closed. -/
structure Drained (before after : ServerState F) : Prop where
  allocated : after.allocated = before.allocated
  registrations : RegistrationsWithin before after
  closed : ∀ shaper, (before.shapers shaper).closed = true → (after.shapers shaper).closed = true
  items : ∀ shaper, (after.shapers shaper).items <:+ (before.shapers shaper).items
  sessions : ∀ session found, before.sessions.lookup session = some found →
    (∃ current, after.sessions.lookup session = some current ∧ current.Same found) ∨
      (after.shapers found.aToBShaper).closed = true ∧
        (after.shapers found.bToAShaper).closed = true

theorem SessionState.Same.refl (found : SessionState F) : found.Same found :=
  ⟨rfl, rfl, rfl, rfl⟩

theorem SessionState.Same.trans {first second third : SessionState F}
    (left : second.Same first) (right : third.Same second) : third.Same first where
  keyA := right.keyA.trans left.keyA
  keyB := right.keyB.trans left.keyB
  aToBShaper := right.aToBShaper.trans left.aToBShaper
  bToAShaper := right.bToAShaper.trans left.bToAShaper

/-- Nothing about the shapers changes, and every session keeps its place. -/
theorem Drained.of_sessions {before after : ServerState F}
    (allocated : after.allocated = before.allocated)
    (registrations : RegistrationsWithin before after) (shapers : after.shapers = before.shapers)
    (sessions : ∀ session found, before.sessions.lookup session = some found →
      ∃ current, after.sessions.lookup session = some current ∧ current.Same found) :
    Drained before after where
  allocated := allocated
  registrations := registrations
  closed := by
    intro shaper isClosed
    rw [shapers]
    exact isClosed
  items := by
    intro shaper
    rewrite [shapers]
    exact List.suffix_refl _
  sessions := by
    intro session found isFound
    exact Or.inl (sessions session found isFound)

theorem Drained.of_eq {before after : ServerState F}
    (allocated : after.allocated = before.allocated)
    (registrations : after.registrations = before.registrations)
    (shapers : after.shapers = before.shapers) (sessions : after.sessions = before.sessions) :
    Drained before after := by
  apply Drained.of_sessions allocated (.of_eq registrations) shapers
  intro session found isFound
  rw [sessions]
  exact ⟨found, isFound, .refl found⟩

theorem Drained.of_kept {before after : ServerState F} (kept : Kept before after) :
    Drained before after := by
  apply Drained.of_sessions kept.allocated kept.registrations kept.shapers
  intro session found isFound
  rw [kept.sessions]
  exact ⟨found, isFound, .refl found⟩

/-- One session is set to another state of itself. -/
theorem Drained.put {before after : ServerState F} {session : UInt32}
    {found changed : SessionState F} (isFound : before.sessions.lookup session = some found)
    (kept : Kept { before with sessions := before.sessions.put session changed } after)
    (same : changed.Same found) : Drained before after := by
  have allocated : after.allocated = before.allocated := kept.allocated
  have registrations : RegistrationsWithin before after := kept.registrations
  have shapers : after.shapers = before.shapers := kept.shapers
  apply Drained.of_sessions allocated registrations shapers
  intro other current isCurrent
  rw [kept.sessions, HashMap.lookup_put]
  split
  · next isSession =>
      rw [isSession, isFound] at isCurrent
      cases isCurrent
      exact ⟨changed, rfl, same⟩
  · exact ⟨current, isCurrent, .refl current⟩

theorem Drained.trans {first second third : ServerState F} (left : Drained first second)
    (right : Drained second third) : Drained first third where
  allocated := right.allocated.trans left.allocated
  registrations := left.registrations.trans right.registrations
  closed := by
    intro shaper isClosed
    exact right.closed shaper (left.closed shaper isClosed)
  items := by
    intro shaper
    exact (right.items shaper).trans (left.items shaper)
  sessions := by
    intro session found isFound
    rcases left.sessions session found isFound with ⟨middle, inMiddle, same⟩ | bothClosed
    · rcases right.sessions session middle inMiddle with ⟨current, inThird, alsoSame⟩ | bothClosed
      · exact Or.inl ⟨current, inThird, same.trans alsoSame⟩
      · rw [same.aToBShaper, same.bToAShaper] at bothClosed
        exact Or.inr bothClosed
    · exact Or.inr ⟨right.closed _ bothClosed.1, right.closed _ bothClosed.2⟩

theorem items_setShaper (state : ServerState F) (shaper : Nat) {value : RelayShaper F}
    (items : value.items <:+ (state.shapers shaper).items) (other : Nat) :
    ((state.setShaper shaper value).shapers other).items <:+ (state.shapers other).items := by
  show (Function.update state.shapers shaper value other).items <:+ _
  by_cases isShaper : other = shaper
  · subst isShaper
    rw [Function.update_self]
    exact items
  · rewrite [Function.update_of_ne isShaper]
    exact List.suffix_refl _

/-- One shaper is set to a drained or closed state of itself. -/
theorem drained_setShaper (state : ServerState F) (shaper : Nat) {value : RelayShaper F}
    (closed : (state.shapers shaper).closed = true → value.closed = true)
    (items : value.items <:+ (state.shapers shaper).items) :
    Drained state (state.setShaper shaper value) where
  allocated := rfl
  registrations := .of_eq rfl
  closed := by
    intro other isClosed
    show (Function.update state.shapers shaper value other).closed = true
    by_cases isShaper : other = shaper
    · subst isShaper
      rw [Function.update_self]
      exact closed isClosed
    · rw [Function.update_of_ne isShaper]
      exact isClosed
  items := items_setShaper state shaper items
  sessions := by
    intro session found isFound
    exact Or.inl ⟨found, isFound, .refl found⟩

theorem drained_close (state : ServerState F) (shaper : Nat) :
    Drained state (state.setShaper shaper (state.shapers shaper).close) := by
  apply drained_setShaper
  · intro _
    rfl
  · exact List.nil_suffix

/-- Both shapers of a session are closed once it is removed. -/
theorem closeShapers_closed (state : ServerState F) (found : SessionState F) :
    ((state.closeShapers found).shapers found.aToBShaper).closed = true ∧
      ((state.closeShapers found).shapers found.bToAShaper).closed = true := by
  constructor
  · apply (drained_close _ found.bToAShaper).closed
    show (Function.update state.shapers found.aToBShaper _ found.aToBShaper).closed = true
    rw [Function.update_self]
    rfl
  · unfold ServerState.closeShapers ServerState.setShaper
    dsimp only
    rw [Function.update_self]
    rfl

/-- The removal of one session. -/
theorem drained_removed (state : ServerState F) {id : UInt32} {found : SessionState F}
    (isFound : state.sessions.lookup id = some found) :
    Drained state ({ state with sessions := state.sessions.erase id }.closeShapers found) := by
  have closing : Drained state (state.closeShapers found) :=
    (drained_close state found.aToBShaper).trans (drained_close _ found.bToAShaper)
  exact
    { allocated := rfl
      registrations := .of_eq rfl
      closed := closing.closed
      items := closing.items
      sessions := by
        intro session other isOther
        by_cases isId : session = id
        · rw [isId, isFound] at isOther
          cases isOther
          exact Or.inr (closeShapers_closed _ found)
        · left
          refine ⟨other, ?_, .refl other⟩
          show (state.sessions.erase id).lookup session = some other
          rw [HashMap.lookup_erase, if_neg isId]
          exact isOther }

theorem drained_teardownSessions (state : ServerState F) (peerKey : Bytes32)
    (sessionIds : List UInt32) (later : Option (List (Bytes32 × Registration))) :
    Drained state (teardownSessions state peerKey sessionIds later).state := by
  rw [teardownSessions_state]
  apply foldl_removeSession (Drained state)
  · intro middle id found isFound before
    exact before.trans (drained_removed middle isFound)
  · exact .of_kept (Kept.refl state)

variable [F64 F]

theorem drained_drainPass (state : ServerState F) (shaper now : Nat) :
    Drained state (state.setShaper shaper ((state.shapers shaper).drainPass now).1) := by
  apply drained_setShaper
  · intro isClosed
    rw [RelayShaper.drainPass_closed]
    exact isClosed
  · exact RelayShaper.drainPass_items (state.shapers shaper) now

/-- Every section but the creation of a session and the queueing of a datagram. -/
theorem drained_run (crypto : Crypto) (state : ServerState F) (handler : Handler)
    (ambient : Ambient) (task : Task)
    (opens : ∀ registration tag knock answeredAt,
      task ≠ .answerOpen registration tag knock answeredAt)
    (queues : ∀ registration session payload shaper encoded,
      task ≠ .enqueue registration session payload shaper encoded) :
    Drained state (task.run crypto state handler ambient).state := by
  by_cases elsewhere : task.writesTables = false
  · exact .of_kept (kept_run crypto state handler ambient elsewhere)
  · cases task with
    | introduceRecord registration tag ttlS sealedBytes targetKey target =>
        exact .of_eq rfl rfl rfl rfl
    | answer registration tag accept =>
        show Drained state (answer state handler registration tag accept).state
        unfold answer
        split
        · exact .of_kept (Kept.refl state)
        · split
          · exact .of_eq rfl rfl rfl rfl
          · dsimp only
            exact .of_kept (kept_count state _)
    | answerOpen registration tag knock answeredAt =>
        exact absurd rfl (opens registration tag knock answeredAt)
    | startRequest registration session =>
        show Drained state (startRequest state registration session ambient.now).state
        unfold startRequest
        dsimp only
        split
        · dsimp only
          exact .of_kept (kept_count state _)
        · next found isFound =>
            split
            · dsimp only
              exact .of_kept (kept_count state _)
            · split
              · dsimp only
                exact .put isFound (kept_count _ _) ⟨rfl, rfl, rfl, rfl⟩
              · exact .put isFound (Kept.refl _) ⟨rfl, rfl, rfl, rfl⟩
    | teardownSessions peerKey sessionIds later =>
        exact drained_teardownSessions state peerKey sessionIds later
    | forward registration session payload =>
        show Drained state (forward state registration session payload ambient.now).state
        have forwarded := forwarded_forward state registration session payload ambient.now
        generalize forward state registration session payload ambient.now = outcome at forwarded ⊢
        cases forwarded with
        | refused stranger => exact .of_eq rfl rfl rfl rfl
        | aToB found isFound sender =>
            exact .put isFound (kept_afterCharge _ registration session payload _ _)
              ⟨rfl, rfl, rfl, rfl⟩
        | bToA found isFound other sender =>
            exact .put isFound (kept_afterCharge _ registration session payload _ _)
              ⟨rfl, rfl, rfl, rfl⟩
    | enqueue registration session payload shaper encoded =>
        exact absurd rfl (queues registration session payload shaper encoded)
    | drain session destinationKey shaper =>
        have passed := drained_drainPass state shaper ambient.now
        show Drained state (drain state session destinationKey shaper ambient.now).state
        unfold drain
        simp only
        split <;> exact passed
    | sweepKnocks now =>
        exact .of_eq rfl rfl rfl rfl
    | _ => exact absurd rfl elsewhere

end Sections

/-! ## What the handlers know -/

/-- The sections that hold a datagram, or a shaper to start a drain with. -/
def Task.relays : Task → Bool
  | .answerNote .. | .forward .. | .enqueue .. | .drain .. | .drainCheck .. | .drainSeat ..
  | .drainSend .. => true
  | _ => false

/-- What the relaying handlers know of the history. -/
def RelayOk (history : List Event) : Task → Prop
  | .answerNote _ _ knock session _ _ aToBShaper bToAShaper =>
      Route history aToBShaper session knock.requester knock.target ∧
        Route history bToAShaper session knock.target knock.requester
  | .forward registration session payload =>
      .relayed registration.key session payload ∈ history
  | .enqueue registration session payload shaper encoded =>
      (∃ destination, Route history shaper session registration.key destination) ∧
        .relayed registration.key session payload ∈ history ∧
        encodeRelay session payload = .ok encoded
  | .drain session destinationKey shaper =>
      ∃ source, Route history shaper session source destinationKey
  | .drainCheck session destinationKey shaper payloads =>
      ∃ source, Route history shaper session source destinationKey ∧
        ∀ bytes ∈ payloads, Sent history source session bytes
  | .drainSeat session destinationKey shaper payloads =>
      ∃ source, Route history shaper session source destinationKey ∧
        ∀ bytes ∈ payloads, Sent history source session bytes
  | .drainSend session destinationKey shaper destination payloads =>
      destination.key = destinationKey ∧
        ∃ source, Route history shaper session source destinationKey ∧
          ∀ bytes ∈ payloads, Sent history source session bytes
  | _ => True

theorem relayOk_of_not_relays (history : List Event) {task : Task}
    (elsewhere : task.relays = false) : RelayOk history task := by
  cases task with
  | answerNote | forward | enqueue | drain | drainCheck | drainSeat | drainSend => cases elsewhere
  | _ => trivial

theorem RelayOk.append {history more : List Event} {task : Task} (known : RelayOk history task) :
    RelayOk (history ++ more) task := by
  cases task with
  | answerNote registration tag knock session requester target aToBShaper bToAShaper =>
      exact ⟨known.1.append, known.2.append⟩
  | forward registration session payload => exact List.mem_append_left more known
  | enqueue registration session payload shaper encoded =>
      obtain ⟨⟨destination, route⟩, relayed, isEncoded⟩ := known
      exact ⟨⟨destination, route.append⟩, List.mem_append_left more relayed, isEncoded⟩
  | drain session destinationKey shaper =>
      obtain ⟨source, route⟩ := known
      exact ⟨source, route.append⟩
  | drainCheck session destinationKey shaper payloads =>
      obtain ⟨source, route, sent⟩ := known
      exact ⟨source, route.append, fun bytes member => (sent bytes member).append⟩
  | drainSeat session destinationKey shaper payloads =>
      obtain ⟨source, route, sent⟩ := known
      exact ⟨source, route.append, fun bytes member => (sent bytes member).append⟩
  | drainSend session destinationKey shaper destination payloads =>
      obtain ⟨isDestination, source, route, sent⟩ := known
      exact ⟨isDestination, source, route.append, fun bytes member => (sent bytes member).append⟩
  | _ => trivial

/-- The section opens no session, delivers nothing, and leads to no relaying one. -/
structure Outcome.Apart {F : Type} (outcome : Outcome F) : Prop where
  unopened : ∀ handler session a b tag answeredAt x y,
    .opened handler session a b tag answeredAt x y ∉ outcome.event
  undelivered : ∀ key bytes, .delivered key bytes ∉ outcome.event
  next : ∀ task ∈ outcome.next, task.relays = false
  spawned : ∀ entry ∈ outcome.spawned, entry.2.relays = false

section Apart

variable {F : Type}

theorem Outcome.Apart.silent {state : ServerState F} {next : Option Task}
    (elsewhere : ∀ task ∈ next, task.relays = false) : Outcome.Apart { state, next } :=
  ⟨by simp, by simp, elsewhere, by simp⟩

theorem afterTeardown_apart (later : Option (List (Bytes32 × Registration))) :
    ∀ task ∈ afterTeardown later, task.relays = false := by
  intro task follows
  unfold afterTeardown at follows
  split at follows
  · cases follows
  · cases follows
    rfl
  · cases follows
    rfl

variable [F64 F]

/-- The sections of the other handlers. -/
theorem apart_run (crypto : Crypto) (state : ServerState F) (handler : Handler)
    (ambient : Ambient) {task : Task} (elsewhere : task.relays = false)
    (reads : ∀ registration, task ≠ .relayLoop registration)
    (opens : ∀ registration tag knock answeredAt,
      task ≠ .answerOpen registration tag knock answeredAt) :
    (task.run crypto state handler ambient).Apart := by
  cases task with
  | register registration =>
      show (register state registration ambient).Apart
      unfold register
      dsimp only
      split
      · exact ⟨by simp, by simp, by simp [Task.relays], by simp [Task.relays]⟩
      · exact .silent (by simp)
  | controlLoop registration =>
      show (controlLoop state registration ambient).Apart
      unfold controlLoop
      split
      · exact .silent (by simp [Task.relays])
      · next frame _ =>
          simp only
          split
          · refine ⟨by simp, by simp, ?_, by simp⟩
            intro task isNext
            cases isNext
            cases frame <;> rfl
          · exact ⟨by simp, by simp, by simp [Task.relays], by simp⟩
  | keepalive registration =>
      show (keepalive state registration ambient.now).Apart
      unfold keepalive
      simp only
      split <;> exact .silent (by simp [Task.relays])
  | introduce registration tag ttlS sealedBytes =>
      show (introduce state registration tag ttlS sealedBytes ambient.now).Apart
      unfold introduce
      simp only
      split <;> exact .silent (by simp [Task.relays])
  | introduceTarget registration tag ttlS sealedBytes =>
      show (introduceTarget crypto state registration tag ttlS sealedBytes).Apart
      unfold introduceTarget
      split <;> exact .silent (by simp [Task.relays])
  | introduceSeat registration tag ttlS sealedBytes targetKey =>
      show (introduceSeat state registration tag ttlS sealedBytes targetKey).Apart
      unfold introduceSeat
      split <;> exact .silent (by simp [Task.relays])
  | introduceRecord registration tag ttlS sealedBytes targetKey target =>
      exact ⟨by simp [Task.run, introduceRecord], by simp [Task.run, introduceRecord],
        by simp [Task.run, introduceRecord, Task.relays], by simp [Task.run, introduceRecord]⟩
  | introduceSend registration tag ttlS sealedBytes target =>
      exact .silent (by simp [Task.relays])
  | answer registration tag accept =>
      show (answer state handler registration tag accept).Apart
      unfold answer
      split
      · exact .silent (by simp [Task.relays])
      · split
        · exact ⟨by simp, by simp, by simp [Task.relays], by simp⟩
        · exact .silent (by simp [Task.relays])
  | answerCheck registration tag accept knock =>
      show (answerCheck state registration tag accept knock ambient.now).Apart
      unfold answerCheck
      split
      · exact .silent (by simp [Task.relays])
      · split <;> exact .silent (by simp [Task.relays])
  | answerOpen registration tag knock answeredAt =>
      exact absurd rfl (opens registration tag knock answeredAt)
  | startRequest registration session =>
      show (startRequest state registration session ambient.now).Apart
      unfold startRequest
      simp only
      split
      · exact .silent (by simp [Task.relays])
      · split
        · exact .silent (by simp [Task.relays])
        · split <;> exact .silent (by simp [Task.relays])
  | startSend registration session keyA keyB gateMs => exact .silent (by simp [Task.relays])
  | teardown peerKey registration later =>
      show (teardown state peerKey registration later).Apart
      unfold teardown
      simp only
      split <;> exact .silent (by simp [Task.relays])
  | teardownIds peerKey registration later =>
      show (teardownIds state peerKey registration later).Apart
      unfold teardownIds
      simp only
      split
      · exact .silent (afterTeardown_apart later)
      · exact .silent (by simp [Task.relays])
  | teardownSessions peerKey sessionIds later =>
      show (teardownSessions state peerKey sessionIds later).Apart
      unfold teardownSessions
      simp only
      split
      · exact .silent (afterTeardown_apart later)
      · exact .silent (by simp [Task.relays])
  | teardownOrphans orphaned later => exact .silent (afterTeardown_apart later)
  | relayLoop registration => exact absurd rfl (reads registration)
  | writer registration =>
      show (writer state registration ambient).Apart
      unfold writer
      simp only
      split
      · exact .silent (by simp [Task.relays])
      · exact .silent (by simp)
  | sweepLoop => exact .silent (by simp [Task.relays])
  | sweepKnocks now => exact .silent (by simp [Task.relays])
  | sweepExpired now => exact .silent (afterTeardown_apart _)
  | answerNote | forward | enqueue | drain | drainCheck | drainSeat | drainSend => cases elsewhere

end Apart

/-! ## The invariant -/

section Invariant

variable {F : Type} {crypto : Crypto} {community : Bytes32} {world : World F}
  {handler : Handler} {outcome : Outcome F}

/-- The bytes are a datagram of a session's one key for its other, which is `key`. -/
def Addressed (history : List Event) (key : Bytes32) (bytes : Bytes) : Prop :=
  ∃ shaper session source, Route history shaper session source key ∧
    Sent history source session bytes

theorem Addressed.append {history more : List Event} {key : Bytes32} {bytes : Bytes}
    (addressed : Addressed history key bytes) : Addressed (history ++ more) key bytes := by
  obtain ⟨shaper, session, source, route, sent⟩ := addressed
  exact ⟨shaper, session, source, route.append, sent.append⟩

/-- What holds of the shapers of a gate with this history. -/
structure Shaped (state : ServerState F) (history : List Event) : Prop where
  bounded : ∀ shaper session source destination,
    Route history shaper session source destination → shaper < state.allocated
  unique : ∀ shaper session source destination otherSession otherSource otherDestination,
    Route history shaper session source destination →
      Route history shaper otherSession otherSource otherDestination →
        otherSession = session ∧ otherSource = source ∧ otherDestination = destination
  isLive : ∀ shaper session source destination,
    Route history shaper session source destination →
      (state.shapers shaper).closed = false →
        ∃ found, state.sessions.lookup session = some found ∧
          found.Carries shaper source destination
  queued : ∀ shaper session source destination,
    Route history shaper session source destination →
      ∀ item ∈ (state.shapers shaper).items, Sent history source session item.2

/-- Every registration is listed under its own key. -/
def Seated (state : ServerState F) : Prop :=
  ∀ key list, state.registrations.lookup key = some list →
    ∀ registration ∈ list, registration.key = key

theorem Seated.within {before after : ServerState F} (seated : Seated before)
    (registrations : RegistrationsWithin before after) : Seated after := by
  intro key list found registration member
  obtain ⟨old, isOld, inside⟩ := registrations key list found
  exact seated key old isOld registration (inside member)

theorem Seated.lastOf {state : ServerState F} (seated : Seated state) {key : Bytes32}
    {registration : Registration} (isLast : state.lastOf key = some registration) :
    registration.key = key := by
  obtain ⟨list, found, atEnd⟩ := Option.bind_eq_some_iff.mp isLast
  exact seated key list found registration (List.mem_of_getLast? atEnd)

/-- What every reachable world keeps, beside who opened its sessions. -/
structure RelayInv (world : World F) : Prop where
  shaped : Shaped world.gate world.history
  seated : Seated world.gate
  delivered : ∀ key bytes, .delivered key bytes ∈ world.history →
    Addressed world.history key bytes
  task : ∀ handler task, world.tasks.lookup handler = some task → RelayOk world.history task

/-- What a section has to leave for it to be kept. -/
structure RelaySound (world : World F) (outcome : Outcome F) : Prop where
  shaped : Shaped outcome.state (world.history ++ outcome.event.toList)
  seated : Seated outcome.state
  delivered : ∀ key bytes, .delivered key bytes ∈ outcome.event →
    Addressed (world.history ++ outcome.event.toList) key bytes
  next : ∀ task ∈ outcome.next, RelayOk (world.history ++ outcome.event.toList) task
  spawned : ∀ entry ∈ outcome.spawned, RelayOk (world.history ++ outcome.event.toList) entry.2

theorem relayInv_commit (inv : RelayInv world) (sound : RelaySound world outcome) :
    RelayInv (world.commit handler outcome) where
  shaped := sound.shaped
  seated := sound.seated
  delivered := by
    intro key bytes noted
    rcases List.mem_append.mp noted with before | new
    · exact (inv.delivered key bytes before).append
    · exact sound.delivered key bytes (Option.mem_toList.mp new)
  task := by
    intro other task present
    rcases lookup_commit_tasks present with isSpawned | ⟨_, isNext⟩ | ⟨_, before⟩
    · exact sound.spawned (other, task) isSpawned
    · exact sound.next task isNext
    · exact (inv.task other task before).append

/-- A section that opens nothing and queues nothing leaves the shapers in order. -/
theorem Shaped.of_drained {before after : ServerState F} {history : List Event}
    {event : Option Event} (shaped : Shaped before history) (drained : Drained before after)
    (unopened : ∀ handler session a b tag answeredAt x y,
      .opened handler session a b tag answeredAt x y ∉ event) :
    Shaped after (history ++ event.toList) := by
  have old : ∀ {shaper session source destination},
      Route (history ++ event.toList) shaper session source destination →
        Route history shaper session source destination := by
    intro shaper session source destination
    apply route_of_append
    intro handler session a b tag answeredAt x y noted
    exact unopened handler session a b tag answeredAt x y (Option.mem_toList.mp noted)
  exact
    { bounded := by
        intro shaper session source destination route
        rw [drained.allocated]
        exact shaped.bounded shaper session source destination (old route)
      unique := by
        intro shaper session source destination otherSession otherSource otherDestination route
          other
        exact shaped.unique shaper session source destination otherSession otherSource
          otherDestination (old route) (old other)
      isLive := by
        intro shaper session source destination route isOpen
        have wasOpen : (before.shapers shaper).closed = false := by
          apply Bool.eq_false_of_not_eq_true
          intro wasClosed
          rw [drained.closed shaper wasClosed] at isOpen
          cases isOpen
        obtain ⟨found, isFound, carries⟩ :=
          shaped.isLive shaper session source destination (old route) wasOpen
        rcases drained.sessions session found isFound with ⟨current, isCurrent, same⟩ | closed
        · exact ⟨current, isCurrent, carries.same same⟩
        · cases carries with
          | aToB =>
              rw [closed.1] at isOpen
              cases isOpen
          | bToA =>
              rw [closed.2] at isOpen
              cases isOpen
      queued := by
        intro shaper session source destination route item member
        have before := (drained.items shaper).subset member
        exact (shaped.queued shaper session source destination (old route) item before).append }

/-- One more datagram of the route's source leaves them in order. -/
theorem shaped_enqueue {state after : ServerState F} {history : List Event} {shaper : Nat}
    {session : UInt32} {source destination : Bytes32} {encoded : Bytes} {now : Nat}
    (shaped : Shaped state history)
    (kept : Kept
      (state.setShaper shaper ((state.shapers shaper).enqueueOrDrop encoded now).1) after)
    (route : Route history shaper session source destination)
    (sent : Sent history source session encoded) : Shaped after history where
  bounded := by
    intro other otherSession otherSource otherDestination otherRoute
    rw [kept.allocated]
    exact shaped.bounded other otherSession otherSource otherDestination otherRoute
  unique := shaped.unique
  isLive := by
    intro other otherSession otherSource otherDestination otherRoute isOpen
    rw [kept.sessions]
    apply shaped.isLive other otherSession otherSource otherDestination otherRoute
    rw [kept.shapers] at isOpen
    change (Function.update state.shapers shaper _ other).closed = false at isOpen
    by_cases isShaper : other = shaper
    · subst isShaper
      rw [Function.update_self, RelayShaper.enqueueOrDrop_closed] at isOpen
      exact isOpen
    · rw [Function.update_of_ne isShaper] at isOpen
      exact isOpen
  queued := by
    intro other otherSession otherSource otherDestination otherRoute item member
    rw [kept.shapers] at member
    change item ∈ (Function.update state.shapers shaper _ other).items at member
    by_cases isShaper : other = shaper
    · subst isShaper
      rw [Function.update_self] at member
      rcases RelayShaper.enqueueOrDrop_items (state.shapers other) encoded now with
        same | ⟨_, added⟩
      · rw [same] at member
        exact shaped.queued other otherSession otherSource otherDestination otherRoute item member
      · rw [added, List.mem_append, List.mem_singleton] at member
        rcases member with before | isNew
        · exact shaped.queued other otherSession otherSource otherDestination otherRoute item
            before
        · obtain ⟨sameSession, sameSource, _⟩ := shaped.unique other session source destination
            otherSession otherSource otherDestination route otherRoute
          rw [isNew, sameSession, sameSource]
          exact sent
    · rw [Function.update_of_ne isShaper] at member
      exact shaped.queued other otherSession otherSource otherDestination otherRoute item member

/-- A route after an opening is an old one or one of the session's two. -/
theorem route_opened {history : List Event} {opened session : UInt32} {a b tag : Bytes32}
    {answeredAt x y shaper : Nat} {source destination : Bytes32}
    (route : Route (history ++ [.opened handler opened a b tag answeredAt x y]) shaper session
      source destination) :
    Route history shaper session source destination ∨
      (shaper = x ∧ session = opened ∧ source = a ∧ destination = b) ∨
      (shaper = y ∧ session = opened ∧ source = b ∧ destination = a) := by
  cases route with
  | aToB noted =>
      rcases List.mem_append.mp noted with before | new
      · exact Or.inl (.aToB before)
      · cases List.mem_singleton.mp new
        exact Or.inr (Or.inl ⟨rfl, rfl, rfl, rfl⟩)
  | bToA noted =>
      rcases List.mem_append.mp noted with before | new
      · exact Or.inl (.bToA before)
      · cases List.mem_singleton.mp new
        exact Or.inr (Or.inr ⟨rfl, rfl, rfl, rfl⟩)

/-- A section that opens nothing and queues nothing. -/
theorem RelaySound.of_drained (inv : RelayInv world)
    (drained : Drained world.gate outcome.state)
    (unopened : ∀ handler session a b tag answeredAt x y,
      .opened handler session a b tag answeredAt x y ∉ outcome.event)
    (delivered : ∀ key bytes, .delivered key bytes ∈ outcome.event →
      Addressed (world.history ++ outcome.event.toList) key bytes)
    (next : ∀ task ∈ outcome.next, RelayOk (world.history ++ outcome.event.toList) task)
    (spawned : ∀ entry ∈ outcome.spawned,
      RelayOk (world.history ++ outcome.event.toList) entry.2) : RelaySound world outcome where
  shaped := inv.shaped.of_drained drained unopened
  seated := inv.seated.within drained.registrations
  delivered := delivered
  next := next
  spawned := spawned

/-- A section of a handler that relays nothing. -/
theorem RelaySound.of_apart (inv : RelayInv world) (drained : Drained world.gate outcome.state)
    (apart : outcome.Apart) : RelaySound world outcome := by
  apply RelaySound.of_drained inv drained apart.unopened
  · intro key bytes noted
    exact absurd noted (apart.undelivered key bytes)
  · intro task isNext
    exact relayOk_of_not_relays _ (apart.next task isNext)
  · intro entry isSpawned
    exact relayOk_of_not_relays _ (apart.spawned entry isSpawned)

variable [F64 F]

/-- The shapers of a new session are new, open and empty, and its id was free. -/
theorem shaped_openSession {state : ServerState F} {history : List Event}
    {registration requester target : Registration} {tag : Bytes32} {knock : KnockState}
    {answeredAt now : Nat} {session : UInt32} (shaped : Shaped state history)
    (isFree : state.sessions.lookup session = none) :
    Shaped (openSession state handler registration tag knock answeredAt session requester target
        now).state
      (history ++ [.opened handler session knock.requester knock.target tag answeredAt
        state.allocated (state.allocated + 1)]) := by
  have fresh : ∀ {shaper session source destination},
      Route history shaper session source destination →
        shaper ≠ state.allocated ∧ shaper ≠ state.allocated + 1 := by
    intro shaper session source destination route
    have below := shaped.bounded shaper session source destination route
    omega
  have aToB : (openSession state handler registration tag knock answeredAt session requester
      target now).state.shapers state.allocated = .gate now := by
    show Function.update (Function.update state.shapers state.allocated _) (state.allocated + 1) _
      state.allocated = _
    rw [Function.update_of_ne (by omega), Function.update_self]
  have bToA : (openSession state handler registration tag knock answeredAt session requester
      target now).state.shapers (state.allocated + 1) = .gate now := by
    show Function.update (Function.update state.shapers state.allocated _) (state.allocated + 1) _
      (state.allocated + 1) = _
    rw [Function.update_self]
  have others : ∀ {shaper}, shaper ≠ state.allocated → shaper ≠ state.allocated + 1 →
      (openSession state handler registration tag knock answeredAt session requester
        target now).state.shapers shaper = state.shapers shaper := by
    intro shaper notFirst notSecond
    show Function.update (Function.update state.shapers state.allocated _) (state.allocated + 1) _
      shaper = _
    rw [Function.update_of_ne notSecond, Function.update_of_ne notFirst]
  have sessions : ∀ other, (openSession state handler registration tag knock answeredAt session
      requester target now).state.sessions.lookup other =
        if other = session then
          some ⟨knock.requester, knock.target, 0, now, .new now, .new now, state.allocated,
            state.allocated + 1⟩
        else state.sessions.lookup other := by
    intro other
    show (state.sessions.put session _).lookup other = _
    rw [HashMap.lookup_put]
  exact
    { bounded := by
        intro shaper other source destination route
        show shaper < state.allocated + 2
        rcases route_opened route with old | ⟨isShaper, _⟩ | ⟨isShaper, _⟩
        · have below := shaped.bounded shaper other source destination old
          omega
        · omega
        · omega
      unique := by
        intro shaper first source destination second otherSource otherDestination route other
        rcases route_opened route with old | ⟨isFirst, rfl, rfl, rfl⟩ | ⟨isSecond, rfl, rfl, rfl⟩
        · have apart := fresh old
          rcases route_opened other with alsoOld | ⟨isFirst, _⟩ | ⟨isSecond, _⟩
          · exact shaped.unique shaper first source destination second otherSource
              otherDestination old alsoOld
          · exact absurd isFirst apart.1
          · exact absurd isSecond apart.2
        · rcases route_opened other with alsoOld | ⟨_, rfl, rfl, rfl⟩ | ⟨isSecond, _⟩
          · exact absurd isFirst (fresh alsoOld).1
          · exact ⟨rfl, rfl, rfl⟩
          · omega
        · rcases route_opened other with alsoOld | ⟨isFirst, _⟩ | ⟨_, rfl, rfl, rfl⟩
          · exact absurd isSecond (fresh alsoOld).2
          · omega
          · exact ⟨rfl, rfl, rfl⟩
      isLive := by
        intro shaper other source destination route isOpen
        rw [sessions]
        rcases route_opened route with old | ⟨rfl, rfl, rfl, rfl⟩ | ⟨rfl, rfl, rfl, rfl⟩
        · have apart := fresh old
          rw [others apart.1 apart.2] at isOpen
          obtain ⟨found, isFound, carries⟩ :=
            shaped.isLive shaper other source destination old isOpen
          have notSession : other ≠ session := by
            intro isSession
            rw [isSession, isFree] at isFound
            cases isFound
          rw [if_neg notSession]
          exact ⟨found, isFound, carries⟩
        · rw [if_pos rfl]
          exact ⟨_, rfl, .aToB⟩
        · rw [if_pos rfl]
          exact ⟨_, rfl, .bToA⟩
      queued := by
        intro shaper other source destination route item member
        rcases route_opened route with old | ⟨rfl, rfl, rfl, rfl⟩ | ⟨rfl, rfl, rfl, rfl⟩
        · have apart := fresh old
          rw [others apart.1 apart.2] at member
          exact (shaped.queued shaper other source destination old item member).append
        · rw [aToB] at member
          cases member
        · rw [bToA] at member
          cases member }

omit [F64 F] in
/-- A charged datagram is dropped, or goes to the shaper as it was sent. -/
theorem afterCharge_next (state : ServerState F) (registration : Registration)
    (session : UInt32) (payload : Bytes) (shaper : Nat) (allowed : Bool) :
    let after := afterCharge state registration session payload shaper allowed
    after.event = none ∧ after.spawned = [] ∧
      ∀ task ∈ after.next, task = .relayLoop registration ∨
        ∃ encoded, task = .enqueue registration session payload shaper encoded ∧
          encodeRelay session payload = .ok encoded := by
  unfold afterCharge
  simp only
  split
  · split
    · next encoded isEncoded =>
        refine ⟨rfl, rfl, ?_⟩
        intro task isNext
        cases isNext
        exact Or.inr ⟨encoded, rfl, isEncoded⟩
    · exact ⟨rfl, rfl, by simp⟩
  · exact ⟨rfl, rfl, by simp⟩

omit [F64 F] in
/-- The charge of a datagram, in either direction. -/
theorem relaySound_afterCharge (inv : RelayInv world) {registration : Registration}
    {session : UInt32} {payload : Bytes} {shaper : Nat} {destination : Bytes32} {allowed : Bool}
    {charged : ServerState F}
    (drained : Drained world.gate
      (afterCharge charged registration session payload shaper allowed).state)
    (route : Route world.history shaper session registration.key destination)
    (relayed : .relayed registration.key session payload ∈ world.history) :
    RelaySound world (afterCharge charged registration session payload shaper allowed) := by
  have shape := afterCharge_next charged registration session payload shaper allowed
  obtain ⟨noEvent, noneSpawned, follows⟩ := shape
  apply RelaySound.of_drained inv drained
  · simp [noEvent]
  · simp [noEvent]
  · intro task isNext
    rcases follows task isNext with isLoop | ⟨encoded, isEnqueue, isEncoded⟩
    · rw [isLoop]
      trivial
    · rw [isEnqueue]
      exact ⟨⟨destination, route.append⟩, List.mem_append_left _ relayed, isEncoded⟩
  · simp [noneSpawned]

theorem relaySound_forward (opened : Inv crypto community world) (inv : RelayInv world)
    {registration : Registration} {session : UInt32} {payload : Bytes} (ambient : Ambient)
    (relayed : .relayed registration.key session payload ∈ world.history) :
    RelaySound world (forward world.gate registration session payload ambient.now) := by
  have drained : Drained world.gate
      (forward world.gate registration session payload ambient.now).state :=
    drained_run crypto world.gate (.relay registration.id) ambient
      (.forward registration session payload) (by simp) (by simp)
  have forwarded := forwarded_forward world.gate registration session payload ambient.now
  generalize forward world.gate registration session payload ambient.now = outcome
    at forwarded drained ⊢
  cases forwarded with
  | refused stranger =>
      apply RelaySound.of_drained inv drained
      · simp [notOurs]
      · simp [notOurs]
      · simp [notOurs, RelayOk]
      · simp [notOurs]
  | aToB found isFound sender =>
      have route := (opened.live session found isFound).route .aToB
      rw [sender] at route
      exact relaySound_afterCharge inv drained route relayed
  | bToA found isFound other sender =>
      have route := (opened.live session found isFound).route .bToA
      rw [sender] at route
      exact relaySound_afterCharge inv drained route relayed

omit [F64 F] in
theorem relaySound_relayLoop (inv : RelayInv world) (registration : Registration)
    (ambient : Ambient) : RelaySound world (relayLoop world.gate registration ambient) := by
  unfold relayLoop
  split
  · exact .of_apart inv (.of_kept (Kept.refl _)) (.silent (by simp))
  · next datagram _ =>
      split
      · next session payload _ =>
          refine .of_drained inv (.of_kept (Kept.refl _)) (by simp) (by simp) ?_ (by simp)
          intro task isNext
          cases isNext
          exact List.mem_append_right _ List.mem_cons_self
      · exact .of_apart inv (.of_eq rfl rfl rfl rfl) (.silent (by simp [Task.relays]))

omit [F64 F] in
theorem relaySound_enqueue (inv : RelayInv world) {registration : Registration}
    {session : UInt32} {payload : Bytes} {shaper : Nat} {encoded : Bytes} {now : Nat}
    (known : RelayOk world.history (.enqueue registration session payload shaper encoded)) :
    RelaySound world (enqueue world.gate registration shaper encoded now) := by
  obtain ⟨⟨destination, route⟩, relayed, isEncoded⟩ := known
  have sent : Sent world.history registration.key session encoded :=
    ⟨payload, relayed, isEncoded, decodeRelay_encodeRelay isEncoded⟩
  have kept : Kept (world.gate.setShaper shaper
      ((world.gate.shapers shaper).enqueueOrDrop encoded now).1)
      (enqueue world.gate registration shaper encoded now).state := by
    unfold enqueue
    dsimp only
    split
    · dsimp only
      exact kept_count _ _
    · exact Kept.refl _
    · exact Kept.refl _
  have quiet : (enqueue world.gate registration shaper encoded now).event = none ∧
      (enqueue world.gate registration shaper encoded now).spawned = [] ∧
      (enqueue world.gate registration shaper encoded now).next =
        some (.relayLoop registration) := by
    unfold enqueue
    simp only
    split <;> exact ⟨rfl, rfl, rfl⟩
  obtain ⟨noEvent, noneSpawned, isNext⟩ := quiet
  have seated : Seated (world.gate.setShaper shaper
      ((world.gate.shapers shaper).enqueueOrDrop encoded now).1) := inv.seated
  exact
    { shaped := by
        rw [noEvent, Option.toList_none, List.append_nil]
        exact shaped_enqueue inv.shaped kept route sent
      seated := seated.within kept.registrations
      delivered := by simp [noEvent]
      next := by simp [isNext, RelayOk]
      spawned := by simp [noneSpawned] }

theorem relaySound_answerOpen (inv : RelayInv world) (registration : Registration)
    (tag : Bytes32) (knock : KnockState) (answeredAt : Nat) (ambient : Ambient) :
    RelaySound world
      (answerOpen world.gate handler registration tag knock answeredAt ambient) := by
  have opened := answerOpened_answerOpen world.gate handler registration tag knock answeredAt
    ambient
  generalize answerOpen world.gate handler registration tag knock answeredAt ambient = outcome
    at opened ⊢
  cases opened with
  | ended => exact .of_apart inv (.of_kept (Kept.refl _)) (.silent (by simp [Task.relays]))
  | drawing => exact .of_apart inv (.of_kept (Kept.refl _)) (.silent (by simp [Task.relays]))
  | created session requester target isFree =>
      exact
        { shaped := shaped_openSession inv.shaped isFree
          seated := inv.seated
          delivered := by simp [openSession]
          next := by
            intro task isNext
            cases isNext
            have noted : .opened handler session knock.requester knock.target tag answeredAt
                world.gate.allocated (world.gate.allocated + 1) ∈
                  world.history ++ [.opened handler session knock.requester knock.target tag
                    answeredAt world.gate.allocated (world.gate.allocated + 1)] :=
              List.mem_append_right _ List.mem_cons_self
            exact ⟨.aToB noted, .bToA noted⟩
          spawned := by simp [openSession] }

omit [F64 F] in
/-- The two drains start with the directions they carry. -/
theorem relaySound_answerNote (inv : RelayInv world) {registration : Registration}
    {tag : Bytes32} {knock : KnockState} {session : UInt32} {requester target : Registration}
    {aToBShaper bToAShaper : Nat}
    (known : RelayOk world.history (.answerNote registration tag knock session requester target
      aToBShaper bToAShaper)) :
    RelaySound world (answerNote world.gate registration tag knock session requester target
      aToBShaper bToAShaper) := by
  refine .of_drained inv (.of_kept (kept_answerNote _ _ _ _ _ _ _ _ _)) ?_ ?_ ?_ ?_
  · simp [answerNote]
  · simp [answerNote]
  · simp [answerNote, RelayOk]
  · intro entry member
    simp only [answerNote, List.mem_cons, List.not_mem_nil, or_false] at member
    rcases member with rfl | rfl
    · exact ⟨knock.requester, known.1.append⟩
    · exact ⟨knock.target, known.2.append⟩

/-- What a drain takes from its shaper was sent for its destination. -/
theorem relaySound_drain (inv : RelayInv world) {session : UInt32} {destinationKey : Bytes32}
    {shaper now : Nat} (known : RelayOk world.history (.drain session destinationKey shaper)) :
    RelaySound world (drain world.gate session destinationKey shaper now) := by
  obtain ⟨source, route⟩ := known
  have passed : Drained world.gate
      (world.gate.setShaper shaper ((world.gate.shapers shaper).drainPass now).1) :=
    drained_drainPass world.gate shaper now
  unfold drain
  simp only
  split
  · exact .of_apart inv passed (.silent (by simp))
  · next payloads ready =>
      refine .of_drained inv passed (by simp) (by simp) ?_ (by simp)
      intro task isNext
      cases isNext
      refine ⟨source, route.append, ?_⟩
      intro bytes member
      obtain ⟨queuedAt, queued⟩ := RelayShaper.mem_items_of_drainPass ready member
      exact (inv.shaped.queued shaper session source destinationKey route _ queued).append
  · refine .of_drained inv passed (by simp) (by simp) ?_ (by simp)
    intro task isNext
    cases isNext
    exact ⟨source, route.append⟩
  · refine .of_drained inv passed (by simp) (by simp) ?_ (by simp)
    intro task isNext
    cases isNext
    exact ⟨source, route.append⟩

omit [F64 F] in
theorem relaySound_drainSend (inv : RelayInv world) {session : UInt32} {destinationKey : Bytes32}
    {shaper : Nat} {destination : Registration} {payloads : List Bytes} {ambient : Ambient}
    (known : RelayOk world.history
      (.drainSend session destinationKey shaper destination payloads)) :
    RelaySound world
      (drainSend world.gate session destinationKey shaper destination payloads ambient) := by
  obtain ⟨isDestination, source, route, sent⟩ := known
  unfold drainSend
  split
  · refine .of_drained inv (.of_kept (Kept.refl _)) (by simp) (by simp) ?_ (by simp)
    intro task isNext
    cases isNext
    exact ⟨source, route.append⟩
  · next payload rest =>
      split
      · refine .of_drained inv (.of_kept (Kept.refl _)) (by simp) ?_ ?_ (by simp)
        · intro key bytes noted
          cases noted
          rw [isDestination]
          exact ⟨shaper, session, source, route.append, (sent payload List.mem_cons_self).append⟩
        · intro task isNext
          cases isNext
          refine ⟨isDestination, source, route.append, ?_⟩
          intro bytes member
          exact (sent bytes (List.mem_cons_of_mem payload member)).append
      · exact .of_apart inv (.of_kept (Kept.refl _)) (.silent (by simp))

/-- Every section of a handler that knows what it should keeps the invariant. -/
theorem relaySound_run (opened : Inv crypto community world) (inv : RelayInv world)
    {task : Task} (ambient : Ambient) (known : RelayOk world.history task) :
    RelaySound world (task.run crypto world.gate handler ambient) := by
  cases task with
  | relayLoop registration => exact relaySound_relayLoop inv registration ambient
  | forward registration session payload => exact relaySound_forward opened inv ambient known
  | enqueue registration session payload shaper encoded => exact relaySound_enqueue inv known
  | answerOpen registration tag knock answeredAt =>
      exact relaySound_answerOpen inv registration tag knock answeredAt ambient
  | answerNote registration tag knock session requester target aToBShaper bToAShaper =>
      exact relaySound_answerNote inv known
  | drain session destinationKey shaper => exact relaySound_drain inv known
  | drainCheck session destinationKey shaper payloads =>
      refine .of_drained inv (.of_kept (Kept.refl _)) (by simp [Task.run, drainCheck])
        (by simp [Task.run, drainCheck]) ?_ (by simp [Task.run, drainCheck])
      intro task isNext
      change task ∈ (if _ then _ else _ : Option Task) at isNext
      split at isNext
      · cases isNext
        exact RelayOk.append known
      · cases isNext
  | drainSeat session destinationKey shaper payloads =>
      refine .of_drained inv (.of_kept (Kept.refl _)) (by simp [Task.run, drainSeat])
        (by simp [Task.run, drainSeat]) ?_ (by simp [Task.run, drainSeat])
      intro task isNext
      obtain ⟨destination, isLast, rfl⟩ := Option.map_eq_some_iff.mp isNext
      exact ⟨inv.seated.lastOf isLast, RelayOk.append known⟩
  | drainSend session destinationKey shaper destination payloads =>
      exact relaySound_drainSend inv known
  | _ =>
      apply RelaySound.of_apart inv
      · exact drained_run crypto world.gate handler ambient _ (by simp) (by simp)
      · exact apart_run crypto world.gate handler ambient rfl (by simp) (by simp)

omit [F64 F] in
theorem seated_seat {state : ServerState F} (seated : Seated state)
    (registration : Registration) : Seated (seat state registration).1 := by
  have joined : ∀ list : List Registration, (∀ other ∈ list, other.key = registration.key) →
      Seated { state with registrations := state.registrations.put registration.key list } := by
    intro list own key current isCurrent other member
    change (state.registrations.put registration.key list).lookup key = some current at isCurrent
    rw [HashMap.lookup_put] at isCurrent
    split at isCurrent
    · next isKey =>
        cases isCurrent
        rw [isKey]
        exact own other member
    · exact seated key current isCurrent other member
  unfold seat
  split
  · split
    · exact seated
    · apply joined
      simp
  · next list isListed =>
      split
      · exact seated
      · apply joined
        intro other member
        rcases List.mem_append.mp member with before | isNew
        · exact seated registration.key list isListed other before
        · rw [List.mem_singleton.mp isNew]

/-- A new connection's tasks hold no datagram. -/
theorem relayInv_connect (inv : RelayInv world) (key : Bytes32) (observed : SocketAddr)
    (now : Nat) : RelayInv (world.connect key observed now) := by
  obtain ⟨registrations, counters, cells, gate⟩ := connect_gate world key observed now
  have history := connect_history world key observed now
  have seated : Seated (world.connect key observed now).gate := by
    have before : Seated (makeRegistration world.gate key observed now).1 := inv.seated
    have made := seated_seat before (makeRegistration world.gate key observed now).2
    unfold World.connect
    simp only
    split
    · exact made
    · exact made
  exact
    { shaped := by
        rw [gate, history]
        exact
          { bounded := by
              intro shaper session source destination route
              have below := inv.shaped.bounded shaper session source destination route
              show shaper < world.gate.allocated + 1
              omega
            unique := inv.shaped.unique
            isLive := inv.shaped.isLive
            queued := inv.shaped.queued }
      seated := seated
      delivered := by
        rw [history]
        exact inv.delivered
      task := by
        intro handler task present
        rw [history]
        rcases lookup_connect_tasks present with before | isNew
        · exact inv.task handler task before
        · rw [isNew]
          trivial }

/-- One action keeps it. -/
theorem relayInv_step (world : World F) (action : Action)
    (inv : Inv crypto community world ∧ RelayInv world) :
    Inv crypto community (world.step crypto action) ∧ RelayInv (world.step crypto action) := by
  refine ⟨inv_step world action inv.1, ?_⟩
  unfold World.step
  split
  · next key observed now =>
      split
      · exact inv.2
      · exact relayInv_connect inv.2 key observed now
  · next handler ambient =>
      split
      · exact inv.2
      · next task present =>
          split
          · exact inv.2
          · have known := inv.2.task handler task present
            exact relayInv_commit inv.2 (relaySound_run inv.1 inv.2 ambient known)

theorem relayInv_bind (capacity : Nat) :
    RelayInv (World.bind community capacity : World F) where
  shaped :=
    { bounded := by
        intro shaper session source destination route
        cases route with
        | aToB noted => cases noted
        | bToA noted => cases noted
      unique := by
        intro shaper session source destination otherSession otherSource otherDestination route
        cases route with
        | aToB noted => cases noted
        | bToA noted => cases noted
      isLive := by
        intro shaper session source destination route
        cases route with
        | aToB noted => cases noted
        | bToA noted => cases noted
      queued := by
        intro shaper session source destination route
        cases route with
        | aToB noted => cases noted
        | bToA noted => cases noted }
  seated := by
    intro key list found
    cases found
  delivered := by
    intro key bytes noted
    cases noted
  task := by
    intro handler task present
    change ((∅ : HashMap Handler Task).put .sweep .sweepLoop).lookup handler = some task at present
    rw [HashMap.lookup_put] at present
    split at present
    · cases present
      trivial
    · cases present

/-- Every run of the gate keeps it. -/
theorem relayInv_run (capacity : Nat) (actions : List Action) :
    RelayInv (run (World.step crypto) (World.bind community capacity : World F) actions) := by
  have both : Inv crypto community
        (run (World.step crypto) (World.bind community capacity : World F) actions) ∧
      RelayInv (run (World.step crypto) (World.bind community capacity : World F) actions) :=
    run_always relayInv_step ⟨inv_bind capacity, relayInv_bind capacity⟩ actions
  exact both.2

/-! ## Relayed datagrams are isolated -/

/-- Neither direction of the session was charged. -/
structure SessionState.Unspent (found current : SessionState F) : Prop where
  same : current.Same found
  aToB : current.aToB = found.aToB
  bToA : current.bToA = found.bToA

omit [F64 F] in
theorem SessionState.Unspent.of_eq {found current : SessionState F} (same : found = current) :
    found.Unspent current := by
  subst same
  exact ⟨.refl found, rfl, rfl⟩

/-- One datagram of a party was charged, to the direction it sends in. -/
def SessionState.Spent (found current : SessionState F) (key : Bytes32) (payload : Bytes)
    (now : Nat) : Prop :=
  (key = found.keyA ∧ current = (found.chargeAToB payload now).1) ∨
    (key = found.keyB ∧ current = (found.chargeBToA payload now).1)

omit [F64 F] in
theorem lookup_teardownSessions {state : ServerState F} {peerKey : Bytes32}
    {sessionIds : List UInt32} {later : Option (List (Bytes32 × Registration))}
    {session : UInt32} {current : SessionState F}
    (present : (teardownSessions state peerKey sessionIds later).state.sessions.lookup session =
      some current) : state.sessions.lookup session = some current := by
  rw [teardownSessions_state] at present
  revert present
  apply foldl_removeSession fun after => after.sessions.lookup session = some current →
    state.sessions.lookup session = some current
  · intro middle id found _ before present
    apply before
    change (middle.sessions.erase id).lookup session = some current at present
    rw [HashMap.lookup_erase] at present
    split at present
    · cases present
    · exact present
  · exact id

/-- Ids are not given back. -/
theorem allocated_run (crypto : Crypto) (state : ServerState F) (handler : Handler)
    (ambient : Ambient) (task : Task) :
    state.allocated ≤ (task.run crypto state handler ambient).state.allocated := by
  by_cases opens : ∃ registration tag knock answeredAt,
      task = .answerOpen registration tag knock answeredAt
  · obtain ⟨registration, tag, knock, answeredAt, rfl⟩ := opens
    have opened := answerOpened_answerOpen state handler registration tag knock answeredAt ambient
    show _ ≤ (answerOpen state handler registration tag knock answeredAt ambient).state.allocated
    generalize answerOpen state handler registration tag knock answeredAt ambient = outcome
      at opened ⊢
    cases opened with
    | ended => exact Nat.le_refl _
    | drawing => exact Nat.le_refl _
    | created => exact Nat.le_add_right _ 2
  · by_cases queues : ∃ registration session payload shaper encoded,
        task = .enqueue registration session payload shaper encoded
    · obtain ⟨registration, session, payload, shaper, encoded, rfl⟩ := queues
      show _ ≤ (enqueue state registration shaper encoded ambient.now).state.allocated
      unfold enqueue
      dsimp only
      split <;> exact Nat.le_refl _
    · apply Nat.le_of_eq
      symm
      exact (drained_run crypto state handler ambient task
        (fun registration tag knock answeredAt same =>
          opens ⟨registration, tag, knock, answeredAt, same⟩)
        (fun registration session payload shaper encoded same =>
          queues ⟨registration, session, payload, shaper, encoded, same⟩)).allocated

/-- What a section can make of a session: leave it, count a request of a party, or charge
it for a datagram of a party. -/
theorem session_run (crypto : Crypto) (state : ServerState F) (handler : Handler)
    (ambient : Ambient) (task : Task) {session : UInt32} {found current : SessionState F}
    (isFound : state.sessions.lookup session = some found)
    (isCurrent : (task.run crypto state handler ambient).state.sessions.lookup session =
      some current) :
    current = found ∨
      (∃ registration, task = .startRequest registration session ∧
        (found.keyA = registration.key ∨ found.keyB = registration.key) ∧
        current = { found with startRequests := found.startRequests + 1 }) ∨
      ∃ registration payload, task = .forward registration session payload ∧
        found.Spent current registration.key payload ambient.now := by
  have unchanged : (task.run crypto state handler ambient).state.sessions = state.sessions →
      current = found := by
    intro sessions
    rw [sessions, isFound] at isCurrent
    exact (Option.some.inj isCurrent).symm
  by_cases elsewhere : task.writesTables = false
  · exact Or.inl (unchanged (kept_run crypto state handler ambient elsewhere).sessions)
  · cases task with
    | introduceRecord registration tag ttlS sealedBytes targetKey target =>
        exact Or.inl (unchanged rfl)
    | answer registration tag accept =>
        left
        apply unchanged
        show (answer state handler registration tag accept).state.sessions = state.sessions
        unfold answer
        split
        · rfl
        · split <;> rfl
    | answerOpen registration tag knock answeredAt =>
        left
        change (answerOpen state handler registration tag knock answeredAt
          ambient).state.sessions.lookup session = some current at isCurrent
        have opened := answerOpened_answerOpen state handler registration tag knock answeredAt
          ambient
        generalize answerOpen state handler registration tag knock answeredAt ambient = outcome
          at opened isCurrent
        cases opened with
        | ended =>
            rw [isFound] at isCurrent
            exact (Option.some.inj isCurrent).symm
        | drawing =>
            rw [isFound] at isCurrent
            exact (Option.some.inj isCurrent).symm
        | created fresh requester target isFree =>
            have apart : session ≠ fresh := by
              intro isFresh
              rw [← isFresh, isFound] at isFree
              cases isFree
            change (state.sessions.put fresh _).lookup session = some current at isCurrent
            rw [HashMap.lookup_put, if_neg apart, isFound] at isCurrent
            exact (Option.some.inj isCurrent).symm
    | startRequest registration other =>
        change (startRequest state registration other ambient.now).state.sessions.lookup session =
          some current at isCurrent
        unfold startRequest at isCurrent
        simp only at isCurrent
        split at isCurrent
        · change state.sessions.lookup session = some current at isCurrent
          rw [isFound] at isCurrent
          exact Or.inl (Option.some.inj isCurrent).symm
        · next requested isRequested =>
            split at isCurrent
            · change state.sessions.lookup session = some current at isCurrent
              rw [isFound] at isCurrent
              exact Or.inl (Option.some.inj isCurrent).symm
            · next party =>
                have put : (state.sessions.put other
                    { requested with startRequests := requested.startRequests + 1 }).lookup session =
                      some current := by
                  split at isCurrent <;> exact isCurrent
                rw [HashMap.lookup_put] at put
                split at put
                · next isOther =>
                    rw [← isOther, isFound] at isRequested
                    cases isRequested
                    cases put
                    right
                    left
                    refine ⟨registration, by rw [isOther], ?_, rfl⟩
                    exact (Decidable.not_and_iff_not_or_not.mp party).imp
                      Decidable.not_not.mp Decidable.not_not.mp
                · rw [isFound] at put
                  exact Or.inl (Option.some.inj put).symm
    | teardownSessions peerKey sessionIds later =>
        left
        have before := lookup_teardownSessions isCurrent
        rw [isFound] at before
        exact (Option.some.inj before).symm
    | forward registration other payload =>
        change (forward state registration other payload ambient.now).state.sessions.lookup
          session = some current at isCurrent
        have forwarded := forwarded_forward state registration other payload ambient.now
        generalize forward state registration other payload ambient.now = outcome
          at forwarded isCurrent
        cases forwarded with
        | refused stranger =>
            change state.sessions.lookup session = some current at isCurrent
            rw [isFound] at isCurrent
            exact Or.inl (Option.some.inj isCurrent).symm
        | aToB charged isCharged sender =>
            rw [(kept_afterCharge _ registration other payload _ _).sessions,
              HashMap.lookup_put] at isCurrent
            split at isCurrent
            · next isOther =>
                rw [← isOther, isFound] at isCharged
                cases isCharged
                cases isCurrent
                right
                right
                exact ⟨registration, payload, by rw [isOther], Or.inl ⟨sender.symm, rfl⟩⟩
            · rw [isFound] at isCurrent
              exact Or.inl (Option.some.inj isCurrent).symm
        | bToA charged isCharged notA sender =>
            rw [(kept_afterCharge _ registration other payload _ _).sessions,
              HashMap.lookup_put] at isCurrent
            split at isCurrent
            · next isOther =>
                rw [← isOther, isFound] at isCharged
                cases isCharged
                cases isCurrent
                right
                right
                exact ⟨registration, payload, by rw [isOther], Or.inr ⟨sender.symm, rfl⟩⟩
            · rw [isFound] at isCurrent
              exact Or.inl (Option.some.inj isCurrent).symm
    | enqueue registration other payload shaper encoded =>
        left
        apply unchanged
        show (enqueue state registration shaper encoded ambient.now).state.sessions = state.sessions
        unfold enqueue
        simp only
        split <;> rfl
    | drain other destinationKey shaper =>
        left
        apply unchanged
        show (drain state other destinationKey shaper ambient.now).state.sessions = state.sessions
        unfold drain
        simp only
        split <;> rfl
    | sweepKnocks now => exact Or.inl (unchanged rfl)
    | _ => exact absurd rfl elsewhere

/-- Only the `forward` of a datagram for the session charges it, and for a party. -/
theorem spent_run (crypto : Crypto) (state : ServerState F) (handler : Handler)
    (ambient : Ambient) (task : Task) {session : UInt32} {found current : SessionState F}
    (isFound : state.sessions.lookup session = some found)
    (isCurrent : (task.run crypto state handler ambient).state.sessions.lookup session =
      some current) :
    found.Unspent current ∨
      ∃ registration payload, task = .forward registration session payload ∧
        found.Spent current registration.key payload ambient.now := by
  rcases session_run crypto state handler ambient task isFound isCurrent with
    same | ⟨_, _, _, requested⟩ | spent
  · exact Or.inl (.of_eq same.symm)
  · subst requested
    exact Or.inl ⟨⟨rfl, rfl, rfl, rfl⟩, rfl, rfl⟩
  · exact Or.inr spent

/-- A queue loses from its front, or gains at its end one datagram, which the sender of
the direction of a live session sent. -/
theorem queued_run (inv : RelayInv world) (ambient : Ambient) {task : Task}
    (known : RelayOk world.history task) (shaper : Nat) :
    let after := (task.run crypto world.gate handler ambient).state
    (after.shapers shaper).items <:+ (world.gate.shapers shaper).items ∨
      ∃ registration session payload encoded found destination,
        task = .enqueue registration session payload shaper encoded ∧
        .relayed registration.key session payload ∈ world.history ∧
        encodeRelay session payload = .ok encoded ∧
        world.gate.sessions.lookup session = some found ∧
        found.Carries shaper registration.key destination ∧
        (after.shapers shaper).items =
          (world.gate.shapers shaper).items ++ [(ambient.now, encoded)] := by
  intro after
  by_cases isOpen : ∃ registration tag knock answeredAt,
      task = .answerOpen registration tag knock answeredAt
  · obtain ⟨registration, tag, knock, answeredAt, rfl⟩ := isOpen
    left
    change ((answerOpen world.gate handler registration tag knock answeredAt
      ambient).state.shapers shaper).items <:+ _
    have opened := answerOpened_answerOpen world.gate handler registration tag knock answeredAt
      ambient
    generalize answerOpen world.gate handler registration tag knock answeredAt ambient = outcome
      at opened ⊢
    cases opened with
    | ended => exact List.suffix_refl _
    | drawing => exact List.suffix_refl _
    | created session requester target isFree =>
        exact (items_setShaper _ (world.gate.allocated + 1) List.nil_suffix shaper).trans
          (items_setShaper _ world.gate.allocated List.nil_suffix shaper)
  · by_cases isQueue : ∃ registration session payload queue encoded,
        task = .enqueue registration session payload queue encoded
    · obtain ⟨registration, session, payload, queue, encoded, rfl⟩ := isQueue
      obtain ⟨⟨destination, route⟩, relayed, isEncoded⟩ := known
      have items : (after.shapers shaper).items =
          (Function.update world.gate.shapers queue
            ((world.gate.shapers queue).enqueueOrDrop encoded ambient.now).1 shaper).items := by
        show ((enqueue world.gate registration queue encoded ambient.now).state.shapers
          shaper).items = _
        unfold enqueue
        simp only
        split <;> rfl
      by_cases isShaper : shaper = queue
      · subst isShaper
        rw [Function.update_self] at items
        rw [items]
        rcases RelayShaper.enqueueOrDrop_items (world.gate.shapers shaper) encoded ambient.now with
          same | ⟨isOpen, added⟩
        · rw [same]
          exact Or.inl (List.suffix_refl _)
        · obtain ⟨found, isFound, carries⟩ :=
            inv.shaped.isLive shaper session registration.key destination route isOpen
          right
          exact ⟨registration, session, payload, encoded, found, destination, rfl, relayed,
            isEncoded, isFound, carries, added⟩
      · rw [items, Function.update_of_ne isShaper]
        exact Or.inl (List.suffix_refl _)
    · left
      have drained := drained_run crypto world.gate handler ambient task
        (fun registration tag knock answeredAt same =>
          isOpen ⟨registration, tag, knock, answeredAt, same⟩)
        (fun registration session payload queue encoded same =>
          isQueue ⟨registration, session, payload, queue, encoded, same⟩)
      exact drained.items shaper

/-- An action that runs no section leaves the sessions and the shapers alone. -/
theorem step_cases (crypto : Crypto) (world : World F) (action : Action) :
    ((world.step crypto action).gate.sessions = world.gate.sessions ∧
        (world.step crypto action).gate.shapers = world.gate.shapers) ∨
      ∃ handler ambient task, action = .resume handler ambient ∧
        world.tasks.lookup handler = some task ∧
        (world.step crypto action).gate = (task.run crypto world.gate handler ambient).state := by
  unfold World.step
  split
  · next key observed now =>
      split
      · exact Or.inl ⟨rfl, rfl⟩
      · obtain ⟨registrations, counters, cells, gate⟩ := connect_gate world key observed now
        rw [gate]
        exact Or.inl ⟨rfl, rfl⟩
  · next handler ambient =>
      split
      · exact Or.inl ⟨rfl, rfl⟩
      · next task isAt =>
          split
          · exact Or.inl ⟨rfl, rfl⟩
          · exact Or.inr ⟨handler, ambient, task, rfl, isAt, rfl⟩

/-- A datagram that is nobody's in the table changes one counter. -/
theorem forward_of_stranger {state : ServerState F} {registration : Registration}
    {session : UInt32} {payload : Bytes} {now : Nat}
    (stranger : ∀ found, state.sessions.lookup session = some found →
      found.keyA ≠ registration.key ∧ found.keyB ≠ registration.key) :
    forward state registration session payload now = notOurs state registration := by
  have forwarded := forwarded_forward state registration session payload now
  generalize forward state registration session payload now = outcome at forwarded ⊢
  cases forwarded with
  | refused _ => rfl
  | aToB found isFound sender => exact absurd sender (stranger found isFound).1
  | bToA found isFound other sender => exact absurd sender (stranger found isFound).2

/-- In every run of the gate, over any order of its handlers' sections:
a queue gains a datagram only from a party of a live session, on the direction towards
the other key and with the session's id and payload as they were sent; a session's
budgets are spent only by its own parties' datagrams, each by its own sender's; a
datagram of any other key, or for a session that is not live, changes one counter; and
what is delivered to a key was sent for it, by the other key of the session. -/
theorem relay_isolated (crypto : Crypto) (community : Bytes32) (capacity : Nat)
    (actions : List Action) :
    let world := run (World.step crypto) (World.bind community capacity : World F) actions
    (∀ action shaper, let after := world.step crypto action
      (after.gate.shapers shaper).items <:+ (world.gate.shapers shaper).items ∨
        ∃ handler ambient registration session payload encoded found destination,
          action = .resume handler ambient ∧
          world.tasks.lookup handler =
            some (.enqueue registration session payload shaper encoded) ∧
          .relayed registration.key session payload ∈ world.history ∧
          encodeRelay session payload = .ok encoded ∧
          world.gate.sessions.lookup session = some found ∧
          found.Carries shaper registration.key destination ∧
          (after.gate.shapers shaper).items =
            (world.gate.shapers shaper).items ++ [(ambient.now, encoded)]) ∧
    (∀ action session found current,
      world.gate.sessions.lookup session = some found →
      (world.step crypto action).gate.sessions.lookup session = some current →
        found.Unspent current ∨
          ∃ handler ambient registration payload, action = .resume handler ambient ∧
            world.tasks.lookup handler = some (.forward registration session payload) ∧
            .relayed registration.key session payload ∈ world.history ∧
            found.Spent current registration.key payload ambient.now) ∧
    (∀ handler ambient registration session payload,
      world.tasks.lookup handler = some (.forward registration session payload) →
      (∀ found, world.gate.sessions.lookup session = some found →
        found.keyA ≠ registration.key ∧ found.keyB ≠ registration.key) →
        world.step crypto (.resume handler ambient) =
          { world with
              gate := world.gate.count fun counters =>
                { counters with relaySenderMismatch := counters.relaySenderMismatch + 1 }
              tasks := world.tasks.put handler (.relayLoop registration) }) ∧
    ∀ key bytes, .delivered key bytes ∈ world.history → Addressed world.history key bytes := by
  intro world
  have inv : RelayInv world := relayInv_run capacity actions
  refine ⟨?_, ?_, ?_, inv.delivered⟩
  · intro action shaper after
    rcases step_cases crypto world action with
      ⟨_, shapers⟩ | ⟨handler, ambient, task, isResume, isAt, gate⟩
    · left
      show ((world.step crypto action).gate.shapers shaper).items <:+ _
      rewrite [shapers]
      exact List.suffix_refl _
    · have known := inv.task handler task isAt
      show ((world.step crypto action).gate.shapers shaper).items <:+ _ ∨ _
      simp only [after, gate]
      rcases queued_run inv ambient known shaper with
        lost | ⟨registration, session, payload, encoded, found, destination, rfl, queued⟩
      · exact Or.inl lost
      · right
        exact ⟨handler, ambient, registration, session, payload, encoded, found, destination,
          isResume, isAt, queued⟩
  · intro action session found current isFound isCurrent
    rcases step_cases crypto world action with
      ⟨sessions, _⟩ | ⟨handler, ambient, task, isResume, isAt, gate⟩
    · rw [sessions, isFound] at isCurrent
      exact Or.inl (.of_eq (Option.some.inj isCurrent))
    · rw [gate] at isCurrent
      rcases spent_run crypto world.gate handler ambient task isFound isCurrent with
        unspent | ⟨registration, payload, rfl, spent⟩
      · exact Or.inl unspent
      · have relayed := inv.task handler _ isAt
        exact Or.inr ⟨handler, ambient, registration, payload, isResume, isAt, relayed, spent⟩
  · intro handler ambient registration session payload isAt stranger
    have stepped : world.step crypto (.resume handler ambient) =
        world.commit handler (forward world.gate registration session payload ambient.now) := by
      simp only [World.step, isAt]
      rfl
    rw [stepped, forward_of_stranger stranger]
    simp [World.commit, notOurs]

end Invariant

/-! ### One datagram -/

/-- The datagram the requester sends over session 7. -/
def hello : Bytes := relayDiscriminator :: [0, 0, 0, 7, 104, 105]

/-- The introduction, and a datagram from the requester to the target. -/
def conversation : List Action :=
  introduction ++
  [.resume (.control 1) { now := 2 }, .resume (.relay 0) { now := 3, datagram := some hello },
    .resume (.relay 0) { now := 3 }, .resume (.relay 0) { now := 3 }] ++
  List.replicate 4 (.resume (.drain 2) { now := fromSecs 3 })

/-- The datagram reached the target because the requester sent it to the target. -/
theorem relay_isolated_conversation :
    Addressed (run (World.step pairCrypto) (World.bind zero32 2 : World Nat) conversation).history
      targetKey hello :=
  (relay_isolated pairCrypto zero32 2 conversation).2.2.2 targetKey hello (by decide +kernel)

end Mosschat.Net.Gate.Server
