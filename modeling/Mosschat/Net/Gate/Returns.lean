import Mosschat.Net.Gate.TableRuns

/-!
Owns what the handler of a connection leaves behind: over every order of the handlers'
sections, where each `Registered` is written and no remembered id is drawn, a
registration stays listed only while its handler runs, and no session outlives it.

Does not own what a handler does before its registration is seated.
-/

namespace Mosschat.Net.Gate.Server

open Mosschat.Core Mosschat.Library Mosschat.Library.Cbor Mosschat.Library.Machine

section Returns

variable {F : Type}

/-! ## What a handler is still to do -/

/-- The handler is still to tear the registration down, and the registration holds the
session; or it has read the session out, and is about to remove it. -/
def Task.owes (state : ServerState F) (id : Nat) (session : UInt32) (task : Task) : Prop :=
  ((∃ entry ∈ task.carries, entry.2.id = id) ∧ Holds state id session) ∨
    ∃ peerKey sessionIds later, task = .teardownSessions peerKey sessionIds later ∧
      session ∈ sessionIds

/-- Every listed registration has its handler, which is still to tear it down. -/
def Accompanied (world : World F) : Prop :=
  ∀ key registration, Listed world.gate key registration →
    ∃ task, world.tasks.lookup (.control registration.id) = some task ∧
      (key, registration) ∈ task.carries

/-- What the table has under the id is newer than `since`, or the handler owes its
removal. -/
def Owed (since id : Nat) (session : UInt32) (world : World F) : Prop :=
  ∀ current, world.gate.sessions.lookup session = some current →
    since ≤ current.aToBShaper ∨
      ∃ task, world.tasks.lookup (.control id) = some task ∧ task.owes world.gate id session

/-- Where the action is the write of a `Registered`, it succeeds. -/
def World.writesRegistered (world : World F) : Action → Bool
  | .connect .. => true
  | .resume handler ambient =>
    match world.tasks.lookup handler with
    | some (.register _) => ambient.written
    | _ => true

theorem carried_afterTeardown {later : Option (List (Bytes32 × Registration))}
    {entry : Bytes32 × Registration} (member : entry ∈ later.getD []) :
    ∃ following ∈ afterTeardown later, entry ∈ following.carries := by
  cases later with
  | none => cases member
  | some rest =>
      cases rest with
      | nil => cases member
      | cons first others => exact ⟨_, rfl, member⟩

theorem carries_dispatch (registration : Registration) (frame : Frame) :
    (dispatch registration frame).carries = [(registration.key, registration)] := by
  cases frame <;> rfl

section Sections

variable [F64 F]

/-- What a section carries, whatever follows it carries too, but for the registration
whose ids were just read. -/
theorem carried_run (crypto : Crypto) (state : ServerState F) (handler : Handler)
    (ambient : Ambient) {task : Task}
    (written : ∀ registration, task = .register registration → ambient.written = true)
    {entry : Bytes32 × Registration} (member : entry ∈ task.carries) :
    (∃ following ∈ (task.run crypto state handler ambient).next, entry ∈ following.carries) ∨
      ∃ peerKey registration later, task = .teardownIds peerKey registration later ∧
        entry = (peerKey, registration) := by
  cases task with
  | register registration =>
      left
      have isWritten := written registration rfl
      show ∃ following ∈ (register state registration ambient).next, _
      unfold register
      dsimp only
      rw [if_pos isWritten]
      exact ⟨_, rfl, member⟩
  | controlLoop registration =>
      left
      show ∃ following ∈ (controlLoop state registration ambient).next, _
      unfold controlLoop
      split
      · exact ⟨_, rfl, member⟩
      · next frame _ =>
          dsimp only
          split
          · refine ⟨_, rfl, ?_⟩
            rw [carries_dispatch]
            exact member
          · exact ⟨_, rfl, member⟩
  | keepalive registration =>
      left
      show ∃ following ∈ (keepalive state registration ambient.now).next, _
      unfold keepalive
      dsimp only
      split <;> exact ⟨_, rfl, member⟩
  | introduce registration tag ttlS sealedBytes =>
      left
      show ∃ following ∈ (introduce state registration tag ttlS sealedBytes ambient.now).next, _
      unfold introduce
      dsimp only
      split <;> exact ⟨_, rfl, member⟩
  | introduceTarget registration tag ttlS sealedBytes =>
      left
      show ∃ following ∈ (introduceTarget crypto state registration tag ttlS sealedBytes).next, _
      unfold introduceTarget
      split <;> exact ⟨_, rfl, member⟩
  | introduceSeat registration tag ttlS sealedBytes targetKey =>
      left
      show ∃ following ∈ (introduceSeat state registration tag ttlS sealedBytes targetKey).next, _
      unfold introduceSeat
      split <;> exact ⟨_, rfl, member⟩
  | introduceRecord => exact Or.inl ⟨_, rfl, member⟩
  | introduceSend => exact Or.inl ⟨_, rfl, member⟩
  | answer registration tag accept =>
      left
      show ∃ following ∈ (answer state handler registration tag accept).next, _
      unfold answer
      split
      · exact ⟨_, rfl, member⟩
      · split <;> exact ⟨_, rfl, member⟩
  | answerCheck registration tag accept knock =>
      left
      show ∃ following ∈ (answerCheck state registration tag accept knock ambient.now).next, _
      unfold answerCheck
      split
      · exact ⟨_, rfl, member⟩
      · split <;> exact ⟨_, rfl, member⟩
  | answerOpen registration tag knock answeredAt =>
      left
      show ∃ following ∈
        (answerOpen state handler registration tag knock answeredAt ambient).next, _
      have opened := answerOpened_answerOpen state handler registration tag knock answeredAt ambient
      generalize answerOpen state handler registration tag knock answeredAt ambient = outcome
        at opened ⊢
      cases opened with
      | ended => exact ⟨_, rfl, member⟩
      | drawing => exact ⟨_, rfl, member⟩
      | created => exact ⟨_, rfl, member⟩
  | answerNote => exact Or.inl ⟨_, rfl, member⟩
  | startRequest registration session =>
      left
      show ∃ following ∈ (startRequest state registration session ambient.now).next, _
      unfold startRequest
      dsimp only
      split
      · exact ⟨_, rfl, member⟩
      · split
        · exact ⟨_, rfl, member⟩
        · split <;> exact ⟨_, rfl, member⟩
  | startSend => exact Or.inl ⟨_, rfl, member⟩
  | teardown peerKey registration later =>
      left
      rw [Task.run, teardown_next]
      exact ⟨_, rfl, member⟩
  | teardownIds peerKey registration later =>
      rcases List.mem_cons.mp member with isHead | inLater
      · exact Or.inr ⟨peerKey, registration, later, rfl, isHead⟩
      · left
        show ∃ following ∈ (teardownIds state peerKey registration later).next, _
        rcases teardownIds_cases peerKey registration later state with ⟨_, isOutcome⟩ | isOutcome
        · rw [isOutcome]
          exact carried_afterTeardown inLater
        · rw [isOutcome]
          exact ⟨_, rfl, inLater⟩
  | teardownSessions peerKey sessionIds later =>
      left
      show ∃ following ∈ (teardownSessions state peerKey sessionIds later).next, _
      unfold teardownSessions
      dsimp only
      split
      · exact carried_afterTeardown member
      · exact ⟨_, rfl, member⟩
  | teardownOrphans orphaned later => exact Or.inl (carried_afterTeardown member)
  | relayLoop | forward | enqueue | writer | drain | drainCheck | drainSeat | drainSend
  | sweepLoop | sweepKnocks | sweepExpired => cases member

/-! ## One action -/

variable {world : World F}

/-- An action does nothing, seats a connection, or runs one section. -/
theorem step_kinds (crypto : Crypto) (world : World F) (action : Action) :
    world.step crypto action = world ∨
      (∃ key observed now, world.step crypto action = world.connect key observed now) ∨
      ∃ handler ambient task, action = .resume handler ambient ∧
        world.tasks.lookup handler = some task ∧
        (task.takesRegistrations = true → world.registrationsHeld = false) ∧
        world.step crypto action =
          world.commit handler (task.run crypto world.gate handler ambient) := by
  unfold World.step
  split
  · next key observed now =>
      split
      · exact Or.inl rfl
      · exact Or.inr (Or.inl ⟨key, observed, now, rfl⟩)
  · next handler ambient =>
      split
      · exact Or.inl rfl
      · next task isAt =>
          split
          · exact Or.inl rfl
          · next notBlocked =>
              right
              right
              refine ⟨handler, ambient, task, rfl, isAt, ?_, rfl⟩
              intro takes
              rw [takes, Bool.true_and] at notBlocked
              exact Bool.eq_false_iff.mpr notBlocked

omit [F64 F] in
theorem written_of_writesRegistered {handler : Handler} {ambient : Ambient} {task : Task}
    (isAt : world.tasks.lookup handler = some task)
    (written : world.writesRegistered (.resume handler ambient) = true) :
    ∀ registration, task = .register registration → ambient.written = true := by
  rintro registration rfl
  unfold World.writesRegistered at written
  simp only [isAt] at written
  exact written

/-- The handler of every connection that was there stays where it was. -/
theorem lookup_connect_old (placed : Placed world) (key : Bytes32) (observed : SocketAddr)
    (now : Nat) {id : Nat} {task : Task}
    (isFound : world.tasks.lookup (.control id) = some task) :
    (world.connect key observed now).tasks.lookup (.control id) = some task := by
  unfold World.connect
  dsimp only
  split
  · dsimp only
    rw [HashMap.lookup_put, if_neg]
    · exact isFound
    · intro isNew
      have isId : id = world.gate.allocated := Handler.control.inj isNew
      have made := placed.control id task isFound
      omega
  · exact isFound

/-- The handler of a connection that was seated is at its answer. -/
theorem lookup_connect_new (world : World F) (key : Bytes32) (observed : SocketAddr) (now : Nat)
    (isSeated : (seat (makeRegistration world.gate key observed now).1
      (makeRegistration world.gate key observed now).2).2 = true) :
    (world.connect key observed now).tasks.lookup (.control world.gate.allocated) =
      some (.register (makeRegistration world.gate key observed now).2) := by
  unfold World.connect
  dsimp only
  rw [if_pos isSeated]
  exact (HashMap.lookup_put _ _ _ _).trans (if_pos rfl)

theorem accompanied_step (crypto : Crypto) (tidy : Tidy world) (accompanied : Accompanied world)
    (action : Action) (unremembered : world.drawsUnremembered action = true)
    (written : world.writesRegistered action = true) :
    Accompanied (world.step crypto action) := by
  rcases step_kinds crypto world action with
    same | ⟨key, observed, now, isConnect⟩ | ⟨handler, ambient, task, rfl, isAt, unlocked, isCommit⟩
  · rw [same]
    exact accompanied
  · rw [isConnect]
    intro there registration isListed
    rcases (listed_connect world key observed now there registration).mp isListed with
      before | ⟨isSeated, isKey, isNew⟩
    · obtain ⟨task, isFound, carried⟩ := accompanied there registration before
      exact ⟨task, lookup_connect_old tidy.placed key observed now isFound, carried⟩
    · refine ⟨.register (makeRegistration world.gate key observed now).2, ?_, ?_⟩
      · rw [isNew]
        exact lookup_connect_new world key observed now isSeated
      · rw [isKey, isNew]
        exact List.mem_singleton_self _
  · rw [isCommit]
    have moves := moves_run crypto tidy ambient isAt unlocked unremembered
    intro key registration isListed
    have before := moves.places.listed key registration isListed
    obtain ⟨found, isFound, carried⟩ := accompanied key registration before
    rw [lookup_commit_unspawned moves.places.beside rfl]
    by_cases isHandler : Handler.control registration.id = handler
    · rw [isHandler, isAt] at isFound
      cases isFound
      rw [if_pos isHandler]
      have onward := carried_run crypto world.gate handler ambient
        (written_of_writesRegistered isAt written) carried
      rcases onward with ⟨following, isNext, still⟩ | ⟨peerKey, torn, later, isIds, isEntry⟩
      · exact ⟨following, isNext, still⟩
      · -- its ids are being read: it is listed no more
        have isTorn : registration = torn := (Prod.mk.inj isEntry).2
        rw [isIds] at isAt
        have unlisted := tidy.placed.seized handler peerKey torn later isAt key registration before
        rw [isTorn] at unlisted
        exact absurd rfl unlisted
    · rw [if_neg isHandler]
      exact ⟨found, isFound, carried⟩

/-- What a handler owes it still owes after its next section, while the table has the
session. -/
theorem owes_run (crypto : Crypto) {handler : Handler} (ambient : Ambient) {task : Task}
    {id : Nat} {session : UInt32}
    (written : ∀ registration, task = .register registration → ambient.written = true)
    (owes : task.owes world.gate id session)
    (held : (∃ entry ∈ task.carries, entry.2.id = id) → Holds world.gate id session →
      Holds (task.run crypto world.gate handler ambient).state id session)
    {current : SessionState F}
    (isCurrent : (task.run crypto world.gate handler ambient).state.sessions.lookup session =
      some current) :
    ∃ following ∈ (task.run crypto world.gate handler ambient).next,
      following.owes (task.run crypto world.gate handler ambient).state id session := by
  rcases owes with ⟨⟨entry, carried, isId⟩, isHeld⟩ | ⟨peerKey, sessionIds, later, rfl, named⟩
  · have stillHeld := held ⟨entry, carried, isId⟩ isHeld
    have onward := carried_run crypto world.gate handler ambient written carried
    rcases onward with ⟨following, isNext, still⟩ | ⟨peerKey, torn, later, rfl, isEntry⟩
    · exact ⟨following, isNext, Or.inl ⟨⟨entry, still, isId⟩, stillHeld⟩⟩
    · rw [isEntry] at isId
      have isTorn : torn.id = id := isId
      rcases teardownIds_cases peerKey torn later world.gate with ⟨unheld, _⟩ | isOutcome
      · rw [← isTorn] at isHeld
        exact absurd isHeld (unheld session)
      · rw [Task.run, isOutcome]
        refine ⟨_, rfl, Or.inr ⟨peerKey, _, later, rfl, ?_⟩⟩
        rw [← holds_iff_mem_keys, isTorn]
        exact isHeld
  · -- the session was just removed
    rw [Task.run, teardownSessions_state] at isCurrent
    have removed := (removed_foldl peerKey sessionIds (world.gate, [])).sessions session
    rw [if_pos named] at removed
    rw [removed] at isCurrent
    cases isCurrent

theorem owed_step (crypto : Crypto) (tidy : Tidy world) {since id : Nat} {session : UInt32}
    (made : since ≤ world.gate.allocated) (owed : Owed since id session world) (action : Action)
    (unremembered : world.drawsUnremembered action = true)
    (written : world.writesRegistered action = true) :
    Owed since id session (world.step crypto action) := by
  rcases stepped_step crypto tidy action unremembered with unmoved | stepped
  · rw [unmoved]
    exact owed
  · intro current isCurrent
    rcases stepped.sessions session current isCurrent with ⟨found, isFound, sameShaper⟩ | isNew
    · rw [sameShaper]
      rcases owed found isFound with newer | ⟨task, isAt, owes⟩
      · exact Or.inl newer
      · right
        -- the table still has the session, so its registration still holds it
        have held : (∃ entry ∈ task.carries, entry.2.id = id) → Holds world.gate id session →
            Holds (world.step crypto action).gate id session := by
          rintro ⟨entry, carried, isId⟩ isHeld
          have isTorn : world.links.torn entry.1 id :=
            ⟨.control id, task, isAt, entry, carried, rfl, isId⟩
          have isJoined : (world.step crypto action).links.joins session current.keyA :=
            ⟨current, isCurrent, Or.inl rfl⟩
          exact stepped.move.holds_of_joins tidy.links isTorn isHeld isJoined
        have waits : task.owes (world.step crypto action).gate id session := by
          rcases owes with ⟨carried, isHeld⟩ | named
          · exact Or.inl ⟨carried, held carried isHeld⟩
          · exact Or.inr named
        rcases step_kinds crypto world action with same | ⟨key, observed, now, isConnect⟩ |
          ⟨handler, ambient, running, rfl, isRunning, unlocked, isCommit⟩
        · exact ⟨task, by rw [same]; exact isAt, waits⟩
        · refine ⟨task, ?_, waits⟩
          rw [isConnect]
          exact lookup_connect_old tidy.placed key observed now isAt
        · have moves := moves_run crypto tidy ambient isRunning unlocked unremembered
          rw [isCommit] at held isCurrent waits ⊢
          rw [lookup_commit_unspawned moves.places.beside rfl]
          by_cases isHandler : Handler.control id = handler
          · rw [isHandler, isRunning] at isAt
            cases isAt
            rw [if_pos isHandler]
            exact owes_run crypto ambient (written_of_writesRegistered isRunning written) owes held
              isCurrent
          · rw [if_neg isHandler]
            exact ⟨task, isAt, waits⟩
    · exact Or.inl (made.trans isNew)

/-! ## No registration outlives its handler -/

/-- No remembered id is drawn, and a `Registered` that is written goes out. -/
def World.sound (world : World F) (action : Action) : Prop :=
  world.drawsUnremembered action = true ∧ world.writesRegistered action = true

instance (world : World F) (action : Action) : Decidable (world.sound action) :=
  inferInstanceAs (Decidable (_ ∧ _))

/-- A registration that was listed, and whose handler has returned, is in no list, and
the table has none of the sessions it held: what it has under the id of one is newer. -/
def LeavesNothing (crypto : Crypto) (start : World F) (actions : List Action) : Prop :=
  ∀ before after key registration, actions = before ++ after →
    let earlier := run (World.step crypto) start before
    let world := run (World.step crypto) start actions
    Listed earlier.gate key registration →
      world.tasks.lookup (.control registration.id) = none →
        (∀ there other, Listed world.gate there other → other.id ≠ registration.id) ∧
        ∀ session, Holds earlier.gate registration.id session →
          ∀ current, world.gate.sessions.lookup session = some current →
            earlier.gate.allocated ≤ current.aToBShaper

theorem accompanied_bind (community : Bytes32) (capacity : Nat) :
    Accompanied (World.bind community capacity : World F) := by
  rintro key registration ⟨list, isListed, _⟩
  cases isListed

/-- What a run keeps. -/
theorem accompanied_run (crypto : Crypto) {start : World F} {actions : List Action}
    (initial : Tidy start ∧ Accompanied start)
    (guarded : Guarded (World.step crypto) World.sound start actions) :
    Tidy (run (World.step crypto) start actions) ∧
      Accompanied (run (World.step crypto) start actions) := by
  have kept : ∀ (world : World F) (action : Action), Tidy world ∧ Accompanied world →
      world.sound action →
      Tidy (world.step crypto action) ∧ Accompanied (world.step crypto action) := by
    rintro world action ⟨tidy, accompanied⟩ sound
    exact ⟨tidy_step crypto world action tidy sound.1,
      accompanied_step crypto tidy accompanied action sound.1 sound.2⟩
  exact run_preserves kept initial guarded

/-- What was owed is owed, or was done. -/
theorem owed_run (crypto : Crypto) {start : World F} {actions : List Action} {since id : Nat}
    {session : UInt32} (tidy : Tidy start) (made : since ≤ start.gate.allocated)
    (owed : Owed since id session start)
    (guarded : Guarded (World.step crypto) World.sound start actions) :
    Owed since id session (run (World.step crypto) start actions) := by
  have kept : ∀ (world : World F) (action : Action),
      Tidy world ∧ since ≤ world.gate.allocated ∧ Owed since id session world →
      world.sound action →
      Tidy (world.step crypto action) ∧ since ≤ (world.step crypto action).gate.allocated ∧
        Owed since id session (world.step crypto action) := by
    rintro world action ⟨isTidy, isMade, isOwed⟩ sound
    refine ⟨tidy_step crypto world action isTidy sound.1, ?_,
      owed_step crypto isTidy isMade isOwed action sound.1 sound.2⟩
    rcases stepped_step crypto isTidy action sound.1 with same | stepped
    · rw [same]
      exact isMade
    · exact isMade.trans stepped.allocated
  exact (run_preserves kept ⟨tidy, made, owed⟩ guarded).2.2

/-- In every run of the gate in which every `Registered` that is written goes out, and no
session is created under an id that a handler still remembers from a teardown: whatever
else fails, a handler that has returned leaves its registration in no list and none of
its sessions in the table. -/
theorem registration_ends_with_handler (crypto : Crypto) (community : Bytes32) (capacity : Nat)
    (actions : List Action)
    (guarded : Guarded (World.step crypto) World.sound
      (World.bind community capacity : World F) actions) :
    LeavesNothing crypto (World.bind community capacity : World F) actions := by
  intro before after key registration isSplit earlier world isListed isGone
  have initial : Tidy (World.bind community capacity : World F) ∧
      Accompanied (World.bind community capacity : World F) :=
    ⟨tidy_bind community capacity, accompanied_bind community capacity⟩
  have atEnd : Accompanied world := (accompanied_run crypto initial guarded).2
  rw [isSplit, guarded_append] at guarded
  have start : Tidy earlier ∧ Accompanied earlier := accompanied_run crypto initial guarded.1
  constructor
  · intro there other isOther sameId
    obtain ⟨task, isFound, _⟩ := atEnd there other isOther
    rw [sameId, isGone] at isFound
    cases isFound
  · intro session isHeld current isCurrent
    obtain ⟨task, isFound, carried⟩ := start.2 key registration isListed
    have owed : Owed earlier.gate.allocated registration.id session earlier := by
      intro found _
      exact Or.inr ⟨task, isFound, Or.inl ⟨⟨_, carried, rfl⟩, isHeld⟩⟩
    have reached : world = run (World.step crypto) earlier after := by
      show run _ _ actions = _
      rw [isSplit, run_append]
    have settled := owed_run crypto start.1 (Nat.le_refl _) owed guarded.2
    rw [← reached] at settled
    rcases settled current isCurrent with newer | ⟨other, isOther, _⟩
    · exact newer
    · rw [isGone] at isOther
      cases isOther

end Sections

end Returns

/-! ### A handler that returns -/

/-- Once both houses were introduced the requester leaves, and takes the session along. -/
theorem registration_ends_with_handler_farewell :
    LeavesNothing pairCrypto (World.bind zero32 2 : World Nat) farewell :=
  registration_ends_with_handler pairCrypto zero32 2 farewell (by decide +kernel)

/-- A connection that is lost while its registration is answered. -/
def unanswered : List Action :=
  [.connect requesterKey houseAddr 0, .resume (.control 0) { now := 0, written := false }]

/-- The handler returns, and its registration stays listed. -/
theorem registration_outlives_handler :
    ¬LeavesNothing pairCrypto (World.bind zero32 2 : World Nat) unanswered := by
  intro leaves
  have seated : Listed (run (World.step pairCrypto) (World.bind zero32 2 : World Nat)
      unanswered).gate requesterKey ⟨0, requesterKey, houseAddr⟩ :=
    ⟨[⟨0, requesterKey, houseAddr⟩], by decide, List.mem_singleton_self _⟩
  have gone := leaves unanswered [] requesterKey ⟨0, requesterKey, houseAddr⟩
    (List.append_nil _).symm seated (by decide)
  exact gone.1 requesterKey ⟨0, requesterKey, houseAddr⟩ seated rfl

end Mosschat.Net.Gate.Server
