import Mosschat.Net.Gate.TableTeardown

/-!
Owns the moves that open: that the two sections of an answer which create and note a
session, and the seating of a new connection, are moves of the gate's tables.

Does not own who may open a session.
-/

namespace Mosschat.Net.Gate.Server

open Mosschat.Core Mosschat.Library Mosschat.Library.Cbor Mosschat.Library.Machine

section Moves

variable {F : Type} {world : World F} {handler : Handler}

/-! ### `answerOpen` -/

section AnswerOpen

variable [F64 F] {registration requester target : Registration} {tag : Bytes32}
  {knock : KnockState} {answeredAt now : Nat} {session : UInt32}

omit [F64 F] in
theorem listed_lastOf {state : ServerState F} {key : Bytes32} {found : Registration}
    (isLast : state.lastOf key = some found) : Listed state key found := by
  obtain ⟨list, isListed, atEnd⟩ := Option.bind_eq_some_iff.mp isLast
  exact ⟨list, isListed, List.mem_of_getLast? atEnd⟩

omit [F64 F] in
theorem Task.forgets {state : ServerState F} {task : Task}
    (forgotten : task.remembers state session = false) :
    session ∉ task.names ∧ ∀ entry ∈ task.carries, ¬Holds state entry.2.id session := by
  unfold Task.remembers at forgotten
  rw [Bool.or_eq_false_iff, List.any_eq_false] at forgotten
  refine ⟨?_, ?_⟩
  · simpa using forgotten.1
  · intro entry member isHeld
    apply forgotten.2 entry member
    rw [isHeld]
    rfl

theorem places_openSession
    (requesterRoom : (world.gate.cells requester.id).sessions.entries.length <
      limits.maxSessionsPerRegistration)
    (targetRoom : (world.gate.cells target.id).sessions.entries.length <
      limits.maxSessionsPerRegistration) :
    Places world (.answerOpen registration tag knock answeredAt)
      (openSession world.gate handler registration tag knock answeredAt session requester target
        now) where
  beside := ⟨by simp [Task.inert], by simp [openSession]⟩
  allocated := Nat.le_add_right _ 2
  listed _ _ isListed := isListed
  carried := by
    intro following isNext entry member
    cases isNext
    exact Or.inl member
  seized := by
    intro _ _ _ isNext
    cases isNext
  holding := fun _ _ _ => rfl
  room := by
    intro _ _ _ _ _ _ _ _ isNext
    cases isNext
    exact ⟨requesterRoom, targetRoom⟩
  shrinks := fun _ _ => Nat.le_refl _

theorem slotted_openSession (slotted : Slotted world.gate) :
    Slotted (openSession world.gate handler registration tag knock answeredAt session requester
      target now).state where
  sized := slotted.sized
  apart := slotted.apart
  made := by
    intro key other isListed
    have before := slotted.made key other isListed
    exact ⟨before.1, Nat.lt_add_right 2 before.2⟩
  bounded := slotted.bounded
  few := slotted.few

/-- A session under an id no handler remembers is a new link. -/
theorem create_openSession (placed : Placed world)
    (isAt : world.tasks.lookup handler = some (.answerOpen registration tag knock answeredAt))
    (isFree : world.gate.sessions.lookup session = none)
    (forgotten : ∀ other task, world.tasks.lookup other = some task →
      task.remembers world.gate session = false)
    (isRequester : world.gate.lastOf knock.requester = some requester)
    (isTarget : world.gate.lastOf knock.target = some target) :
    Links.Create world.links
      (world.commit handler (openSession world.gate handler registration tag knock answeredAt
        session requester target now)).links
      session knock.requester knock.target requester.id target.id := by
  have beside : (openSession world.gate handler registration tag knock answeredAt session
      requester target now).Beside (.answerOpen registration tag knock answeredAt) :=
    ⟨by simp [Task.inert], by simp [openSession]⟩
  constructor
  · rintro key ⟨found, isFound, _⟩
    rw [isFree] at isFound
    cases isFound
  · rintro key ⟨other, task, isFound, dooms⟩
    have forgets := Task.forgets (forgotten other task isFound)
    cases task with
    | teardownIds peerKey seized later => exact forgets.2 _ List.mem_cons_self dooms.2
    | teardownSessions peerKey sessionIds later => exact forgets.1 dooms.2
    | _ => exact dooms
  · rintro key ⟨other, task, isFound, orphans⟩
    have forgets := Task.forgets (forgotten other task isFound)
    cases task with
    | teardownOrphans orphaned later => exact forgets.1 (List.mem_map_of_mem orphans)
    | _ => exact orphans
  · rintro key id ⟨other, task, isFound, entry, member, _, isId⟩
    rw [← isId]
    exact (Task.forgets (forgotten other task isFound)).2 entry member
  · exact ⟨requester, listed_lastOf isRequester, rfl⟩
  · exact ⟨target, listed_lastOf isTarget, rfl⟩
  · intro isSame
    rw [isSame, isTarget] at isRequester
    cases isRequester
    rfl
  · exact fun _ _ => Iff.rfl
  · exact fun _ _ => Iff.rfl
  · intro other key
    show (∃ found, (world.gate.sessions.put session _).lookup other = some found ∧ _) ↔ _
    rw [HashMap.lookup_put]
    by_cases isSession : other = session
    · subst isSession
      simp [World.links, isFree]
    · simp [World.links, isSession]
  · intro key id
    apply torn_commit placed isAt beside
    intro following isNext entry member
    cases isNext
    exact member
  · intro key other
    show (world.commit handler _).At (Task.dooms _ key other) ↔ world.At _
    rw [at_commit placed isAt beside (not_dooms_inert _ key other), at_iff isAt]
    apply or_congr
    · simp [openSession, Task.dooms]
    · constructor
      · intro elsewhere
        exact elsewhere.imp fun _ _ _ => (Task.dooms_congr fun _ => Iff.rfl).mp
      · intro elsewhere
        exact elsewhere.imp fun _ _ _ => (Task.dooms_congr fun _ => Iff.rfl).mpr
  · intro key other
    show (world.commit handler _).At _ ↔ world.At _
    rw [at_commit placed isAt beside (not_orphans_inert key other), at_iff isAt]
    simp [openSession, Task.orphans]
  · intro other key id
    show (world.commit handler _).At _ ↔ world.At _ ∨ _
    rw [at_commit placed isAt beside (not_notes_inert other key id), at_iff isAt]
    simp only [openSession, Option.mem_def, Option.some.injEq, exists_eq_left', Task.notes,
      false_or]
    rw [or_comm, eq_comm]

end AnswerOpen

/-! ### `answerNote` -/

section AnswerNote

variable {registration requester target : Registration} {tag : Bytes32}
  {knock : KnockState} {session : UInt32} {aToBShaper bToAShaper : Nat}

theorem holds_noteSession (state : ServerState F) (noted : Registration) (id : Nat)
    (other : UInt32) :
    Holds (state.noteSession noted session) id other ↔
      Holds state id other ∨ (other = session ∧ id = noted.id) := by
  unfold Holds ServerState.noteSession ServerState.setCells
  dsimp only
  by_cases isNoted : id = noted.id
  · subst isNoted
    rw [Function.update_self]
    dsimp only
    rw [HashMap.lookup_put]
    by_cases isSession : other = session
    · simp [isSession]
    · simp [isSession]
  · rw [Function.update_of_ne isNoted]
    simp [isNoted]

theorem few_noteSession (state : ServerState F) (noted : Registration)
    (room : ¬Holds state noted.id session →
      (state.cells noted.id).sessions.entries.length < limits.maxSessionsPerRegistration)
    (few : ∀ id, (state.cells id).sessions.entries.length ≤ limits.maxSessionsPerRegistration)
    (id : Nat) :
    ((state.noteSession noted session).cells id).sessions.entries.length ≤
      limits.maxSessionsPerRegistration := by
  show (Function.update state.cells noted.id _ id).sessions.entries.length ≤ _
  by_cases isNoted : id = noted.id
  · subst isNoted
    rw [Function.update_self]
    dsimp only
    rw [HashMap.length_put]
    split
    · exact few noted.id
    · next absent =>
        have unheld : ¬Holds state noted.id session := by
          intro isHeld
          exact absent (AList.lookup_isSome.mp (by rw [isHeld]; rfl))
        exact room unheld
  · rw [Function.update_of_ne isNoted]
    exact few id

theorem answerNote_state (state : ServerState F) :
    Undisturbed ((state.noteSession requester session).noteSession target session)
      (answerNote state registration tag knock session requester target aToBShaper
        bToAShaper).state := by
  unfold answerNote
  dsimp only
  apply Undisturbed.trans _ (undisturbed_sendFrame _ target _)
  exact undisturbed_sendFrame _ requester _

theorem beside_answerNote (state : ServerState F) :
    (answerNote state registration tag knock session requester target aToBShaper
      bToAShaper).Beside (.answerNote registration tag knock session requester target aToBShaper
        bToAShaper) where
  next := by simp [Task.inert]
  spawned := by simp [answerNote, Handler.spawnable, Task.inert]

theorem places_answerNote :
    Places world
      (.answerNote registration tag knock session requester target aToBShaper bToAShaper)
      (answerNote world.gate registration tag knock session requester target aToBShaper
        bToAShaper) := by
  have state : Undisturbed ((world.gate.noteSession requester session).noteSession target session)
      (answerNote world.gate registration tag knock session requester target aToBShaper
        bToAShaper).state := answerNote_state world.gate
  apply Places.of_next (beside_answerNote world.gate)
  · exact state.allocated
  · exact fun _ _ => state.listed.mp
  · intro following isNext
    cases isNext
    exact ⟨rfl, fun entry member => Or.inl member⟩
  · intro settled
    cases settled

theorem slotted_answerNote (slotted : Slotted world.gate)
    (requesterRoom : (world.gate.cells requester.id).sessions.entries.length <
      limits.maxSessionsPerRegistration)
    (targetRoom : (world.gate.cells target.id).sessions.entries.length <
      limits.maxSessionsPerRegistration) :
    Slotted (answerNote world.gate registration tag knock session requester target aToBShaper
      bToAShaper).state := by
  apply (answerNote_state world.gate).slotted
  have afterFirst : ∀ id,
      ((world.gate.noteSession requester session).cells id).sessions.entries.length ≤
        limits.maxSessionsPerRegistration :=
    few_noteSession world.gate requester (fun _ => requesterRoom) slotted.few
  have targetStill : ¬Holds (world.gate.noteSession requester session) target.id session →
      ((world.gate.noteSession requester session).cells target.id).sessions.entries.length <
        limits.maxSessionsPerRegistration := by
    intro unheld
    rw [holds_noteSession, not_or, not_and] at unheld
    have apart := unheld.2 rfl
    show (Function.update world.gate.cells requester.id _ target.id).sessions.entries.length < _
    rw [Function.update_of_ne apart]
    exact targetRoom
  exact
    { sized := slotted.sized
      apart := slotted.apart
      made := slotted.made
      bounded := slotted.bounded
      few := few_noteSession _ target targetStill afterFirst }

/-- The two registrations come to hold the session. -/
theorem note_answerNote (tidy : Tidy world)
    (isAt : world.tasks.lookup handler = some
      (.answerNote registration tag knock session requester target aToBShaper bToAShaper)) :
    Links.Note world.links
      (world.commit handler (answerNote world.gate registration tag knock session requester
        target aToBShaper bToAShaper)).links
      session := by
  have placed := tidy.placed
  have beside : (answerNote world.gate registration tag knock session requester target aToBShaper
      bToAShaper).Beside (.answerNote registration tag knock session requester target aToBShaper
        bToAShaper) := beside_answerNote world.gate
  have state : Undisturbed ((world.gate.noteSession requester session).noteSession target session)
      (answerNote world.gate registration tag knock session requester target aToBShaper
        bToAShaper).state := answerNote_state world.gate
  have held : ∀ id other,
      Holds (answerNote world.gate registration tag knock session requester target aToBShaper
        bToAShaper).state id other ↔
        Holds world.gate id other ∨
          (other = session ∧ (id = requester.id ∨ id = target.id)) := by
    intro id other
    rw [state.holds, holds_noteSession, holds_noteSession, or_assoc, ← and_or_left]
  -- nobody else notes anything, for this handler holds the lock
  have onlyHere : ∀ other key id, world.At (Task.notes other key id) →
      other = session ∧
        ((key = knock.requester ∧ id = requester.id) ∨ (key = knock.target ∧ id = target.id)) := by
    rintro other key id ⟨there, found, isFound, notes⟩
    have isHere := placed.alone there handler found _ isFound isAt (Task.holds_of_notes notes) rfl
    rw [isHere, isAt] at isFound
    cases isFound
    exact ⟨notes.1.symm, notes.2⟩
  have atRequester : world.links.noting session knock.requester requester.id :=
    ⟨handler, _, isAt, rfl, Or.inl ⟨rfl, rfl⟩⟩
  have atTarget : world.links.noting session knock.target target.id :=
    ⟨handler, _, isAt, rfl, Or.inr ⟨rfl, rfl⟩⟩
  constructor
  · intro key id
    simp only [World.links, World.commit, state.listed]
    exact Iff.rfl
  · intro id other
    show Holds (answerNote world.gate registration tag knock session requester target aToBShaper
        bToAShaper).state id other ↔ _
    rw [held]
    apply or_congr Iff.rfl
    apply and_congr_right
    intro isSession
    constructor
    · rintro (isRequester | isTarget)
      · rw [isRequester]
        exact ⟨_, atRequester⟩
      · rw [isTarget]
        exact ⟨_, atTarget⟩
    · rintro ⟨key, isNoting⟩
      rcases (onlyHere session key id isNoting).2 with ⟨_, isRequester⟩ | ⟨_, isTarget⟩
      · exact Or.inl isRequester
      · exact Or.inr isTarget
  · intro other key
    exact state.joins
  · intro key id
    apply torn_commit placed isAt beside
    intro following isNext entry member
    cases isNext
    exact member
  · intro key other
    show (world.commit handler _).At (Task.dooms (answerNote world.gate registration tag knock
      session requester target aToBShaper bToAShaper).state key other) ↔ world.At _
    rw [at_commit placed isAt beside (not_dooms_inert _ key other), at_iff isAt]
    -- a registration whose sessions are about to be read is not listed, and gets no new one
    have sameElsewhere : ∀ there (found : Task), world.tasks.lookup there = some found →
        (found.dooms (answerNote world.gate registration tag knock session requester target
          aToBShaper bToAShaper).state key other ↔ found.dooms world.gate key other) := by
      intro there found isFound
      cases found with
      | teardownIds peerKey seized rest =>
          apply and_congr Iff.rfl
          rw [held]
          constructor
          · rintro (isHeld | ⟨_, isRequester | isTarget⟩)
            · exact isHeld
            · obtain ⟨listed, isListed, isId⟩ :=
                (tidy.links.noting session knock.requester requester.id atRequester).2.1
              exact absurd (isId.trans isRequester.symm)
                (placed.seized there peerKey seized rest isFound _ listed isListed)
            · obtain ⟨listed, isListed, isId⟩ :=
                (tidy.links.noting session knock.target target.id atTarget).2.1
              exact absurd (isId.trans isTarget.symm)
                (placed.seized there peerKey seized rest isFound _ listed isListed)
          · exact Or.inl
      | _ => exact Iff.rfl
    apply or_congr
    · simp [answerNote, Task.dooms]
    · constructor
      · intro elsewhere
        exact elsewhere.imp fun there found isFound => (sameElsewhere there found isFound).mp
      · intro elsewhere
        exact elsewhere.imp fun there found isFound => (sameElsewhere there found isFound).mpr
  · intro key other
    show (world.commit handler _).At _ ↔ world.At _
    rw [at_commit placed isAt beside (not_orphans_inert key other), at_iff isAt]
    simp [answerNote, Task.orphans]
  · intro other key id
    show (world.commit handler _).At _ ↔ world.At _ ∧ _
    rw [at_commit placed isAt beside (not_notes_inert other key id)]
    constructor
    · rintro (⟨following, isNext, notes⟩ | ⟨there, found, apart, isFound, notes⟩)
      · cases isNext
        exact notes.elim
      · exact absurd (placed.alone there handler found _ isFound isAt
          (Task.holds_of_notes notes) rfl) apart
    · rintro ⟨isNoting, apart⟩
      exact absurd (onlyHere other key id isNoting).1 apart

end AnswerNote

end Moves

/-! ## A new connection -/

section Connect

variable {F : Type}

theorem listed_seat (state : ServerState F) (registration : Registration) (key : Bytes32)
    (other : Registration) :
    Listed (seat state registration).1 key other ↔
      Listed state key other ∨
        ((seat state registration).2 = true ∧ key = registration.key ∧ other = registration) := by
  -- setting the key's list to what it was and the new registration
  have joined : ∀ list : List Registration,
      (∀ other, other ∈ (state.registrations.lookup registration.key).getD [] ↔ other ∈ list) →
      (Listed { state with
          registrations := state.registrations.put registration.key (list ++ [registration]) }
          key other ↔
        Listed state key other ∨ (key = registration.key ∧ other = registration)) := by
    intro list isList
    show (∃ found, (state.registrations.put registration.key (list ++ [registration])).lookup key =
      some found ∧ other ∈ found) ↔ (∃ found, _ ∧ other ∈ found) ∨ _
    rw [HashMap.lookup_put]
    by_cases isKey : key = registration.key
    · subst isKey
      rw [if_pos rfl]
      simp only [Option.some.injEq, exists_eq_left', List.mem_append, List.mem_singleton,
        true_and, ← isList]
      apply or_congr _ Iff.rfl
      cases state.registrations.lookup registration.key with
      | none => simp
      | some list => simp
    · simp [isKey]
  unfold seat
  split
  · next absent =>
      split
      · show Listed state key other ↔ _
        simp
      · have alone := joined [] (by simp [absent])
        simpa using alone
  · next list isListed =>
      split
      · show Listed state key other ↔ _
        simp
      · have more := joined list (by simp [isListed])
        simpa using more

theorem slotted_seat {state : ServerState F} (slotted : Slotted state)
    (registration : Registration) (made : registration.id < state.allocated)
    (isNew : ∀ key other, Listed state key other → other.id ≠ registration.id) :
    Slotted (seat state registration).1 := by
  obtain ⟨registrations, counters, frame⟩ := seat_eq state registration
  have grown : ∀ key list,
      (seat state registration).1.registrations.lookup key = some list →
        state.registrations.lookup key = some list ∨
          ∃ old, list = old ++ [registration] ∧ old.length < limits.maxConnectionsPerKey ∧
            (old.map Registration.id).Nodup ∧ ∀ other ∈ old, other.id ≠ registration.id := by
    intro key list isListed
    unfold seat at isListed
    split at isListed
    · split at isListed
      · exact Or.inl isListed
      · dsimp only at isListed
        rw [HashMap.lookup_put] at isListed
        split at isListed
        · cases isListed
          exact Or.inr ⟨[], rfl, by decide, List.nodup_nil, by simp⟩
        · exact Or.inl isListed
    · next old isOld =>
        split at isListed
        · exact Or.inl isListed
        · next room =>
            dsimp only at isListed
            rw [HashMap.lookup_put] at isListed
            split at isListed
            · cases isListed
              refine Or.inr ⟨old, rfl, Nat.lt_of_not_le room,
                slotted.apart registration.key old isOld, ?_⟩
              intro other member
              exact isNew registration.key other ⟨old, isOld, member⟩
            · exact Or.inl isListed
  constructor
  · intro key list isListed
    rcases grown key list isListed with before | ⟨old, isList, room, _⟩
    · exact slotted.sized key list before
    · rw [isList, List.length_append, List.length_singleton]
      omega
  · intro key list isListed
    rcases grown key list isListed with before | ⟨old, isList, _, apart, elsewhere⟩
    · exact slotted.apart key list before
    · rw [isList, List.map_append, List.map_singleton, List.nodup_append]
      refine ⟨apart, List.nodup_singleton _, ?_⟩
      intro id member other isOther
      obtain ⟨there, inside, isId⟩ := List.mem_map.mp member
      rw [List.mem_singleton.mp isOther, ← isId]
      exact elsewhere there inside
  · intro key other isListed
    rw [frame]
    rcases (listed_seat state registration key other).mp isListed with
      before | ⟨_, isKey, isRegistration⟩
    · exact slotted.made key other before
    · rw [isKey, isRegistration]
      exact ⟨rfl, made⟩
  · unfold seat
    split
    · next absent =>
        split
        · exact slotted.bounded
        · next room =>
            have vacant : registration.key ∉ state.registrations := AList.lookup_eq_none.mp absent
            show (state.registrations.put registration.key [registration]).entries.length ≤ _
            rw [HashMap.length_put, if_neg vacant]
            exact Nat.lt_of_not_le room
    · next old isOld =>
        split
        · exact slotted.bounded
        · have occupied : registration.key ∈ state.registrations :=
            AList.lookup_isSome.mp (by rw [isOld]; rfl)
          show (state.registrations.put registration.key _).entries.length ≤ _
          rw [HashMap.length_put, if_pos occupied]
          exact slotted.bounded
  · intro id
    rw [frame]
    exact slotted.few id

variable [F64 F]

theorem makeRegistration_slotted {state : ServerState F} (slotted : Slotted state)
    (key : Bytes32) (observed : SocketAddr) (now : Nat) :
    Slotted (makeRegistration state key observed now).1 where
  sized := slotted.sized
  apart := slotted.apart
  made := by
    intro there other isListed
    have before := slotted.made there other isListed
    exact ⟨before.1, Nat.lt_succ_of_lt before.2⟩
  bounded := slotted.bounded
  few := by
    intro id
    show (Function.update state.cells state.allocated _ id).sessions.entries.length ≤ _
    by_cases isNew : id = state.allocated
    · rw [isNew, Function.update_self]
      exact Nat.zero_le _
    · rw [Function.update_of_ne isNew]
      exact slotted.few id

theorem holds_makeRegistration (state : ServerState F) (key : Bytes32) (observed : SocketAddr)
    (now : Nat) (id : Nat) (session : UInt32) :
    Holds (makeRegistration state key observed now).1 id session ↔
      Holds state id session ∧ id ≠ state.allocated := by
  show (Function.update state.cells state.allocated _ id).sessions.lookup session = _ ↔ _
  by_cases isNew : id = state.allocated
  · subst isNew
    rw [Function.update_self]
    simp [RegistrationCells.new]
  · rw [Function.update_of_ne isNew]
    exact (and_iff_left isNew).symm

variable {world : World F}

/-- The handler of a new connection is at its answer where its registration was seated,
and nothing else changes place. -/
theorem at_connect (placed : Placed world) (key : Bytes32) (observed : SocketAddr) (now : Nat)
    (meets : Task → Prop) :
    (world.connect key observed now).At meets ↔
      world.At meets ∨
        ((seat (makeRegistration world.gate key observed now).1
          (makeRegistration world.gate key observed now).2).2 = true ∧
            meets (.register (makeRegistration world.gate key observed now).2)) := by
  unfold World.connect
  dsimp only
  split
  · next isSeated =>
      rw [isSeated]
      unfold World.At
      dsimp only
      constructor
      · rintro ⟨other, found, isFound, isMet⟩
        rw [HashMap.lookup_put] at isFound
        split at isFound
        · cases isFound
          exact Or.inr ⟨rfl, isMet⟩
        · exact Or.inl ⟨other, found, isFound, isMet⟩
      · rintro (⟨other, found, isFound, isMet⟩ | ⟨_, isMet⟩)
        · refine ⟨other, found, ?_, isMet⟩
          rw [HashMap.lookup_put, if_neg]
          · exact isFound
          · intro isNew
            rw [isNew] at isFound
            exact Nat.lt_irrefl _ (placed.control _ found isFound)
        · exact ⟨_, _, by rw [HashMap.lookup_put, if_pos rfl], isMet⟩
  · next isRefused =>
      have same : ({ world with gate := (seat (makeRegistration world.gate key observed now).1
          (makeRegistration world.gate key observed now).2).1 } : World F).At meets ↔
            world.At meets := Iff.rfl
      rw [same]
      simp [isRefused]

theorem connect_gate_eq (world : World F) (key : Bytes32) (observed : SocketAddr) (now : Nat) :
    (world.connect key observed now).gate =
      (seat (makeRegistration world.gate key observed now).1
        (makeRegistration world.gate key observed now).2).1 := by
  unfold World.connect
  dsimp only
  split <;> rfl

theorem slotted_connect (slotted : Slotted world.gate) (key : Bytes32) (observed : SocketAddr)
    (now : Nat) : Slotted (world.connect key observed now).gate := by
  rw [connect_gate_eq]
  apply slotted_seat (makeRegistration_slotted slotted key observed now)
  · exact Nat.lt_succ_self _
  · intro there other isListed
    exact Nat.ne_of_lt (slotted.made there other isListed).2

theorem listed_connect (world : World F) (key : Bytes32) (observed : SocketAddr) (now : Nat)
    (there : Bytes32) (other : Registration) :
    Listed (world.connect key observed now).gate there other ↔
      Listed world.gate there other ∨
        ((seat (makeRegistration world.gate key observed now).1
          (makeRegistration world.gate key observed now).2).2 = true ∧ there = key ∧
            other = (makeRegistration world.gate key observed now).2) := by
  rw [connect_gate_eq, listed_seat]
  rfl

theorem cells_connect (world : World F) (key : Bytes32) (observed : SocketAddr) (now : Nat) :
    (world.connect key observed now).gate.cells =
      (makeRegistration world.gate key observed now).1.cells := by
  obtain ⟨registrations, counters, frame⟩ := seat_eq
    (makeRegistration world.gate key observed now).1
    (makeRegistration world.gate key observed now).2
  rw [connect_gate_eq, frame]

theorem holds_connect (world : World F) (key : Bytes32) (observed : SocketAddr) (now : Nat)
    (id : Nat) (session : UInt32) :
    Holds (world.connect key observed now).gate id session ↔
      Holds world.gate id session ∧ id ≠ world.gate.allocated := by
  rw [← holds_makeRegistration world.gate key observed now]
  unfold Holds
  rw [cells_connect]

theorem lookup_connect_of_ne {key : Bytes32} {observed : SocketAddr} {now : Nat}
    {handler : Handler} {task : Task} (apart : handler ≠ .control world.gate.allocated)
    (isFound : (world.connect key observed now).tasks.lookup handler = some task) :
    world.tasks.lookup handler = some task := by
  unfold World.connect at isFound
  dsimp only at isFound
  split at isFound
  · dsimp only at isFound
    rw [HashMap.lookup_put] at isFound
    split at isFound
    · next isNew => exact absurd isNew apart
    · exact isFound
  · exact isFound

theorem placed_connect (placed : Placed world) (key : Bytes32)
    (observed : SocketAddr) (now : Nat) : Placed (world.connect key observed now) := by
  obtain ⟨registrations, counters, cells, gate⟩ := connect_gate world key observed now
  have allocated : (world.connect key observed now).gate.allocated = world.gate.allocated + 1 := by
    rw [gate]
  exact
    { inert := by
        intro handler task isFound isSpawnable
        by_cases isNew : handler = .control world.gate.allocated
        · rw [isNew] at isSpawnable
          cases isSpawnable
        · exact placed.inert handler task (lookup_connect_of_ne isNew isFound) isSpawnable
      control := by
        intro id task isFound
        rw [allocated]
        by_cases isNew : id = world.gate.allocated
        · rw [isNew]
          exact Nat.lt_succ_self _
        · have apart : Handler.control id ≠ .control world.gate.allocated := by
            intro isHandler
            cases isHandler
            exact isNew rfl
          exact Nat.lt_succ_of_lt (placed.control id task (lookup_connect_of_ne apart isFound))
      carried := by
        intro handler task isFound entry member
        rw [allocated]
        rcases lookup_connect_tasks isFound with before | isNew
        · have carried := placed.carried handler task before entry member
          exact ⟨carried.1, Nat.lt_succ_of_lt carried.2⟩
        · rw [isNew] at member
          rw [List.mem_singleton.mp member]
          exact ⟨rfl, Nat.lt_succ_self _⟩
      seized := by
        intro handler peerKey registration later isFound there other isListed
        rcases lookup_connect_tasks isFound with before | isNew
        · rcases (listed_connect world key observed now there other).mp isListed with
            alsoBefore | ⟨_, _, isOther⟩
          · exact placed.seized handler peerKey registration later before there other alsoBefore
          · have carried := (placed.carried handler _ before _ List.mem_cons_self).2
            rw [isOther]
            exact (Nat.ne_of_lt carried).symm
        · cases isNew
      alone := by
        intro handler other task otherTask isFound isOther holds alsoHolds
        rcases lookup_connect_tasks isFound with before | isNew
        · rcases lookup_connect_tasks isOther with alsoBefore | isNew
          · exact placed.alone handler other task otherTask before alsoBefore holds alsoHolds
          · rw [isNew] at alsoHolds
            cases alsoHolds
        · rw [isNew] at holds
          cases holds
      room := by
        intro handler registration tag knock session requester target aToBShaper bToAShaper
          isFound
        have fewer : ∀ id, ((world.connect key observed now).gate.cells id).sessions.entries.length
            ≤ (world.gate.cells id).sessions.entries.length := by
          intro id
          rw [cells_connect]
          show (Function.update world.gate.cells world.gate.allocated _ id).sessions.entries.length
            ≤ _
          by_cases isNew : id = world.gate.allocated
          · rw [isNew, Function.update_self]
            exact Nat.zero_le _
          · rw [Function.update_of_ne isNew]
        rcases lookup_connect_tasks isFound with before | isNew
        · have room := placed.room handler registration tag knock session requester target
            aToBShaper bToAShaper before
          exact ⟨Nat.lt_of_le_of_lt (fewer requester.id) room.1,
            Nat.lt_of_le_of_lt (fewer target.id) room.2⟩
        · cases isNew }

/-- A new connection's registration is a new party. -/
theorem seat_connect (slotted : Slotted world.gate) (placed : Placed world) (key : Bytes32)
    (observed : SocketAddr) (now : Nat) :
    Links.Seat world.links (world.connect key observed now).links world.gate.allocated key
      ((seat (makeRegistration world.gate key observed now).1
        (makeRegistration world.gate key observed now).2).2 = true) := by
  obtain ⟨registrations, counters, cells, gate⟩ := connect_gate world key observed now
  have held := holds_connect world key observed now
  constructor
  · rintro there ⟨other, isListed, isId⟩
    have made := (slotted.made there other isListed).2
    omega
  · rintro there ⟨handler, task, isFound, entry, member, _, isId⟩
    have made := (placed.carried handler task isFound entry member).2
    omega
  · intro there id
    constructor
    · rintro ⟨other, isListed, isId⟩
      rcases (listed_connect world key observed now there other).mp isListed with
        before | ⟨isSeated, isKey, isOther⟩
      · exact Or.inl ⟨other, before, isId⟩
      · rw [isOther] at isId
        exact Or.inr ⟨isSeated, isKey, isId.symm⟩
    · rintro (⟨other, isListed, isId⟩ | ⟨isSeated, isKey, isId⟩)
      · exact ⟨other, (listed_connect world key observed now there other).mpr (Or.inl isListed),
          isId⟩
      · exact ⟨_, (listed_connect world key observed now there _).mpr
          (Or.inr ⟨isSeated, isKey, rfl⟩), isId.symm⟩
  · exact held
  · intro session there
    show (∃ found, (world.connect key observed now).gate.sessions.lookup session = some found ∧ _) ↔
      _
    rw [gate]
    exact Iff.rfl
  · intro there id isTorn
    rcases (at_connect placed key observed now _).mp isTorn with before | ⟨_, entry, member, isEntry⟩
    · exact Or.inl before
    · rw [List.mem_singleton.mp member] at isEntry
      exact Or.inr ⟨isEntry.1.symm, isEntry.2.symm⟩
  · intro there session
    show (world.connect key observed now).At (Task.dooms _ there session) ↔ _
    rw [at_connect placed]
    have same : world.At (Task.dooms (world.connect key observed now).gate there session) ↔
        world.At (Task.dooms world.gate there session) := by
      have sameTask : ∀ handler (task : Task), world.tasks.lookup handler = some task →
          (task.dooms (world.connect key observed now).gate there session ↔
            task.dooms world.gate there session) := by
        intro handler task isFound
        cases task with
        | teardownIds peerKey registration later =>
            have made := (placed.carried handler _ isFound _ List.mem_cons_self).2
            apply and_congr Iff.rfl
            rw [held]
            exact and_iff_left (Nat.ne_of_lt made)
        | _ => exact Iff.rfl
      constructor
      · rintro ⟨handler, task, isFound, dooms⟩
        exact ⟨handler, task, isFound, (sameTask handler task isFound).mp dooms⟩
      · rintro ⟨handler, task, isFound, dooms⟩
        exact ⟨handler, task, isFound, (sameTask handler task isFound).mpr dooms⟩
    rw [same]
    simp only [Task.dooms, and_false, or_false]
    exact Iff.rfl
  · intro there session
    show (world.connect key observed now).At _ ↔ _
    rw [at_connect placed]
    simp only [Task.orphans, and_false, or_false]
    exact Iff.rfl
  · intro session there id
    show (world.connect key observed now).At _ ↔ _
    rw [at_connect placed]
    simp only [Task.notes, and_false, or_false]
    exact Iff.rfl

end Connect

end Mosschat.Net.Gate.Server
