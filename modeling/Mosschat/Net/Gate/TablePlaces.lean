import Mosschat.Net.Gate.Tables

/-!
Owns where the handlers are after a section, and what each section of a teardown leaves of
the gate's tables.

Does not own the moves these sections make.
-/

namespace Mosschat.Net.Gate.Server

open Mosschat.Core Mosschat.Library Mosschat.Library.Cbor Mosschat.Library.Machine

/-! ## Where the handlers are after a section -/

section Places

variable {F : Type} {world : World F} {handler : Handler} {task : Task} {outcome : Outcome F}

/-- What a section has to leave for the handlers to stay where they may be. -/
structure Places (world : World F) (task : Task) (outcome : Outcome F) : Prop where
  beside : outcome.Beside task
  allocated : world.gate.allocated ≤ outcome.state.allocated
  listed : ∀ key registration, Listed outcome.state key registration →
    Listed world.gate key registration
  carried : ∀ following ∈ outcome.next, ∀ entry ∈ following.carries,
    entry ∈ task.carries ∨ Listed world.gate entry.1 entry.2
  seized : ∀ peerKey registration later,
    .teardownIds peerKey registration later ∈ outcome.next →
      ∀ key other, Listed outcome.state key other → other.id ≠ registration.id
  holding : ∀ following ∈ outcome.next, following.holdsRegistrations = true →
    task.takesRegistrations = true
  room : ∀ registration tag knock session requester target aToBShaper bToAShaper,
    .answerNote registration tag knock session requester target aToBShaper bToAShaper ∈
      outcome.next →
        (outcome.state.cells requester.id).sessions.entries.length <
            limits.maxSessionsPerRegistration ∧
          (outcome.state.cells target.id).sessions.entries.length <
            limits.maxSessionsPerRegistration
  shrinks : task.holdsRegistrations = false → ∀ id,
    (outcome.state.cells id).sessions.entries.length ≤
      (world.gate.cells id).sessions.entries.length

theorem not_holds_of_inert (isInert : task.inert = true) : task.holdsRegistrations = false := by
  cases task with
  | relayLoop | forward | enqueue | writer | drain | drainCheck | drainSeat | drainSend => rfl
  | _ => cases isInert

theorem not_seizes_of_inert {peerKey : Bytes32} {registration : Registration}
    {later : Option (List (Bytes32 × Registration))} (isInert : task.inert = true) :
    task ≠ .teardownIds peerKey registration later := by
  intro isSeizing
  rw [isSeizing] at isInert
  cases isInert

theorem not_held_of_free {other : Handler} {found : Task}
    (free : world.registrationsHeld = false) (isFound : world.tasks.lookup other = some found) :
    found.holdsRegistrations = false := by
  unfold World.registrationsHeld at free
  rw [List.any_eq_false] at free
  simpa using free found ((HashMap.mem_values _ _).mpr ⟨other, isFound⟩)

/-- A commit leaves the handlers where they may be. -/
theorem placed_commit (slotted : Slotted world.gate) (placed : Placed world)
    (isAt : world.tasks.lookup handler = some task)
    (unlocked : task.takesRegistrations = true → world.registrationsHeld = false)
    (places : Places world task outcome) : Placed (world.commit handler outcome) where
  inert := by
    intro other found isFound isSpawnable
    rcases lookup_commit_tasks isFound with isSpawned | ⟨isHandler, isNext⟩ | ⟨_, before⟩
    · exact (places.beside.spawned (other, found) isSpawned).2
    · rw [isHandler] at isSpawnable
      exact places.beside.next (placed.inert handler task isAt isSpawnable) found isNext
    · exact placed.inert other found before isSpawnable
  control := by
    intro id found isFound
    apply Nat.lt_of_lt_of_le _ places.allocated
    rcases lookup_commit_tasks isFound with isSpawned | ⟨isHandler, _⟩ | ⟨_, before⟩
    · cases (places.beside.spawned _ isSpawned).1
    · rw [← isHandler] at isAt
      exact placed.control id task isAt
    · exact placed.control id found before
  carried := by
    intro other found isFound entry member
    have made : entry.2.key = entry.1 ∧ entry.2.id < world.gate.allocated := by
      rcases lookup_commit_tasks isFound with isSpawned | ⟨_, isNext⟩ | ⟨_, before⟩
      · have isInert := (places.beside.spawned _ isSpawned).2
        rw [Task.carries_of_inert isInert] at member
        cases member
      · rcases places.carried found isNext entry member with carried | isListed
        · exact placed.carried handler task isAt entry carried
        · exact slotted.made entry.1 entry.2 isListed
      · exact placed.carried other found before entry member
    exact ⟨made.1, Nat.lt_of_lt_of_le made.2 places.allocated⟩
  seized := by
    intro other peerKey registration later isFound key listed isListed
    rcases lookup_commit_tasks isFound with isSpawned | ⟨_, isNext⟩ | ⟨_, before⟩
    · exact absurd rfl (not_seizes_of_inert (places.beside.spawned _ isSpawned).2)
    · exact places.seized peerKey registration later isNext key listed isListed
    · exact placed.seized other peerKey registration later before key listed
        (places.listed key listed isListed)
  alone := by
    intro other another found alsoFound isFound isAlsoFound holds alsoHolds
    have elsewhere : ∀ lone (loneTask : Task),
        (world.commit handler outcome).tasks.lookup lone = some loneTask →
          loneTask.holdsRegistrations = true →
            (lone = handler ∧ outcome.next = some loneTask) ∨
              (lone ≠ handler ∧ world.tasks.lookup lone = some loneTask) := by
      intro lone loneTask isLone loneHolds
      rcases lookup_commit_tasks isLone with isSpawned | atHandler | before
      · rw [not_holds_of_inert (places.beside.spawned _ isSpawned).2] at loneHolds
        cases loneHolds
      · exact Or.inl atHandler
      · exact Or.inr before
    -- whoever comes to hold the lock takes it when nobody holds it
    have taken : ∀ lone (loneTask : Task) (following : Task),
        world.tasks.lookup lone = some loneTask → loneTask.holdsRegistrations = true →
          outcome.next = some following → following.holdsRegistrations = true → False := by
      intro lone loneTask following isLone loneHolds isNext nextHolds
      have free := unlocked (places.holding following isNext nextHolds)
      rw [not_held_of_free free isLone] at loneHolds
      cases loneHolds
    rcases elsewhere other found isFound holds with ⟨isHandler, isNext⟩ | ⟨_, before⟩
    · rcases elsewhere another alsoFound isAlsoFound alsoHolds with ⟨alsoHandler, _⟩ | ⟨_, before⟩
      · rw [isHandler, alsoHandler]
      · exact (taken another alsoFound found before alsoHolds isNext holds).elim
    · rcases elsewhere another alsoFound isAlsoFound alsoHolds with
        ⟨_, isNext⟩ | ⟨_, alsoBefore⟩
      · exact (taken other found alsoFound before holds isNext alsoHolds).elim
      · exact placed.alone other another found alsoFound before alsoBefore holds alsoHolds
  room := by
    intro other registration tag knock session requester target aToBShaper bToAShaper isFound
    rcases lookup_commit_tasks isFound with isSpawned | ⟨_, isNext⟩ | ⟨apart, before⟩
    · cases (places.beside.spawned _ isSpawned).2
    · exact places.room registration tag knock session requester target aToBShaper bToAShaper isNext
    · have settled : task.holdsRegistrations = false := by
        rw [← Bool.not_eq_true]
        intro holds
        exact apart (placed.alone other handler _ task before isAt rfl holds)
      have room := placed.room other registration tag knock session requester target aToBShaper
        bToAShaper before
      have fewerAtRequester := places.shrinks settled requester.id
      have fewerAtTarget := places.shrinks settled target.id
      exact ⟨Nat.lt_of_le_of_lt fewerAtRequester room.1, Nat.lt_of_le_of_lt fewerAtTarget room.2⟩

theorem Undisturbed.listed {before after : ServerState F} (undisturbed : Undisturbed before after)
    {key : Bytes32} {registration : Registration} :
    Listed after key registration ↔ Listed before key registration := by
  unfold Listed
  rw [undisturbed.registrations]

theorem Undisturbed.holds {before after : ServerState F} (undisturbed : Undisturbed before after)
    {id : Nat} {session : UInt32} : Holds after id session ↔ Holds before id session := by
  unfold Holds
  rw [undisturbed.held]

theorem Undisturbed.joins {before after : ServerState F} (undisturbed : Undisturbed before after)
    {session : UInt32} {key : Bytes32} :
    (∃ found, after.sessions.lookup session = some found ∧
        (key = found.keyA ∨ key = found.keyB)) ↔
      ∃ found, before.sessions.lookup session = some found ∧
        (key = found.keyA ∨ key = found.keyB) := by
  -- the keys of a session are among what stays
  have within : ∀ {left right : ServerState F},
      (left.sessions.lookup session).map SessionState.ends =
        (right.sessions.lookup session).map SessionState.ends →
      (∃ found, left.sessions.lookup session = some found ∧
        (key = found.keyA ∨ key = found.keyB)) →
      ∃ found, right.sessions.lookup session = some found ∧
        (key = found.keyA ∨ key = found.keyB) := by
    intro left right same ⟨found, isFound, isEnd⟩
    rw [isFound, Option.map_some] at same
    obtain ⟨other, isOther, ends⟩ := Option.map_eq_some_iff.mp same.symm
    have sameA : other.keyA = found.keyA := congrArg Prod.fst ends
    have sameB : other.keyB = found.keyB := congrArg (fun ends => ends.2.1) ends
    rw [← sameA, ← sameB] at isEnd
    exact ⟨other, isOther, isEnd⟩
  exact ⟨within (undisturbed.sessions session), within (undisturbed.sessions session).symm⟩

theorem Undisturbed.slotted {before after : ServerState F}
    (undisturbed : Undisturbed before after) (slotted : Slotted before) : Slotted after where
  sized := by
    rw [undisturbed.registrations]
    exact slotted.sized
  apart := by
    rw [undisturbed.registrations]
    exact slotted.apart
  made := by
    intro key registration isListed
    rw [undisturbed.allocated]
    exact slotted.made key registration (undisturbed.listed.mp isListed)
  bounded := by
    rw [undisturbed.registrations, undisturbed.capacity]
    exact slotted.bounded
  few := by
    intro id
    rw [undisturbed.held]
    exact slotted.few id

theorem Task.not_starts_of_not_midWay (settled : task.midWay = false) : task.starts = false := by
  cases task with
  | answerNote | teardownIds => cases settled
  | _ => rfl

/-- What a section has to leave where nothing starts after it. -/
theorem Places.of_next (beside : outcome.Beside task)
    (allocated : outcome.state.allocated = world.gate.allocated)
    (listed : ∀ key registration, Listed outcome.state key registration →
      Listed world.gate key registration)
    (next : ∀ following ∈ outcome.next, following.starts = false ∧
      ∀ entry ∈ following.carries, entry ∈ task.carries ∨ Listed world.gate entry.1 entry.2)
    (shrinks : task.holdsRegistrations = false → ∀ id,
      (outcome.state.cells id).sessions.entries.length ≤
        (world.gate.cells id).sessions.entries.length) : Places world task outcome where
  beside := beside
  allocated := Nat.le_of_eq allocated.symm
  listed := listed
  carried following isNext := (next following isNext).2
  seized := by
    intro peerKey registration later isNext
    cases (next _ isNext).1
  holding := by
    intro following isNext holds
    have unstarted := (next following isNext).1
    cases following with
    | answerNote => cases unstarted
    | _ => cases holds
  room := by
    intro registration tag knock session requester target aToBShaper bToAShaper isNext
    cases (next _ isNext).1
  shrinks := shrinks

theorem Steady.places (steady : Steady world.gate task outcome) :
    Places world task outcome := by
  apply Places.of_next steady.beside steady.undisturbed.allocated
  · exact fun _ _ => steady.undisturbed.listed.mp
  · intro following isNext
    have isSteady := steady.next following isNext
    exact ⟨Task.not_starts_of_not_midWay isSteady.1, isSteady.2⟩
  · intro _ id
    rw [steady.undisturbed.held]

/-- A steady section moves no link. -/
theorem Steady.idle (placed : Placed world) (isAt : world.tasks.lookup handler = some task)
    (settled : task.midWay = false) (steady : Steady world.gate task outcome) :
    Links.Idle world.links (world.commit handler outcome).links := by
  -- what is midway is so elsewhere, before and after
  have midWay : ∀ {meets alsoMeets : Task → Prop},
      (∀ task : Task, task.midWay = false → ¬meets task) →
      (∀ task : Task, task.midWay = false → ¬alsoMeets task) →
      (∀ task : Task, meets task ↔ alsoMeets task) →
      ((world.commit handler outcome).At meets ↔ world.At alsoMeets) := by
    intro meets alsoMeets notSettled alsoNotSettled same
    rw [at_commit placed isAt steady.beside fun task isInert =>
      notSettled task (Task.midWay_of_inert isInert), at_iff isAt]
    constructor
    · rintro (⟨following, isNext, isMet⟩ | elsewhere)
      · exact absurd isMet (notSettled following (steady.next following isNext).1)
      · exact Or.inr (elsewhere.imp fun other found _ => (same found).mp)
    · rintro (isMet | elsewhere)
      · exact absurd isMet (alsoNotSettled task settled)
      · exact Or.inr (elsewhere.imp fun other found _ => (same found).mpr)
  constructor
  · intro key id
    simp only [World.links, World.commit, steady.undisturbed.listed]
  · intro id session
    exact steady.undisturbed.holds
  · intro session key
    exact steady.undisturbed.joins
  · intro key id isTorn
    rcases (at_commit placed isAt steady.beside fun task isInert =>
      Task.not_tears_of_inert isInert).mp isTorn with
      ⟨following, isNext, entry, member, isEntry⟩ | ⟨other, found, _, isFound, tears⟩
    · rcases (steady.next following isNext).2 entry member with carried | isListed
      · exact Or.inl ⟨handler, task, isAt, entry, carried, isEntry⟩
      · rw [isEntry.1] at isListed
        exact Or.inr ⟨entry.2, isListed, isEntry.2⟩
    · exact Or.inl ⟨other, found, isFound, tears⟩
  · intro key session
    refine midWay (fun task => Task.not_dooms_of_not_midWay)
      (fun task => Task.not_dooms_of_not_midWay) ?_
    intro found
    cases found with
    | teardownIds peerKey registration later =>
        exact and_congr Iff.rfl steady.undisturbed.holds
    | _ => exact Iff.rfl
  · intro key session
    exact midWay (fun task => Task.not_orphans_of_not_midWay)
      (fun task => Task.not_orphans_of_not_midWay) fun _ => Iff.rfl
  · intro session key id
    exact midWay (fun task => Task.not_notes_of_not_midWay)
      (fun task => Task.not_notes_of_not_midWay) fun _ => Iff.rfl

end Places

/-! ## The sections of a teardown -/

section Teardown

variable {F : Type}

theorem listed_teardown (state : ServerState F) (peerKey : Bytes32) (registration : Registration)
    (later : Option (List (Bytes32 × Registration))) (key : Bytes32) (other : Registration) :
    Listed (teardown state peerKey registration later).state key other ↔
      Listed state key other ∧ ¬(key = peerKey ∧ other.id = registration.id) := by
  unfold teardown
  dsimp only
  split
  · next absent =>
      constructor
      · rintro ⟨list, isListed, inside⟩
        refine ⟨⟨list, isListed, inside⟩, ?_⟩
        rintro ⟨isPeer, _⟩
        rw [isPeer, absent] at isListed
        cases isListed
      · exact And.left
  · next list isPeerList =>
      unfold Listed
      dsimp only
      by_cases isPeer : key = peerKey
      · rw [isPeer]
        have atPeer : ∀ kept, (if (list.filter fun other => other.id != registration.id).isEmpty
            then state.registrations.erase peerKey
            else state.registrations.put peerKey
              (list.filter fun other => other.id != registration.id)).lookup peerKey = some kept →
              kept = list.filter fun other => other.id != registration.id := by
          intro kept isKept
          split at isKept
          · rw [HashMap.lookup_erase, if_pos rfl] at isKept
            cases isKept
          · rw [HashMap.lookup_put, if_pos rfl] at isKept
            cases isKept
            rfl
        constructor
        · rintro ⟨kept, isKept, inside⟩
          rw [atPeer kept isKept, List.mem_filter, bne_iff_ne] at inside
          exact ⟨⟨list, isPeerList, inside.1⟩, fun both => inside.2 both.2⟩
        · rintro ⟨⟨found, isFound, inside⟩, apart⟩
          rw [isPeerList] at isFound
          cases isFound
          have stays : other ∈ list.filter fun other => other.id != registration.id := by
            rw [List.mem_filter, bne_iff_ne]
            exact ⟨inside, fun isGone => apart ⟨rfl, isGone⟩⟩
          refine ⟨_, ?_, stays⟩
          rw [if_neg]
          · rw [HashMap.lookup_put, if_pos rfl]
          · rw [List.isEmpty_iff]
            exact List.ne_nil_of_mem stays
      · have elsewhere : (if (list.filter fun other => other.id != registration.id).isEmpty
            then state.registrations.erase peerKey
            else state.registrations.put peerKey
              (list.filter fun other => other.id != registration.id)).lookup key =
            state.registrations.lookup key := by
          split
          · rw [HashMap.lookup_erase, if_neg isPeer]
          · rw [HashMap.lookup_put, if_neg isPeer]
        rw [elsewhere]
        constructor
        · intro isListed
          exact ⟨isListed, fun both => isPeer both.1⟩
        · exact And.left

theorem teardown_frame (state : ServerState F) (peerKey : Bytes32) (registration : Registration)
    (later : Option (List (Bytes32 × Registration))) :
    ∃ registrations, (teardown state peerKey registration later).state =
      { state with registrations } := by
  unfold teardown
  dsimp only
  split
  · exact ⟨state.registrations, rfl⟩
  · exact ⟨_, rfl⟩

theorem slotted_teardown {state : ServerState F} (slotted : Slotted state) (peerKey : Bytes32)
    (registration : Registration) (later : Option (List (Bytes32 × Registration))) :
    Slotted (teardown state peerKey registration later).state := by
  obtain ⟨registrations, frame⟩ := teardown_frame state peerKey registration later
  -- a list is a part of what it was, and is not left empty
  have within : ∀ key list,
      (teardown state peerKey registration later).state.registrations.lookup key = some list →
        ∃ old, state.registrations.lookup key = some old ∧ list.Sublist old ∧
          (list ≠ old → 0 < list.length) := by
    intro key list isListed
    unfold teardown at isListed
    dsimp only at isListed
    split at isListed
    · exact ⟨list, isListed, List.Sublist.refl list, fun apart => absurd rfl apart⟩
    · next old isPeerList =>
        dsimp only at isListed
        split at isListed
        · rw [HashMap.lookup_erase] at isListed
          split at isListed
          · cases isListed
          · exact ⟨list, isListed, List.Sublist.refl list, fun apart => absurd rfl apart⟩
        · next kept =>
            rw [HashMap.lookup_put] at isListed
            split at isListed
            · next isPeer =>
                cases isListed
                rw [isPeer]
                refine ⟨old, isPeerList, List.filter_sublist, fun _ => ?_⟩
                rw [List.isEmpty_iff] at kept
                exact List.length_pos_of_ne_nil kept
            · exact ⟨list, isListed, List.Sublist.refl list, fun apart => absurd rfl apart⟩
  constructor
  · intro key list isListed
    obtain ⟨old, isOld, inside, kept⟩ := within key list isListed
    have before := slotted.sized key old isOld
    refine ⟨?_, inside.length_le.trans before.2⟩
    by_cases same : list = old
    · rw [same]
      exact before.1
    · exact kept same
  · intro key list isListed
    obtain ⟨old, isOld, inside, _⟩ := within key list isListed
    exact (slotted.apart key old isOld).sublist (inside.map Registration.id)
  · intro key other isListed
    have before := ((listed_teardown state peerKey registration later key other).mp isListed).1
    rw [frame]
    exact slotted.made key other before
  · have fewer : (teardown state peerKey registration later).state.registrations.entries.length ≤
        state.registrations.entries.length := by
      unfold teardown
      dsimp only
      split
      · exact Nat.le_refl _
      · next old isPeerList =>
          dsimp only
          split
          · exact HashMap.length_erase_le _ _
          · have occupied : peerKey ∈ state.registrations :=
              AList.lookup_isSome.mp (by rw [isPeerList]; rfl)
            rw [HashMap.length_put, if_pos occupied]
    have capacity : (teardown state peerKey registration later).state.capacity =
        state.capacity := by
      rw [frame]
    rw [capacity]
    exact fewer.trans slotted.bounded
  · intro id
    rw [frame]
    exact slotted.few id

theorem holds_iff_mem_keys (state : ServerState F) (id : Nat) (session : UInt32) :
    Holds state id session ↔ session ∈ (state.cells id).sessions.keys := by
  rw [← AList.mem_keys, ← AList.lookup_isSome, Option.isSome_iff_exists]
  constructor
  · intro held
    exact ⟨(), held⟩
  · rintro ⟨_, held⟩
    exact held

/-- What the loop under `sessions` leaves: the sessions are gone from the table, and
those that were there are orphans at their other key. -/
structure Removed (peerKey : Bytes32) (sessionIds : List UInt32)
    (before after : ServerState F × List (Bytes32 × UInt32)) : Prop where
  frame : after.1.registrations = before.1.registrations ∧ after.1.cells = before.1.cells ∧
    after.1.capacity = before.1.capacity ∧ after.1.allocated = before.1.allocated
  sessions : ∀ session, after.1.sessions.lookup session =
    if session ∈ sessionIds then none else before.1.sessions.lookup session
  orphans : ∀ key session, (key, session) ∈ after.2 ↔
    (key, session) ∈ before.2 ∨ (session ∈ sessionIds ∧
      ∃ found, before.1.sessions.lookup session = some found ∧
        key = if found.keyA = peerKey then found.keyB else found.keyA)

theorem removed_foldl (peerKey : Bytes32) (sessionIds : List UInt32)
    (before : ServerState F × List (Bytes32 × UInt32)) :
    Removed peerKey sessionIds before (sessionIds.foldl (removeSession peerKey) before) := by
  induction sessionIds generalizing before with
  | nil => exact ⟨⟨rfl, rfl, rfl, rfl⟩, by simp, by simp⟩
  | cons id rest ih =>
      have later := ih (removeSession peerKey before id)
      rw [List.foldl_cons]
      generalize rest.foldl (removeSession peerKey) (removeSession peerKey before id) = after
        at later ⊢
      unfold removeSession at later
      split at later
      · next absent =>
          refine ⟨later.frame, ?_, ?_⟩
          · intro session
            rw [later.sessions]
            by_cases isId : session = id
            · subst isId
              simp [absent]
            · simp [isId]
          · intro key session
            rw [later.orphans]
            by_cases isId : session = id
            · subst isId
              simp [absent]
            · simp [isId]
      · next found isFound =>
          have lookup_after : ∀ session,
              ({ before.1 with sessions := before.1.sessions.erase id }.closeShapers
                found).sessions.lookup session =
                if session = id then none else before.1.sessions.lookup session := by
            intro session
            exact HashMap.lookup_erase before.1.sessions id session
          refine ⟨later.frame, ?_, ?_⟩
          · intro session
            rw [later.sessions, lookup_after]
            by_cases isId : session = id
            · simp [isId]
            · simp [isId]
          · intro key session
            rw [later.orphans, lookup_after, List.mem_append, List.mem_singleton, Prod.mk.injEq]
            by_cases isId : session = id
            · subst isId
              simp [isFound]
            · simp [isId]

/-- What one round for an orphan leaves of the sets. -/
theorem holds_removeOrphan (state : ServerState F) (orphan : Bytes32 × UInt32) (id : Nat)
    (session : UInt32) :
    Holds (removeOrphan state orphan) id session ↔
      Holds state id session ∧
        ¬(session = orphan.2 ∧ ∃ registration, Listed state orphan.1 registration ∧
          registration.id = id) := by
  -- the loop over the list, which may be any list
  have loop : ∀ (list : List Registration) (current : ServerState F),
      Holds (list.foldl (fun state registration =>
        let cells := state.cells registration.id
        state.setCells registration { cells with sessions := cells.sessions.erase orphan.2 })
          current) id session ↔
        Holds current id session ∧
          ¬(session = orphan.2 ∧ ∃ registration ∈ list, registration.id = id) := by
    intro list
    induction list with
    | nil => simp
    | cons registration rest ih =>
        intro current
        rw [List.foldl_cons, ih]
        have first : Holds (current.setCells registration
            { current.cells registration.id with
              sessions := (current.cells registration.id).sessions.erase orphan.2 }) id session ↔
            Holds current id session ∧ ¬(session = orphan.2 ∧ registration.id = id) := by
          unfold Holds ServerState.setCells
          dsimp only
          by_cases isRegistration : id = registration.id
          · rw [isRegistration, Function.update_self]
            dsimp only
            rw [HashMap.lookup_erase]
            by_cases isOrphan : session = orphan.2
            · simp [isOrphan]
            · simp [isOrphan]
          · rw [Function.update_of_ne isRegistration]
            simp [Ne.symm isRegistration]
        rw [first]
        rw [and_assoc, ← not_or, ← and_or_left]
        simp only [List.mem_cons, exists_eq_or_imp]
  unfold removeOrphan
  rw [loop]
  have inList : (∃ registration ∈ (state.registrations.lookup orphan.1).getD [],
      registration.id = id) ↔
      ∃ registration, Listed state orphan.1 registration ∧ registration.id = id := by
    unfold Listed
    cases state.registrations.lookup orphan.1 with
    | none => simp
    | some list => simp
  rw [inList]

theorem removeOrphan_frame (state : ServerState F) (orphan : Bytes32 × UInt32) :
    ∃ cells, removeOrphan state orphan = { state with cells } ∧
      ∀ id, (cells id).sessions.entries.length ≤ (state.cells id).sessions.entries.length := by
  unfold removeOrphan
  generalize (state.registrations.lookup orphan.1).getD [] = list
  induction list generalizing state with
  | nil => exact ⟨state.cells, rfl, fun _ => Nat.le_refl _⟩
  | cons registration rest ih =>
      obtain ⟨cells, frame, fewer⟩ := ih (state.setCells registration
        { state.cells registration.id with
          sessions := (state.cells registration.id).sessions.erase orphan.2 })
      refine ⟨cells, frame, ?_⟩
      intro id
      apply (fewer id).trans
      show (Function.update state.cells registration.id _ id).sessions.entries.length ≤ _
      by_cases isRegistration : id = registration.id
      · rw [isRegistration, Function.update_self]
        exact HashMap.length_erase_le _ _
      · rw [Function.update_of_ne isRegistration]

/-- What the last section leaves: the orphans are gone from the sets of the registrations
listed for their keys, and nothing else changed. -/
theorem teardownOrphans_frame (state : ServerState F) (orphaned : List (Bytes32 × UInt32)) :
    ∃ cells, orphaned.foldl removeOrphan state = { state with cells } ∧
      (∀ id, (cells id).sessions.entries.length ≤ (state.cells id).sessions.entries.length) ∧
      ∀ id session, Holds { state with cells } id session ↔
        Holds state id session ∧
          ¬∃ key, (∃ registration, Listed state key registration ∧ registration.id = id) ∧
            (key, session) ∈ orphaned := by
  induction orphaned generalizing state with
  | nil => exact ⟨state.cells, rfl, fun _ => Nat.le_refl _, by simp⟩
  | cons orphan rest ih =>
      obtain ⟨first, firstFrame, firstFewer⟩ := removeOrphan_frame state orphan
      have firstHolds := holds_removeOrphan state orphan
      obtain ⟨cells, frame, fewer, held⟩ := ih (removeOrphan state orphan)
      rw [firstFrame] at frame fewer held firstHolds
      refine ⟨cells, ?_, ?_, ?_⟩
      · rw [List.foldl_cons, firstFrame, frame]
      · intro id
        exact (fewer id).trans (firstFewer id)
      · intro id session
        have sameListed : ∀ key registration,
            Listed { state with cells := first } key registration ↔
              Listed state key registration := fun _ _ => Iff.rfl
        have later := held id session
        simp only [sameListed] at later
        refine later.trans ?_
        rw [firstHolds]
        simp only [List.mem_cons, Prod.ext_iff]
        constructor
        · rintro ⟨⟨isHeld, notFirst⟩, notRest⟩
          refine ⟨isHeld, ?_⟩
          rintro ⟨key, isListed, ⟨isKey, isOrphan⟩ | inRest⟩
          · rw [isKey] at isListed
            exact notFirst ⟨isOrphan, isListed⟩
          · exact notRest ⟨key, isListed, inRest⟩
        · rintro ⟨isHeld, notAny⟩
          refine ⟨⟨isHeld, ?_⟩, ?_⟩
          · rintro ⟨isOrphan, isListed⟩
            exact notAny ⟨orphan.1, isListed, Or.inl ⟨rfl, isOrphan⟩⟩
          · rintro ⟨key, isListed, inRest⟩
            exact notAny ⟨key, isListed, Or.inr inRest⟩

end Teardown

end Mosschat.Net.Gate.Server
