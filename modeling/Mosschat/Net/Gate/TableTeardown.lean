import Mosschat.Net.Gate.TablePlaces

/-!
Owns the moves of a teardown: that each of its four sections is one move of the gate's
tables, whatever the other handlers are at.

Does not own the sections that open a session, or what runs keep.
-/

namespace Mosschat.Net.Gate.Server

open Mosschat.Core Mosschat.Library Mosschat.Library.Cbor Mosschat.Library.Machine

/-! ## Every section is one move -/

section Moves

variable {F : Type} {world : World F} {handler : Handler}

theorem not_dooms_inert (state : ServerState F) (key : Bytes32) (session : UInt32) (task : Task)
    (isInert : task.inert = true) : ¬task.dooms state key session :=
  Task.not_dooms_of_not_midWay (Task.midWay_of_inert isInert)

theorem not_orphans_inert (key : Bytes32) (session : UInt32) (task : Task)
    (isInert : task.inert = true) : ¬task.orphans key session :=
  Task.not_orphans_of_not_midWay (Task.midWay_of_inert isInert)

theorem not_notes_inert (session : UInt32) (key : Bytes32) (id : Nat) (task : Task)
    (isInert : task.inert = true) : ¬task.notes session key id :=
  Task.not_notes_of_not_midWay (Task.midWay_of_inert isInert)

/-- Who notes a session holds the lock. -/
theorem Task.holds_of_notes {task : Task} {session : UInt32} {key : Bytes32} {id : Nat}
    (notes : task.notes session key id) : task.holdsRegistrations = true := by
  cases task with
  | answerNote => rfl
  | _ => cases notes

theorem settled_of_free (free : world.registrationsHeld = false) (session : UInt32)
    (key : Bytes32) (id : Nat) : ¬world.At (Task.notes session key id) := by
  rintro ⟨other, found, isFound, notes⟩
  have holds := Task.holds_of_notes notes
  rw [not_held_of_free free isFound] at holds
  cases holds

/-- Where the registrations hold what they held, the other handlers doom what they
doomed. -/
theorem Task.dooms_congr {before after : ServerState F} {task : Task} {key : Bytes32}
    {session : UInt32} (held : ∀ id, Holds after id session ↔ Holds before id session) :
    task.dooms after key session ↔ task.dooms before key session := by
  cases task with
  | teardownIds peerKey registration later => exact and_congr Iff.rfl (held registration.id)
  | _ => exact Iff.rfl

/-- What may be torn down after a section that carries nothing new. -/
theorem torn_commit {task : Task} {outcome : Outcome F} (placed : Placed world)
    (isAt : world.tasks.lookup handler = some task) (beside : outcome.Beside task)
    (carried : ∀ following ∈ outcome.next, ∀ entry ∈ following.carries, entry ∈ task.carries)
    {key : Bytes32} {id : Nat}
    (isTorn : (world.commit handler outcome).At (Task.tears key id)) :
    world.At (Task.tears key id) := by
  rcases (at_commit placed isAt beside fun task isInert =>
    Task.not_tears_of_inert isInert).mp isTorn with
    ⟨following, isNext, entry, member, isEntry⟩ | ⟨other, found, _, isFound, tears⟩
  · exact ⟨handler, task, isAt, entry, carried following isNext entry member, isEntry⟩
  · exact ⟨other, found, isFound, tears⟩

/-! ### `teardown` -/

section Teardown

variable {peerKey : Bytes32} {registration : Registration}
  {later : Option (List (Bytes32 × Registration))}

variable (peerKey registration later) in
theorem beside_teardown (state : ServerState F) :
    (teardown state peerKey registration later).Beside (.teardown peerKey registration later) where
  next := by simp [Task.inert]
  spawned := by
    unfold teardown
    dsimp only
    split <;> simp

variable (peerKey registration later) in
theorem teardown_next (state : ServerState F) :
    (teardown state peerKey registration later).next =
      some (.teardownIds peerKey registration later) := by
  unfold teardown
  dsimp only
  split <;> rfl

theorem places_teardown (tidy : Tidy world)
    (isAt : world.tasks.lookup handler = some (.teardown peerKey registration later)) :
    Places world (.teardown peerKey registration later)
      (teardown world.gate peerKey registration later) := by
  obtain ⟨registrations, frame⟩ := teardown_frame world.gate peerKey registration later
  have next := teardown_next peerKey registration later world.gate
  have listed := listed_teardown world.gate peerKey registration later
  exact
    { beside := beside_teardown peerKey registration later world.gate
      allocated := by
        rw [frame]
      listed := by
        intro key other isListed
        exact ((listed key other).mp isListed).1
      carried := by
        intro following isNext entry member
        rw [next] at isNext
        cases isNext
        exact Or.inl member
      seized := by
        intro otherKey seized otherLater isNext key other isListed isSeized
        rw [next] at isNext
        cases isNext
        have before := (listed key other).mp isListed
        have isPeer := tidy.links.tornKey peerKey key registration.id
          ⟨handler, _, isAt, _, List.mem_cons_self, rfl, rfl⟩ ⟨other, before.1, isSeized⟩
        exact before.2 ⟨isPeer.symm, isSeized⟩
      holding := fun _ _ _ => rfl
      room := by
        intro _ _ _ _ _ _ _ _ isNext
        rw [next] at isNext
        cases isNext
      shrinks := by
        intro _ id
        rw [frame] }

theorem unlist_teardown (placed : Placed world)
    (isAt : world.tasks.lookup handler = some (.teardown peerKey registration later))
    (free : world.registrationsHeld = false) :
    Links.Unlist world.links
      (world.commit handler (teardown world.gate peerKey registration later)).links
      registration.id peerKey := by
  have beside := beside_teardown peerKey registration later world.gate
  have next := teardown_next peerKey registration later world.gate
  obtain ⟨registrations, frame⟩ := teardown_frame world.gate peerKey registration later
  have held : ∀ id session,
      Holds (teardown world.gate peerKey registration later).state id session ↔
        Holds world.gate id session := by
    intro id session
    rw [frame]
    exact Iff.rfl
  constructor
  · exact ⟨handler, _, isAt, _, List.mem_cons_self, rfl, rfl⟩
  · exact fun session key id => settled_of_free free session key id
  · intro key id
    constructor
    · rintro ⟨other, isListed, isId⟩
      have before := (listed_teardown world.gate peerKey registration later key other).mp isListed
      refine ⟨⟨other, before.1, isId⟩, ?_⟩
      rw [← isId]
      exact before.2
    · rintro ⟨⟨other, isListed, isId⟩, apart⟩
      rw [← isId] at apart
      exact ⟨other,
        (listed_teardown world.gate peerKey registration later key other).mpr ⟨isListed, apart⟩,
        isId⟩
  · exact held
  · intro session key
    simp only [World.links, World.commit, frame]
  · intro key id
    apply torn_commit placed isAt beside
    intro following isNext entry member
    rw [next] at isNext
    cases isNext
    exact member
  · intro key session
    show (world.commit handler _).At _ ↔ world.At _ ∨ _
    rw [at_commit placed isAt beside (not_dooms_inert _ key session), at_iff isAt, next]
    constructor
    · rintro (⟨following, isNext, dooms⟩ | elsewhere)
      · cases isNext
        exact Or.inr ⟨dooms.1.symm, (held _ _).mp dooms.2⟩
      · exact Or.inl (Or.inr (elsewhere.imp fun other found _ =>
          (Task.dooms_congr fun id => held id session).mp))
    · rintro ((isDoomed | elsewhere) | ⟨isPeer, isHeld⟩)
      · exact isDoomed.elim
      · exact Or.inr (elsewhere.imp fun other found _ =>
          (Task.dooms_congr fun id => held id session).mpr)
      · exact Or.inl ⟨_, rfl, isPeer.symm, (held _ _).mpr isHeld⟩
  · intro key session
    show (world.commit handler _).At _ ↔ world.At _
    rw [at_commit placed isAt beside (not_orphans_inert key session), at_iff isAt, next]
    simp [Task.orphans]
  · intro session key id
    show (world.commit handler _).At _ ↔ world.At _
    rw [at_commit placed isAt beside (not_notes_inert session key id), at_iff isAt, next]
    simp [Task.notes]

end Teardown

/-! ### `teardownIds` -/

section TeardownIds

variable {peerKey : Bytes32} {registration : Registration}
  {later : Option (List (Bytes32 × Registration))}

variable (peerKey registration later) in
/-- What the reading of the ids leads to. -/
theorem teardownIds_cases (state : ServerState F) :
    ((∀ session, ¬Holds state registration.id session) ∧
      teardownIds state peerKey registration later = { state, next := afterTeardown later }) ∨
    teardownIds state peerKey registration later =
      { state
        next := some (.teardownSessions peerKey (state.cells registration.id).sessions.keys
          later) } := by
  unfold teardownIds
  dsimp only
  split
  · next none =>
      left
      refine ⟨?_, rfl⟩
      intro session isHeld
      rw [holds_iff_mem_keys, List.isEmpty_iff.mp none] at isHeld
      cases isHeld
  · exact Or.inr rfl

variable (peerKey registration later) in
theorem beside_teardownIds (state : ServerState F) :
    (teardownIds state peerKey registration later).Beside
      (.teardownIds peerKey registration later) where
  next := by simp [Task.inert]
  spawned := by
    rcases teardownIds_cases peerKey registration later state with ⟨_, isOutcome⟩ | isOutcome <;> simp [isOutcome]

variable (peerKey registration later) in
theorem teardownIds_carries (state : ServerState F) :
    ∀ following ∈ (teardownIds state peerKey registration later).next,
      ∀ entry ∈ following.carries, entry ∈ later.getD [] := by
  intro following isNext entry member
  rcases teardownIds_cases peerKey registration later state with ⟨_, isOutcome⟩ | isOutcome
  · rw [isOutcome] at isNext
    exact (afterTeardown_steady isNext).2 entry member
  · rw [isOutcome] at isNext
    cases isNext
    exact member

theorem places_teardownIds :
    Places world (.teardownIds peerKey registration later)
      (teardownIds world.gate peerKey registration later) := by
  have isCase := teardownIds_cases peerKey registration later world.gate
  have state : (teardownIds world.gate peerKey registration later).state = world.gate := by
    rcases isCase with ⟨_, isOutcome⟩ | isOutcome <;> rw [isOutcome]
  apply Places.of_next (beside_teardownIds peerKey registration later world.gate)
  · rw [state]
  · rw [state]
    exact fun _ _ isListed => isListed
  · intro following isNext
    constructor
    · rcases isCase with ⟨_, isOutcome⟩ | isOutcome
      · rw [isOutcome] at isNext
        exact Task.not_starts_of_not_midWay (afterTeardown_steady isNext).1
      · rw [isOutcome] at isNext
        cases isNext
        rfl
    · intro entry member
      have isLater := teardownIds_carries peerKey registration later world.gate following isNext entry member
      exact Or.inl (List.mem_cons_of_mem _ isLater)
  · intro _ id
    rw [state]

/-- The reading of the ids moves no link: what it dooms was doomed. -/
theorem idle_teardownIds (placed : Placed world)
    (isAt : world.tasks.lookup handler = some (.teardownIds peerKey registration later)) :
    Links.Idle world.links
      (world.commit handler (teardownIds world.gate peerKey registration later)).links := by
  have beside := beside_teardownIds peerKey registration later world.gate
  have carries := teardownIds_carries peerKey registration later world.gate
  have isCase := teardownIds_cases peerKey registration later world.gate
  have state : (teardownIds world.gate peerKey registration later).state = world.gate := by
    rcases isCase with ⟨_, isOutcome⟩ | isOutcome <;> rw [isOutcome]
  constructor
  · intro key id
    simp only [World.links, World.commit, state]
  · intro id session
    simp only [World.links, World.commit, state]
  · intro session key
    simp only [World.links, World.commit, state]
  · intro key id isTorn
    left
    apply torn_commit placed isAt beside _ isTorn
    intro following isNext entry member
    exact List.mem_cons_of_mem _ (carries following isNext entry member)
  · intro key session
    show (world.commit handler _).At (Task.dooms (teardownIds world.gate peerKey registration
      later).state key session) ↔ world.At _
    rw [state, at_commit placed isAt beside (not_dooms_inert _ key session), at_iff isAt]
    apply or_congr _ Iff.rfl
    rcases isCase with ⟨unheld, isOutcome⟩ | isOutcome
    · rw [isOutcome]
      constructor
      · rintro ⟨following, isNext, dooms⟩
        exact absurd dooms (Task.not_dooms_of_not_midWay (afterTeardown_steady isNext).1)
      · rintro ⟨_, isHeld⟩
        exact absurd isHeld (unheld session)
    · rw [isOutcome]
      constructor
      · rintro ⟨following, isNext, dooms⟩
        cases isNext
        exact ⟨dooms.1, (holds_iff_mem_keys _ _ _).mpr dooms.2⟩
      · rintro ⟨isPeer, isHeld⟩
        exact ⟨_, rfl, isPeer, (holds_iff_mem_keys _ _ _).mp isHeld⟩
  · intro key session
    show (world.commit handler _).At _ ↔ world.At _
    rw [at_commit placed isAt beside (not_orphans_inert key session), at_iff isAt]
    apply or_congr _ Iff.rfl
    rcases isCase with ⟨_, isOutcome⟩ | isOutcome
    · rw [isOutcome]
      constructor
      · rintro ⟨following, isNext, orphans⟩
        exact absurd orphans (Task.not_orphans_of_not_midWay (afterTeardown_steady isNext).1)
      · exact False.elim
    · rw [isOutcome]
      simp [Task.orphans]
  · intro session key id
    show (world.commit handler _).At _ ↔ world.At _
    rw [at_commit placed isAt beside (not_notes_inert session key id), at_iff isAt]
    apply or_congr _ Iff.rfl
    rcases isCase with ⟨_, isOutcome⟩ | isOutcome
    · rw [isOutcome]
      constructor
      · rintro ⟨following, isNext, notes⟩
        exact absurd notes (Task.not_notes_of_not_midWay (afterTeardown_steady isNext).1)
      · exact False.elim
    · rw [isOutcome]
      simp [Task.notes]

end TeardownIds

/-! ### `teardownSessions` -/

section TeardownSessions

variable {peerKey : Bytes32} {sessionIds : List UInt32}
  {later : Option (List (Bytes32 × Registration))}

variable (peerKey sessionIds later) in
/-- What the section under `sessions` leads to. -/
theorem teardownSessions_cases (state : ServerState F) :
    ∃ after orphaned, Removed peerKey sessionIds (state, []) (after, orphaned) ∧
      ((orphaned = [] ∧ teardownSessions state peerKey sessionIds later =
          { state := after, next := afterTeardown later }) ∨
        teardownSessions state peerKey sessionIds later =
          { state := after, next := some (.teardownOrphans orphaned later) }) := by
  have removed := removed_foldl peerKey sessionIds (state, [])
  refine ⟨_, _, removed, ?_⟩
  unfold teardownSessions
  dsimp only
  split
  · next none => exact Or.inl ⟨List.isEmpty_iff.mp none, rfl⟩
  · exact Or.inr rfl

theorem places_teardownSessions :
    Places world (.teardownSessions peerKey sessionIds later)
      (teardownSessions world.gate peerKey sessionIds later) := by
  obtain ⟨after, orphaned, removed, isCase⟩ := teardownSessions_cases peerKey sessionIds
    later world.gate
  have state : (teardownSessions world.gate peerKey sessionIds later).state = after := by
    rcases isCase with ⟨_, isOutcome⟩ | isOutcome <;> rw [isOutcome]
  obtain ⟨registrations, cells, capacity, allocated⟩ := removed.frame
  have spawned : (teardownSessions world.gate peerKey sessionIds later).spawned = [] := by
    rcases isCase with ⟨_, isOutcome⟩ | isOutcome <;> rw [isOutcome]
  apply Places.of_next ⟨by simp [Task.inert], by simp [spawned]⟩
  · rw [state]
    exact allocated
  · intro key registration isListed
    rw [state] at isListed
    unfold Listed at isListed
    rw [registrations] at isListed
    exact isListed
  · intro following isNext
    rcases isCase with ⟨_, isOutcome⟩ | isOutcome
    · rw [isOutcome] at isNext
      have isSteady := afterTeardown_steady isNext
      refine ⟨Task.not_starts_of_not_midWay isSteady.1, ?_⟩
      intro entry member
      exact Or.inl (isSteady.2 entry member)
    · rw [isOutcome] at isNext
      cases isNext
      exact ⟨rfl, fun entry member => Or.inl member⟩
  · intro _ id
    rw [state, cells]

/-- The sessions leave the table, and are orphans at their other key. -/
theorem remove_teardownSessions (tidy : Tidy world)
    (isAt : world.tasks.lookup handler = some (.teardownSessions peerKey sessionIds later)) :
    Links.Remove world.links
      (world.commit handler (teardownSessions world.gate peerKey sessionIds later)).links
      peerKey (fun session => session ∈ sessionIds) := by
  have placed := tidy.placed
  have beside : (teardownSessions world.gate peerKey sessionIds later).Beside
      (.teardownSessions peerKey sessionIds later) := places_teardownSessions.beside
  obtain ⟨after, orphaned, removed, isCase⟩ := teardownSessions_cases peerKey sessionIds
    later world.gate
  have state : (teardownSessions world.gate peerKey sessionIds later).state = after := by
    rcases isCase with ⟨_, isOutcome⟩ | isOutcome <;> rw [isOutcome]
  obtain ⟨registrations, cells, _, _⟩ := removed.frame
  have held : ∀ id session, Holds after id session ↔ Holds world.gate id session := by
    intro id session
    unfold Holds
    rw [cells]
  have wasDoomed : ∀ session ∈ sessionIds, world.links.doomed peerKey session := by
    intro session isRemoved
    exact ⟨handler, _, isAt, rfl, isRemoved⟩
  -- what follows names as orphans exactly what was found in the table
  have nextOrphans : ∀ key session,
      (∃ following ∈ (teardownSessions world.gate peerKey sessionIds later).next,
        following.orphans key session) ↔ (key, session) ∈ orphaned := by
    intro key session
    rcases isCase with ⟨none, isOutcome⟩ | isOutcome
    · rw [isOutcome, none]
      constructor
      · rintro ⟨following, isNext, orphans⟩
        exact absurd orphans (Task.not_orphans_of_not_midWay (afterTeardown_steady isNext).1)
      · intro isOrphan
        cases isOrphan
    · rw [isOutcome]
      constructor
      · rintro ⟨following, isNext, orphans⟩
        cases isNext
        exact orphans
      · intro isOrphan
        exact ⟨_, rfl, isOrphan⟩
  have nextSettled : ∀ following ∈ (teardownSessions world.gate peerKey sessionIds later).next,
      (∀ key session, ¬following.dooms after key session) ∧
        (∀ session key id, ¬following.notes session key id) ∧
          ∀ entry ∈ following.carries, entry ∈ later.getD [] := by
    intro following isNext
    rcases isCase with ⟨_, isOutcome⟩ | isOutcome
    · rw [isOutcome] at isNext
      have isSteady := afterTeardown_steady isNext
      exact ⟨fun _ _ => Task.not_dooms_of_not_midWay isSteady.1,
        fun _ _ _ => Task.not_notes_of_not_midWay isSteady.1, isSteady.2⟩
    · rw [isOutcome] at isNext
      cases isNext
      exact ⟨fun _ _ => not_false, fun _ _ _ => not_false, fun entry member => member⟩
  constructor
  · exact wasDoomed
  · intro key id
    have listed : ∀ other, Listed after key other ↔ Listed world.gate key other := by
      intro other
      unfold Listed
      rw [registrations]
    simp only [World.links, World.commit, state, listed]
  · intro id session
    show Holds (teardownSessions world.gate peerKey sessionIds later).state id session ↔ _
    rw [state]
    exact held id session
  · intro session key
    show (∃ found, (teardownSessions world.gate peerKey sessionIds later).state.sessions.lookup
      session = some found ∧ _) ↔ _
    rw [state, removed.sessions]
    by_cases isRemoved : session ∈ sessionIds
    · simp [isRemoved]
    · rw [if_neg isRemoved]
      exact (and_iff_left isRemoved).symm
  · intro key id
    apply torn_commit placed isAt beside
    intro following isNext entry member
    exact (nextSettled following isNext).2.2 entry member
  · intro key session isDoomed
    change (world.commit handler _).At (Task.dooms (teardownSessions world.gate peerKey sessionIds
      later).state key session) at isDoomed
    rw [state, at_commit placed isAt beside (not_dooms_inert _ key session)] at isDoomed
    rcases isDoomed with ⟨following, isNext, dooms⟩ | ⟨other, found, _, isFound, dooms⟩
    · exact absurd dooms ((nextSettled following isNext).1 key session)
    · exact ⟨other, found, isFound, (Task.dooms_congr fun id => held id session).mp dooms⟩
  · intro key session isDoomed
    rcases (at_iff isAt).mp isDoomed with dooms | elsewhere
    · exact Or.inl dooms.2
    · right
      show (world.commit handler _).At (Task.dooms (teardownSessions world.gate peerKey sessionIds
        later).state key session)
      rw [state, at_commit placed isAt beside (not_dooms_inert _ key session)]
      exact Or.inr (elsewhere.imp fun other found _ =>
        (Task.dooms_congr fun id => held id session).mpr)
  · intro key session isOrphan
    rcases (at_commit placed isAt beside (not_orphans_inert key session)).mp isOrphan with
      isNext | ⟨other, found, _, isFound, orphans⟩
    · right
      rcases (removed.orphans key session).mp ((nextOrphans key session).mp isNext) with
        before | ⟨isRemoved, _⟩
      · cases before
      · exact isRemoved
    · exact Or.inl ⟨other, found, isFound, orphans⟩
  · intro key session isOrphan
    rcases (at_iff isAt).mp isOrphan with orphans | elsewhere
    · exact orphans.elim
    · exact (at_commit placed isAt beside (not_orphans_inert key session)).mpr (Or.inr elsewhere)
  · rintro key session isRemoved ⟨found, isFound, isEnd⟩ apart
    -- the key the teardown is for is the other end
    have joinsPeer : ∃ found, world.gate.sessions.lookup session = some found ∧
        (peerKey = found.keyA ∨ peerKey = found.keyB) :=
      (tidy.links.doomed peerKey session key (wasDoomed session isRemoved)
        ⟨found, isFound, isEnd⟩).1
    obtain ⟨again, isAgain, isPeerEnd⟩ := joinsPeer
    rw [isFound] at isAgain
    cases isAgain
    have isOther : key = if found.keyA = peerKey then found.keyB else found.keyA := by
      split
      · next isA =>
          rw [isA] at isEnd
          exact isEnd.resolve_left apart
      · next notA =>
          have isB := isPeerEnd.resolve_left (Ne.symm notA)
          rw [← isB] at isEnd
          exact isEnd.resolve_right apart
    have isOrphan : (key, session) ∈ orphaned :=
      (removed.orphans key session).mpr (Or.inr ⟨isRemoved, found, isFound, isOther⟩)
    exact (at_commit placed isAt beside (not_orphans_inert key session)).mpr
      (Or.inl ((nextOrphans key session).mpr isOrphan))
  · intro session key id
    show (world.commit handler _).At _ ↔ world.At _
    rw [at_commit placed isAt beside (not_notes_inert session key id), at_iff isAt]
    apply or_congr _ Iff.rfl
    constructor
    · rintro ⟨following, isNext, notes⟩
      exact absurd notes ((nextSettled following isNext).2.1 session key id)
    · exact False.elim

end TeardownSessions

/-! ### `teardownOrphans` -/

section TeardownOrphans

variable {orphaned : List (Bytes32 × UInt32)} {later : Option (List (Bytes32 × Registration))}

theorem places_teardownOrphans :
    Places world (.teardownOrphans orphaned later)
      (teardownOrphans world.gate orphaned later) := by
  obtain ⟨cells, frame, fewer, _⟩ := teardownOrphans_frame world.gate orphaned
  have state : (teardownOrphans world.gate orphaned later).state = { world.gate with cells } :=
    frame
  apply Places.of_next ⟨by simp [Task.inert], by simp [teardownOrphans]⟩
  · rw [state]
  · rw [state]
    exact fun _ _ isListed => isListed
  · intro following isNext
    have isSteady := afterTeardown_steady (show following ∈ afterTeardown later from isNext)
    refine ⟨Task.not_starts_of_not_midWay isSteady.1, ?_⟩
    intro entry member
    exact Or.inl (isSteady.2 entry member)
  · intro _ id
    rw [state]
    exact fewer id

/-- The orphans leave the registrations of their keys. -/
theorem clear_teardownOrphans (tidy : Tidy world)
    (isAt : world.tasks.lookup handler = some (.teardownOrphans orphaned later)) :
    Links.Clear world.links
      (world.commit handler (teardownOrphans world.gate orphaned later)).links
      (fun key session => (key, session) ∈ orphaned) := by
  have placed := tidy.placed
  have beside : (teardownOrphans world.gate orphaned later).Beside
      (.teardownOrphans orphaned later) := places_teardownOrphans.beside
  obtain ⟨cells, frame, _, held⟩ := teardownOrphans_frame world.gate orphaned
  have state : (teardownOrphans world.gate orphaned later).state = { world.gate with cells } :=
    frame
  have nextSettled : ∀ following ∈ (teardownOrphans world.gate orphaned later).next,
      following.midWay = false ∧ ∀ entry ∈ following.carries, entry ∈ later.getD [] := by
    intro following isNext
    exact afterTeardown_steady isNext
  constructor
  · intro key session isOrphan
    exact ⟨handler, _, isAt, isOrphan⟩
  · intro key id
    simp only [World.links, World.commit, Listed, state]
  · intro id session
    show Holds (teardownOrphans world.gate orphaned later).state id session ↔ _
    rw [state]
    exact held id session
  · intro session key
    simp only [World.links, World.commit, state]
  · intro key id
    apply torn_commit placed isAt beside
    intro following isNext entry member
    exact (nextSettled following isNext).2 entry member
  · intro key session
    show (world.commit handler _).At (Task.dooms (teardownOrphans world.gate orphaned later).state
      key session) ↔ world.At _
    rw [state, at_commit placed isAt beside (not_dooms_inert _ key session), at_iff isAt]
    -- a registration whose sessions are about to be read is not listed, and keeps them
    have sameElsewhere : ∀ other (found : Task), world.tasks.lookup other = some found →
        (found.dooms { world.gate with cells } key session ↔
          found.dooms world.gate key session) := by
      intro other found isFound
      cases found with
      | teardownIds peerKey registration rest =>
          apply and_congr Iff.rfl
          rw [held]
          constructor
          · exact And.left
          · intro isHeld
            refine ⟨isHeld, ?_⟩
            rintro ⟨there, ⟨listed, isListed, isId⟩, _⟩
            exact placed.seized other peerKey registration rest isFound there listed isListed isId
      | _ => exact Iff.rfl
    constructor
    · rintro (⟨following, isNext, dooms⟩ | elsewhere)
      · exact absurd dooms (Task.not_dooms_of_not_midWay (nextSettled following isNext).1)
      · exact Or.inr (elsewhere.imp fun other found isFound =>
          (sameElsewhere other found isFound).mp)
    · rintro (dooms | elsewhere)
      · exact dooms.elim
      · exact Or.inr (elsewhere.imp fun other found isFound =>
          (sameElsewhere other found isFound).mpr)
  · intro key session isOrphan
    rcases (at_commit placed isAt beside (not_orphans_inert key session)).mp isOrphan with
      ⟨following, isNext, orphans⟩ | ⟨other, found, _, isFound, orphans⟩
    · exact absurd orphans (Task.not_orphans_of_not_midWay (nextSettled following isNext).1)
    · exact ⟨other, found, isFound, orphans⟩
  · intro key session isOrphan
    rcases (at_iff isAt).mp isOrphan with orphans | elsewhere
    · exact Or.inl orphans
    · right
      exact (at_commit placed isAt beside (not_orphans_inert key session)).mpr (Or.inr elsewhere)
  · intro session key id
    show (world.commit handler _).At _ ↔ world.At _
    rw [at_commit placed isAt beside (not_notes_inert session key id), at_iff isAt]
    apply or_congr _ Iff.rfl
    constructor
    · rintro ⟨following, isNext, notes⟩
      exact absurd notes (Task.not_notes_of_not_midWay (nextSettled following isNext).1)
    · exact False.elim

end TeardownOrphans

end Moves

end Mosschat.Net.Gate.Server
