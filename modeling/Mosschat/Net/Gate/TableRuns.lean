import Mosschat.Net.Gate.TableOpening

/-!
Owns the consistency of the gate's tables: over every order of the handlers' sections,
what the registrations, the session table and each registration's own set say of one
another, and what a teardown leaves of them.

Does not own who may open a session, or what is relayed over it.
-/

namespace Mosschat.Net.Gate.Server

open Mosschat.Core Mosschat.Library Mosschat.Library.Cbor Mosschat.Library.Machine

/-! ## Every run -/

section Runs

variable {F : Type} [F64 F] {world : World F} {handler : Handler}

/-- A session in the table was there, or has its shapers from what was not handed out. -/
def SessionsFrom (before after : ServerState F) : Prop :=
  ∀ session current, after.sessions.lookup session = some current →
    (∃ found, before.sessions.lookup session = some found ∧
      current.aToBShaper = found.aToBShaper) ∨ before.allocated ≤ current.aToBShaper

omit [F64 F] in
theorem SessionsFrom.of_eq {before after : ServerState F}
    (sessions : after.sessions = before.sessions) : SessionsFrom before after := by
  intro session current isCurrent
  rw [sessions] at isCurrent
  exact Or.inl ⟨current, isCurrent, rfl⟩

omit [F64 F] in
theorem Undisturbed.sessionsFrom {before after : ServerState F}
    (undisturbed : Undisturbed before after) : SessionsFrom before after := by
  intro session current isCurrent
  have same := undisturbed.sessions session
  rw [isCurrent, Option.map_some] at same
  obtain ⟨found, isFound, ends⟩ := Option.map_eq_some_iff.mp same.symm
  have sameShaper : found.aToBShaper = current.aToBShaper := congrArg (fun ends => ends.2.2) ends
  exact Or.inl ⟨found, isFound, sameShaper.symm⟩

/-- What a section does to the tables: it is one move of the links. -/
structure Moves (world : World F) (handler : Handler) (task : Task) (outcome : Outcome F) :
    Prop where
  capacity : outcome.state.capacity = world.gate.capacity
  slotted : Slotted outcome.state
  places : Places world task outcome
  sessions : SessionsFrom world.gate outcome.state
  move : Links.Move world.links (world.commit handler outcome).links

omit [F64 F] in
theorem Moves.of_steady {task : Task} {outcome : Outcome F} (tidy : Tidy world)
    (isAt : world.tasks.lookup handler = some task) (settled : task.midWay = false)
    (steady : Steady world.gate task outcome) : Moves world handler task outcome where
  capacity := steady.undisturbed.capacity
  slotted := steady.undisturbed.slotted tidy.slotted
  places := steady.places
  sessions := steady.undisturbed.sessionsFrom
  move := .idle (steady.idle tidy.placed isAt settled)

/-- Every section is one move, where an id that is drawn is remembered by nobody. -/
theorem moves_run (crypto : Crypto) (tidy : Tidy world) {task : Task} (ambient : Ambient)
    (isAt : world.tasks.lookup handler = some task)
    (unlocked : task.takesRegistrations = true → world.registrationsHeld = false)
    (unremembered : world.drawsUnremembered (.resume handler ambient) = true) :
    Moves world handler task (task.run crypto world.gate handler ambient) := by
  by_cases changes : task.changes = true
  · cases task with
    | answerOpen registration tag knock answeredAt =>
        show Moves world handler _
          (answerOpen world.gate handler registration tag knock answeredAt ambient)
        have opened := answerOpened_answerOpen world.gate handler registration tag knock answeredAt
          ambient
        generalize answerOpen world.gate handler registration tag knock answeredAt ambient =
          outcome at opened ⊢
        cases opened with
        | ended =>
            exact .of_steady tidy isAt rfl
              (.of_control (.refl _) rfl (by simp [Task.midWay, Task.carries]))
        | drawing =>
            exact .of_steady tidy isAt rfl
              (.of_control (.refl _) rfl (by simp [Task.midWay, Task.carries]))
        | created session requester target isFree isDrawn isRequester isTarget requesterRoom
            targetRoom =>
            have forgotten : ∀ other task, world.tasks.lookup other = some task →
                task.remembers world.gate session = false := by
              unfold World.drawsUnremembered at unremembered
              simp only [isAt, isDrawn, List.all_eq_true] at unremembered
              intro other task isFound
              have here := unremembered task ((HashMap.mem_values _ _).mpr ⟨other, isFound⟩)
              simpa using here
            exact
              { capacity := rfl
                slotted := slotted_openSession tidy.slotted
                places := places_openSession requesterRoom targetRoom
                sessions := by
                  intro other current isCurrent
                  change (world.gate.sessions.put session _).lookup other = _ at isCurrent
                  rw [HashMap.lookup_put] at isCurrent
                  split at isCurrent
                  · cases isCurrent
                    exact Or.inr (Nat.le_refl _)
                  · exact Or.inl ⟨current, isCurrent, rfl⟩
                move := .create _ _ _ _ _
                  (create_openSession tidy.placed isAt isFree forgotten isRequester isTarget) }
    | answerNote registration tag knock session requester target aToBShaper bToAShaper =>
        have room := tidy.placed.room handler registration tag knock session requester target
          aToBShaper bToAShaper isAt
        exact
          { capacity := (answerNote_state world.gate).capacity
            slotted := slotted_answerNote tidy.slotted room.1 room.2
            places := places_answerNote
            sessions := (answerNote_state world.gate).sessionsFrom
            move := .note _ (note_answerNote tidy isAt) }
    | teardown peerKey registration later =>
        obtain ⟨registrations, frame⟩ := teardown_frame world.gate peerKey registration later
        show Moves world handler _ (teardown world.gate peerKey registration later)
        exact
          { capacity := by rw [frame]
            slotted := slotted_teardown tidy.slotted peerKey registration later
            places := places_teardown tidy isAt
            sessions := .of_eq (by rw [frame])
            move := .unlist _ _ (unlist_teardown tidy.placed isAt (unlocked rfl)) }
    | teardownIds peerKey registration later =>
        have state : (teardownIds world.gate peerKey registration later).state = world.gate := by
          rcases teardownIds_cases peerKey registration later world.gate with ⟨_, isOutcome⟩ | isOutcome <;> rw [isOutcome]
        show Moves world handler _ (teardownIds world.gate peerKey registration later)
        exact
          { capacity := by rw [state]
            slotted := by
              rw [state]
              exact tidy.slotted
            places := places_teardownIds
            sessions := .of_eq (by rw [state])
            move := .idle (idle_teardownIds tidy.placed isAt) }
    | teardownSessions peerKey sessionIds later =>
        obtain ⟨after, orphaned, removed, isCase⟩ := teardownSessions_cases peerKey sessionIds
          later world.gate
        have state : (teardownSessions world.gate peerKey sessionIds later).state = after := by
          rcases isCase with ⟨_, isOutcome⟩ | isOutcome <;> rw [isOutcome]
        obtain ⟨registrations, cells, capacity, allocated⟩ := removed.frame
        have slotted : Slotted after := by
          have listed : ∀ key other, Listed after key other ↔ Listed world.gate key other := by
            intro key other
            unfold Listed
            rw [registrations]
          constructor
          · rw [registrations]
            exact tidy.slotted.sized
          · rw [registrations]
            exact tidy.slotted.apart
          · intro key other isListed
            rw [allocated]
            exact tidy.slotted.made key other ((listed key other).mp isListed)
          · rw [registrations, capacity]
            exact tidy.slotted.bounded
          · rw [cells]
            exact tidy.slotted.few
        show Moves world handler _ (teardownSessions world.gate peerKey sessionIds later)
        exact
          { capacity := by
              rw [state]
              exact capacity
            slotted := by
              rw [state]
              exact slotted
            places := places_teardownSessions
            sessions := by
              intro session current isCurrent
              rw [state, removed.sessions] at isCurrent
              split at isCurrent
              · cases isCurrent
              · exact Or.inl ⟨current, isCurrent, rfl⟩
            move := .remove _ _ (remove_teardownSessions tidy isAt) }
    | teardownOrphans orphaned later =>
        obtain ⟨cells, frame, fewer, _⟩ := teardownOrphans_frame world.gate orphaned
        have state : (teardownOrphans world.gate orphaned later).state =
            { world.gate with cells } := frame
        have slotted : Slotted { world.gate with cells } :=
          { sized := tidy.slotted.sized
            apart := tidy.slotted.apart
            made := tidy.slotted.made
            bounded := tidy.slotted.bounded
            few := fun id => (fewer id).trans (tidy.slotted.few id) }
        show Moves world handler _ (teardownOrphans world.gate orphaned later)
        exact
          { capacity := by rw [state]
            slotted := by
              rw [state]
              exact slotted
            places := places_teardownOrphans
            sessions := .of_eq (by rw [state])
            move := .clear _ (clear_teardownOrphans tidy isAt) }
    | _ => cases changes
  · have settled : task.changes = false := Bool.eq_false_iff.mpr changes
    have notMidWay : task.midWay = false := by
      cases task with
      | answerOpen | answerNote | teardown | teardownIds | teardownSessions | teardownOrphans =>
          cases settled
      | _ => rfl
    exact .of_steady tidy isAt notMidWay (steady_run crypto world.gate handler ambient settled)

/-- What an action that does something does. -/
structure Stepped (before after : World F) : Prop where
  move : Links.Move before.links after.links
  tidy : Tidy after
  capacity : after.gate.capacity = before.gate.capacity
  allocated : before.gate.allocated ≤ after.gate.allocated
  sessions : SessionsFrom before.gate after.gate
  listed : ∀ key other, Listed after.gate key other →
    Listed before.gate key other ∨ before.gate.allocated ≤ other.id

theorem stepped_step (crypto : Crypto) (tidy : Tidy world) (action : Action)
    (unremembered : world.drawsUnremembered action = true) :
    world.step crypto action = world ∨ Stepped world (world.step crypto action) := by
  unfold World.step
  split
  · next key observed now =>
      split
      · exact Or.inl rfl
      · have seat := seat_connect tidy.slotted tidy.placed key observed now
        obtain ⟨registrations, counters, cells, gate⟩ := connect_gate world key observed now
        right
        exact
          { move := .seat _ _ _ seat
            tidy :=
              { slotted := slotted_connect tidy.slotted key observed now
                placed := placed_connect tidy.placed key observed now
                links := tidy.links.seat seat }
            capacity := by rw [gate]
            allocated := by
              rw [gate]
              exact Nat.le_succ _
            sessions := .of_eq (by rw [gate])
            listed := by
              intro there other isListed
              rcases (listed_connect world key observed now there other).mp isListed with
                before | ⟨_, _, isNew⟩
              · exact Or.inl before
              · rw [isNew]
                exact Or.inr (Nat.le_refl _) }
  · next handler ambient =>
      split
      · exact Or.inl rfl
      · next task isAt =>
          split
          · exact Or.inl rfl
          · next notBlocked =>
              have unlocked : task.takesRegistrations = true →
                  world.registrationsHeld = false := by
                intro takes
                rw [takes, Bool.true_and] at notBlocked
                exact Bool.eq_false_iff.mpr notBlocked
              have moves := moves_run crypto tidy ambient isAt unlocked unremembered
              right
              exact
                { move := moves.move
                  tidy :=
                    { slotted := moves.slotted
                      placed := placed_commit tidy.slotted tidy.placed isAt unlocked moves.places
                      links := tidy.links.move moves.move }
                  capacity := moves.capacity
                  allocated := moves.places.allocated
                  sessions := moves.sessions
                  listed := fun key other isListed =>
                    Or.inl (moves.places.listed key other isListed) }

theorem tidy_step (crypto : Crypto) (world : World F) (action : Action) (tidy : Tidy world)
    (unremembered : world.drawsUnremembered action = true) :
    Tidy (world.step crypto action) := by
  rcases stepped_step crypto tidy action unremembered with same | stepped
  · rw [same]
    exact tidy
  · exact stepped.tidy

theorem tidy_bind (community : Bytes32) (capacity : Nat) :
    Tidy (World.bind community capacity : World F) := by
  have onlySweep : ∀ handler task,
      (World.bind community capacity : World F).tasks.lookup handler = some task →
        handler = .sweep ∧ task = .sweepLoop := by
    intro handler task isFound
    change ((∅ : HashMap Handler Task).put .sweep .sweepLoop).lookup handler = some task at isFound
    rw [HashMap.lookup_put] at isFound
    split at isFound
    · next isSweep =>
        cases isFound
        exact ⟨isSweep, rfl⟩
    · cases isFound
  have nowhere : ∀ meets : Task → Prop, ¬meets .sweepLoop →
      ¬(World.bind community capacity : World F).At meets := by
    rintro meets notMet ⟨handler, task, isFound, isMet⟩
    rw [(onlySweep handler task isFound).2] at isMet
    exact notMet isMet
  have unlisted : ∀ key registration,
      ¬Listed (World.bind community capacity : World F).gate key registration := by
    rintro key registration ⟨list, isListed, _⟩
    cases isListed
  exact
    { slotted :=
        { sized := by
            intro key list isListed
            cases isListed
          apart := by
            intro key list isListed
            cases isListed
          made := fun key registration isListed => absurd isListed (unlisted key registration)
          bounded := Nat.zero_le _
          few := fun id => Nat.zero_le _ }
      placed :=
        { inert := by
            intro handler task isFound isSpawnable
            rw [(onlySweep handler task isFound).1] at isSpawnable
            cases isSpawnable
          control := by
            intro id task isFound
            cases (onlySweep _ task isFound).1
          carried := by
            intro handler task isFound entry member
            rw [(onlySweep handler task isFound).2] at member
            cases member
          seized := by
            intro handler peerKey registration later isFound
            cases (onlySweep handler _ isFound).2
          alone := by
            intro handler other task otherTask isFound isOther _ _
            rw [(onlySweep handler task isFound).1, (onlySweep other otherTask isOther).1]
          room := by
            intro handler registration tag knock session requester target x y isFound
            cases (onlySweep handler _ isFound).2 }
      links :=
        { slotKey := by
            rintro key other party ⟨registration, isListed, _⟩
            exact absurd isListed (unlisted key registration)
          tornKey := by
            rintro key other party _ ⟨registration, isListed, _⟩
            exact absurd isListed (unlisted other registration)
          sole := by
            rintro key link party other ⟨registration, isListed, _⟩
            exact absurd isListed (unlisted key registration)
          joined := by
            rintro key link party ⟨registration, isListed, _⟩
            exact absurd isListed (unlisted key registration)
          listed := by
            rintro key link ⟨found, isFound, _⟩
            cases isFound
          doomed := by
            rintro key link other _ ⟨found, isFound, _⟩
            cases isFound
          orphaned := by
            rintro key link other _ ⟨found, isFound, _⟩
            cases isFound
          torn := by
            rintro key link other party _ _ ⟨found, isFound, _⟩
            cases isFound
          noting := by
            intro link key party isNoting
            exact absurd isNoting (nowhere _ not_false)
          notingSole := by
            intro link key party other isNoting
            exact absurd isNoting (nowhere _ not_false) } }

/-- What the tables agree on, and whose capacity it is. -/
def TidyFor (capacity : Nat) (world : World F) : Prop :=
  Tidy world ∧ world.gate.capacity = capacity

theorem tidyFor_step (crypto : Crypto) (capacity : Nat) (world : World F) (action : Action)
    (tidy : TidyFor capacity world) (unremembered : world.drawsUnremembered action = true) :
    TidyFor capacity (world.step crypto action) := by
  rcases stepped_step crypto tidy.1 action unremembered with same | stepped
  · rw [same]
    exact tidy
  · exact ⟨stepped.tidy, stepped.capacity.trans tidy.2⟩

/-- Every run in which no remembered id is drawn keeps the tables tidy. -/
theorem tidyFor_run (crypto : Crypto) (community : Bytes32) (capacity : Nat)
    {actions : List Action}
    (unremembered : Guarded (World.step crypto)
      (fun world action => world.drawsUnremembered action = true)
      (World.bind community capacity : World F) actions) :
    TidyFor capacity
      (run (World.step crypto) (World.bind community capacity : World F) actions) :=
  run_preserves (tidyFor_step crypto capacity) ⟨tidy_bind community capacity, rfl⟩ unremembered

omit [F64 F] in
theorem Slotted.registration_eq {state : ServerState F} (slotted : Slotted state)
    {key : Bytes32} {left right : Registration} (isLeft : Listed state key left)
    (isRight : Listed state key right) (sameId : left.id = right.id) : left = right := by
  obtain ⟨list, isListed, leftInside⟩ := isLeft
  obtain ⟨again, isAgain, rightInside⟩ := isRight
  rw [isListed] at isAgain
  cases isAgain
  exact List.inj_on_of_nodup_map (slotted.apart key list isListed) leftInside rightInside sameId

omit [F64 F] in
/-- Where no handler is midway, the tables agree. -/
theorem Tidy.agree {capacity : Nat} (tidy : TidyFor capacity world) (settled : world.Settled) :
    TablesAgree capacity world.gate := by
  have undoomed : ∀ key session, ¬world.links.doomed key session := by
    rintro key session ⟨handler, task, isFound, dooms⟩
    exact Task.not_dooms_of_not_midWay (settled handler task isFound) dooms
  have unorphaned : ∀ key session, ¬world.links.orphaned key session := by
    rintro key session ⟨handler, task, isFound, orphans⟩
    exact Task.not_orphans_of_not_midWay (settled handler task isFound) orphans
  have unnoted : ∀ session key id, ¬world.links.noting session key id := by
    rintro session key id ⟨handler, task, isFound, notes⟩
    exact Task.not_notes_of_not_midWay (settled handler task isFound) notes
  exact
    { keys := by
        rw [← tidy.2]
        exact tidy.1.slotted.bounded
      connections := tidy.1.slotted.sized
      own := fun key registration isListed => (tidy.1.slotted.made key registration isListed).1
      few := tidy.1.slotted.few
      held := by
        intro session found key isFound isEnd
        obtain ⟨id, ⟨registration, isListed, isId⟩, isHeld⟩ :=
          @Links.Consistent.held _ _ _ _ tidy.1.links undoomed unnoted session key
            ⟨found, isFound, isEnd⟩
        rw [← isId] at isHeld
        refine ⟨registration, ⟨isListed, isHeld⟩, ?_⟩
        rintro other ⟨alsoListed, alsoHeld⟩
        have sameId := tidy.1.links.sole key session other.id registration.id
          ⟨other, alsoListed, rfl⟩ ⟨registration, isListed, rfl⟩ alsoHeld isHeld
        exact tidy.1.slotted.registration_eq alsoListed isListed sameId
      joined := by
        intro key registration session isListed isHeld
        exact tidy.1.links.inTable unorphaned ⟨registration, isListed, rfl⟩ isHeld }

/-- A registration is torn down: it is listed no more, and what the table has under the
id of a session it held is new or about to leave. -/
structure TornDown (start : ServerState F) (peerKey : Bytes32) (registration : Registration)
    (world : World F) : Prop where
  made : registration.id < start.allocated
  later : start.allocated ≤ world.gate.allocated
  unlisted : ∀ key other, Listed world.gate key other → other.id ≠ registration.id
  gone : ∀ session, Holds start registration.id session →
    ∀ found, world.gate.sessions.lookup session = some found →
      start.allocated ≤ found.aToBShaper ∨ world.links.doomed peerKey session

theorem tornDown_step (crypto : Crypto) {start : ServerState F} {peerKey : Bytes32}
    {registration : Registration} (world : World F) (action : Action)
    (torn : Tidy world ∧ TornDown start peerKey registration world)
    (unremembered : world.drawsUnremembered action = true) :
    Tidy (world.step crypto action) ∧
      TornDown start peerKey registration (world.step crypto action) := by
  obtain ⟨tidy, before⟩ := torn
  rcases stepped_step crypto tidy action unremembered with same | stepped
  · rw [same]
    exact ⟨tidy, before⟩
  · refine ⟨stepped.tidy, before.made, before.later.trans stepped.allocated, ?_, ?_⟩
    · intro key other isListed
      rcases stepped.listed key other isListed with wasListed | isNew
      · exact before.unlisted key other wasListed
      · have made := before.made
        have later := before.later
        omega
    · intro session isHeld current isCurrent
      rcases stepped.sessions session current isCurrent with ⟨found, isFound, sameShaper⟩ | isNew
      · rw [sameShaper]
        rcases before.gone session isHeld found isFound with wasNew | isDoomed
        · exact Or.inl wasNew
        · right
          apply (stepped.move.doomed_or isDoomed).resolve_right
          intro removed
          exact removed current.keyA ⟨current, isCurrent, Or.inl rfl⟩
      · exact Or.inl (before.later.trans isNew)

/-- The first section of a teardown. -/
theorem tornDown_teardown (crypto : Crypto) (tidy : Tidy world) (ambient : Ambient)
    {peerKey : Bytes32} {registration : Registration}
    {later : Option (List (Bytes32 × Registration))}
    (isAt : world.tasks.lookup handler = some (.teardown peerKey registration later))
    (free : world.registrationsHeld = false) :
    TornDown world.gate peerKey registration (world.step crypto (.resume handler ambient)) := by
  have stepped : world.step crypto (.resume handler ambient) =
      world.commit handler (teardown world.gate peerKey registration later) := by
    simp only [World.step, isAt, free, Bool.and_false, Bool.false_eq_true, if_false]
    rfl
  rw [stepped]
  have places := places_teardown tidy isAt
  have unlist := unlist_teardown tidy.placed isAt free
  exact
    { made := (tidy.placed.carried handler _ isAt _ List.mem_cons_self).2
      later := places.allocated
      unlisted := by
        intro key other isListed isGone
        have before := (listed_teardown world.gate peerKey registration later key other).mp isListed
        have isPeer := tidy.links.tornKey peerKey key registration.id unlist.mayTear
          ⟨other, before.1, isGone⟩
        exact before.2 ⟨isPeer.symm, isGone⟩
      gone := fun session isHeld _ _ =>
        Or.inr ((unlist.doomed peerKey session).mpr (Or.inr ⟨rfl, isHeld⟩)) }

/-- In every run of the gate in which no session is created under an id that a handler
still remembers from a teardown: whenever no handler is midway, the three tables agree,
and they mention no registration that was torn down, once or twice or beside others, nor
a session it held when its teardown began: what the session table has under such an id
was created since. -/
theorem tables_consistent (crypto : Crypto) (community : Bytes32) (capacity : Nat)
    (actions : List Action)
    (unremembered : Guarded (World.step crypto)
      (fun world action => world.drawsUnremembered action = true)
      (World.bind community capacity : World F) actions) :
    let world := run (World.step crypto) (World.bind community capacity : World F) actions
    world.Settled →
      TablesAgree capacity world.gate ∧
      ∀ before after handler ambient peerKey registration later,
        actions = before ++ .resume handler ambient :: after →
        let start := run (World.step crypto) (World.bind community capacity : World F) before
        start.tasks.lookup handler = some (.teardown peerKey registration later) →
        start.registrationsHeld = false →
          (∀ key other, Listed world.gate key other → other.id ≠ registration.id) ∧
          ∀ session, Holds start.gate registration.id session →
            (∀ found, world.gate.sessions.lookup session = some found →
              start.gate.allocated ≤ found.aToBShaper) ∧
            (world.gate.sessions.lookup session = none →
              ∀ key other, Listed world.gate key other → ¬Holds world.gate other.id session) := by
  intro world settled
  have agree : TablesAgree capacity world.gate :=
    Tidy.agree (tidyFor_run crypto community capacity unremembered) settled
  refine ⟨agree, ?_⟩
  intro before after handler ambient peerKey registration later isSplit start isAt free
  rw [isSplit, guarded_append] at unremembered
  have tidy : Tidy start := (tidyFor_run crypto community capacity unremembered.1).1
  have reached : world = run (World.step crypto)
      (start.step crypto (.resume handler ambient)) after := by
    show run _ _ actions = _
    rw [isSplit, run_append]
    rfl
  have torn : TornDown start.gate peerKey registration world := by
    rw [reached]
    have first := tornDown_teardown crypto tidy ambient isAt free
    have tidyAfter := tidy_step crypto start (.resume handler ambient) tidy unremembered.2.1
    exact (run_preserves (tornDown_step crypto) ⟨tidyAfter, first⟩ unremembered.2.2).2
  refine ⟨torn.unlisted, ?_⟩
  intro session isHeld
  constructor
  · intro found isFound
    apply (torn.gone session isHeld found isFound).resolve_right
    rintro ⟨other, task, isOther, dooms⟩
    exact Task.not_dooms_of_not_midWay (settled other task isOther) dooms
  · intro absent key other isListed alsoHeld
    obtain ⟨found, isFound, _⟩ := agree.joined key other session isListed alsoHeld
    rw [absent] at isFound
    cases isFound

omit [F64 F] in
theorem settled_of_all (all : (world.tasks.values.all fun task => !task.midWay) = true) :
    world.Settled := by
  intro handler task isFound
  rw [List.all_eq_true] at all
  simpa using all task ((HashMap.mem_values _ _).mpr ⟨handler, isFound⟩)

end Runs

/-! ### Two houses part -/

/-- The introduction, and the end of the requester's connection. -/
def farewell : List Action :=
  introduction ++ [.resume (.control 1) { now := 2 }] ++
    List.replicate 5 (.resume (.control 0) { now := 3 })

/-- After the introduction the requester knocks again, its connection ends, and before the
last section of the teardown it is back: the second answer draws the id of the session
that is being torn down. -/
def redrawn : List Action :=
  introduction ++ [.resume (.control 1) { now := 2 },
    .resume (.control 0) { now := 3, frame := some (.introduce 1 pairOfKeys 90 []) }] ++
  List.replicate 9 (.resume (.control 0) { now := 4 }) ++
  [.connect requesterKey houseAddr 5, .resume (.control 4) { now := 5 },
    .resume (.control 1) { now := 5, frame := some (.knockAnswer 1 pairOfKeys true) }] ++
  List.replicate 4 (.resume (.control 1) { now := 5, sessionIds := [7] }) ++
  [.resume (.control 0) { now := 6 }]

/-- Once the requester is gone the tables agree. -/
theorem tables_consistent_farewell :
    TablesAgree 2
      (run (World.step pairCrypto) (World.bind zero32 2 : World Nat) farewell).gate :=
  (tables_consistent pairCrypto zero32 2 farewell (by decide +kernel)
    (settled_of_all (by decide +kernel))).1

/-- Where the id was drawn again, the session is in the table, and its target, which is
there, does not hold it. -/
theorem tables_disagree_redrawn :
    let world := run (World.step pairCrypto) (World.bind zero32 2 : World Nat) redrawn
    world.Settled ∧ ¬TablesAgree 2 world.gate := by
  intro world
  refine ⟨settled_of_all (by decide +kernel), ?_⟩
  intro agree
  have isThere : (world.gate.sessions.lookup 7).isSome = true := by decide +kernel
  have isOfTarget : (world.gate.sessions.lookup 7).all (fun found => found.keyB == targetKey) =
      true := by decide +kernel
  have unheld : ((world.gate.registrations.lookup targetKey).getD []).all (fun registration =>
      ((world.gate.cells registration.id).sessions.lookup 7).isNone) = true := by decide +kernel
  obtain ⟨found, isFound⟩ := Option.isSome_iff_exists.mp isThere
  rw [isFound, Option.all_some, beq_iff_eq] at isOfTarget
  obtain ⟨registration, ⟨⟨list, isListed, inside⟩, isHeld⟩, _⟩ :=
    agree.held 7 found targetKey isFound (Or.inr isOfTarget.symm)
  rw [isListed, Option.getD_some, List.all_eq_true] at unheld
  have none := unheld registration inside
  rw [isHeld] at none
  cases none

end Mosschat.Net.Gate.Server
