import Mosschat.Net.Gate.TableRuns

/-!
Owns what becomes of an accept at the gate: over every order of the handlers' sections,
when the answer of a knock's target ends with a session for its pair, and the crossing
of two knocks in which it does not.

Does not own what a house answers, or how the two sides of a session find each other.
-/

namespace Mosschat.Net.Gate.Server

open Mosschat.Core Mosschat.Library Mosschat.Library.Cbor Mosschat.Library.Machine
open Mosschat.Library.Log

/-! ## An accept and its handling -/

/-- The section belongs to `handle_knock_answer`. -/
def Task.inAnswer : Task → Bool
  | .answer .. | .answerCheck .. | .answerOpen .. | .answerNote .. => true
  | _ => false

/-- The section compares the clock with a knock's deadline. -/
def Task.checksDeadline : Task → Bool
  | .answerCheck .. => true
  | _ => false

/-- The handler that created the session, for the event that notes one. -/
def Event.opener : Event → Option Handler
  | .opened handler _ _ _ _ _ _ _ => some handler
  | _ => none

/-- The event notes a session between the two keys, whichever of them asked. -/
def Event.joins (left right : Bytes32) : Event → Prop
  | .opened _ _ keyA keyB _ _ _ _ => keyA = left ∧ keyB = right ∨ keyA = right ∧ keyB = left
  | _ => False

/-- A session between the two keys was created after this position. -/
def JoinedSince (history : List Event) (position : Nat) (left right : Bytes32) : Prop :=
  ∃ later event, position < later ∧ history[later]? = some event ∧ event.joins left right

section Handling

variable {F : Type} [F64 F]

/-- The gate as it stands before the action of the index. -/
def worldAt (F : Type) [F64 F] (crypto : Crypto) (community : Bytes32) (capacity : Nat)
    (actions : List Action) (index : Nat) : World F :=
  run (World.step crypto) (World.bind community capacity) (actions.take index)

/-- The key is registered, and its newest registration is below the session limit. -/
def Ready (state : ServerState F) (key : Bytes32) : Prop :=
  ∃ registration, state.lastOf key = some registration ∧
    (state.cells registration.id).sessions.entries.length < limits.maxSessionsPerRegistration

/-- The action of index `first` takes an accept of the tag up, the handler is at no section
of another frame until `last`, and there it is at its next read. -/
structure Handles (actions : List Action) (worlds : Nat → World F) (handler : Handler)
    (registration : Registration) (tag : Bytes32) (first last : Nat) : Prop where
  taken : (worlds first).tasks.lookup handler = some (.answer registration tag true)
  resumed : ∃ ambient, actions[first]? = some (.resume handler ambient)
  before : first < last
  inside : last ≤ actions.length
  working : ∀ index, first ≤ index → index < last →
    ∃ task, (worlds index).tasks.lookup handler = some task ∧ task.inAnswer = true
  done : (worlds last).tasks.lookup handler = some (.controlLoop registration)

/-- Each time before `last` that the handler compares the clock with a deadline, it reads
this or earlier. -/
def ChecksBy (actions : List Action) (worlds : Nat → World F) (handler : Handler)
    (first last deadline : Nat) : Prop :=
  ∀ index ambient task, first ≤ index → index < last →
    actions[index]? = some (.resume handler ambient) →
    (worlds index).tasks.lookup handler = some task → task.checksDeadline = true →
      ambient.now ≤ deadline

/-- The target of the knock recorded at `introducedAt` accepts within its time to live, and
both houses are registered and below the session limit until the session is there. -/
structure AcceptInTime (actions : List Action) (worlds : Nat → World F) (handler : Handler)
    (registration : Registration) (requester tag : Bytes32) (ttlS : UInt16)
    (introducedAt recordedAt first last : Nat) : Prop where
  handled : Handles actions worlds handler registration tag first last
  introduced : (worlds first).history[introducedAt]? =
    some (.introduced requester registration.key tag ttlS recordedAt)
  arrived : ∀ ambient, actions[first]? = some (.resume handler ambient) →
    ambient.now ≤ recordedAt + fromSecs ttlS.toNat
  inTime : ChecksBy actions worlds handler first last (recordedAt + fromSecs ttlS.toNat)
  ready : ∀ index task, first ≤ index → index < last →
    (worlds index).tasks.lookup handler = some task → task.holdsRegistrations = false →
      Ready (worlds index).gate requester ∧ Ready (worlds index).gate registration.key

/-- When the accept is taken up, the slot of the tag holds a knock of the requester for the
key that answers, whose own deadline is not over when it is compared. -/
def StillPending (actions : List Action) (worlds : Nat → World F) (handler : Handler)
    (requester target tag : Bytes32) (first last : Nat) : Prop :=
  ∃ knock, (worlds first).gate.knocks.lookup tag = some knock ∧ knock.requester = requester ∧
    knock.target = target ∧ ChecksBy actions worlds handler first last knock.deadline

/-- Another answer joined the two: one handled before, or by another handler. -/
def JoinedByAnother (worlds : Nat → World F) (handler : Handler) (requester target : Bytes32)
    (introducedAt first last : Nat) : Prop :=
  ∃ later event, introducedAt < later ∧ (worlds last).history[later]? = some event ∧
    event.joins requester target ∧
    (later < (worlds first).history.length ∨ event.opener ≠ some handler)

end Handling

/-! ## One action, seen from a handler -/

section Steps

variable {F : Type} [F64 F] {crypto : Crypto} {community : Bytes32} {world : World F}
  {handler : Handler}

/-- Whatever is spawned runs beside the control loops. -/
theorem inert_spawned (crypto : Crypto) (state : ServerState F) (handler : Handler)
    (ambient : Ambient) (task : Task) :
    ∀ entry ∈ (task.run crypto state handler ambient).spawned, entry.2.inert = true := by
  by_cases settled : task.changes = false
  · intro entry member
    exact ((steady_run crypto state handler ambient settled).beside.spawned entry member).2
  · cases task with
    | answerOpen registration tag knock answeredAt =>
        show ∀ entry ∈
          (answerOpen state handler registration tag knock answeredAt ambient).spawned,
            entry.2.inert = true
        have opened := answerOpened_answerOpen state handler registration tag knock answeredAt
          ambient
        generalize answerOpen state handler registration tag knock answeredAt ambient = outcome
          at opened ⊢
        cases opened with
        | ended => simp
        | drawing => simp
        | created => simp [openSession]
    | answerNote registration tag knock session requester target aToBShaper bToAShaper =>
        simp [Task.run, answerNote, Task.inert]
    | teardown peerKey registration later =>
        intro entry member
        have beside : (teardown state peerKey registration later).Beside _ :=
          beside_teardown peerKey registration later state
        exact (beside.spawned entry member).2
    | teardownIds peerKey registration later =>
        intro entry member
        have beside : (teardownIds state peerKey registration later).Beside _ :=
          beside_teardownIds peerKey registration later state
        exact (beside.spawned entry member).2
    | teardownSessions peerKey sessionIds later =>
        show ∀ entry ∈ (teardownSessions state peerKey sessionIds later).spawned,
          entry.2.inert = true
        unfold teardownSessions
        dsimp only
        split <;> simp
    | teardownOrphans orphaned later => simp [Task.run, teardownOrphans]
    | _ => exact absurd rfl settled

/-- The handler is at a section of its answer, or at its next read. -/
def Task.answering : Task → Bool
  | .controlLoop .. => true
  | task => task.inAnswer

theorem Task.not_answering_of_inert {task : Task} (isInert : task.inert = true) :
    task.answering = false := by
  cases task with
  | relayLoop | forward | enqueue | writer | drain | drainCheck | drainSeat | drainSend => rfl
  | _ => cases isInert

/-- One action leaves a handler that answers where it is and creates no session for it, or
is its next section. -/
theorem answering_step (inv : Inv crypto community world) {task following : Task}
    (action : Action) (isAt : world.tasks.lookup handler = some task)
    (isNext : (world.step crypto action).tasks.lookup handler = some following)
    (answers : following.answering = true) :
    ((following = task ∧ ∀ ambient, action = .resume handler ambient →
          task.takesRegistrations = true) ∧
        ∃ more, (world.step crypto action).history = world.history ++ more ∧
          ∀ event ∈ more, event.opener ≠ some handler) ∨
      ∃ ambient, action = .resume handler ambient ∧
        world.step crypto action =
          world.commit handler (task.run crypto world.gate handler ambient) ∧
        (task.run crypto world.gate handler ambient).next = some following := by
  unfold World.step at isNext ⊢
  split at isNext
  · next key observed now =>
      split at isNext
      · next held =>
          rw [isAt] at isNext
          cases isNext
          rw [if_pos held]
          exact Or.inl ⟨⟨rfl, by simp⟩, [], by simp, by simp⟩
      · next free =>
          rw [if_neg free, connect_history]
          rcases lookup_connect_tasks isNext with before | isNew
          · rw [isAt] at before
            cases before
            exact Or.inl ⟨⟨rfl, by simp⟩, [], by simp, by simp⟩
          · rw [isNew] at answers
            cases answers
  · next actor ambient =>
      split at isNext
      · next idle =>
          rw [isAt] at isNext
          cases isNext
          refine Or.inl ⟨⟨rfl, ?_⟩, [], by simp, by simp⟩
          intro other isOther
          cases isOther
          rw [isAt] at idle
          cases idle
      · next acting isActing =>
          split at isNext
          · next waits =>
              rw [isAt] at isNext
              cases isNext
              rw [if_pos waits]
              refine Or.inl ⟨⟨rfl, ?_⟩, [], by simp, by simp⟩
              intro other isOther
              cases isOther
              rw [isAt] at isActing
              cases isActing
              rw [Bool.and_eq_true] at waits
              exact waits.1
          · next goes =>
              rw [if_neg goes]
              have sound := sound_run inv ambient (inv.task actor acting isActing)
              rcases lookup_commit_tasks isNext with
                isSpawned | ⟨isActor, follows⟩ | ⟨apart, before⟩
              · have isInert := inert_spawned crypto world.gate actor ambient acting _ isSpawned
                rw [Task.not_answering_of_inert isInert] at answers
                cases answers
              · subst isActor
                rw [isAt] at isActing
                cases isActing
                exact Or.inr ⟨ambient, rfl, rfl, follows⟩
              · rw [isAt] at before
                cases before
                refine Or.inl ⟨⟨rfl, ?_⟩, _, rfl, ?_⟩
                · intro other isOther
                  cases isOther
                  exact absurd rfl apart
                intro event noted isOpener
                apply apart
                apply sound.marked event (Option.mem_toList.mp noted)
                cases event with
                | opened opener session keyA keyB tag answeredAt aToBShaper bToAShaper =>
                    exact Option.some.inj isOpener
                | _ => cases isOpener

/-- What `answerOpen` comes to, and that it ends without a session only where one of the
houses is not ready. -/
theorem answerOpen_cases (state : ServerState F) (handler : Handler)
    (registration : Registration) (tag : Bytes32) (knock : KnockState) (answeredAt : Nat)
    (ambient : Ambient) :
    (answerOpen state handler registration tag knock answeredAt ambient =
          { state, next := some (.controlLoop registration) } ∧
        ¬(Ready state knock.requester ∧ Ready state knock.target)) ∨
      answerOpen state handler registration tag knock answeredAt ambient =
          { state, next := some (.answerOpen registration tag knock answeredAt) } ∨
        ∃ session requester target,
          answerOpen state handler registration tag knock answeredAt ambient =
            openSession state handler registration tag knock answeredAt session requester target
              ambient.now := by
  unfold answerOpen
  split
  · next absent =>
      refine Or.inl ⟨rfl, ?_⟩
      rintro ⟨⟨requester, isRequester, _⟩, _⟩
      rw [absent] at isRequester
      cases isRequester
  · next requester isRequester =>
      split
      · next absent =>
          refine Or.inl ⟨rfl, ?_⟩
          rintro ⟨_, target, isTarget, _⟩
          rw [absent] at isTarget
          cases isTarget
      · next target isTarget =>
          split
          · next full =>
              refine Or.inl ⟨rfl, ?_⟩
              rintro ⟨⟨other, isOther, requesterRoom⟩, another, isAnother, targetRoom⟩
              rw [isRequester] at isOther
              rw [isTarget] at isAnother
              cases isOther
              cases isAnother
              omega
          · split
            · exact Or.inr (Or.inl rfl)
            · next session _ => exact Or.inr (Or.inr ⟨session, requester, target, rfl⟩)

end Steps

/-! ## The handling of one accept -/

section Progress

variable {F : Type} [F64 F] {actions : List Action} {worlds : Nat → World F} {handler : Handler}
  {registration : Registration} {tag : Bytes32} {knock : KnockState}
  {first index last deadline : Nat}

/-- The handler created no session between the two indices. -/
def Quiet (worlds : Nat → World F) (handler : Handler) (first index : Nat) : Prop :=
  ∀ position event, (worlds first).history.length ≤ position →
    (worlds index).history[position]? = some event → event.opener ≠ some handler

/-- The event notes the session of the knock, created by the handler. -/
def KnockState.OpenedBy (knock : KnockState) (handler : Handler) : Event → Prop
  | .opened opener _ keyA keyB _ _ _ _ =>
      opener = handler ∧ keyA = knock.requester ∧ keyB = knock.target
  | _ => False

/-- How far the handler is that took the knock out for the accept. -/
inductive Progress (actions : List Action) (worlds : Nat → World F) (handler : Handler)
    (registration : Registration) (tag : Bytes32) (knock : KnockState) (first index : Nat) :
    Prop where
  | checking
      (isAt : (worlds index).tasks.lookup handler =
        some (.answerCheck registration tag true knock))
      (inTime : ChecksBy actions worlds handler first index knock.deadline)
      (quiet : Quiet worlds handler first index)
  | opening (answeredAt : Nat)
      (isAt : (worlds index).tasks.lookup handler =
        some (.answerOpen registration tag knock answeredAt))
      (inTime : ChecksBy actions worlds handler first index knock.deadline)
      (quiet : Quiet worlds handler first index)
  /-- The session is created. -/
  | joined (task : Task) (isAt : (worlds index).tasks.lookup handler = some task)
      (past : task.inAnswer = true → task.holdsRegistrations = true)
      (inTime : ChecksBy actions worlds handler first index knock.deadline)
      (only : ∀ position event, (worlds first).history.length ≤ position →
        (worlds index).history[position]? = some event → event.opener = some handler →
          knock.OpenedBy handler event)
      (noted : ∃ position event, (worlds first).history.length ≤ position ∧
        (worlds index).history[position]? = some event ∧ knock.OpenedBy handler event)
  /-- The accept came to nothing. -/
  | ended (isAt : (worlds index).tasks.lookup handler = some (.controlLoop registration))
      (quiet : Quiet worlds handler first index)
      (why : (∃ ambient earlier, first ≤ earlier ∧ earlier < index ∧
          actions[earlier]? = some (.resume handler ambient) ∧
            (worlds earlier).tasks.lookup handler =
              some (.answerCheck registration tag true knock) ∧
            knock.deadline < ambient.now) ∨
        ∃ answeredAt earlier, first ≤ earlier ∧ earlier < index ∧
          (worlds earlier).tasks.lookup handler =
              some (.answerOpen registration tag knock answeredAt) ∧
            ¬(Ready (worlds earlier).gate knock.requester ∧
              Ready (worlds earlier).gate knock.target))

omit [F64 F] in
theorem ChecksBy.snoc (checks : ChecksBy actions worlds handler first index deadline)
    (latest : ∀ ambient task, actions[index]? = some (.resume handler ambient) →
      (worlds index).tasks.lookup handler = some task → task.checksDeadline = true →
        ambient.now ≤ deadline) :
    ChecksBy actions worlds handler first (index + 1) deadline := by
  intro place ambient task after before resumed isAt isCheck
  by_cases isLast : place = index
  · subst isLast
    exact latest ambient task resumed isAt isCheck
  · have earlier : place < index := by omega
    exact checks place ambient task after earlier resumed isAt isCheck

omit [F64 F] in
theorem Quiet.append (quiet : Quiet worlds handler first index) {next : Nat} {more : List Event}
    (grown : (worlds next).history = (worlds index).history ++ more)
    (others : ∀ event ∈ more, event.opener ≠ some handler) :
    Quiet worlds handler first next := by
  intro position event since found
  rw [grown] at found
  rcases getElem?_append_cases found with before | new
  · exact quiet position event since before
  · exact others event new

omit [F64 F] in
/-- The deadline checks so far are all there are, where the action checks none. -/
theorem ChecksBy.snoc_of_not_checks (checks : ChecksBy actions worlds handler first index deadline)
    {task : Task} (isAt : (worlds index).tasks.lookup handler = some task)
    (checksNone : task.checksDeadline = false) :
    ChecksBy actions worlds handler first (index + 1) deadline := by
  apply checks.snoc
  intro ambient other _ isOther isCheck
  rw [isAt] at isOther
  cases isOther
  rw [checksNone] at isCheck
  cases isCheck

section Step

variable {crypto : Crypto} {community : Bytes32} {action : Action}

/-- At the look at the deadline. -/
theorem progress_checking (trace : worlds (index + 1) = (worlds index).step crypto action)
    (isAction : actions[index]? = some action) (inv : Inv crypto community (worlds index))
    (begun : first ≤ index)
    (answers : ∃ following, (worlds (index + 1)).tasks.lookup handler = some following ∧
      following.answering = true)
    (isAt : (worlds index).tasks.lookup handler = some (.answerCheck registration tag true knock))
    (inTime : ChecksBy actions worlds handler first index knock.deadline)
    (quiet : Quiet worlds handler first index) :
    Progress actions worlds handler registration tag knock first (index + 1) := by
  obtain ⟨following, isNext, answers⟩ := answers
  have moved := isNext
  rw [trace] at moved
  rcases answering_step inv action isAt moved answers with
    ⟨⟨isSame, waits⟩, more, grown, others⟩ | ⟨ambient, isResume, commits, follows⟩
  · rw [← trace] at grown
    rw [isSame] at isNext
    refine .checking isNext ?_ (quiet.append grown others)
    apply inTime.snoc
    intro ambient task resumed _ _
    rw [isAction] at resumed
    have locks := waits ambient (Option.some.inj resumed)
    cases locks
  · have unchanged : (worlds (index + 1)).history = (worlds index).history ++ [] := by
      rw [trace, commits]
      show (worlds index).history ++
        (answerCheck (worlds index).gate registration tag true knock ambient.now).event.toList = _
      unfold answerCheck
      split <;> rfl
    have stillQuiet := quiet.append unchanged (by simp)
    have follows : (answerCheck (worlds index).gate registration tag true knock ambient.now).next =
        some following := follows
    rw [isResume] at isAction
    unfold answerCheck at follows
    split at follows
    · next late =>
        cases follows
        exact .ended isNext stillQuiet
          (Or.inl ⟨ambient, index, begun, Nat.lt_succ_self index, isAction, isAt, late⟩)
    · next notLate =>
        cases follows
        refine .opening ambient.now isNext ?_ stillQuiet
        apply inTime.snoc
        intro other task resumed _ _
        rw [isAction] at resumed
        cases resumed
        exact Nat.le_of_not_lt notLate

/-- At the creation of the session. -/
theorem progress_opening (trace : worlds (index + 1) = (worlds index).step crypto action)
    (inv : Inv crypto community (worlds index)) (begun : first ≤ index)
    (older : (worlds first).history.length ≤ (worlds index).history.length)
    (answers : ∃ following, (worlds (index + 1)).tasks.lookup handler = some following ∧
      following.answering = true) {answeredAt : Nat}
    (isAt : (worlds index).tasks.lookup handler =
      some (.answerOpen registration tag knock answeredAt))
    (inTime : ChecksBy actions worlds handler first index knock.deadline)
    (quiet : Quiet worlds handler first index) :
    Progress actions worlds handler registration tag knock first (index + 1) := by
  obtain ⟨following, isNext, answers⟩ := answers
  have stillInTime := inTime.snoc_of_not_checks isAt rfl
  have moved := isNext
  rw [trace] at moved
  rcases answering_step inv action isAt moved answers with
    ⟨⟨isSame, _⟩, more, grown, others⟩ | ⟨ambient, _, commits, follows⟩
  · rw [← trace] at grown
    rw [isSame] at isNext
    exact .opening answeredAt isNext stillInTime (quiet.append grown others)
  · rw [commits] at trace
    change worlds (index + 1) = (worlds index).commit handler
      (answerOpen (worlds index).gate handler registration tag knock answeredAt ambient) at trace
    change (answerOpen (worlds index).gate handler registration tag knock answeredAt ambient).next =
      some following at follows
    rcases answerOpen_cases (worlds index).gate handler registration tag knock answeredAt ambient
      with ⟨isOutcome, notReady⟩ | isOutcome | ⟨session, requester, target, isOutcome⟩
    · rw [isOutcome] at trace follows
      cases follows
      have unchanged : (worlds (index + 1)).history = (worlds index).history ++ [] := by
        rw [trace]
        rfl
      exact .ended isNext (quiet.append unchanged (by simp))
        (Or.inr ⟨answeredAt, index, begun, Nat.lt_succ_self index, isAt, notReady⟩)
    · rw [isOutcome] at trace follows
      cases follows
      have unchanged : (worlds (index + 1)).history = (worlds index).history ++ [] := by
        rw [trace]
        rfl
      exact .opening answeredAt isNext stillInTime (quiet.append unchanged (by simp))
    · rw [isOutcome] at trace follows
      cases follows
      let created : Event := .opened handler session knock.requester knock.target tag answeredAt
        (worlds index).gate.allocated ((worlds index).gate.allocated + 1)
      have grown : (worlds (index + 1)).history = (worlds index).history ++ [created] := by
        rw [trace]
        rfl
      have isOpened : knock.OpenedBy handler created := ⟨rfl, rfl, rfl⟩
      refine .joined _ isNext (fun _ => rfl) stillInTime ?_ ?_
      · intro position event since found isOpener
        rw [grown] at found
        rcases getElem?_append_cases found with before | new
        · exact absurd isOpener (quiet position event since before)
        · rw [List.mem_singleton.mp new]
          exact isOpened
      · refine ⟨(worlds index).history.length, created, older, ?_, isOpened⟩
        rw [grown, List.getElem?_concat_length]

/-- Past the creation of the session. -/
theorem progress_joined (trace : worlds (index + 1) = (worlds index).step crypto action)
    (inv : Inv crypto community (worlds index))
    (answers : ∃ following, (worlds (index + 1)).tasks.lookup handler = some following ∧
      following.answering = true) {task : Task}
    (isAt : (worlds index).tasks.lookup handler = some task)
    (isNoting : task.holdsRegistrations = true)
    (inTime : ChecksBy actions worlds handler first index knock.deadline)
    (only : ∀ position event, (worlds first).history.length ≤ position →
      (worlds index).history[position]? = some event → event.opener = some handler →
        knock.OpenedBy handler event)
    (noted : ∃ position event, (worlds first).history.length ≤ position ∧
      (worlds index).history[position]? = some event ∧ knock.OpenedBy handler event) :
    Progress actions worlds handler registration tag knock first (index + 1) := by
  obtain ⟨following, isNext, answers⟩ := answers
  have checksNone : task.checksDeadline = false := by
    cases task with
    | answerNote => rfl
    | _ => cases isNoting
  have stillInTime := inTime.snoc_of_not_checks isAt checksNone
  have moved := isNext
  rw [trace] at moved
  have onward : (following.inAnswer = true → following.holdsRegistrations = true) ∧
      ∃ more, (worlds (index + 1)).history = (worlds index).history ++ more ∧
        ∀ event ∈ more, event.opener ≠ some handler := by
    rcases answering_step inv action isAt moved answers with
      ⟨⟨isSame, _⟩, more, grown, others⟩ | ⟨ambient, _, commits, follows⟩
    · rw [← trace] at grown
      rw [isSame]
      exact ⟨fun _ => isNoting, more, grown, others⟩
    · cases task with
      | answerNote owner noting waiting session requester target aToBShaper bToAShaper =>
          cases follows
          refine ⟨by simp [Task.inAnswer], [], ?_, by simp⟩
          rw [trace, commits]
          rfl
      | _ => cases isNoting
  obtain ⟨past, more, grown, others⟩ := onward
  refine .joined following isNext past stillInTime ?_ ?_
  · intro position event since found isOpener
    rw [grown] at found
    rcases getElem?_append_cases found with before | new
    · exact only position event since before isOpener
    · exact absurd isOpener (others event new)
  · obtain ⟨position, event, since, found, isOpened⟩ := noted
    refine ⟨position, event, since, ?_, isOpened⟩
    rw [grown]
    exact getElem?_append found

end Step

end Progress

section Runs

variable {F : Type} [F64 F] {crypto : Crypto} {community : Bytes32} {capacity : Nat}
  {actions : List Action} {handler : Handler} {registration : Registration} {tag : Bytes32}
  {first last : Nat}

theorem worldAt_succ {index : Nat} {action : Action} (isAction : actions[index]? = some action) :
    (worldAt F crypto community capacity actions (index + 1)) =
      (worldAt F crypto community capacity actions index).step crypto action := by
  unfold worldAt
  rw [List.take_add_one, isAction, Option.toList_some, run_concat]

theorem inv_worldAt (index : Nat) :
    Inv crypto community (worldAt F crypto community capacity actions index) :=
  inv_run capacity (actions.take index)

theorem length_history_step (crypto : Crypto) (world : World F) (action : Action) :
    world.history.length ≤ (world.step crypto action).history.length := by
  unfold World.step
  split
  · split
    · exact Nat.le_refl _
    · rw [connect_history]
  · split
    · exact Nat.le_refl _
    · split
      · exact Nat.le_refl _
      · show _ ≤ (world.history ++ _).length
        rw [List.length_append]
        omega

/-- The history of a run only grows. -/
theorem length_history_worldAt {later : Nat} (order : first ≤ later)
    (inside : later ≤ actions.length) :
    (worldAt F crypto community capacity actions first).history.length ≤
      (worldAt F crypto community capacity actions later).history.length := by
  induction later, order using Nat.le_induction with
  | base => exact Nat.le_refl _
  | succ later order ih =>
      have isAction : actions[later]? = some actions[later] := List.getElem?_eq_getElem inside
      rw [worldAt_succ isAction]
      exact Nat.le_trans (ih (by omega)) (length_history_step crypto _ _)

/-- The first section of an accept. -/
theorem Handles.worldAt_taken
    (handled : Handles actions (worldAt F crypto community capacity actions) handler
      registration tag first last) :
    (worldAt F crypto community capacity actions (first + 1)) =
      (worldAt F crypto community capacity actions first).commit handler
        (answer (worldAt F crypto community capacity actions first).gate handler
          registration tag true) := by
  obtain ⟨ambient, resumed⟩ := handled.resumed
  rw [worldAt_succ resumed]
  simp only [World.step, handled.taken]
  rfl

/-- Where the slot holds a knock of the key that answers, the accept takes it out. -/
theorem Handles.progress_taken
    (handled : Handles actions (worldAt F crypto community capacity actions) handler
      registration tag first last) {knock : KnockState}
    (isPending : (worldAt F crypto community capacity actions first).gate.knocks.lookup
      tag = some knock) (isTarget : knock.target = registration.key) :
    Progress actions (worldAt F crypto community capacity actions) handler
      registration tag knock first (first + 1) := by
  have taken : answer (worldAt F crypto community capacity actions first).gate handler
      registration tag true =
        { state :=
            { (worldAt F crypto community capacity actions first).gate with
                knocks :=
                  (worldAt F crypto community capacity actions first).gate.knocks.erase tag }
          next := some (.answerCheck registration tag true knock)
          event := some (.answered handler registration.key tag true) } := by
    unfold answer
    rw [isPending]
    simp only [if_pos isTarget]
  have trace := handled.worldAt_taken
  rw [taken] at trace
  have isNext : (worldAt F crypto community capacity actions (first + 1)).tasks.lookup
      handler = some (.answerCheck registration tag true knock) := by
    rw [trace]
    show ((worldAt F crypto community capacity actions first).tasks.put handler _).lookup
      handler = _
    rw [HashMap.lookup_put, if_pos rfl]
  apply Progress.checking isNext
  · intro index ambient task begun before _ isAt isCheck
    have isFirst : index = first := by omega
    rw [isFirst, handled.taken] at isAt
    cases isAt
    cases isCheck
  · intro position event since found
    rw [trace] at found
    rcases getElem?_append_cases found with before | new
    · have inside := lt_length_of_getElem? before
      omega
    · rw [List.mem_singleton.mp new]
      simp [Event.opener]

/-- Where it holds none, the handling ends at once and notes nothing. -/
theorem Handles.untaken
    (handled : Handles actions (worldAt F crypto community capacity actions) handler
      registration tag first last)
    (untaken : ∀ knock, (worldAt F crypto community capacity actions first).gate.knocks.lookup
      tag = some knock → knock.target ≠ registration.key) :
    last = first + 1 ∧ (worldAt F crypto community capacity actions last).history =
      (worldAt F crypto community capacity actions first).history := by
  have outcome : ∃ state,
      answer (worldAt F crypto community capacity actions first).gate handler registration
        tag true = { state, next := some (.controlLoop registration) } := by
    unfold answer
    split
    · exact ⟨_, rfl⟩
    · next knock isPending =>
        rw [if_neg (untaken knock isPending)]
        exact ⟨_, rfl⟩
  obtain ⟨state, isOutcome⟩ := outcome
  have trace := handled.worldAt_taken
  rw [isOutcome] at trace
  have isNext : (worldAt F crypto community capacity actions (first + 1)).tasks.lookup
      handler = some (.controlLoop registration) := by
    rw [trace]
    show ((worldAt F crypto community capacity actions first).tasks.put handler _).lookup
      handler = _
    rw [HashMap.lookup_put, if_pos rfl]
  have isLast : last = first + 1 := by
    apply Nat.le_antisymm
    · apply Nat.le_of_not_lt
      intro later
      obtain ⟨task, isAt, answers⟩ := handled.working (first + 1) (by omega) later
      rw [isNext] at isAt
      cases isAt
      cases answers
    · exact handled.before
  refine ⟨isLast, ?_⟩
  rw [isLast, trace]
  exact List.append_nil _

/-- The handling goes on from one action to the next. -/
theorem Handles.progress_succ
    (handled : Handles actions (worldAt F crypto community capacity actions) handler
      registration tag first last) {knock : KnockState} {index : Nat} (begun : first < index)
    (before : index < last)
    (progress : Progress actions (worldAt F crypto community capacity actions) handler
      registration tag knock first index) :
    Progress actions (worldAt F crypto community capacity actions) handler
      registration tag knock first (index + 1) := by
  have inside := handled.inside
  have isAction : actions[index]? = some actions[index] := List.getElem?_eq_getElem (by omega)
  have trace : worldAt F crypto community capacity actions (index + 1) =
      (worldAt F crypto community capacity actions index).step crypto actions[index] :=
    worldAt_succ isAction
  have inv : Inv crypto community (worldAt F crypto community capacity actions index) :=
    inv_worldAt index
  have answers : ∃ following,
      (worldAt F crypto community capacity actions (index + 1)).tasks.lookup handler =
        some following ∧ following.answering = true := by
    by_cases more : index + 1 < last
    · obtain ⟨task, isAt, isAnswer⟩ := handled.working (index + 1) (by omega) more
      refine ⟨task, isAt, ?_⟩
      cases task with
      | controlLoop => rfl
      | _ => exact isAnswer
    · have isLast : index + 1 = last := by omega
      rw [isLast]
      exact ⟨_, handled.done, rfl⟩
  obtain ⟨atWork, isWork, inAnswer⟩ := handled.working index (by omega) before
  cases progress with
  | checking isAt inTime quiet =>
      exact progress_checking trace isAction inv (by omega) answers isAt inTime quiet
  | opening answeredAt isAt inTime quiet =>
      have older : (worldAt F crypto community capacity actions first).history.length ≤
          (worldAt F crypto community capacity actions index).history.length :=
        length_history_worldAt (Nat.le_of_lt begun) (by omega)
      exact progress_opening trace inv (by omega) older answers isAt inTime quiet
  | joined task isAt past inTime only noted =>
      rw [isWork] at isAt
      cases isAt
      exact progress_joined trace inv answers isWork (past inAnswer) inTime only noted
  | ended isAt =>
      rw [isWork] at isAt
      cases isAt
      cases inAnswer

theorem Handles.progress
    (handled : Handles actions (worldAt F crypto community capacity actions) handler
      registration tag first last) {knock : KnockState}
    (isPending : (worldAt F crypto community capacity actions first).gate.knocks.lookup
      tag = some knock) (isTarget : knock.target = registration.key) :
    Progress actions (worldAt F crypto community capacity actions) handler
      registration tag knock first last := by
  have reached : ∀ index, first + 1 ≤ index → index ≤ last →
      Progress actions (worldAt F crypto community capacity actions) handler
        registration tag knock first index := by
    intro index begun
    induction index, begun using Nat.le_induction with
    | base => exact fun _ => handled.progress_taken isPending isTarget
    | succ index begun ih =>
        intro before
        exact handled.progress_succ begun before (ih (by omega))
  exact reached last handled.before (Nat.le_refl last)

end Runs

/-! ## Accepts are kept -/

section Accepts

variable {F : Type} [F64 F] {handler : Handler} {registration : Registration}
  {requester tag : Bytes32} {ttlS : UInt16} {introducedAt recordedAt first last : Nat}

/-- An accept that finds its knock, not over, joins the pair. -/
theorem AcceptInTime.joins_of_pending {crypto : Crypto} {community : Bytes32} {capacity : Nat}
    {actions : List Action}
    (accept : AcceptInTime actions (worldAt F crypto community capacity actions) handler
      registration requester tag ttlS introducedAt recordedAt first last)
    (pending : StillPending actions (worldAt F crypto community capacity actions) handler requester
      registration.key tag first last) :
    JoinedSince (worldAt F crypto community capacity actions last).history introducedAt requester
      registration.key := by
  have handled := accept.handled
  have isPast := lt_length_of_getElem? accept.introduced
  obtain ⟨knock, isPending, isRequester, isTarget, inTime⟩ := pending
  have progress := handled.progress isPending isTarget
  cases progress with
  | checking isAt =>
      rw [handled.done] at isAt
      cases isAt
  | opening answeredAt isAt =>
      rw [handled.done] at isAt
      cases isAt
  | joined task isAt past checked only noted =>
      obtain ⟨later, event, since, found, isOpened⟩ := noted
      refine ⟨later, event, by omega, found, ?_⟩
      cases event with
      | opened opener session keyA keyB sessionTag answeredAt aToBShaper bToAShaper =>
          obtain ⟨_, isKeyA, isKeyB⟩ := isOpened
          exact Or.inl ⟨isKeyA.trans isRequester, isKeyB.trans isTarget⟩
      | _ => cases isOpened
  | ended isAt quiet why =>
      rcases why with ⟨ambient, earlier, begun, before, resumed, isCheck, late⟩ |
        ⟨answeredAt, earlier, begun, before, isOpening, notReady⟩
      · have checked := inTime earlier ambient _ begun before resumed isCheck rfl
        omega
      · have ready := accept.ready earlier _ begun before isOpening rfl
        rw [← isRequester, ← isTarget] at ready
        exact absurd ready notReady

/-- A session the accept itself created is the one of the knock it found. -/
theorem Handles.pending_of_joins {crypto : Crypto} {community : Bytes32} {capacity : Nat}
    {actions : List Action}
    (handled : Handles actions (worldAt F crypto community capacity actions) handler registration
      tag first last) {later : Nat} {event : Event}
    (since : (worldAt F crypto community capacity actions first).history.length ≤ later)
    (found : (worldAt F crypto community capacity actions last).history[later]? = some event)
    (joins : event.joins requester registration.key) (isOpener : event.opener = some handler) :
    StillPending actions (worldAt F crypto community capacity actions) handler requester
      registration.key tag first last := by
  by_cases untaken : ∀ knock,
      (worldAt F crypto community capacity actions first).gate.knocks.lookup tag = some knock →
        knock.target ≠ registration.key
  · have unchanged := (handled.untaken untaken).2
    rw [unchanged] at found
    have inside := lt_length_of_getElem? found
    omega
  · simp only [not_forall, not_not] at untaken
    obtain ⟨knock, isPending, isTarget⟩ := untaken
    have progress := handled.progress isPending isTarget
    cases progress with
    | joined task isAt past inTime only noted =>
        have isOpened := only later event since found isOpener
        cases event with
        | opened opener session keyA keyB sessionTag answeredAt aToBShaper bToAShaper =>
            obtain ⟨_, isKeyA, isKeyB⟩ := isOpened
            refine ⟨knock, isPending, ?_, isTarget, inTime⟩
            rcases joins with ⟨isLeft, _⟩ | ⟨isRight, isLeft⟩
            · rw [← isKeyA, isLeft]
            · rw [← isKeyA, isRight, ← isTarget, ← isKeyB, isLeft]
        | _ => cases isOpened
    | checking isAt inTime quiet => exact absurd isOpener (quiet later event since found)
    | opening answeredAt isAt inTime quiet => exact absurd isOpener (quiet later event since found)
    | ended isAt quiet why => exact absurd isOpener (quiet later event since found)

/-! ### Exactly when an accept joins -/

/-- In every run of the gate, over any order of its handlers' sections: an accept that the
target of a knock gives in time, both houses being registered and below the session limit,
ends with a session of the pair created since the `Introduce` exactly where the slot of
the tag still held a knock of the same direction that was not over, or where another
answer joined the two. -/
theorem accept_joins_iff (crypto : Crypto) (community : Bytes32) (capacity : Nat)
    (actions : List Action)
    (accept : AcceptInTime actions (worldAt F crypto community capacity actions) handler
      registration requester tag ttlS introducedAt recordedAt first last) :
    JoinedSince (worldAt F crypto community capacity actions last).history introducedAt requester
        registration.key ↔
      StillPending actions (worldAt F crypto community capacity actions) handler requester
          registration.key tag first last ∨
        JoinedByAnother (worldAt F crypto community capacity actions) handler requester
          registration.key introducedAt first last := by
  constructor
  · rintro ⟨later, event, since, found, joins⟩
    by_cases another :
        later < (worldAt F crypto community capacity actions first).history.length ∨
          event.opener ≠ some handler
    · exact Or.inr ⟨later, event, since, found, joins, another⟩
    · rw [not_or, Nat.not_lt, not_not] at another
      exact Or.inl (accept.handled.pending_of_joins another.1 found joins another.2)
  · rintro (pending | ⟨later, event, since, found, joins, _⟩)
    · exact accept.joins_of_pending pending
    · exact ⟨later, event, since, found, joins⟩

end Accepts

/-! ### Two houses that knock on each other -/

section Fixture

deriving instance DecidableEq for Task

instance decidableReady (state : ServerState Nat) (key : Bytes32) : Decidable (Ready state key) :=
  decidable_of_iff
    ((state.lastOf key).any fun registration =>
      (state.cells registration.id).sessions.entries.length <
        limits.maxSessionsPerRegistration)
    (by simp [Ready, Option.any_eq_true])

/-- The reading of the clock is at most this. -/
def Action.readsBy (deadline : Nat) : Action → Bool
  | .connect .. => true
  | .resume _ ambient => ambient.now ≤ deadline

theorem checksBy_of_all {F : Type} {actions : List Action} {worlds : Nat → World F}
    {handler : Handler} {first last deadline : Nat}
    (all : actions.all (Action.readsBy deadline) = true) :
    ChecksBy actions worlds handler first last deadline := by
  intro index ambient task _ _ resumed _ _
  have reads := List.all_eq_true.mp all _ (List.mem_of_getElem? resumed)
  simpa [Action.readsBy] using reads

def targetSeat : Registration := ⟨1, targetKey, houseAddr⟩

/-- The introduction of two houses, to its last section. -/
def answered : List Action := introduction ++ [.resume (.control 1) { now := 2 }]

/-- Two houses register and each asks for the other; the one accepts, and then the other
declines. -/
def crossing : List Action :=
  [.connect requesterKey houseAddr 0, .connect targetKey houseAddr 0,
    .resume (.control 0) { now := 0 }, .resume (.control 1) { now := 0 },
    .resume (.control 0) { now := 1, frame := some (.introduce 1 pairOfKeys 60 []) }] ++
  List.replicate 5 (.resume (.control 0) { now := 1 }) ++
  [.resume (.control 1) { now := 1, frame := some (.introduce 1 pairOfKeys 60 []) }] ++
  List.replicate 5 (.resume (.control 1) { now := 1 }) ++
  [.resume (.control 1) { now := 2, frame := some (.knockAnswer 1 pairOfKeys true) },
    .resume (.control 1) { now := 2 },
    .resume (.control 0) { now := 2, frame := some (.knockAnswer 1 pairOfKeys false) },
    .resume (.control 0) { now := 2 }, .resume (.control 0) { now := 2 }]

/-- An accept whose handling and whose houses were looked at action by action. -/
theorem AcceptInTime.of_checks {crypto : Crypto} {community : Bytes32} {capacity : Nat}
    {actions : List Action} {handler : Handler} {registration : Registration}
    {requester tag : Bytes32} {ttlS : UInt16} {introducedAt recordedAt first last : Nat}
    (span : Nat) (isLast : first + span = last)
    (taken : (worldAt Nat crypto community capacity actions first).tasks.lookup handler =
      some (.answer registration tag true))
    (resumed : ∃ ambient, actions[first]? = some (.resume handler ambient))
    (begins : first < last) (inside : last ≤ actions.length)
    (working : ∀ offset < span, ((worldAt Nat crypto community capacity actions
      (first + offset)).tasks.lookup handler).any Task.inAnswer = true)
    (done : (worldAt Nat crypto community capacity actions last).tasks.lookup handler =
      some (.controlLoop registration))
    (introduced : (worldAt Nat crypto community capacity actions first).history[introducedAt]? =
      some (.introduced requester registration.key tag ttlS recordedAt))
    (reads : actions.all (Action.readsBy (recordedAt + fromSecs ttlS.toNat)) = true)
    (ready : ∀ offset < span,
      Ready (worldAt Nat crypto community capacity actions (first + offset)).gate requester ∧
        Ready (worldAt Nat crypto community capacity actions (first + offset)).gate
          registration.key) :
    AcceptInTime actions (worldAt Nat crypto community capacity actions) handler registration
      requester tag ttlS introducedAt recordedAt first last where
  handled :=
    { taken := taken
      resumed := resumed
      before := begins
      inside := inside
      working := by
        intro index begun before
        have working := working (index - first) (by omega)
        rw [Nat.add_sub_cancel' begun] at working
        exact (Option.any_eq_true _ _).mp working
      done := done }
  introduced := introduced
  arrived := by
    intro ambient resumed
    have readsBy := List.all_eq_true.mp reads _ (List.mem_of_getElem? resumed)
    simpa [Action.readsBy] using readsBy
  inTime := checksBy_of_all reads
  ready := by
    intro index task begun before _ _
    have ready := ready (index - first) (by omega)
    rw [Nat.add_sub_cancel' begun] at ready
    exact ready

theorem acceptInTime_answered :
    AcceptInTime answered (worldAt Nat pairCrypto zero32 2 answered) (.control 1) targetSeat
      requesterKey pairOfKeys 60 1 1 11 15 :=
  .of_checks 4 rfl (by decide +kernel) ⟨{ now := 2, sessionIds := [7] }, rfl⟩ (by decide)
    (by decide) (by decide +kernel) (by decide +kernel) (by decide +kernel)
    (by decide +kernel) (by decide +kernel)

theorem accept_joins_iff_answered :
    JoinedSince (worldAt Nat pairCrypto zero32 2 answered 15).history 1 requesterKey targetKey :=
  (accept_joins_iff pairCrypto zero32 2 answered acceptInTime_answered).mpr
    (Or.inl ⟨⟨requesterKey, targetKey, 1 + fromSecs 60⟩, by decide +kernel, rfl, rfl,
      checksBy_of_all (by decide +kernel)⟩)

theorem acceptInTime_crossing :
    AcceptInTime crossing (worldAt Nat pairCrypto zero32 2 crossing) (.control 1) targetSeat
      requesterKey pairOfKeys 60 1 1 17 18 :=
  .of_checks 1 rfl (by decide +kernel) ⟨{ now := 2 }, rfl⟩ (by decide)
    (by decide) (by decide +kernel) (by decide +kernel) (by decide +kernel)
    (by decide +kernel) (by decide +kernel)

/-- No session of any two houses is in a history without an opening. -/
theorem not_joinedSince {history : List Event} {position : Nat} {left right : Bytes32}
    (none : history.all (fun event => event.opener.isNone) = true) :
    ¬JoinedSince history position left right := by
  rintro ⟨later, event, _, found, joins⟩
  have closed := List.all_eq_true.mp none event (List.mem_of_getElem? found)
  cases event with
  | opened => cases closed
  | _ => exact joins

/-- The reverse `Introduce` took the slot, so the accept is dropped as the wrong house's, and
the decline of the other ends what is left: the two are never joined. -/
theorem accept_lost_crossing :
    AcceptInTime crossing (worldAt Nat pairCrypto zero32 2 crossing) (.control 1) targetSeat
        requesterKey pairOfKeys 60 1 1 17 18 ∧
      ¬JoinedSince (worldAt Nat pairCrypto zero32 2 crossing 18).history 1 requesterKey
        targetKey ∧
      ∀ event ∈ (worldAt Nat pairCrypto zero32 2 crossing crossing.length).history,
        event.opener = none :=
  ⟨acceptInTime_crossing, not_joinedSince (by decide +kernel), by decide +kernel⟩

end Fixture

end Mosschat.Net.Gate.Server
