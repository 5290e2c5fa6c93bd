import Mosschat.Net.Gate.Answers
import Mosschat.Net.Gate.Sends
import Mosschat.Net.Gate.TableRuns

/-!
Owns what one `handle_knock_answer` leaves behind: a session that both houses were told
of, or no trace of one, and what the houses' frame channels have to do with it.

Does not own who may open a session.
-/

namespace Mosschat.Net.Gate.Server

open Mosschat.Core Mosschat.Library Mosschat.Library.Cbor Mosschat.Library.Machine

/-! ## The call -/

section Call

variable {F : Type} [F64 F]

/-- The rest of the call after the section under `registrations` and `sessions`. `none`
where every session id drawn so far is taken. -/
def finishOpen (opened : Outcome F) : Option (Outcome F) :=
  match opened.next with
  | some (.answerNote registration tag knock session requester target aToBShaper bToAShaper) =>
    some (answerNote opened.state registration tag knock session requester target aToBShaper
      bToAShaper)
  | some (.answerOpen ..) => none
  | _ => some opened

/-- The rest of the call after the deadline and the decision. -/
def finishCheck (handler : Handler) (ambient : Ambient) (checked : Outcome F) :
    Option (Outcome F) :=
  match checked.next with
  | some (.answerOpen registration tag knock answeredAt) =>
    finishOpen (answerOpen checked.state handler registration tag knock answeredAt ambient)
  | _ => some checked

/-- `handle_knock_answer`, section after section, with nothing between them. -/
def handleKnockAnswer (state : ServerState F) (handler : Handler) (registration : Registration)
    (tag : Bytes32) (accept : Bool) (answeredAt : Nat) (ambient : Ambient) :
    Option (Outcome F) :=
  let answered := answer state handler registration tag accept
  match answered.next with
  | some (.answerCheck registration tag accept knock) =>
    finishCheck handler ambient
      (answerCheck answered.state registration tag accept knock answeredAt)
  | _ => some answered

end Call

section Announced

variable {F : Type}

/-- Everything a call checks before it creates a session for the knock, between the
newest connections of its two keys. -/
structure Joins (state : ServerState F) (registration : Registration) (tag : Bytes32)
    (accept : Bool) (answeredAt : Nat) (knock : KnockState) (requester target : Registration) :
    Prop where
  isPending : state.knocks.lookup tag = some knock
  answersIt : knock.target = registration.key
  inTime : answeredAt ≤ knock.deadline
  accepts : accept = true
  isRequester : state.lastOf knock.requester = some requester
  isTarget : state.lastOf knock.target = some target
  requesterRoom : (state.cells requester.id).sessions.entries.length <
    limits.maxSessionsPerRegistration
  targetRoom : (state.cells target.id).sessions.entries.length <
    limits.maxSessionsPerRegistration

/-- The writer is there, and the channel takes so many frames and one more. -/
def RegistrationCells.TakesAfter (cells : RegistrationCells F) (ahead : Nat) : Prop :=
  cells.frameTxOpen ∧ cells.frameTx.length + ahead < limits.frameTxQueueCap

instance RegistrationCells.decidableTakesAfter (cells : RegistrationCells F) (ahead : Nat) :
    Decidable (cells.TakesAfter ahead) := inferInstanceAs (Decidable (_ ∧ _))

/-- The frame was queued for the registration between the two states. -/
def Queued (before after : ServerState F) (registration : Registration) (frame : Frame) : Prop :=
  frame ∈ (after.cells registration.id).frameTx.drop (before.cells registration.id).frameTx.length

/-- A connection of each key lists the session and was queued its introduction. -/
def BothIntroduced (before after : ServerState F) (tag : Bytes32) (session : UInt32)
    (found : SessionState F) : Prop :=
  ∃ requester target,
    (Listed after found.keyA requester ∧ Holds after requester.id session ∧
      Queued before after requester
        (.introduction 1 tag session (Addr.fromSocketAddr target.observed) 1)) ∧
    Listed after found.keyB target ∧ Holds after target.id session ∧
      Queued before after target
        (.introduction 1 tag session (Addr.fromSocketAddr requester.observed) 2)

/-- The call left a session that was not there. -/
def Opens (before after : ServerState F) (session : UInt32) (found : SessionState F) : Prop :=
  before.sessions.lookup session = none ∧ after.sessions.lookup session = some found

/-- Both houses are told of a new session, and without one nothing of it is left. -/
structure Announced (before : ServerState F) (tag : Bytes32) (outcome : Outcome F) : Prop where
  told : ∀ session found, Opens before outcome.state session found →
    BothIntroduced before outcome.state tag session found
  traceless : (∀ session found, ¬Opens before outcome.state session found) →
    outcome.state.sessions = before.sessions ∧
      (∀ id, (outcome.state.cells id).sessions = (before.cells id).sessions) ∧
      outcome.spawned = []

/-- Two calls that pass the checks in one state are for the same knock and connections. -/
theorem Joins.unique {state : ServerState F} {registration requester target other third :
    Registration} {tag : Bytes32} {accept : Bool} {answeredAt : Nat} {knock again : KnockState}
    (left : Joins state registration tag accept answeredAt knock requester target)
    (right : Joins state registration tag accept answeredAt again other third) :
    again = knock ∧ other = requester ∧ third = target := by
  have sameKnock : again = knock :=
    Option.some.inj (right.isPending.symm.trans left.isPending)
  subst sameKnock
  have sameRequester : other = requester :=
    Option.some.inj (right.isRequester.symm.trans left.isRequester)
  have sameTarget : third = target := Option.some.inj (right.isTarget.symm.trans left.isTarget)
  exact ⟨rfl, sameRequester, sameTarget⟩

/-! ## The channels -/

/-- What a push adds is the frame, where the channel takes it. -/
theorem frameTx_push (cells : RegistrationCells F) (frame : Frame) :
    (cells.push frame).frameTx = cells.frameTx ++ if cells.TakesAfter 0 then [frame] else [] := by
  by_cases room : cells.TakesAfter 0
  · have taken : cells.frameTxOpen ∧ cells.frameTx.length < limits.frameTxQueueCap := room
    rw [if_pos room]
    unfold RegistrationCells.push
    rw [if_pos taken]
  · have full : ¬(cells.frameTxOpen ∧ cells.frameTx.length < limits.frameTxQueueCap) := room
    rw [if_neg room, List.append_nil]
    unfold RegistrationCells.push
    rw [if_neg full]

/-- A second push finds one frame more, if the first was taken. -/
theorem takesAfter_push (cells : RegistrationCells F) (frame : Frame) :
    (cells.push frame).TakesAfter 0 ↔ cells.TakesAfter 1 := by
  unfold RegistrationCells.push RegistrationCells.TakesAfter
  split
  · next room =>
      show cells.frameTxOpen = true ∧ (cells.frameTx ++ [frame]).length + 0 < _ ↔ _
      rw [List.length_append, Nat.add_zero, List.length_singleton]
  · next full =>
      constructor
      · intro taken
        exact absurd taken full
      · intro taken
        exact absurd ⟨taken.1, by omega⟩ full

/-- What a push puts behind what the channel held. -/
theorem mem_drop_push (cells : RegistrationCells F) (pushed frame : Frame) :
    frame ∈ (cells.push pushed).frameTx.drop cells.frameTx.length ↔
      frame = pushed ∧ cells.TakesAfter 0 := by
  rw [frameTx_push, List.drop_left]
  split
  · next room => simp [room]
  · next full => simp [full]

/-- The same of two pushes in a row. -/
theorem mem_drop_push_push (cells : RegistrationCells F) (first second frame : Frame) :
    frame ∈ ((cells.push first).push second).frameTx.drop cells.frameTx.length ↔
      (frame = first ∧ cells.TakesAfter 0) ∨ (frame = second ∧ cells.TakesAfter 1) := by
  rw [frameTx_push, frameTx_push, List.append_assoc, List.drop_left, List.mem_append]
  simp only [takesAfter_push]
  by_cases one : cells.TakesAfter 0
  · by_cases two : cells.TakesAfter 1
    · simp [one, two]
    · simp [one, two]
  · have two : ¬cells.TakesAfter 1 := by
      intro room
      have below := room.2
      exact one ⟨room.1, by omega⟩
    simp [one, two]

/-! ## What the call can do -/

variable [F64 F]

/-- The whole effect of a call that creates a session. -/
def joined (state : ServerState F) (handler : Handler) (registration : Registration)
    (tag : Bytes32) (knock : KnockState) (answeredAt : Nat) (session : UInt32)
    (requester target : Registration) (now : Nat) : Outcome F :=
  let opened := openSession { state with knocks := state.knocks.erase tag } handler registration
    tag knock answeredAt session requester target now
  answerNote opened.state registration tag knock session requester target state.allocated
    (state.allocated + 1)

/-- What a call can do: end with nothing created, or create a session under a free id. -/
inductive Answered (state : ServerState F) (handler : Handler) (registration : Registration)
    (tag : Bytes32) (accept : Bool) (answeredAt : Nat) (ambient : Ambient) : Outcome F → Prop where
  | ended {outcome : Outcome F}
      (kept : outcome.state.sessions = state.sessions ∧ outcome.state.cells = state.cells ∧
        outcome.spawned = [])
      (unfit : ∀ knock requester target,
        ¬Joins state registration tag accept answeredAt knock requester target) :
      Answered state handler registration tag accept answeredAt ambient outcome
  | opened (knock : KnockState) (requester target : Registration) (session : UInt32)
      (joins : Joins state registration tag accept answeredAt knock requester target)
      (isFree : state.sessions.lookup session = none) :
      Answered state handler registration tag accept answeredAt ambient
        (joined state handler registration tag knock answeredAt session requester target
          ambient.now)

section Handled

variable {state : ServerState F} {handler : Handler} {registration : Registration}
  {tag : Bytes32} {accept : Bool} {answeredAt : Nat} {ambient : Ambient} {knock : KnockState}
  {outcome : Outcome F}

/-- A call that ends before it looks at the connections. -/
theorem Answered.early {next : Option Task} {event : Option Event}
    {knocks : HashMap Bytes32 KnockState} {counters : ServerCounters}
    (unfit : ∀ knock requester target,
      ¬Joins state registration tag accept answeredAt knock requester target) :
    Answered state handler registration tag accept answeredAt ambient
      { state := { state with knocks, counters }, next, event } :=
  .ended ⟨rfl, rfl, rfl⟩ unfit

/-- The part of the call that looks at the connections. -/
theorem answered_accepted (isPending : state.knocks.lookup tag = some knock)
    (answersIt : knock.target = registration.key) (inTime : answeredAt ≤ knock.deadline)
    (handled : handleKnockAnswer state handler registration tag true answeredAt ambient =
      some outcome) :
    Answered state handler registration tag true answeredAt ambient outcome := by
  have same : ∀ {other requester target},
      Joins state registration tag true answeredAt other requester target → other = knock := by
    intro other requester target joins
    exact Option.some.inj (joins.isPending.symm.trans isPending)
  have erased : ∀ key, ServerState.lastOf { state with knocks := state.knocks.erase tag } key =
      state.lastOf key := fun _ => rfl
  simp only [handleKnockAnswer, answer, isPending, if_pos answersIt, answerCheck, finishCheck,
    if_neg (Nat.not_lt.mpr inTime), Bool.not_true, Bool.false_eq_true, if_false, answerOpen,
    erased] at handled
  cases isRequester : state.lastOf knock.requester with
  | none =>
      simp only [finishOpen, isRequester] at handled
      cases handled
      apply Answered.early
      intro other requester target joins
      have again := joins.isRequester
      rw [same joins, isRequester] at again
      cases again
  | some requester =>
      cases isTarget : state.lastOf knock.target with
      | none =>
          simp only [finishOpen, isRequester, isTarget] at handled
          cases handled
          apply Answered.early
          intro other requester target joins
          have again := joins.isTarget
          rw [same joins, isTarget] at again
          cases again
      | some target =>
          by_cases full :
              limits.maxSessionsPerRegistration ≤
                  (state.cells requester.id).sessions.entries.length ∨
                limits.maxSessionsPerRegistration ≤
                  (state.cells target.id).sessions.entries.length
          · simp only [finishOpen, isRequester, isTarget, if_pos full] at handled
            cases handled
            apply Answered.early
            intro other third fourth joins
            have sameRequester := joins.isRequester
            have sameTarget := joins.isTarget
            rw [same joins, isRequester] at sameRequester
            rw [same joins, isTarget] at sameTarget
            cases sameRequester
            cases sameTarget
            have requesterRoom := joins.requesterRoom
            have targetRoom := joins.targetRoom
            omega
          · simp only [isRequester, isTarget, if_neg full] at handled
            rw [not_or, Nat.not_le, Nat.not_le] at full
            have joins : Joins state registration tag true answeredAt knock requester target :=
              ⟨isPending, answersIt, inTime, rfl, isRequester, isTarget, full.1, full.2⟩
            cases isDrawn : ambient.sessionIds.find? fun session =>
                (state.sessions.lookup session).isNone with
            | none =>
                simp only [finishOpen, isDrawn] at handled
                cases handled
            | some session =>
                have isFree := List.find?_some isDrawn
                simp only [finishOpen, isDrawn, openSession] at handled
                cases handled
                exact .opened knock requester target session joins
                  (Option.isNone_iff_eq_none.mp isFree)

theorem answered_handleKnockAnswer
    (handled : handleKnockAnswer state handler registration tag accept answeredAt ambient =
      some outcome) :
    Answered state handler registration tag accept answeredAt ambient outcome := by
  cases isPending : state.knocks.lookup tag with
  | none =>
      simp only [handleKnockAnswer, answer, isPending] at handled
      cases handled
      apply Answered.early
      intro knock requester target joins
      have again := joins.isPending
      rw [isPending] at again
      cases again
  | some knock =>
      have same : ∀ {other requester target},
          Joins state registration tag accept answeredAt other requester target →
            other = knock := by
        intro other requester target joins
        exact Option.some.inj (joins.isPending.symm.trans isPending)
      by_cases answersIt : knock.target = registration.key
      case neg =>
        simp only [handleKnockAnswer, answer, isPending, if_neg answersIt] at handled
        cases handled
        apply Answered.early
        intro other requester target joins
        exact answersIt (same joins ▸ joins.answersIt)
      by_cases late : knock.deadline < answeredAt
      · simp only [handleKnockAnswer, answer, isPending, if_pos answersIt, answerCheck, finishCheck,
          if_pos late] at handled
        cases handled
        apply Answered.early
        intro other requester target joins
        have inTime := joins.inTime
        rw [same joins] at inTime
        omega
      · cases accept with
        | true => exact answered_accepted isPending answersIt (Nat.not_lt.mp late) handled
        | false =>
            simp only [handleKnockAnswer, answer, isPending, if_pos answersIt, answerCheck,
              finishCheck, if_neg late, Bool.not_false, if_true] at handled
            cases handled
            apply Answered.early
            intro other requester target joins
            cases joins.accepts

end Handled

/-! ## What a new session leaves -/

section Joined

variable {state : ServerState F} {handler : Handler} {registration requester target : Registration}
  {tag : Bytes32} {accept : Bool} {answeredAt now : Nat} {knock : KnockState} {session : UInt32}

/-- The introduction of the one that asked. -/
def toRequester (tag : Bytes32) (session : UInt32) (target : Registration) : Frame :=
  .introduction 1 tag session (Addr.fromSocketAddr target.observed) 1

/-- The introduction of the one that answered. -/
def toTarget (tag : Bytes32) (session : UInt32) (requester : Registration) : Frame :=
  .introduction 1 tag session (Addr.fromSocketAddr requester.observed) 2

theorem toRequester_ne_toTarget (tag other : Bytes32) (session again : UInt32)
    (requester target : Registration) :
    toRequester tag session target ≠ toTarget other again requester := by
  intro same
  simp [toRequester, toTarget] at same

theorem joined_sessions (state : ServerState F) (handler : Handler) (registration : Registration)
    (tag : Bytes32) (knock : KnockState) (answeredAt : Nat) (session : UInt32)
    (requester target : Registration) (now : Nat) :
    ∃ found : SessionState F, found.keyA = knock.requester ∧ found.keyB = knock.target ∧
      (joined state handler registration tag knock answeredAt session requester target
        now).state.sessions = state.sessions.put session found :=
  ⟨_, rfl, rfl, (kept_answerNote _ registration tag knock session requester target _ _).sessions⟩

theorem joined_undisturbed :
    Undisturbed
      (((openSession { state with knocks := state.knocks.erase tag } handler registration tag knock
        answeredAt session requester target now).state.noteSession requester session).noteSession
          target session)
      (joined state handler registration tag knock answeredAt session requester target now).state :=
  answerNote_state _

/-- The same channels at every registration. -/
def SameChannels (before after : Nat → RegistrationCells F) : Prop :=
  ∀ id, (after id).frameTx = (before id).frameTx ∧ (after id).frameTxOpen = (before id).frameTxOpen

omit [F64 F] in
theorem SameChannels.push {before after : Nat → RegistrationCells F}
    (same : SameChannels before after) (id : Nat) (frame : Frame) :
    SameChannels (Function.update before id ((before id).push frame))
      (Function.update after id ((after id).push frame)) := by
  intro other
  by_cases isPushed : other = id
  · subst isPushed
    rw [Function.update_self, Function.update_self]
    unfold RegistrationCells.push
    rw [(same other).1, (same other).2]
    split
    · exact ⟨rfl, rfl⟩
    · exact same other
  · rw [Function.update_of_ne isPushed, Function.update_of_ne isPushed]
    exact same other

omit [F64 F] in
/-- What is queued depends on the channels alone. -/
theorem SameChannels.posted {before after : Nat → RegistrationCells F}
    (same : SameChannels before after) (sends : List (Registration × Frame)) :
    SameChannels (posted before sends) (posted after sends) := by
  induction sends generalizing before after with
  | nil => exact same
  | cons send rest ih => exact ih (same.push send.1.id send.2)

/-- The channels after a call that created a session. -/
theorem joined_frameTx (id : Nat) :
    ((joined state handler registration tag knock answeredAt session requester target
        now).state.cells id).frameTx =
      (posted state.cells [(requester, toRequester tag session target),
        (target, toTarget tag session requester)] id).frameTx := by
  have rewrote : Rewrote (fun _ => False) state.cells
      (((openSession { state with knocks := state.knocks.erase tag } handler registration tag knock
        answeredAt session requester target now).state.noteSession requester session).noteSession
          target session).cells :=
    (rewrote_noteSession _ requester session).trans (rewrote_noteSession _ target session)
  have same : SameChannels state.cells _ := fun id => ⟨rewrote.frameTx id, rewrote.frameTxOpen id⟩
  rw [← (same.posted _ id).1]
  unfold joined answerNote
  dsimp only
  rw [cells_sendFrame, cells_sendFrame]
  rfl

/-- Each introduction is queued for its own connection, where that has room for it. -/
theorem queued_joined_iff {frame : Frame} (other : Registration) :
    Queued state (joined state handler registration tag knock answeredAt session requester target
        now).state other frame ↔
      (other.id = requester.id ∧ frame = toRequester tag session target ∧
          (state.cells requester.id).TakesAfter 0) ∨
        (other.id = target.id ∧ frame = toTarget tag session requester ∧
          (state.cells target.id).TakesAfter (if target.id = requester.id then 1 else 0)) := by
  unfold Queued
  rw [joined_frameTx]
  unfold posted
  simp only [List.foldl_cons, List.foldl_nil]
  by_cases one : target.id = requester.id
  · rw [if_pos one, one, Function.update_self]
    by_cases isOther : other.id = requester.id
    · rw [isOther, Function.update_self, mem_drop_push_push]
      simp
    · rw [Function.update_of_ne isOther, Function.update_of_ne isOther, List.drop_length]
      simp [isOther]
  · rw [if_neg one, Function.update_of_ne one]
    by_cases isTarget : other.id = target.id
    · rw [isTarget, Function.update_self, mem_drop_push]
      simp [one]
    · rw [Function.update_of_ne isTarget]
      by_cases isRequester : other.id = requester.id
      · rw [isRequester, Function.update_self, mem_drop_push]
        simp [Ne.symm one]
      · rw [Function.update_of_ne isRequester, List.drop_length]
        simp [isTarget, isRequester]

/-- A new session's connections are the newest ones of its keys, and list it. -/
theorem joined_listed (handler : Handler) (session : UInt32) (now : Nat)
    (joins : Joins state registration tag accept answeredAt knock requester target) :
    let after := (joined state handler registration tag knock answeredAt session requester target
      now).state
    (Listed after knock.requester requester ∧ Holds after requester.id session) ∧
      Listed after knock.target target ∧ Holds after target.id session := by
  intro after
  have kept : Undisturbed _ after := joined_undisturbed
  have listed : ∀ {key other}, state.lastOf key = some other → Listed after key other := by
    intro key other isLast
    obtain ⟨list, isList, isLast⟩ := Option.bind_eq_some_iff.mp isLast
    refine ⟨list, ?_, List.mem_of_getLast? isLast⟩
    rw [kept.registrations]
    exact isList
  have held : ∀ {id}, id = requester.id ∨ id = target.id → Holds after id session := by
    intro id isEither
    show (after.cells id).sessions.lookup session = some ()
    rw [kept.held]
    refine (holds_noteSession _ target id session).mpr ?_
    rw [holds_noteSession]
    cases isEither with
    | inl isRequester => exact Or.inl (Or.inr ⟨rfl, isRequester⟩)
    | inr isTarget => exact Or.inr ⟨rfl, isTarget⟩
  exact ⟨⟨listed joins.isRequester, held (Or.inl rfl)⟩, listed joins.isTarget, held (Or.inr rfl)⟩

end Joined

section Both

variable {state : ServerState F} {handler : Handler} {registration : Registration}
  {tag : Bytes32} {accept : Bool} {answeredAt : Nat} {ambient : Ambient} {outcome : Outcome F}
  {knock : KnockState} {requester target : Registration} {session : UInt32}

/-- The session of the call is there afterwards, between the two keys of the knock. -/
theorem opens_joined (handler : Handler) (now : Nat)
    (isFree : state.sessions.lookup session = none) :
    ∃ found : SessionState F, found.keyA = knock.requester ∧ found.keyB = knock.target ∧
      ∀ other again, Opens state (joined state handler registration tag knock answeredAt session
        requester target now).state other again ↔ other = session ∧ again = found := by
  obtain ⟨found, isKeyA, isKeyB, sessions⟩ := joined_sessions state handler registration tag
    knock answeredAt session requester target now
  refine ⟨found, isKeyA, isKeyB, ?_⟩
  intro other again
  unfold Opens
  rw [sessions, HashMap.lookup_put]
  constructor
  · intro opens
    split at opens
    · next isSession => exact ⟨isSession, (Option.some.inj opens.2).symm⟩
    · have absent := opens.1
      rw [opens.2] at absent
      cases absent
  · intro same
    rw [same.1, same.2, if_pos rfl]
    exact ⟨isFree, rfl⟩

/-- A session that was announced found room in both channels. -/
theorem Announced.rooms
    (handled : handleKnockAnswer state handler registration tag accept answeredAt ambient =
      some outcome)
    (announced : Announced state tag outcome)
    (joins : Joins state registration tag accept answeredAt knock requester target) :
    (state.cells requester.id).TakesAfter 0 ∧
      (state.cells target.id).TakesAfter (if target.id = requester.id then 1 else 0) := by
  cases answered_handleKnockAnswer handled with
  | ended kept unfit => exact absurd joins (unfit knock requester target)
  | opened again third fourth session alsoJoins isFree =>
      obtain ⟨sameKnock, sameRequester, sameTarget⟩ := joins.unique alsoJoins
      subst sameKnock sameRequester sameTarget
      obtain ⟨found, _, _, opens⟩ := opens_joined handler ambient.now isFree
      obtain ⟨left, right, ⟨_, _, toLeft⟩, _, _, toRight⟩ :=
        announced.told session found ((opens session found).mpr ⟨rfl, rfl⟩)
      constructor
      · rcases (queued_joined_iff left).mp toLeft with ⟨_, _, room⟩ | ⟨_, crossed, _⟩
        · exact room
        · exact absurd crossed (toRequester_ne_toTarget tag tag session session _ right)
      · rcases (queued_joined_iff right).mp toRight with ⟨_, crossed, _⟩ | ⟨_, _, room⟩
        · exact absurd crossed.symm (toRequester_ne_toTarget tag tag session session left _)
        · exact room

/-- A call that finds room announces its session. -/
theorem announced_joined (handler : Handler) (now : Nat)
    (joins : Joins state registration tag accept answeredAt knock requester target)
    (isFree : state.sessions.lookup session = none)
    (requesterRoom : (state.cells requester.id).TakesAfter 0)
    (targetRoom : (state.cells target.id).TakesAfter
      (if target.id = requester.id then 1 else 0)) :
    Announced state tag
      (joined state handler registration tag knock answeredAt session requester target now) := by
  obtain ⟨found, isKeyA, isKeyB, opens⟩ := opens_joined handler now isFree
  have listed := joined_listed handler session now joins
  constructor
  · intro other again alsoOpens
    obtain ⟨isSession, isFound⟩ := (opens other again).mp alsoOpens
    subst isSession isFound
    refine ⟨requester, target, ⟨isKeyA ▸ listed.1.1, listed.1.2, ?_⟩, isKeyB ▸ listed.2.1,
      listed.2.2, ?_⟩
    · exact (queued_joined_iff requester).mpr (Or.inl ⟨rfl, rfl, requesterRoom⟩)
    · exact (queued_joined_iff target).mpr (Or.inr ⟨rfl, rfl, targetRoom⟩)
  · intro none
    exact absurd ((opens session found).mpr ⟨rfl, rfl⟩) (none session found)

/-- For every state of the gate: a call announces what it does exactly where, if it comes
to create a session, the channels of both newest connections take its introductions. -/
theorem announced_iff
    (handled : handleKnockAnswer state handler registration tag accept answeredAt ambient =
      some outcome) :
    Announced state tag outcome ↔
      ∀ knock requester target,
        Joins state registration tag accept answeredAt knock requester target →
          (state.cells requester.id).TakesAfter 0 ∧
            (state.cells target.id).TakesAfter (if target.id = requester.id then 1 else 0) := by
  constructor
  · intro announced knock requester target joins
    exact announced.rooms handled joins
  · intro rooms
    cases answered_handleKnockAnswer handled with
    | ended kept unfit =>
        refine ⟨?_, fun _ => ⟨kept.1, fun id => by rw [kept.2.1], kept.2.2⟩⟩
        intro session found opens
        have absent := opens.1
        rw [← kept.1, opens.2] at absent
        cases absent
    | opened knock requester target session joins isFree =>
        obtain ⟨requesterRoom, targetRoom⟩ := rooms knock requester target joins
        exact announced_joined handler ambient.now joins isFree requesterRoom targetRoom

end Both

end Announced

/-! ## The call among the gate's handlers -/

section Resumed

variable {F : Type} [F64 F] {world : World F} {handler : Handler} {task : Task}

/-- A handler that waits for no lock runs its section. -/
theorem step_resume (crypto : Crypto) (isAt : world.tasks.lookup handler = some task)
    (unlocked : task.takesRegistrations = true → world.registrationsHeld = false)
    (ambient : Ambient) :
    world.step crypto (.resume handler ambient) =
      world.commit handler (task.run crypto world.gate handler ambient) := by
  simp only [World.step, isAt]
  cases takes : task.takesRegistrations with
  | false => simp
  | true => simp [unlocked takes]

omit [F64 F] in
/-- Nobody holds the lock after a section that nothing holding it follows. -/
theorem registrationsHeld_commit {outcome : Outcome F} (silent : outcome.spawned = [])
    (isNext : outcome.next = some task) (lets : task.holdsRegistrations = false)
    (free : world.registrationsHeld = false) :
    (world.commit handler outcome).registrationsHeld = false := by
  unfold World.registrationsHeld
  rw [List.any_eq_false]
  intro found isFound
  obtain ⟨other, isFound⟩ := (HashMap.mem_values _ _).mp isFound
  rcases lookup_commit_tasks isFound with isSpawned | ⟨_, isNow⟩ | ⟨_, before⟩
  · rw [silent] at isSpawned
    cases isSpawned
  · rw [isNext] at isNow
    cases isNow
    simp [lets]
  · simp [not_held_of_free free before]

omit [F64 F] in
/-- A handler is at what follows its section. -/
theorem lookup_commit_self {outcome : Outcome F}
    (elsewhere : ∀ spawned ∈ outcome.spawned, spawned.1 ≠ handler) :
    (world.commit handler outcome).tasks.lookup handler = outcome.next := by
  unfold World.commit
  dsimp only
  rw [HashMap.lookup_foldl_put_of_not_mem elsewhere]
  cases outcome.next with
  | none => simp only [AList.lookup_erase]
  | some task => simp only [HashMap.lookup_put, if_true]

/-- The handler came to the outcome, and nothing else came to be but what that spawns. -/
structure CameTo (handler : Handler) (outcome : Outcome F) (before after : World F) : Prop where
  gate : after.gate = outcome.state
  next : after.tasks.lookup handler = outcome.next
  others : ∀ other task, other ≠ handler → after.tasks.lookup other = some task →
    before.tasks.lookup other = some task ∨ (other, task) ∈ outcome.spawned

/-- The handler's sections in a row, with nothing between them, come to the outcome. -/
def Reaches (crypto : Crypto) (handler : Handler) (world : World F) (outcome : Outcome F) : Prop :=
  ∃ ambients : List Ambient, CameTo handler outcome world
    (run (World.step crypto) world (ambients.map (.resume handler)))

/-- The last section. -/
theorem Reaches.last (crypto : Crypto) (isAt : world.tasks.lookup handler = some task)
    (unlocked : task.takesRegistrations = true → world.registrationsHeld = false)
    (ambient : Ambient)
    (elsewhere : ∀ spawned ∈ (task.run crypto world.gate handler ambient).spawned,
      spawned.1 ≠ handler) :
    Reaches crypto handler world (task.run crypto world.gate handler ambient) := by
  refine ⟨[ambient], ?_⟩
  show CameTo handler _ world (world.step crypto (.resume handler ambient))
  rw [step_resume crypto isAt unlocked ambient]
  refine ⟨rfl, lookup_commit_self elsewhere, ?_⟩
  intro other found apart isFound
  rcases lookup_commit_tasks isFound with isSpawned | ⟨isHandler, _⟩ | ⟨_, before⟩
  · exact Or.inr isSpawned
  · exact absurd isHandler apart
  · exact Or.inl before

/-- A section before others. -/
theorem Reaches.cons (crypto : Crypto) (isAt : world.tasks.lookup handler = some task)
    (unlocked : task.takesRegistrations = true → world.registrationsHeld = false)
    (ambient : Ambient) {outcome : Outcome F}
    (silent : (task.run crypto world.gate handler ambient).spawned = [])
    (rest : Reaches crypto handler
      (world.commit handler (task.run crypto world.gate handler ambient)) outcome) :
    Reaches crypto handler world outcome := by
  obtain ⟨ambients, came⟩ := rest
  refine ⟨ambient :: ambients, ?_⟩
  rw [List.map_cons, run_cons, step_resume crypto isAt unlocked ambient]
  refine ⟨came.gate, came.next, ?_⟩
  intro other found apart isFound
  rcases came.others other found apart isFound with before | isSpawned
  · rcases lookup_commit_tasks before with wasSpawned | ⟨isHandler, _⟩ | ⟨_, already⟩
    · rw [silent] at wasSpawned
      cases wasSpawned
    · exact absurd isHandler apart
    · exact Or.inl already
  · exact Or.inr isSpawned

omit [F64 F] in
/-- The sections of the call up to the last spawn nothing. -/
theorem answer_silent (state : ServerState F) (handler : Handler) (registration : Registration)
    (tag : Bytes32) (accept : Bool) :
    (answer state handler registration tag accept).spawned = [] := by
  unfold answer
  split
  · rfl
  · split <;> rfl

omit [F64 F] in
theorem answerCheck_silent (state : ServerState F) (registration : Registration)
    (tag : Bytes32) (accept : Bool) (knock : KnockState) (now : Nat) :
    (answerCheck state registration tag accept knock now).spawned = [] := by
  unfold answerCheck
  split
  · rfl
  · split <;> rfl

theorem answerOpen_silent (state : ServerState F) (handler : Handler) (registration : Registration)
    (tag : Bytes32) (knock : KnockState) (answeredAt : Nat) (ambient : Ambient) :
    (answerOpen state handler registration tag knock answeredAt ambient).spawned = [] := by
  have opened := answerOpened_answerOpen state handler registration tag knock answeredAt ambient
  generalize answerOpen state handler registration tag knock answeredAt ambient = outcome at opened ⊢
  cases opened <;> rfl

omit [F64 F] in
theorem apart_of_silent {outcome : Outcome F} (silent : outcome.spawned = []) :
    ∀ spawned ∈ outcome.spawned, spawned.1 ≠ handler := by
  intro spawned member
  rw [silent] at member
  cases member

section Stages

variable {id : Nat} {registration : Registration} {tag : Bytes32} {accept : Bool}
  {answeredAt : Nat} {knock : KnockState} {ambient : Ambient} {outcome : Outcome F}

theorem reaches_finishOpen (crypto : Crypto)
    (isAt : world.tasks.lookup (.control id) = some (.answerOpen registration tag knock answeredAt))
    (free : world.registrationsHeld = false)
    (handled : finishOpen (answerOpen world.gate (.control id) registration tag knock answeredAt
      ambient) = some outcome) :
    Reaches crypto (.control id) world outcome := by
  have silent := answerOpen_silent world.gate (.control id) registration tag knock answeredAt
    ambient
  unfold finishOpen at handled
  split at handled
  · next isNoting =>
      cases handled
      apply Reaches.cons crypto isAt (fun _ => free) ambient silent
      apply Reaches.last crypto ((lookup_commit_self (apart_of_silent silent)).trans isNoting)
        (fun takes => by cases takes) ambient
      intro spawned member
      simp only [Task.run, answerNote, List.mem_cons, List.not_mem_nil, or_false] at member
      rcases member with isFirst | isSecond
      · rw [isFirst]
        simp
      · rw [isSecond]
        simp
  · cases handled
  · cases handled
    exact Reaches.last crypto isAt (fun _ => free) ambient (apart_of_silent silent)

theorem reaches_finishCheck (crypto : Crypto)
    (isAt : world.tasks.lookup (.control id) = some (.answerCheck registration tag accept knock))
    (free : world.registrationsHeld = false)
    (handled : finishCheck (.control id) ambient
      (answerCheck world.gate registration tag accept knock answeredAt) = some outcome) :
    Reaches crypto (.control id) world outcome := by
  have silent := answerCheck_silent world.gate registration tag accept knock answeredAt
  unfold finishCheck at handled
  split at handled
  · next isOpening =>
      apply Reaches.cons crypto isAt (fun _ => free) { now := answeredAt } silent
      apply reaches_finishOpen crypto
        ((lookup_commit_self (apart_of_silent silent)).trans isOpening)
        (registrationsHeld_commit silent isOpening rfl free) handled
  · cases handled
    exact Reaches.last crypto isAt (fun _ => free) { now := answeredAt } (apart_of_silent silent)

/-- The call is what the handler's sections make of the gate when nothing runs between
them. -/
theorem reaches_handleKnockAnswer (crypto : Crypto)
    (isAt : world.tasks.lookup (.control id) = some (.answer registration tag accept))
    (free : world.registrationsHeld = false)
    (handled : handleKnockAnswer world.gate (.control id) registration tag accept answeredAt ambient =
      some outcome) :
    Reaches crypto (.control id) world outcome := by
  have silent := answer_silent world.gate (.control id) registration tag accept
  unfold handleKnockAnswer at handled
  dsimp only at handled
  split at handled
  · next isChecking =>
      apply Reaches.cons crypto isAt (fun _ => free) { now := answeredAt } silent
      exact reaches_finishCheck crypto
        ((lookup_commit_self (apart_of_silent silent)).trans isChecking)
        (registrationsHeld_commit silent isChecking rfl free) handled
  · cases handled
    exact Reaches.last crypto isAt (fun _ => free) { now := answeredAt } (apart_of_silent silent)

end Stages

end Resumed

/-! ### One answer with room, and one without -/

section Fixture

/-- The requester's `Introduce` is with its target. -/
def knocked : List Action := introduction.take 10

/-- The requester's keepalive was taken, and the write of its answer failed. -/
def unwritten : List Action :=
  knocked ++ [.resume (.control 0) { now := 2, frame := some (.keepalive 1) },
    .resume (.control 0) { now := 2 }, .resume (.writer 0) { now := 2, written := false }]

/-- The gate after the actions. -/
def gateAfter (actions : List Action) : ServerState Nat :=
  (run (World.step pairCrypto) (World.bind zero32 2 : World Nat) actions).gate

def requesterSeat : Registration := ⟨0, requesterKey, houseAddr⟩

/-- The target accepts. -/
def acceptAfter (actions : List Action) : Option (Outcome Nat) :=
  handleKnockAnswer (gateAfter actions) (.control 1) targetSeat pairOfKeys true 3
    { now := 3, sessionIds := [7] }

def pendingKnock : KnockState := ⟨requesterKey, targetKey, 1 + fromSecs 60⟩

theorem joins_after {actions : List Action}
    (computed : (gateAfter actions).knocks.lookup pairOfKeys = some pendingKnock ∧
      (gateAfter actions).lastOf requesterKey = some requesterSeat ∧
      (gateAfter actions).lastOf targetKey = some targetSeat ∧
      ((gateAfter actions).cells 0).sessions.entries.length < limits.maxSessionsPerRegistration ∧
      ((gateAfter actions).cells 1).sessions.entries.length < limits.maxSessionsPerRegistration) :
    Joins (gateAfter actions) targetSeat pairOfKeys true 3 pendingKnock requesterSeat targetSeat where
  isPending := computed.1
  answersIt := rfl
  inTime := by decide
  accepts := rfl
  isRequester := computed.2.1
  isTarget := computed.2.2.1
  requesterRoom := computed.2.2.2.1
  targetRoom := computed.2.2.2.2

/-- With room in both channels the session is announced. -/
theorem announced_iff_knocked :
    ∃ outcome, acceptAfter knocked = some outcome ∧
      Announced (gateAfter knocked) pairOfKeys outcome := by
  have joins : Joins (gateAfter knocked) _ _ _ _ _ _ _ := joins_after (by decide +kernel)
  have isSome : (acceptAfter knocked).isSome = true := by decide +kernel
  obtain ⟨outcome, handled⟩ := Option.isSome_iff_exists.mp isSome
  refine ⟨outcome, handled, (announced_iff handled).mpr ?_⟩
  intro knock requester target alsoJoins
  obtain ⟨sameKnock, sameRequester, sameTarget⟩ := joins.unique alsoJoins
  rw [sameRequester, sameTarget]
  decide +kernel

/-- With the requester's writer gone there is a session, and it is not announced. -/
theorem announced_unwritten :
    ∃ outcome, acceptAfter unwritten = some outcome ∧
      (outcome.state.sessions.lookup 7).isSome ∧
      ¬Announced (gateAfter unwritten) pairOfKeys outcome := by
  have joins : Joins (gateAfter unwritten) _ _ _ _ _ _ _ := joins_after (by decide +kernel)
  have isThere : ((acceptAfter unwritten).bind fun outcome =>
      outcome.state.sessions.lookup 7).isSome = true := by decide +kernel
  cases handled : acceptAfter unwritten with
  | none =>
      rw [handled] at isThere
      cases isThere
  | some outcome =>
      rw [handled] at isThere
      refine ⟨outcome, rfl, isThere, ?_⟩
      intro announced
      have rooms := announced.rooms handled joins
      revert rooms
      decide +kernel

end Fixture

end Mosschat.Net.Gate.Server
