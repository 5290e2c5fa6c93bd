import Mosschat.Library.Log
import Mosschat.Library.Machine
import Mosschat.Net.Gate.Server

/-!
Owns who may open a session at the gate: over every order of the handlers' sections,
each session rests on an `Introduce` of the one key and an accepting answer of the
other, and each `Introduce` carries at most one session.

Does not own what is relayed over a session.
-/

namespace Mosschat.Net.Gate.Server

open Mosschat.Core Mosschat.Library Mosschat.Library.Cbor Mosschat.Library.Machine
open Mosschat.Library.Log

/-! ## What a session rests on -/

/-- The event records a knock of the tag, or takes one out. -/
def Event.about (tag : Bytes32) : Event → Prop
  | .introduced _ _ other _ _ => other = tag
  | .answered _ _ other _ => other = tag
  | _ => False

/-- The event takes a knock out for the handler, or creates its session. -/
def Event.byAnswer (handler : Handler) : Event → Prop
  | .answered other _ _ _ => other = handler
  | .opened other _ _ _ _ _ _ _ => other = handler
  | _ => False

/-- A registration of the key sent an `Introduce` of the tag, with this time to live
under the cap. -/
def Asked (history : List Event) (key tag : Bytes32) (ttlS : UInt16) : Prop :=
  ∃ v asked sealedBytes, .received key (.introduce v tag asked sealedBytes) ∈ history ∧
    ttlS = min asked limits.introduceTtlCapS

/-- A registration of the key sent a `KnockAnswer` of the tag, with this decision. -/
def Replied (history : List Event) (key tag : Bytes32) (accept : Bool) : Prop :=
  ∃ v, .received key (.knockAnswer v tag accept) ∈ history

/-- The latest event about the tag is the recording, at `position`, of an `Introduce` the
requester had sent for the pair of itself and the target. -/
structure Recorded (crypto : Crypto) (community : Bytes32) (history : List Event)
    (position : Nat) (requester target tag : Bytes32) (ttlS : UInt16) (recordedAt : Nat) :
    Prop where
  latest : Latest (Event.about tag) history position
    (.introduced requester target tag ttlS recordedAt)
  apart : requester ≠ target
  tagged : pairTag crypto community requester target = tag
  asked : Asked (history.take position) requester tag ttlS

/-- The knock that `knocks` holds for the tag is the latest one recorded. -/
def Pending (crypto : Crypto) (community : Bytes32) (history : List Event) (tag : Bytes32)
    (knock : KnockState) : Prop :=
  ∃ position ttlS recordedAt,
    Recorded crypto community history position knock.requester knock.target tag ttlS recordedAt ∧
      knock.deadline = recordedAt + fromSecs ttlS.toNat

/-- The handler's latest answer took the knock out, at `position`, while it was pending,
for a registration of its target that had sent this decision. -/
structure Taken (crypto : Crypto) (community : Bytes32) (history : List Event)
    (handler : Handler) (tag : Bytes32) (accept : Bool) (knock : KnockState) (position : Nat) :
    Prop where
  latest : Latest (Event.byAnswer handler) history position
    (.answered handler knock.target tag accept)
  replied : Replied (history.take position) knock.target tag accept
  pending : Pending crypto community (history.take position) tag knock

/-- What the session that was opened at `openedAt` between `a` and `b` rests on: the
`Introduce` of `a` recorded at `introducedAt`, and the answer of `b` taken at
`takenAt`. -/
structure Grant (crypto : Crypto) (community : Bytes32) (history : List Event)
    (introducedAt takenAt openedAt : Nat) (handler : Handler) (a b tag : Bytes32)
    (ttlS : UInt16) (recordedAt answeredAt : Nat) : Prop where
  apart : a ≠ b
  tagged : tag = pairTag crypto community a b
  asked : Asked (history.take introducedAt) a tag ttlS
  capped : ttlS.toNat ≤ 60
  recorded : Latest (Event.about tag) (history.take takenAt) introducedAt
    (.introduced a b tag ttlS recordedAt)
  replied : Replied (history.take takenAt) b tag true
  taken : Latest (Event.byAnswer handler) (history.take openedAt) takenAt
    (.answered handler b tag true)
  inTime : answeredAt ≤ recordedAt + fromSecs ttlS.toNat

/-- A session was opened at `openedAt`, and rests on what was recorded at
`introducedAt`. -/
def RestsOn (crypto : Crypto) (community : Bytes32) (history : List Event)
    (introducedAt openedAt : Nat) : Prop :=
  ∃ handler session a b tag answeredAt aToBShaper bToAShaper takenAt ttlS recordedAt,
    history[openedAt]? =
        some (.opened handler session a b tag answeredAt aToBShaper bToAShaper) ∧
      Grant crypto community history introducedAt takenAt openedAt handler a b tag ttlS recordedAt
        answeredAt

section History

variable {crypto : Crypto} {community : Bytes32} {history more : List Event} {handler : Handler}
  {key tag : Bytes32} {accept : Bool} {knock : KnockState} {ttlS : UInt16} {position : Nat}

theorem Asked.append (asked : Asked history key tag ttlS) :
    Asked (history ++ more) key tag ttlS := by
  obtain ⟨v, given, sealedBytes, received, capped⟩ := asked
  exact ⟨v, given, sealedBytes, List.mem_append_left more received, capped⟩

theorem Asked.capped (asked : Asked history key tag ttlS) : ttlS.toNat ≤ 60 := by
  obtain ⟨_, given, _, _, capped⟩ := asked
  have atMost : ttlS ≤ limits.introduceTtlCapS := by
    rw [capped]
    show (if given ≤ limits.introduceTtlCapS then given else limits.introduceTtlCapS) ≤ _
    split
    · next below => exact below
    · exact UInt16.le_refl _
  exact atMost

theorem Replied.append (replied : Replied history key tag accept) :
    Replied (history ++ more) key tag accept := by
  obtain ⟨v, received⟩ := replied
  exact ⟨v, List.mem_append_left more received⟩

/-- A pending knock is pending until something is noted about its tag. -/
theorem Pending.append (pending : Pending crypto community history tag knock)
    (unmarked : ∀ event ∈ more, ¬event.about tag) :
    Pending crypto community (history ++ more) tag knock := by
  obtain ⟨position, ttlS, recordedAt, recorded, deadline⟩ := pending
  have inside := recorded.latest.lt_length
  refine ⟨position, ttlS, recordedAt, ⟨?_, recorded.apart, recorded.tagged, ?_⟩, deadline⟩
  · exact recorded.latest.append unmarked
  · rw [take_append (Nat.le_of_lt inside)]
    exact recorded.asked

/-- A knock stays taken until the handler answers again. -/
theorem Taken.append (taken : Taken crypto community history handler tag accept knock position)
    (unmarked : ∀ event ∈ more, ¬event.byAnswer handler) :
    Taken crypto community (history ++ more) handler tag accept knock position := by
  have inside := taken.latest.lt_length
  have front : (history ++ more).take position = history.take position :=
    take_append (Nat.le_of_lt inside)
  refine ⟨taken.latest.append unmarked, ?_, ?_⟩
  · rw [front]
    exact taken.replied
  · rw [front]
    exact taken.pending

/-- A session opened now rests on what the handler took. -/
theorem Taken.grant (taken : Taken crypto community history handler tag true knock position)
    {answeredAt : Nat} (inTime : answeredAt ≤ knock.deadline) :
    ∃ introducedAt ttlS recordedAt,
      Grant crypto community (history ++ more) introducedAt position history.length handler
        knock.requester knock.target tag ttlS recordedAt answeredAt := by
  obtain ⟨introducedAt, ttlS, recordedAt, recorded, deadline⟩ := taken.pending
  have inside := taken.latest.lt_length
  have before := recorded.latest.lt_length
  have earlier : introducedAt ≤ position := by
    rw [List.length_take] at before
    omega
  have upToTaken : (history ++ more).take position = history.take position :=
    take_append (Nat.le_of_lt inside)
  have upToIntroduced : (history ++ more).take introducedAt =
      (history.take position).take introducedAt := by
    rw [take_append (by omega), List.take_take, Nat.min_eq_left earlier]
  refine ⟨introducedAt, ttlS, recordedAt, ?_⟩
  exact
    { apart := recorded.apart
      tagged := recorded.tagged.symm
      asked := upToIntroduced ▸ recorded.asked
      capped := recorded.asked.capped
      recorded := upToTaken ▸ recorded.latest
      replied := upToTaken ▸ taken.replied
      taken := by
        rw [take_append (Nat.le_refl _), List.take_length]
        exact taken.latest
      inTime := deadline ▸ inTime }

end History

/-! ## What each section can do to it -/

/-- The section is not one of those between the reading of an `Introduce` or of a
`KnockAnswer` and what comes of it. -/
def Task.free : Task → Bool
  | .introduce .. | .introduceTarget .. | .introduceSeat .. | .introduceRecord .. | .answer ..
  | .answerCheck .. | .answerOpen .. => false
  | _ => true

/-- The event records no knock, takes none out and opens no session. -/
def Event.plain : Event → Bool
  | .introduced .. | .answered .. | .opened .. => false
  | _ => true

theorem Event.not_about_of_plain {event : Event} (plain : event.plain = true) (tag : Bytes32) :
    ¬event.about tag := by
  cases event with
  | introduced | answered | opened => cases plain
  | received | relayed | delivered => exact not_false

theorem Event.not_byAnswer_of_plain {event : Event} (plain : event.plain = true)
    (handler : Handler) : ¬event.byAnswer handler := by
  cases event with
  | introduced | answered | opened => cases plain
  | received | relayed | delivered => exact not_false

/-- What the handlers on the way to a session know of the history. -/
def TaskOk (crypto : Crypto) (community : Bytes32) (history : List Event) (handler : Handler) :
    Task → Prop
  | .introduce registration tag ttlS sealedBytes =>
      ∃ v, .received registration.key (.introduce v tag ttlS sealedBytes) ∈ history
  | .introduceTarget registration tag ttlS _ => Asked history registration.key tag ttlS
  | .introduceSeat registration tag ttlS _ targetKey =>
      Asked history registration.key tag ttlS ∧ registration.key ≠ targetKey ∧
        pairTag crypto community registration.key targetKey = tag
  | .introduceRecord registration tag ttlS _ targetKey _ =>
      Asked history registration.key tag ttlS ∧ registration.key ≠ targetKey ∧
        pairTag crypto community registration.key targetKey = tag
  | .answer registration tag accept => Replied history registration.key tag accept
  | .answerCheck _ tag accept knock =>
      ∃ position, Taken crypto community history handler tag accept knock position
  | .answerOpen _ tag knock answeredAt =>
      (∃ position, Taken crypto community history handler tag true knock position) ∧
        answeredAt ≤ knock.deadline
  | _ => True

theorem taskOk_of_free (crypto : Crypto) (community : Bytes32) (history : List Event)
    (handler : Handler) {task : Task} (free : task.free = true) :
    TaskOk crypto community history handler task := by
  cases task with
  | introduce | introduceTarget | introduceSeat | introduceRecord | answer | answerCheck
  | answerOpen => cases free
  | _ => trivial

/-- What the other handlers note leaves a handler knowing what it knew. -/
theorem TaskOk.append {crypto : Crypto} {community : Bytes32} {history more : List Event}
    {handler : Handler} {task : Task} (known : TaskOk crypto community history handler task)
    (unmarked : ∀ event ∈ more, ¬event.byAnswer handler) :
    TaskOk crypto community (history ++ more) handler task := by
  cases task with
  | introduce registration tag ttlS sealedBytes =>
      obtain ⟨v, received⟩ := known
      exact ⟨v, List.mem_append_left more received⟩
  | introduceTarget registration tag ttlS sealedBytes => exact Asked.append known
  | introduceSeat registration tag ttlS sealedBytes targetKey =>
      exact ⟨known.1.append, known.2⟩
  | introduceRecord registration tag ttlS sealedBytes targetKey target =>
      exact ⟨known.1.append, known.2⟩
  | answer registration tag accept => exact Replied.append known
  | answerCheck registration tag accept knock =>
      obtain ⟨position, taken⟩ := known
      exact ⟨position, taken.append unmarked⟩
  | answerOpen registration tag knock answeredAt =>
      obtain ⟨⟨position, taken⟩, inTime⟩ := known
      exact ⟨⟨position, taken.append unmarked⟩, inTime⟩
  | _ => trivial

section Sections

variable {F : Type}

/-- The same community, and no knock that was not there. -/
structure KnocksWithin (before after : ServerState F) : Prop where
  community : after.community = before.community
  knocks : ∀ tag knock, after.knocks.lookup tag = some knock →
    before.knocks.lookup tag = some knock

theorem KnocksWithin.of_eq {before after : ServerState F}
    (community : after.community = before.community) (knocks : after.knocks = before.knocks) :
    KnocksWithin before after where
  community := community
  knocks := by
    intro tag knock
    rw [knocks]
    exact id

/-- Two states of one session. -/
structure SessionState.Same (left right : SessionState F) : Prop where
  keyA : left.keyA = right.keyA
  keyB : left.keyB = right.keyB
  aToBShaper : left.aToBShaper = right.aToBShaper
  bToAShaper : left.bToAShaper = right.bToAShaper

/-- No session that was not there. -/
def SessionsWithin (before after : ServerState F) : Prop :=
  ∀ session current, after.sessions.lookup session = some current →
    ∃ found, before.sessions.lookup session = some found ∧ current.Same found

theorem SessionsWithin.of_eq {before after : ServerState F}
    (sessions : after.sessions = before.sessions) : SessionsWithin before after := by
  intro session current found
  rw [sessions] at found
  exact ⟨current, found, rfl, rfl, rfl, rfl⟩

theorem SessionsWithin.put {before after : ServerState F} {session : UInt32}
    {found changed : SessionState F} (isFound : before.sessions.lookup session = some found)
    (sessions : after.sessions = before.sessions.put session changed)
    (same : changed.Same found) : SessionsWithin before after := by
  intro other current present
  rw [sessions, HashMap.lookup_put] at present
  split at present
  · next isSession =>
      cases present
      rw [isSession]
      exact ⟨found, isFound, same⟩
  · exact ⟨current, present, rfl, rfl, rfl, rfl⟩

/-- The section notes nothing of a knock or a session, and leads to none that does so on
the strength of what it read. -/
structure Outcome.Plain (outcome : Outcome F) : Prop where
  event : ∀ event ∈ outcome.event, event.plain = true
  next : ∀ task ∈ outcome.next, task.free = true
  spawned : ∀ entry ∈ outcome.spawned, entry.2.free = true

/-- A section that notes nothing and spawns nothing. -/
theorem Outcome.Plain.silent {state : ServerState F} {next : Option Task}
    (free : ∀ task ∈ next, task.free = true) : Outcome.Plain { state, next } :=
  ⟨by simp, free, by simp⟩

theorem afterTeardown_free (later : Option (List (Bytes32 × Registration))) :
    ∀ task ∈ afterTeardown later, task.free = true := by
  intro task follows
  unfold afterTeardown at follows
  split at follows
  · cases follows
  · cases follows
    rfl
  · cases follows
    rfl

theorem plain_afterCharge (state : ServerState F) (registration : Registration)
    (session : UInt32) (payload : Bytes) (shaper : Nat) (allowed : Bool) :
    (afterCharge state registration session payload shaper allowed).Plain := by
  unfold afterCharge
  simp only
  split
  · split
    · exact .silent (by simp [Task.free])
    · exact .silent (by simp [Task.free])
  · exact .silent (by simp [Task.free])

theorem teardownSessions_within (state : ServerState F) (peerKey : Bytes32)
    (sessionIds : List UInt32) (later : Option (List (Bytes32 × Registration))) :
    KnocksWithin state (teardownSessions state peerKey sessionIds later).state ∧
      SessionsWithin state (teardownSessions state peerKey sessionIds later).state := by
  rw [teardownSessions_state]
  apply foldl_removeSession fun after => KnocksWithin state after ∧ SessionsWithin state after
  · intro middle id found isFound within
    refine ⟨⟨within.1.community, within.1.knocks⟩, ?_⟩
    intro session current present
    change (middle.sessions.erase id).lookup session = some current at present
    rw [HashMap.lookup_erase] at present
    split at present
    · cases present
    · exact within.2 session current present
  · exact ⟨.of_eq rfl rfl, .of_eq rfl⟩

variable [F64 F]

theorem plain_run (crypto : Crypto) (state : ServerState F) (handler : Handler)
    (ambient : Ambient) {task : Task} (free : task.free = true)
    (reads : ∀ registration, task ≠ .controlLoop registration) :
    (task.run crypto state handler ambient).Plain := by
  cases task with
  | controlLoop registration => exact absurd rfl (reads registration)
  | register registration =>
      show (register state registration ambient).Plain
      unfold register
      dsimp only
      split
      · exact ⟨by simp, by simp [Task.free], by simp [Task.free]⟩
      · exact .silent (by simp)
  | keepalive registration =>
      show (keepalive state registration ambient.now).Plain
      unfold keepalive
      simp only
      split <;> exact .silent (by simp [Task.free])
  | introduceSend registration tag ttlS sealedBytes target => exact .silent (by simp [Task.free])
  | answerNote registration tag knock session requester target aToBShaper bToAShaper =>
      exact ⟨by simp [Task.run, answerNote], by simp [Task.run, answerNote, Task.free],
        by simp [Task.run, answerNote, Task.free]⟩
  | startRequest registration session =>
      show (startRequest state registration session ambient.now).Plain
      unfold startRequest
      simp only
      split
      · exact .silent (by simp [Task.free])
      · split
        · exact .silent (by simp [Task.free])
        · split <;> exact .silent (by simp [Task.free])
  | startSend registration session keyA keyB gateMs => exact .silent (by simp [Task.free])
  | teardown peerKey registration later =>
      show (teardown state peerKey registration later).Plain
      unfold teardown
      simp only
      split <;> exact .silent (by simp [Task.free])
  | teardownIds peerKey registration later =>
      show (teardownIds state peerKey registration later).Plain
      unfold teardownIds
      simp only
      split
      · exact .silent (afterTeardown_free later)
      · exact .silent (by simp [Task.free])
  | teardownSessions peerKey sessionIds later =>
      show (teardownSessions state peerKey sessionIds later).Plain
      unfold teardownSessions
      simp only
      split
      · exact .silent (afterTeardown_free later)
      · exact .silent (by simp [Task.free])
  | teardownOrphans orphaned later => exact .silent (afterTeardown_free later)
  | relayLoop registration =>
      show (relayLoop state registration ambient).Plain
      unfold relayLoop
      split
      · exact .silent (by simp)
      · split
        · exact ⟨by simp [Event.plain], by simp [Task.free], by simp⟩
        · exact .silent (by simp [Task.free])
  | forward registration session payload =>
      show (forward state registration session payload ambient.now).Plain
      have forwarded := forwarded_forward state registration session payload ambient.now
      generalize forward state registration session payload ambient.now = outcome at forwarded ⊢
      cases forwarded with
      | refused stranger => exact .silent (by simp [Task.free])
      | aToB found isFound sender => exact plain_afterCharge _ registration session payload _ _
      | bToA found isFound other sender =>
          exact plain_afterCharge _ registration session payload _ _
  | enqueue registration session payload shaper encoded =>
      show (enqueue state registration shaper encoded ambient.now).Plain
      unfold enqueue
      simp only
      split <;> exact .silent (by simp [Task.free])
  | writer registration =>
      show (writer state registration ambient).Plain
      unfold writer
      simp only
      split
      · exact .silent (by simp [Task.free])
      · exact .silent (by simp)
  | drain session destinationKey shaper =>
      show (drain state session destinationKey shaper ambient.now).Plain
      unfold drain
      simp only
      split
      · exact .silent (by simp)
      · exact .silent (by simp [Task.free])
      · exact .silent (by simp [Task.free])
      · exact .silent (by simp [Task.free])
  | drainCheck session destinationKey shaper payloads =>
      apply Outcome.Plain.silent
      split
      · simp [Task.free]
      · simp
  | drainSeat session destinationKey shaper payloads =>
      apply Outcome.Plain.silent
      simp [Task.free]
  | drainSend session destinationKey shaper destination payloads =>
      show (drainSend state session destinationKey shaper destination payloads ambient).Plain
      unfold drainSend
      split
      · exact .silent (by simp [Task.free])
      · split
        · exact ⟨by simp [Event.plain], by simp [Task.free], by simp⟩
        · exact .silent (by simp)
  | sweepLoop => exact .silent (by simp [Task.free])
  | sweepKnocks now => exact .silent (by simp [Task.free])
  | sweepExpired now => exact .silent (afterTeardown_free _)
  | introduce | introduceTarget | introduceSeat | introduceRecord | answer | answerCheck
  | answerOpen => cases free

/-- Only `introduceRecord` and `answer` write a knock or read one for good. -/
theorem knocksWithin_run (crypto : Crypto) (state : ServerState F) (handler : Handler)
    (ambient : Ambient) {task : Task}
    (records : ∀ registration tag ttlS sealedBytes targetKey target,
      task ≠ .introduceRecord registration tag ttlS sealedBytes targetKey target)
    (answers : ∀ registration tag accept, task ≠ .answer registration tag accept) :
    KnocksWithin state (task.run crypto state handler ambient).state := by
  by_cases elsewhere : task.writesTables = false
  · have kept := kept_run crypto state handler ambient elsewhere
    exact .of_eq kept.community kept.knocks
  · cases task with
    | introduceRecord registration tag ttlS sealedBytes targetKey target =>
        exact absurd rfl (records registration tag ttlS sealedBytes targetKey target)
    | answer registration tag accept => exact absurd rfl (answers registration tag accept)
    | answerOpen registration tag knock answeredAt =>
        show KnocksWithin state
          (answerOpen state handler registration tag knock answeredAt ambient).state
        have opened := answerOpened_answerOpen state handler registration tag knock answeredAt
          ambient
        generalize answerOpen state handler registration tag knock answeredAt ambient = outcome
          at opened ⊢
        cases opened with
        | ended => exact .of_eq rfl rfl
        | drawing => exact .of_eq rfl rfl
        | created session requester target isFree => exact .of_eq rfl rfl
    | startRequest registration session =>
        show KnocksWithin state (startRequest state registration session ambient.now).state
        unfold startRequest
        simp only
        split
        · exact .of_eq rfl rfl
        · split
          · exact .of_eq rfl rfl
          · split <;> exact .of_eq rfl rfl
    | teardownSessions peerKey sessionIds later =>
        exact (teardownSessions_within state peerKey sessionIds later).1
    | forward registration session payload =>
        show KnocksWithin state (forward state registration session payload ambient.now).state
        have forwarded := forwarded_forward state registration session payload ambient.now
        generalize forward state registration session payload ambient.now = outcome at forwarded ⊢
        cases forwarded with
        | refused stranger => exact .of_eq rfl rfl
        | aToB found isFound sender =>
            exact .of_eq (kept_afterCharge _ registration session payload _ _).community
              (kept_afterCharge _ registration session payload _ _).knocks
        | bToA found isFound other sender =>
            exact .of_eq (kept_afterCharge _ registration session payload _ _).community
              (kept_afterCharge _ registration session payload _ _).knocks
    | enqueue registration session payload shaper encoded =>
        show KnocksWithin state (enqueue state registration shaper encoded ambient.now).state
        unfold enqueue
        simp only
        split <;> exact .of_eq rfl rfl
    | drain session destinationKey shaper =>
        show KnocksWithin state (drain state session destinationKey shaper ambient.now).state
        unfold drain
        simp only
        split <;> exact .of_eq rfl rfl
    | sweepKnocks now =>
        refine ⟨rfl, ?_⟩
        intro tag knock present
        exact (HashMap.lookup_retain_eq_some.mp present).1
    | _ => exact absurd rfl elsewhere

/-- Only `answerOpen` creates a session, and no section changes whose it is. -/
theorem sessionsWithin_run (crypto : Crypto) (state : ServerState F) (handler : Handler)
    (ambient : Ambient) {task : Task}
    (opens : ∀ registration tag knock answeredAt,
      task ≠ .answerOpen registration tag knock answeredAt) :
    SessionsWithin state (task.run crypto state handler ambient).state := by
  by_cases elsewhere : task.writesTables = false
  · exact .of_eq (kept_run crypto state handler ambient elsewhere).sessions
  · cases task with
    | introduceRecord registration tag ttlS sealedBytes targetKey target => exact .of_eq rfl
    | answer registration tag accept =>
        show SessionsWithin state (answer state handler registration tag accept).state
        unfold answer
        split
        · exact .of_eq rfl
        · split <;> exact .of_eq rfl
    | answerOpen registration tag knock answeredAt =>
        exact absurd rfl (opens registration tag knock answeredAt)
    | startRequest registration session =>
        show SessionsWithin state (startRequest state registration session ambient.now).state
        unfold startRequest
        simp only
        split
        · exact .of_eq rfl
        · next found isFound =>
            split
            · exact .of_eq rfl
            · split
              · exact .put isFound rfl ⟨rfl, rfl, rfl, rfl⟩
              · exact .put isFound rfl ⟨rfl, rfl, rfl, rfl⟩
    | teardownSessions peerKey sessionIds later =>
        exact (teardownSessions_within state peerKey sessionIds later).2
    | forward registration session payload =>
        show SessionsWithin state (forward state registration session payload ambient.now).state
        have forwarded := forwarded_forward state registration session payload ambient.now
        generalize forward state registration session payload ambient.now = outcome at forwarded ⊢
        cases forwarded with
        | refused stranger => exact .of_eq rfl
        | aToB found isFound sender =>
            exact .put isFound (kept_afterCharge _ registration session payload _ _).sessions
              ⟨rfl, rfl, rfl, rfl⟩
        | bToA found isFound other sender =>
            exact .put isFound (kept_afterCharge _ registration session payload _ _).sessions
              ⟨rfl, rfl, rfl, rfl⟩
    | enqueue registration session payload shaper encoded =>
        show SessionsWithin state (enqueue state registration shaper encoded ambient.now).state
        unfold enqueue
        simp only
        split <;> exact .of_eq rfl
    | drain session destinationKey shaper =>
        show SessionsWithin state (drain state session destinationKey shaper ambient.now).state
        unfold drain
        simp only
        split <;> exact .of_eq rfl
    | sweepKnocks now => exact .of_eq rfl
    | _ => exact absurd rfl elsewhere

end Sections

/-! ## The invariant -/

section Invariant

variable {F : Type} {crypto : Crypto} {community : Bytes32} {world : World F}
  {handler : Handler} {outcome : Outcome F}

/-- The session was opened between its two keys, with its two shapers. -/
def Opened (history : List Event) (session : UInt32) (found : SessionState F) : Prop :=
  ∃ handler tag answeredAt,
    .opened handler session found.keyA found.keyB tag answeredAt found.aToBShaper
      found.bToAShaper ∈ history

theorem Opened.append {history more : List Event} {session : UInt32} {found current : SessionState F}
    (opened : Opened history session found) (same : current.Same found) :
    Opened (history ++ more) session current := by
  obtain ⟨handler, tag, answeredAt, noted⟩ := opened
  refine ⟨handler, tag, answeredAt, ?_⟩
  rw [same.keyA, same.keyB, same.aToBShaper, same.bToAShaper]
  exact List.mem_append_left more noted

/-- What every reachable world keeps. -/
structure Inv (crypto : Crypto) (community : Bytes32) (world : World F) : Prop where
  serves : world.gate.community = community
  pending : ∀ tag knock, world.gate.knocks.lookup tag = some knock →
    Pending crypto community world.history tag knock
  task : ∀ handler task, world.tasks.lookup handler = some task →
    TaskOk crypto community world.history handler task
  granted : ∀ openedAt handler session a b tag answeredAt aToBShaper bToAShaper,
    world.history[openedAt]? =
        some (.opened handler session a b tag answeredAt aToBShaper bToAShaper) →
      ∃ introducedAt takenAt ttlS recordedAt,
        Grant crypto community world.history introducedAt takenAt openedAt handler a b tag ttlS
          recordedAt answeredAt
  live : ∀ session found, world.gate.sessions.lookup session = some found →
    Opened world.history session found

/-- What a section has to leave for the invariant to be kept. -/
structure Sound (crypto : Crypto) (community : Bytes32) (world : World F) (handler : Handler)
    (outcome : Outcome F) : Prop where
  serves : outcome.state.community = community
  pending : ∀ tag knock, outcome.state.knocks.lookup tag = some knock →
    Pending crypto community (world.history ++ outcome.event.toList) tag knock
  next : ∀ task ∈ outcome.next,
    TaskOk crypto community (world.history ++ outcome.event.toList) handler task
  spawned : ∀ entry ∈ outcome.spawned, entry.2.free = true
  marked : ∀ event ∈ outcome.event, ∀ other, event.byAnswer other → other = handler
  granted : ∀ opener session a b tag answeredAt aToBShaper bToAShaper,
    .opened opener session a b tag answeredAt aToBShaper bToAShaper ∈ outcome.event →
      ∃ introducedAt takenAt ttlS recordedAt,
        Grant crypto community (world.history ++ outcome.event.toList) introducedAt takenAt
          world.history.length opener a b tag ttlS recordedAt answeredAt
  live : ∀ session found, outcome.state.sessions.lookup session = some found →
    Opened (world.history ++ outcome.event.toList) session found

/-- What a grant says of the history ends where the session was opened. -/
theorem Grant.append {history more : List Event} {introducedAt takenAt openedAt : Nat}
    {a b tag : Bytes32} {ttlS : UInt16} {recordedAt answeredAt : Nat}
    (grant : Grant crypto community history introducedAt takenAt openedAt handler a b tag ttlS
      recordedAt answeredAt) (inside : openedAt ≤ history.length) :
    Grant crypto community (history ++ more) introducedAt takenAt openedAt handler a b tag ttlS
      recordedAt answeredAt := by
  have takenBefore := grant.taken.lt_length
  have introducedBefore := grant.recorded.lt_length
  rw [List.length_take] at takenBefore introducedBefore
  have upToOpened : (history ++ more).take openedAt = history.take openedAt := take_append inside
  have upToTaken : (history ++ more).take takenAt = history.take takenAt :=
    take_append (by omega)
  have upToIntroduced : (history ++ more).take introducedAt = history.take introducedAt :=
    take_append (by omega)
  exact
    { apart := grant.apart
      tagged := grant.tagged
      asked := upToIntroduced ▸ grant.asked
      capped := grant.capped
      recorded := upToTaken ▸ grant.recorded
      replied := upToTaken ▸ grant.replied
      taken := upToOpened ▸ grant.taken
      inTime := grant.inTime }

/-- A section whose event is plain keeps the invariant, if it adds no knock and no
session and hands on only what it knows. -/
theorem Sound.of_plain (inv : Inv crypto community world)
    (knocks : KnocksWithin world.gate outcome.state)
    (sessions : SessionsWithin world.gate outcome.state)
    (plain : ∀ event ∈ outcome.event, event.plain = true)
    (next : ∀ task ∈ outcome.next,
      TaskOk crypto community (world.history ++ outcome.event.toList) handler task)
    (spawned : ∀ entry ∈ outcome.spawned, entry.2.free = true) :
    Sound crypto community world handler outcome where
  serves := knocks.community.trans inv.serves
  pending := by
    intro tag knock present
    apply (inv.pending tag knock (knocks.knocks tag knock present)).append
    intro event noted
    exact event.not_about_of_plain (plain event (Option.mem_toList.mp noted)) tag
  next := next
  spawned := spawned
  marked := by
    intro event noted other isBy
    exact absurd isBy (event.not_byAnswer_of_plain (plain event noted) other)
  granted := by
    intro opener session a b tag answeredAt aToBShaper bToAShaper noted
    cases plain _ noted
  live := by
    intro session current present
    obtain ⟨found, before, same⟩ := sessions session current present
    exact (inv.live session found before).append same

/-- A sound section's outcome keeps the invariant. -/
theorem inv_commit (inv : Inv crypto community world)
    (sound : Sound crypto community world handler outcome) :
    Inv crypto community (world.commit handler outcome) where
  serves := sound.serves
  pending := sound.pending
  task := by
    intro other task present
    rcases lookup_commit_tasks present with isSpawned | ⟨isHandler, isNext⟩ | ⟨apart, before⟩
    · exact taskOk_of_free crypto community _ other (sound.spawned (other, task) isSpawned)
    · rw [isHandler]
      exact sound.next task isNext
    · apply (inv.task other task before).append
      intro event noted isBy
      exact apart (sound.marked event (Option.mem_toList.mp noted) other isBy)
  granted := by
    intro openedAt opener session a b tag answeredAt aToBShaper bToAShaper noted
    change (world.history ++ outcome.event.toList)[openedAt]? = _ at noted
    by_cases old : openedAt < world.history.length
    · rw [List.getElem?_append_left old] at noted
      obtain ⟨introducedAt, takenAt, ttlS, recordedAt, grant⟩ :=
        inv.granted openedAt opener session a b tag answeredAt aToBShaper bToAShaper noted
      exact ⟨introducedAt, takenAt, ttlS, recordedAt, grant.append (Nat.le_of_lt old)⟩
    · rw [List.getElem?_append_right (Nat.le_of_not_lt old)] at noted
      have isNew : .opened opener session a b tag answeredAt aToBShaper bToAShaper ∈
          outcome.event := Option.mem_toList.mp (List.mem_of_getElem? noted)
      have isLast : openedAt = world.history.length := by
        have inside := lt_length_of_getElem? noted
        have single := Option.length_toList_le (o := outcome.event)
        omega
      rw [isLast]
      exact sound.granted opener session a b tag answeredAt aToBShaper bToAShaper isNew
  live := sound.live

/-- The section that records a knock. -/
theorem sound_introduceRecord (inv : Inv crypto community world) {registration : Registration}
    {tag : Bytes32} {ttlS : UInt16} {sealedBytes : Bytes} {targetKey : Bytes32}
    {target : Registration} {now : Nat} (asked : Asked world.history registration.key tag ttlS)
    (apart : registration.key ≠ targetKey)
    (tagged : pairTag crypto community registration.key targetKey = tag) :
    Sound crypto community world handler
      (introduceRecord world.gate registration tag ttlS sealedBytes targetKey target now) where
  serves := inv.serves
  pending := by
    intro other knock present
    change (world.gate.knocks.put tag _).lookup other = some knock at present
    rw [HashMap.lookup_put] at present
    split at present
    · next isTag =>
        cases present
        rw [isTag]
        refine ⟨world.history.length, ttlS, now, ⟨.concat_self rfl, apart, tagged, ?_⟩, rfl⟩
        rw [List.take_left']
        · exact asked
        · rfl
    · next otherTag =>
        apply (inv.pending other knock present).append
        intro event noted about
        cases Option.mem_toList.mp noted
        exact otherTag about.symm
  next := by
    intro task isNext
    cases isNext
    trivial
  spawned := by simp [introduceRecord]
  marked := by
    intro event noted other isBy
    cases noted
    cases isBy
  granted := by
    intro opener session a b tag answeredAt aToBShaper bToAShaper noted
    cases noted
  live := by
    intro session found present
    exact (inv.live session found present).append ⟨rfl, rfl, rfl, rfl⟩

/-- The section that takes a knock out. -/
theorem sound_answer (inv : Inv crypto community world) {registration : Registration}
    {tag : Bytes32} {accept : Bool} (replied : Replied world.history registration.key tag accept) :
    Sound crypto community world handler
      (answer world.gate handler registration tag accept) := by
  unfold answer
  split
  · exact .of_plain inv (.of_eq rfl rfl) (.of_eq rfl) (by simp) (by simp [TaskOk]) (by simp)
  · next knock isPending =>
      split
      · next isTarget =>
          have taken : Taken crypto community
              (world.history ++ [.answered handler registration.key tag accept]) handler tag
              accept knock world.history.length := by
            rw [← isTarget] at replied ⊢
            refine ⟨.concat_self rfl, ?_, ?_⟩
            · rw [List.take_left' rfl]
              exact replied
            · rw [List.take_left' rfl]
              exact inv.pending tag knock isPending
          exact
            { serves := inv.serves
              pending := by
                intro other waiting present
                change (world.gate.knocks.erase tag).lookup other = some waiting at present
                rw [HashMap.lookup_erase] at present
                split at present
                · cases present
                · next otherTag =>
                    apply (inv.pending other waiting present).append
                    intro event noted about
                    cases Option.mem_toList.mp noted
                    exact otherTag about.symm
              next := by
                intro task isNext
                cases isNext
                exact ⟨world.history.length, taken⟩
              spawned := by simp
              marked := by
                intro event noted other isBy
                cases noted
                exact isBy.symm
              granted := by
                intro opener session a b tag answeredAt aToBShaper bToAShaper noted
                cases noted
              live := by
                intro session found present
                exact (inv.live session found present).append ⟨rfl, rfl, rfl, rfl⟩ }
      · exact .of_plain inv (.of_eq rfl rfl) (.of_eq rfl) (by simp) (by simp [TaskOk]) (by simp)

/-- An answer from a key that is not the knock's target changes one counter. -/
theorem answer_of_other {state : ServerState F} {registration : Registration} {tag : Bytes32}
    {accept : Bool} {knock : KnockState} (isPending : state.knocks.lookup tag = some knock)
    (other : knock.target ≠ registration.key) :
    answer state handler registration tag accept =
      { state := state.count fun counters =>
          { counters with knockAnsweredByWrongTarget := counters.knockAnsweredByWrongTarget + 1 }
        next := some (.controlLoop registration) } := by
  unfold answer
  rw [isPending]
  simp only [if_neg other]

variable [F64 F]

/-- The section that creates the session. -/
theorem sound_answerOpen (inv : Inv crypto community world) {registration : Registration}
    {tag : Bytes32} {knock : KnockState} {answeredAt position : Nat} {ambient : Ambient}
    (taken : Taken crypto community world.history handler tag true knock position)
    (inTime : answeredAt ≤ knock.deadline) :
    Sound crypto community world handler
      (answerOpen world.gate handler registration tag knock answeredAt ambient) := by
  have opened := answerOpened_answerOpen world.gate handler registration tag knock answeredAt
    ambient
  generalize answerOpen world.gate handler registration tag knock answeredAt ambient = outcome
    at opened ⊢
  cases opened with
  | ended =>
      exact .of_plain inv (.of_eq rfl rfl) (.of_eq rfl) (by simp) (by simp [TaskOk]) (by simp)
  | drawing =>
      refine .of_plain inv (.of_eq rfl rfl) (.of_eq rfl) (by simp) ?_ (by simp)
      intro task isNext
      cases isNext
      rw [Option.toList_none, List.append_nil]
      exact ⟨⟨position, taken⟩, inTime⟩
  | created session requester target isFree =>
      exact
        { serves := inv.serves
          pending := by
            intro other waiting present
            apply (inv.pending other waiting present).append
            intro event noted about
            cases Option.mem_toList.mp noted
            cases about
          next := by
            intro task isNext
            cases isNext
            trivial
          spawned := by simp [openSession]
          marked := by
            intro event noted other isBy
            cases noted
            exact isBy.symm
          granted := by
            intro opener session a b tag answeredAt aToBShaper bToAShaper noted
            cases noted
            obtain ⟨introducedAt, ttlS, recordedAt, grant⟩ := taken.grant inTime
            exact ⟨introducedAt, position, ttlS, recordedAt, grant⟩
          live := by
            intro other current present
            change (world.gate.sessions.put session _).lookup other = some current at present
            rw [HashMap.lookup_put] at present
            split at present
            · next isSession =>
                cases present
                rw [isSession]
                exact ⟨handler, tag, answeredAt, List.mem_append_right _ List.mem_cons_self⟩
            · exact (inv.live other current present).append ⟨rfl, rfl, rfl, rfl⟩ }

/-- The first section of every frame. -/
theorem sound_controlLoop (inv : Inv crypto community world) (registration : Registration)
    (ambient : Ambient) :
    Sound crypto community world handler (controlLoop world.gate registration ambient) := by
  have kept := kept_controlLoop world.gate registration ambient
  apply Sound.of_plain inv (.of_eq kept.community kept.knocks) (.of_eq kept.sessions)
  · unfold controlLoop
    split
    · simp
    · simp only
      split <;> simp [Event.plain]
  · unfold controlLoop
    split
    · simp [TaskOk]
    · simp only
      split
      · intro task isNext
        cases isNext
        unfold dispatch
        split
        · trivial
        · next v tag ttlS sealedBytes _ =>
            exact ⟨v, List.mem_append_right _ List.mem_cons_self⟩
        · next v tag accept _ => exact ⟨v, List.mem_append_right _ List.mem_cons_self⟩
        · trivial
        · trivial
      · simp [TaskOk]
  · unfold controlLoop
    split
    · simp
    · simp only
      split <;> simp

/-- The sections of the handlers that are on no way to a session. -/
theorem sound_free (inv : Inv crypto community world) {task : Task} (ambient : Ambient)
    (free : task.free = true) (reads : ∀ registration, task ≠ .controlLoop registration) :
    Sound crypto community world handler (task.run crypto world.gate handler ambient) := by
  have plain := plain_run crypto world.gate handler ambient free reads
  apply Sound.of_plain inv
  · apply knocksWithin_run crypto world.gate handler ambient
    · intro registration tag ttlS sealedBytes targetKey target isRecord
      rw [isRecord] at free
      cases free
    · intro registration tag accept isAnswer
      rw [isAnswer] at free
      cases free
  · apply sessionsWithin_run crypto world.gate handler ambient
    intro registration tag knock answeredAt isOpen
    rw [isOpen] at free
    cases free
  · exact plain.event
  · intro task isNext
    exact taskOk_of_free crypto community _ handler (plain.next task isNext)
  · exact plain.spawned

/-- Every section of a handler that knows what it should keeps the invariant. -/
theorem sound_run (inv : Inv crypto community world) {task : Task} (ambient : Ambient)
    (known : TaskOk crypto community world.history handler task) :
    Sound crypto community world handler (task.run crypto world.gate handler ambient) := by
  cases task with
  | controlLoop registration => exact sound_controlLoop inv registration ambient
  | introduce registration tag ttlS sealedBytes =>
      have kept := kept_introduce world.gate registration tag ttlS sealedBytes ambient.now
      have asked : Asked world.history registration.key tag (min ttlS limits.introduceTtlCapS) := by
        obtain ⟨v, received⟩ := known
        exact ⟨v, ttlS, sealedBytes, received, rfl⟩
      show Sound crypto community world handler
        (introduce world.gate registration tag ttlS sealedBytes ambient.now)
      apply Sound.of_plain inv (.of_eq kept.community kept.knocks) (.of_eq kept.sessions)
      · unfold introduce
        simp only
        split <;> simp
      · unfold introduce
        simp only
        split
        · intro task isNext
          cases isNext
          exact asked.append
        · simp [TaskOk]
      · unfold introduce
        simp only
        split <;> simp
  | introduceTarget registration tag ttlS sealedBytes =>
      show Sound crypto community world handler
        (introduceTarget crypto world.gate registration tag ttlS sealedBytes)
      unfold introduceTarget
      split
      · exact .of_plain inv (.of_eq rfl rfl) (.of_eq rfl) (by simp) (by simp [TaskOk]) (by simp)
      · next targetKey isTarget =>
          have meets := List.find?_some isTarget
          rw [Bool.and_eq_true, bne_iff_ne, beq_iff_eq, ServerState.pairTag, inv.serves] at meets
          refine .of_plain inv (.of_eq rfl rfl) (.of_eq rfl) (by simp) ?_ (by simp)
          intro task isNext
          cases isNext
          exact ⟨Asked.append known, meets.1.symm, meets.2⟩
  | introduceSeat registration tag ttlS sealedBytes targetKey =>
      show Sound crypto community world handler
        (introduceSeat world.gate registration tag ttlS sealedBytes targetKey)
      unfold introduceSeat
      split
      · exact .of_plain inv (.of_eq rfl rfl) (.of_eq rfl) (by simp) (by simp [TaskOk]) (by simp)
      · refine .of_plain inv (.of_eq rfl rfl) (.of_eq rfl) (by simp) ?_ (by simp)
        intro task isNext
        cases isNext
        exact ⟨known.1.append, known.2⟩
  | introduceRecord registration tag ttlS sealedBytes targetKey target =>
      exact sound_introduceRecord inv known.1 known.2.1 known.2.2
  | answer registration tag accept => exact sound_answer inv known
  | answerCheck registration tag accept knock =>
      show Sound crypto community world handler
        (answerCheck world.gate registration tag accept knock ambient.now)
      unfold answerCheck
      split
      · exact .of_plain inv (.of_eq rfl rfl) (.of_eq rfl) (by simp) (by simp [TaskOk]) (by simp)
      · next notLate =>
          split
          · exact .of_plain inv (.of_eq rfl rfl) (.of_eq rfl) (by simp) (by simp [TaskOk])
              (by simp)
          · next declined =>
              refine .of_plain inv (.of_eq rfl rfl) (.of_eq rfl) (by simp) ?_ (by simp)
              intro task isNext
              cases isNext
              have isAccept : accept = true := by simpa using declined
              rw [isAccept] at known
              rw [Option.toList_none, List.append_nil]
              exact ⟨known, Nat.le_of_not_lt notLate⟩
  | answerOpen registration tag knock answeredAt =>
      obtain ⟨⟨position, taken⟩, inTime⟩ := known
      exact sound_answerOpen inv taken inTime
  | _ => exact sound_free inv ambient rfl (by simp)

/-- A new connection's tasks know nothing yet. -/
theorem inv_connect (inv : Inv crypto community world) (key : Bytes32) (observed : SocketAddr)
    (now : Nat) : Inv crypto community (world.connect key observed now) := by
  obtain ⟨registrations, counters, cells, gate⟩ := connect_gate world key observed now
  have history := connect_history world key observed now
  exact
    { serves := by
        rw [gate]
        exact inv.serves
      pending := by
        rw [gate, history]
        exact inv.pending
      task := by
        intro handler task present
        rw [history]
        rcases lookup_connect_tasks present with before | isNew
        · exact inv.task handler task before
        · rw [isNew]
          trivial
      granted := by
        rw [history]
        exact inv.granted
      live := by
        rw [gate, history]
        exact inv.live }

/-- One action keeps the invariant. -/
theorem inv_step (world : World F) (action : Action) (inv : Inv crypto community world) :
    Inv crypto community (world.step crypto action) := by
  unfold World.step
  split
  · next key observed now =>
      split
      · exact inv
      · exact inv_connect inv key observed now
  · next handler ambient =>
      split
      · exact inv
      · next task present =>
          split
          · exact inv
          · exact inv_commit inv (sound_run inv ambient (inv.task handler task present))

theorem inv_bind (capacity : Nat) :
    Inv crypto community (World.bind community capacity : World F) where
  serves := rfl
  pending := by
    intro tag knock present
    cases present
  task := by
    intro handler task present
    change ((∅ : HashMap Handler Task).put .sweep .sweepLoop).lookup handler = some task at present
    rw [HashMap.lookup_put] at present
    split at present
    · cases present
      trivial
    · cases present
  granted := by
    intro openedAt handler session a b tag answeredAt aToBShaper bToAShaper noted
    cases noted
  live := by
    intro session found present
    cases present

/-- Every run of the gate keeps it. -/
theorem inv_run (capacity : Nat) (actions : List Action) :
    Inv crypto community
      (run (World.step crypto) (World.bind community capacity : World F) actions) :=
  run_always inv_step (inv_bind capacity) actions

/-! ## Sessions are authorised -/

/-- One introduction carries one session: between the introduction and the next event
about its tag there is room for one answer, and after it for one opening. -/
theorem restsOn_unique {history : List Event} {introducedAt first second : Nat}
    (left : RestsOn crypto community history introducedAt first)
    (right : RestsOn crypto community history introducedAt second) : first = second := by
  obtain ⟨handler, session, a, b, tag, answeredAt, aToBShaper, bToAShaper, takenAt, ttlS,
    recordedAt, opened, grant⟩ := left
  obtain ⟨otherHandler, otherSession, otherA, otherB, otherTag, otherAnsweredAt, otherAToBShaper,
    otherBToAShaper, otherTakenAt, otherTtlS, otherRecordedAt, otherOpened, otherGrant⟩ := right
  have sameIntroduction : (Event.introduced a b tag ttlS recordedAt) =
      .introduced otherA otherB otherTag otherTtlS otherRecordedAt := by
    have here := getElem?_of_take grant.recorded.recorded
    have alsoHere := getElem?_of_take otherGrant.recorded.recorded
    rw [here] at alsoHere
    exact Option.some.inj alsoHere
  cases sameIntroduction
  have sameTaken : takenAt = otherTakenAt := by
    have here := getElem?_of_take grant.taken.recorded
    have alsoHere := getElem?_of_take otherGrant.taken.recorded
    apply Nat.le_antisymm
    · exact otherGrant.recorded.le_of_marked grant.recorded alsoHere rfl
    · exact grant.recorded.le_of_marked otherGrant.recorded here rfl
  subst sameTaken
  have sameAnswer : (Event.answered handler b tag true) = .answered otherHandler b tag true := by
    have here := getElem?_of_take grant.taken.recorded
    have alsoHere := getElem?_of_take otherGrant.taken.recorded
    rw [here] at alsoHere
    exact Option.some.inj alsoHere
  cases sameAnswer
  apply Nat.le_antisymm
  · exact otherGrant.taken.le_of_marked grant.taken otherOpened rfl
  · exact grant.taken.le_of_marked otherGrant.taken opened rfl

/-- In every run of the gate, over any order of its handlers' sections: every session
that was opened rests on an introduction and an answer of its two keys, no introduction
carries two, every session in the table was opened as it stands there, and an answer of
any other key ends with the knock still pending and no session created. -/
theorem session_authorised (crypto : Crypto) (community : Bytes32) (capacity : Nat)
    (actions : List Action) :
    let world := run (World.step crypto) (World.bind community capacity : World F) actions
    (∀ openedAt handler session a b tag answeredAt aToBShaper bToAShaper,
      world.history[openedAt]? =
          some (.opened handler session a b tag answeredAt aToBShaper bToAShaper) →
        ∃ introducedAt takenAt ttlS recordedAt,
          Grant crypto community world.history introducedAt takenAt openedAt handler a b tag ttlS
            recordedAt answeredAt) ∧
    (∀ introducedAt first second, RestsOn crypto community world.history introducedAt first →
      RestsOn crypto community world.history introducedAt second → first = second) ∧
    (∀ session found, world.gate.sessions.lookup session = some found →
      Opened world.history session found) ∧
    ∀ handler registration tag accept knock ambient,
      world.tasks.lookup handler = some (.answer registration tag accept) →
      world.gate.knocks.lookup tag = some knock → knock.target ≠ registration.key →
        let after := world.step crypto (.resume handler ambient)
        after.gate.knocks = world.gate.knocks ∧ after.gate.sessions = world.gate.sessions ∧
          after.tasks.lookup handler = some (.controlLoop registration) ∧
          after.history = world.history := by
  intro world
  have inv : Inv crypto community world := inv_run capacity actions
  refine ⟨inv.granted, ?_, inv.live, ?_⟩
  · intro introducedAt first second left right
    exact restsOn_unique left right
  · intro handler registration tag accept knock ambient atAnswer isPending other
    have stepped : world.step crypto (.resume handler ambient) =
        world.commit handler (answer world.gate handler registration tag accept) := by
      simp only [World.step, atAnswer]
      rfl
    rw [stepped, answer_of_other isPending other]
    refine ⟨rfl, rfl, ?_, List.append_nil _⟩
    show (world.tasks.put handler (.controlLoop registration)).lookup handler = _
    rw [HashMap.lookup_put, if_pos rfl]

end Invariant

/-! ### One introduction -/

section Fixture

/-- Primitives under which a digest is 32 bytes from the 54th on. -/
def pairCrypto : Crypto where
  blake3 input := ⟨((input.drop 53) ++ List.replicate 32 0).take 32, by simp⟩
  verifyingKey _ := true
  verifyStrict _ _ _ := true

def requesterKey : Bytes32 := List.Vector.replicate 32 1

def targetKey : Bytes32 := List.Vector.replicate 32 2

def pairOfKeys : Bytes32 := pairTag pairCrypto zero32 requesterKey targetKey

def houseAddr : SocketAddr := ⟨.v4 (List.Vector.replicate 4 10), 4433⟩

/-- Two houses register, one asks for the other, which accepts. -/
def introduction : List Action :=
  [.connect requesterKey houseAddr 0, .connect targetKey houseAddr 0,
    .resume (.control 0) { now := 0 }, .resume (.control 1) { now := 0 },
    .resume (.control 0) { now := 1, frame := some (.introduce 1 pairOfKeys 90 []) }] ++
  List.replicate 5 (.resume (.control 0) { now := 1 }) ++
  [.resume (.control 1) { now := 2, frame := some (.knockAnswer 1 pairOfKeys true) }] ++
  List.replicate 3 (.resume (.control 1) { now := 2, sessionIds := [7] })

end Fixture

/-- The session of an accepted introduction rests on it. -/
theorem session_authorised_introduction :
    let history :=
      (run (World.step pairCrypto) (World.bind zero32 2 : World Nat) introduction).history
    ∃ introducedAt takenAt ttlS recordedAt,
      Grant pairCrypto zero32 history introducedAt takenAt 4 (.control 1) requesterKey targetKey
        pairOfKeys ttlS recordedAt 2 :=
  (session_authorised pairCrypto zero32 2 introduction).1 4 (.control 1) 7 requesterKey targetKey
    pairOfKeys 2 2 3 (by decide +kernel)

end Mosschat.Net.Gate.Server
