import Mosschat.Net.Gate.Announce
import Mosschat.Net.Gate.Newest

/-!
Owns the budget of a session's starts: what a start is sent for and to, how many requests
cause one, and that the budget is there again once the counter has gone all the way round.

Does not own what a house does at a start.
-/

namespace Mosschat.Net.Gate.Server

open Mosschat.Core Mosschat.Library Mosschat.Library.Cbor Mosschat.Library.Machine

/-! ## The requests of a session's life -/

section Requests

variable {F : Type}

/-- The count that a party's request finds at the session, if the section takes one. The
shaper tells one session from another of the same id. -/
def Task.requestsStart (session : UInt32) (shaper : Nat) (state : ServerState F) :
    Task → List UInt32
  | .startRequest registration other =>
    match state.sessions.lookup session with
    | none => []
    | some found =>
      if other = session ∧ found.aToBShaper = shaper ∧
          (found.keyA = registration.key ∨ found.keyB = registration.key) then
        [found.startRequests]
      else []
  | _ => []

/-- The count that a party's request finds at the session, if the action takes one. -/
def World.requestsStart (session : UInt32) (shaper : Nat) (world : World F) :
    Action → List UInt32
  | .resume handler _ =>
    match world.tasks.lookup handler with
    | none => []
    | some task => task.requestsStart session shaper world.gate
  | .connect .. => []

variable [F64 F]

/-- The counts that the parties' requests find at the session over a run. -/
def startRequestsOf (F : Type) [F64 F] (crypto : Crypto) (community : Bytes32) (capacity : Nat)
    (actions : List Action) (session : UInt32) (shaper : Nat) : List UInt32 :=
  outputs (World.step crypto) (World.requestsStart session shaper)
    (World.bind community capacity : World F) actions

/-- The requests among them that cause a start. -/
def causing (counts : List UInt32) : List UInt32 :=
  counts.filter fun count => decide (count < limits.startRequestsPerSession)

end Requests

/-! ## The counter -/

/-- Every time the counter goes round, four requests cause a start. -/
theorem length_causing_range (size : Nat) :
    (causing ((List.range size).map UInt32.ofNat)).length =
      4 * (size / 2 ^ 32) + min 4 (size % 2 ^ 32) := by
  induction size with
  | zero => rfl
  | succ size ih =>
      have below : UInt32.ofNat size < limits.startRequestsPerSession ↔ size % 2 ^ 32 < 4 := by
        rw [UInt32.lt_iff_toNat_lt, UInt32.toNat_ofNat']
        rfl
      have counted : (causing ((List.range (size + 1)).map UInt32.ofNat)).length =
          (causing ((List.range size).map UInt32.ofNat)).length +
            if size % 2 ^ 32 < 4 then 1 else 0 := by
        unfold causing
        rw [List.range_succ, List.map_append, List.filter_append, List.length_append]
        simp only [List.map_cons, List.map_nil, List.filter_cons, List.filter_nil,
          decide_eq_true_eq, below]
        by_cases fresh : size % 2 ^ 32 < 4
        · rw [if_pos fresh, if_pos fresh]
          rfl
        · rw [if_neg fresh, if_neg fresh]
          rfl
      rw [counted, ih]
      split <;> omega

/-- So four are not exceeded until it has gone round once. -/
theorem causing_range_le_iff (size : Nat) :
    (causing ((List.range size).map UInt32.ofNat)).length ≤ 4 ↔ size ≤ 2 ^ 32 := by
  rw [length_causing_range]
  omega

/-! ## What a run counts -/

section Counts

variable {F : Type} {session : UInt32} {shaper : Nat}

/-- The state knows the requests that were seen: as long as the session is in the table,
their number is its count. -/
structure Counted (session : UInt32) (shaper : Nat) (state : ServerState F) (seen : List UInt32) :
    Prop where
  inOrder : seen = (List.range seen.length).map UInt32.ofNat
  known : ∀ id found, state.sessions.lookup id = some found → found.aToBShaper < state.allocated
  unborn : state.allocated ≤ shaper → seen = []
  count : ∀ found, state.sessions.lookup session = some found → found.aToBShaper = shaper →
    found.startRequests = UInt32.ofNat seen.length

/-- One request more. -/
theorem inOrder_snoc {seen : List UInt32} (inOrder : seen = (List.range seen.length).map UInt32.ofNat) :
    seen ++ [UInt32.ofNat seen.length] =
      (List.range (seen ++ [UInt32.ofNat seen.length]).length).map UInt32.ofNat := by
  rw [List.length_append, List.length_singleton, List.range_succ, List.map_append, ← inOrder]
  rfl

variable [F64 F]

/-- A session after a section was there before, or is new, with nothing counted. -/
theorem sessions_run (crypto : Crypto) (state : ServerState F) (handler : Handler)
    (ambient : Ambient) (task : Task) {id : UInt32} {current : SessionState F}
    (isCurrent : (task.run crypto state handler ambient).state.sessions.lookup id = some current) :
    (∃ found, state.sessions.lookup id = some found ∧ current.Same found) ∨
      (current.aToBShaper = state.allocated ∧ current.startRequests = 0 ∧
        state.allocated < (task.run crypto state handler ambient).state.allocated) := by
  by_cases opens : ∃ registration tag knock answeredAt,
      task = .answerOpen registration tag knock answeredAt
  · obtain ⟨registration, tag, knock, answeredAt, rfl⟩ := opens
    have opened := answerOpened_answerOpen state handler registration tag knock answeredAt ambient
    change (answerOpen state handler registration tag knock answeredAt
      ambient).state.sessions.lookup id = some current at isCurrent
    show _ ∨ (_ ∧ _ ∧ _ <
      (answerOpen state handler registration tag knock answeredAt ambient).state.allocated)
    generalize answerOpen state handler registration tag knock answeredAt ambient = outcome
      at opened isCurrent ⊢
    cases opened with
    | ended => exact Or.inl ⟨current, isCurrent, .refl current⟩
    | drawing => exact Or.inl ⟨current, isCurrent, .refl current⟩
    | created fresh requester target isFree =>
        change (state.sessions.put fresh _).lookup id = some current at isCurrent
        rw [HashMap.lookup_put] at isCurrent
        split at isCurrent
        · cases isCurrent
          exact Or.inr ⟨rfl, rfl, Nat.lt_add_of_pos_right (by decide)⟩
        · exact Or.inl ⟨current, isCurrent, .refl current⟩
  · left
    exact sessionsWithin_run crypto state handler ambient
      (fun registration tag knock answeredAt same =>
        opens ⟨registration, tag, knock, answeredAt, same⟩) id current isCurrent

omit [F64 F] in
/-- A party's request is counted, and goes on to the starts within the budget. -/
theorem startRequest_of_party {state : ServerState F} {registration : Registration}
    {found : SessionState F} (isFound : state.sessions.lookup session = some found)
    (party : found.keyA = registration.key ∨ found.keyB = registration.key) (now : Nat) :
    let outcome := startRequest state registration session now
    outcome.state.sessions =
        state.sessions.put session { found with startRequests := found.startRequests + 1 } ∧
      outcome.state.cells = state.cells ∧ outcome.spawned = [] ∧
      ∃ gateMs, outcome.next = some
        (if limits.startRequestsPerSession ≤ found.startRequests then .controlLoop registration
        else .startSend registration session found.keyA found.keyB gateMs) := by
  have notStranger : ¬(found.keyA ≠ registration.key ∧ found.keyB ≠ registration.key) := by
    intro stranger
    cases party with
    | inl isA => exact stranger.1 isA
    | inr isB => exact stranger.2 isB
  unfold startRequest
  simp only [isFound, if_neg notStranger]
  by_cases past : limits.startRequestsPerSession ≤ found.startRequests
  · simp only [if_pos past]
    exact ⟨by trivial, by trivial, by trivial, 0, by trivial⟩
  · simp only [if_neg past]
    exact ⟨by trivial, by trivial, by trivial, _, rfl⟩

/-- A section counts the request it takes. -/
theorem counted_run (crypto : Crypto) (state : ServerState F) (handler : Handler)
    (ambient : Ambient) (task : Task) {seen : List UInt32}
    (counted : Counted session shaper state seen) :
    Counted session shaper (task.run crypto state handler ambient).state
      (seen ++ task.requestsStart session shaper state) := by
  have grown := allocated_run crypto state handler ambient task
  have known : ∀ id found, (task.run crypto state handler ambient).state.sessions.lookup id =
      some found → found.aToBShaper < (task.run crypto state handler ambient).state.allocated := by
    intro id current isCurrent
    rcases sessions_run crypto state handler ambient task isCurrent with
      ⟨found, isFound, same⟩ | ⟨isNew, _, more⟩
    · have before := counted.known id found isFound
      rw [same.aToBShaper]
      omega
    · omega
  by_cases requests : ∃ registration found, task = .startRequest registration session ∧
      state.sessions.lookup session = some found ∧ found.aToBShaper = shaper ∧
        (found.keyA = registration.key ∨ found.keyB = registration.key)
  · obtain ⟨registration, found, rfl, isFound, isShaper, party⟩ := requests
    have emitted : Task.requestsStart session shaper state (.startRequest registration session) =
        [UInt32.ofNat seen.length] := by
      simp only [Task.requestsStart, isFound, isShaper, party, and_self, if_true,
        counted.count found isFound isShaper]
    rw [emitted]
    refine ⟨inOrder_snoc counted.inOrder, known, ?_, ?_⟩
    · intro unborn
      have before := counted.known session found isFound
      omega
    · intro current isCurrent _
      change (startRequest state registration session ambient.now).state.sessions.lookup session =
        some current at isCurrent
      rw [(startRequest_of_party isFound party ambient.now).1, HashMap.lookup_put, if_pos rfl]
        at isCurrent
      cases isCurrent
      show found.startRequests + 1 = _
      rw [counted.count found isFound isShaper, List.length_append, List.length_singleton,
        UInt32.ofNat_add]
      rfl
  · have silent : task.requestsStart session shaper state = [] := by
      cases task with
      | startRequest registration other =>
          unfold Task.requestsStart
          dsimp only
          split
          · rfl
          · next found isFound =>
              apply if_neg
              intro request
              obtain ⟨isSession, isShaper, party⟩ := request
              exact requests ⟨registration, found, by rw [isSession], isFound, isShaper, party⟩
      | _ => rfl
    rw [silent, List.append_nil]
    refine ⟨counted.inOrder, known, fun unborn => counted.unborn (by omega), ?_⟩
    intro current isCurrent isShaper
    rcases sessions_run crypto state handler ambient task isCurrent with
      ⟨found, isFound, same⟩ | ⟨isNew, isZero, _⟩
    · have wasShaper : found.aToBShaper = shaper := same.aToBShaper.symm.trans isShaper
      have wasCount := counted.count found isFound wasShaper
      rcases session_run crypto state handler ambient task isFound isCurrent with
        isSame | ⟨registration, isRequest, party, _⟩ | ⟨_, _, _, spent⟩
      · rw [isSame]
        exact wasCount
      · exact absurd ⟨registration, found, isRequest, isFound, wasShaper, party⟩ requests
      · cases spent with
        | inl charged => rw [charged.2]; exact wasCount
        | inr charged => rw [charged.2]; exact wasCount
    · have nothing := counted.unborn (by omega)
      rw [isZero, nothing]
      rfl

theorem counted_step (crypto : Crypto) (world : World F) (action : Action) (seen : List UInt32)
    (counted : Counted session shaper world.gate seen) :
    Counted session shaper (world.step crypto action).gate
      (seen ++ world.requestsStart session shaper action) := by
  unfold World.step World.requestsStart
  cases action with
  | connect key observed now =>
      dsimp only
      rw [List.append_nil]
      split
      · exact counted
      · obtain ⟨registrations, counters, cells, gate⟩ := connect_gate world key observed now
        rw [gate]
        refine ⟨counted.inOrder, ?_, ?_, counted.count⟩
        · intro id found isFound
          exact Nat.lt_succ_of_lt (counted.known id found isFound)
        · intro unborn
          exact counted.unborn (Nat.le_of_succ_le unborn)
  | resume handler ambient =>
      dsimp only
      cases isAt : world.tasks.lookup handler with
      | none =>
          rw [List.append_nil]
          exact counted
      | some task =>
          dsimp only
          split
          · next held =>
              have silent : task.requestsStart session shaper world.gate = [] := by
                cases task with
                | startRequest => cases held
                | _ => rfl
              rw [silent, List.append_nil]
              exact counted
          · exact counted_run crypto world.gate handler ambient task counted

/-- In every run the requests of a session's parties find 0, 1, 2 and so on. -/
theorem startRequestsOf_eq (crypto : Crypto) (community : Bytes32) (capacity : Nat)
    (actions : List Action) :
    startRequestsOf F crypto community capacity actions session shaper =
      (List.range (startRequestsOf F crypto community capacity actions session shaper).length).map
        UInt32.ofNat := by
  have initial : Counted session shaper (World.bind community capacity : World F).gate [] := by
    refine ⟨rfl, ?_, fun _ => rfl, ?_⟩
    · intro id found isFound
      cases isFound
    · intro found isFound
      cases isFound
  exact (outputs_track (counted_step crypto) initial actions).inOrder

end Counts

/-! ## What a start is sent for -/

section Starts

variable {F : Type}

/-- The request of a party, within the session's budget. -/
structure Admits (state : ServerState F) (registration : Registration) (session : UInt32)
    (keyA keyB : Bytes32) (found : SessionState F) : Prop where
  isFound : state.sessions.lookup session = some found
  isA : found.keyA = keyA
  isB : found.keyB = keyB
  party : registration.key = keyA ∨ registration.key = keyB
  within : found.startRequests < limits.startRequestsPerSession

/-- The handler is to send the starts a request of the registration caused. -/
def StillToStart (handler : Handler) (registration : Registration) (session : UInt32)
    (keyA keyB : Bytes32) (gateMs : UInt64) (world : World F) : Prop :=
  world.tasks.lookup handler = some (.startSend registration session keyA keyB gateMs)

/-- The action takes a party's request, within the session's budget. -/
def CausesStart (handler : Handler) (registration : Registration) (session : UInt32)
    (keyA keyB : Bytes32) (world : World F) (action : Action) : Prop :=
  ∃ ambient found, action = .resume handler ambient ∧
    world.tasks.lookup handler = some (.startRequest registration session) ∧
    Admits world.gate registration session keyA keyB found

variable [F64 F]

/-- Only a party's request within the budget leads to starts. -/
theorem startSend_run (crypto : Crypto) (state : ServerState F) (handler : Handler)
    (ambient : Ambient) {task : Task} {registration : Registration} {session : UInt32}
    {keyA keyB : Bytes32} {gateMs : UInt64}
    (isNext : (task.run crypto state handler ambient).next =
      some (.startSend registration session keyA keyB gateMs)) :
    task = .startRequest registration session ∧
      ∃ found, Admits state registration session keyA keyB found := by
  cases task with
  | introduceSeat other tag ttlS sealedBytes targetKey =>
      change (introduceSeat state other tag ttlS sealedBytes targetKey).next = _ at isNext
      unfold introduceSeat at isNext
      split at isNext <;> cases isNext
  | introduceRecord => cases isNext
  | answerOpen other tag knock answeredAt =>
      have opened := answerOpened_answerOpen state handler other tag knock answeredAt ambient
      change (answerOpen state handler other tag knock answeredAt ambient).next = _ at isNext
      generalize answerOpen state handler other tag knock answeredAt ambient = outcome
        at opened isNext
      cases opened <;> cases isNext
  | drainSeat other destinationKey shaper payloads =>
      obtain ⟨destination, _, isDrain⟩ := Option.map_eq_some_iff.mp isNext
      cases isDrain
  | drainSend other destinationKey shaper destination payloads =>
      change (drainSend state other destinationKey shaper destination payloads ambient).next = _
        at isNext
      unfold drainSend at isNext
      split at isNext
      · cases isNext
      · split at isNext <;> cases isNext
  | startRequest other requested =>
      change (startRequest state other requested ambient.now).next = _ at isNext
      unfold startRequest at isNext
      dsimp only at isNext
      split at isNext
      · cases isNext
      · next found isFound =>
          split at isNext
          · cases isNext
          · next party =>
              split at isNext
              · cases isNext
              · next within =>
                  cases isNext
                  refine ⟨rfl, found, isFound, rfl, rfl, ?_, UInt32.not_le.mp within⟩
                  exact (Decidable.not_and_iff_not_or_not.mp party).imp
                    (fun isA => (Decidable.not_not.mp isA).symm)
                    fun isB => (Decidable.not_not.mp isB).symm
  | _ =>
      have idle := serving_run crypto state handler ambient rfl isNext
      cases idle

theorem stillToStart_step (crypto : Crypto) (world : World F) (action : Action)
    {handler : Handler} {registration : Registration} {session : UInt32} {keyA keyB : Bytes32}
    {gateMs : UInt64}
    (starts : StillToStart handler registration session keyA keyB gateMs
      (world.step crypto action)) :
    StillToStart handler registration session keyA keyB gateMs world ∨
      CausesStart handler registration session keyA keyB world action := by
  have isAt := starts
  unfold StillToStart World.step at isAt
  split at isAt
  · next newKey observed now =>
      split at isAt
      · exact Or.inl isAt
      · rcases lookup_connect_tasks isAt with before | isNew
        · exact Or.inl before
        · cases isNew
  · next other ambient =>
      split at isAt
      · exact Or.inl isAt
      · next task present =>
          split at isAt
          · exact Or.inl isAt
          · rcases lookup_commit_tasks isAt with isSpawned | ⟨isHandler, isNext⟩ | ⟨_, before⟩
            · have isInert := inert_spawned crypto world.gate other ambient task _ isSpawned
              cases isInert
            · subst isHandler
              obtain ⟨isRequest, found, admits⟩ :=
                startSend_run crypto world.gate handler ambient isNext
              exact Or.inr ⟨ambient, found, rfl, isRequest ▸ present, admits⟩
            · exact Or.inl before

/-- In a run, starts of the session go out only after a party's request within its budget,
only to connections of its two keys, and at most four requests cause any. -/
structure StartsBudgeted (F : Type) [F64 F] (crypto : Crypto) (community : Bytes32)
    (capacity : Nat) (actions : List Action) (session : UInt32) (shaper : Nat) : Prop where
  asked : ∀ index handler registration keyA keyB gateMs,
    StillToStart handler registration session keyA keyB gateMs
        (worldAt F crypto community capacity actions index) →
      ∃ request action, request < index ∧ actions[request]? = some action ∧
        CausesStart handler registration session keyA keyB
          (worldAt F crypto community capacity actions request) action ∧
        ∀ later, request < later → later ≤ index →
          StillToStart handler registration session keyA keyB gateMs
            (worldAt F crypto community capacity actions later)
  sent : ∀ index handler ambient task,
    (worldAt F crypto community capacity actions index).tasks.lookup handler = some task →
      ∀ send ∈ task.sends (worldAt F crypto community capacity actions index).gate ambient,
        ∀ v fireInMs gateMs, send.2 = .start v session fireInMs gateMs →
          ∃ registration keyA keyB, task = .startSend registration session keyA keyB gateMs ∧
            (send.1.key = keyA ∨ send.1.key = keyB)
  atMost : (causing (startRequestsOf F crypto community capacity actions session shaper)).length ≤
    limits.startRequestsPerSession.toNat

/-- A start goes out only at the starts of its session, to connections of its two keys. -/
theorem sends_start {state : ServerState F} {ambient : Ambient} {task : Task}
    {send : Registration × Frame} {v : UInt8} {session : UInt32} {fireInMs : UInt16}
    {gateMs : UInt64}
    (seated : Seated state) (isSent : send ∈ task.sends state ambient)
    (isStart : send.2 = .start v session fireInMs gateMs) :
    ∃ registration keyA keyB, task = .startSend registration session keyA keyB gateMs ∧
      (send.1.key = keyA ∨ send.1.key = keyB) := by
  have ofSession : ofSession send.2 = true := by
    rw [isStart]
    rfl
  cases task with
  | introduceSend registration tag ttlS sealedBytes target =>
      rw [List.mem_singleton.mp isSent] at isStart
      cases isStart
  | answerNote registration tag knock session requester target aToBShaper bToAShaper =>
      cases isSent with
      | head => cases isStart
      | tail _ isSecond =>
          rw [List.mem_singleton.mp isSecond] at isStart
          cases isStart
  | startSend registration other keyA keyB ms =>
      obtain ⟨key, isKey, isSend⟩ := List.mem_filterMap.mp isSent
      obtain ⟨target, isLast, isPair⟩ := Option.map_eq_some_iff.mp isSend
      subst isPair
      cases isStart
      refine ⟨registration, keyA, keyB, rfl, ?_⟩
      rw [seated.lastOf isLast]
      simpa using isKey
  | drainSend => cases isSent
  | _ =>
      obtain ⟨key, isServed⟩ := serves_of_sends isSent ofSession
      cases isServed

/-- In every run of the gate, a session keeps to its budget of starts exactly where its
parties send no more requests than its counter has values. -/
theorem start_budget_iff (crypto : Crypto) (community : Bytes32) (capacity : Nat)
    (actions : List Action) (session : UInt32) (shaper : Nat) :
    StartsBudgeted F crypto community capacity actions session shaper ↔
      (startRequestsOf F crypto community capacity actions session shaper).length ≤ 2 ^ 32 := by
  have counts : startRequestsOf F crypto community capacity actions session shaper = _ :=
    startRequestsOf_eq crypto community capacity actions
  rw [← causing_range_le_iff, ← counts]
  constructor
  · intro budgeted
    exact budgeted.atMost
  · intro atMost
    refine ⟨?_, ?_, atMost⟩
    · intro index handler registration keyA keyB gateMs starts
      have initially : ¬StillToStart handler registration session keyA keyB gateMs
          (World.bind community capacity : World F) := by
        intro isFirst
        change ((∅ : HashMap Handler Task).put .sweep .sweepLoop).lookup handler = some _ at isFirst
        rw [HashMap.lookup_put] at isFirst
        split at isFirst <;> cases isFirst
      obtain ⟨request, action, before, isAction, causes, since⟩ :=
        run_originates (StillToStart handler registration session keyA keyB gateMs)
          (CausesStart handler registration session keyA keyB) initially
          (fun index action _ => stillToStart_step crypto _ action) index starts
      exact ⟨request, action, before, isAction, causes, since⟩
    · intro index handler ambient task isAt send isSent v fireInMs gateMs isStart
      have inv : RelayInv (worldAt F crypto community capacity actions index) :=
        relayInv_run capacity (actions.take index)
      exact sends_start inv.seated isSent isStart

end Starts

/-! ### A party that never stops asking -/

section Fixture

/-- A request of the requester, once a second, with all the sections it takes. -/
def requestRound (count : Nat) : List Action :=
  [.resume (.control 0) { now := fromSecs (10 + count), frame := some (.startRequest 1 7) },
    .resume (.control 0) { now := fromSecs (10 + count) }] ++
  if count % 2 ^ 32 < 4 then [.resume (.control 0) { now := fromSecs (10 + count) }] else []

/-- An introduction to its end. -/
def introduced : List Action := introduction ++ [.resume (.control 1) { now := 2 }]

/-- An introduction and so many requests. -/
def pestering (requests : Nat) : List Action :=
  introduced ++ (List.range requests).flatMap requestRound

/-- The session has counted so many requests. -/
def HasCounted (count : Nat) (state : ServerState Nat) : Prop :=
  ∃ found, state.sessions.lookup 7 = some found ∧ found.keyA = requesterKey ∧
    found.aToBShaper = 2 ∧ found.startRequests = UInt32.ofNat count

/-- The requester's handler is at the task, and the session has counted so many requests. -/
structure Asking (task : Task) (count now : Nat) (world : World Nat) : Prop where
  reads : world.tasks.lookup (.control 0) = some task
  free : world.registrationsHeld = false
  rate : (world.gate.cells 0).frameRate.capacity = 64 ∧
    (world.gate.cells 0).frameRate.refillPerS = 32
  rested : (world.gate.cells 0).frameRate.last ≤ now
  counted : HasCounted count world.gate

/-- A second is enough for a token. -/
theorem takes_after_second {limiter : RateLimiter Nat} {now : Nat}
    (rate : limiter.capacity = 64 ∧ limiter.refillPerS = 32) (rested : limiter.last + 10 ^ 9 ≤ now) :
    (limiter.tryTake now).2 = true ∧ (limiter.tryTake now).1.capacity = 64 ∧
      (limiter.tryTake now).1.refillPerS = 32 ∧ (limiter.tryTake now).1.last = now := by
  have elapsed : 1 ≤ (now - limiter.last) / 10 ^ 9 := by omega
  have enough : (1 : Nat) ≤ Nat.min (limiter.tokens + (now - limiter.last) / 10 ^ 9 *
      limiter.refillPerS) limiter.capacity := by
    rw [rate.1, rate.2]
    show 1 ≤ min _ _
    omega
  have passes : F64.ge (F64.min (F64.add limiter.tokens
      (F64.mul (F64.asSecs (now - limiter.last)) limiter.refillPerS)) limiter.capacity)
        (F64.ofNat 1 : Nat) = true := decide_eq_true enough
  unfold RateLimiter.tryTake RateLimiter.tryTakeN
  simp only [passes, if_true]
  exact ⟨trivial, rate.1, rate.2, trivial⟩

/-- A section of the handler that leaves the frame rate alone. -/
theorem Asking.commit {task following : Task} {count more now : Nat} {world : World Nat}
    {ambient : Ambient} (asking : Asking task count now world) {outcome : Outcome Nat}
    (stepped : task.run pairCrypto world.gate (.control 0) ambient = outcome)
    (isNext : outcome.next = some following) (silent : outcome.spawned = [])
    (lets : following.holdsRegistrations = false)
    (rate : (outcome.state.cells 0).frameRate = (world.gate.cells 0).frameRate)
    (counted : HasCounted more outcome.state) :
    Asking following more now (world.step pairCrypto (.resume (.control 0) ambient)) := by
  rw [step_resume pairCrypto asking.reads (fun _ => asking.free) ambient, stepped]
  refine ⟨?_, registrationsHeld_commit silent isNext lets asking.free, ?_, ?_, counted⟩
  · rw [lookup_commit_self (apart_of_silent silent), isNext]
  · show (outcome.state.cells 0).frameRate.capacity = _ ∧
      (outcome.state.cells 0).frameRate.refillPerS = _
    rw [rate]
    exact asking.rate
  · show (outcome.state.cells 0).frameRate.last ≤ now
    rw [rate]
    exact asking.rested

/-- The frame is taken, at the cost of a token. -/
theorem Asking.read {count now later : Nat} {world : World Nat}
    (asking : Asking (.controlLoop requesterSeat) count now world)
    (second : now + 10 ^ 9 ≤ later) :
    Asking (.startRequest requesterSeat 7) count later (world.step pairCrypto
      (.resume (.control 0) { now := later, frame := some (.startRequest 1 7) })) := by
  obtain ⟨taken, capacity, refill, last⟩ := takes_after_second asking.rate
    (Nat.le_trans (Nat.add_le_add_right asking.rested (10 ^ 9)) second)
  rw [step_resume pairCrypto asking.reads (fun _ => asking.free)]
  have stepped : Task.run pairCrypto world.gate (.control 0)
      { now := later, frame := some (.startRequest 1 7) } (.controlLoop requesterSeat) =
        { state := world.gate.setCells requesterSeat { world.gate.cells 0 with
            frameRate := ((world.gate.cells 0).frameRate.tryTake later).1 }
          next := some (.startRequest requesterSeat 7)
          event := some (.received requesterKey (.startRequest 1 7)) } := by
    unfold Task.run controlLoop
    dsimp only
    rw [show requesterSeat.id = 0 from rfl, if_pos taken]
    rfl
  rw [stepped]
  refine ⟨?_, registrationsHeld_commit rfl rfl rfl asking.free, ?_, ?_, asking.counted⟩
  · exact lookup_commit_self (apart_of_silent rfl)
  · show ((Function.update world.gate.cells 0 _) 0).frameRate.capacity = _ ∧ _
    rw [Function.update_self]
    exact ⟨capacity, refill⟩
  · show ((Function.update world.gate.cells 0 _) 0).frameRate.last ≤ _
    rw [Function.update_self]
    exact Nat.le_of_eq last

theorem ofNat_within (count : Nat) :
    limits.startRequestsPerSession ≤ UInt32.ofNat count ↔ ¬count % 2 ^ 32 < 4 := by
  rw [UInt32.le_iff_toNat_le, UInt32.toNat_ofNat', Nat.not_lt]
  rfl

/-- The request is counted, and goes on to the starts the first four times around. -/
theorem Asking.request {count now : Nat} {world : World Nat} (ambient : Ambient)
    (asking : Asking (.startRequest requesterSeat 7) count now world) :
    ∃ keyB gateMs, Asking
      (if count % 2 ^ 32 < 4 then .startSend requesterSeat 7 requesterKey keyB gateMs
      else .controlLoop requesterSeat) (count + 1) now
        (world.step pairCrypto (.resume (.control 0) ambient)) := by
  obtain ⟨found, isFound, isA, isShaper, isCount⟩ := asking.counted
  have party : found.keyA = requesterSeat.key ∨ found.keyB = requesterSeat.key := Or.inl isA
  obtain ⟨sessions, cells, silent, gateMs, isNext⟩ :=
    startRequest_of_party isFound party ambient.now
  refine ⟨found.keyB, gateMs, asking.commit rfl ?_ silent ?_ ?_ ?_⟩
  · show (startRequest world.gate requesterSeat 7 ambient.now).next = _
    rw [isNext, isA, isCount]
    by_cases fresh : count % 2 ^ 32 < 4
    · rw [if_pos fresh, if_neg ((ofNat_within count).not.mpr (not_not_intro fresh))]
    · rw [if_neg fresh, if_pos ((ofNat_within count).mpr fresh)]
  · split <;> rfl
  · show ((startRequest world.gate requesterSeat 7 ambient.now).state.cells 0).frameRate = _
    rw [cells]
  · refine ⟨{ found with startRequests := found.startRequests + 1 }, ?_, isA, isShaper, ?_⟩
    · show (startRequest world.gate requesterSeat 7 ambient.now).state.sessions.lookup 7 = _
      rw [sessions, HashMap.lookup_put, if_pos rfl]
    · show found.startRequests + 1 = _
      rw [isCount, UInt32.ofNat_add]
      rfl

/-- The starts leave the handler at its read. -/
theorem Asking.start {count now : Nat} {world : World Nat} {keyB : Bytes32} {gateMs : UInt64}
    (ambient : Ambient)
    (asking : Asking (.startSend requesterSeat 7 requesterKey keyB gateMs) count now world) :
    Asking (.controlLoop requesterSeat) count now
      (world.step pairCrypto (.resume (.control 0) ambient)) := by
  apply asking.commit rfl rfl rfl rfl
  · show ((startSend world.gate requesterSeat 7 requesterKey keyB gateMs).state.cells 0).frameRate =
      _
    rw [cells_startSend]
    apply posted_keeps RegistrationCells.frameRate
    intro cells frame
    unfold RegistrationCells.push
    split <;> rfl
  · obtain ⟨found, isFound, known⟩ := asking.counted
    refine ⟨found, ?_, known⟩
    show (startSend world.gate requesterSeat 7 requesterKey keyB gateMs).state.sessions.lookup 7 = _
    rw [(kept_startSend world.gate requesterSeat 7 requesterKey keyB gateMs).sessions]
    exact isFound

/-- What the action gives out is what the handler's task does. -/
theorem Asking.requestsStart {task : Task} {count now : Nat} {world : World Nat}
    (asking : Asking task count now world) (ambient : Ambient) :
    world.requestsStart 7 2 (.resume (.control 0) ambient) =
      task.requestsStart 7 2 world.gate := by
  simp only [World.requestsStart, asking.reads]

theorem Asking.emits {count now : Nat} {world : World Nat}
    (asking : Asking (.startRequest requesterSeat 7) count now world) (ambient : Ambient) :
    (world.requestsStart 7 2 (.resume (.control 0) ambient)).length = 1 := by
  obtain ⟨found, isFound, isA, isShaper, _⟩ := asking.counted
  rw [asking.requestsStart ambient]
  unfold Task.requestsStart
  simp only [isFound]
  rw [if_pos ⟨trivial, isShaper, Or.inl isA⟩, List.length_singleton]

/-- A round of the requester is one request, and leaves it at its read. -/
theorem Asking.round {count now : Nat} {world : World Nat}
    (asking : Asking (.controlLoop requesterSeat) count now world)
    (second : now + 10 ^ 9 ≤ fromSecs (10 + count)) :
    Asking (.controlLoop requesterSeat) (count + 1) (fromSecs (10 + count))
        (run (World.step pairCrypto) world (requestRound count)) ∧
      (outputs (World.step pairCrypto) (World.requestsStart 7 2) world
        (requestRound count)).length = 1 := by
  have asked := asking.read second
  obtain ⟨keyB, gateMs, counted⟩ := asked.request { now := fromSecs (10 + count) }
  unfold requestRound
  by_cases fresh : count % 2 ^ 32 < 4
  · rw [if_pos fresh] at counted ⊢
    refine ⟨counted.start { now := fromSecs (10 + count) }, ?_⟩
    simp only [List.cons_append, List.nil_append, outputs, List.length_append,
      asking.requestsStart, asked.emits, counted.requestsStart]
    rfl
  · rw [if_neg fresh] at counted ⊢
    refine ⟨counted, ?_⟩
    simp only [List.append_nil, outputs, List.length_append, asking.requestsStart, asked.emits]
    rfl

/-- However many requests the requester sends, its session counts them all. -/
theorem pestering_counts (requests : Nat) :
    Asking (.controlLoop requesterSeat) requests (fromSecs (9 + requests))
        (run (World.step pairCrypto) (World.bind zero32 2) (pestering requests)) ∧
      (startRequestsOf Nat pairCrypto zero32 2 (pestering requests) 7 2).length = requests := by
  induction requests with
  | zero =>
      constructor
      · constructor
        · decide +kernel
        · decide +kernel
        · decide +kernel
        · decide +kernel
        · have computed : ((run (World.step pairCrypto) (World.bind zero32 2 : World Nat)
              introduced).gate.sessions.lookup 7).map (fun found =>
                (found.keyA, found.aToBShaper, found.startRequests)) =
              some (requesterKey, 2, UInt32.ofNat 0) := by
            decide +kernel
          obtain ⟨found, isFound, same⟩ := Option.map_eq_some_iff.mp computed
          have parts := Prod.mk.inj same
          exact ⟨found, isFound, parts.1, Prod.mk.inj parts.2⟩
      · decide +kernel
  | succ requests ih =>
      have oneMore : pestering (requests + 1) = pestering requests ++ requestRound requests := by
        unfold pestering
        rw [List.range_succ, List.flatMap_append, List.append_assoc, List.flatMap_singleton]
      have second : fromSecs (9 + requests) + 10 ^ 9 ≤ fromSecs (10 + requests) := by
        unfold fromSecs
        omega
      obtain ⟨asking, counts⟩ := ih
      obtain ⟨later, single⟩ := asking.round second
      have sameInstant : 9 + (requests + 1) = 10 + requests := by omega
      rw [oneMore, run_append, sameInstant]
      refine ⟨later, ?_⟩
      unfold startRequestsOf at counts ⊢
      rw [outputs_append, List.length_append, counts, single]

/-- One request more than the counter has values, and a fifth one causes a start. -/
theorem start_budget_exceeded :
    ¬StartsBudgeted Nat pairCrypto zero32 2 (pestering (2 ^ 32 + 1)) 7 2 := by
  intro budgeted
  have counts := (pestering_counts (2 ^ 32 + 1)).2
  have atMost := budgeted.atMost
  rw [startRequestsOf_eq, counts] at atMost
  have within := (causing_range_le_iff (2 ^ 32 + 1)).mp atMost
  omega

end Fixture

end Mosschat.Net.Gate.Server
