import Mosschat.Net.Gate.Answers
import Mosschat.Net.Gate.Answers
import Mosschat.Net.Gate.Relay
import Mosschat.Net.Gate.Sends

/-!
Owns which of a key's connections the gate serves: each knock, introduction, start and
relayed datagram goes to the one that was the key's newest when the handler looked the
key up for it.

Does not own which keys a session is between.
-/

namespace Mosschat.Net.Gate.Server

open Mosschat.Core Mosschat.Library Mosschat.Library.Cbor Mosschat.Library.Machine

/-! ## Lookups, and what is served after them -/

/-- The keys a section looks up for their newest connection. -/
def Task.looksUp : Task → List Bytes32
  | .introduceSeat _ _ _ _ targetKey => [targetKey]
  | .answerOpen _ _ knock _ => [knock.requester, knock.target]
  | .startSend _ _ keyA keyB _ => [keyA, keyB]
  | .drainSeat _ destinationKey _ _ => [destinationKey]
  | _ => []

/-- The keys a handler has looked up and is still to serve, with what it found. -/
def Task.lookedUp : Task → List (Bytes32 × Registration)
  | .introduceRecord _ _ _ _ _ target | .introduceSend _ _ _ _ target => [(target.key, target)]
  | .answerNote _ _ knock _ requester target _ _ =>
      [(knock.requester, requester), (knock.target, target)]
  | .drainSend _ destinationKey _ destination _ => [(destinationKey, destination)]
  | _ => []

/-- The handler has something of a session to send. -/
def Task.serving : Task → Bool
  | .introduceRecord .. | .introduceSend .. | .answerNote .. | .startSend .. | .drainSend .. => true
  | _ => false

/-- The section may leave something of a session to send. -/
def Task.leadsToServing : Task → Bool
  | .introduceSeat .. | .introduceRecord .. | .answerOpen .. | .startRequest .. | .drainSeat ..
  | .drainSend .. => true
  | _ => false

/-- A frame of an introduction or a session. -/
def ofSession : Frame → Bool
  | .knock .. | .introduction .. | .start .. => true
  | _ => false

section Serves

variable {F : Type}

/-- The connections a section hands frames or datagrams of a session, each with the key it
is served for. -/
def Task.serves (state : ServerState F) : Task → List (Bytes32 × Registration)
  | .introduceSend _ _ _ _ target => [(target.key, target)]
  | .answerNote _ _ knock _ requester target _ _ =>
      [(knock.requester, requester), (knock.target, target)]
  | .startSend _ _ keyA keyB _ =>
      [keyA, keyB].filterMap fun key => (state.lastOf key).map fun target => (key, target)
  | .drainSend _ destinationKey _ destination _ => [(destinationKey, destination)]
  | _ => []

/-- At `lookup` the handler looked the key up, and the recipient was its newest
connection; at `index` the handler is still to serve it. -/
structure LookedUpAt (actions : List Action) (worlds : Nat → World F) (handler : Handler)
    (key : Bytes32) (recipient : Registration) (lookup index : Nat) : Prop where
  order : lookup ≤ index
  resumed : ∃ ambient, actions[lookup]? = some (.resume handler ambient)
  looks : ∃ task, (worlds lookup).tasks.lookup handler = some task ∧ key ∈ task.looksUp
  newest : (worlds lookup).gate.lastOf key = some recipient
  since : ∀ later, lookup < later → later ≤ index →
    ∃ task, (worlds later).tasks.lookup handler = some task ∧ (key, recipient) ∈ task.lookedUp

variable [F64 F]

omit [F64 F] in
theorem lookedUp_of_not_serving {task : Task} (idle : task.serving = false) :
    task.lookedUp = [] := by
  cases task with
  | introduceRecord | introduceSend | answerNote | startSend | drainSend => cases idle
  | _ => rfl

omit [F64 F] in
theorem serving_afterTeardown {later : Option (List (Bytes32 × Registration))} {following : Task}
    (isNext : afterTeardown later = some following) : following.serving = false := by
  unfold afterTeardown at isNext
  split at isNext
  · cases isNext
  · cases isNext
    rfl
  · cases isNext
    rfl

/-- After every other section the handler has nothing to send. -/
theorem serving_run (crypto : Crypto) (state : ServerState F) (handler : Handler)
    (ambient : Ambient) {task following : Task} (quiet : task.leadsToServing = false)
    (isNext : (task.run crypto state handler ambient).next = some following) :
    following.serving = false := by
  cases task with
  | introduceSeat | introduceRecord | answerOpen | startRequest | drainSeat | drainSend =>
      cases quiet
  | introduceSend | answerNote | startSend =>
      cases isNext
      rfl
  | register registration =>
      unfold Task.run register at isNext
      dsimp only at isNext
      split at isNext
      · cases isNext
        rfl
      · cases isNext
  | controlLoop registration =>
      unfold Task.run controlLoop at isNext
      dsimp only at isNext
      split at isNext
      · cases isNext
        rfl
      · next frame _ =>
          split at isNext
          · cases isNext
            cases frame <;> rfl
          · cases isNext
            rfl
  | keepalive registration =>
      unfold Task.run keepalive at isNext
      dsimp only at isNext
      split at isNext <;> cases isNext <;> rfl
  | introduce registration tag ttlS sealedBytes =>
      unfold Task.run introduce at isNext
      dsimp only at isNext
      split at isNext <;> cases isNext <;> rfl
  | introduceTarget registration tag ttlS sealedBytes =>
      unfold Task.run introduceTarget at isNext
      dsimp only at isNext
      split at isNext <;> cases isNext <;> rfl
  | answer registration tag accept =>
      unfold Task.run answer at isNext
      dsimp only at isNext
      split at isNext
      · cases isNext
        rfl
      · split at isNext <;> cases isNext <;> rfl
  | answerCheck registration tag accept knock =>
      unfold Task.run answerCheck at isNext
      dsimp only at isNext
      split at isNext
      · cases isNext
        rfl
      · split at isNext <;> cases isNext <;> rfl
  | teardown peerKey registration later =>
      unfold Task.run teardown at isNext
      dsimp only at isNext
      split at isNext <;> cases isNext <;> rfl
  | teardownIds peerKey registration later =>
      unfold Task.run teardownIds at isNext
      dsimp only at isNext
      split at isNext
      · exact serving_afterTeardown isNext
      · cases isNext
        rfl
  | teardownSessions peerKey sessionIds later =>
      unfold Task.run teardownSessions at isNext
      dsimp only at isNext
      split at isNext
      · exact serving_afterTeardown isNext
      · cases isNext
        rfl
  | teardownOrphans orphaned later => exact serving_afterTeardown isNext
  | relayLoop registration =>
      change (relayLoop state registration ambient).next = some following at isNext
      unfold relayLoop at isNext
      split at isNext
      · cases isNext
      · split at isNext <;> cases isNext <;> rfl
  | forward registration session payload =>
      have forwarded := forwarded_forward state registration session payload ambient.now
      change (forward state registration session payload ambient.now).next = some following at isNext
      have charged : ∀ {after : ServerState F} {shaper allowed},
          (afterCharge after registration session payload shaper allowed).next = some following →
            following.serving = false := by
        intro after shaper allowed isNext
        unfold afterCharge at isNext
        dsimp only at isNext
        split at isNext
        · split at isNext <;> cases isNext <;> rfl
        · cases isNext
          rfl
      generalize forward state registration session payload ambient.now = outcome
        at forwarded isNext
      cases forwarded with
      | refused => cases isNext; rfl
      | aToB => exact charged isNext
      | bToA => exact charged isNext
  | enqueue registration session payload shaper encoded =>
      unfold Task.run enqueue at isNext
      dsimp only at isNext
      split at isNext <;> cases isNext <;> rfl
  | writer registration =>
      unfold Task.run writer at isNext
      dsimp only at isNext
      split at isNext
      · cases isNext
        rfl
      · cases isNext
  | drain session destinationKey shaper =>
      unfold Task.run drain at isNext
      dsimp only at isNext
      split at isNext <;> cases isNext <;> rfl
  | drainCheck session destinationKey shaper payloads =>
      unfold Task.run drainCheck at isNext
      dsimp only at isNext
      split at isNext
      · cases isNext
        rfl
      · cases isNext
  | sweepLoop =>
      cases isNext
      rfl
  | sweepKnocks now =>
      cases isNext
      rfl
  | sweepExpired now => exact serving_afterTeardown isNext

/-- What a section still has to serve it had before, or just looked up. -/
theorem lookedUp_run (crypto : Crypto) (state : ServerState F) (handler : Handler)
    (ambient : Ambient) (seated : Seated state) {task following : Task}
    (isNext : (task.run crypto state handler ambient).next = some following)
    {key : Bytes32} {recipient : Registration} (isLookedUp : (key, recipient) ∈ following.lookedUp) :
    (key, recipient) ∈ task.lookedUp ∨
      (key ∈ task.looksUp ∧ state.lastOf key = some recipient) := by
  cases task with
  | introduceSeat registration tag ttlS sealedBytes targetKey =>
      change (introduceSeat state registration tag ttlS sealedBytes targetKey).next =
        some following at isNext
      unfold introduceSeat at isNext
      split at isNext
      · cases isNext
        cases isLookedUp
      · next target isTarget =>
          cases isNext
          cases List.mem_singleton.mp isLookedUp
          right
          rw [seated.lastOf isTarget]
          exact ⟨List.mem_singleton_self _, isTarget⟩
  | introduceRecord registration tag ttlS sealedBytes targetKey target =>
      cases isNext
      exact Or.inl isLookedUp
  | introduceSend registration tag ttlS sealedBytes target =>
      cases isNext
      cases isLookedUp
  | answerOpen registration tag knock answeredAt =>
      have opened := answerOpened_answerOpen state handler registration tag knock answeredAt ambient
      change (answerOpen state handler registration tag knock answeredAt ambient).next =
        some following at isNext
      generalize answerOpen state handler registration tag knock answeredAt ambient = outcome
        at opened isNext
      cases opened with
      | ended =>
          cases isNext
          cases isLookedUp
      | drawing =>
          cases isNext
          cases isLookedUp
      | created session requester target _ _ isRequester isTarget =>
          cases isNext
          right
          cases isLookedUp with
          | head => exact ⟨List.mem_cons_self, isRequester⟩
          | tail _ isSecond =>
              cases List.mem_singleton.mp isSecond
              exact ⟨List.mem_cons_of_mem _ (List.mem_singleton_self _), isTarget⟩
  | answerNote registration tag knock session requester target aToBShaper bToAShaper =>
      cases isNext
      cases isLookedUp
  | startSend registration session keyA keyB gateMs =>
      cases isNext
      cases isLookedUp
  | drainSeat session destinationKey shaper payloads =>
      obtain ⟨destination, isLast, isDrain⟩ := Option.map_eq_some_iff.mp isNext
      cases isDrain
      cases List.mem_singleton.mp isLookedUp
      exact Or.inr ⟨List.mem_singleton_self _, isLast⟩
  | drainSend session destinationKey shaper destination payloads =>
      change (drainSend state session destinationKey shaper destination payloads ambient).next =
        some following at isNext
      unfold drainSend at isNext
      split at isNext
      · cases isNext
        cases isLookedUp
      · split at isNext
        · cases isNext
          exact Or.inl isLookedUp
        · cases isNext
  | startRequest registration session =>
      unfold Task.run startRequest at isNext
      dsimp only at isNext
      split at isNext
      · cases isNext
        cases isLookedUp
      · split at isNext
        · cases isNext
          cases isLookedUp
        · split at isNext <;> cases isNext <;> cases isLookedUp
  | _ =>
      have idle : following.serving = false := serving_run crypto state handler ambient rfl isNext
      rw [lookedUp_of_not_serving idle] at isLookedUp
      cases isLookedUp

omit [F64 F] in
/-- A handler beside the control loops that holds no datagram has looked nothing up. -/
theorem lookedUp_of_inert {task : Task} (isInert : task.inert = true)
    (elsewhere : task.relays = false) : task.lookedUp = [] := by
  cases task with
  | relayLoop | writer => rfl
  | forward | enqueue | drain | drainCheck | drainSeat | drainSend => cases elsewhere
  | _ => cases isInert

/-- A handler that was just spawned has looked nothing up. -/
theorem lookedUp_spawned (crypto : Crypto) (state : ServerState F) (handler : Handler)
    (ambient : Ambient) (task : Task) {entry : Handler × Task}
    (isSpawned : entry ∈ (task.run crypto state handler ambient).spawned) :
    entry.2.lookedUp = [] := by
  have isInert := inert_spawned crypto state handler ambient task entry isSpawned
  have apart : (task.run crypto state handler ambient).Apart → entry.2.lookedUp = [] := by
    intro apart
    exact lookedUp_of_inert isInert (apart.spawned entry isSpawned)
  cases task with
  | relayLoop registration =>
      change entry ∈ (relayLoop state registration ambient).spawned at isSpawned
      unfold relayLoop at isSpawned
      split at isSpawned
      · cases isSpawned
      · split at isSpawned <;> cases isSpawned
  | answerOpen registration tag knock answeredAt =>
      have opened := answerOpened_answerOpen state handler registration tag knock answeredAt ambient
      change entry ∈ (answerOpen state handler registration tag knock answeredAt ambient).spawned
        at isSpawned
      generalize answerOpen state handler registration tag knock answeredAt ambient = outcome
        at opened isSpawned
      cases opened <;> cases isSpawned
  | answerNote registration tag knock session requester target aToBShaper bToAShaper =>
      simp only [Task.run, answerNote, List.mem_cons, List.not_mem_nil, or_false] at isSpawned
      rcases isSpawned with isFirst | isSecond
      · rw [isFirst]
        rfl
      · rw [isSecond]
        rfl
  | forward registration session payload =>
      have forwarded := forwarded_forward state registration session payload ambient.now
      change entry ∈ (forward state registration session payload ambient.now).spawned at isSpawned
      have charged : ∀ {after : ServerState F} {shaper allowed},
          (afterCharge after registration session payload shaper allowed).spawned = [] := by
        intro after shaper allowed
        unfold afterCharge
        dsimp only
        split
        · split <;> rfl
        · rfl
      generalize forward state registration session payload ambient.now = outcome
        at forwarded isSpawned
      cases forwarded with
      | refused => cases isSpawned
      | aToB => rw [charged] at isSpawned; cases isSpawned
      | bToA => rw [charged] at isSpawned; cases isSpawned
  | enqueue registration session payload shaper encoded =>
      change entry ∈ (enqueue state registration shaper encoded ambient.now).spawned at isSpawned
      unfold enqueue at isSpawned
      dsimp only at isSpawned
      split at isSpawned <;> cases isSpawned
  | drain session destinationKey shaper =>
      change entry ∈ (drain state session destinationKey shaper ambient.now).spawned at isSpawned
      unfold drain at isSpawned
      dsimp only at isSpawned
      split at isSpawned <;> cases isSpawned
  | drainCheck | drainSeat => cases isSpawned
  | drainSend session destinationKey shaper destination payloads =>
      change entry ∈
        (drainSend state session destinationKey shaper destination payloads ambient).spawned
        at isSpawned
      unfold drainSend at isSpawned
      split at isSpawned
      · cases isSpawned
      · split at isSpawned <;> cases isSpawned
  | _ =>
      apply apart
      exact apart_run crypto state handler ambient rfl (by simp) (by simp)

/-! ## The lookup before a serving -/

/-- The handler is still to serve the key's recipient. -/
def StillToServe (handler : Handler) (key : Bytes32) (recipient : Registration) (world : World F) :
    Prop :=
  ∃ task, world.tasks.lookup handler = some task ∧ (key, recipient) ∈ task.lookedUp

/-- The action has the handler look the key up, and find the recipient. -/
def FindsNewest (handler : Handler) (key : Bytes32) (recipient : Registration) (world : World F)
    (action : Action) : Prop :=
  ∃ ambient task, action = .resume handler ambient ∧ world.tasks.lookup handler = some task ∧
    key ∈ task.looksUp ∧ world.gate.lastOf key = some recipient

/-- A handler that is still to serve a recipient was so before the action, or finds it in
the action. -/
theorem stillToServe_step (crypto : Crypto) (world : World F) (action : Action)
    (seated : Seated world.gate) {handler : Handler} {key : Bytes32} {recipient : Registration}
    (serves : StillToServe handler key recipient (world.step crypto action)) :
    StillToServe handler key recipient world ∨
      FindsNewest handler key recipient world action := by
  obtain ⟨following, isAt, isLookedUp⟩ := serves
  unfold World.step at isAt
  split at isAt
  · next newKey observed now =>
      split at isAt
      · exact Or.inl ⟨following, isAt, isLookedUp⟩
      · rcases lookup_connect_tasks isAt with before | isNew
        · exact Or.inl ⟨following, before, isLookedUp⟩
        · rw [isNew] at isLookedUp
          cases isLookedUp
  · next other ambient =>
      split at isAt
      · exact Or.inl ⟨following, isAt, isLookedUp⟩
      · next task present =>
          split at isAt
          · exact Or.inl ⟨following, isAt, isLookedUp⟩
          · rcases lookup_commit_tasks isAt with isSpawned | ⟨isHandler, isNext⟩ | ⟨_, before⟩
            · rw [lookedUp_spawned crypto world.gate other ambient task isSpawned] at isLookedUp
              cases isLookedUp
            · subst isHandler
              rcases lookedUp_run crypto world.gate handler ambient seated isNext isLookedUp with
                already | ⟨looks, newest⟩
              · exact Or.inl ⟨task, present, already⟩
              · exact Or.inr ⟨ambient, task, rfl, present, looks, newest⟩
            · exact Or.inl ⟨following, before, isLookedUp⟩

variable {crypto : Crypto} {community : Bytes32} {capacity : Nat} {actions : List Action}
  {handler : Handler} {key : Bytes32} {recipient : Registration}

omit [F64 F] in
/-- A lookup of this action. -/
theorem LookedUpAt.now {worlds : Nat → World F} {index : Nat} {ambient : Ambient} {task : Task}
    (resumed : actions[index]? = some (.resume handler ambient))
    (isAt : (worlds index).tasks.lookup handler = some task) (looks : key ∈ task.looksUp)
    (newest : (worlds index).gate.lastOf key = some recipient) :
    LookedUpAt actions worlds handler key recipient index index where
  order := Nat.le_refl index
  resumed := ⟨ambient, resumed⟩
  looks := ⟨task, isAt, looks⟩
  newest := newest
  since := by
    intro later after within
    omega

/-- In a run, what a handler is still to serve it looked up at some action, and has had it
since. -/
theorem lookedUpAt (index : Nat) {task : Task}
    (isAt : (worldAt F crypto community capacity actions index).tasks.lookup handler = some task)
    (isLookedUp : (key, recipient) ∈ task.lookedUp) :
    ∃ lookup, LookedUpAt actions (worldAt F crypto community capacity actions) handler key recipient
      lookup index := by
  have initially :
      ¬StillToServe handler key recipient (World.bind community capacity : World F) := by
    intro ⟨first, isFirst, isThere⟩
    change ((∅ : HashMap Handler Task).put .sweep .sweepLoop).lookup handler = some first at isFirst
    rw [HashMap.lookup_put] at isFirst
    split at isFirst
    · cases isFirst
      cases isThere
    · cases isFirst
  have stepped : ∀ index action, actions[index]? = some action →
      StillToServe handler key recipient
        ((worldAt F crypto community capacity actions index).step crypto action) →
      StillToServe handler key recipient (worldAt F crypto community capacity actions index) ∨
        FindsNewest handler key recipient (worldAt F crypto community capacity actions index)
          action := by
    intro index action _
    have inv : RelayInv (worldAt F crypto community capacity actions index) :=
      relayInv_run capacity (actions.take index)
    exact stillToServe_step crypto _ action inv.seated
  obtain ⟨lookup, action, before, isAction, isLookup, since⟩ :=
    run_originates (StillToServe handler key recipient) (FindsNewest handler key recipient)
      initially stepped index ⟨task, isAt, isLookedUp⟩
  obtain ⟨ambient, looking, isResume, wasAt, looks, newest⟩ := isLookup
  subst isResume
  exact ⟨lookup,
    { order := Nat.le_of_lt before
      resumed := ⟨ambient, isAction⟩
      looks := ⟨looking, wasAt, looks⟩
      newest := newest
      since := since }⟩

/-! ## The newest connection is served -/

/-- The frames of a session go to the connections that its section serves. -/
theorem serves_of_sends {state : ServerState F} {ambient : Ambient} {task : Task}
    {send : Registration × Frame} (isSent : send ∈ task.sends state ambient)
    (isOfSession : ofSession send.2 = true) : ∃ key, (key, send.1) ∈ task.serves state := by
  have refused : ∀ {registration : Registration} {detail : String},
      send ∉ limitedFor registration detail := by
    intro registration detail isRefusal
    rw [List.mem_singleton.mp isRefusal] at isOfSession
    cases isOfSession
  cases task with
  | controlLoop registration =>
      unfold Task.sends at isSent
      dsimp only at isSent
      split at isSent
      · cases isSent
      · split at isSent
        · cases isSent
        · exact absurd isSent refused
  | keepalive registration =>
      unfold Task.sends at isSent
      dsimp only at isSent
      split at isSent
      · rw [List.mem_singleton.mp isSent] at isOfSession
        cases isOfSession
      · exact absurd isSent refused
  | introduce registration tag ttlS sealedBytes =>
      unfold Task.sends at isSent
      dsimp only at isSent
      split at isSent
      · cases isSent
      · exact absurd isSent refused
  | introduceSend registration tag ttlS sealedBytes target =>
      rw [List.mem_singleton.mp isSent]
      exact ⟨target.key, List.mem_singleton_self _⟩
  | answerNote registration tag knock session requester target aToBShaper bToAShaper =>
      cases isSent with
      | head => exact ⟨knock.requester, List.mem_cons_self⟩
      | tail _ isSecond =>
          rw [List.mem_singleton.mp isSecond]
          exact ⟨knock.target, List.mem_cons_of_mem _ (List.mem_singleton_self _)⟩
  | startSend registration session keyA keyB gateMs =>
      obtain ⟨key, isKey, isStart⟩ := List.mem_filterMap.mp isSent
      obtain ⟨target, isLast, isSend⟩ := Option.map_eq_some_iff.mp isStart
      rw [← isSend]
      refine ⟨key, List.mem_filterMap.mpr ⟨key, isKey, ?_⟩⟩
      rw [isLast]
      rfl
  | _ => cases isSent

/-- A datagram is written onto the connection that its section serves. -/
theorem serves_of_delivered (crypto : Crypto) {state : ServerState F} {handler : Handler}
    {ambient : Ambient} {task : Task} {key : Bytes32} {datagram : Bytes}
    (isWritten : (task.run crypto state handler ambient).event = some (.delivered key datagram)) :
    ∃ served recipient, (served, recipient) ∈ task.serves state ∧ recipient.key = key := by
  have silent : ¬(task.run crypto state handler ambient).Apart := by
    intro apart
    exact apart.undelivered key datagram isWritten
  cases task with
  | relayLoop registration =>
      change (relayLoop state registration ambient).event = _ at isWritten
      unfold relayLoop at isWritten
      split at isWritten
      · cases isWritten
      · split at isWritten <;> cases isWritten
  | answerOpen registration tag knock answeredAt =>
      have opened := answerOpened_answerOpen state handler registration tag knock answeredAt ambient
      change (answerOpen state handler registration tag knock answeredAt ambient).event = _
        at isWritten
      generalize answerOpen state handler registration tag knock answeredAt ambient = outcome
        at opened isWritten
      cases opened <;> cases isWritten
  | answerNote => cases isWritten
  | forward registration session payload =>
      have forwarded := forwarded_forward state registration session payload ambient.now
      change (forward state registration session payload ambient.now).event = _ at isWritten
      have charged : ∀ {after : ServerState F} {shaper allowed},
          (afterCharge after registration session payload shaper allowed).event = none := by
        intro after shaper allowed
        unfold afterCharge
        dsimp only
        split
        · split <;> rfl
        · rfl
      generalize forward state registration session payload ambient.now = outcome
        at forwarded isWritten
      cases forwarded with
      | refused => cases isWritten
      | aToB => rw [charged] at isWritten; cases isWritten
      | bToA => rw [charged] at isWritten; cases isWritten
  | enqueue registration session payload shaper encoded =>
      change (enqueue state registration shaper encoded ambient.now).event = _ at isWritten
      unfold enqueue at isWritten
      dsimp only at isWritten
      split at isWritten <;> cases isWritten
  | drain session destinationKey shaper =>
      change (drain state session destinationKey shaper ambient.now).event = _ at isWritten
      unfold drain at isWritten
      dsimp only at isWritten
      split at isWritten <;> cases isWritten
  | drainCheck | drainSeat => cases isWritten
  | drainSend session destinationKey shaper destination payloads =>
      change (drainSend state session destinationKey shaper destination payloads ambient).event = _
        at isWritten
      unfold drainSend at isWritten
      split at isWritten
      · cases isWritten
      · split at isWritten
        · cases isWritten
          exact ⟨destinationKey, destination, List.mem_singleton_self _, rfl⟩
        · cases isWritten
  | _ =>
      exfalso
      apply silent
      exact apart_run crypto state handler ambient rfl (by simp) (by simp)

/-- What a section serves, it or its handler looked up. -/
theorem lookedUpAt_of_serves {index : Nat} {ambient : Ambient} {task : Task}
    (resumed : actions[index]? = some (.resume handler ambient))
    (isAt : (worldAt F crypto community capacity actions index).tasks.lookup handler = some task)
    (isServed : (key, recipient) ∈
      task.serves (worldAt F crypto community capacity actions index).gate) :
    ∃ lookup, LookedUpAt actions (worldAt F crypto community capacity actions) handler key recipient
      lookup index := by
  cases task with
  | introduceSend registration tag ttlS sealedBytes target => exact lookedUpAt index isAt isServed
  | answerNote registration tag knock session requester target aToBShaper bToAShaper =>
      exact lookedUpAt index isAt isServed
  | drainSend session destinationKey shaper destination payloads =>
      exact lookedUpAt index isAt isServed
  | startSend registration session keyA keyB gateMs =>
      obtain ⟨other, isKey, isStart⟩ := List.mem_filterMap.mp isServed
      obtain ⟨target, isLast, isPair⟩ := Option.map_eq_some_iff.mp isStart
      cases isPair
      exact ⟨index, .now resumed isAt isKey isLast⟩
  | _ => cases isServed

/-- In every run of the gate, over any order of its handlers' sections: the frames and
datagrams of an introduction or a session go to connections of the keys they are for, each
the newest one of its key when the handler looked the key up for it; so one that took part
is served where it was the newest one then. -/
theorem newest_served (crypto : Crypto) (community : Bytes32) (capacity : Nat)
    (actions : List Action) :
    let worlds := worldAt F crypto community capacity actions
    ∀ index handler ambient task, actions[index]? = some (.resume handler ambient) →
      (worlds index).tasks.lookup handler = some task →
        (∀ send ∈ task.sends (worlds index).gate ambient, ofSession send.2 = true →
          ∃ key, (key, send.1) ∈ task.serves (worlds index).gate) ∧
        (∀ key datagram,
          (task.run crypto (worlds index).gate handler ambient).event =
              some (.delivered key datagram) →
            ∃ recipient, (key, recipient) ∈ task.serves (worlds index).gate) ∧
        ∀ key recipient, (key, recipient) ∈ task.serves (worlds index).gate →
          recipient.key = key ∧
          ∃ lookup, LookedUpAt actions worlds handler key recipient lookup index ∧
            ∀ participant, (worlds lookup).gate.lastOf key = some participant →
              recipient = participant := by
  intro worlds index handler ambient task resumed isAt
  have served : ∀ key recipient, (key, recipient) ∈ task.serves (worlds index).gate →
      recipient.key = key ∧
      ∃ lookup, LookedUpAt actions worlds handler key recipient lookup index ∧
        ∀ participant, (worlds lookup).gate.lastOf key = some participant →
          recipient = participant := by
    intro key recipient isServed
    obtain ⟨lookup, known⟩ := lookedUpAt_of_serves resumed isAt isServed
    have inv : RelayInv (worlds lookup) := relayInv_run capacity (actions.take lookup)
    refine ⟨inv.seated.lastOf known.newest, lookup, known, ?_⟩
    intro participant isNewest
    exact Option.some.inj (known.newest.symm.trans isNewest)
  refine ⟨fun send isSent isOfSession => serves_of_sends isSent isOfSession, ?_, served⟩
  intro key datagram isWritten
  obtain ⟨other, recipient, isServed, isKey⟩ := serves_of_delivered crypto isWritten
  have sameKey := (served other recipient isServed).1
  refine ⟨recipient, ?_⟩
  rw [← isKey, sameKey]
  exact isServed

end Serves

/-! ### A reconnect between a knock and its answer -/

section Fixture

/-- The requester's second connection registers between its knock and the answer. -/
def reconnect : List Action :=
  introduction.take 10 ++
  [.connect requesterKey houseAddr 2, .resume (.control 2) { now := 2 },
    .resume (.control 1) { now := 3, frame := some (.knockAnswer 1 pairOfKeys true) }] ++
  List.replicate 4 (.resume (.control 1) { now := 3, sessionIds := [7] })

/-- The connection that asks, and the one that comes later. -/
def firstSeat : Registration := ⟨0, requesterKey, houseAddr⟩

def secondSeat : Registration := ⟨2, requesterKey, houseAddr⟩

/-- The introduction goes to the newest connections of both keys. -/
theorem newest_served_reconnect :
    ∃ lookup, LookedUpAt reconnect (worldAt Nat pairCrypto zero32 2 reconnect) (.control 1)
      requesterKey secondSeat lookup 16 := by
  have isAt : (worldAt Nat pairCrypto zero32 2 reconnect 16).tasks.lookup (.control 1) =
      some (.answerNote targetSeat pairOfKeys ⟨requesterKey, targetKey, 1 + fromSecs 60⟩ 7
        secondSeat targetSeat 3 4) := by
    decide +kernel
  obtain ⟨_, lookup, known, _⟩ :=
    (newest_served (F := Nat) pairCrypto zero32 2 reconnect 16 (.control 1)
      { now := 3, sessionIds := [7] } _ (by rfl) isAt).2.2 requesterKey secondSeat
      List.mem_cons_self
  exact ⟨lookup, known⟩

/-- The gate at the end of the reconnect. -/
def reconnected : ServerState Nat := (worldAt Nat pairCrypto zero32 2 reconnect 17).gate

/-- The connection that sent the `Introduce` is alive at the end, and was queued nothing:
the introduction of its session waits for the later one. -/
theorem introduction_overtaken :
    (worldAt Nat pairCrypto zero32 2 reconnect 8).tasks.lookup (.control 0) =
        some (.introduceRecord firstSeat pairOfKeys 60 [] targetKey targetSeat) ∧
      reconnect[8]? = some (.resume (.control 0) { now := 1 }) ∧
      reconnected.registrations.lookup requesterKey = some [firstSeat, secondSeat] ∧
      (reconnected.sessions.lookup 7).map SessionState.keyA = some requesterKey ∧
      (reconnected.cells firstSeat.id).frameTx = [] ∧
      (reconnected.cells secondSeat.id).frameTx = [.introduction 1 pairOfKeys 7
        (Addr.fromSocketAddr houseAddr) 1] := by
  refine ⟨?_, rfl, ?_, ?_, ?_, ?_⟩
  · decide +kernel
  · decide +kernel
  · decide +kernel
  · decide +kernel
  · decide +kernel

end Fixture

end Mosschat.Net.Gate.Server
