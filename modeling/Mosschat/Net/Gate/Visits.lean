import Mosschat.Net.Gate.SessionMap

/-!
Owns the client of a house, its gate and its doorbells, from `gate/client.rs` and
`punch.rs`: the calls of `await_start`, the reader of the `Start` frames, where a `Start`
is, what holds of the client's maps whatever happens, and the calls and slots that keep it.

Does not own what a doorbell does with a `Start`.
-/

namespace Mosschat.Net.Gate

open Mosschat.Library Mosschat.Library.Machine Mosschat.Library.Oneshot

/-! ## The client, its gate and its doorbells -/

/-- What `AttemptGuard` holds a doorbell to. -/
inductive Guard where
  /-- No attempt is armed: before the first exchange, and between attempts. -/
  | unarmed
  | armed
  /-- `attempt_finished` has marked the session, and has not removed the slot yet. -/
  | dropping
deriving DecidableEq

/-- A running `run_doorbell`. -/
structure Doorbell where
  session : UInt32
  guard : Guard
deriving DecidableEq

/-- A `Start` frame as the gate sent it, and whether the gate kept its session then and a
doorbell was running for it. -/
structure SentStart where
  session : UInt32
  fireInMs : UInt16
  gateMs : UInt64
  due : Bool
deriving DecidableEq

/-- The `StartSignal` of the gate's frame number `index`, read at `now`. -/
def SentStart.signal (frame : SentStart) (now index : Nat) : StartSignal :=
  ⟨frame.session, frame.fireInMs, frame.gateMs, now, index⟩

/-- One client, the sessions its gate keeps, and the `Start` frames between them. -/
structure Visits where
  sessions : SessionMap
  starts : StartMap
  /-- The calls of `await_start`, each under its session. -/
  calls : Calls CallId UInt32 StartSignal
  doorbells : HashMap Nat Doorbell
  /-- The sessions the gate keeps. -/
  live : List UInt32
  /-- Every `Start` frame the gate sent, in order. -/
  sent : List SentStart
  /-- How many of them the reader has read. -/
  read : Nat
  /-- What the reader is about to put in a slot. -/
  reading : Option StartSignal

/-- What the gate, the reader, the introductions and the doorbells do. Every lock of the
client is one action. Keepalives change nothing here: for as long as they go on the gate
may keep a session. -/
inductive VisitAction where
  | gateOpens (session : UInt32)
  | gateCloses (session : UInt32)
  | gateStarts (session : UInt32) (fireInMs : UInt16) (gateMs : UInt64)
  | rememberSession (session : UInt32) (peerObserved : Option SocketAddr) (now : Nat)
  /-- The reader takes the next `Start` and looks for its session. -/
  | readStart (now : Nat)
  /-- The reader puts it in its slot, or hands it on. -/
  | placeStart
  | runDoorbell (visit : Nat) (session : UInt32)
  | armAttempt (visit : Nat)
  /-- The two locks of `attempt_finished`, which the guard calls as it drops. -/
  | finishAttempt (visit : Nat)
  | removeSlot (visit : Nat)
  | endDoorbell (visit : Nat)
  | awaitStart (call : CallId) (session : UInt32)
  /-- Ten seconds are over. -/
  | deadline (call : CallId)
  | wake (call : CallId)
  /-- The call whose wait failed removes the slot and returns. -/
  | leave (call : CallId)
  | cancel (call : CallId)

namespace Visits

/-- A client that holds nothing. -/
def empty : Visits where
  sessions := ∅
  starts := ∅
  calls := ∅
  doorbells := ∅
  live := []
  sent := []
  read := 0
  reading := none

/-- A doorbell for the session is still running. -/
def rings (world : Visits) (session : UInt32) : Bool :=
  world.doorbells.values.any fun doorbell => doorbell.session == session

/-- The gate keeps the session, and a doorbell for it is still running. -/
def watched (world : Visits) (session : UInt32) : Bool :=
  world.live.contains session && world.rings session

/-- `starts.entry(session).or_default()`. -/
def slot (world : Visits) (session : UInt32) : StartSlot :=
  (world.starts.lookup session).getD .empty

/-- The sender in the slot of `session` is dropped with the slot, or for another one. -/
def dropWaiter (world : Visits) (session : UInt32) : Calls CallId UInt32 StartSignal :=
  match (world.slot session).waiter with
  | none => world.calls
  | some waiter => world.calls.move waiter Stage.sever

/-- `starts.remove(&session)`. -/
def dropSlot (world : Visits) (session : UInt32) : Visits :=
  { world with
    starts := world.starts.erase session
    calls := world.dropWaiter session }

/-- The reader's second lock: the signal goes to the call that waits, or stays in the slot. -/
def place (world : Visits) (signal : StartSignal) : Visits :=
  if limits.maxSessionsPerRegistration ≤ world.starts.entries.length ∧
      signal.session ∉ world.starts then world
  else
    match (world.slot signal.session).waiter with
    | some waiter =>
      { world with
        starts := world.starts.erase signal.session
        calls := world.calls.move waiter (Stage.send signal) }
    | none =>
      { world with
        starts := world.starts.put signal.session
          { world.slot signal.session with received := some signal } }

/-- The lock of `await_start`: a signal that is already there is taken, and otherwise the
call leaves its sender in the slot. -/
def await (world : Visits) (call : CallId) (session : UInt32) : Visits :=
  match (world.slot session).received with
  | some signal =>
    { world with
      starts := world.starts.erase session
      calls := (world.dropWaiter session).put call ⟨session, .returned (some signal)⟩ }
  | none =>
    { world with
      starts := world.starts.put session { world.slot session with waiter := some call }
      calls := (world.dropWaiter session).put call ⟨session, .waiting⟩ }

/-- One action. What is not due, or names what is not there, changes nothing. -/
def step (world : Visits) : VisitAction → Visits
  | .gateOpens session =>
    if limits.maxSessionsPerRegistration ≤ world.live.length ∨ session ∈ world.live then world
    else { world with live := session :: world.live }
  | .gateCloses session => { world with live := world.live.filter (· != session) }
  | .gateStarts session fireInMs gateMs =>
    { world with sent := world.sent ++ [⟨session, fireInMs, gateMs, world.watched session⟩] }
  | .rememberSession session peerObserved now =>
    { world with sessions := world.sessions.rememberSession session peerObserved now }
  | .readStart now =>
    match world.reading, world.sent[world.read]? with
    | none, some frame =>
      { world with
        read := world.read + 1
        reading :=
          if frame.session ∈ world.sessions then some (frame.signal now world.read) else none }
    | _, _ => world
  | .placeStart =>
    match world.reading with
    | none => world
    | some signal => { world.place signal with reading := none }
  | .runDoorbell visit session =>
    if visit ∈ world.doorbells then world
    else { world with doorbells := world.doorbells.put visit ⟨session, .unarmed⟩ }
  | .armAttempt visit =>
    match world.doorbells.lookup visit with
    | some ⟨session, .unarmed⟩ =>
      { world with doorbells := world.doorbells.put visit ⟨session, .armed⟩ }
    | _ => world
  | .finishAttempt visit =>
    match world.doorbells.lookup visit with
    | some ⟨session, .armed⟩ =>
      { world with
        sessions := world.sessions.markFinished session
        doorbells := world.doorbells.put visit ⟨session, .dropping⟩ }
    | _ => world
  | .removeSlot visit =>
    match world.doorbells.lookup visit with
    | some ⟨session, .dropping⟩ =>
      { world.dropSlot session with
        doorbells := world.doorbells.put visit ⟨session, .unarmed⟩ }
    | _ => world
  | .endDoorbell visit =>
    match world.doorbells.lookup visit with
    | some ⟨_, .unarmed⟩ => { world with doorbells := world.doorbells.erase visit }
    | _ => world
  | .awaitStart call session => if call ∈ world.calls then world else world.await call session
  | .deadline call => { world with calls := world.calls.move call Stage.expire }
  | .wake call => { world with calls := world.calls.move call Stage.wake }
  | .leave call =>
    match world.calls.lookup call with
    | some ⟨session, .leaving⟩ =>
      let left := world.dropSlot session
      { left with calls := left.calls.move call Stage.leave }
    | _ => world
  | .cancel call => { world with calls := world.calls.move call Stage.cancel }

/-! ## Where a `Start` is -/

/-- Where the client has a `Start` it has read. -/
inductive Place where
  | reader
  | slot (session : UInt32)
  | call (id : CallId)
deriving DecidableEq

/-- The `Start` in a place. -/
def signalAt (world : Visits) : Place → Option StartSignal
  | .reader => world.reading
  | .slot session => (world.slot session).received
  | .call id => (world.calls.lookup id).bind fun call => call.stage.got

/-- The place is one for the `Start`s of `session`. -/
def serves (world : Visits) (session : UInt32) : Place → Prop
  | .reader => True
  | .slot other => other = session
  | .call id => ∃ stage, world.calls.lookup id = some ⟨session, stage⟩

/-- The gate's frame number `index` is one whose session was watched when it was sent. -/
def isDue (world : Visits) (index : Nat) : Bool := (world.sent[index]?).any SentStart.due

/-- The slot of `session` keeps a `Start` that is due. -/
def keepsDue (world : Visits) (session : UInt32) : Bool :=
  (world.slot session).received.any fun signal => world.isDue signal.frame

/-- What holds of the client's maps whatever happens. -/
structure Sound (world : Visits) : Prop where
  sized : world.sessions.entries.length ≤ limits.maxSessionsPerRegistration
  few : world.read ≤ world.sent.length
  /-- What is held is one of the frames that were read. -/
  genuine : ∀ place signal, world.signalAt place = some signal →
    signal.frame < world.read ∧
      ∃ frame now, world.sent[signal.frame]? = some frame ∧ signal = frame.signal now signal.frame
  served : ∀ place signal, world.signalAt place = some signal → world.serves signal.session place
  apart : ∀ place other signal otherSignal, world.signalAt place = some signal →
    world.signalAt other = some otherSignal → signal.frame = otherSignal.frame → place = other
  /-- A `Start` stays in a slot only while no call has its sender there. -/
  idle : ∀ session signal, (world.slot session).received = some signal →
    (world.slot session).waiter = none
  sender : ∀ session id, (world.slot session).waiter = some id →
    ∃ stage, world.calls.lookup id = some ⟨session, stage⟩ ∧ stage.got = none
  waiting : ∀ session id, world.calls.Waits id session → (world.slot session).waiter = some id

/-- Every due frame that was read is somewhere. -/
def Kept (world : Visits) : Prop :=
  ∀ index, world.isDue index = true → index < world.read →
    ∃ place signal, world.signalAt place = some signal ∧ signal.frame = index

/-- Every watched session has its entry. -/
def Remembered (world : Visits) : Prop :=
  ∀ session, world.watched session = true → session ∈ world.sessions

section Moves

variable {world next : Visits}

/-- What each place of the next state holds came from a place of its own. -/
theorem Sound.moved (sound : Sound world) (origin : Place → Place)
    (sized : next.sessions.entries.length ≤ limits.maxSessionsPerRegistration)
    (read : next.read = world.read) (sent : world.sent <+: next.sent)
    (came : ∀ place signal, next.signalAt place = some signal →
      world.signalAt (origin place) = some signal)
    (single : ∀ place other signal otherSignal, next.signalAt place = some signal →
      next.signalAt other = some otherSignal → origin place = origin other → place = other)
    (served : ∀ place signal, next.signalAt place = some signal → next.serves signal.session place)
    (idle : ∀ session signal, (next.slot session).received = some signal →
      (next.slot session).waiter = none)
    (sender : ∀ session id, (next.slot session).waiter = some id →
      ∃ stage, next.calls.lookup id = some ⟨session, stage⟩ ∧ stage.got = none)
    (waiting : ∀ session id, next.calls.Waits id session →
      (next.slot session).waiter = some id) : Sound next where
  sized := sized
  few := by
    rw [read]
    exact sound.few.trans sent.length_le
  genuine := by
    intro place signal isAt
    obtain ⟨wasRead, frame, now, isFrame, isSignal⟩ :=
      sound.genuine (origin place) signal (came place signal isAt)
    have inRange : signal.frame < world.sent.length := (List.getElem?_eq_some_iff.mp isFrame).1
    have same : next.sent[signal.frame]? = world.sent[signal.frame]? := by
      obtain ⟨rest, isNext⟩ := sent
      rw [← isNext, List.getElem?_append_left inRange]
    exact ⟨read ▸ wasRead, frame, now, same.trans isFrame, isSignal⟩
  served := served
  apart := by
    intro place other signal otherSignal isAt isOther sameFrame
    have samePlace := sound.apart (origin place) (origin other) signal otherSignal
      (came place signal isAt) (came other otherSignal isOther) sameFrame
    exact single place other signal otherSignal isAt isOther samePlace
  idle := idle
  sender := sender
  waiting := waiting

/-- A step that touches no slot, no call and not the reader. -/
theorem Sound.untouched (sound : Sound world)
    (sized : next.sessions.entries.length ≤ limits.maxSessionsPerRegistration)
    (sent : world.sent <+: next.sent) (read : next.read = world.read)
    (starts : next.starts = world.starts) (calls : next.calls = world.calls)
    (reading : next.reading = world.reading) : Sound next := by
  have sameSlot : ∀ session, next.slot session = world.slot session := by
    intro session
    unfold slot
    rw [starts]
  have sameSignal : ∀ place, next.signalAt place = world.signalAt place := by
    intro place
    cases place with
    | reader => exact reading
    | slot session =>
        show (next.slot session).received = (world.slot session).received
        rw [sameSlot]
    | call id =>
        show (next.calls.lookup id).bind _ = (world.calls.lookup id).bind _
        rw [calls]
  apply sound.moved (fun place => place) sized read sent
  · intro place signal isAt
    exact (sameSignal place).symm.trans isAt
  · intro place other _ _ _ _ same
    exact same
  · intro place signal isAt
    have served := sound.served place signal ((sameSignal place).symm.trans isAt)
    cases place with
    | reader => trivial
    | slot session => exact served
    | call id =>
        show ∃ stage, next.calls.lookup id = _
        rw [calls]
        exact served
  · intro session signal isReceived
    rw [sameSlot] at isReceived ⊢
    exact sound.idle session signal isReceived
  · intro session id isWaiter
    rw [sameSlot] at isWaiter
    rw [calls]
    exact sound.sender session id isWaiter
  · intro session id waits
    rw [calls] at waits
    rw [sameSlot]
    exact sound.waiting session id waits

theorem signalAt_moveCall (id : CallId) {onward : Stage StartSignal → Stage StartSignal}
    (sameGot : ∀ stage, (onward stage).got = stage.got) (place : Place) :
    ({ world with calls := world.calls.move id onward } : Visits).signalAt place =
      world.signalAt place := by
  cases place with
  | reader => rfl
  | slot session => rfl
  | call other =>
      show ((world.calls.move id onward).lookup other).bind _ = (world.calls.lookup other).bind _
      rw [Calls.lookup_move]
      split
      · cases world.calls.lookup other with
        | none => rfl
        | some call => exact sameGot call.stage
      · rfl

/-- A call moves to a stage that neither takes nor loses anything, and waits only if it
waited. -/
theorem Sound.moveCall (sound : Sound world) (id : CallId)
    {onward : Stage StartSignal → Stage StartSignal}
    (sameGot : ∀ stage, (onward stage).got = stage.got)
    (waited : ∀ stage, onward stage = .waiting → stage = .waiting) :
    Sound { world with calls := world.calls.move id onward } := by
  have sameSignal : ∀ place,
      ({ world with calls := world.calls.move id onward } : Visits).signalAt place =
        world.signalAt place := signalAt_moveCall id sameGot
  apply sound.moved (fun place => place)
  · exact sound.sized
  · rfl
  · exact List.prefix_refl world.sent
  · intro place signal isAt
    exact (sameSignal place).symm.trans isAt
  · intro place other _ _ _ _ same
    exact same
  · intro place signal isAt
    have served := sound.served place signal ((sameSignal place).symm.trans isAt)
    cases place with
    | reader => trivial
    | slot session => exact served
    | call other =>
        obtain ⟨stage, isThere⟩ := served
        exact ⟨_, Calls.lookup_move_of_lookup isThere id onward⟩
  · exact sound.idle
  · intro session other isWaiter
    obtain ⟨stage, isThere, nothing⟩ := sound.sender session other isWaiter
    refine ⟨_, Calls.lookup_move_of_lookup isThere id onward, ?_⟩
    show (if other = id then onward stage else stage).got = none
    split
    · rw [sameGot, nothing]
    · exact nothing
  · intro session other waits
    obtain ⟨stage, isThere, isWaiting⟩ := Calls.lookup_of_waits_move waits
    have wasWaiting : stage = .waiting := by
      split at isWaiting
      · exact waited stage isWaiting
      · exact isWaiting
    rw [wasWaiting] at isThere
    exact sound.waiting session other isThere

/-! ### The slots -/

theorem slot_erase (starts : StartMap) (session other : UInt32) :
    ((starts.erase session).lookup other).getD .empty =
      if other = session then .empty else (starts.lookup other).getD .empty := by
  rw [HashMap.lookup_erase]
  split <;> rfl

theorem slot_put (starts : StartMap) (session other : UInt32) (slot : StartSlot) :
    ((starts.put session slot).lookup other).getD .empty =
      if other = session then slot else (starts.lookup other).getD .empty := by
  rw [HashMap.lookup_put]
  split <;> rfl

/-- Dropping the sender of a slot takes nothing from the call. -/
theorem lookup_dropWaiter (world : Visits) (session : UInt32) (id : CallId) :
    ∃ onward : Stage StartSignal → Stage StartSignal,
      (world.dropWaiter session).lookup id =
        (world.calls.lookup id).map (fun call => { call with stage := onward call.stage }) ∧
      (∀ stage, (onward stage).got = stage.got) ∧
      (∀ stage, onward stage = .waiting → stage = .waiting ∧
        (world.slot session).waiter ≠ some id) := by
  have unmoved : (world.calls.lookup id).map (fun call => { call with stage := call.stage }) =
      world.calls.lookup id := Option.map_id'
  unfold dropWaiter
  cases isWaiter : (world.slot session).waiter with
  | none => exact ⟨fun stage => stage, unmoved.symm, fun _ => rfl, fun _ waits => ⟨waits, nofun⟩⟩
  | some waiter =>
      by_cases same : id = waiter
      · refine ⟨Stage.sever, ?_, Stage.got_sever, ?_⟩
        · show (world.calls.move waiter Stage.sever).lookup id = _
          rw [Calls.lookup_move, if_pos same]
        · exact fun stage waits => absurd waits Stage.sever_ne_waiting
      · refine ⟨fun stage => stage, ?_, fun _ => rfl, ?_⟩
        · show (world.calls.move waiter Stage.sever).lookup id = _
          rw [Calls.lookup_move, if_neg same]
          exact unmoved.symm
        · intro stage waits
          refine ⟨waits, ?_⟩
          intro isSame
          cases isSame
          exact same rfl

theorem got_dropWaiter (session : UInt32) (id : CallId) :
    ((world.dropWaiter session).lookup id).bind (fun call => call.stage.got) =
      (world.calls.lookup id).bind fun call => call.stage.got := by
  obtain ⟨onward, isThere, sameGot, _⟩ := lookup_dropWaiter world session id
  rw [isThere]
  cases world.calls.lookup id with
  | none => rfl
  | some call => exact sameGot call.stage

/-- A call that waits after a sender was dropped waited before, and was not its call. -/
theorem waits_of_dropWaiter {session key : UInt32} {id : CallId}
    (waits : Calls.Waits (world.dropWaiter session) id key) :
    world.calls.Waits id key ∧ (world.slot session).waiter ≠ some id := by
  obtain ⟨onward, isThere, _, waited⟩ := lookup_dropWaiter world session id
  have isThereNow : (world.dropWaiter session).lookup id = some ⟨key, .waiting⟩ := waits
  rw [isThere] at isThereNow
  obtain ⟨call, wasThere, isCall⟩ := Option.map_eq_some_iff.mp isThereNow
  have sameKey : call.key = key := congrArg Call.key isCall
  have sameStage : onward call.stage = .waiting := congrArg Call.stage isCall
  have before := waited call.stage sameStage
  refine ⟨?_, before.2⟩
  show world.calls.lookup id = some ⟨key, .waiting⟩
  rw [wasThere, ← before.1, ← sameKey]

theorem signalAt_dropSlot (session : UInt32) (place : Place) :
    (world.dropSlot session).signalAt place =
      if place = .slot session then none else world.signalAt place := by
  cases place with
  | reader => rfl
  | slot other =>
      show (((world.starts.erase session).lookup other).getD .empty).received = _
      rw [slot_erase]
      by_cases same : other = session
      · rw [if_pos same, if_pos (congrArg Place.slot same)]
        rfl
      · have apart : Place.slot other ≠ .slot session := fun isSame => same (Place.slot.inj isSame)
        rw [if_neg same, if_neg apart]
        rfl
  | call id => exact got_dropWaiter session id

theorem Sound.dropSlot (sound : Sound world) (session : UInt32) :
    Sound (world.dropSlot session) := by
  have kept : ∀ place signal, (world.dropSlot session).signalAt place = some signal →
      world.signalAt place = some signal := by
    intro place signal isAt
    rw [signalAt_dropSlot] at isAt
    split at isAt
    · cases isAt
    · exact isAt
  have sameSlot : ∀ other, (world.dropSlot session).slot other =
      if other = session then .empty else world.slot other := slot_erase world.starts session
  apply sound.moved (fun place => place)
  · exact sound.sized
  · rfl
  · exact List.prefix_refl world.sent
  · exact kept
  · intro place other _ _ _ _ same
    exact same
  · intro place signal isAt
    have served := sound.served place signal (kept place signal isAt)
    cases place with
    | reader => trivial
    | slot other => exact served
    | call id =>
        obtain ⟨stage, isThere⟩ := served
        obtain ⟨onward, isThereNow, _⟩ := lookup_dropWaiter world session id
        refine ⟨onward stage, ?_⟩
        show (world.dropWaiter session).lookup id = _
        rw [isThereNow, isThere]
        rfl
  · intro other signal isReceived
    rw [sameSlot] at isReceived ⊢
    split at isReceived
    · cases isReceived
    · next apart =>
        rw [if_neg apart]
        exact sound.idle other signal isReceived
  · intro other id isWaiter
    rw [sameSlot] at isWaiter
    split at isWaiter
    · cases isWaiter
    · obtain ⟨stage, isThere, nothing⟩ := sound.sender other id isWaiter
      obtain ⟨onward, isThereNow, sameGot, _⟩ := lookup_dropWaiter world session id
      refine ⟨onward stage, ?_, (sameGot stage).trans nothing⟩
      show (world.dropWaiter session).lookup id = _
      rw [isThereNow, isThere]
      rfl
  · intro other id waits
    have before := waits_of_dropWaiter waits
    have isWaiter := sound.waiting other id before.1
    have apart : other ≠ session := by
      intro same
      rw [same] at isWaiter
      exact before.2 isWaiter
    rw [sameSlot, if_neg apart]
    exact isWaiter

/-- The slot of the session holds the sender of the call that now waits, or nothing. -/
theorem slot_await (id : CallId) (session other : UInt32) :
    (world.await id session).slot other =
      if other = session then
        match (world.slot session).received with
        | some _ => .empty
        | none => { world.slot session with waiter := some id }
      else world.slot other := by
  unfold await
  split
  · exact slot_erase world.starts session other
  · exact slot_put world.starts session other _

/-- The call of `await_start`, and the others with their senders dropped or not. -/
theorem lookup_await (id other : CallId) (session : UInt32) :
    (world.await id session).calls.lookup other =
      if other = id then
        some ⟨session,
          match (world.slot session).received with
          | some signal => .returned (some signal)
          | none => .waiting⟩
      else (world.dropWaiter session).lookup other := by
  unfold await
  split <;> exact HashMap.lookup_put _ _ _ _

/-- What `await_start` leaves in each place. -/
theorem signalAt_await (id : CallId) (session : UInt32) (place : Place) :
    (world.await id session).signalAt place =
      if place = .call id then (world.slot session).received
      else if place = .slot session then none
      else world.signalAt place := by
  cases place with
  | reader =>
      unfold await
      split <;> rfl
  | slot other =>
      show ((world.await id session).slot other).received = _
      rw [slot_await, if_neg (nofun : Place.slot other ≠ .call id)]
      by_cases same : other = session
      · rw [if_pos same, if_pos (congrArg Place.slot same)]
        cases isReceived : (world.slot session).received with
        | some signal => rfl
        | none => exact isReceived
      · have apart : Place.slot other ≠ .slot session := fun isSame => same (Place.slot.inj isSame)
        rw [if_neg same, if_neg apart]
        rfl
  | call other =>
      show ((world.await id session).calls.lookup other).bind _ = _
      rw [lookup_await, if_neg (nofun : Place.call other ≠ .slot session)]
      by_cases same : other = id
      · rw [if_pos same, if_pos (congrArg Place.call same)]
        cases (world.slot session).received with
        | some signal => rfl
        | none => rfl
      · have apart : Place.call other ≠ .call id := fun isSame => same (Place.call.inj isSame)
        rw [if_neg same, if_neg apart]
        exact got_dropWaiter session other

theorem Sound.await (sound : Sound world) {id : CallId} (fresh : id ∉ world.calls)
    (session : UInt32) : Sound (world.await id session) := by
  have unmade : world.calls.lookup id = none := AList.lookup_eq_none.mpr fresh
  have sameRest : (world.await id session).sessions = world.sessions ∧
      (world.await id session).read = world.read ∧
      (world.await id session).sent = world.sent := by
    unfold Visits.await
    split <;> exact ⟨rfl, rfl, rfl⟩
  have other_ne : ∀ other key stage, world.calls.lookup other = some ⟨key, stage⟩ → other ≠ id := by
    intro other key stage isThere same
    rw [same, unmade] at isThere
    cases isThere
  have kept : ∀ other key stage, world.calls.lookup other = some ⟨key, stage⟩ →
      ∃ onward : Stage StartSignal → Stage StartSignal,
        (world.await id session).calls.lookup other = some ⟨key, onward stage⟩ ∧
          (onward stage).got = stage.got := by
    intro other key stage isThere
    obtain ⟨onward, isThereNow, sameGot, _⟩ := lookup_dropWaiter world session other
    refine ⟨onward, ?_, sameGot stage⟩
    rw [lookup_await, if_neg (other_ne other key stage isThere), isThereNow, isThere]
    rfl
  apply sound.moved (fun place => if place = .call id then .slot session else place)
  · rw [sameRest.1]
    exact sound.sized
  · exact sameRest.2.1
  · rewrite [sameRest.2.2]
    exact List.prefix_refl world.sent
  · intro place signal isAt
    rw [signalAt_await] at isAt
    split at isAt
    · next isCall =>
        rw [if_pos isCall]
        exact isAt
    · next notCall =>
        split at isAt
        · cases isAt
        · rw [if_neg notCall]
          exact isAt
  · intro place other signal otherSignal isAt isOther same
    have notSlot : ∀ place signal, (world.await id session).signalAt place = some signal →
        place ≠ .slot session := by
      intro place signal isAt isSlot
      rw [isSlot, signalAt_await, if_neg nofun, if_pos rfl] at isAt
      cases isAt
    by_cases isCall : place = .call id
    · by_cases otherIsCall : other = .call id
      · rw [isCall, otherIsCall]
      · rw [if_pos isCall, if_neg otherIsCall] at same
        exact absurd same.symm (notSlot other otherSignal isOther)
    · by_cases otherIsCall : other = .call id
      · rw [if_neg isCall, if_pos otherIsCall] at same
        exact absurd same (notSlot place signal isAt)
      · rw [if_neg isCall, if_neg otherIsCall] at same
        exact same
  · intro place signal isAt
    rw [signalAt_await] at isAt
    split at isAt
    · next isCall =>
        rw [isCall]
        have isSession : session = signal.session := sound.served (.slot session) signal isAt
        show ∃ stage, (world.await id session).calls.lookup id = _
        rw [lookup_await, if_pos rfl, isSession]
        exact ⟨_, rfl⟩
    · split at isAt
      · cases isAt
      · have served := sound.served place signal isAt
        cases place with
        | reader => trivial
        | slot other => exact served
        | call other =>
            obtain ⟨stage, isThere⟩ := served
            obtain ⟨onward, isThereNow, _⟩ := kept other _ stage isThere
            exact ⟨onward stage, isThereNow⟩
  · intro other signal isReceived
    rw [slot_await] at isReceived ⊢
    split at isReceived
    · next isSession =>
        split at isReceived
        · cases isReceived
        · next nothing =>
            rw [nothing] at isReceived
            cases isReceived
    · next apart =>
        rw [if_neg apart]
        exact sound.idle other signal isReceived
  · intro other waiter isWaiter
    rw [slot_await] at isWaiter
    split at isWaiter
    · next isSession =>
        split at isWaiter
        · cases isWaiter
        · next nothing =>
            have isId : id = waiter := Option.some.inj isWaiter
            rw [← isId, isSession]
            refine ⟨.waiting, ?_, rfl⟩
            rw [lookup_await, if_pos rfl, nothing]
    · obtain ⟨stage, isThere, nothing⟩ := sound.sender other waiter isWaiter
      obtain ⟨onward, isThereNow, sameGot⟩ := kept waiter other stage isThere
      exact ⟨onward stage, isThereNow, sameGot.trans nothing⟩
  · intro other waiter waits
    change (world.await id session).calls.lookup waiter = some ⟨other, .waiting⟩ at waits
    rw [lookup_await] at waits
    split at waits
    · next isId =>
        have isSession : session = other := congrArg Call.key (Option.some.inj waits)
        have isStage := congrArg Call.stage (Option.some.inj waits)
        rw [slot_await, if_pos isSession.symm, isId]
        split at isStage
        · cases isStage
        · rfl
    · have before := waits_of_dropWaiter waits
      have isWaiter := sound.waiting other waiter before.1
      have apart : other ≠ session := by
        intro same
        rw [same] at isWaiter
        exact before.2 isWaiter
      rw [slot_await, if_neg apart]
      exact isWaiter

end Moves

end Visits

end Mosschat.Net.Gate
