import Mosschat.Net.Gate.Wire
import Mosschat.Net.Path

/-!
Owns the gatehouse, from `gate/server.rs`: its tables, and every handler cut into the
sections it runs under one lock at a time, with what is left to do after each.

Does not own what a connection goes through before its registration is seated (the
handshake, the member list, the pending slots and the attempt limits), the reflection
port, or the order in which the handlers run.
-/

namespace Mosschat.Net.Gate.Server

open Mosschat.Core Mosschat.Library Mosschat.Library.Cbor

/-! ## The tables -/

/-- `ServerCounters`, those the modelled sections count in. -/
structure ServerCounters where
  relaySenderMismatch : Nat := 0
  relayRateLimited : Nat := 0
  relayDroppedAtFull : Nat := 0
  registrationsRefusedAtCapacity : Nat := 0
  knockAnsweredByWrongTarget : Nat := 0
  connectionsRefusedAtKeyCapacity : Nat := 0
  relayOversizedDropped : Nat := 0
  frameRateLimited : Nat := 0
  keepaliveRateLimited : Nat := 0
  frameTxDropped : Nat := 0
  startRequestUnknownSession : Nat := 0
  startRequestWrongSender : Nat := 0
  startRequestsIgnored : Nat := 0

/-- `Registration`: the `Arc`, with what never changes behind it. Two are the same
allocation exactly when their ids are equal. -/
structure Registration where
  id : Nat
  key : Bytes32
  observed : SocketAddr
deriving DecidableEq

/-- The cells of a `RegistrationInner` that change. -/
structure RegistrationCells (F : Type) where
  /-- The frames the writer has not taken yet. -/
  frameTx : List Frame
  /-- The writer still holds the other end of the channel. -/
  frameTxOpen : Bool
  lastKeepalive : Nat
  introduceMin : RateLimiter F
  introduceHour : RateLimiter F
  sessions : HashMap UInt32 Unit
  frameRate : RateLimiter F
  keepaliveRate : RateLimiter F

/-- `KnockState`. -/
structure KnockState where
  requester : Bytes32
  target : Bytes32
  deadline : Nat
deriving DecidableEq

/-- `RelayLimiter`. -/
structure RelayLimiter (F : Type) where
  bytes : RateLimiter F

/-- `SessionState`. A shaper is held by reference. -/
structure SessionState (F : Type) where
  keyA : Bytes32
  keyB : Bytes32
  startRequests : UInt32
  openedAt : Nat
  aToB : RelayLimiter F
  bToA : RelayLimiter F
  aToBShaper : Nat
  bToAShaper : Nat

/-- `ServerState`, with the registrations and shapers behind its references. -/
structure ServerState (F : Type) where
  community : Bytes32
  capacity : Nat
  registrations : HashMap Bytes32 (List Registration)
  knocks : HashMap Bytes32 KnockState
  sessions : HashMap UInt32 (SessionState F)
  counters : ServerCounters
  /-- What a registration's id stands for. -/
  cells : Nat → RegistrationCells F
  /-- What a reference to a shaper stands for. -/
  shapers : Nat → RelayShaper F
  /-- Ids and references from here on stand for nothing yet. -/
  allocated : Nat

section Tables

variable {F : Type} [F64 F]

/-- `RelayLimiter::new`. -/
def RelayLimiter.new (now : Nat) : RelayLimiter F :=
  ⟨.capacityPerHour (F64.ofNat limits.relayBytesPerHour) now⟩

/-- The cells of a registration that was just made. -/
def RegistrationCells.new (now : Nat) : RegistrationCells F where
  frameTx := []
  frameTxOpen := true
  lastKeepalive := now
  introduceMin := .perMinute limits.introducePerMinute limits.introducePerMinute now
  introduceHour := .perHour limits.introducePerHour limits.introducePerHour now
  sessions := ∅
  frameRate := .perSecond limits.frameRateBurst limits.frameRatePerSecond now
  keepaliveRate := .perSecond limits.keepalivePerSecond limits.keepalivePerSecond now

/-- A gate that was just bound. -/
def ServerState.bind (community : Bytes32) (capacity : Nat) : ServerState F where
  community := community
  capacity := capacity
  registrations := ∅
  knocks := ∅
  sessions := ∅
  counters := {}
  cells := fun _ => .new 0
  shapers := fun _ => .gate 0
  allocated := 0

/-- `ServerState::pair_tag`. -/
def ServerState.pairTag (crypto : Crypto) (state : ServerState F) (a b : Bytes32) : Bytes32 :=
  Gate.pairTag crypto state.community a b

/-- One counter up. -/
def ServerState.count (state : ServerState F) (bump : ServerCounters → ServerCounters) :
    ServerState F :=
  { state with counters := bump state.counters }

def ServerState.setCells (state : ServerState F) (registration : Registration)
    (cells : RegistrationCells F) : ServerState F :=
  { state with cells := Function.update state.cells registration.id cells }

def ServerState.setShaper (state : ServerState F) (shaper : Nat) (value : RelayShaper F) :
    ServerState F :=
  { state with shapers := Function.update state.shapers shaper value }

/-- `send_frame`. A channel whose writer is gone refuses as a full one does. -/
def sendFrame (state : ServerState F) (registration : Registration) (frame : Frame) :
    ServerState F :=
  let cells := state.cells registration.id
  if cells.frameTxOpen ∧ cells.frameTx.length < limits.frameTxQueueCap then
    state.setCells registration { cells with frameTx := cells.frameTx ++ [frame] }
  else
    state.count fun counters => { counters with frameTxDropped := counters.frameTxDropped + 1 }

/-- `registrations.get(key).and_then(|list| list.last())`. -/
def ServerState.lastOf (state : ServerState F) (key : Bytes32) : Option Registration :=
  (state.registrations.lookup key).bind List.getLast?

/-- `SessionState::close_shapers`. -/
def ServerState.closeShapers (state : ServerState F) (session : SessionState F) : ServerState F :=
  let state := state.setShaper session.aToBShaper (state.shapers session.aToBShaper).close
  state.setShaper session.bToAShaper (state.shapers session.bToAShaper).close

end Tables

/-! ## The handlers -/

/-- The tasks of the gate, each of which runs one handler. -/
inductive Handler where
  | control (id : Nat)
  | relay (id : Nat)
  | writer (id : Nat)
  | drain (shaper : Nat)
  | sweep
deriving DecidableEq

/-- What a handler does next. Each but the loops is one section of the function it is
named after, with the variables the function still holds. -/
inductive Task where
  /-- The write of `Registered`. -/
  | register (registration : Registration)
  /-- `control_loop`, at its read. -/
  | controlLoop (registration : Registration)
  | keepalive (registration : Registration)
  | introduce (registration : Registration) (tag : Bytes32) (ttlS : UInt16) (sealedBytes : Bytes)
  | introduceTarget (registration : Registration) (tag : Bytes32) (ttlS : UInt16)
      (sealedBytes : Bytes)
  | introduceSeat (registration : Registration) (tag : Bytes32) (ttlS : UInt16)
      (sealedBytes : Bytes) (targetKey : Bytes32)
  | introduceRecord (registration : Registration) (tag : Bytes32) (ttlS : UInt16)
      (sealedBytes : Bytes) (targetKey : Bytes32) (target : Registration)
  | introduceSend (registration : Registration) (tag : Bytes32) (ttlS : UInt16)
      (sealedBytes : Bytes) (target : Registration)
  | answer (registration : Registration) (tag : Bytes32) (accept : Bool)
  | answerCheck (registration : Registration) (tag : Bytes32) (accept : Bool) (knock : KnockState)
  | answerOpen (registration : Registration) (tag : Bytes32) (knock : KnockState)
      (answeredAt : Nat)
  | answerNote (registration : Registration) (tag : Bytes32) (knock : KnockState)
      (session : UInt32) (requester target : Registration) (aToBShaper bToAShaper : Nat)
  | startRequest (registration : Registration) (session : UInt32)
  | startSend (registration : Registration) (session : UInt32) (keyA keyB : Bytes32)
      (gateMs : UInt64)
  /-- `later` is what a sweep has left to tear down, and `none` at a connection's end. -/
  | teardown (peerKey : Bytes32) (registration : Registration)
      (later : Option (List (Bytes32 × Registration)))
  | teardownIds (peerKey : Bytes32) (registration : Registration)
      (later : Option (List (Bytes32 × Registration)))
  | teardownSessions (peerKey : Bytes32) (sessionIds : List UInt32)
      (later : Option (List (Bytes32 × Registration)))
  | teardownOrphans (orphaned : List (Bytes32 × UInt32))
      (later : Option (List (Bytes32 × Registration)))
  /-- The datagram task, at its read. -/
  | relayLoop (registration : Registration)
  | forward (registration : Registration) (session : UInt32) (payload : Bytes)
  | enqueue (registration : Registration) (session : UInt32) (payload : Bytes) (shaper : Nat)
      (encoded : Bytes)
  /-- The writer task, at its read. -/
  | writer (registration : Registration)
  /-- The task of `spawn_relay_drain`, at its `drain`. -/
  | drain (session : UInt32) (destinationKey : Bytes32) (shaper : Nat)
  | drainCheck (session : UInt32) (destinationKey : Bytes32) (shaper : Nat)
      (payloads : List Bytes)
  | drainSeat (session : UInt32) (destinationKey : Bytes32) (shaper : Nat) (payloads : List Bytes)
  | drainSend (session : UInt32) (destinationKey : Bytes32) (shaper : Nat)
      (destination : Registration) (payloads : List Bytes)
  /-- `sweep_loop`, at its tick. -/
  | sweepLoop
  | sweepKnocks (now : Nat)
  | sweepExpired (now : Nat)

/-- What is noted of a run. -/
inductive Event where
  /-- A registration of `key` sent the frame. -/
  | received (key : Bytes32) (frame : Frame)
  /-- `handle_introduce` recorded a knock. -/
  | introduced (requester target tag : Bytes32) (ttlS : UInt16) (recordedAt : Nat)
  /-- `handle_knock_answer` took the knock of `tag` out, for a registration of `key`. -/
  | answered (handler : Handler) (key tag : Bytes32) (accept : Bool)
  /-- `handle_knock_answer` created a session between `keyA`, which asked, and `keyB`. -/
  | opened (handler : Handler) (session : UInt32) (keyA keyB tag : Bytes32) (answeredAt : Nat)
      (aToBShaper bToAShaper : Nat)
  /-- A connection of `key` sent a `Relay` datagram. -/
  | relayed (key : Bytes32) (session : UInt32) (payload : Bytes)
  /-- A datagram was written onto a connection of `key`. -/
  | delivered (key : Bytes32) (datagram : Bytes)
deriving DecidableEq

/-- What one section reads from outside the gate. -/
structure Ambient where
  now : Nat
  /-- What the control stream gives, `none` where the read fails. -/
  frame : Option Frame := none
  /-- What the connection's datagrams give, `none` where the read fails or the task is
  aborted. -/
  datagram : Option Bytes := none
  /-- The random session ids, as far as they were drawn. -/
  sessionIds : List UInt32 := []
  /-- The write of a frame or a datagram succeeds. -/
  written : Bool := true

/-- What one section leaves: the state, what the handler does next, the tasks it
spawned, and what is noted. -/
structure Outcome (F : Type) where
  state : ServerState F
  next : Option Task
  spawned : List (Handler × Task) := []
  event : Option Event := none

section Sections

variable {F : Type} [F64 F]

/-! ### The control loop -/

/-- The write of `Registered`. A failed one returns from `handle_primary_connection` at
once: the registration stays seated, and nobody takes its frames. -/
def register (state : ServerState F) (registration : Registration) (ambient : Ambient) :
    Outcome F :=
  let cells := state.cells registration.id
  if ambient.written then
    { state
      next := some (.controlLoop registration)
      spawned := [(.relay registration.id, .relayLoop registration),
        (.writer registration.id, .writer registration)] }
  else
    { state := state.setCells registration { cells with frameTx := [], frameTxOpen := false }
      next := none }

/-- The arm of `control_loop` that takes the frame. `Goodbye` and a frame no house
sends here both end the loop. -/
def dispatch (registration : Registration) : Frame → Task
  | .keepalive _ => .keepalive registration
  | .introduce _ tag ttlS sealedBytes => .introduce registration tag ttlS sealedBytes
  | .knockAnswer _ tag accept => .answer registration tag accept
  | .startRequest _ session => .startRequest registration session
  | _ => .teardown registration.key registration none

/-- `control_loop`, one read and its frame rate. -/
def controlLoop (state : ServerState F) (registration : Registration) (ambient : Ambient) :
    Outcome F :=
  match ambient.frame with
  | none => { state, next := some (.teardown registration.key registration none) }
  | some frame =>
    let cells := state.cells registration.id
    let charged := cells.frameRate.tryTake ambient.now
    let state := state.setCells registration { cells with frameRate := charged.1 }
    let event := some (.received registration.key frame)
    if charged.2 then { state, next := some (dispatch registration frame), event }
    else
      let state := state.count fun counters =>
        { counters with frameRateLimited := counters.frameRateLimited + 1 }
      let limited := Frame.error 1 errorRateLimited "frame rate limit exceeded"
      { state := sendFrame state registration limited
        next := some (.controlLoop registration)
        event }

/-- The `Keepalive` arm of `control_loop`. -/
def keepalive (state : ServerState F) (registration : Registration) (now : Nat) : Outcome F :=
  let cells := state.cells registration.id
  let charged := cells.keepaliveRate.tryTake now
  let cells := { cells with keepaliveRate := charged.1 }
  let next := some (.controlLoop registration)
  if charged.2 then
    let state := state.setCells registration { cells with lastKeepalive := now }
    let ack := Frame.keepaliveAck 1 (Addr.fromSocketAddr registration.observed)
    { state := sendFrame state registration ack, next }
  else
    let state := (state.setCells registration cells).count fun counters =>
      { counters with keepaliveRateLimited := counters.keepaliveRateLimited + 1 }
    let limited := Frame.error 1 errorRateLimited "keepalive rate limit exceeded"
    { state := sendFrame state registration limited, next }

/-! ### `handle_introduce` -/

/-- `minute.try_take()` and `hour.try_take()`. The hour is charged only where the minute
was. -/
def takeBoth (minute hour : RateLimiter F) (now : Nat) :
    (RateLimiter F × RateLimiter F) × Bool :=
  let minute := minute.tryTake now
  if minute.2 then
    let hour := hour.tryTake now
    ((minute.1, hour.1), hour.2)
  else ((minute.1, hour), false)

/-- The rate limits. -/
def introduce (state : ServerState F) (registration : Registration) (tag : Bytes32)
    (ttlS : UInt16) (sealedBytes : Bytes) (now : Nat) : Outcome F :=
  let ttlS := min ttlS limits.introduceTtlCapS
  let cells := state.cells registration.id
  let taken := takeBoth cells.introduceMin cells.introduceHour now
  let state := state.setCells registration
    { cells with introduceMin := taken.1.1, introduceHour := taken.1.2 }
  if taken.2 then { state, next := some (.introduceTarget registration tag ttlS sealedBytes) }
  else
    let limited := Frame.error 1 errorRateLimited "introduce rate limit exceeded"
    { state := sendFrame state registration limited, next := some (.controlLoop registration) }

/-- The search for the target's key, among the registered ones. -/
def introduceTarget (crypto : Crypto) (state : ServerState F) (registration : Registration)
    (tag : Bytes32) (ttlS : UInt16) (sealedBytes : Bytes) : Outcome F :=
  match state.registrations.keys.find? fun candidate =>
    candidate != registration.key && state.pairTag crypto registration.key candidate == tag with
  | none => { state, next := some (.controlLoop registration) }
  | some targetKey =>
    { state, next := some (.introduceSeat registration tag ttlS sealedBytes targetKey) }

/-- The lookup of the target's connection. -/
def introduceSeat (state : ServerState F) (registration : Registration) (tag : Bytes32)
    (ttlS : UInt16) (sealedBytes : Bytes) (targetKey : Bytes32) : Outcome F :=
  match state.lastOf targetKey with
  | none => { state, next := some (.controlLoop registration) }
  | some target =>
    { state, next := some (.introduceRecord registration tag ttlS sealedBytes targetKey target) }

/-- The insertion into `knocks`. -/
def introduceRecord (state : ServerState F) (registration : Registration) (tag : Bytes32)
    (ttlS : UInt16) (sealedBytes : Bytes) (targetKey : Bytes32) (target : Registration)
    (now : Nat) : Outcome F where
  state := { state with
    knocks := state.knocks.put tag
      ⟨registration.key, targetKey, now + fromSecs ttlS.toNat⟩ }
  next := some (.introduceSend registration tag ttlS sealedBytes target)
  event := some (.introduced registration.key targetKey tag ttlS now)

/-- The forwarding of the knock. -/
def introduceSend (state : ServerState F) (registration : Registration) (tag : Bytes32)
    (ttlS : UInt16) (sealedBytes : Bytes) (target : Registration) : Outcome F where
  state := sendFrame state target (.knock 1 tag ttlS sealedBytes)
  next := some (.controlLoop registration)

/-! ### `handle_knock_answer` -/

/-- The section under `knocks`. -/
def answer (state : ServerState F) (handler : Handler) (registration : Registration)
    (tag : Bytes32) (accept : Bool) : Outcome F :=
  match state.knocks.lookup tag with
  | none => { state, next := some (.controlLoop registration) }
  | some knock =>
    if knock.target = registration.key then
      { state := { state with knocks := state.knocks.erase tag }
        next := some (.answerCheck registration tag accept knock)
        event := some (.answered handler registration.key tag accept) }
    else
      { state := state.count fun counters =>
          { counters with knockAnsweredByWrongTarget := counters.knockAnsweredByWrongTarget + 1 }
        next := some (.controlLoop registration) }

/-- The deadline and the decision, under no lock. -/
def answerCheck (state : ServerState F) (registration : Registration) (tag : Bytes32)
    (accept : Bool) (knock : KnockState) (now : Nat) : Outcome F :=
  if knock.deadline < now then { state, next := some (.controlLoop registration) }
  else if !accept then { state, next := some (.controlLoop registration) }
  else { state, next := some (.answerOpen registration tag knock now) }

/-- The insertion into `sessions`, with a shaper for each direction. -/
def openSession (state : ServerState F) (handler : Handler) (registration : Registration)
    (tag : Bytes32) (knock : KnockState) (answeredAt : Nat) (session : UInt32)
    (requester target : Registration) (now : Nat) : Outcome F :=
  let aToBShaper := state.allocated
  let bToAShaper := state.allocated + 1
  let opened : SessionState F :=
    { keyA := knock.requester
      keyB := knock.target
      startRequests := 0
      openedAt := now
      aToB := .new now
      bToA := .new now
      aToBShaper
      bToAShaper }
  let state := (state.setShaper aToBShaper (.gate now)).setShaper bToAShaper (.gate now)
  { state := { state with
      sessions := state.sessions.put session opened, allocated := state.allocated + 2 }
    next := some
      (.answerNote registration tag knock session requester target aToBShaper bToAShaper)
    event := some (.opened handler session knock.requester knock.target tag answeredAt aToBShaper
      bToAShaper) }

/-- The creation of the session, under `registrations` and `sessions`. Where every id
drawn so far is taken, it is still drawing. -/
def answerOpen (state : ServerState F) (handler : Handler) (registration : Registration)
    (tag : Bytes32) (knock : KnockState) (answeredAt : Nat) (ambient : Ambient) : Outcome F :=
  match state.lastOf knock.requester with
  | none => { state, next := some (.controlLoop registration) }
  | some requester =>
  match state.lastOf knock.target with
  | none => { state, next := some (.controlLoop registration) }
  | some target =>
    if limits.maxSessionsPerRegistration ≤ (state.cells requester.id).sessions.entries.length ∨
        limits.maxSessionsPerRegistration ≤ (state.cells target.id).sessions.entries.length then
      { state, next := some (.controlLoop registration) }
    else
      match ambient.sessionIds.find? fun session => (state.sessions.lookup session).isNone with
      | none => { state, next := some (.answerOpen registration tag knock answeredAt) }
      | some session =>
        openSession state handler registration tag knock answeredAt session requester target
          ambient.now

/-- `registration.sessions.insert(session)`. -/
def ServerState.noteSession (state : ServerState F) (registration : Registration)
    (session : UInt32) : ServerState F :=
  let cells := state.cells registration.id
  state.setCells registration { cells with sessions := cells.sessions.put session () }

/-- The two drain tasks, the ids and the introductions, still under `registrations`. -/
def answerNote (state : ServerState F) (registration : Registration) (tag : Bytes32)
    (knock : KnockState) (session : UInt32) (requester target : Registration)
    (aToBShaper bToAShaper : Nat) : Outcome F :=
  let state := (state.noteSession requester session).noteSession target session
  let state := sendFrame state requester
    (.introduction 1 tag session (Addr.fromSocketAddr target.observed) 1)
  { state := sendFrame state target
      (.introduction 1 tag session (Addr.fromSocketAddr requester.observed) 2)
    next := some (.controlLoop registration)
    spawned := [(.drain aToBShaper, .drain session knock.target aToBShaper),
      (.drain bToAShaper, .drain session knock.requester bToAShaper)] }

/-! ### `handle_start_request` -/

/-- The section under `sessions`. -/
def startRequest (state : ServerState F) (registration : Registration) (session : UInt32)
    (now : Nat) : Outcome F :=
  let next := some (.controlLoop registration)
  match state.sessions.lookup session with
  | none =>
    { state := state.count fun counters =>
        { counters with startRequestUnknownSession := counters.startRequestUnknownSession + 1 }
      next }
  | some found =>
    if found.keyA ≠ registration.key ∧ found.keyB ≠ registration.key then
      { state := state.count fun counters =>
          { counters with startRequestWrongSender := counters.startRequestWrongSender + 1 }
        next }
    else
      let gateMs := UInt64.ofNat (min (asMillis (now - found.openedAt)) (2 ^ 64 - 1))
      let requested := { found with startRequests := found.startRequests + 1 }
      let state := { state with sessions := state.sessions.put session requested }
      if limits.startRequestsPerSession ≤ found.startRequests then
        { state := state.count fun counters =>
            { counters with startRequestsIgnored := counters.startRequestsIgnored + 1 }
          next }
      else { state, next := some (.startSend registration session found.keyA found.keyB gateMs) }

/-- The two starts, under `registrations`. -/
def startSend (state : ServerState F) (registration : Registration) (session : UInt32)
    (keyA keyB : Bytes32) (gateMs : UInt64) : Outcome F where
  state := [keyA, keyB].foldl (fun state key =>
    match state.lastOf key with
    | none => state
    | some target => sendFrame state target (.start 1 session limits.startFireInMs gateMs)) state
  next := some (.controlLoop registration)

/-! ### `teardown_registration` -/

/-- What follows a teardown: the end of a connection's handler, or the rest of a sweep. -/
def afterTeardown : Option (List (Bytes32 × Registration)) → Option Task
  | none => none
  | some [] => some .sweepLoop
  | some ((key, registration) :: later) => some (.teardown key registration (some later))

/-- The first section under `registrations`. -/
def teardown (state : ServerState F) (peerKey : Bytes32) (registration : Registration)
    (later : Option (List (Bytes32 × Registration))) : Outcome F :=
  let next := some (.teardownIds peerKey registration later)
  match state.registrations.lookup peerKey with
  | none => { state, next }
  | some list =>
    let kept := list.filter fun other => other.id != registration.id
    let registrations :=
      if kept.isEmpty then state.registrations.erase peerKey
      else state.registrations.put peerKey kept
    { state := { state with registrations }, next }

/-- The reading of `registration.sessions`. -/
def teardownIds (state : ServerState F) (peerKey : Bytes32) (registration : Registration)
    (later : Option (List (Bytes32 × Registration))) : Outcome F :=
  let sessionIds := (state.cells registration.id).sessions.keys
  if sessionIds.isEmpty then { state, next := afterTeardown later }
  else { state, next := some (.teardownSessions peerKey sessionIds later) }

/-- One round of the loop under `sessions`. -/
def removeSession (peerKey : Bytes32) (before : ServerState F × List (Bytes32 × UInt32))
    (id : UInt32) : ServerState F × List (Bytes32 × UInt32) :=
  match before.1.sessions.lookup id with
  | none => before
  | some session =>
    let state := { before.1 with sessions := before.1.sessions.erase id }
    let otherKey := if session.keyA = peerKey then session.keyB else session.keyA
    (state.closeShapers session, before.2 ++ [(otherKey, id)])

/-- The section under `sessions`. Nobody looks into the table while it lasts, so a
datagram that still finds an open shaper is queued as if before it. -/
def teardownSessions (state : ServerState F) (peerKey : Bytes32) (sessionIds : List UInt32)
    (later : Option (List (Bytes32 × Registration))) : Outcome F :=
  let after := sessionIds.foldl (removeSession peerKey) (state, [])
  if after.2.isEmpty then { state := after.1, next := afterTeardown later }
  else { state := after.1, next := some (.teardownOrphans after.2 later) }

/-- One orphan: the id leaves every registration of the other key. -/
def removeOrphan (state : ServerState F) (orphan : Bytes32 × UInt32) : ServerState F :=
  ((state.registrations.lookup orphan.1).getD []).foldl (fun state registration =>
    let cells := state.cells registration.id
    state.setCells registration { cells with sessions := cells.sessions.erase orphan.2 }) state

/-- The last section, under `registrations`. -/
def teardownOrphans (state : ServerState F) (orphaned : List (Bytes32 × UInt32))
    (later : Option (List (Bytes32 × Registration))) : Outcome F where
  state := orphaned.foldl removeOrphan state
  next := afterTeardown later

/-! ### `forward_relay` -/

/-- One read of the datagram task. -/
def relayLoop (state : ServerState F) (registration : Registration) (ambient : Ambient) :
    Outcome F :=
  match ambient.datagram with
  | none => { state, next := none }
  | some datagram =>
    match decodeRelay datagram with
    | .ok (session, payload) =>
      { state
        next := some (.forward registration session payload)
        event := some (.relayed registration.key session payload) }
    | .error _ =>
      { state := state.count fun counters =>
          { counters with relayOversizedDropped := counters.relayOversizedDropped + 1 }
        next := some (.relayLoop registration) }

/-- `Verdict::NotOurs`. -/
def notOurs (state : ServerState F) (registration : Registration) : Outcome F where
  state := state.count fun counters =>
    { counters with relaySenderMismatch := counters.relaySenderMismatch + 1 }
  next := some (.relayLoop registration)

/-- What follows a charge: `Verdict::Queue` with what it needs, or `Verdict::OverVolume`. -/
def afterCharge (state : ServerState F) (registration : Registration) (session : UInt32)
    (payload : Bytes) (shaper : Nat) (allowed : Bool) : Outcome F :=
  let next := some (.relayLoop registration)
  if allowed then
    match encodeRelay session payload with
    | .ok encoded => { state, next := some (.enqueue registration session payload shaper encoded) }
    | .error _ =>
      { state := state.count fun counters =>
          { counters with relayOversizedDropped := counters.relayOversizedDropped + 1 }
        next }
  else
    { state := state.count fun counters =>
        { counters with relayRateLimited := counters.relayRateLimited + 1 }
      next }

/-- The charge to the budget of what `key_a` sends. -/
def SessionState.chargeAToB (session : SessionState F) (payload : Bytes) (now : Nat) :
    SessionState F × Bool :=
  let charged := session.aToB.bytes.tryTakeN (F64.ofNat payload.length) now
  ({ session with aToB := ⟨charged.1⟩ }, charged.2)

/-- The charge to the budget of what `key_b` sends. -/
def SessionState.chargeBToA (session : SessionState F) (payload : Bytes) (now : Nat) :
    SessionState F × Bool :=
  let charged := session.bToA.bytes.tryTakeN (F64.ofNat payload.length) now
  ({ session with bToA := ⟨charged.1⟩ }, charged.2)

/-- The section under `sessions`: the direction by the sender's key, and its charge. -/
def forward (state : ServerState F) (registration : Registration) (session : UInt32)
    (payload : Bytes) (now : Nat) : Outcome F :=
  match state.sessions.lookup session with
  | none => notOurs state registration
  | some found =>
    if found.keyA = registration.key then
      let charged := found.chargeAToB payload now
      afterCharge { state with sessions := state.sessions.put session charged.1 } registration
        session payload found.aToBShaper charged.2
    else if found.keyB = registration.key then
      let charged := found.chargeBToA payload now
      afterCharge { state with sessions := state.sessions.put session charged.1 } registration
        session payload found.bToAShaper charged.2
    else notOurs state registration

/-- The queueing, under the shaper's own lock. A closed shaper is not counted. -/
def enqueue (state : ServerState F) (registration : Registration) (shaper : Nat)
    (encoded : Bytes) (now : Nat) : Outcome F :=
  let queued := (state.shapers shaper).enqueueOrDrop encoded now
  let state := state.setShaper shaper queued.1
  let next := some (.relayLoop registration)
  match queued.2 with
  | .full =>
    { state := state.count fun counters =>
        { counters with relayDroppedAtFull := counters.relayDroppedAtFull + 1 }
      next }
  | .accepted => { state, next }
  | .closed => { state, next }

/-! ### The writer and the drains -/

/-- One round of the writer task. A failed write drops the receiving end, and so does
the abort of the task. -/
def writer (state : ServerState F) (registration : Registration) (ambient : Ambient) :
    Outcome F :=
  let cells := state.cells registration.id
  if ambient.written then
    { state := state.setCells registration { cells with frameTx := cells.frameTx.tail }
      next := some (.writer registration) }
  else
    { state := state.setCells registration { cells with frameTx := [], frameTxOpen := false }
      next := none }

/-- One pass of `drain`. -/
def drain (state : ServerState F) (session : UInt32) (destinationKey : Bytes32) (shaper : Nat)
    (now : Nat) : Outcome F :=
  let passed := (state.shapers shaper).drainPass now
  let state := state.setShaper shaper passed.1
  match passed.2 with
  | .closed => { state, next := none }
  | .ready payloads => { state, next := some (.drainCheck session destinationKey shaper payloads) }
  | .sleep => { state, next := some (.drain session destinationKey shaper) }
  | .idle => { state, next := some (.drain session destinationKey shaper) }

/-- The second look at the session table. -/
def drainCheck (state : ServerState F) (session : UInt32) (destinationKey : Bytes32)
    (shaper : Nat) (payloads : List Bytes) : Outcome F where
  state := state
  next :=
    if (state.sessions.lookup session).isSome then
      some (.drainSeat session destinationKey shaper payloads)
    else none

/-- The lookup of the destination's connection. -/
def drainSeat (state : ServerState F) (session : UInt32) (destinationKey : Bytes32)
    (shaper : Nat) (payloads : List Bytes) : Outcome F where
  state := state
  next := (state.lastOf destinationKey).map fun destination =>
    .drainSend session destinationKey shaper destination payloads

/-- One `send_datagram_wait`. -/
def drainSend (state : ServerState F) (session : UInt32) (destinationKey : Bytes32)
    (shaper : Nat) (destination : Registration) (payloads : List Bytes) (ambient : Ambient) :
    Outcome F :=
  match payloads with
  | [] => { state, next := some (.drain session destinationKey shaper) }
  | payload :: rest =>
    if ambient.written then
      { state
        next := some (.drainSend session destinationKey shaper destination rest)
        event := some (.delivered destination.key payload) }
    else { state, next := none }

/-! ### `sweep_once` -/

/-- The section under `knocks`. -/
def sweepKnocks (state : ServerState F) (now : Nat) : Outcome F where
  state := { state with knocks := state.knocks.retain fun _ knock => now < knock.deadline }
  next := some (.sweepExpired now)

/-- The collection of what is silent past its time. -/
def sweepExpired (state : ServerState F) (now : Nat) : Outcome F where
  state := state
  next := afterTeardown (some (state.registrations.entries.flatMap fun entry =>
    (entry.2.filter fun registration =>
      limits.registrationTtl < now - (state.cells registration.id).lastKeepalive).map fun
        registration => (entry.1, registration)))

/-! ### Every section -/

/-- One section of the handler. -/
def Task.run (crypto : Crypto) (state : ServerState F) (handler : Handler) (ambient : Ambient) :
    Task → Outcome F
  | .register registration => Server.register state registration ambient
  | .controlLoop registration => Server.controlLoop state registration ambient
  | .keepalive registration => Server.keepalive state registration ambient.now
  | .introduce registration tag ttlS sealedBytes =>
      Server.introduce state registration tag ttlS sealedBytes ambient.now
  | .introduceTarget registration tag ttlS sealedBytes =>
      Server.introduceTarget crypto state registration tag ttlS sealedBytes
  | .introduceSeat registration tag ttlS sealedBytes targetKey =>
      Server.introduceSeat state registration tag ttlS sealedBytes targetKey
  | .introduceRecord registration tag ttlS sealedBytes targetKey target =>
      Server.introduceRecord state registration tag ttlS sealedBytes targetKey target ambient.now
  | .introduceSend registration tag ttlS sealedBytes target =>
      Server.introduceSend state registration tag ttlS sealedBytes target
  | .answer registration tag accept => Server.answer state handler registration tag accept
  | .answerCheck registration tag accept knock =>
      Server.answerCheck state registration tag accept knock ambient.now
  | .answerOpen registration tag knock answeredAt =>
      Server.answerOpen state handler registration tag knock answeredAt ambient
  | .answerNote registration tag knock session requester target aToBShaper bToAShaper =>
      Server.answerNote state registration tag knock session requester target aToBShaper bToAShaper
  | .startRequest registration session =>
      Server.startRequest state registration session ambient.now
  | .startSend registration session keyA keyB gateMs =>
      Server.startSend state registration session keyA keyB gateMs
  | .teardown peerKey registration later => Server.teardown state peerKey registration later
  | .teardownIds peerKey registration later => Server.teardownIds state peerKey registration later
  | .teardownSessions peerKey sessionIds later =>
      Server.teardownSessions state peerKey sessionIds later
  | .teardownOrphans orphaned later => Server.teardownOrphans state orphaned later
  | .relayLoop registration => Server.relayLoop state registration ambient
  | .forward registration session payload =>
      Server.forward state registration session payload ambient.now
  | .enqueue registration _ _ shaper encoded =>
      Server.enqueue state registration shaper encoded ambient.now
  | .writer registration => Server.writer state registration ambient
  | .drain session destinationKey shaper =>
      Server.drain state session destinationKey shaper ambient.now
  | .drainCheck session destinationKey shaper payloads =>
      Server.drainCheck state session destinationKey shaper payloads
  | .drainSeat session destinationKey shaper payloads =>
      Server.drainSeat state session destinationKey shaper payloads
  | .drainSend session destinationKey shaper destination payloads =>
      Server.drainSend state session destinationKey shaper destination payloads ambient
  | .sweepLoop => { state, next := some (.sweepKnocks ambient.now) }
  | .sweepKnocks now => Server.sweepKnocks state now
  | .sweepExpired now => Server.sweepExpired state now

/-- The section takes the lock of `registrations`. -/
def Task.takesRegistrations : Task → Bool
  | .introduceTarget .. | .introduceSeat .. | .answerOpen .. | .startSend .. | .teardown ..
  | .teardownOrphans .. | .drainSeat .. | .sweepExpired .. => true
  | _ => false

/-- The handler came to the section with the lock of `registrations`. -/
def Task.holdsRegistrations : Task → Bool
  | .answerNote .. => true
  | _ => false

end Sections

/-! ## What the sections leave alone -/

section Kept

variable {F : Type}

/-- No registration is listed that was not. -/
def RegistrationsWithin (before after : ServerState F) : Prop :=
  ∀ key list, after.registrations.lookup key = some list →
    ∃ old, before.registrations.lookup key = some old ∧ list ⊆ old

theorem RegistrationsWithin.of_eq {before after : ServerState F}
    (registrations : after.registrations = before.registrations) :
    RegistrationsWithin before after := by
  intro key list found
  rw [registrations] at found
  exact ⟨list, found, List.Subset.refl list⟩

theorem RegistrationsWithin.trans {first second third : ServerState F}
    (left : RegistrationsWithin first second) (right : RegistrationsWithin second third) :
    RegistrationsWithin first third := by
  intro key list found
  obtain ⟨middle, inMiddle, inside⟩ := right key list found
  obtain ⟨old, inFirst, alsoInside⟩ := left key middle inMiddle
  exact ⟨old, inFirst, List.Subset.trans inside alsoInside⟩

/-- The knocks, the sessions and the shapers are as before, and no registration is new. -/
structure Kept (before after : ServerState F) : Prop where
  community : after.community = before.community
  knocks : after.knocks = before.knocks
  sessions : after.sessions = before.sessions
  shapers : after.shapers = before.shapers
  allocated : after.allocated = before.allocated
  registrations : RegistrationsWithin before after

theorem Kept.refl (state : ServerState F) : Kept state state :=
  ⟨rfl, rfl, rfl, rfl, rfl, .of_eq rfl⟩

theorem Kept.trans {first second third : ServerState F} (left : Kept first second)
    (right : Kept second third) : Kept first third where
  community := right.community.trans left.community
  knocks := right.knocks.trans left.knocks
  sessions := right.sessions.trans left.sessions
  shapers := right.shapers.trans left.shapers
  allocated := right.allocated.trans left.allocated
  registrations := left.registrations.trans right.registrations

theorem kept_count (state : ServerState F) (bump : ServerCounters → ServerCounters) :
    Kept state (state.count bump) := ⟨rfl, rfl, rfl, rfl, rfl, .of_eq rfl⟩

theorem kept_setCells (state : ServerState F) (registration : Registration)
    (cells : RegistrationCells F) : Kept state (state.setCells registration cells) :=
  ⟨rfl, rfl, rfl, rfl, rfl, .of_eq rfl⟩

theorem kept_sendFrame (state : ServerState F) (registration : Registration) (frame : Frame) :
    Kept state (sendFrame state registration frame) := by
  unfold sendFrame
  simp only
  split
  · exact kept_setCells state registration _
  · exact kept_count state _

/-- A loop whose rounds keep the tables keeps them. -/
theorem kept_foldl {α : Type} {round : ServerState F → α → ServerState F}
    (kept : ∀ state item, Kept state (round state item)) (state : ServerState F)
    (items : List α) : Kept state (items.foldl round state) := by
  induction items generalizing state with
  | nil => exact Kept.refl state
  | cons item rest ih =>
      exact (kept state item).trans (ih (round state item))

theorem kept_removeOrphan (state : ServerState F) (orphan : Bytes32 × UInt32) :
    Kept state (removeOrphan state orphan) := by
  apply kept_foldl
  intro state registration
  exact kept_setCells state registration _

theorem kept_answerNote (state : ServerState F) (registration : Registration) (tag : Bytes32)
    (knock : KnockState) (session : UInt32) (requester target : Registration)
    (aToBShaper bToAShaper : Nat) :
    Kept state (answerNote state registration tag knock session requester target aToBShaper
      bToAShaper).state := by
  unfold answerNote
  simp only
  apply Kept.trans _ (kept_sendFrame _ target _)
  apply Kept.trans _ (kept_sendFrame _ requester _)
  exact (kept_setCells state requester _).trans (kept_setCells _ target _)

theorem kept_startSend (state : ServerState F) (registration : Registration) (session : UInt32)
    (keyA keyB : Bytes32) (gateMs : UInt64) :
    Kept state (startSend state registration session keyA keyB gateMs).state := by
  apply kept_foldl
  intro state key
  split
  · exact Kept.refl state
  · exact kept_sendFrame state _ _

theorem kept_teardown (state : ServerState F) (peerKey : Bytes32) (registration : Registration)
    (later : Option (List (Bytes32 × Registration))) :
    Kept state (teardown state peerKey registration later).state := by
  unfold teardown
  simp only
  split
  · exact Kept.refl state
  · next list isListed =>
      refine ⟨rfl, rfl, rfl, rfl, rfl, ?_⟩
      intro key kept found
      dsimp only at found
      split at found
      · rw [HashMap.lookup_erase] at found
        split at found
        · cases found
        · exact ⟨kept, found, List.Subset.refl kept⟩
      · rw [HashMap.lookup_put] at found
        split at found
        · next isPeer =>
            cases found
            rw [isPeer]
            exact ⟨list, isListed, List.filter_sublist.subset⟩
        · exact ⟨kept, found, List.Subset.refl kept⟩

theorem kept_writer (state : ServerState F) (registration : Registration) (ambient : Ambient) :
    Kept state (writer state registration ambient).state := by
  unfold writer
  simp only
  split
  · exact kept_setCells state registration _
  · exact kept_setCells state registration _

/-- What every removal of a session keeps, the whole loop keeps. -/
theorem foldl_removeSession (holds : ServerState F → Prop) {peerKey : Bytes32}
    (removed : ∀ state id found, state.sessions.lookup id = some found → holds state →
      holds ({ state with sessions := state.sessions.erase id }.closeShapers found))
    (ids : List UInt32) (before : ServerState F × List (Bytes32 × UInt32))
    (initial : holds before.1) : holds (ids.foldl (removeSession peerKey) before).1 := by
  induction ids generalizing before with
  | nil => exact initial
  | cons id rest ih =>
      apply ih
      unfold removeSession
      split
      · exact initial
      · next found isFound => exact removed before.1 id found isFound initial

theorem teardownSessions_state (state : ServerState F) (peerKey : Bytes32)
    (sessionIds : List UInt32) (later : Option (List (Bytes32 × Registration))) :
    (teardownSessions state peerKey sessionIds later).state =
      (sessionIds.foldl (removeSession peerKey) (state, [])).1 := by
  unfold teardownSessions
  simp only
  split <;> rfl

theorem kept_afterCharge (state : ServerState F) (registration : Registration)
    (session : UInt32) (payload : Bytes) (shaper : Nat) (allowed : Bool) :
    Kept state (afterCharge state registration session payload shaper allowed).state := by
  unfold afterCharge
  dsimp only
  split
  · split
    · exact Kept.refl state
    · dsimp only
      exact kept_count state _
  · dsimp only
    exact kept_count state _

section Charged

variable [F64 F]

/-- What `answerOpen` can do: end, draw again, or create a session under a free id. -/
inductive AnswerOpened (state : ServerState F) (handler : Handler) (registration : Registration)
    (tag : Bytes32) (knock : KnockState) (answeredAt : Nat) (ambient : Ambient) :
    Outcome F → Prop where
  | ended : AnswerOpened state handler registration tag knock answeredAt ambient
      { state, next := some (.controlLoop registration) }
  | drawing : AnswerOpened state handler registration tag knock answeredAt ambient
      { state, next := some (.answerOpen registration tag knock answeredAt) }
  | created (session : UInt32) (requester target : Registration)
      (isFree : state.sessions.lookup session = none)
      (isDrawn : (ambient.sessionIds.find? fun session =>
        (state.sessions.lookup session).isNone) = some session)
      (isRequester : state.lastOf knock.requester = some requester)
      (isTarget : state.lastOf knock.target = some target)
      (requesterRoom : (state.cells requester.id).sessions.entries.length <
        limits.maxSessionsPerRegistration)
      (targetRoom : (state.cells target.id).sessions.entries.length <
        limits.maxSessionsPerRegistration) :
      AnswerOpened state handler registration tag knock answeredAt ambient
        (openSession state handler registration tag knock answeredAt session requester target
          ambient.now)

theorem answerOpened_answerOpen (state : ServerState F) (handler : Handler)
    (registration : Registration) (tag : Bytes32) (knock : KnockState) (answeredAt : Nat)
    (ambient : Ambient) :
    AnswerOpened state handler registration tag knock answeredAt ambient
      (answerOpen state handler registration tag knock answeredAt ambient) := by
  unfold answerOpen
  split
  · exact .ended
  · next requester isRequester =>
      split
      · exact .ended
      · next target isTarget =>
          split
          · exact .ended
          · next room =>
              rw [not_or, Nat.not_le, Nat.not_le] at room
              split
              · exact .drawing
              · next session drawn =>
                  have isFree := List.find?_some drawn
                  exact .created session requester target (Option.isNone_iff_eq_none.mp isFree)
                    drawn isRequester isTarget room.1 room.2

/-- What `forward` can do: drop what is not the sender's, or charge one direction. -/
inductive Forwarded (state : ServerState F) (registration : Registration) (session : UInt32)
    (payload : Bytes) (now : Nat) : Outcome F → Prop where
  | refused
      (stranger : ∀ found, state.sessions.lookup session = some found →
        found.keyA ≠ registration.key ∧ found.keyB ≠ registration.key) :
      Forwarded state registration session payload now (notOurs state registration)
  | aToB (found : SessionState F) (isFound : state.sessions.lookup session = some found)
      (sender : found.keyA = registration.key) :
      Forwarded state registration session payload now
        (afterCharge
          { state with sessions := state.sessions.put session (found.chargeAToB payload now).1 }
          registration session payload found.aToBShaper (found.chargeAToB payload now).2)
  | bToA (found : SessionState F) (isFound : state.sessions.lookup session = some found)
      (other : found.keyA ≠ registration.key) (sender : found.keyB = registration.key) :
      Forwarded state registration session payload now
        (afterCharge
          { state with sessions := state.sessions.put session (found.chargeBToA payload now).1 }
          registration session payload found.bToAShaper (found.chargeBToA payload now).2)

theorem forwarded_forward (state : ServerState F) (registration : Registration)
    (session : UInt32) (payload : Bytes) (now : Nat) :
    Forwarded state registration session payload now
      (forward state registration session payload now) := by
  unfold forward
  split
  · next absent =>
      apply Forwarded.refused
      intro found isFound
      rw [absent] at isFound
      cases isFound
  · next found isFound =>
      split
      · next sender => exact .aToB found isFound sender
      · next other =>
          split
          · next sender => exact .bToA found isFound other sender
          · next alsoOther =>
              apply Forwarded.refused
              intro again isAgain
              rw [isFound] at isAgain
              cases isAgain
              exact ⟨other, alsoOther⟩

omit [F64 F] in
theorem kept_register (state : ServerState F) (registration : Registration)
    (ambient : Ambient) : Kept state (register state registration ambient).state := by
  unfold register
  dsimp only
  split
  · exact Kept.refl state
  · exact kept_setCells state registration _

theorem kept_controlLoop (state : ServerState F) (registration : Registration)
    (ambient : Ambient) : Kept state (controlLoop state registration ambient).state := by
  unfold controlLoop
  split
  · exact Kept.refl state
  · simp only
    split
    · exact kept_setCells state registration _
    · apply Kept.trans _ (kept_sendFrame _ registration _)
      exact (kept_setCells state registration _).trans (kept_count _ _)

theorem kept_keepalive (state : ServerState F) (registration : Registration) (now : Nat) :
    Kept state (keepalive state registration now).state := by
  unfold keepalive
  simp only
  split
  · exact (kept_setCells state registration _).trans (kept_sendFrame _ registration _)
  · apply Kept.trans _ (kept_sendFrame _ registration _)
    exact (kept_setCells state registration _).trans (kept_count _ _)

theorem kept_introduce (state : ServerState F) (registration : Registration) (tag : Bytes32)
    (ttlS : UInt16) (sealedBytes : Bytes) (now : Nat) :
    Kept state (introduce state registration tag ttlS sealedBytes now).state := by
  unfold introduce
  simp only
  split
  · exact kept_setCells state registration _
  · exact (kept_setCells state registration _).trans (kept_sendFrame _ registration _)

/-- The sections that write to the knocks, the sessions or a shaper. -/
def Task.writesTables : Task → Bool
  | .introduceRecord .. | .answer .. | .answerOpen .. | .startRequest .. | .teardownSessions ..
  | .forward .. | .enqueue .. | .drain .. | .sweepKnocks .. => true
  | _ => false

/-- Every other section keeps them. -/
theorem kept_run (crypto : Crypto) (state : ServerState F) (handler : Handler)
    (ambient : Ambient) {task : Task} (elsewhere : task.writesTables = false) :
    Kept state (task.run crypto state handler ambient).state := by
  cases task with
  | register registration => exact kept_register state registration ambient
  | controlLoop registration => exact kept_controlLoop state registration ambient
  | keepalive registration => exact kept_keepalive state registration ambient.now
  | introduce registration tag ttlS sealedBytes =>
      exact kept_introduce state registration tag ttlS sealedBytes ambient.now
  | introduceTarget registration tag ttlS sealedBytes =>
      show Kept state (introduceTarget crypto state registration tag ttlS sealedBytes).state
      unfold introduceTarget
      split <;> exact Kept.refl state
  | introduceSeat registration tag ttlS sealedBytes targetKey =>
      show Kept state (introduceSeat state registration tag ttlS sealedBytes targetKey).state
      unfold introduceSeat
      split <;> exact Kept.refl state
  | introduceSend registration tag ttlS sealedBytes target => exact kept_sendFrame state target _
  | answerCheck registration tag accept knock =>
      show Kept state (answerCheck state registration tag accept knock ambient.now).state
      unfold answerCheck
      split
      · exact Kept.refl state
      · split <;> exact Kept.refl state
  | answerNote registration tag knock session requester target aToBShaper bToAShaper =>
      exact kept_answerNote state registration tag knock session requester target aToBShaper
        bToAShaper
  | startSend registration session keyA keyB gateMs =>
      exact kept_startSend state registration session keyA keyB gateMs
  | teardown peerKey registration later => exact kept_teardown state peerKey registration later
  | teardownIds peerKey registration later =>
      show Kept state (teardownIds state peerKey registration later).state
      unfold teardownIds
      simp only
      split <;> exact Kept.refl state
  | teardownOrphans orphaned later => exact kept_foldl kept_removeOrphan state orphaned
  | relayLoop registration =>
      show Kept state (relayLoop state registration ambient).state
      unfold relayLoop
      split
      · exact Kept.refl state
      · split
        · exact Kept.refl state
        · dsimp only
          exact kept_count state _
  | writer registration => exact kept_writer state registration ambient
  | drainCheck session destinationKey shaper payloads => exact Kept.refl state
  | drainSeat session destinationKey shaper payloads => exact Kept.refl state
  | drainSend session destinationKey shaper destination payloads =>
      show Kept state
        (drainSend state session destinationKey shaper destination payloads ambient).state
      unfold drainSend
      split
      · exact Kept.refl state
      · split <;> exact Kept.refl state
  | sweepLoop => exact Kept.refl state
  | sweepExpired now => exact Kept.refl state
  | introduceRecord | answer | answerOpen | startRequest | teardownSessions | forward | enqueue
  | drain | sweepKnocks => cases elsewhere

end Charged

end Kept

/-! ## The gate as a whole -/

/-- The gate, what each of its handlers is at, and what was noted of the run so far. -/
structure World (F : Type) where
  gate : ServerState F
  tasks : HashMap Handler Task
  history : List Event

/-- What happens next. -/
inductive Action where
  /-- A connection comes to the seating of its registration. -/
  | connect (key : Bytes32) (observed : SocketAddr) (now : Nat)
  /-- A handler gets to run its next section. -/
  | resume (handler : Handler) (ambient : Ambient)

section Worlds

variable {F : Type} [F64 F]

/-- A gate that was just bound. -/
def World.bind (community : Bytes32) (capacity : Nat) : World F where
  gate := .bind community capacity
  tasks := (∅ : HashMap Handler Task).put .sweep .sweepLoop
  history := []

/-- Somebody holds the lock of `registrations` from one section to the next. -/
def World.registrationsHeld (world : World F) : Bool :=
  world.tasks.values.any Task.holdsRegistrations

/-- The seating of `handle_primary_connection`, under `registrations`. -/
def seat (state : ServerState F) (registration : Registration) : ServerState F × Bool :=
  match state.registrations.lookup registration.key with
  | none =>
    if state.capacity ≤ state.registrations.entries.length then
      (state.count fun counters =>
        { counters with
            registrationsRefusedAtCapacity := counters.registrationsRefusedAtCapacity + 1 }, false)
    else
      ({ state with
          registrations := state.registrations.put registration.key [registration] }, true)
  | some list =>
    if limits.maxConnectionsPerKey ≤ list.length then
      (state.count fun counters =>
        { counters with
            connectionsRefusedAtKeyCapacity := counters.connectionsRefusedAtKeyCapacity + 1 },
        false)
    else
      ({ state with
          registrations := state.registrations.put registration.key (list ++ [registration]) },
        true)

/-- `Arc::new(RegistrationInner { .. })`. -/
def makeRegistration (state : ServerState F) (key : Bytes32) (observed : SocketAddr)
    (now : Nat) : ServerState F × Registration :=
  let registration : Registration := ⟨state.allocated, key, observed⟩
  ({ state.setCells registration (.new now) with allocated := state.allocated + 1 }, registration)

/-- A connection's registration is made and seated, and its handler goes on to answer. -/
def World.connect (world : World F) (key : Bytes32) (observed : SocketAddr) (now : Nat) :
    World F :=
  let made := makeRegistration world.gate key observed now
  let registration := made.2
  let seated := seat made.1 registration
  if seated.2 then
    { world with
        gate := seated.1
        tasks := world.tasks.put (.control registration.id) (.register registration) }
  else { world with gate := seated.1 }

/-- One section's outcome becomes the gate's. -/
def World.commit (world : World F) (handler : Handler) (outcome : Outcome F) : World F where
  gate := outcome.state
  tasks := outcome.spawned.foldl (fun tasks spawned => tasks.put spawned.1 spawned.2)
    (match outcome.next with
    | none => world.tasks.erase handler
    | some task => world.tasks.put handler task)
  history := world.history ++ outcome.event.toList

/-- One action. A handler that is not there, or waits for a lock, does nothing. -/
def World.step (crypto : Crypto) (world : World F) : Action → World F
  | .connect key observed now =>
    if world.registrationsHeld then world else world.connect key observed now
  | .resume handler ambient =>
    match world.tasks.lookup handler with
    | none => world
    | some task =>
      if task.takesRegistrations && world.registrationsHeld then world
      else world.commit handler (task.run crypto world.gate handler ambient)

omit [F64 F] in
/-- A seating touches the registrations alone. -/
theorem seat_eq (state : ServerState F) (registration : Registration) :
    ∃ registrations counters,
      (seat state registration).1 = { state with registrations, counters } := by
  unfold seat
  split
  · split <;> exact ⟨_, _, rfl⟩
  · split <;> exact ⟨_, _, rfl⟩

theorem connect_gate (world : World F) (key : Bytes32) (observed : SocketAddr) (now : Nat) :
    ∃ registrations counters cells,
      (world.connect key observed now).gate =
        { world.gate with
            registrations, counters, cells, allocated := world.gate.allocated + 1 } := by
  obtain ⟨registrations, counters, seated⟩ := seat_eq
    (makeRegistration world.gate key observed now).1
    (makeRegistration world.gate key observed now).2
  refine ⟨registrations, counters, (makeRegistration world.gate key observed now).1.cells, ?_⟩
  unfold World.connect
  simp only
  split
  · exact seated
  · exact seated

theorem connect_history (world : World F) (key : Bytes32) (observed : SocketAddr) (now : Nat) :
    (world.connect key observed now).history = world.history := by
  unfold World.connect
  simp only
  split <;> rfl

/-- The handler of a new connection is at its answer. -/
theorem lookup_connect_tasks {world : World F} {key : Bytes32} {observed : SocketAddr}
    {now : Nat} {handler : Handler} {task : Task}
    (present : (world.connect key observed now).tasks.lookup handler = some task) :
    world.tasks.lookup handler = some task ∨
      task = .register (makeRegistration world.gate key observed now).2 := by
  unfold World.connect at present
  simp only at present
  split at present
  · dsimp only at present
    rw [HashMap.lookup_put] at present
    split at present
    · cases present
      exact Or.inr rfl
    · exact Or.inl present
  · exact Or.inl present

omit [F64 F] in
/-- After a section every handler is at what the section spawned, at what follows it, or
where it was. -/
theorem lookup_commit_tasks {world : World F} {handler other : Handler} {outcome : Outcome F}
    {task : Task} (present : (world.commit handler outcome).tasks.lookup other = some task) :
    (other, task) ∈ outcome.spawned ∨ (other = handler ∧ outcome.next = some task) ∨
      (other ≠ handler ∧ world.tasks.lookup other = some task) := by
  rcases HashMap.lookup_foldl_put present with isSpawned | before
  · exact Or.inl isSpawned
  · right
    split at before
    · rw [HashMap.lookup_erase] at before
      split at before
      · cases before
      · next apart => exact Or.inr ⟨apart, before⟩
    · next following isNext =>
        rw [HashMap.lookup_put] at before
        split at before
        · next isHandler =>
            cases before
            exact Or.inl ⟨isHandler, isNext⟩
        · next apart => exact Or.inr ⟨apart, before⟩

end Worlds

end Mosschat.Net.Gate.Server
