import Mosschat.Library.Semaphore
import Mosschat.Net.Gate.Attempts
import Mosschat.Net.Gate.Members
import Mosschat.Net.Gate.Wire

/-!
Owns what a connection to either port of the gate goes through before it is let in, from
`gate/server.rs`: the member list, the slots of pending handshakes, the attempt limits, the
frame it is to send first and the answers of the reflection port, with every task free to
stop between two steps.

Does not own the registrations, of which it is told whether they seat a connection.
-/

namespace Mosschat.Net.Gate.Admission

open Mosschat.Core Mosschat.Library Mosschat.Library.Machine

namespace limits

def maxPendingConnections : Nat := 2 * Gate.limits.maxRegistrations
def reflectPerConnection : UInt32 := 2

end limits

/-- How far the task of a connection is. -/
inductive Stage where
  /-- The handshake is done, and the key is proven. -/
  | handshaken
  /-- The key is not on the member list: `close_refused`. -/
  | unlisted
  /-- The key is on it. -/
  | listed
  /-- The loop of `PendingGuard::acquire`. -/
  | acquiring (current : UInt64)
  /-- No slot: `close_refused`. -/
  | turnedAway
  /-- It holds a `PendingGuard`, as it does up to `dropped`. -/
  | pending
  /-- The attempt was let through, and `Register` is awaited. -/
  | attempted
  /-- The registrations hold it, and `Registered` is being written. -/
  | seated
  | written
  /-- It ends before it is registered, by a close where there is a code. -/
  | closing (code : Option ErrorCode)
  | registered
  /-- On the reflection port, that many answers given. -/
  | reflecting (served : UInt32)
  | closed (code : Option ErrorCode)

/-- A connection whose handshake is done. -/
structure Connection where
  port : Port
  peerKey : Bytes32
  stage : Stage

/-- `ServerState`, what the tasks share of it before a registration is made. -/
structure Shared (F : Type) where
  community : Bytes32
  members : MemberList
  pendingHandshakes : UInt64
  attempts : AttemptLimiters F
  pendingConnectionsRefused : Nat
  secondaryAttemptsRateLimited : Nat
  reflectRateLimited : Nat
  now : Nat

/-- One step of the task of a connection. -/
inductive Move where
  | checks
  | loads
  /-- A turn of the loop. The exchange may fail on the value it expects. -/
  | exchanges (spurious : Bool)
  | charges
  /-- A frame, or none in time. The registrations have room for the connection or not. -/
  | reads (frame : Option Frame) (remote : SocketAddr) (seats : Bool)
  /-- `Registered` was written or not. -/
  | writes (done : Bool)
  /-- `PendingGuard::drop`. -/
  | drops

section Steps

variable {F : Type} [F64 F]

namespace Shared

/-- A turn of the loop of `PendingGuard::acquire`. -/
def acquire (shared : Shared F) (current : UInt64) (spurious : Bool) : Shared F × Stage :=
  if UInt64.ofNat limits.maxPendingConnections ≤ current then
    ({ shared with pendingConnectionsRefused := shared.pendingConnectionsRefused + 1 }, .turnedAway)
  else if shared.pendingHandshakes = current ∧ !spurious then
    ({ shared with pendingHandshakes := current + 1 }, .pending)
  else (shared, .acquiring shared.pendingHandshakes)

/-- The limiter of the key is charged. -/
def charged (shared : Shared F) (port : Port) (peerKey : Bytes32) : Shared F :=
  { shared with attempts := shared.attempts.step (.connects port peerKey shared.now) }

/-- The attempt is let through. -/
def allows (shared : Shared F) (port : Port) (peerKey : Bytes32) : Bool :=
  (shared.attempts.charge port peerKey shared.now).2

/-- The attempt limit of the primary port. -/
def attemptPrimary (shared : Shared F) (peerKey : Bytes32) : Shared F × Stage :=
  (shared.charged .primary peerKey,
    if shared.allows .primary peerKey then .attempted else .closing (some .rateLimited))

/-- The attempt limit of the secondary port. -/
def attemptSecondary (shared : Shared F) (peerKey : Bytes32) : Shared F × Stage :=
  if shared.allows .secondary peerKey then (shared.charged .secondary peerKey, .reflecting 0)
  else
    ({ shared.charged .secondary peerKey with
        secondaryAttemptsRateLimited := shared.secondaryAttemptsRateLimited + 1 },
      .closed (some .rateLimited))

/-- What `handle_primary_connection` makes of the first frame. -/
def register (shared : Shared F) (frame : Option Frame) (seats : Bool) : Stage :=
  match frame with
  | some (.register _ community) =>
    if community ≠ shared.community then .closing (some .refusedNotMember)
    else if seats then .seated else .closing (some .atCapacity)
  | _ => .closing none

/-- A turn of the loop of `handle_secondary_connection`. -/
def reflect (shared : Shared F) (served : UInt32) (frame : Option Frame) : Shared F × Stage :=
  match frame with
  | some (.reflect _) =>
    if limits.reflectPerConnection ≤ served then
      ({ shared with reflectRateLimited := shared.reflectRateLimited + 1 },
        .closed (some .rateLimited))
    else (shared, .reflecting (served + 1))
  | _ => (shared, .closed none)

/-- `PendingGuard::drop`. -/
def dropGuard (shared : Shared F) : Shared F :=
  { shared with pendingHandshakes := shared.pendingHandshakes - 1 }

/-- A step of `handle_primary_connection` or `handle_secondary_connection`. -/
def turn (shared : Shared F) (connection : Connection) (move : Move) : Shared F × Stage :=
  match connection.port, connection.stage, move with
  | _, .handshaken, .checks =>
    (shared, if shared.members.contains connection.peerKey then .listed else .unlisted)
  | .primary, .listed, .loads => (shared, .acquiring shared.pendingHandshakes)
  | .primary, .acquiring current, .exchanges spurious => shared.acquire current spurious
  | .primary, .pending, .charges => shared.attemptPrimary connection.peerKey
  | .primary, .attempted, .reads frame _ seats => (shared, shared.register frame seats)
  | .primary, .seated, .writes done => (shared, if done then .written else .closing none)
  | .primary, .written, .drops => (shared.dropGuard, .registered)
  | .primary, .closing code, .drops => (shared.dropGuard, .closed code)
  | .secondary, .listed, .charges => shared.attemptSecondary connection.peerKey
  | .secondary, .reflecting served, .reads frame _ _ => shared.reflect served frame
  | _, stage, _ => (shared, stage)

end Shared

/-- The gate, of what happens before a connection is let in. -/
structure Door (F : Type) where
  shared : Shared F
  connections : List Connection

/-- What happens at the door. -/
inductive Action where
  /-- A handshake is done. -/
  | connects (port : Port) (peerKey : Bytes32)
  | moves (connection : Nat) (move : Move)
  /-- `reload_members`, of the text of the file. -/
  | reloads (text : List Char)
  /-- `sweep_once`. -/
  | sweeps
  | passes (duration : Nat)

namespace Door

def bind (community : Bytes32) (members : MemberList) : Door F :=
  ⟨⟨community, members, 0, .new, 0, 0, 0, 0⟩, []⟩

/-- `reload_members`. -/
def reloadMembers (door : Door F) (text : List Char) : Door F :=
  match MemberList.load text with
  | .ok members => { door with shared := { door.shared with members := members } }
  | .error _ => door

/-- One step of one of the tasks. -/
def advance (door : Door F) (index : Nat) (connection : Connection) (move : Move) : Door F :=
  ⟨(door.shared.turn connection move).1,
    door.connections.set index { connection with stage := (door.shared.turn connection move).2 }⟩

def step (door : Door F) : Action → Door F
  | .connects port peerKey =>
    { door with connections := door.connections ++ [⟨port, peerKey, .handshaken⟩] }
  | .moves index move =>
    match door.connections[index]? with
    | some connection => door.advance index connection move
    | none => door
  | .reloads text => door.reloadMembers text
  | .sweeps =>
    { door with shared :=
      { door.shared with attempts := door.shared.attempts.step (.sweeps door.shared.now) } }
  | .passes duration =>
    { door with shared := { door.shared with now := door.shared.now + duration } }

end Door

end Steps

/-! ## The slots -/

/-- Where the connection stands with the slots. -/
def Stage.phase : Stage → SlotPhase
  | .acquiring current => .attempting current.toNat
  | .pending | .attempted | .seated | .written | .closing _ => .holding
  | _ => .outside

variable {F : Type}

/-- The slots of pending handshakes. -/
def Door.slots (door : Door F) : Semaphore :=
  ⟨door.shared.pendingHandshakes.toNat, door.connections.map fun each => each.stage.phase⟩

/-- A turn of the loop is one of a client of a counter. -/
theorem Shared.acquire_slotTurn (shared : Shared F) (current : UInt64) (spurious : Bool) :
    SlotTurn limits.maxPendingConnections shared.pendingHandshakes.toNat
      (.attempting current.toNat) (shared.acquire current spurious).1.pendingHandshakes.toNat
      (shared.acquire current spurious).2.phase := by
  have isCap : (UInt64.ofNat limits.maxPendingConnections).toNat =
      limits.maxPendingConnections := by
    decide
  unfold acquire
  split_ifs with full taken
  · rw [UInt64.le_iff_toNat_le, isCap] at full
    exact SlotTurn.refused full
  · rw [UInt64.le_iff_toNat_le, isCap, Nat.not_le] at full
    have small : current.toNat + 1 < 2 ^ 64 := by
      have isSmall : limits.maxPendingConnections < 2 ^ 64 := by decide
      omega
    have counted : (current + 1).toNat = current.toNat + 1 := by
      rw [UInt64.toNat_add]
      exact Nat.mod_eq_of_lt small
    show SlotTurn _ shared.pendingHandshakes.toNat _ (current + 1).toNat .holding
    rw [taken.1, counted]
    exact SlotTurn.takes full
  · exact SlotTurn.retries _ _

/-- A guard that is dropped gives its slot back. -/
theorem Shared.dropGuard_slotTurn {shared : Shared F} (held : 0 < shared.pendingHandshakes.toNat)
    {stage : Stage} (outside : stage.phase = .outside) :
    SlotTurn limits.maxPendingConnections shared.pendingHandshakes.toNat .holding
      shared.dropGuard.pendingHandshakes.toNat stage.phase := by
  have one : (1 : UInt64) ≤ shared.pendingHandshakes := by
    rw [UInt64.le_iff_toNat_le]
    exact held
  have counted : shared.dropGuard.pendingHandshakes.toNat + 1 =
      shared.pendingHandshakes.toNat := by
    show (shared.pendingHandshakes - 1).toNat + 1 = _
    rw [UInt64.toNat_sub_of_le _ _ one]
    exact Nat.sub_add_cancel held
  rw [outside, ← counted]
  exact SlotTurn.gives _

theorem Door.slots_found {door : Door F} {index : Nat} {connection : Connection}
    (found : door.connections[index]? = some connection) :
    door.slots.clients[index]? = some connection.stage.phase := by
  show (door.connections.map _)[index]? = _
  rw [List.getElem?_map, found]
  rfl

theorem Door.reloadMembers_connections (door : Door F) (text : List Char) :
    (door.reloadMembers text).connections = door.connections := by
  unfold reloadMembers
  split <;> rfl

theorem Door.reloadMembers_slots (door : Door F) (text : List Char) :
    (door.reloadMembers text).slots = door.slots := by
  unfold reloadMembers
  split <;> rfl

/-- The counter counts the guards that are held. -/
def Door.Counted (door : Door F) : Prop := door.slots.Sound limits.maxPendingConnections

theorem Door.Counted.held {door : Door F} (counted : door.Counted) {index : Nat}
    {connection : Connection} (found : door.connections[index]? = some connection)
    (isHolding : connection.stage.phase = .holding) : 0 < door.shared.pendingHandshakes.toNat := by
  have isFound := slots_found found
  rw [isHolding] at isFound
  have present := Semaphore.held_pos isFound
  rw [← counted.counts] at present
  exact present

variable [F64 F]

/-- What a step of a task can come to. -/
inductive Shared.Turned (shared : Shared F) (connection : Connection) (move : Move) :
    Shared F × Stage → Prop where
  | checks (isStage : connection.stage = .handshaken) (isMove : move = .checks) :
      Turned shared connection move
        (shared, if shared.members.contains connection.peerKey then .listed else .unlisted)
  | loads (isStage : connection.stage = .listed) :
      Turned shared connection move (shared, .acquiring shared.pendingHandshakes)
  | exchanges (current : UInt64) (spurious : Bool)
      (isStage : connection.stage = .acquiring current) :
      Turned shared connection move (shared.acquire current spurious)
  | charges (isStage : connection.stage = .pending) :
      Turned shared connection move (shared.attemptPrimary connection.peerKey)
  | reads (frame : Option Frame) (seats : Bool) (isStage : connection.stage = .attempted) :
      Turned shared connection move (shared, shared.register frame seats)
  | writes (done : Bool) (isStage : connection.stage = .seated) :
      Turned shared connection move (shared, if done then .written else .closing none)
  | registers (isStage : connection.stage = .written) :
      Turned shared connection move (shared.dropGuard, .registered)
  | closes (code : Option ErrorCode) (isStage : connection.stage = .closing code) :
      Turned shared connection move (shared.dropGuard, .closed code)
  | admits (isStage : connection.stage = .listed) :
      Turned shared connection move (shared.attemptSecondary connection.peerKey)
  | reflects (served : UInt32) (frame : Option Frame)
      (isStage : connection.stage = .reflecting served) :
      Turned shared connection move (shared.reflect served frame)
  | idles : Turned shared connection move (shared, connection.stage)

theorem Shared.turned_turn (shared : Shared F) (connection : Connection) (move : Move) :
    Turned shared connection move (shared.turn connection move) := by
  obtain ⟨port, peerKey, stage⟩ := connection
  cases port <;> cases stage <;> cases move <;> first
    | exact .idles
    | exact .checks rfl rfl
    | exact .loads rfl
    | exact .exchanges _ _ rfl
    | exact .charges rfl
    | exact .reads _ _ rfl
    | exact .writes _ rfl
    | exact .registers rfl
    | exact .closes _ rfl
    | exact .admits rfl
    | exact .reflects _ _ rfl

/-- A step of a task is a turn of a client of the slots. -/
theorem Shared.turn_slotTurn {shared : Shared F} {connection : Connection} (move : Move)
    (held : connection.stage.phase = .holding → 0 < shared.pendingHandshakes.toNat) :
    SlotTurn limits.maxPendingConnections shared.pendingHandshakes.toNat connection.stage.phase
      (shared.turn connection move).1.pendingHandshakes.toNat
      (shared.turn connection move).2.phase := by
  have turned := shared.turned_turn connection move
  generalize shared.turn connection move = outcome at turned
  cases turned with
  | checks isStage isMove =>
      rw [isStage]
      show SlotTurn _ _ .outside _ (if _ then Stage.listed else Stage.unlisted).phase
      split_ifs <;> exact SlotTurn.idles _ _
  | loads isStage =>
      rw [isStage]
      exact SlotTurn.loads _
  | exchanges current spurious isStage =>
      rw [isStage]
      exact shared.acquire_slotTurn _ _
  | charges isStage =>
      rw [isStage]
      show SlotTurn _ _ .holding _ (if _ then Stage.attempted else Stage.closing _).phase
      split_ifs <;> exact SlotTurn.idles _ _
  | reads frame seats isStage =>
      rw [isStage]
      unfold register
      split
      · split_ifs <;> exact SlotTurn.idles _ _
      · exact SlotTurn.idles _ _
  | writes done isStage =>
      rw [isStage]
      show SlotTurn _ _ .holding _ (if _ then Stage.written else Stage.closing none).phase
      split_ifs <;> exact SlotTurn.idles _ _
  | registers isStage =>
      rw [isStage] at held ⊢
      exact dropGuard_slotTurn (held rfl) rfl
  | closes code isStage =>
      rw [isStage] at held ⊢
      exact dropGuard_slotTurn (held rfl) rfl
  | admits isStage =>
      rw [isStage]
      unfold attemptSecondary
      split_ifs <;> exact SlotTurn.idles _ _
  | reflects served frame isStage =>
      rw [isStage]
      unfold reflect
      split
      · split_ifs <;> exact SlotTurn.idles _ _
      · exact SlotTurn.idles _ _
  | idles => exact SlotTurn.idles _ _

namespace Door

theorem step_moves {door : Door F} {index : Nat} {connection : Connection}
    (found : door.connections[index]? = some connection) (move : Move) :
    door.step (.moves index move) = door.advance index connection move := by
  unfold step
  simp only [found]

theorem step_moves_none {door : Door F} {index : Nat}
    (missing : door.connections[index]? = none) (move : Move) :
    door.step (.moves index move) = door := by
  unfold step
  simp only [missing]

theorem Counted.step {door : Door F} (counted : door.Counted) (action : Action) :
    (door.step action).Counted := by
  cases action with
  | connects port peerKey =>
      have joined := counted.joins
      unfold Counted slots at joined ⊢
      show Semaphore.Sound _ ⟨_, (door.connections ++ [_]).map _⟩
      rw [List.map_append]
      exact joined
  | moves index move =>
      cases found : door.connections[index]? with
      | none =>
          rw [step_moves_none found]
          exact counted
      | some connection =>
          have turned := counted.turns (slots_found found)
            (Shared.turn_slotTurn move (counted.held found))
          rw [step_moves found]
          unfold Counted slots advance
          rw [List.map_set]
          exact turned
  | reloads text =>
      show (door.reloadMembers text).Counted
      unfold Counted
      rw [reloadMembers_slots]
      exact counted
  | sweeps => exact counted
  | passes duration => exact counted

/-- The gate after what happened at its door. -/
def after (community : Bytes32) (members : MemberList) (actions : List Action) : Door F :=
  run step (bind community members) actions

theorem counted_after (community : Bytes32) (members : MemberList) (actions : List Action) :
    (after community members actions : Door F).Counted := by
  have initial : (bind community members : Door F).Counted := Semaphore.sound_empty
  exact run_always (fun _ action counted => counted.step action) initial actions

/-! ## Where a connection comes from -/

/-- A connection was there before the step, has joined by it, or is the one that moved. -/
theorem step_found {door : Door F} {action : Action} {index : Nat} {connection : Connection}
    (found : (door.step action).connections[index]? = some connection) :
    door.connections[index]? = some connection ∨ connection.stage = .handshaken ∨
      ∃ before move, action = .moves index move ∧ door.connections[index]? = some before ∧
        connection = { before with stage := (door.shared.turn before move).2 } := by
  cases action with
  | connects port peerKey =>
      change (door.connections ++ [_])[index]? = _ at found
      rw [List.getElem?_append] at found
      split_ifs at found with inside
      · exact Or.inl found
      · have isNew := List.mem_singleton.mp (List.mem_of_getElem? found)
        rw [isNew]
        exact Or.inr (Or.inl rfl)
  | moves other move =>
      cases isThere : door.connections[other]? with
      | none =>
          rw [step_moves_none isThere] at found
          exact Or.inl found
      | some before =>
          rw [step_moves isThere] at found
          change (door.connections.set other _)[index]? = _ at found
          rw [List.getElem?_set] at found
          split_ifs at found with same inside
          · rw [same] at isThere
            refine Or.inr (Or.inr ⟨before, move, ?_, isThere, (Option.some.inj found).symm⟩)
            rw [same]
          · exact Or.inl found
  | reloads text =>
      change (door.reloadMembers text).connections[index]? = _ at found
      rw [reloadMembers_connections] at found
      exact Or.inl found
  | sweeps => exact Or.inl found
  | passes duration => exact Or.inl found

end Door

/-- What a task reads in the loop, it had read before, or the counter is. -/
theorem Shared.turn_acquiring {shared : Shared F} {connection : Connection} {move : Move}
    {read : Nat} (held : connection.stage.phase = .holding → 0 < shared.pendingHandshakes.toNat)
    (acquires : (shared.turn connection move).2.phase = .attempting read) :
    connection.stage.phase = .attempting read ∨ shared.pendingHandshakes.toNat = read := by
  have turn := shared.turn_slotTurn move held
  rw [acquires] at turn
  exact turn.attempting

/-- The key was found on the member list. -/
def Stage.Past (stage : Stage) : Prop := stage ≠ .handshaken ∧ stage ≠ .unlisted

/-- A task is past the member list where it was, or where it checks the list now and the key
is on it. -/
theorem Shared.turn_past {shared : Shared F} {connection : Connection} {move : Move}
    (past : (shared.turn connection move).2.Past) :
    connection.stage.Past ∨
      move = .checks ∧ shared.members.contains connection.peerKey = true := by
  have turned := shared.turned_turn connection move
  generalize shared.turn connection move = outcome at past turned
  cases turned with
  | checks isStage isMove =>
      right
      refine ⟨isMove, ?_⟩
      by_contra unlisted
      rw [if_neg unlisted] at past
      exact past.2 rfl
  | idles => exact Or.inl past
  | loads isStage | charges isStage | registers isStage | admits isStage
  | writes _ isStage | closes _ isStage
  | exchanges _ _ isStage | reads _ _ isStage | reflects _ _ isStage =>
      left
      rw [isStage]
      exact ⟨by simp, by simp⟩

/-- A task is turned away where it was, or where it has read that there is no slot. -/
theorem Shared.turn_turnedAway {shared : Shared F} {connection : Connection} {move : Move}
    (turned : (shared.turn connection move).2 = .turnedAway) :
    connection.stage = .turnedAway ∨
      ∃ current, connection.stage = .acquiring current ∧
        limits.maxPendingConnections ≤ current.toNat := by
  have came := shared.turned_turn connection move
  generalize shared.turn connection move = outcome at turned came
  cases came with
  | checks isStage isMove =>
      dsimp only at turned
      split_ifs at turned
  | loads isStage => cases turned
  | exchanges current spurious isStage =>
      refine Or.inr ⟨current, isStage, ?_⟩
      have isCap : (UInt64.ofNat limits.maxPendingConnections).toNat =
        limits.maxPendingConnections := by decide
      unfold acquire at turned
      split_ifs at turned with full
      rw [UInt64.le_iff_toNat_le, isCap] at full
      exact full
  | charges isStage =>
      change (if _ then Stage.attempted else Stage.closing _) = _ at turned
      split_ifs at turned
  | reads frame seats isStage =>
      unfold register at turned
      split at turned
      · split_ifs at turned
      · cases turned
  | writes done isStage =>
      change (if _ then Stage.written else Stage.closing none) = _ at turned
      split_ifs at turned
  | registers isStage => cases turned
  | closes code isStage => cases turned
  | admits isStage =>
      unfold attemptSecondary at turned
      split_ifs at turned
  | reflects served frame isStage =>
      unfold reflect at turned
      split at turned
      · split_ifs at turned
      · cases turned
  | idles => exact Or.inl turned

namespace Door

/-- What holds after a run, and not at its start, came about at a step of the run. -/
theorem after_originates {community : Bytes32} {members : MemberList} {actions : List Action}
    (holds : Door F → Prop) (origin : Door F → Action → Prop)
    (initially : ¬holds (bind community members))
    (steps : ∀ earlier action,
      holds ((after community members (actions.take earlier)).step action) →
        holds (after community members (actions.take earlier)) ∨
          origin (after community members (actions.take earlier)) action)
    (isHeld : holds (after community members actions)) :
    ∃ earlier action, earlier < actions.length ∧ actions[earlier]? = some action ∧
      origin (after community members (actions.take earlier)) action := by
  have whole : holds (after community members (actions.take actions.length)) := by
    rw [List.take_length]
    exact isHeld
  obtain ⟨earlier, action, before, isAction, isOrigin, _⟩ :=
    run_originates holds origin initially (fun earlier action _ => steps earlier action)
      actions.length whole
  exact ⟨earlier, action, before, isAction, isOrigin⟩

/-- A connection that is past the member list had its key on the list when it was checked. -/
theorem past_listed {community : Bytes32} {members : MemberList} {actions : List Action}
    {index : Nat} {connection : Connection}
    (found : (after community members actions : Door F).connections[index]? = some connection)
    (past : connection.stage.Past) :
    ∃ earlier, actions[earlier]? = some (.moves index .checks) ∧
      (after community members (actions.take earlier) : Door F).shared.members.contains
        connection.peerKey = true := by
  have origin := after_originates
    (fun door : Door F => ∃ each, door.connections[index]? = some each ∧
      each.peerKey = connection.peerKey ∧ each.stage.Past)
    (fun door action => action = .moves index .checks ∧
      door.shared.members.contains connection.peerKey = true)
    (by
      rintro ⟨each, isFound, _⟩
      cases isFound)
    (by
      rintro earlier action ⟨each, isFound, isKey, isPast⟩
      rcases step_found isFound with before | isNew | ⟨before, move, isMove, isBefore, isEach⟩
      · exact Or.inl ⟨each, before, isKey, isPast⟩
      · exact absurd isNew isPast.1
      · rw [isEach] at isKey isPast
        rcases Shared.turn_past isPast with wasPast | ⟨checks, listed⟩
        · exact Or.inl ⟨before, isBefore, isKey, wasPast⟩
        · rw [checks] at isMove
          have sameKey : before.peerKey = connection.peerKey := isKey
          rw [sameKey] at listed
          exact Or.inr ⟨isMove, listed⟩)
    ⟨connection, found, rfl, past⟩
  obtain ⟨earlier, action, _, isAction, isMove, listed⟩ := origin
  rw [isMove] at isAction
  exact ⟨earlier, isAction, listed⟩

/-- What a task has read in the loop, the counter was at some time since its connection
joined. -/
theorem read_counted {community : Bytes32} {members : MemberList} {actions : List Action}
    {index : Nat} {connection : Connection} {current : UInt64}
    (found : (after community members actions : Door F).connections[index]? = some connection)
    (acquiring : connection.stage = .acquiring current) :
    ∃ earlier, earlier < actions.length ∧
      index < (after community members (actions.take earlier) : Door F).connections.length ∧
      (after community members (actions.take earlier) : Door F).slots.count = current.toNat := by
  have origin := after_originates
    (fun door : Door F => ∃ each, door.connections[index]? = some each ∧
      each.stage.phase = .attempting current.toNat)
    (fun door _ => index < door.connections.length ∧ door.slots.count = current.toNat)
    (by
      rintro ⟨each, isFound, _⟩
      cases isFound)
    (by
      rintro earlier action ⟨each, isFound, isPhase⟩
      have counted : (after community members (actions.take earlier) : Door F).Counted :=
        counted_after community members _
      rcases step_found isFound with before | isNew | ⟨before, move, _, isBefore, isEach⟩
      · exact Or.inl ⟨each, before, isPhase⟩
      · rw [isNew] at isPhase
        cases isPhase
      · rw [isEach] at isPhase
        rcases Shared.turn_acquiring (counted.held isBefore) isPhase with same | isCount
        · exact Or.inl ⟨before, isBefore, same⟩
        · exact Or.inr ⟨(List.getElem?_eq_some_iff.mp isBefore).1, isCount⟩)
    (by
      refine ⟨connection, found, ?_⟩
      rw [acquiring]
      rfl)
  obtain ⟨earlier, _, before, _, inside, isCount⟩ := origin
  exact ⟨earlier, before, inside, isCount⟩

/-- A connection that is turned away found every slot held at some time since it joined. -/
theorem turnedAway_full {community : Bytes32} {members : MemberList} {actions : List Action}
    {index : Nat} {connection : Connection}
    (found : (after community members actions : Door F).connections[index]? = some connection)
    (turned : connection.stage = .turnedAway) :
    ∃ earlier, earlier < actions.length ∧
      index < (after community members (actions.take earlier) : Door F).connections.length ∧
      (after community members (actions.take earlier) : Door F).slots.held =
        limits.maxPendingConnections := by
  have origin := after_originates
    (fun door : Door F => ∃ each, door.connections[index]? = some each ∧ each.stage = .turnedAway)
    (fun door _ => ∃ each current, door.connections[index]? = some each ∧
      each.stage = .acquiring current ∧ limits.maxPendingConnections ≤ current.toNat)
    (by
      rintro ⟨each, isFound, _⟩
      cases isFound)
    (by
      rintro earlier action ⟨each, isFound, isStage⟩
      rcases step_found isFound with before | isNew | ⟨before, move, _, isBefore, isEach⟩
      · exact Or.inl ⟨each, before, isStage⟩
      · rw [isNew] at isStage
        cases isStage
      · rw [isEach] at isStage
        rcases Shared.turn_turnedAway isStage with same | ⟨current, acquiring, full⟩
        · exact Or.inl ⟨before, isBefore, same⟩
        · exact Or.inr ⟨before, current, isBefore, acquiring, full⟩)
    ⟨connection, found, turned⟩
  obtain ⟨later, _, before, _, each, current, isFound, acquiring, full⟩ := origin
  obtain ⟨earlier, first, inside, isCount⟩ := read_counted isFound acquiring
  have shorter : earlier < later := by
    rw [List.length_take] at first
    omega
  rw [List.take_take, Nat.min_eq_left (Nat.le_of_lt shorter)] at inside isCount
  have counted : (after community members (actions.take earlier) : Door F).Counted :=
    counted_after community members _
  have counts := counted.counts
  have within := counted.within
  exact ⟨earlier, shorter.trans before, inside, by omega⟩

end Door

/-- In whatever order the tasks take their steps, and whatever is reloaded between them: the
counter of pending handshakes is how many connections hold a guard, and no more than 512; a
connection that is past the member list had its key on the list when that was checked; and
one that is turned away for want of a slot found 512 held at some time since its handshake. -/
theorem admission_sound (community : Bytes32) (members : MemberList) (actions : List Action) :
    let door : Door F := .after community members actions
    door.shared.pendingHandshakes.toNat =
        (door.connections.map fun each => each.stage.phase).count .holding ∧
      door.shared.pendingHandshakes.toNat ≤ 512 ∧
      ∀ index connection, door.connections[index]? = some connection →
        (connection.stage.Past → ∃ earlier, actions[earlier]? = some (.moves index .checks) ∧
          (Door.after community members (actions.take earlier) : Door F).shared.members.contains
            connection.peerKey = true) ∧
        (connection.stage = .turnedAway → ∃ earlier, earlier < actions.length ∧
          index < (Door.after community members (actions.take earlier) : Door F).connections.length ∧
          ((Door.after community members (actions.take earlier) : Door F).connections.map
            fun each => each.stage.phase).count .holding = 512) := by
  have counted : (Door.after community members actions : Door F).Counted :=
    Door.counted_after community members actions
  refine ⟨counted.counts, counted.within, ?_⟩
  intro index connection found
  exact ⟨Door.past_listed found, Door.turnedAway_full found⟩

end Mosschat.Net.Gate.Admission
