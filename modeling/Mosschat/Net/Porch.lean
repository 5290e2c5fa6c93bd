import Mosschat.Library.Machine
import Mosschat.Net.Addr
import Mosschat.Net.Path.Shaper

/-!
Owns the relay half of the porch socket of `sock.rs`: the gate it relays through, the
sessions registered with it, and the tasks that write each peer's shaped queue onto a
gate connection.

Does not own what comes from the gate, the real socket, or the direct paths of a peer.
-/

namespace Mosschat.Net

open Mosschat.Library Mosschat.Library.Cbor Mosschat.Library.Machine Mosschat.Net.Gate

/-- The name of a connection to a gate. -/
abbrev GateId := Nat

/-- `quinn::Connection`, to a gate. -/
structure GateConn where
  remoteAddress : SocketAddr
  alive : Bool
deriving DecidableEq

/-- `RelayRoutes`. -/
structure RelayRoutes where
  gate : Option GateId
  bySynthetic : HashMap SocketAddr UInt32
  bySession : HashMap UInt32 SocketAddr
  drained : HashMap SocketAddr Unit

/-- Where a drain task is. -/
inductive DrainStage where
  /-- In `drain`. -/
  | draining
  /-- It has a batch, and has not looked whether a gate is attached. -/
  | checking (payloads : List Bytes)
  | sending (payloads : List Bytes)
deriving DecidableEq

/-- What the task has taken from the queue and not written. -/
def DrainStage.payloads : DrainStage → List Bytes
  | .draining => []
  | .checking payloads | .sending payloads => payloads

/-- A task of `spawn_relay_drain`. -/
structure DrainTask where
  gate : GateId
  synthetic : SocketAddr
  stage : DrainStage
deriving DecidableEq

/-- A call of `attach_gate` that has not returned, and the peers it still has to see to. -/
structure Attaching where
  gate : GateId
  undrained : List SocketAddr
deriving DecidableEq

/-- A datagram a gate connection took. -/
structure Written where
  gate : GateId
  synthetic : SocketAddr
  payload : Bytes
deriving DecidableEq

/-- One porch socket, its connections and its tasks. -/
structure Porch (F : Type) where
  routes : RelayRoutes
  /-- The egress queues of the path table. -/
  paths : HashMap SocketAddr (RelayShaper F)
  gates : HashMap GateId GateConn
  tasks : HashMap Nat DrainTask
  /-- How many drain tasks were ever spawned. -/
  spawned : Nat
  attaching : HashMap Nat Attaching
  /-- The reader tasks, each with its gate. -/
  readers : HashMap Nat GateId
  /-- Everything that was written, in order. -/
  written : List Written
  /-- How much of it was written before the gate was attached. -/
  attachedAt : Nat
  /-- What was in hand or queued when the gate was attached. -/
  heldThen : SocketAddr → List Bytes
  /-- What was accepted since. -/
  accepted : List (SocketAddr × Bytes)

/-- What happens to the socket. Every lock of it is one action. -/
inductive PorchAction where
  | connects (gate : GateId) (remoteAddress : SocketAddr)
  | gateLost (gate : GateId)
  /-- The first lock of `attach_gate`. -/
  | attachGate (call : Nat) (gate : GateId)
  /-- `attach_gate` sees to the next peer, or spawns the reader and returns. -/
  | attachNext (call : Nat) (now : Nat)
  /-- The reader finds its connection closed. -/
  | readerEnds (call : Nat)
  | detachGate (gateAddr : SocketAddr)
  | registerRelaySession (session : UInt32) (syntheticPeer : SocketAddr) (now : Nat)
  | enqueue (syntheticPeer : SocketAddr) (payloads : List Bytes) (now : Nat)
  /-- One pass of `drain`. -/
  | drain (task : Nat) (now : Nat)
  | check (task : Nat)
  /-- `send_datagram_wait`, which a connection that is alive may refuse as well. -/
  | send (task : Nat) (refused : Bool)

namespace Porch

variable {F : Type}

/-- `PorchSocket::new`. -/
def new : Porch F where
  routes := ⟨none, ∅, ∅, ∅⟩
  paths := ∅
  gates := ∅
  tasks := ∅
  spawned := 0
  attaching := ∅
  readers := ∅
  written := []
  attachedAt := 0
  heldThen _ := []
  accepted := []

/-- The connection is there and not lost. -/
def alive (world : Porch F) (gate : GateId) : Bool :=
  (world.gates.lookup gate).any GateConn.alive

/-- `PathTable::ensure_by_synthetic`, of an entry's queue. -/
def ensureBySynthetic [F64 F] (paths : HashMap SocketAddr (RelayShaper F)) (synthetic : SocketAddr)
    (now : Nat) : HashMap SocketAddr (RelayShaper F) :=
  paths.orInsert synthetic (RelayShaper.house now)

/-- `routes.drained.insert(synthetic)` and, where it is new, `spawn_relay_drain`. -/
def startDrain (world : Porch F) (gate : GateId) (synthetic : SocketAddr) : Porch F :=
  if synthetic ∈ world.routes.drained then world
  else
    { world with
      routes := { world.routes with drained := world.routes.drained.put synthetic () }
      tasks := world.tasks.put world.spawned ⟨gate, synthetic, .draining⟩
      spawned := world.spawned + 1 }

/-- What waits in the peer's queue. -/
def queue (world : Porch F) (synthetic : SocketAddr) : List Bytes :=
  ((world.paths.lookup synthetic).map fun shaper => shaper.items.map Prod.snd).getD []

/-- What a drain task has in hand for the peer. -/
def inHand (world : Porch F) (synthetic : SocketAddr) : List Bytes :=
  ((world.tasks.entries.find? fun entry => entry.2.synthetic == synthetic).map fun entry =>
    entry.2.stage.payloads).getD []

/-- The first lock of `attach_gate`. -/
def attachGate (world : Porch F) (call : Nat) (gate : GateId) : Porch F :=
  { world with
    routes := { world.routes with gate := some gate }
    attaching := world.attaching.put call
      ⟨gate, world.routes.bySynthetic.keys.filter (· ∉ world.routes.drained)⟩
    attachedAt := world.written.length
    heldThen := fun synthetic => world.inHand synthetic ++ world.queue synthetic
    accepted := [] }

/-- `detach_gate`. -/
def detachGate (world : Porch F) (gateAddr : SocketAddr) : Porch F :=
  match world.routes.gate.bind world.gates.lookup with
  | none => world
  | some conn =>
    if conn.remoteAddress ≠ gateAddr then world
    else { world with routes := { world.routes with gate := none, drained := ∅ } }

/-- `register_relay_session`. -/
def registerRelaySession [F64 F] (world : Porch F) (session : UInt32) (syntheticPeer : SocketAddr)
    (now : Nat) : Porch F :=
  let registered : Porch F :=
    { world with
      paths := ensureBySynthetic world.paths syntheticPeer now
      routes := { world.routes with
        bySynthetic := world.routes.bySynthetic.put syntheticPeer session
        bySession := world.routes.bySession.put session syntheticPeer } }
  match world.routes.gate with
  | none => registered
  | some gate => registered.startDrain gate syntheticPeer

/-- One action. What names nothing that is there changes nothing. -/
def step [F64 F] (world : Porch F) : PorchAction → Porch F
  | .connects gate remoteAddress =>
    if gate ∈ world.gates then world
    else { world with gates := world.gates.put gate ⟨remoteAddress, true⟩ }
  | .gateLost gate =>
    match world.gates.lookup gate with
    | none => world
    | some conn => { world with gates := world.gates.put gate { conn with alive := false } }
  | .attachGate call gate =>
    if gate ∈ world.gates ∧ call ∉ world.attaching ∧ call ∉ world.readers then
      world.attachGate call gate
    else world
  | .attachNext call now =>
    match world.attaching.lookup call with
    | none => world
    | some ⟨gate, []⟩ =>
      { world with
        attaching := world.attaching.erase call
        readers := world.readers.put call gate }
    | some ⟨gate, synthetic :: rest⟩ =>
      let seen : Porch F :=
        { world with
          paths := ensureBySynthetic world.paths synthetic now
          attaching := world.attaching.put call ⟨gate, rest⟩ }
      seen.startDrain gate synthetic
  | .readerEnds call =>
    match world.readers.lookup call with
    | none => world
    | some gate =>
      match world.gates.lookup gate with
      | none => world
      | some conn =>
        if conn.alive then world
        else
          let ended : Porch F := { world with readers := world.readers.erase call }
          ended.detachGate conn.remoteAddress
  | .detachGate gateAddr => world.detachGate gateAddr
  | .registerRelaySession session syntheticPeer now =>
    world.registerRelaySession session syntheticPeer now
  | .enqueue syntheticPeer payloads now =>
    match world.paths.lookup syntheticPeer with
    | none => world
    | some shaper =>
      let (shaper, answer) := shaper.tryEnqueueAll payloads now
      { world with
        paths := world.paths.put syntheticPeer shaper
        accepted :=
          if answer = .accepted then world.accepted ++ payloads.map fun payload =>
            (syntheticPeer, payload)
          else world.accepted }
  | .drain id now =>
    match world.tasks.lookup id with
    | some ⟨gate, synthetic, .draining⟩ =>
      match world.paths.lookup synthetic with
      | none => world
      | some shaper =>
        let (shaper, next) := shaper.drainPass now
        let passed : Porch F := { world with paths := world.paths.put synthetic shaper }
        match next with
        | .ready payloads =>
          { passed with tasks := passed.tasks.put id ⟨gate, synthetic, .checking payloads⟩ }
        | .closed => { passed with tasks := passed.tasks.erase id }
        | .sleep | .idle => passed
    | _ => world
  | .check id =>
    match world.tasks.lookup id with
    | some ⟨gate, synthetic, .checking payloads⟩ =>
      if world.routes.gate.isSome then
        { world with tasks := world.tasks.put id ⟨gate, synthetic, .sending payloads⟩ }
      else { world with tasks := world.tasks.erase id }
    | _ => world
  | .send id refused =>
    match world.tasks.lookup id with
    | some ⟨gate, synthetic, .sending []⟩ =>
      { world with tasks := world.tasks.put id ⟨gate, synthetic, .draining⟩ }
    | some ⟨gate, synthetic, .sending (payload :: rest)⟩ =>
      if world.alive gate && !refused then
        { world with
          tasks := world.tasks.put id ⟨gate, synthetic, .sending rest⟩
          written := world.written ++ [⟨gate, synthetic, payload⟩] }
      else { world with tasks := world.tasks.erase id }
    | _ => world

/-! ## What the attached gate is owed -/

/-- What the gate took for the peer since it was attached. -/
def writtenSince (world : Porch F) (gate : GateId) (synthetic : SocketAddr) : List Bytes :=
  ((world.written.drop world.attachedAt).filter fun written =>
    written.gate == gate && written.synthetic == synthetic).map Written.payload

/-- What the peer's queue accepted since the gate was attached. -/
def acceptedSince (world : Porch F) (synthetic : SocketAddr) : List Bytes :=
  (world.accepted.filter fun accepted => accepted.1 == synthetic).map Prod.snd

/-- What the gate took, then what is in hand, then what is queued: all there was and all
that came since, once each and in order. -/
def Flow (world : Porch F) (gate : GateId) (synthetic : SocketAddr) (hand : List Bytes) : Prop :=
  world.writtenSince gate synthetic ++ hand ++ world.queue synthetic =
    world.heldThen synthetic ++ world.acceptedSince synthetic

/-- Every drain task that runs writes to `gate`, for a peer of its own that is marked as
drained, every peer that is marked has one, and no other gate is still being attached. -/
def readyFor (world : Porch F) (gate : GateId) : Bool :=
  (world.tasks.values.all fun task =>
    task.gate == gate && decide (task.synthetic ∈ world.routes.drained)) &&
  (world.tasks.entries.all fun first => world.tasks.entries.all fun second =>
    first.1 == second.1 || first.2.synthetic != second.2.synthetic) &&
  (world.routes.drained.keys.all fun synthetic =>
    world.tasks.values.any fun task => task.synthetic == synthetic) &&
  world.attaching.values.all fun attaching => attaching.gate == gate || attaching.undrained.isEmpty

/-- What no action may do: attach a gate the tasks are not ready for, or refuse a datagram
on a connection that is alive. -/
def loses (world : Porch F) : PorchAction → Bool
  | .attachGate _ gate => !world.readyFor gate
  | .send id refused =>
    refused && (world.tasks.lookup id).any fun task => world.alive task.gate
  | _ => false

/-- A call of `attach_gate` that runs has still to see to the peer. -/
def Awaited (world : Porch F) (synthetic : SocketAddr) : Prop :=
  ∃ call attaching, world.attaching.lookup call = some attaching ∧
    synthetic ∈ attaching.undrained

/-- What the attached gate, while it is alive, is owed: every registered peer has exactly one
drain task, which writes to it, and it took what was accepted, once each and in order, up to
what is still in hand or queued. -/
structure Drained (world : Porch F) (gate : GateId) : Prop where
  one : ∀ synthetic, synthetic ∈ world.routes.bySynthetic → ¬world.Awaited synthetic →
    ∃ id task, world.tasks.lookup id = some task ∧ task.synthetic = synthetic ∧
      task.gate = gate ∧
      ∀ other found, world.tasks.lookup other = some found → found.synthetic = synthetic →
        other = id
  flow : ∀ synthetic, world.Flow gate synthetic (world.inHand synthetic)

/-! ## What the tasks keep -/

/-- While the attached gate is alive, every marked peer has its task, and nothing that was
accepted is lost or doubled. -/
structure Living (world : Porch F) (gate : GateId) : Prop where
  marked : ∀ synthetic, synthetic ∈ world.routes.drained →
    ∃ id task, world.tasks.lookup id = some task ∧ task.synthetic = synthetic
  carried : ∀ id task, world.tasks.lookup id = some task →
    world.Flow gate task.synthetic task.stage.payloads
  idle : ∀ synthetic,
    (∀ id task, world.tasks.lookup id = some task → task.synthetic ≠ synthetic) →
      world.Flow gate synthetic []

/-- What holds while `gate` is attached. -/
structure Attached (world : Porch F) (gate : GateId) : Prop where
  known : gate ∈ world.gates
  own : ∀ id task, world.tasks.lookup id = some task →
    task.gate = gate ∧ task.synthetic ∈ world.routes.drained
  single : ∀ id other task otherTask, world.tasks.lookup id = some task →
    world.tasks.lookup other = some otherTask → task.synthetic = otherTask.synthetic → id = other
  loops : ∀ call attaching, world.attaching.lookup call = some attaching →
    attaching.gate = gate ∨ attaching.undrained = []
  covered : ∀ synthetic, synthetic ∈ world.routes.bySynthetic →
    synthetic ∈ world.routes.drained ∨
      ∃ call attaching, world.attaching.lookup call = some attaching ∧
        synthetic ∈ attaching.undrained
  living : world.alive gate = true → Living world gate

/-- What holds of the socket in every run no action of which loses anything. -/
structure Tended (world : Porch F) : Prop where
  numbered : ∀ id, id ∈ world.tasks → id < world.spawned
  opened : ∀ synthetic shaper, world.paths.lookup synthetic = some shaper → shaper.closed = false
  dated : world.attachedAt ≤ world.written.length
  attached : ∀ gate, world.routes.gate = some gate → Attached world gate

section Steps

variable {world : Porch F} {gate : GateId}

theorem Flow.same {next : Porch F} {synthetic : SocketAddr} {hand : List Bytes}
    (flow : world.Flow gate synthetic hand) (written : next.written = world.written)
    (attachedAt : next.attachedAt = world.attachedAt) (accepted : next.accepted = world.accepted)
    (heldThen : next.heldThen = world.heldThen)
    (queue : next.queue synthetic = world.queue synthetic) :
    next.Flow gate synthetic hand := by
  unfold Flow writtenSince acceptedSince at flow ⊢
  rw [written, attachedAt, accepted, heldThen, queue]
  exact flow

/-- A step that touches no queue, no task, no mark and nothing written. -/
structure Quiet (world next : Porch F) : Prop where
  tasks : next.tasks = world.tasks
  drained : next.routes.drained = world.routes.drained
  queue : ∀ synthetic, next.queue synthetic = world.queue synthetic
  written : next.written = world.written
  attachedAt : next.attachedAt = world.attachedAt
  accepted : next.accepted = world.accepted
  heldThen : next.heldThen = world.heldThen

theorem Quiet.flow {next : Porch F} (quiet : Quiet world next) {synthetic : SocketAddr}
    {hand : List Bytes} (flow : world.Flow gate synthetic hand) :
    next.Flow gate synthetic hand :=
  flow.same quiet.written quiet.attachedAt quiet.accepted quiet.heldThen (quiet.queue synthetic)

/-- A quiet step keeps what holds, as long as no connection comes back to life. -/
theorem Attached.same {next : Porch F} (attached : Attached world gate) (quiet : Quiet world next)
    (known : gate ∈ next.gates) (alive : next.alive gate = true → world.alive gate = true)
    (loops : ∀ call attaching, next.attaching.lookup call = some attaching →
      attaching.gate = gate ∨ attaching.undrained = [])
    (covered : ∀ synthetic, synthetic ∈ next.routes.bySynthetic →
      synthetic ∈ world.routes.drained ∨
        ∃ call attaching, next.attaching.lookup call = some attaching ∧
          synthetic ∈ attaching.undrained) :
    Attached next gate where
  known := known
  own := by
    rw [quiet.tasks, quiet.drained]
    exact attached.own
  single := by
    rw [quiet.tasks]
    exact attached.single
  loops := loops
  covered := by
    rw [quiet.drained]
    exact covered
  living := by
    intro isAlive
    have living := attached.living (alive isAlive)
    exact
      { marked := by
          rw [quiet.tasks, quiet.drained]
          exact living.marked
        carried := by
          intro id task isThere
          rw [quiet.tasks] at isThere
          exact quiet.flow (living.carried id task isThere)
        idle := by
          intro synthetic isIdle
          rw [quiet.tasks] at isIdle
          exact quiet.flow (living.idle synthetic isIdle) }

/-- A peer that is not marked is marked, and gets its task. -/
theorem Attached.spawn {seen : Porch F} (attached : Attached seen gate) {synthetic : SocketAddr}
    (numbered : ∀ id, id ∈ seen.tasks → id < seen.spawned)
    (unmarked : synthetic ∉ seen.routes.drained) :
    Attached { seen with
      routes := { seen.routes with drained := seen.routes.drained.put synthetic () }
      tasks := seen.tasks.put seen.spawned ⟨gate, synthetic, .draining⟩
      spawned := seen.spawned + 1 } gate := by
  have fresh : ∀ id task, seen.tasks.lookup id = some task → id ≠ seen.spawned := by
    intro id task isThere same
    have below := numbered id (AList.lookup_isSome.mp (Option.isSome_of_mem isThere))
    omega
  have isNew : (seen.tasks.put seen.spawned ⟨gate, synthetic, .draining⟩).lookup seen.spawned =
      some ⟨gate, synthetic, .draining⟩ := by
    rw [HashMap.lookup_put, if_pos rfl]
  have isOld : ∀ id task, seen.tasks.lookup id = some task →
      (seen.tasks.put seen.spawned ⟨gate, synthetic, .draining⟩).lookup id = some task := by
    intro id task isThere
    rw [HashMap.lookup_put, if_neg (fresh id task isThere)]
    exact isThere
  have isEither : ∀ id task,
      (seen.tasks.put seen.spawned ⟨gate, synthetic, .draining⟩).lookup id = some task →
      (id = seen.spawned ∧ task = ⟨gate, synthetic, .draining⟩) ∨
        seen.tasks.lookup id = some task := by
    intro id task isThere
    rw [HashMap.lookup_put] at isThere
    split at isThere
    · next same => exact Or.inl ⟨same, (Option.some.inj isThere).symm⟩
    · exact Or.inr isThere
  have elsewhere : ∀ id task, seen.tasks.lookup id = some task → task.synthetic ≠ synthetic := by
    intro id task isThere same
    have isMarked := (attached.own id task isThere).2
    rw [same] at isMarked
    exact unmarked isMarked
  exact
    { known := attached.known
      own := by
        intro id task isThere
        rw [HashMap.mem_put]
        rcases isEither id task isThere with ⟨_, isTask⟩ | before
        · rw [isTask]
          exact ⟨rfl, Or.inl rfl⟩
        · have own := attached.own id task before
          exact ⟨own.1, Or.inr own.2⟩
      single := by
        intro id other task otherTask isThere isOther same
        rcases isEither id task isThere with ⟨isId, isTask⟩ | before
        · rcases isEither other otherTask isOther with ⟨otherIsId, _⟩ | otherBefore
          · rw [isId, otherIsId]
          · rw [isTask] at same
            exact absurd same.symm (elsewhere other otherTask otherBefore)
        · rcases isEither other otherTask isOther with ⟨_, otherIsTask⟩ | otherBefore
          · rw [otherIsTask] at same
            exact absurd same (elsewhere id task before)
          · exact attached.single id other task otherTask before otherBefore same
      loops := attached.loops
      covered := by
        intro other isRouted
        rw [HashMap.mem_put]
        rcases attached.covered other isRouted with isMarked | waiting
        · exact Or.inl (Or.inr isMarked)
        · exact Or.inr waiting
      living := by
        intro isAlive
        have living := attached.living isAlive
        have flows : ∀ other hand, seen.Flow gate other hand →
            ({ seen with
              routes := { seen.routes with drained := seen.routes.drained.put synthetic () }
              tasks := seen.tasks.put seen.spawned ⟨gate, synthetic, .draining⟩
              spawned := seen.spawned + 1 } : Porch F).Flow gate other hand :=
          fun other hand flow => flow
        exact
          { marked := by
              intro other isMarked
              rw [HashMap.mem_put] at isMarked
              rcases isMarked with isSynthetic | before
              · rw [isSynthetic]
                exact ⟨_, _, isNew, rfl⟩
              · obtain ⟨id, task, isThere, isOther⟩ := living.marked other before
                exact ⟨id, task, isOld id task isThere, isOther⟩
            carried := by
              intro id task isThere
              apply flows
              rcases isEither id task isThere with ⟨_, isTask⟩ | before
              · rw [isTask]
                exact living.idle synthetic elsewhere
              · exact living.carried id task before
            idle := by
              intro other isIdle
              apply flows
              apply living.idle other
              exact fun id task isThere => isIdle id task (isOld id task isThere) } }

/-- The attached gate's own marking of a peer. -/
theorem Attached.startDrain {seen : Porch F} (attached : Attached world gate)
    (quiet : Quiet world seen) {synthetic : SocketAddr}
    (numbered : ∀ id, id ∈ seen.tasks → id < seen.spawned) (gates : seen.gates = world.gates)
    (loops : ∀ call attaching, seen.attaching.lookup call = some attaching →
      attaching.gate = gate ∨ attaching.undrained = [])
    (covered : ∀ other, other ∈ seen.routes.bySynthetic → other ≠ synthetic →
      other ∈ world.routes.drained ∨
        ∃ call attaching, seen.attaching.lookup call = some attaching ∧
          other ∈ attaching.undrained) :
    Attached (seen.startDrain gate synthetic) gate := by
  have known : gate ∈ seen.gates := by
    rw [gates]
    exact attached.known
  have alive : seen.alive gate = true → world.alive gate = true := by
    unfold Porch.alive
    rw [gates]
    exact id
  unfold Porch.startDrain
  split
  · next isMarked =>
      apply attached.same quiet known alive loops
      intro other isRouted
      by_cases same : other = synthetic
      · left
        rw [same, ← quiet.drained]
        exact isMarked
      · exact covered other isRouted same
  · next unmarked =>
      -- until it is marked, the peer is not among those the gate has to see to
      have without : Attached { seen with
          routes := { seen.routes with
            bySynthetic := seen.routes.bySynthetic.erase synthetic } } gate := by
        apply attached.same
        · exact ⟨quiet.tasks, quiet.drained, quiet.queue, quiet.written, quiet.attachedAt,
            quiet.accepted, quiet.heldThen⟩
        · exact known
        · exact alive
        · exact loops
        · intro other isRouted
          have isKey : other ∈ seen.routes.bySynthetic.erase synthetic := isRouted
          rw [AList.mem_erase] at isKey
          exact covered other isKey.2 isKey.1
      have spawned := without.spawn numbered unmarked
      apply spawned.same
      · exact ⟨rfl, rfl, fun _ => rfl, rfl, rfl, rfl, rfl⟩
      · exact known
      · exact fun isAlive => isAlive
      · exact loops
      · intro other isRouted
        by_cases same : other = synthetic
        · left
          show other ∈ seen.routes.drained.put synthetic ()
          rw [HashMap.mem_put]
          exact Or.inl same
        · apply spawned.covered other
          show other ∈ seen.routes.bySynthetic.erase synthetic
          rw [AList.mem_erase]
          exact ⟨same, isRouted⟩

/-- A task goes on to another stage. -/
theorem Attached.advance {next : Porch F} (attached : Attached world gate) {id : Nat}
    {task : DrainTask} {stage : DrainStage} (isThere : world.tasks.lookup id = some task)
    (tasks : next.tasks = world.tasks.put id { task with stage := stage })
    (gates : next.gates = world.gates) (routes : next.routes = world.routes)
    (attaching : next.attaching = world.attaching)
    (here : world.alive gate = true → world.Flow gate task.synthetic task.stage.payloads →
      next.Flow gate task.synthetic stage.payloads)
    (elsewhere : ∀ other hand, other ≠ task.synthetic → world.Flow gate other hand →
      next.Flow gate other hand) : Attached next gate := by
  have isEither : ∀ other found, next.tasks.lookup other = some found →
      (other = id ∧ found = { task with stage := stage }) ∨
        (other ≠ id ∧ world.tasks.lookup other = some found) := by
    intro other found isFound
    rw [tasks, HashMap.lookup_put] at isFound
    split at isFound
    · next same => exact Or.inl ⟨same, (Option.some.inj isFound).symm⟩
    · next apart => exact Or.inr ⟨apart, isFound⟩
  have stays : ∀ other found, world.tasks.lookup other = some found →
      ∃ now, next.tasks.lookup other = some now ∧ now.synthetic = found.synthetic := by
    intro other found isFound
    rw [tasks, HashMap.lookup_put]
    split
    · next same =>
        rw [same, isThere] at isFound
        cases isFound
        exact ⟨_, rfl, rfl⟩
    · exact ⟨found, isFound, rfl⟩
  have before : ∀ other found, next.tasks.lookup other = some found →
      ∃ then', world.tasks.lookup other = some then' ∧ then'.gate = found.gate ∧
        then'.synthetic = found.synthetic := by
    intro other found isFound
    rcases isEither other found isFound with ⟨isId, isTask⟩ | ⟨_, wasThere⟩
    · rw [isId, isTask]
      exact ⟨task, isThere, rfl, rfl⟩
    · exact ⟨found, wasThere, rfl, rfl⟩
  exact
    { known := by
        rw [gates]
        exact attached.known
      own := by
        intro other found isFound
        obtain ⟨earlier, wasThere, sameGate, samePeer⟩ := before other found isFound
        rw [routes, ← sameGate, ← samePeer]
        exact attached.own other earlier wasThere
      single := by
        intro first second firstTask secondTask isFirst isSecond same
        obtain ⟨earlier, wasFirst, _, firstPeer⟩ := before first firstTask isFirst
        obtain ⟨later, wasSecond, _, secondPeer⟩ := before second secondTask isSecond
        exact attached.single first second earlier later wasFirst wasSecond
          (firstPeer.trans (same.trans secondPeer.symm))
      loops := by
        rw [attaching]
        exact attached.loops
      covered := by
        rw [routes, attaching]
        exact attached.covered
      living := by
        intro isAlive
        have wasAlive : world.alive gate = true := by
          unfold Porch.alive at isAlive ⊢
          rw [gates] at isAlive
          exact isAlive
        have living := attached.living wasAlive
        exact
          { marked := by
              intro synthetic isMarked
              rw [routes] at isMarked
              obtain ⟨other, found, wasThere, isPeer⟩ := living.marked synthetic isMarked
              obtain ⟨now, isNow, samePeer⟩ := stays other found wasThere
              exact ⟨other, now, isNow, samePeer.trans isPeer⟩
            carried := by
              intro other found isFound
              rcases isEither other found isFound with ⟨_, isTask⟩ | ⟨apart, wasThere⟩
              · rw [isTask]
                exact here wasAlive (living.carried id task isThere)
              · apply elsewhere
                · exact fun same => apart
                    (attached.single other id found task wasThere isThere same)
                · exact living.carried other found wasThere
            idle := by
              intro synthetic isIdle
              have wasIdle : ∀ other found, world.tasks.lookup other = some found →
                  found.synthetic ≠ synthetic := by
                intro other found wasThere samePeer
                obtain ⟨now, isNow, same⟩ := stays other found wasThere
                exact isIdle other now isNow (same.trans samePeer)
              apply elsewhere
              · exact (wasIdle id task isThere).symm
              · exact living.idle synthetic wasIdle } }

/-- A task ends with its gate. -/
theorem Attached.retire (attached : Attached world gate) (id : Nat)
    (lost : world.alive gate = false) :
    Attached { world with tasks := world.tasks.erase id } gate := by
  have before : ∀ other found, (world.tasks.erase id).lookup other = some found →
      world.tasks.lookup other = some found := by
    intro other found isFound
    rw [HashMap.lookup_erase] at isFound
    split at isFound
    · cases isFound
    · exact isFound
  exact
    { known := attached.known
      own := fun other found isFound => attached.own other found (before other found isFound)
      single := by
        intro first second firstTask secondTask isFirst isSecond same
        exact attached.single first second firstTask secondTask (before first firstTask isFirst)
          (before second secondTask isSecond) same
      loops := attached.loops
      covered := attached.covered
      living := by
        intro isAlive
        have isAliveStill : world.alive gate = true := isAlive
        rw [lost] at isAliveStill
        cases isAliveStill }

/-- Every queue may take in what is accepted. -/
theorem Attached.accept {next : Porch F} (attached : Attached world gate)
    (tasks : next.tasks = world.tasks) (gates : next.gates = world.gates)
    (routes : next.routes = world.routes) (attaching : next.attaching = world.attaching)
    (flows : ∀ other hand, world.Flow gate other hand → next.Flow gate other hand) :
    Attached next gate where
  known := by
    rw [gates]
    exact attached.known
  own := by
    rw [tasks, routes]
    exact attached.own
  single := by
    rw [tasks]
    exact attached.single
  loops := by
    rw [attaching]
    exact attached.loops
  covered := by
    rw [routes, attaching]
    exact attached.covered
  living := by
    intro isAlive
    have wasAlive : world.alive gate = true := by
      unfold Porch.alive at isAlive ⊢
      rw [gates] at isAlive
      exact isAlive
    have living := attached.living wasAlive
    exact
      { marked := by
          rw [tasks, routes]
          exact living.marked
        carried := by
          rw [tasks]
          exact fun id task isThere => flows _ _ (living.carried id task isThere)
        idle := by
          rw [tasks]
          exact fun synthetic isIdle => flows _ _ (living.idle synthetic isIdle) }

/-- What the one task of a peer has in hand. -/
theorem inHand_of_task {id : Nat} {task : DrainTask}
    (isThere : world.tasks.lookup id = some task)
    (single : ∀ other found, world.tasks.lookup other = some found →
      found.synthetic = task.synthetic → other = id) :
    world.inHand task.synthetic = task.stage.payloads := by
  unfold inHand
  cases isFirst : world.tasks.entries.find? fun entry => entry.2.synthetic == task.synthetic with
  | none =>
      have notThis := List.find?_eq_none.mp isFirst ⟨id, task⟩ (AList.mem_lookup_iff.mp isThere)
      exact absurd (beq_self_eq_true task.synthetic) notThis
  | some entry =>
      have member := List.mem_of_find?_eq_some isFirst
      have isPeer := List.find?_some isFirst
      have isFound : world.tasks.lookup entry.1 = some entry.2 := AList.mem_lookup_iff.mpr member
      have sameId : entry.1 = id := single entry.1 entry.2 isFound (eq_of_beq isPeer)
      rw [sameId, isThere] at isFound
      cases isFound
      rfl

theorem inHand_of_idle {synthetic : SocketAddr}
    (isIdle : ∀ id task, world.tasks.lookup id = some task → task.synthetic ≠ synthetic) :
    world.inHand synthetic = [] := by
  unfold inHand
  cases isFirst : world.tasks.entries.find? fun entry => entry.2.synthetic == synthetic with
  | none => rfl
  | some entry =>
      have isPeer := List.find?_some isFirst
      have isFound : world.tasks.lookup entry.1 = some entry.2 :=
        AList.mem_lookup_iff.mpr (List.mem_of_find?_eq_some isFirst)
      exact absurd (eq_of_beq isPeer) (isIdle entry.1 entry.2 isFound)

/-- A gate the tasks are ready for is attached. -/
theorem attached_attachGate (call : Nat) (known : gate ∈ world.gates)
    (ready : world.readyFor gate = true) :
    Attached (world.attachGate call gate) gate := by
  unfold readyFor at ready
  rw [Bool.and_eq_true, Bool.and_eq_true, Bool.and_eq_true, List.all_eq_true, List.all_eq_true,
    List.all_eq_true, List.all_eq_true] at ready
  obtain ⟨⟨⟨ownAll, apartAll⟩, markedAll⟩, loopsAll⟩ := ready
  have own : ∀ id task, world.tasks.lookup id = some task →
      task.gate = gate ∧ task.synthetic ∈ world.routes.drained := by
    intro id task isThere
    have both := ownAll task ((HashMap.mem_values _ _).mpr ⟨id, isThere⟩)
    rw [Bool.and_eq_true, decide_eq_true_iff] at both
    exact ⟨eq_of_beq both.1, both.2⟩
  have single : ∀ id other task otherTask, world.tasks.lookup id = some task →
      world.tasks.lookup other = some otherTask → task.synthetic = otherTask.synthetic →
        id = other := by
    intro id other task otherTask isThere isOther same
    have apart := List.all_eq_true.mp (apartAll ⟨id, task⟩ (AList.mem_lookup_iff.mp isThere))
      ⟨other, otherTask⟩ (AList.mem_lookup_iff.mp isOther)
    simpa [same] using apart
  have nothingSince : ∀ synthetic, (world.attachGate call gate).writtenSince gate synthetic = [] := by
    intro synthetic
    show ((world.written.drop world.written.length).filter _).map _ = []
    rw [List.drop_length]
    rfl
  exact
    { known := known
      own := own
      single := single
      loops := by
        intro other attaching isThere
        change (world.attaching.put call _).lookup other = some attaching at isThere
        rw [HashMap.lookup_put] at isThere
        split at isThere
        · cases isThere
          exact Or.inl rfl
        · have either := loopsAll attaching ((HashMap.mem_values _ _).mpr ⟨other, isThere⟩)
          rw [Bool.or_eq_true, List.isEmpty_iff] at either
          exact either.imp_left eq_of_beq
      covered := by
        intro synthetic isRouted
        by_cases isMarked : synthetic ∈ world.routes.drained
        · exact Or.inl isMarked
        · right
          refine ⟨call, ⟨gate, world.routes.bySynthetic.keys.filter (· ∉ world.routes.drained)⟩,
            ?_, ?_⟩
          · show (world.attaching.put call _).lookup call = _
            rw [HashMap.lookup_put, if_pos rfl]
          · rw [List.mem_filter]
            exact ⟨AList.mem_keys.mpr isRouted, decide_eq_true isMarked⟩
      living := by
        intro _
        exact
          { marked := by
              intro synthetic isMarked
              have some := markedAll synthetic (AList.mem_keys.mpr isMarked)
              rw [List.any_eq_true] at some
              obtain ⟨task, member, isPeer⟩ := some
              obtain ⟨id, isThere⟩ := (HashMap.mem_values _ _).mp member
              exact ⟨id, task, isThere, eq_of_beq isPeer⟩
            carried := by
              intro id task isThere
              unfold Flow
              have isHeld : world.inHand task.synthetic = task.stage.payloads :=
                inHand_of_task isThere fun other found isFound same =>
                  single other id found task isFound isThere same
              rw [nothingSince, ← isHeld]
              exact (List.append_nil _).symm
            idle := by
              intro synthetic isIdle
              unfold Flow
              have isHeld : world.inHand synthetic = [] := inHand_of_idle isIdle
              rw [nothingSince]
              show world.queue synthetic = world.inHand synthetic ++ world.queue synthetic ++ []
              rw [isHeld, List.append_nil]
              rfl } }

end Steps

/-! ## What each action keeps -/

section Tending

variable {world : Porch F} {gate : GateId}

theorem tended_new : Tended (new : Porch F) where
  numbered := nofun
  opened := nofun
  dated := Nat.le_refl 0
  attached := nofun

/-- The laws that do not speak of the attached gate. -/
theorem Tended.withAttached {next : Porch F} (tended : Tended world)
    (numbered : ∀ id, id ∈ next.tasks → id < next.spawned)
    (opened : ∀ synthetic shaper, next.paths.lookup synthetic = some shaper →
      shaper.closed = false)
    (written : next.written = world.written) (attachedAt : next.attachedAt = world.attachedAt)
    (attached : ∀ gate, next.routes.gate = some gate → Attached next gate) : Tended next where
  numbered := numbered
  opened := opened
  dated := by
    rw [written, attachedAt]
    exact tended.dated
  attached := attached

theorem numbered_startDrain (numbered : ∀ id, id ∈ world.tasks → id < world.spawned)
    (synthetic : SocketAddr) :
    ∀ id, id ∈ (world.startDrain gate synthetic).tasks →
      id < (world.startDrain gate synthetic).spawned := by
  unfold startDrain
  split
  · exact numbered
  · intro id isThere
    show id < world.spawned + 1
    rw [HashMap.mem_put] at isThere
    rcases isThere with isNew | before
    · omega
    · have below := numbered id before
      omega

/-- A marking leaves all but the marks and the tasks as it was. -/
theorem startDrain_same (world : Porch F) (gate : GateId) (synthetic : SocketAddr) :
    (world.startDrain gate synthetic).paths = world.paths ∧
      (world.startDrain gate synthetic).routes.gate = world.routes.gate ∧
      (world.startDrain gate synthetic).written = world.written ∧
      (world.startDrain gate synthetic).attachedAt = world.attachedAt := by
  unfold startDrain
  split
  · exact ⟨rfl, rfl, rfl, rfl⟩
  · exact ⟨rfl, rfl, rfl, rfl⟩

theorem Tended.numbered_put (tended : Tended world) {id : Nat} {task : DrainTask}
    (isThere : world.tasks.lookup id = some task) (onward : DrainTask) :
    ∀ other, other ∈ world.tasks.put id onward → other < world.spawned := by
  intro other isOther
  rw [HashMap.mem_put] at isOther
  rcases isOther with same | before
  · rw [same]
    exact tended.numbered id (AList.lookup_isSome.mp (Option.isSome_of_mem isThere))
  · exact tended.numbered other before

theorem Tended.numbered_erase (tended : Tended world) (id : Nat) :
    ∀ other, other ∈ world.tasks.erase id → other < world.spawned := by
  intro other isOther
  rw [AList.mem_erase] at isOther
  exact tended.numbered other isOther.2

/-- A change of the connections that loses none and revives none. -/
theorem Tended.withGates (tended : Tended world) (gates : HashMap GateId GateConn)
    (kept : ∀ gate, gate ∈ world.gates → gate ∈ gates)
    (living : ∀ gate, gate ∈ world.gates →
      alive { world with gates := gates } gate = true → world.alive gate = true) :
    Tended { world with gates := gates } := by
  apply Tended.withAttached tended
  · exact tended.numbered
  · exact tended.opened
  · rfl
  · rfl
  · intro gate isGate
    have attached := tended.attached gate isGate
    apply attached.same
    · exact ⟨rfl, rfl, fun _ => rfl, rfl, rfl, rfl, rfl⟩
    · exact kept gate attached.known
    · exact living gate attached.known
    · exact attached.loops
    · exact attached.covered

theorem Tended.connects (tended : Tended world) {fresh : GateId} (isFresh : fresh ∉ world.gates)
    (remoteAddress : SocketAddr) :
    Tended { world with gates := world.gates.put fresh ⟨remoteAddress, true⟩ } := by
  apply tended.withGates
  · intro gate known
    rw [HashMap.mem_put]
    exact Or.inr known
  · intro gate known isAlive
    unfold alive at isAlive ⊢
    rw [HashMap.lookup_put, if_neg] at isAlive
    · exact isAlive
    · intro same
      rw [← same] at isFresh
      exact isFresh known

theorem Tended.gateLost (tended : Tended world) (lost : GateId) (conn : GateConn) :
    Tended { world with gates := world.gates.put lost { conn with alive := false } } := by
  apply tended.withGates
  · intro gate known
    rw [HashMap.mem_put]
    exact Or.inr known
  · intro gate _ isAlive
    unfold alive at isAlive ⊢
    rw [HashMap.lookup_put] at isAlive
    split at isAlive
    · cases isAlive
    · exact isAlive

theorem Tended.attachGate (tended : Tended world) (call : Nat) (known : gate ∈ world.gates)
    (ready : world.readyFor gate = true) : Tended (world.attachGate call gate) where
  numbered := tended.numbered
  opened := tended.opened
  dated := Nat.le_refl _
  attached := by
    intro other isGate
    have same : gate = other := Option.some.inj isGate
    rw [← same]
    exact attached_attachGate call known ready

/-- A call that has seen to every peer returns. -/
theorem Tended.attachReturns (tended : Tended world) {call : Nat} {own : GateId}
    (isThere : world.attaching.lookup call = some ⟨own, []⟩) :
    Tended { world with
      attaching := world.attaching.erase call
      readers := world.readers.put call own } := by
  apply Tended.withAttached tended
  · exact tended.numbered
  · exact tended.opened
  · rfl
  · rfl
  · intro gate isGate
    have attached := tended.attached gate isGate
    apply attached.same
    · exact ⟨rfl, rfl, fun _ => rfl, rfl, rfl, rfl, rfl⟩
    · exact attached.known
    · exact id
    · intro other attaching isOther
      rw [HashMap.lookup_erase] at isOther
      split at isOther
      · cases isOther
      · exact attached.loops other attaching isOther
    · intro synthetic isRouted
      rcases attached.covered synthetic isRouted with isMarked | ⟨other, attaching, isOther, owed⟩
      · exact Or.inl isMarked
      · right
        refine ⟨other, attaching, ?_, owed⟩
        rw [HashMap.lookup_erase, if_neg]
        · exact isOther
        · intro same
          rw [same, isThere] at isOther
          cases isOther
          cases owed

theorem Tended.readerGone (tended : Tended world) (call : Nat) :
    Tended { world with readers := world.readers.erase call } := by
  apply Tended.withAttached tended
  · exact tended.numbered
  · exact tended.opened
  · rfl
  · rfl
  · intro gate isGate
    have attached := tended.attached gate isGate
    apply attached.same
    · exact ⟨rfl, rfl, fun _ => rfl, rfl, rfl, rfl, rfl⟩
    · exact attached.known
    · exact id
    · exact attached.loops
    · exact attached.covered

theorem Tended.detachGate (tended : Tended world) (gateAddr : SocketAddr) :
    Tended (world.detachGate gateAddr) := by
  unfold Porch.detachGate
  split
  · exact tended
  · split
    · exact tended
    · exact tended.withAttached tended.numbered tended.opened rfl rfl nofun

end Tending

section Queues

variable [F64 F] {world : Porch F} {gate : GateId} {synthetic : SocketAddr} {now : Nat}

/-- A queue that is made for a peer is empty, and open. -/
theorem lookup_ensureBySynthetic {paths : HashMap SocketAddr (RelayShaper F)} {other : SocketAddr}
    {shaper : RelayShaper F}
    (isThere : (ensureBySynthetic paths synthetic now).lookup other = some shaper) :
    paths.lookup other = some shaper ∨
      paths.lookup other = none ∧ shaper = RelayShaper.house now := by
  unfold ensureBySynthetic at isThere
  rw [HashMap.lookup_orInsert] at isThere
  split at isThere
  · next same =>
      rw [same]
      cases before : paths.lookup synthetic with
      | none =>
          rw [before] at isThere
          exact Or.inr ⟨rfl, (Option.some.inj isThere).symm⟩
      | some found =>
          rw [before] at isThere
          exact Or.inl isThere
  · exact Or.inl isThere

theorem opened_ensureBySynthetic {paths : HashMap SocketAddr (RelayShaper F)}
    (opened : ∀ synthetic shaper, paths.lookup synthetic = some shaper → shaper.closed = false) :
    ∀ other shaper, (ensureBySynthetic paths synthetic now).lookup other = some shaper →
      shaper.closed = false := by
  intro other shaper isThere
  rcases lookup_ensureBySynthetic isThere with before | ⟨_, isHouse⟩
  · exact opened other shaper before
  · rw [isHouse]
    rfl

theorem queue_ensureBySynthetic {seen : Porch F}
    (paths : seen.paths = ensureBySynthetic world.paths synthetic now) (other : SocketAddr) :
    seen.queue other = world.queue other := by
  unfold queue
  rw [paths]
  cases isThere : (ensureBySynthetic world.paths synthetic now).lookup other with
  | none =>
      have absent : world.paths.lookup other = none := by
        unfold ensureBySynthetic at isThere
        rw [HashMap.lookup_orInsert] at isThere
        split at isThere
        · cases isThere
        · exact isThere
      rw [absent]
  | some shaper =>
      rcases lookup_ensureBySynthetic isThere with before | ⟨before, isHouse⟩
      · rw [before]
      · rw [before, isHouse]
        rfl

/-- A call sees to its next peer. -/
theorem Tended.attachNext (tended : Tended world) {call : Nat} {own : GateId}
    {rest : List SocketAddr}
    (isThere : world.attaching.lookup call = some ⟨own, synthetic :: rest⟩) :
    Tended (({ world with
      paths := ensureBySynthetic world.paths synthetic now
      attaching := world.attaching.put call ⟨own, rest⟩ } : Porch F).startDrain own
        synthetic) := by
  generalize isSeen : ({ world with
    paths := ensureBySynthetic world.paths synthetic now
    attaching := world.attaching.put call ⟨own, rest⟩ } : Porch F) = seen
  have numbered : ∀ id, id ∈ seen.tasks → id < seen.spawned := by
    rw [← isSeen]
    exact tended.numbered
  obtain ⟨paths, routesGate, written, attachedAt⟩ := startDrain_same seen own synthetic
  apply tended.withAttached
  · exact numbered_startDrain numbered synthetic
  · rw [paths, ← isSeen]
    exact opened_ensureBySynthetic tended.opened
  · rw [written, ← isSeen]
  · rw [attachedAt, ← isSeen]
  · intro gate isGate
    rw [routesGate, ← isSeen] at isGate
    have attached := tended.attached gate isGate
    have isOwn : own = gate := by
      rcases attached.loops call _ isThere with isOwn | none
      · exact isOwn
      · cases none
    rw [isOwn]
    rw [isOwn] at isThere isSeen
    have quiet : Quiet world seen := by
      rw [← isSeen]
      exact ⟨rfl, rfl, queue_ensureBySynthetic rfl, rfl, rfl, rfl, rfl⟩
    apply attached.startDrain quiet numbered
    · rw [← isSeen]
    · intro other attaching isOther
      rw [← isSeen] at isOther
      change (world.attaching.put call _).lookup other = _ at isOther
      rw [HashMap.lookup_put] at isOther
      split at isOther
      · cases isOther
        exact Or.inl rfl
      · exact attached.loops other attaching isOther
    · intro peer isRouted apart
      rw [← isSeen] at isRouted ⊢
      rcases attached.covered peer isRouted with isMarked | ⟨other, attaching, isOther, owed⟩
      · exact Or.inl isMarked
      · right
        by_cases same : other = call
        · rw [same, isThere] at isOther
          cases isOther
          rw [List.mem_cons] at owed
          refine ⟨call, ⟨gate, rest⟩, ?_, owed.resolve_left apart⟩
          show (world.attaching.put call _).lookup call = _
          rw [HashMap.lookup_put, if_pos rfl]
        · refine ⟨other, attaching, ?_, owed⟩
          show (world.attaching.put call _).lookup other = _
          rw [HashMap.lookup_put, if_neg same]
          exact isOther

theorem Tended.registerRelaySession (tended : Tended world) (session : UInt32)
    (syntheticPeer : SocketAddr) (now : Nat) :
    Tended (world.registerRelaySession session syntheticPeer now) := by
  unfold Porch.registerRelaySession
  simp only
  generalize isRegistered : ({ world with
    paths := ensureBySynthetic world.paths syntheticPeer now
    routes := { world.routes with
      bySynthetic := world.routes.bySynthetic.put syntheticPeer session
      bySession := world.routes.bySession.put session syntheticPeer } } : Porch F) = registered
  have opened : ∀ other shaper, registered.paths.lookup other = some shaper →
      shaper.closed = false := by
    rw [← isRegistered]
    exact opened_ensureBySynthetic tended.opened
  have numbered : ∀ id, id ∈ registered.tasks → id < registered.spawned := by
    rw [← isRegistered]
    exact tended.numbered
  cases isGate : world.routes.gate with
  | none =>
      apply tended.withAttached numbered opened
      · rw [← isRegistered]
      · rw [← isRegistered]
      · intro gate isSome
        rw [← isRegistered] at isSome
        change world.routes.gate = some gate at isSome
        rw [isGate] at isSome
        cases isSome
  | some gate =>
      obtain ⟨paths, routesGate, written, attachedAt⟩ :=
        startDrain_same registered gate syntheticPeer
      have attached := tended.attached gate isGate
      apply tended.withAttached
      · exact numbered_startDrain numbered syntheticPeer
      · rw [paths]
        exact opened
      · rw [written, ← isRegistered]
      · rw [attachedAt, ← isRegistered]
      · intro other isOther
        rw [routesGate, ← isRegistered] at isOther
        change world.routes.gate = some other at isOther
        rw [isGate] at isOther
        cases isOther
        have quiet : Quiet world registered := by
          rw [← isRegistered]
          exact ⟨rfl, rfl, queue_ensureBySynthetic rfl, rfl, rfl, rfl, rfl⟩
        apply attached.startDrain quiet numbered
        · rw [← isRegistered]
        · rw [← isRegistered]
          exact attached.loops
        · intro peer isRouted apart
          rw [← isRegistered] at isRouted ⊢
          change peer ∈ world.routes.bySynthetic.put syntheticPeer session at isRouted
          rw [HashMap.mem_put] at isRouted
          exact attached.covered peer (isRouted.resolve_left apart)

omit [F64 F] in
theorem queue_put {next : Porch F} {shaper : RelayShaper F}
    (paths : next.paths = world.paths.put synthetic shaper) (other : SocketAddr) :
    next.queue other =
      if other = synthetic then shaper.items.map Prod.snd else world.queue other := by
  unfold queue
  rw [paths, HashMap.lookup_put]
  split
  · rfl
  · rfl

omit [F64 F] in
theorem queue_of_lookup {shaper : RelayShaper F}
    (isThere : world.paths.lookup synthetic = some shaper) :
    world.queue synthetic = shaper.items.map Prod.snd := by
  unfold queue
  rw [isThere]
  rfl

omit [F64 F] in
theorem Tended.opened_put (tended : Tended world) {shaper : RelayShaper F}
    (isOpen : shaper.closed = false) :
    ∀ other found, (world.paths.put synthetic shaper).lookup other = some found →
      found.closed = false := by
  intro other found isFound
  rw [HashMap.lookup_put] at isFound
  split at isFound
  · cases isFound
    exact isOpen
  · exact tended.opened other found isFound

omit [F64 F] in
/-- A transmit adds to the queue what it is told was accepted. -/
theorem items_tryEnqueueAll (shaper : RelayShaper F) (payloads : List Bytes) (now : Nat) :
    (shaper.tryEnqueueAll payloads now).1.closed = shaper.closed ∧
      (shaper.tryEnqueueAll payloads now).1.items.map Prod.snd = shaper.items.map Prod.snd ++
        if (shaper.tryEnqueueAll payloads now).2 = .accepted then payloads else [] := by
  rcases shaper.tryEnqueueAll_cases payloads now with
    ⟨none, answer⟩ | ⟨_, _, answer⟩ | ⟨_, _, answer⟩ | ⟨_, _, _, answer⟩
  · rw [answer, if_pos rfl, none, List.append_nil]
    exact ⟨rfl, rfl⟩
  · rw [answer, if_neg nofun, List.append_nil]
    exact ⟨rfl, rfl⟩
  · rw [answer, if_neg nofun, List.append_nil]
    exact ⟨rfl, rfl⟩
  · rw [answer, if_pos rfl]
    refine ⟨rfl, ?_⟩
    show (shaper.items ++ payloads.map fun payload => (now, payload)).map Prod.snd = _
    rw [List.map_append, List.map_map]
    show shaper.items.map Prod.snd ++ payloads.map id = _
    rw [List.map_id]

omit [F64 F] in
theorem acceptedSince_append {next : Porch F} {payloads : List Bytes}
    (accepted : next.accepted =
      world.accepted ++ payloads.map fun payload => (synthetic, payload)) (other : SocketAddr) :
    next.acceptedSince other =
      world.acceptedSince other ++ if other = synthetic then payloads else [] := by
  unfold acceptedSince
  rw [accepted, List.filter_append, List.map_append, List.filter_map, List.map_map]
  congr 1
  split
  · next same =>
      rw [List.filter_eq_self.mpr]
      · exact List.map_id payloads
      · intro payload _
        show (synthetic == other) = true
        rw [same]
        exact beq_self_eq_true synthetic
  · next apart =>
      rw [List.filter_eq_nil_iff.mpr]
      · rfl
      · intro payload _ isOther
        exact apart (eq_of_beq isOther).symm

omit [F64 F] in
/-- What is new in the queue is what is new among the accepted. -/
theorem Flow.enqueue {next : Porch F} {shaper : RelayShaper F} {added : List Bytes}
    (isThere : world.paths.lookup synthetic = some shaper) {queued : RelayShaper F}
    (items : queued.items.map Prod.snd = shaper.items.map Prod.snd ++ added)
    (paths : next.paths = world.paths.put synthetic queued)
    (accepted : next.accepted = world.accepted ++ added.map fun payload => (synthetic, payload))
    (written : next.written = world.written) (attachedAt : next.attachedAt = world.attachedAt)
    (heldThen : next.heldThen = world.heldThen) {other : SocketAddr} {hand : List Bytes}
    (flow : world.Flow gate other hand) : next.Flow gate other hand := by
  unfold Flow at flow ⊢
  have since : next.writtenSince gate other = world.writtenSince gate other := by
    unfold writtenSince
    rw [written, attachedAt]
  rw [since, heldThen, acceptedSince_append accepted, queue_put paths]
  split
  · next same =>
      rw [same] at flow ⊢
      rw [items, ← List.append_assoc, ← queue_of_lookup isThere, flow, List.append_assoc]
  · rw [List.append_nil]
    exact flow

omit [F64 F] in
theorem Tended.enqueue (tended : Tended world) {shaper : RelayShaper F}
    (isThere : world.paths.lookup synthetic = some shaper) (payloads : List Bytes) (now : Nat) :
    Tended { world with
      paths := world.paths.put synthetic (shaper.tryEnqueueAll payloads now).1
      accepted :=
        if (shaper.tryEnqueueAll payloads now).2 = .accepted then
          world.accepted ++ payloads.map fun payload => (synthetic, payload)
        else world.accepted } := by
  obtain ⟨sameClosed, items⟩ := items_tryEnqueueAll shaper payloads now
  apply Tended.withAttached tended
  · exact tended.numbered
  · exact tended.opened_put (sameClosed.trans (tended.opened synthetic shaper isThere))
  · rfl
  · rfl
  · intro gate isGate
    have attached := tended.attached gate isGate
    apply attached.accept
    · rfl
    · rfl
    · rfl
    · rfl
    · intro other hand flow
      apply Flow.enqueue isThere items
      · rfl
      · show (if _ then _ else world.accepted) = _
        split
        · rfl
        · exact (List.append_nil _).symm
      · rfl
      · rfl
      · rfl
      · exact flow

/-- A pass that is not ready leaves the queue as it is. -/
theorem Tended.refill (tended : Tended world) {shaper : RelayShaper F}
    (isThere : world.paths.lookup synthetic = some shaper) (now : Nat) :
    Tended { world with paths := world.paths.put synthetic (shaper.refill now) } := by
  apply Tended.withAttached tended
  · exact tended.numbered
  · exact tended.opened_put (tended.opened synthetic shaper isThere)
  · rfl
  · rfl
  · intro gate isGate
    have attached := tended.attached gate isGate
    apply attached.same
    · refine ⟨rfl, rfl, ?_, rfl, rfl, rfl, rfl⟩
      intro other
      rw [queue_put rfl]
      split
      · next same =>
          rw [same, queue_of_lookup isThere]
          rfl
      · rfl
    · exact attached.known
    · exact id
    · exact attached.loops
    · exact attached.covered

omit [F64 F] in
/-- A pass that is ready moves the front of the queue into the task's hand. -/
theorem Tended.ready (tended : Tended world) {id : Nat} {own : GateId}
    (isTask : world.tasks.lookup id = some ⟨own, synthetic, .draining⟩)
    {shaper left : RelayShaper F} (isThere : world.paths.lookup synthetic = some shaper)
    {take : Nat} (isOpen : left.closed = false) (items : left.items = shaper.items.drop take) :
    Tended { world with
      paths := world.paths.put synthetic left
      tasks := world.tasks.put id
        ⟨own, synthetic, .checking ((shaper.items.take take).map Prod.snd)⟩ } := by
  apply Tended.withAttached tended
  · exact tended.numbered_put isTask _
  · exact tended.opened_put isOpen
  · rfl
  · rfl
  · intro gate isGate
    apply (tended.attached gate isGate).advance isTask
    · rfl
    · rfl
    · rfl
    · rfl
    · intro _ flow
      change world.Flow gate synthetic [] at flow
      unfold Flow at flow ⊢
      rw [queue_of_lookup isThere, List.append_nil] at flow
      rw [queue_put rfl, if_pos rfl, items, List.append_assoc]
      show world.writtenSince gate synthetic ++
        ((shaper.items.take take).map Prod.snd ++ (shaper.items.drop take).map Prod.snd) = _
      rw [← List.map_append, List.take_append_drop]
      exact flow
    · intro other hand apart flow
      apply flow.same
      · rfl
      · rfl
      · rfl
      · rfl
      · rw [queue_put rfl]
        exact if_neg apart

omit [F64 F] in
/-- A task goes on with the same in hand. -/
theorem Tended.onward (tended : Tended world) {id : Nat} {task : DrainTask} {stage : DrainStage}
    (isTask : world.tasks.lookup id = some task)
    (same : stage.payloads = task.stage.payloads) :
    Tended { world with tasks := world.tasks.put id { task with stage := stage } } := by
  apply Tended.withAttached tended
  · exact tended.numbered_put isTask _
  · exact tended.opened
  · rfl
  · rfl
  · intro gate isGate
    apply (tended.attached gate isGate).advance isTask
    · rfl
    · rfl
    · rfl
    · rfl
    · intro _ flow
      rw [same]
      exact flow
    · exact fun other hand _ flow => flow

omit [F64 F] in
theorem writtenSince_append {next : Porch F} (dated : world.attachedAt ≤ world.written.length)
    {one : Written} (written : next.written = world.written ++ [one])
    (attachedAt : next.attachedAt = world.attachedAt) (gate : GateId) (synthetic : SocketAddr) :
    next.writtenSince gate synthetic = world.writtenSince gate synthetic ++
      if one.gate = gate ∧ one.synthetic = synthetic then [one.payload] else [] := by
  unfold writtenSince
  rw [written, attachedAt, List.drop_append_of_le_length dated, List.filter_append,
    List.map_append]
  congr 1
  split
  · next both =>
      rw [← both.1, ← both.2, List.filter_eq_self.mpr]
      · rfl
      · intro other isOne
        rw [List.mem_singleton] at isOne
        rw [isOne, beq_self_eq_true, beq_self_eq_true]
        rfl
  · next apart =>
      rw [List.filter_eq_nil_iff.mpr]
      · rfl
      · intro other isOne both
        rw [List.mem_singleton] at isOne
        rw [isOne, Bool.and_eq_true] at both
        exact apart ⟨eq_of_beq both.1, eq_of_beq both.2⟩

omit [F64 F] in
/-- What the gate takes, the task no longer has in hand. -/
theorem Flow.send {next : Porch F} {payload : Bytes} {rest : List Bytes}
    (dated : world.attachedAt ≤ world.written.length)
    (written : next.written = world.written ++ [⟨gate, synthetic, payload⟩])
    (attachedAt : next.attachedAt = world.attachedAt) (accepted : next.accepted = world.accepted)
    (heldThen : next.heldThen = world.heldThen)
    (queue : next.queue synthetic = world.queue synthetic)
    (flow : world.Flow gate synthetic (payload :: rest)) : next.Flow gate synthetic rest := by
  have since : next.acceptedSince synthetic = world.acceptedSince synthetic := by
    unfold acceptedSince
    rw [accepted]
  unfold Flow at flow ⊢
  rw [writtenSince_append dated written attachedAt, if_pos ⟨rfl, rfl⟩, queue, heldThen, since,
    List.append_assoc _ [payload] rest]
  exact flow

omit [F64 F] in
theorem Flow.sendElsewhere {next : Porch F} {one : Written} {hand : List Bytes}
    (dated : world.attachedAt ≤ world.written.length)
    (written : next.written = world.written ++ [one])
    (attachedAt : next.attachedAt = world.attachedAt) (accepted : next.accepted = world.accepted)
    (heldThen : next.heldThen = world.heldThen)
    (queue : next.queue synthetic = world.queue synthetic) (apart : synthetic ≠ one.synthetic)
    (flow : world.Flow gate synthetic hand) : next.Flow gate synthetic hand := by
  have since : next.acceptedSince synthetic = world.acceptedSince synthetic := by
    unfold acceptedSince
    rw [accepted]
  unfold Flow at flow ⊢
  rw [writtenSince_append dated written attachedAt, if_neg, queue, heldThen, since,
    List.append_nil]
  · exact flow
  · exact fun both => apart both.2.symm

omit [F64 F] in
/-- The attached gate takes the next datagram of a task. -/
theorem Tended.send (tended : Tended world) {id : Nat} {own : GateId} {payload : Bytes}
    {rest : List Bytes}
    (isTask : world.tasks.lookup id = some ⟨own, synthetic, .sending (payload :: rest)⟩) :
    Tended { world with
      tasks := world.tasks.put id ⟨own, synthetic, .sending rest⟩
      written := world.written ++ [⟨own, synthetic, payload⟩] } where
  numbered := tended.numbered_put isTask _
  opened := tended.opened
  dated := by
    have dated := tended.dated
    show world.attachedAt ≤ (world.written ++ [_]).length
    rw [List.length_append]
    omega
  attached := by
    intro gate isGate
    have attached := tended.attached gate isGate
    have isOwn : own = gate := (attached.own id _ isTask).1
    apply attached.advance isTask
    · rfl
    · rfl
    · rfl
    · rfl
    · intro _ flow
      apply Flow.send tended.dated
      · rw [isOwn]
      · rfl
      · rfl
      · rfl
      · rfl
      · exact flow
    · intro other hand apart flow
      apply Flow.sendElsewhere tended.dated
      · rfl
      · rfl
      · rfl
      · rfl
      · rfl
      · exact apart
      · exact flow

omit [F64 F] in
/-- A task whose connection is lost ends. -/
theorem Tended.taskLost (tended : Tended world) {id : Nat} {task : DrainTask}
    (isTask : world.tasks.lookup id = some task) (lost : world.alive task.gate = false) :
    Tended { world with tasks := world.tasks.erase id } := by
  apply Tended.withAttached tended
  · exact tended.numbered_erase id
  · exact tended.opened
  · rfl
  · rfl
  · intro gate isGate
    have attached := tended.attached gate isGate
    apply attached.retire
    rw [← (attached.own id task isTask).1]
    exact lost

theorem Tended.drain (tended : Tended world) (id now : Nat) : Tended (world.step (.drain id now)) := by
  simp only [step]
  split
  · next own synthetic isTask =>
      cases isThere : world.paths.lookup synthetic with
      | none => exact tended
      | some shaper =>
          simp only
          rcases shaper.drainPass_cases now with ⟨isClosed, _⟩ | ⟨isOpen, idle | sleep | ready⟩
          · rw [tended.opened synthetic shaper isThere] at isClosed
            cases isClosed
          · rw [idle]
            exact tended.refill isThere now
          · rw [sleep]
            exact tended.refill isThere now
          · obtain ⟨take, tokens, ready⟩ := ready
            rw [ready]
            apply tended.ready isTask isThere
            · exact isOpen
            · rfl
  · exact tended

theorem Tended.check (tended : Tended world) (id : Nat) : Tended (world.step (.check id)) := by
  simp only [step]
  split
  · next own synthetic payloads isTask =>
      split
      · exact tended.onward isTask rfl
      · next detached =>
          apply Tended.withAttached tended
          · exact tended.numbered_erase id
          · exact tended.opened
          · rfl
          · rfl
          · intro gate isGate
            exact absurd (Option.isSome_of_mem isGate) detached
  · exact tended

theorem Tended.sends (tended : Tended world) (id : Nat) (refused : Bool)
    (keeps : world.loses (.send id refused) = false) :
    Tended (world.step (.send id refused)) := by
  simp only [step]
  split
  · next isTask => exact tended.onward isTask rfl
  · next own synthetic payload rest isTask =>
      split
      · exact tended.send isTask
      · next unsent =>
          apply tended.taskLost isTask
          simp only [loses] at keeps
          rw [isTask] at keeps
          cases isAlive : world.alive own with
          | false => rfl
          | true =>
              rw [isAlive, Bool.true_and, Bool.not_eq_true, Bool.not_eq_false'] at unsent
              rw [unsent, Option.any_some, isAlive] at keeps
              cases keeps
  · exact tended

/-- An action that loses nothing keeps what holds of the socket. -/
theorem tended_step (tended : Tended world) (action : PorchAction)
    (keeps : world.loses action = false) : Tended (world.step action) := by
  cases action with
  | connects fresh remoteAddress =>
      simp only [step]
      split
      · exact tended
      · next isFresh => exact tended.connects isFresh remoteAddress
  | gateLost lost =>
      simp only [step]
      split
      · exact tended
      · next conn _ => exact tended.gateLost lost conn
  | attachGate call gate =>
      simp only [step]
      split
      · next known =>
          simp only [loses, Bool.not_eq_false'] at keeps
          exact tended.attachGate call known.1 keeps
      · exact tended
  | attachNext call now =>
      simp only [step]
      split
      · exact tended
      · next isThere => exact tended.attachReturns isThere
      · next isThere => exact tended.attachNext isThere
  | readerEnds call =>
      simp only [step]
      split
      · exact tended
      · split
        · exact tended
        · split
          · exact tended
          · exact (tended.readerGone call).detachGate _
  | detachGate gateAddr => exact tended.detachGate gateAddr
  | registerRelaySession session syntheticPeer now =>
      exact tended.registerRelaySession session syntheticPeer now
  | enqueue syntheticPeer payloads now =>
      simp only [step]
      split
      · exact tended
      · next isThere => exact tended.enqueue isThere payloads now
  | drain id now => exact tended.drain id now
  | check id => exact tended.check id
  | send id refused => exact tended.sends id refused keeps

end Queues

/-! ## Every run -/

section Runs

theorem Attached.drained {F : Type} {world : Porch F} {gate : GateId}
    (attached : Attached world gate) (isAlive : world.alive gate = true) :
    Drained world gate where
  one := by
    intro synthetic isRouted unawaited
    have isMarked := (attached.covered synthetic isRouted).resolve_right unawaited
    obtain ⟨id, task, isThere, isPeer⟩ := (attached.living isAlive).marked synthetic isMarked
    refine ⟨id, task, isThere, isPeer, (attached.own id task isThere).1, ?_⟩
    intro other found isFound same
    exact attached.single other id found task isFound isThere (same.trans isPeer.symm)
  flow := by
    intro synthetic
    have living := attached.living isAlive
    by_cases isIdle : ∀ id task, world.tasks.lookup id = some task → task.synthetic ≠ synthetic
    · rw [inHand_of_idle isIdle]
      exact living.idle synthetic isIdle
    · push Not at isIdle
      obtain ⟨id, task, isThere, isPeer⟩ := isIdle
      rw [← isPeer, inHand_of_task isThere]
      · exact living.carried id task isThere
      · intro other found isFound same
        exact attached.single other id found task isFound isThere same

variable {F : Type} [F64 F]

/-- In every run that attaches a gate only once the tasks are ready for it, and on whose
live connections no datagram is refused, the attached gate gets what it is owed. -/
theorem relay_drained (actions : List PorchAction)
    (keeps : Guarded step (fun world action => world.loses action = false) (new : Porch F) actions)
    (gate : GateId) (isGate : (run step (new : Porch F) actions).routes.gate = some gate)
    (isAlive : (run step (new : Porch F) actions).alive gate = true) :
    Drained (run step (new : Porch F) actions) gate := by
  have preserved : ∀ (world : Porch F) action, Tended world → world.loses action = false →
      Tended (world.step action) := fun _ action tended kept => tended_step tended action kept
  have tended : Tended (run step (new : Porch F) actions) :=
    run_preserves preserved tended_new keeps
  exact (tended.attached gate isGate).drained isAlive

/-! ### A gate is lost, and another is attached -/

def peer : SocketAddr := ⟨.v6 (List.Vector.replicate 16 0xfd), 1⟩

def gateAddr (last : UInt8) : SocketAddr := ⟨.v4 (List.Vector.replicate 4 last), 4433⟩

/-- The first gate is attached and has a task for the peer; the connection is lost, and its
reader detaches it. -/
def detached : List PorchAction :=
  [.connects 0 (gateAddr 1), .attachGate 0 0, .attachNext 0 0,
    .registerRelaySession 7 peer 0, .gateLost 0, .readerEnds 0]

/-- The second gate is attached, and a datagram is queued. -/
def reattached : List PorchAction :=
  [.connects 1 (gateAddr 2), .attachGate 1 1, .attachNext 1 0, .attachNext 1 0,
    .enqueue peer [[5]] 0]

/-- The task takes what is queued, and writes it. -/
def taken (task : Nat) : List PorchAction :=
  [.drain task (fromSecs 1), .check task, .send task false]

/-- Where a datagram comes between the gates, the first task takes it, finds none attached
and ends. -/
theorem relay_drained_between :
    Drained (run step (new : Porch Nat)
      (detached ++ .enqueue peer [[3]] 0 :: taken 0 ++ reattached ++ taken 1)) 1 :=
  relay_drained (detached ++ .enqueue peer [[3]] 0 :: taken 0 ++ reattached ++ taken 1)
    (by decide) 1 (by decide) (by decide)

/-- Where none does, the first task is still there: the peer has two, and the one of the
lost gate takes the datagram, sees that a gate is attached and loses it. -/
theorem lost_reattached :
    let both := run step (new : Porch Nat) (detached ++ reattached)
    let world := run step (new : Porch Nat) (detached ++ reattached ++ taken 0)
    both.tasks.lookup 0 = some ⟨0, peer, .draining⟩ ∧
      both.tasks.lookup 1 = some ⟨1, peer, .draining⟩ ∧
      world.routes.gate = some 1 ∧ world.alive 1 = true ∧ ¬Drained both 1 ∧ ¬Drained world 1 := by
  intro both world
  have old : both.tasks.lookup 0 = some ⟨0, peer, .draining⟩ := by decide
  have new : both.tasks.lookup 1 = some ⟨1, peer, .draining⟩ := by decide
  refine ⟨old, new, by decide, by decide, ?_, ?_⟩
  · intro drained
    have unawaited : ¬both.Awaited peer := by
      rintro ⟨call, attaching, isThere, _⟩
      have none : both.attaching.entries = [] := by decide
      have member := AList.mem_lookup_iff.mp isThere
      rw [none] at member
      cases member
    obtain ⟨id, _, _, _, _, one⟩ := drained.one peer (by decide) unawaited
    have first := one 0 _ old rfl
    have second := one 1 _ new rfl
    omega
  · intro drained
    have flow := drained.flow peer
    have apart : world.writtenSince 1 peer ++ world.inHand peer ++ world.queue peer ≠
        world.heldThen peer ++ world.acceptedSince peer := by decide
    exact apart flow

end Runs

end Porch

end Mosschat.Net
