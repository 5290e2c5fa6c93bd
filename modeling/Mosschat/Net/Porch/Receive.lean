import Mathlib.Data.List.Chain
import Mosschat.Net.Porch.Segments

/-!
Owns how `poll_recv` of the porch socket merges what came over the relay with what the real
socket has: the relayed datagrams in the order they came, each once, and neither side starved.

Does not own a packet's content, nor what happens to a probe.
-/

namespace Mosschat.Net

open Mosschat.Library Mosschat.Library.Cbor Mosschat.Library.Machine Mosschat.Net.Gate

/-- `INBOUND_RELAY_QUEUE_CAP`. -/
def inboundRelayQueueCap : Nat := 1024

/-- What the socket answers to a turn of the loop of `poll_recv`. -/
inductive SocketAnswer where
  /-- `poll_recv_ready` is pending. -/
  | pending
  /-- The socket is reported ready, and then has nothing. -/
  | wouldBlock
  | failed
  /-- What it received, and the source rule as each slot of it is judged. -/
  | received (batch : List Slot) (rule : Nat → PorchSources)

/-- The section of `poll_recv` that is next. -/
inductive PollStage where
  /-- `drain_queue_into`, with the budget of the call. -/
  | queue
  /-- The loop over the socket. -/
  | socket
  /-- `drain_queue_into` after the socket, which had nothing. -/
  | last
deriving DecidableEq

/-- A call of `poll_recv` that has not returned. -/
structure PollCall where
  slots : List Slot
  queueBudget : Nat
  filled : Nat
  stage : PollStage

/-- What a call returns. -/
inductive Polled where
  | pending
  | failed
  /-- `Ok(count)`, with the slots, of which the queue filled the first `filled`. -/
  | ready (count filled : Nat) (slots : List Slot)

/-- What one porch socket receives with. Quinn has one driver, so there is one call at a time. -/
structure Receiver where
  bySession : HashMap UInt32 SocketAddr
  inboundSynthetic : List (SocketAddr × Bytes)
  inboundRelayDropped : UInt64
  /-- Whether the waker of the last call is still there. -/
  waker : Bool
  pollRecvPreferSocket : Bool
  call : Option PollCall

/-- What happens to the receiving side. The relayed datagrams come from another task, so they
may come between any two sections of a call. -/
inductive ReceiveEvent where
  /-- `register_relay_session`, of which only the session's peer matters here. -/
  | registerRelaySession (session : UInt32) (syntheticPeer : SocketAddr)
  | deliverSynthetic (session : UInt32) (payload : Bytes)
  | pollRecv (slots : List Slot)
  /-- The call drains the queue into its slots. -/
  | drains
  /-- The call asks the socket. -/
  | asks (answer : SocketAnswer)

namespace Slot

/-- The slot with a relayed datagram in it. -/
def relay (slot : Slot) (datagram : SocketAddr × Bytes) : Slot :=
  let n := min datagram.2.length slot.buf.length
  { addr := datagram.1
    len := n
    stride := n
    ecn := none
    dstIp := none
    buf := datagram.2.take n ++ slot.buf.drop n }

/-- The slot after the socket has received into its buffer. -/
def receive (slot got : Slot) : Slot :=
  { got with buf := got.buf.take slot.buf.length ++ slot.buf.drop got.buf.length }

end Slot

/-- The slots after the socket has received a batch into the first of them. -/
def receiveInto : List Slot → List Slot → List Slot
  | slot :: slots, got :: batch => slot.receive got :: receiveInto slots batch
  | slots, _ => slots

/-- `drain_queue_into`: the slots, what is left of the queue, and how many were filled. The
budget is never more than the slots there are. -/
def drainQueueInto : Nat → List Slot → List (SocketAddr × Bytes) →
    List Slot × List (SocketAddr × Bytes) × Nat
  | budget + 1, slot :: slots, datagram :: queue =>
    let (others, rest, filled) := drainQueueInto budget slots queue
    (slot.relay datagram :: others, rest, filled + 1)
  | _, slots, queue => (slots, queue, 0)

namespace Receiver

/-- `PorchSocket::new`. -/
def new : Receiver where
  bySession := ∅
  inboundSynthetic := []
  inboundRelayDropped := 0
  waker := false
  pollRecvPreferSocket := false
  call := none

/-- The datagram that `deliver_synthetic` pushes. A probe goes to `queue_probes`. -/
def pushed (world : Receiver) (session : UInt32) (payload : Bytes) :
    List (SocketAddr × Bytes) :=
  match world.bySession.lookup session with
  | none => []
  | some addr =>
    if isProbe payload then []
    else if inboundRelayQueueCap ≤ world.inboundSynthetic.length then []
    else [(addr, payload)]

/-- `deliver_synthetic`. -/
def deliverSynthetic (world : Receiver) (session : UInt32) (payload : Bytes) : Receiver :=
  match world.bySession.lookup session with
  | none => world
  | some addr =>
    if isProbe payload then world
    else if inboundRelayQueueCap ≤ world.inboundSynthetic.length then
      { world with inboundRelayDropped := world.inboundRelayDropped + 1 }
    else
      { world with
        inboundSynthetic := world.inboundSynthetic ++ [(addr, payload)]
        waker := false }

/-- The beginning of `poll_recv`, up to the first section that may find something. -/
def pollRecv (world : Receiver) (slots : List Slot) : Receiver × Option Polled :=
  if slots = [] then (world, some (.ready 0 0 []))
  else
    let single := slots.length ≤ 1
    let queueFirst := 1 < slots.length ∨ world.pollRecvPreferSocket = false
    let queueBudget :=
      if queueFirst then (if 1 < slots.length then slots.length - 1 else 1) else 0
    ({ world with
        waker := true
        -- Only a call with one slot flips the turn.
        pollRecvPreferSocket :=
          if single then !world.pollRecvPreferSocket else world.pollRecvPreferSocket
        call := some ⟨slots, queueBudget, 0, if 0 < queueBudget then .queue else .socket⟩ },
      none)

/-- The call returns. -/
def returns (world : Receiver) (polled : Polled) : Receiver × Option Polled :=
  ({ world with call := none }, some polled)

/-- The call drains the queue. -/
def drains (world : Receiver) (call : PollCall) : Receiver × Option Polled :=
  match call.stage with
  | .queue =>
    let (slots, rest, filled) :=
      drainQueueInto call.queueBudget call.slots world.inboundSynthetic
    let world := { world with inboundSynthetic := rest }
    if filled = slots.length then world.returns (.ready filled filled slots)
    else ({ world with call := some ⟨slots, call.queueBudget, filled, .socket⟩ }, none)
  | .socket => (world, none)
  | .last =>
    let (slots, rest, filled) := drainQueueInto 1 call.slots world.inboundSynthetic
    let world := { world with inboundSynthetic := rest }
    if 0 < filled then world.returns (.ready filled filled slots) else world.returns .pending

/-- The socket had nothing for the call. -/
def idles (world : Receiver) (call : PollCall) : Receiver × Option Polled :=
  if 0 < call.filled then world.returns (.ready call.filled call.filled call.slots)
  else if call.queueBudget = 0 then ({ world with call := some { call with stage := .last } }, none)
  else world.returns .pending

/-- The call asks the socket, and takes another turn where it has nothing to hand back. -/
def asks (world : Receiver) (call : PollCall) (answer : SocketAnswer) :
    Receiver × Option Polled :=
  match answer with
  | .pending => world.idles call
  | .wouldBlock => if call.filled = 0 then (world, none) else world.idles call
  | .failed =>
    if 0 < call.filled then world.returns (.ready call.filled call.filled call.slots)
    else world.returns .failed
  | .received batch rule =>
    let remaining := call.slots.drop call.filled
    let n := min batch.length remaining.length
    let after := demultiplex rule n (receiveInto remaining batch)
    let slots := call.slots.take call.filled ++ after.slots
    if after.carrying = 0 ∧ call.filled = 0 then
      ({ world with call := some { call with slots := slots } }, none)
    else world.returns (.ready (call.filled + n) call.filled slots)

/-- One event. What does not fit where the call is changes nothing. -/
def advance (world : Receiver) : ReceiveEvent → Receiver × Option Polled
  | .registerRelaySession session syntheticPeer =>
    ({ world with bySession := world.bySession.put session syntheticPeer }, none)
  | .deliverSynthetic session payload => (world.deliverSynthetic session payload, none)
  | .pollRecv slots =>
    match world.call with
    | none => world.pollRecv slots
    | some _ => (world, none)
  | .drains =>
    match world.call with
    | none => (world, none)
    | some call => world.drains call
  | .asks answer =>
    match world.call with
    | none => (world, none)
    | some call => if call.stage = .socket then world.asks call answer else (world, none)

def step (world : Receiver) (event : ReceiveEvent) : Receiver := (world.advance event).1

/-- What the event makes a call return. -/
def polled (world : Receiver) (event : ReceiveEvent) : List Polled := (world.advance event).2.toList

/-- What the event queues. -/
def queues (world : Receiver) : ReceiveEvent → List (SocketAddr × Bytes)
  | .deliverSynthetic session payload => world.pushed session payload
  | _ => []

/-- The slots the queue has filled among those the event hands to quinn. -/
def hands (world : Receiver) (event : ReceiveEvent) : List Slot :=
  (world.polled event).flatMap fun
    | .ready count filled slots => (slots.take count).take filled
    | _ => []

/-- The slots the queue has filled in the call that is under way. -/
def inHand (world : Receiver) : List Slot :=
  world.call.toList.flatMap fun call => call.slots.take call.filled

/-- Whether a call with one slot turns to the queue first, where the event is one. -/
def turns (world : Receiver) : ReceiveEvent → List Bool
  | .pollRecv [slot] =>
    if world.call.isNone then
      (world.step (.pollRecv [slot])).call.toList.map fun call => call.stage = .queue
    else []
  | _ => []

/-- The slot holds the datagram, from its peer's synthetic address and, where its buffer is long
enough, whole: as many bytes as quinn reads of it, and as one segment. -/
structure Holds (datagram : SocketAddr × Bytes) (slot : Slot) : Prop where
  source : slot.addr = datagram.1
  whole : datagram.2.length ≤ slot.buf.length → slot.bytes = datagram.2
  one : slot.stride = slot.len

/-- One call was under way from the state after `before` to that after `events`. -/
def Since (before events : List ReceiveEvent) : Prop :=
  before <+: events ∧
    ∀ between, before <+: between → between <+: events → (run step new between).call ≠ none

/-- The call that is under way after `events` has found the queue empty. -/
def FoundEmpty (events : List ReceiveEvent) : Prop :=
  ∃ before, Since before events ∧ (run step new before).inboundSynthetic = []

/-- The call that is under way after `events` has asked the socket, which had nothing, by the
last event of `asked`. -/
def FoundIdle (events asked : List ReceiveEvent) : Prop :=
  ∃ before call, Since before events ∧ before ++ [.asks .pending] <+: asked ∧
    (run step new before).call = some call ∧ call.stage = .socket

end Receiver

/-! ## The queue's datagrams -/

theorem length_receiveInto (slots batch : List Slot) :
    (receiveInto slots batch).length = slots.length := by
  induction slots generalizing batch with
  | nil => rfl
  | cons slot slots ih =>
      cases batch with
      | nil => rfl
      | cons got batch => exact congrArg (· + 1) (ih batch)

theorem holds_relay (slot : Slot) (datagram : SocketAddr × Bytes) :
    Receiver.Holds datagram (slot.relay datagram) where
  source := rfl
  whole := by
    intro long
    have buffer : (slot.relay datagram).buf.length = slot.buf.length := by
      show (datagram.2.take _ ++ slot.buf.drop _).length = _
      rw [List.length_append, List.length_take, List.length_drop]
      omega
    rw [buffer] at long
    have all : (slot.relay datagram).len = datagram.2.length := Nat.min_eq_left long
    show (datagram.2.take (slot.relay datagram).len ++ _).take (slot.relay datagram).len = _
    rw [all, List.take_length]
    exact List.take_left' rfl
  one := rfl

/-- What `drain_queue_into` does: the front of the queue is in the first slots, and as much of it
as the budget allows. -/
structure Drains (budget : Nat) (slots : List Slot) (queue : List (SocketAddr × Bytes))
    (after : List Slot × List (SocketAddr × Bytes) × Nat) : Prop where
  length : after.1.length = slots.length
  within : after.2.2 ≤ budget
  inside : after.2.2 ≤ slots.length
  moved : ∃ moved, queue = moved ++ after.2.1 ∧
    List.Forall₂ Receiver.Holds moved (after.1.take after.2.2)
  empties : after.2.2 < min budget slots.length → after.2.1 = [] ∧ after.2.2 = queue.length

theorem drainQueueInto_spec (budget : Nat) (slots : List Slot)
    (queue : List (SocketAddr × Bytes)) :
    Drains budget slots queue (drainQueueInto budget slots queue) := by
  induction budget generalizing slots queue with
  | zero =>
      refine ⟨rfl, Nat.le_refl 0, Nat.zero_le _, ⟨[], rfl, .nil⟩, ?_⟩
      intro fewer
      rw [Nat.zero_min] at fewer
      exact absurd fewer (Nat.not_lt_zero _)
  | succ budget ih =>
      cases slots with
      | nil =>
          refine ⟨rfl, Nat.zero_le _, Nat.le_refl 0, ⟨[], rfl, .nil⟩, ?_⟩
          intro fewer
          exact absurd fewer (Nat.not_lt_zero _)
      | cons slot slots =>
          cases queue with
          | nil => exact ⟨rfl, Nat.zero_le _, Nat.zero_le _, ⟨[], rfl, .nil⟩, fun _ => ⟨rfl, rfl⟩⟩
          | cons datagram queue =>
              have others := ih slots queue
              obtain ⟨moved, isQueue, held⟩ := others.moved
              refine ⟨congrArg (· + 1) others.length, Nat.succ_le_succ others.within,
                Nat.succ_le_succ others.inside, ⟨datagram :: moved, ?_, ?_⟩, ?_⟩
              · exact congrArg (datagram :: ·) isQueue
              · exact .cons (holds_relay slot datagram) held
              · intro fewer
                have fewer : (drainQueueInto budget slots queue).2.2 + 1 <
                    min (budget + 1) (slots.length + 1) := fewer
                obtain ⟨nothing, all⟩ := others.empties (by omega)
                exact ⟨nothing, congrArg (· + 1) all⟩

namespace Receiver

/-! ## One call -/

theorem since_start {events : List ReceiveEvent} (isCall : (run step new events).call ≠ none) :
    Since events events := by
  refine ⟨List.prefix_refl events, ?_⟩
  intro between after before
  have same : between = events :=
    before.eq_of_length (Nat.le_antisymm before.length_le after.length_le)
  rw [same]
  exact isCall

theorem Since.more {before events : List ReceiveEvent} (since : Since before events)
    {event : ReceiveEvent} (isCall : (run step new (events ++ [event])).call ≠ none) :
    Since before (events ++ [event]) := by
  refine ⟨since.1.trans (List.prefix_append events [event]), ?_⟩
  intro between after inside
  rcases List.prefix_concat_iff.mp inside with all | earlier
  · rw [all]
    exact isCall
  · exact since.2 between after earlier

/-- Where a call stands, and what it has found so far. -/
inductive Stands (events : List ReceiveEvent) (world : Receiver) (call : PollCall) : Prop where
  | queue (isStage : call.stage = .queue) (none : call.filled = 0)
      (budgeted : 0 < call.queueBudget)
  | served (isStage : call.stage = .socket) (some : 0 < call.filled)
  | searched (isStage : call.stage = .socket) (none : call.filled = 0)
      (budgeted : 0 < call.queueBudget) (found : FoundEmpty events)
      (woken : world.inboundSynthetic = [] ∨ world.waker = false)
  | unsearched (isStage : call.stage = .socket) (none : call.filled = 0)
      (isFirst : call.queueBudget = 0)
  | last (isStage : call.stage = .last) (none : call.filled = 0) (isFirst : call.queueBudget = 0)
      (found : FoundIdle events events)

/-- What holds of a call that is under way. -/
structure Underway (events : List ReceiveEvent) (world : Receiver) (call : PollCall) : Prop where
  inside : call.filled < call.slots.length
  many : 1 < call.slots.length → call.queueBudget = call.slots.length - 1
  stands : Stands events world call

theorem FoundIdle.more {events asked : List ReceiveEvent} (found : FoundIdle events asked)
    {event : ReceiveEvent} (isCall : (run step new (events ++ [event])).call ≠ none) :
    FoundIdle (events ++ [event]) (asked ++ [event]) := by
  obtain ⟨before, call, since, asks, isCallThen, isStage⟩ := found
  exact ⟨before, call, since.more isCall, asks.trans (List.prefix_append asked [event]), isCallThen,
    isStage⟩

/-- An event that leaves the call where it is leaves what it has found. -/
theorem Stands.more {events : List ReceiveEvent} {world next : Receiver} {call : PollCall}
    {slots : List Slot} (stands : Stands events world call) {event : ReceiveEvent}
    (isCall : (run step new (events ++ [event])).call ≠ none)
    (woken : world.inboundSynthetic = [] ∨ world.waker = false →
      next.inboundSynthetic = [] ∨ next.waker = false) :
    Stands (events ++ [event]) next { call with slots := slots } := by
  cases stands with
  | queue isStage none budgeted => exact .queue isStage none budgeted
  | served isStage some => exact .served isStage some
  | searched isStage none budgeted found was =>
      obtain ⟨before, since, empty⟩ := found
      exact .searched isStage none budgeted ⟨before, since.more isCall, empty⟩ (woken was)
  | unsearched isStage none isFirst => exact .unsearched isStage none isFirst
  | last isStage none isFirst found => exact .last isStage none isFirst (found.more isCall)

/-- Every call that is under way after the events. -/
def Known (events : List ReceiveEvent) : Prop :=
  ∀ call, (run step new events).call = some call → Underway events (run step new events) call

/-- A call that has just begun. -/
theorem underway_pollRecv {events : List ReceiveEvent} {world : Receiver} {slots : List Slot}
    {call : PollCall} (began : (world.pollRecv slots).1.call = some call)
    (idle : world.call = none) : Underway events (world.pollRecv slots).1 call := by
  unfold pollRecv at began ⊢
  by_cases empty : slots = []
  · rw [if_pos empty, idle] at began
    cases began
  · have length := List.length_pos_iff.mpr empty
    rw [if_neg empty] at began ⊢
    simp only at began ⊢
    rw [← Option.some.inj began]
    refine ⟨length, ?_, ?_⟩
    · intro many
      show (if _ ∨ _ then _ else _) = _
      rw [if_pos (Or.inl many), if_pos many]
    · generalize (if 1 < slots.length ∨ world.pollRecvPreferSocket = false then
        (if 1 < slots.length then slots.length - 1 else 1) else 0) = queueBudget
      by_cases budgeted : 0 < queueBudget
      · rw [if_pos budgeted]
        exact .queue rfl rfl budgeted
      · rw [if_neg budgeted]
        exact .unsearched rfl rfl (Nat.eq_zero_of_not_pos budgeted)

/-- The call after a section of the queue. -/
theorem underway_drains {events : List ReceiveEvent} {world : Receiver} {call next : PollCall}
    (underway : Underway events world call) (isWorld : run step new events = world)
    (isCall : world.call = some call) (goes : (world.drains call).1.call = some next)
    (isNext : run step new (events ++ [.drains]) = (world.drains call).1) :
    Underway (events ++ [.drains]) (world.drains call).1 next := by
  have still : (run step new (events ++ [.drains])).call ≠ none := by
    rw [isNext, goes]
    exact Option.some_ne_none next
  unfold drains at goes ⊢
  cases isStage : call.stage with
  | queue =>
      have drained := drainQueueInto_spec call.queueBudget call.slots world.inboundSynthetic
      rw [isStage] at goes
      simp only at goes ⊢
      generalize drainQueueInto call.queueBudget call.slots world.inboundSynthetic = after
        at drained goes ⊢
      by_cases full : after.2.2 = after.1.length
      · rw [if_pos full] at goes
        cases goes
      · rw [if_neg full] at goes ⊢
        cases goes
        have length := drained.length
        have inside := drained.inside
        refine ⟨show after.2.2 < after.1.length by omega, ?_, ?_⟩
        · show 1 < after.1.length → call.queueBudget = after.1.length - 1
          rw [length]
          exact underway.many
        · by_cases some : 0 < after.2.2
          · exact .served rfl some
          · have none : after.2.2 = 0 := Nat.eq_zero_of_not_pos some
            have budgeted : 0 < call.queueBudget := by
              cases underway.stands with
              | queue _ _ budgeted => exact budgeted
              | served isSocket | searched isSocket | unsearched isSocket | last isSocket =>
                  rw [isStage] at isSocket
                  cases isSocket
            have slots := underway.inside
            obtain ⟨nothing, all⟩ := drained.empties (by omega)
            have empty : world.inboundSynthetic = [] :=
              List.eq_nil_of_length_eq_zero (all.symm.trans none)
            refine .searched rfl none budgeted ⟨events, ?_, ?_⟩ (Or.inl nothing)
            · apply Since.more (since_start _) still
              rw [isWorld, isCall]
              exact Option.some_ne_none call
            · rw [isWorld]
              exact empty
  | socket =>
      rw [isStage] at goes
      have same : call = next := Option.some.inj (isCall.symm.trans goes)
      subst same
      simp only
      exact ⟨underway.inside, underway.many, underway.stands.more still id⟩
  | last =>
      rw [isStage] at goes
      simp only at goes
      split at goes
      · cases goes
      · cases goes

/-- The call after a turn of the loop over the socket. -/
theorem underway_asks {events : List ReceiveEvent} {world : Receiver} {call next : PollCall}
    {answer : SocketAnswer} (underway : Underway events world call)
    (isWorld : run step new events = world) (isCall : world.call = some call)
    (isStage : call.stage = .socket) (goes : (world.asks call answer).1.call = some next)
    (isNext : run step new (events ++ [.asks answer]) = (world.asks call answer).1) :
    Underway (events ++ [.asks answer]) (world.asks call answer).1 next := by
  have still : (run step new (events ++ [.asks answer])).call ≠ none := by
    rw [isNext, goes]
    exact Option.some_ne_none next
  -- The answers at which the call goes on as it is.
  have goesOn : ∀ slots : List Slot, slots.length = call.slots.length →
      Underway (events ++ [.asks answer]) { world with call := some { call with slots := slots } }
        { call with slots := slots } := by
    intro slots length
    refine ⟨?_, ?_, underway.stands.more still id⟩
    · show call.filled < slots.length
      rw [length]
      exact underway.inside
    · show 1 < slots.length → call.queueBudget = slots.length - 1
      rw [length]
      exact underway.many
  have same : ({ world with call := some call } : Receiver) = world := by
    rw [← isCall]
  have unchanged := goesOn call.slots rfl
  rw [same] at unchanged
  cases answer with
  | pending =>
      have goes : (world.idles call).1.call = some next := goes
      show Underway _ (world.idles call).1 next
      unfold idles at goes ⊢
      by_cases some : 0 < call.filled
      · rw [if_pos some] at goes
        cases goes
      · rw [if_neg some] at goes ⊢
        by_cases isFirst : call.queueBudget = 0
        · rw [if_pos isFirst] at goes ⊢
          cases goes
          refine ⟨underway.inside, underway.many, ?_⟩
          refine .last rfl (Nat.eq_zero_of_not_pos some) isFirst ⟨events, call, ?_, ?_, ?_, isStage⟩
          · apply Since.more (since_start _) still
            rw [isWorld, isCall]
            exact Option.some_ne_none call
          · exact List.prefix_refl _
          · rw [isWorld]
            exact isCall
        · rw [if_neg isFirst] at goes
          cases goes
  | wouldBlock =>
      have goes : (if call.filled = 0 then (world, none) else world.idles call).1.call =
          some next := goes
      show Underway _ (if call.filled = 0 then (world, none) else world.idles call).1 next
      by_cases none : call.filled = 0
      · rw [if_pos none] at goes ⊢
        have same : call = next := Option.some.inj (isCall.symm.trans goes)
        rw [← same]
        exact unchanged
      · rw [if_neg none] at goes
        unfold idles at goes
        rw [if_pos (Nat.pos_of_ne_zero none)] at goes
        cases goes
  | failed =>
      unfold asks at goes
      simp only at goes
      split at goes
      · cases goes
      · cases goes
  | received batch rule =>
      unfold asks at goes ⊢
      simp only at goes ⊢
      generalize isSplit : demultiplex rule _ _ = after at goes ⊢
      have splits := (demultiplex_splits rule
        (min batch.length (call.slots.drop call.filled).length)
        (receiveInto (call.slots.drop call.filled) batch)).length
      rw [isSplit, length_receiveInto, List.length_drop] at splits
      by_cases probes : after.carrying = 0 ∧ call.filled = 0
      · rw [if_pos probes] at goes ⊢
        cases goes
        apply goesOn
        rw [List.length_append, List.length_take, splits, probes.2]
        omega
      · rw [if_neg probes] at goes
        cases goes

/-- Where the calls stand after one more event. -/
theorem Known.more {events : List ReceiveEvent} (known : Known events) (event : ReceiveEvent) :
    Known (events ++ [event]) := by
  intro call isCall
  have still : (run step new (events ++ [event])).call ≠ none := by
    rw [isCall]
    exact Option.some_ne_none call
  have isNext : run step new (events ++ [event]) = (run step new events).step event :=
    run_concat new events event
  generalize isWorld : run step new events = world at isNext
  have underway : ∀ call, world.call = some call → Underway events world call := by
    rw [← isWorld]
    exact known
  -- An event that leaves the call alone.
  have goesOn : ∀ next : Receiver, run step new (events ++ [event]) = next →
      next.call = world.call →
      (world.inboundSynthetic = [] ∨ world.waker = false →
        next.inboundSynthetic = [] ∨ next.waker = false) →
      Underway (events ++ [event]) (run step new (events ++ [event])) call := by
    intro next isNext same woken
    rw [isNext] at isCall ⊢
    have was := underway call (same.symm.trans isCall)
    exact ⟨was.inside, was.many, was.stands.more still woken⟩
  cases event with
  | registerRelaySession session syntheticPeer => exact goesOn _ isNext rfl id
  | deliverSynthetic session payload =>
      apply goesOn _ isNext
      · show (world.deliverSynthetic session payload).call = world.call
        unfold deliverSynthetic
        split
        · rfl
        · split
          · rfl
          · split <;> rfl
      · show _ → (world.deliverSynthetic session payload).inboundSynthetic = [] ∨
          (world.deliverSynthetic session payload).waker = false
        unfold deliverSynthetic
        split
        · exact id
        · split
          · exact id
          · split
            · exact id
            · exact fun _ => Or.inr rfl
  | pollRecv slots =>
      cases idle : world.call with
      | none =>
          have began : world.step (.pollRecv slots) = (world.pollRecv slots).1 := by
            unfold step advance
            rw [idle]
          rw [isNext, began] at isCall ⊢
          exact underway_pollRecv isCall idle
      | some busy =>
          have same : world.step (.pollRecv slots) = world := by
            unfold step advance
            rw [idle]
          exact goesOn world (isNext.trans same) rfl id
  | drains =>
      cases isBusy : world.call with
      | none =>
          have same : world.step .drains = world := by
            unfold step advance
            rw [isBusy]
          exact goesOn world (isNext.trans same) rfl id
      | some busy =>
          have drained : world.step .drains = (world.drains busy).1 := by
            unfold step advance
            rw [isBusy]
          have isNext := isNext.trans drained
          rw [isNext] at isCall ⊢
          exact underway_drains (underway busy isBusy) isWorld isBusy isCall isNext
  | asks answer =>
      cases isBusy : world.call with
      | none =>
          have same : world.step (.asks answer) = world := by
            unfold step advance
            rw [isBusy]
          exact goesOn world (isNext.trans same) rfl id
      | some busy =>
          by_cases isStage : busy.stage = .socket
          · have asked : world.step (.asks answer) = (world.asks busy answer).1 := by
              unfold step advance
              rw [isBusy]
              exact congrArg Prod.fst (if_pos isStage)
            have isNext := isNext.trans asked
            rw [isNext] at isCall ⊢
            exact underway_asks (underway busy isBusy) isWorld isBusy isStage isCall isNext
          · have same : world.step (.asks answer) = world := by
              unfold step advance
              rw [isBusy]
              exact congrArg Prod.fst (if_neg isStage)
            exact goesOn world (isNext.trans same) rfl id

theorem known_run (events : List ReceiveEvent) : Known events := by
  induction events using List.reverseRecOn with
  | nil =>
      intro call isCall
      cases isCall
  | append_singleton events event ih => exact ih.more event

/-! ## What is handed out -/

/-- The slots the queue has filled among those that are returned. -/
def handed (polled : Option Polled) : List Slot :=
  polled.toList.flatMap fun
    | .ready count filled slots => (slots.take count).take filled
    | _ => []

/-- The datagrams that an event takes from the queue are in the slots it adds. -/
def Moves (world : Receiver) (queued : List (SocketAddr × Bytes))
    (after : Receiver × Option Polled) : Prop :=
  ∃ moved filled, world.inboundSynthetic ++ queued = moved ++ after.1.inboundSynthetic ∧
    handed after.2 ++ after.1.inHand = world.inHand ++ filled ∧ List.Forall₂ Holds moved filled

theorem handed_ready {count filled : Nat} (within : filled ≤ count) (slots : List Slot) :
    handed (some (.ready count filled slots)) = slots.take filled := by
  show (slots.take count).take filled ++ [] = slots.take filled
  rw [List.append_nil, List.take_take, Nat.min_eq_left within]

/-- Nothing is taken, and what is in hand stays there. -/
theorem moves_of_same {world next : Receiver}
    (queue : next.inboundSynthetic = world.inboundSynthetic) (inHand : next.inHand = world.inHand) :
    Moves world [] (next, none) := by
  refine ⟨[], [], ?_, ?_, .nil⟩
  · rw [List.append_nil]
    exact queue.symm
  · rw [List.append_nil]
    exact inHand

/-- The call returns what it has in hand. -/
theorem moves_returns {world : Receiver} {polled : Polled}
    (inHand : handed (some polled) = world.inHand) : Moves world [] (world.returns polled) := by
  refine ⟨[], [], List.append_nil _, ?_, .nil⟩
  show handed (some polled) ++ [] = world.inHand ++ []
  rw [inHand]

theorem inHand_of_call {world : Receiver} {call : PollCall} (isCall : world.call = some call) :
    world.inHand = call.slots.take call.filled := by
  unfold inHand
  rw [isCall, Option.toList_some, List.flatMap_singleton]

theorem moves_deliverSynthetic (world : Receiver) (session : UInt32) (payload : Bytes) :
    Moves world (world.pushed session payload) (world.deliverSynthetic session payload, none) := by
  refine ⟨[], [], ?_, ?_, .nil⟩
  · show _ = (world.deliverSynthetic session payload).inboundSynthetic
    unfold pushed deliverSynthetic
    split
    · exact List.append_nil _
    · split
      · exact List.append_nil _
      · split
        · exact List.append_nil _
        · rfl
  · show (world.deliverSynthetic session payload).inHand = _
    rw [List.append_nil]
    unfold deliverSynthetic
    split
    · rfl
    · split
      · rfl
      · split <;> rfl

theorem moves_pollRecv {world : Receiver} (slots : List Slot) (idle : world.call = none) :
    Moves world [] (world.pollRecv slots) := by
  have nothing : world.inHand = [] := by
    unfold inHand
    rw [idle]
    rfl
  unfold pollRecv
  by_cases empty : slots = []
  · rw [if_pos empty]
    refine ⟨[], [], List.append_nil _, ?_, .nil⟩
    show world.inHand = _
    rw [List.append_nil]
  · rw [if_neg empty]
    exact moves_of_same rfl nothing.symm

theorem moves_drains {events : List ReceiveEvent} {world : Receiver} {call : PollCall}
    (underway : Underway events world call) (isCall : world.call = some call) :
    Moves world [] (world.drains call) := by
  have inHand := inHand_of_call isCall
  have none : call.stage ≠ .socket → call.filled = 0 := by
    intro notSocket
    cases underway.stands with
    | queue _ none | last _ none => exact none
    | served isStage | searched isStage | unsearched isStage => exact absurd isStage notSocket
  unfold drains
  cases isStage : call.stage with
  | queue =>
      have drained := drainQueueInto_spec call.queueBudget call.slots world.inboundSynthetic
      rw [none (by rw [isStage]; exact PollStage.noConfusion), List.take_zero] at inHand
      simp only
      generalize drainQueueInto call.queueBudget call.slots world.inboundSynthetic = after
        at drained ⊢
      obtain ⟨moved, isQueue, held⟩ := drained.moved
      refine ⟨moved, after.1.take after.2.2, ?_, ?_, held⟩
      · rw [List.append_nil]
        split <;> exact isQueue
      · rw [inHand, List.nil_append]
        split
        · exact (List.append_nil _).trans (handed_ready (Nat.le_refl _) _)
        · exact List.append_nil _
  | socket => exact moves_of_same rfl rfl
  | last =>
      have drained := drainQueueInto_spec 1 call.slots world.inboundSynthetic
      rw [none (by rw [isStage]; exact PollStage.noConfusion), List.take_zero] at inHand
      simp only
      generalize drainQueueInto 1 call.slots world.inboundSynthetic = after at drained ⊢
      obtain ⟨moved, isQueue, held⟩ := drained.moved
      refine ⟨moved, after.1.take after.2.2, ?_, ?_, held⟩
      · rw [List.append_nil]
        split <;> exact isQueue
      · rw [inHand, List.nil_append]
        split
        · exact (List.append_nil _).trans (handed_ready (Nat.le_refl _) _)
        · next none =>
            rw [Nat.eq_zero_of_not_pos none]
            rfl

theorem moves_idles {world : Receiver} {call : PollCall} (isCall : world.call = some call) :
    Moves world [] (world.idles call) := by
  have inHand := inHand_of_call isCall
  unfold idles
  by_cases some : 0 < call.filled
  · rw [if_pos some]
    apply moves_returns
    rw [inHand]
    exact handed_ready (Nat.le_refl _) _
  · rw [if_neg some]
    have none : call.filled = 0 := Nat.eq_zero_of_not_pos some
    rw [none, List.take_zero] at inHand
    by_cases isFirst : call.queueBudget = 0
    · rw [if_pos isFirst]
      refine moves_of_same rfl ?_
      rw [inHand, @inHand_of_call _ { call with stage := .last } rfl, none]
      rfl
    · rw [if_neg isFirst]
      exact moves_returns inHand.symm

theorem moves_asks {world : Receiver} {call : PollCall} {answer : SocketAnswer}
    (isCall : world.call = some call) (inside : call.filled < call.slots.length) :
    Moves world [] (world.asks call answer) := by
  have inHand := inHand_of_call isCall
  cases answer with
  | pending => exact moves_idles isCall
  | wouldBlock =>
      show Moves world [] (if call.filled = 0 then (world, none) else world.idles call)
      by_cases none : call.filled = 0
      · rw [if_pos none]
        exact moves_of_same rfl rfl
      · rw [if_neg none]
        exact moves_idles isCall
  | failed =>
      unfold asks
      simp only
      by_cases some : 0 < call.filled
      · rw [if_pos some]
        apply moves_returns
        rw [inHand]
        exact handed_ready (Nat.le_refl _) _
      · rw [if_neg some]
        rw [Nat.eq_zero_of_not_pos some, List.take_zero] at inHand
        exact moves_returns inHand.symm
  | received batch rule =>
      have front : (call.slots.take call.filled).length = call.filled := by
        rw [List.length_take]
        omega
      unfold asks
      simp only
      generalize demultiplex rule _ _ = after
      by_cases probes : after.carrying = 0 ∧ call.filled = 0
      · rw [if_pos probes]
        refine moves_of_same rfl ?_
        rw [inHand, @inHand_of_call _ { call with slots := _ } rfl, probes.2]
        rfl
      · rw [if_neg probes]
        apply moves_returns
        rw [inHand]
        rw [handed_ready (Nat.le_add_right _ _), List.take_left' front]

/-- Every event takes the front of the queue, and hands it out or keeps it in hand. -/
theorem moves_advance (events : List ReceiveEvent) (event : ReceiveEvent) :
    Moves (run step new events) ((run step new events).queues event)
      ((run step new events).advance event) := by
  have known := known_run events
  unfold Known at known
  generalize run step new events = world at known ⊢
  cases event with
  | registerRelaySession session syntheticPeer => exact moves_of_same rfl rfl
  | deliverSynthetic session payload => exact moves_deliverSynthetic world session payload
  | pollRecv slots =>
      show Moves world [] (match world.call with
        | none => world.pollRecv slots
        | some _ => (world, none))
      cases idle : world.call with
      | none => exact moves_pollRecv slots idle
      | some busy => exact moves_of_same rfl rfl
  | drains =>
      show Moves world [] (match world.call with
        | none => (world, none)
        | some call => world.drains call)
      cases isCall : world.call with
      | none => exact moves_of_same rfl rfl
      | some call => exact moves_drains (known call isCall) isCall
  | asks answer =>
      show Moves world [] (match world.call with
        | none => (world, none)
        | some call => if call.stage = .socket then world.asks call answer else (world, none))
      cases isCall : world.call with
      | none => exact moves_of_same rfl rfl
      | some call =>
          simp only
          by_cases isStage : call.stage = .socket
          · rw [if_pos isStage]
            exact moves_asks isCall (known call isCall).inside
          · rw [if_neg isStage]
            exact moves_of_same rfl rfl

/-- What was queued is still queued, or is in the slots that were handed to quinn or that a call
has in hand: each datagram once, in order. -/
theorem handed_run (events : List ReceiveEvent) :
    ∃ taken, outputs step queues new events =
        taken ++ (run step new events).inboundSynthetic ∧
      List.Forall₂ Holds taken (outputs step hands new events ++ (run step new events).inHand) := by
  induction events using List.reverseRecOn with
  | nil => exact ⟨[], rfl, .nil⟩
  | append_singleton events event ih =>
      obtain ⟨taken, isQueued, held⟩ := ih
      obtain ⟨moved, filled, isMoved, isFilled, holds⟩ := moves_advance events event
      have next : run step new (events ++ [event]) =
          ((run step new events).advance event).1 := run_concat new events event
      have hands : outputs step hands new (events ++ [event]) =
          outputs step hands new events ++ handed ((run step new events).advance event).2 :=
        outputs_concat new events event
      refine ⟨taken ++ moved, ?_, ?_⟩
      · rw [outputs_concat, isQueued, List.append_assoc, isMoved, next, List.append_assoc]
      · rw [hands, next, List.append_assoc, isFilled, ← List.append_assoc]
        exact List.rel_append held holds

/-! ## Pending, and turns -/

/-- The section after which a call is pending: it has looked into the queue last, or asked the
socket last. -/
theorem polled_pending_cases {world : Receiver} {event : ReceiveEvent}
    (inside : ∀ call, world.call = some call → call.filled < call.slots.length)
    (returned : .pending ∈ world.polled event) :
    ∃ call, world.call = some call ∧
      (event = .drains ∧ call.stage = .last ∧ world.inboundSynthetic = [] ∧
          (world.step event).inboundSynthetic = [] ∨
        event = .asks .pending ∧ call.stage = .socket ∧ call.filled = 0 ∧ 0 < call.queueBudget ∧
          (world.step event).inboundSynthetic = world.inboundSynthetic ∧
          (world.step event).waker = world.waker) := by
  have isPolled : (world.advance event).2 = some .pending := Option.mem_toList.mp returned
  unfold step
  cases event with
  | registerRelaySession | deliverSynthetic => cases isPolled
  | pollRecv slots =>
      unfold advance at isPolled
      cases idle : world.call with
      | some busy =>
          rw [idle] at isPolled
          cases isPolled
      | none =>
          rw [idle] at isPolled
          simp only [pollRecv] at isPolled
          split at isPolled <;> cases isPolled
  | drains =>
      cases isCall : world.call with
      | none =>
          unfold advance at isPolled
          rw [isCall] at isPolled
          cases isPolled
      | some call =>
          have isAdvance : world.advance .drains = world.drains call := by
            unfold advance
            rw [isCall]
          rw [isAdvance] at isPolled ⊢
          refine ⟨call, rfl, Or.inl ⟨rfl, ?_⟩⟩
          unfold drains at isPolled ⊢
          cases isStage : call.stage with
          | queue =>
              rw [isStage] at isPolled
              simp only at isPolled
              split at isPolled <;> cases isPolled
          | socket =>
              rw [isStage] at isPolled
              cases isPolled
          | last =>
              have drained := drainQueueInto_spec 1 call.slots world.inboundSynthetic
              have slots := inside call isCall
              rw [isStage] at isPolled
              simp only at isPolled ⊢
              generalize drainQueueInto 1 call.slots world.inboundSynthetic = after
                at drained isPolled ⊢
              by_cases some : 0 < after.2.2
              · rw [if_pos some] at isPolled
                cases isPolled
              · obtain ⟨nothing, all⟩ := drained.empties (by omega)
                rw [if_neg some]
                refine ⟨trivial, List.eq_nil_of_length_eq_zero ?_, nothing⟩
                omega
  | asks answer =>
      cases isCall : world.call with
      | none =>
          unfold advance at isPolled
          rw [isCall] at isPolled
          cases isPolled
      | some call =>
          by_cases isStage : call.stage = .socket
          · have isAdvance : world.advance (.asks answer) = world.asks call answer := by
              unfold advance
              rw [isCall]
              exact if_pos isStage
            rw [isAdvance] at isPolled ⊢
            have idles : (world.idles call).2 = some .pending → call.filled = 0 ∧
                0 < call.queueBudget ∧ (world.idles call).1 = { world with call := none } := by
              intro isPolled
              unfold idles at isPolled ⊢
              by_cases some : 0 < call.filled
              · rw [if_pos some] at isPolled
                cases isPolled
              · by_cases isFirst : call.queueBudget = 0
                · rw [if_neg some, if_pos isFirst] at isPolled
                  cases isPolled
                · rw [if_neg some, if_neg isFirst]
                  exact ⟨Nat.eq_zero_of_not_pos some, Nat.pos_of_ne_zero isFirst, rfl⟩
            cases answer with
            | pending =>
                obtain ⟨none, budgeted, isNext⟩ := idles isPolled
                refine ⟨call, rfl, Or.inr ⟨rfl, isStage, none, budgeted, ?_⟩⟩
                show (world.idles call).1.inboundSynthetic = _ ∧ (world.idles call).1.waker = _
                rw [isNext]
                exact ⟨rfl, rfl⟩
            | wouldBlock =>
                have isPolled : (if call.filled = 0 then (world, none)
                  else world.idles call).2 = some .pending := isPolled
                by_cases none : call.filled = 0
                · rw [if_pos none] at isPolled
                  cases isPolled
                · rw [if_neg none] at isPolled
                  exact absurd (idles isPolled).1 none
            | failed =>
                unfold asks at isPolled
                simp only at isPolled
                split at isPolled <;> cases isPolled
            | received batch rule =>
                unfold asks at isPolled
                simp only at isPolled
                split at isPolled <;> cases isPolled
          · unfold advance at isPolled
            rw [isCall] at isPolled
            simp only [if_neg isStage] at isPolled
            cases isPolled

/-- A call returns that it is pending only where the queue was empty and the socket had
nothing, and nothing was queued since without waking it. -/
theorem polled_pending {events : List ReceiveEvent} {event : ReceiveEvent}
    (returned : .pending ∈ (run step new events).polled event) :
    FoundEmpty events ∧ FoundIdle events (events ++ [event]) ∧
      ((run step new (events ++ [event])).inboundSynthetic = [] ∨
        (run step new (events ++ [event])).waker = false) := by
  have underway := known_run events
  have isNext : run step new (events ++ [event]) = (run step new events).step event :=
    run_concat new events event
  obtain ⟨call, isCall, outcome⟩ := polled_pending_cases
    (fun call isCall => (underway call isCall).inside) returned
  have isBusy : (run step new events).call ≠ none := by
    rw [isCall]
    exact Option.some_ne_none call
  have stands := (underway call isCall).stands
  rcases outcome with ⟨isDrains, isStage, empty, stays⟩ | ⟨isAsks, isStage, none, budgeted, same⟩
  · cases stands with
    | queue isOther | served isOther | searched isOther | unsearched isOther =>
        rw [isStage] at isOther
        cases isOther
    | last _ _ _ found =>
        obtain ⟨before, asked, since, asks, isAsked⟩ := found
        refine ⟨⟨events, since_start isBusy, empty⟩, ?_, ?_⟩
        · exact ⟨before, asked, since, asks.trans (List.prefix_append events [event]), isAsked⟩
        · rw [isNext]
          exact Or.inl stays
  · cases stands with
    | queue isOther | last isOther =>
        rw [isStage] at isOther
        cases isOther
    | served _ some => omega
    | unsearched _ _ isFirst => omega
    | searched _ _ _ found woken =>
        refine ⟨found, ⟨events, call, since_start isBusy, ?_, isCall, isStage⟩, ?_⟩
        · simp only [isAsks, List.prefix_refl]
        · rw [isNext, same.1, same.2]
          exact woken

/-- A call with more than one slot returns only from the socket, with a slot left for it. -/
theorem polled_many {events : List ReceiveEvent} {event : ReceiveEvent} {polled : Polled}
    {call : PollCall} (returned : polled ∈ (run step new events).polled event)
    (isCall : (run step new events).call = some call) (many : 1 < call.slots.length) :
    call.filled < call.slots.length ∧ ∃ answer, event = .asks answer := by
  have underway := known_run events call isCall
  have budget := underway.many many
  have isPolled : ((run step new events).advance event).2 = some polled :=
    Option.mem_toList.mp returned
  refine ⟨underway.inside, ?_⟩
  generalize run step new events = world at *
  cases event with
  | registerRelaySession | deliverSynthetic => cases isPolled
  | pollRecv slots =>
      unfold advance at isPolled
      rw [isCall] at isPolled
      cases isPolled
  | asks answer => exact ⟨answer, rfl⟩
  | drains =>
      unfold advance at isPolled
      rw [isCall] at isPolled
      simp only [drains] at isPolled
      cases isStage : call.stage with
      | queue =>
          have drained := drainQueueInto_spec call.queueBudget call.slots world.inboundSynthetic
          have within := drained.within
          have length := drained.length
          have some := underway.inside
          rw [isStage] at isPolled
          simp only at isPolled
          generalize drainQueueInto call.queueBudget call.slots world.inboundSynthetic = after
            at drained within length isPolled
          have room : after.2.2 ≠ after.1.length := by omega
          rw [if_neg room] at isPolled
          cases isPolled
      | socket =>
          rw [isStage] at isPolled
          cases isPolled
      | last =>
          cases underway.stands with
          | last _ _ isFirst => omega
          | queue isOther | served isOther | searched isOther | unsearched isOther =>
              rw [isStage] at isOther
              cases isOther

theorem turn_drains (world : Receiver) (call : PollCall) :
    (world.drains call).1.pollRecvPreferSocket = world.pollRecvPreferSocket := by
  unfold drains
  cases call.stage with
  | queue =>
      simp only
      split <;> rfl
  | socket => rfl
  | last =>
      simp only
      split <;> rfl

theorem turn_idles (world : Receiver) (call : PollCall) :
    (world.idles call).1.pollRecvPreferSocket = world.pollRecvPreferSocket := by
  unfold idles
  split
  · rfl
  · split <;> rfl

theorem turn_asks (world : Receiver) (call : PollCall) (answer : SocketAnswer) :
    (world.asks call answer).1.pollRecvPreferSocket = world.pollRecvPreferSocket := by
  cases answer with
  | pending => exact turn_idles world call
  | wouldBlock =>
      unfold asks
      simp only
      split
      · rfl
      · exact turn_idles world call
  | failed =>
      unfold asks
      simp only
      split <;> rfl
  | received batch rule =>
      unfold asks
      simp only
      split <;> rfl

/-- Only a call with one slot takes a turn, and it flips the turn. -/
theorem turns_cases (world : Receiver) (event : ReceiveEvent) :
    world.turns event = [] ∧
        (world.step event).pollRecvPreferSocket = world.pollRecvPreferSocket ∨
      world.turns event = [!world.pollRecvPreferSocket] ∧
        (world.step event).pollRecvPreferSocket = !world.pollRecvPreferSocket := by
  cases event with
  | registerRelaySession session syntheticPeer => exact Or.inl ⟨rfl, rfl⟩
  | deliverSynthetic session payload =>
      refine Or.inl ⟨rfl, ?_⟩
      show (world.deliverSynthetic session payload).pollRecvPreferSocket = _
      unfold deliverSynthetic
      split
      · rfl
      · split
        · rfl
        · split <;> rfl
  | pollRecv slots =>
      cases isCall : world.call with
      | some busy =>
          have isTurns : world.turns (.pollRecv slots) = [] := by
            unfold turns
            split
            · rw [isCall]
              rfl
            · rfl
          refine Or.inl ⟨isTurns, ?_⟩
          unfold step advance
          rw [isCall]
      | none =>
          have isAdvance : world.step (.pollRecv slots) = (world.pollRecv slots).1 := by
            unfold step advance
            rw [isCall]
          match slots with
          | [] =>
              left
              refine ⟨rfl, ?_⟩
              rw [isAdvance]
              rfl
          | [slot] =>
              right
              have isTurns : world.turns (.pollRecv [slot]) = if world.call.isNone then
                  (world.step (.pollRecv [slot])).call.toList.map fun call =>
                    decide (call.stage = .queue)
                else [] := rfl
              rw [isTurns, isAdvance, isCall]
              refine ⟨?_, rfl⟩
              cases isTurn : world.pollRecvPreferSocket with
              | true => simp [pollRecv, isTurn]
              | false => simp [pollRecv, isTurn]
          | first :: second :: rest =>
              left
              refine ⟨rfl, ?_⟩
              rw [isAdvance]
              rfl
  | drains =>
      refine Or.inl ⟨rfl, ?_⟩
      unfold step advance
      cases world.call with
      | none => rfl
      | some call => exact turn_drains world call
  | asks answer =>
      refine Or.inl ⟨rfl, ?_⟩
      unfold step advance
      cases world.call with
      | none => rfl
      | some call =>
          simp only
          split
          · exact turn_asks world call answer
          · rfl

/-- The turns of a run alternate. -/
theorem turns_alternate (world : Receiver) (events : List ReceiveEvent) :
    (world.pollRecvPreferSocket :: outputs step turns world events).IsChain (· ≠ ·) := by
  induction events generalizing world with
  | nil => exact .singleton _
  | cons event rest ih =>
      have later := ih (world.step event)
      rw [outputs]
      rcases turns_cases world event with ⟨nothing, same⟩ | ⟨turn, flipped⟩
      · rw [nothing, List.nil_append, ← same]
        exact later
      · rw [turn]
        rw [flipped] at later
        exact List.IsChain.cons_cons (Bool.not_ne_self _).symm later

end Receiver

/-- Over every run, what was queued is still queued or was handed out or is in hand, each
datagram once, in order, whole and under its peer's address; a call is pending only where it
found the queue empty and the socket idle; a call with many slots leaves the socket one; and of
two consecutive calls with one slot, one turns to the queue first and one to the socket. -/
theorem receive_exact (events : List ReceiveEvent) :
    let world := run Receiver.step .new events
    (∃ taken, outputs Receiver.step Receiver.queues .new events =
        taken ++ world.inboundSynthetic ∧
      List.Forall₂ Receiver.Holds taken
        (outputs Receiver.step Receiver.hands .new events ++ world.inHand)) ∧
      (∀ event, .pending ∈ world.polled event →
        Receiver.FoundEmpty events ∧ Receiver.FoundIdle events (events ++ [event]) ∧
          ((world.step event).inboundSynthetic = [] ∨ (world.step event).waker = false)) ∧
      (∀ event polled call, polled ∈ world.polled event → world.call = some call →
        1 < call.slots.length →
          call.filled < call.slots.length ∧ ∃ answer, event = .asks answer) ∧
      (outputs Receiver.step Receiver.turns .new events).IsChain (· ≠ ·) := by
  intro world
  refine ⟨Receiver.handed_run events, ?_, ?_, ?_⟩
  · intro event returned
    have found := Receiver.polled_pending returned
    rw [run_concat] at found
    exact found
  · intro event polled call returned isCall many
    exact Receiver.polled_many returned isCall many
  · exact (Receiver.turns_alternate .new events).tail

end Mosschat.Net
