import Mosschat.Net.Path.Shaper

/-!
Owns who waits at a relay shaper: the drivers whose wakers `poll_room` has parked until a queue
has room, and the one task that drains it and waits for an arrival.

Does not own the rate, nor the order of what is queued.
-/

namespace Mosschat.Net

open Mosschat.Library Mosschat.Library.Cbor Mosschat.Library.Machine Mosschat.Net.Gate

/-- Where the draining task is. -/
inductive DrainPoint where
  /-- Outside of `drain`. -/
  | away
  /-- About to take the lock for a pass. -/
  | passing
  | sleeping
  /-- It has found the queue empty and let go of the lock. -/
  | idle
  /-- In `notified().await`, with no permit. -/
  | waiting
  /-- `drain` has returned `None`. -/
  | exited
deriving DecidableEq

/-- A shaper, and who waits for it. A waker is known by the task it wakes. -/
structure ShaperWaits (F : Type) where
  shaper : RelayShaper F
  /-- `ShaperState::wakers`. -/
  wakers : List Nat
  /-- What a pass or a close has taken from there and not woken yet. -/
  waking : List Nat
  /-- The permit of `arrivals`. -/
  permit : Bool
  /-- How many calls have let go of the lock, and come to `notify_one` next. -/
  notifying : Nat
  point : DrainPoint
  /-- What room each waker was refused, since it was last woken. -/
  parked : List (Nat × Nat)

/-- One section of a call, between two takings of the lock or ends of a wait. -/
inductive WaitEvent where
  | pollRoom (waker wanted : Nat)
  | tryEnqueueAll (transmit : Transmit) (now : Nat)
  | enqueueOrDrop (payload : Bytes) (now : Nat)
  | close
  /-- A call that has queued, or closed, comes to its `notify_one`. -/
  | notifies
  /-- A pass or a close wakes one of the wakers it has taken. -/
  | wakes (waker : Nat)
  /-- The task calls `drain`. -/
  | calls
  | passes (now : Nat)
  /-- The end of the sleep. -/
  | slept
  /-- The task comes to `notified().await`. -/
  | awaits

namespace ShaperWaits

variable {F : Type} [F64 F]

def new (shaper : RelayShaper F) : ShaperWaits F where
  shaper := shaper
  wakers := []
  waking := []
  permit := false
  notifying := 0
  point := .away
  parked := []

/-- `poll_room` finds no room. -/
def Full (shaper : RelayShaper F) (wanted : Nat) : Prop :=
  shaper.closed = false ∧ shaper.depth < shaper.items.length + wanted

instance decidableFull (shaper : RelayShaper F) (wanted : Nat) : Decidable (Full shaper wanted) :=
  inferInstanceAs (Decidable (_ ∧ _))

/-- `poll_room`. -/
def pollRoom (world : ShaperWaits F) (waker wanted : Nat) : ShaperWaits F :=
  if Full world.shaper wanted then
    { world with
      wakers := if waker ∈ world.wakers then world.wakers else world.wakers ++ [waker]
      parked := world.parked ++ [(waker, wanted)] }
  else world

/-- A call that queues, which notifies where it was accepted. -/
def queues (world : ShaperWaits F) (call : ShaperCall) : ShaperWaits F :=
  { world with
    shaper := world.shaper.step call
    notifying := if world.shaper.accepts call = [] then world.notifying else world.notifying + 1 }

/-- The wakers are taken, to be woken. -/
def takesWakers (world : ShaperWaits F) (shaper : RelayShaper F) : ShaperWaits F :=
  { world with shaper := shaper, wakers := [], waking := world.waking ++ world.wakers }

/-- A pass of `drain`. -/
def pass (world : ShaperWaits F) (now : Nat) : ShaperWaits F :=
  match world.shaper.drainPass now with
  | (shaper, .closed) => { world with shaper := shaper, point := .exited }
  | (shaper, .idle) => { world with shaper := shaper, point := .idle }
  | (shaper, .sleep) => { world with shaper := shaper, point := .sleeping }
  | (shaper, .ready _) => { world.takesWakers shaper with point := .away }

/-- `Notify::notify_one`: it wakes the one that waits, or leaves a permit. -/
def notifyOne (world : ShaperWaits F) : ShaperWaits F :=
  if world.point = .waiting then { world with point := .passing }
  else { world with permit := true }

/-- One event. What does not fit where its call is changes nothing. -/
def step (world : ShaperWaits F) : WaitEvent → ShaperWaits F
  | .pollRoom waker wanted => world.pollRoom waker wanted
  | .tryEnqueueAll transmit now => world.queues (.tryEnqueueAll transmit now)
  | .enqueueOrDrop payload now => world.queues (.enqueueOrDrop payload now)
  | .close =>
    { world.takesWakers world.shaper.close with notifying := world.notifying + 1 }
  | .notifies =>
    if world.notifying = 0 then world
    else { world.notifyOne with notifying := world.notifying - 1 }
  | .wakes waker =>
    if waker ∈ world.waking then
      { world with
        waking := world.waking.erase waker
        parked := world.parked.filter fun one => one.1 ≠ waker }
    else world
  | .calls => if world.point = .away then { world with point := .passing } else world
  | .passes now => if world.point = .passing then world.pass now else world
  | .slept => if world.point = .sleeping then { world with point := .passing } else world
  | .awaits =>
    if world.point = .idle then
      if world.permit then { world with permit := false, point := .passing }
      else { world with point := .waiting }
    else world

/-! ## The invariant -/

/-- There is nothing the draining task would have to do. -/
def Quiet (shaper : RelayShaper F) : Prop := shaper.items = [] ∧ shaper.closed = false

/-- Who waits has a reason to, and someone who will wake it. -/
structure Tracked (world : ShaperWaits F) : Prop where
  parked : ∀ waker wanted, (waker, wanted) ∈ world.parked →
    waker ∈ world.waking ∨ waker ∈ world.wakers ∧ Full world.shaper wanted
  idle : world.point = .idle → Quiet world.shaper ∨ 0 < world.notifying ∨ world.permit = true
  waiting : world.point = .waiting → Quiet world.shaper ∨ 0 < world.notifying

omit [F64 F] in
theorem tracked_new (shaper : RelayShaper F) : Tracked (new shaper) where
  parked waker wanted member := by cases member
  idle isPoint := by cases isPoint
  waiting isPoint := by cases isPoint

omit [F64 F] in
/-- A queue that has more in it has no more room. -/
theorem Full.more {before after : RelayShaper F} {wanted : Nat} (full : Full before wanted)
    (closed : after.closed = before.closed) (depth : after.depth = before.depth)
    (front : before.items <+: after.items) : Full after wanted := by
  refine ⟨closed.trans full.1, ?_⟩
  have length := front.length_le
  have short := full.2
  rw [depth]
  omega

omit [F64 F] in
theorem Tracked.pollRoom {world : ShaperWaits F} (tracked : Tracked world)
    (waker wanted : Nat) : Tracked (world.pollRoom waker wanted) := by
  unfold ShaperWaits.pollRoom
  by_cases full : Full world.shaper wanted
  · rw [if_pos full]
    refine ⟨?_, tracked.idle, tracked.waiting⟩
    have kept : ∀ other ∈ world.wakers,
        other ∈ (if waker ∈ world.wakers then world.wakers else world.wakers ++ [waker]) := by
      intro other member
      split
      · exact member
      · exact List.mem_append_left _ member
    have registered :
        waker ∈ (if waker ∈ world.wakers then world.wakers else world.wakers ++ [waker]) := by
      split
      · next member => exact member
      · exact List.mem_append_right _ List.mem_cons_self
    intro other room member
    rcases List.mem_append.mp member with earlier | now
    · exact (tracked.parked other room earlier).imp id fun ⟨isWaker, refused⟩ =>
        ⟨kept other isWaker, refused⟩
    · cases List.mem_singleton.mp now
      exact Or.inr ⟨registered, full⟩
  · rw [if_neg full]
    exact tracked

/-- What is queued is told to the draining task. -/
theorem Tracked.queues {world : ShaperWaits F} (tracked : Tracked world) {call : ShaperCall}
    (queues : world.shaper.Queues call) : Tracked (world.queues call) := by
  -- Either nothing was accepted, or a notification is on its way.
  have told : Quiet world.shaper ∨ 0 < world.notifying →
      Quiet (world.queues call).shaper ∨ 0 < (world.queues call).notifying := by
    intro was
    show Quiet (world.shaper.step call) ∨
      0 < (if world.shaper.accepts call = [] then world.notifying else world.notifying + 1)
    by_cases refused : world.shaper.accepts call = []
    · rw [if_pos refused]
      refine was.imp ?_ id
      intro quiet
      exact ⟨(queues.refused refused).trans quiet.1, queues.closed.trans quiet.2⟩
    · rw [if_neg refused]
      exact Or.inr (Nat.succ_pos _)
  refine ⟨?_, ?_, fun isPoint => told (tracked.waiting isPoint)⟩
  · intro waker wanted member
    refine (tracked.parked waker wanted member).imp id ?_
    intro ⟨isWaker, full⟩
    exact ⟨isWaker, full.more queues.closed queues.depth queues.front⟩
  · intro isPoint
    rcases tracked.idle isPoint with quiet | notifying | permit
    · exact (told (Or.inl quiet)).imp id Or.inl
    · exact (told (Or.inr notifying)).imp id Or.inl
    · exact Or.inr (Or.inr permit)

omit [F64 F] in
/-- A waker that was taken is being woken. -/
theorem parked_takesWakers {world : ShaperWaits F} (tracked : Tracked world)
    (shaper : RelayShaper F) (waker wanted : Nat) (member : (waker, wanted) ∈ world.parked) :
    waker ∈ (world.takesWakers shaper).waking := by
  rcases tracked.parked waker wanted member with waking | ⟨isWaker, _⟩
  · exact List.mem_append_left _ waking
  · exact List.mem_append_right _ isWaker

theorem Tracked.close {world : ShaperWaits F} (tracked : Tracked world) :
    Tracked (world.step .close) where
  parked waker wanted member :=
    Or.inl (parked_takesWakers tracked world.shaper.close waker wanted member)
  idle _ := Or.inr (Or.inl (Nat.succ_pos _))
  waiting _ := Or.inr (Nat.succ_pos _)

/-- A notification reaches the task that waits, or the one that is about to. -/
theorem Tracked.notifies {world : ShaperWaits F} (tracked : Tracked world) :
    Tracked (world.step .notifies) := by
  show Tracked (if world.notifying = 0 then world
    else { world.notifyOne with notifying := world.notifying - 1 })
  by_cases none : world.notifying = 0
  · rw [if_pos none]
    exact tracked
  · rw [if_neg none]
    unfold notifyOne
    by_cases isWaiting : world.point = .waiting
    · rw [if_pos isWaiting]
      refine ⟨tracked.parked, ?_, ?_⟩
      · intro isPoint
        cases isPoint
      · intro isPoint
        cases isPoint
    · rw [if_neg isWaiting]
      refine ⟨tracked.parked, fun _ => Or.inr (Or.inr rfl), ?_⟩
      intro isPoint
      exact absurd isPoint isWaiting

theorem Tracked.wakes {world : ShaperWaits F} (tracked : Tracked world) (waker : Nat) :
    Tracked (world.step (.wakes waker)) := by
  show Tracked (if waker ∈ world.waking then
      { world with
        waking := world.waking.erase waker
        parked := world.parked.filter fun one => one.1 ≠ waker }
    else world)
  by_cases taken : waker ∈ world.waking
  · rw [if_pos taken]
    refine ⟨?_, tracked.idle, tracked.waiting⟩
    intro other wanted member
    obtain ⟨was, differs⟩ := List.mem_filter.mp member
    have differs : other ≠ waker := of_decide_eq_true differs
    refine (tracked.parked other wanted was).imp ?_ id
    exact fun waking => (List.mem_erase_of_ne differs).mpr waking
  · rw [if_neg taken]
    exact tracked

/-- A pass is idle only over an empty queue that is open. -/
theorem quiet_of_idle {shaper : RelayShaper F} {now : Nat}
    (isIdle : (shaper.drainPass now).2 = .idle) : Quiet shaper := by
  unfold RelayShaper.drainPass at isIdle
  cases isClosed : shaper.closed with
  | true =>
      rw [isClosed, if_pos rfl] at isIdle
      cases isIdle
  | false =>
      rw [isClosed, if_neg Bool.false_ne_true] at isIdle
      refine ⟨?_, isClosed⟩
      simp only at isIdle
      split at isIdle
      · next empty => exact List.isEmpty_iff.mp empty
      · split at isIdle <;> cases isIdle

/-- A pass ends in a wait for an arrival only where there is nothing to do. -/
theorem Tracked.pass {world : ShaperWaits F} (tracked : Tracked world) (now : Nat) :
    Tracked (world.pass now) := by
  unfold ShaperWaits.pass
  rcases world.shaper.drainPass_cases now with
    ⟨isClosed, is⟩ | ⟨isOpen, is | is | ⟨take, tokens, is⟩⟩
  · rw [is]
    refine ⟨tracked.parked, ?_, ?_⟩
    · intro isPoint
      cases isPoint
    · intro isPoint
      cases isPoint
  · have quiet := quiet_of_idle (congrArg Prod.snd is)
    rw [is]
    refine ⟨tracked.parked, fun _ => Or.inl quiet, ?_⟩
    intro isPoint
    cases isPoint
  · rw [is]
    refine ⟨tracked.parked, ?_, ?_⟩
    · intro isPoint
      cases isPoint
    · intro isPoint
      cases isPoint
  · rw [is]
    refine ⟨?_, ?_, ?_⟩
    · intro waker wanted member
      exact Or.inl (parked_takesWakers tracked world.shaper waker wanted member)
    · intro isPoint
      cases isPoint
    · intro isPoint
      cases isPoint

omit [F64 F] in
/-- The task goes on where it does not wait for an arrival. -/
theorem Tracked.goesOn {world : ShaperWaits F} (tracked : Tracked world) {point : DrainPoint}
    (notIdle : point ≠ .idle) (notWaiting : point ≠ .waiting) :
    Tracked { world with point := point } where
  parked := tracked.parked
  idle isPoint := absurd isPoint notIdle
  waiting isPoint := absurd isPoint notWaiting

theorem Tracked.awaits {world : ShaperWaits F} (tracked : Tracked world) :
    Tracked (world.step .awaits) := by
  show Tracked (if world.point = .idle then
      if world.permit then { world with permit := false, point := .passing }
      else { world with point := .waiting }
    else world)
  by_cases isIdle : world.point = .idle
  · rw [if_pos isIdle]
    by_cases permit : world.permit = true
    · rw [if_pos permit]
      refine ⟨tracked.parked, ?_, ?_⟩
      · intro isPoint
        cases isPoint
      · intro isPoint
        cases isPoint
    · rw [if_neg permit]
      refine ⟨tracked.parked, ?_, ?_⟩
      · intro isPoint
        cases isPoint
      · intro _
        rcases tracked.idle isIdle with quiet | notifying | isPermit
        · exact Or.inl quiet
        · exact Or.inr notifying
        · exact absurd isPermit permit
  · rw [if_neg isIdle]
    exact tracked

theorem Tracked.step {world : ShaperWaits F} (tracked : Tracked world) (event : WaitEvent) :
    Tracked (world.step event) := by
  cases event with
  | pollRoom waker wanted => exact tracked.pollRoom waker wanted
  | tryEnqueueAll transmit now =>
      exact tracked.queues (world.shaper.queues_tryEnqueueAll transmit now)
  | enqueueOrDrop payload now =>
      exact tracked.queues (world.shaper.queues_enqueueOrDrop payload now)
  | close => exact tracked.close
  | notifies => exact tracked.notifies
  | wakes waker => exact tracked.wakes waker
  | awaits => exact tracked.awaits
  | calls =>
      show Tracked (if world.point = .away then { world with point := .passing } else world)
      split
      · exact tracked.goesOn DrainPoint.noConfusion DrainPoint.noConfusion
      · exact tracked
  | slept =>
      show Tracked (if world.point = .sleeping then { world with point := .passing } else world)
      split
      · exact tracked.goesOn DrainPoint.noConfusion DrainPoint.noConfusion
      · exact tracked
  | passes now =>
      show Tracked (if world.point = .passing then world.pass now else world)
      split
      · exact tracked.pass now
      · exact tracked

end ShaperWaits

/-- Over every run on one shaper: a waker that was refused room and not woken since is in the
hands of a call that is waking it, or is registered with a queue that is open and has no such
room; and the draining task waits for an arrival only while the queue is empty and open, or a
call is about to notify it. -/
theorem no_lost_wakeup {F : Type} [F64 F] (shaper : RelayShaper F) (events : List WaitEvent) :
    let world := run ShaperWaits.step (ShaperWaits.new shaper) events
    (∀ waker wanted, (waker, wanted) ∈ world.parked →
      waker ∈ world.waking ∨
        waker ∈ world.wakers ∧ world.shaper.closed = false ∧
          world.shaper.depth < world.shaper.items.length + wanted) ∧
      (world.point = .waiting →
        world.shaper.items = [] ∧ world.shaper.closed = false ∨ 0 < world.notifying) := by
  intro world
  have tracked : ShaperWaits.Tracked world :=
    run_always (fun _ event tracked => tracked.step event) (ShaperWaits.tracked_new shaper) events
  exact ⟨tracked.parked, tracked.waiting⟩

end Mosschat.Net
