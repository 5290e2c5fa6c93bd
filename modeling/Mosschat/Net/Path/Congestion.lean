import Mosschat.Library.Restart
import Mosschat.Net.Path.Entries

/-!
Owns the congestion controllers of the peer connections: the wrapper of `path.rs` that starts
a controller over once the epoch of its path entry has moved, and what a controller still
knows of the calls on it while the path is switched under it.

Does not own the controller that is wrapped, nor who makes the calls.
-/

namespace Mosschat.Net

open Mosschat.Core Mosschat.Library Mosschat.Library.Machine

/-- A call on a `Controller`. Every one of them but `on_mtu_update` carries the time. -/
inductive ControllerCall (Rtt : Type) where
  | onSent (now : Nat) (bytes lastPacketNumber : UInt64)
  | onAck (now sent : Nat) (bytes : UInt64) (appLimited : Bool) (rtt : Rtt)
  | onEndAcks (now : Nat) (inFlight : UInt64) (appLimited : Bool)
      (largestPacketNumAcked : Option UInt64)
  | onCongestionEvent (now sent : Nat) (isPersistentCongestion : Bool) (lostBytes : UInt64)
  | onMtuUpdate (newMtu : UInt16)

/-- The controller that is wrapped, which `CubicConfig::build` makes. -/
structure Cubic (Rtt C : Type) where
  build : Nat → UInt16 → C
  call : C → ControllerCall Rtt → C

/-- `EpochResettingController`, with the place of the entry whose epoch it shares. -/
structure EpochResettingController (C : Type) where
  handle : Nat
  observedEpoch : UInt64
  currentMtu : UInt16
  inner : C

namespace EpochResettingController

variable {Rtt C : Type} (cubic : Cubic Rtt C)

/-- `EpochControllerFactory::build`. -/
def build (handle : Nat) (epoch : UInt64) (now : Nat) (currentMtu : UInt16) :
    EpochResettingController C where
  handle := handle
  observedEpoch := epoch
  currentMtu := currentMtu
  inner := cubic.build now currentMtu

/-- `EpochResettingController::maybe_reset`. -/
def maybeReset (controller : EpochResettingController C) (current : UInt64) (now : Nat) :
    EpochResettingController C :=
  if current ≠ controller.observedEpoch then
    { controller with
      observedEpoch := current
      inner := cubic.build now controller.currentMtu }
  else controller

/-- What each of the calls that carry the time does. -/
def delegate (controller : EpochResettingController C) (current : UInt64) (now : Nat)
    (call : ControllerCall Rtt) : EpochResettingController C :=
  let controller := controller.maybeReset cubic current now
  { controller with inner := cubic.call controller.inner call }

/-- `EpochResettingController::on_sent`. -/
def onSent (controller : EpochResettingController C) (current : UInt64) (now : Nat)
    (bytes lastPacketNumber : UInt64) : EpochResettingController C :=
  controller.delegate cubic current now (.onSent now bytes lastPacketNumber)

/-- `EpochResettingController::on_ack`. -/
def onAck (controller : EpochResettingController C) (current : UInt64) (now sent : Nat)
    (bytes : UInt64) (appLimited : Bool) (rtt : Rtt) : EpochResettingController C :=
  controller.delegate cubic current now (.onAck now sent bytes appLimited rtt)

/-- `EpochResettingController::on_end_acks`. -/
def onEndAcks (controller : EpochResettingController C) (current : UInt64) (now : Nat)
    (inFlight : UInt64) (appLimited : Bool) (largestPacketNumAcked : Option UInt64) :
    EpochResettingController C :=
  controller.delegate cubic current now
    (.onEndAcks now inFlight appLimited largestPacketNumAcked)

/-- `EpochResettingController::on_congestion_event`. -/
def onCongestionEvent (controller : EpochResettingController C) (current : UInt64)
    (now sent : Nat) (isPersistentCongestion : Bool) (lostBytes : UInt64) :
    EpochResettingController C :=
  controller.delegate cubic current now
    (.onCongestionEvent now sent isPersistentCongestion lostBytes)

/-- `EpochResettingController::on_mtu_update`, which does not look at the epoch. -/
def onMtuUpdate (controller : EpochResettingController C) (newMtu : UInt16) :
    EpochResettingController C :=
  { controller with
    currentMtu := newMtu
    inner := cubic.call controller.inner (.onMtuUpdate newMtu) }

def called (controller : EpochResettingController C) (current : UInt64) :
    ControllerCall Rtt → EpochResettingController C
  | .onSent now bytes last => controller.onSent cubic current now bytes last
  | .onAck now sent bytes limited rtt =>
    controller.onAck cubic current now sent bytes limited rtt
  | .onEndAcks now inFlight limited largest =>
    controller.onEndAcks cubic current now inFlight limited largest
  | .onCongestionEvent now sent persistent lost =>
    controller.onCongestionEvent cubic current now sent persistent lost
  | .onMtuUpdate newMtu => controller.onMtuUpdate cubic newMtu

end EpochResettingController

/-! ## Controllers over a path table -/

section Runs

variable {Rtt C : Type}

/-- The time of a call, if it carries one. -/
def ControllerCall.now : ControllerCall Rtt → Option Nat
  | .onSent now _ _ | .onAck now _ _ _ _ | .onEndAcks now _ _ _
  | .onCongestionEvent now _ _ _ => some now
  | .onMtuUpdate _ => none

/-- A controller, with when and for which packets it was built, and since then the calls on
it and the switches of its path. -/
structure Tracked (Rtt C : Type) where
  controller : EpochResettingController C
  builtAt : Nat
  builtMtu : UInt16
  log : List (Restart.Event (ControllerCall Rtt))

/-- A path table, and the controllers of the connections over it. -/
structure Congestion (Rtt C : Type) where
  table : PathTable
  controllers : List (Tracked Rtt C)

/-- A call on the table, a connection that is opened over an entry, a call on a controller,
or a controller that quinn clones. -/
inductive CongestionAction (Rtt : Type) where
  | path (next : PathCall)
  | build (handle now : Nat) (currentMtu : UInt16)
  | call (place : Nat) (call : ControllerCall Rtt)
  | cloneBox (place : Nat)

variable (cubic : Cubic Rtt C)

/-- The call on the table, as the controller's own path has it. -/
def Tracked.beside (tracked : Tracked Rtt C) (table later : PathTable) : Tracked Rtt C :=
  if later.kindAt tracked.controller.handle = table.kindAt tracked.controller.handle then tracked
  else { tracked with log := tracked.log ++ [.moved] }

def Tracked.called (tracked : Tracked Rtt C) (table : PathTable) (call : ControllerCall Rtt) :
    Tracked Rtt C :=
  match table.entries[tracked.controller.handle]? with
  | none => tracked
  | some entry =>
    { tracked with
      controller := tracked.controller.called cubic entry.epoch call
      log := tracked.log ++ [.input call] }

namespace Congestion

def new : Congestion Rtt C := ⟨.new, []⟩

variable (address : Bytes32 → SocketAddr)

def step (state : Congestion Rtt C) : CongestionAction Rtt → Congestion Rtt C
  | .path next =>
    let later := state.table.call address next
    ⟨later, state.controllers.map fun tracked => tracked.beside state.table later⟩
  | .build handle now currentMtu =>
    match state.table.entries[handle]? with
    | none => state
    | some entry =>
      { state with
        controllers := state.controllers ++
          [⟨.build cubic handle entry.epoch now currentMtu, now, currentMtu, []⟩] }
  | .call place call =>
    { state with
      controllers := state.controllers.modify place fun tracked =>
        tracked.called cubic state.table call }
  | .cloneBox place =>
    { state with controllers := state.controllers ++ state.controllers[place]?.toList }

end Congestion

/-! ## What a controller knows -/

/-- A controller that starts over at the first call with a time after a switch of its path,
as the packets are sized by then. -/
def Cubic.machine : Restart.Restarting (UInt16 × C) (ControllerCall Rtt) where
  step state call :=
    (match call with
      | .onMtuUpdate newMtu => newMtu
      | _ => state.1,
    cubic.call state.2 call)
  fresh state call := call.now.map fun now => (state.1, cubic.build now state.1)

namespace Tracked

/-- What the controller would be had it seen the switches of the path themselves. -/
def seen (tracked : Tracked Rtt C) : Restart.Seen (UInt16 × C) :=
  run cubic.machine.observe
    ⟨(tracked.builtMtu, cubic.build tracked.builtAt tracked.builtMtu), false⟩ tracked.log

/-- The wrapper is the controller that sees the switches, and the epoch it saw last is as far
behind its entry's as there were switches since. -/
structure Follows (tracked : Tracked Rtt C) (table : PathTable) (calls : Nat) : Prop where
  same : (tracked.seen cubic).current =
    (tracked.controller.currentMtu, tracked.controller.inner)
  behind : ∃ entry switches, table.entries[tracked.controller.handle]? = some entry ∧
    tracked.controller.observedEpoch + UInt64.ofNat switches = entry.epoch ∧
    switches ≤ calls ∧ ((tracked.seen cubic).stale = true ↔ 0 < switches)

end Tracked

theorem Cubic.blind_onMtuUpdate (newMtu : UInt16) :
    cubic.machine.Blind (.onMtuUpdate newMtu) :=
  fun _ => rfl

theorem Cubic.fresh_of_now {call : ControllerCall Rtt} {now : Nat} (timed : call.now = some now)
    (state : UInt16 × C) :
    cubic.machine.fresh state call = some (state.1, cubic.build now state.1) := by
  show call.now.map _ = _
  rw [timed]
  rfl

theorem Cubic.step_of_now {call : ControllerCall Rtt} {now : Nat} (timed : call.now = some now)
    (state : UInt16 × C) :
    cubic.machine.step state call = (state.1, cubic.call state.2 call) := by
  cases call with
  | onMtuUpdate newMtu => cases timed
  | onSent | onAck | onEndAcks | onCongestionEvent => rfl

namespace EpochResettingController

theorem called_of_now (controller : EpochResettingController C) (current : UInt64)
    {call : ControllerCall Rtt} {now : Nat} (timed : call.now = some now) :
    controller.called cubic current call = controller.delegate cubic current now call := by
  cases call with
  | onMtuUpdate newMtu => cases timed
  | onSent | onAck | onEndAcks | onCongestionEvent =>
      cases timed
      rfl

/-- A call with a time finds the epoch as it is now, and starts the controller over where it
was another before. -/
theorem delegate_eq (controller : EpochResettingController C) (current : UInt64) (now : Nat)
    (call : ControllerCall Rtt) :
    controller.delegate cubic current now call =
      { controller with
        observedEpoch := current
        inner := cubic.call (if current = controller.observedEpoch then controller.inner
          else cubic.build now controller.currentMtu) call } := by
  unfold delegate maybeReset
  by_cases kept : current = controller.observedEpoch
  · rw [if_neg (not_not_intro kept), if_pos kept, kept]
  · rw [if_pos kept, if_neg kept]

end EpochResettingController

/-- Fewer than 2^64 switches show in the epoch. -/
theorem epoch_ne_iff {observed epoch : UInt64} {switches : Nat}
    (behind : observed + UInt64.ofNat switches = epoch) (few : switches < 2 ^ 64) :
    epoch ≠ observed ↔ 0 < switches := by
  rw [← behind, ne_eq, ← UInt64.toNat_inj, UInt64.toNat_add, UInt64.toNat_ofNat']
  have bounded := observed.toNat_lt
  omega

namespace Tracked

variable {cubic} {tracked : Tracked Rtt C} {table : PathTable} {calls : Nat}

theorem follows_build {entry : PathEntry} {handle : Nat}
    (found : table.entries[handle]? = some entry) (now : Nat) (currentMtu : UInt16) :
    Follows cubic ⟨.build cubic handle entry.epoch now currentMtu, now, currentMtu, []⟩ table
      calls where
  same := rfl
  behind := ⟨entry, 0, found, UInt64.add_zero _, Nat.zero_le _, by simp [seen]⟩

theorem Follows.mono {later : Nat} (follows : tracked.Follows cubic table calls)
    (ordered : calls ≤ later) : tracked.Follows cubic table later where
  same := follows.same
  behind := by
    obtain ⟨entry, switches, found, epoch, few, stale⟩ := follows.behind
    exact ⟨entry, switches, found, epoch, few.trans ordered, stale⟩

/-- A call on the table shows in the controller's log exactly where it counts the epoch up. -/
theorem Follows.beside {address : Bytes32 → SocketAddr}
    (follows : tracked.Follows cubic table calls) (next : PathCall) :
    (tracked.beside table (table.call address next)).Follows cubic (table.call address next)
      (calls + 1) := by
  obtain ⟨entry, switches, found, epoch, few, stale⟩ := follows.behind
  obtain ⟨after, isAfter, changed⟩ := table.changed_call address next found
  have kindBefore : table.kindAt tracked.controller.handle = some entry.kind := by
    rw [PathTable.kindAt, found]
    rfl
  have kindAfter : (table.call address next).kindAt tracked.controller.handle =
      some after.kind := by
    rw [PathTable.kindAt, isAfter]
    rfl
  have counted := changed.epoch
  unfold Tracked.beside
  rw [kindBefore, kindAfter]
  by_cases kept : after.kind = entry.kind
  · rw [if_pos kept] at counted
    rw [if_pos (congrArg some kept)]
    exact ⟨follows.same, after, switches, isAfter, epoch.trans counted.symm,
      Nat.le_succ_of_le few, stale⟩
  · rw [if_neg kept] at counted
    rw [if_neg fun same => kept (Option.some.inj same)]
    have seen : Tracked.seen cubic { tracked with log := tracked.log ++ [.moved] } =
        ⟨(tracked.seen cubic).current, true⟩ := run_concat _ _ _
    refine ⟨?_, after, switches + 1, isAfter, ?_, Nat.succ_le_succ few, ?_⟩
    · rw [seen]
      exact follows.same
    · rw [counted, ← epoch, UInt64.ofNat_add, UInt64.add_assoc]
      rfl
    · rw [seen]
      simp

/-- A call on the controller does what it does on one that sees the switches. -/
theorem Follows.called (follows : tracked.Follows cubic table calls) (few : calls < 2 ^ 64)
    (call : ControllerCall Rtt) : (tracked.called cubic table call).Follows cubic table calls := by
  obtain ⟨entry, switches, found, epoch, within, stale⟩ := follows.behind
  have isCalled : tracked.called cubic table call =
      { tracked with
        controller := tracked.controller.called cubic entry.epoch call
        log := tracked.log ++ [.input call] } := by
    unfold Tracked.called
    rw [found]
  rw [isCalled]
  have seen : Tracked.seen cubic
      { tracked with
        controller := tracked.controller.called cubic entry.epoch call
        log := tracked.log ++ [.input call] } =
      cubic.machine.observe (tracked.seen cubic) (.input call) := run_concat _ _ _
  cases timed : call.now with
  | none =>
      cases call with
      | onSent | onAck | onEndAcks | onCongestionEvent => cases timed
      | onMtuUpdate newMtu =>
          have observed : cubic.machine.observe (tracked.seen cubic)
              (.input (.onMtuUpdate newMtu)) =
                ⟨(newMtu, cubic.call tracked.controller.inner (.onMtuUpdate newMtu)),
                  (tracked.seen cubic).stale⟩ := by
            unfold Restart.Restarting.observe
            simp only
            rw [(cubic.blind_onMtuUpdate newMtu).entered, follows.same]
            rfl
          rw [observed] at seen
          refine ⟨?_, entry, switches, found, epoch, within, ?_⟩
          · rw [seen]
            rfl
          · rw [seen]
            exact stale
  | some now =>
      have tells := epoch_ne_iff epoch (within.trans_lt few)
      rw [tracked.controller.called_of_now cubic entry.epoch timed,
        EpochResettingController.delegate_eq] at seen ⊢
      -- The wrapper starts over where its epoch is behind, which is where a switch was seen.
      have entered : cubic.machine.entered (tracked.seen cubic) call =
          ⟨(tracked.controller.currentMtu,
            if entry.epoch = tracked.controller.observedEpoch then tracked.controller.inner
            else cubic.build now tracked.controller.currentMtu), false⟩ := by
        have isSeen : tracked.seen cubic =
            ⟨(tracked.controller.currentMtu, tracked.controller.inner),
              (tracked.seen cubic).stale⟩ := by
          rw [← follows.same]
        rw [isSeen]
        cases wasStale : (tracked.seen cubic).stale with
        | false =>
            have kept : entry.epoch = tracked.controller.observedEpoch := by
              by_contra differs
              rw [stale.mpr (tells.mp differs)] at wasStale
              cases wasStale
            rw [if_pos kept]
            rfl
        | true =>
            rw [if_neg (tells.mpr (stale.mp wasStale))]
            exact Restart.Restarting.entered_stale (cubic.fresh_of_now timed _)
      have observed : cubic.machine.observe (tracked.seen cubic) (.input call) =
          ⟨(tracked.controller.currentMtu,
            cubic.call (if entry.epoch = tracked.controller.observedEpoch
              then tracked.controller.inner
              else cubic.build now tracked.controller.currentMtu) call), false⟩ := by
        unfold Restart.Restarting.observe
        simp only
        rw [entered, cubic.step_of_now timed]
      rw [observed] at seen
      refine ⟨?_, entry, 0, found, UInt64.add_zero _, Nat.zero_le _, ?_⟩
      · rw [seen]
      · rw [seen]
        simp

end Tracked

namespace Congestion

variable {cubic}

/-- Every controller is the one that sees the switches of its path. -/
def Tracks (cubic : Cubic Rtt C) (state : Congestion Rtt C) (calls : Nat) : Prop :=
  ∀ tracked ∈ state.controllers, tracked.Follows cubic state.table calls

theorem Tracks.step {address : Bytes32 → SocketAddr} {state : Congestion Rtt C} {calls : Nat}
    (tracks : state.Tracks cubic calls) (few : calls < 2 ^ 64) (action : CongestionAction Rtt) :
    (state.step cubic address action).Tracks cubic (calls + 1) := by
  have later : ∀ tracked ∈ state.controllers, tracked.Follows cubic state.table (calls + 1) :=
    fun tracked present => (tracks tracked present).mono (Nat.le_succ calls)
  cases action with
  | path next =>
      intro tracked present
      obtain ⟨before, isBefore, rfl⟩ := List.mem_map.mp present
      exact (tracks before isBefore).beside next
  | build handle now currentMtu =>
      show Tracks cubic (match state.table.entries[handle]? with
        | none => state
        | some entry => _) (calls + 1)
      cases found : state.table.entries[handle]? with
      | none => exact later
      | some entry =>
          intro tracked present
          rcases List.mem_append.mp present with before | new
          · exact later tracked before
          · rw [List.mem_singleton.mp new]
            exact Tracked.follows_build found now currentMtu
  | call place call =>
      intro tracked present
      obtain ⟨index, isAt⟩ := List.mem_iff_getElem?.mp present
      change (state.controllers.modify place _)[index]? = some tracked at isAt
      rw [List.getElem?_modify] at isAt
      obtain ⟨before, isBefore, isAfter⟩ := Option.map_eq_some_iff.mp isAt
      have follows := tracks before (List.mem_of_getElem? isBefore)
      by_cases same : place = index
      · rw [if_pos same] at isAfter
        rw [← isAfter]
        exact (follows.called few call).mono (Nat.le_succ calls)
      · rw [if_neg same] at isAfter
        rw [← isAfter]
        exact follows.mono (Nat.le_succ calls)
  | cloneBox place =>
      intro tracked present
      rcases List.mem_append.mp present with before | clone
      · exact later tracked before
      · exact later tracked (List.mem_of_getElem? (Option.mem_toList.mp clone))

theorem tracks_run (address : Bytes32 → SocketAddr) (actions : List (CongestionAction Rtt))
    {state : Congestion Rtt C} {calls : Nat} (tracks : state.Tracks cubic calls)
    (few : calls + actions.length ≤ 2 ^ 64) :
    (run (step cubic address) state actions).Tracks cubic (calls + actions.length) := by
  induction actions generalizing state calls with
  | nil => exact tracks
  | cons action rest ih =>
      rw [List.length_cons] at few ⊢
      have kept : (state.step cubic address action).Tracks cubic (calls + 1) :=
        tracks.step (by omega) action
      have next := ih kept (by omega)
      rw [Nat.add_assoc, Nat.add_comm 1] at next
      exact next

end Congestion

/-- The size of packets, after what happens to a controller. -/
def mtuStep (mtu : UInt16) : Restart.Event (ControllerCall Rtt) → UInt16
  | .input (.onMtuUpdate newMtu) => newMtu
  | _ => mtu

/-- What size the packets have by then shows in the log alone. -/
theorem Cubic.mtu_observe (start : Restart.Seen (UInt16 × C))
    (log : List (Restart.Event (ControllerCall Rtt))) :
    (run cubic.machine.observe start log).current.1 = run mtuStep start.current.1 log := by
  induction log generalizing start with
  | nil => rfl
  | cons event rest ih =>
      rw [run_cons, run_cons, ih]
      congr 1
      cases event with
      | moved => rfl
      | input call =>
          have entered : (cubic.machine.entered start call).current.1 = start.current.1 := by
            unfold Restart.Restarting.entered
            split
            · show ((call.now.map _).map _ |>.getD start).current.1 = _
              cases call.now <;> rfl
            · rfl
          cases call with
          | onMtuUpdate newMtu => rfl
          | onSent | onAck | onEndAcks | onCongestionEvent => exact entered

theorem Cubic.mtu_machine (state : UInt16 × C) (calls : List (ControllerCall Rtt)) :
    (run cubic.machine.step state calls).1 = run mtuStep state.1 (calls.map .input) := by
  induction calls generalizing state with
  | nil => rfl
  | cons call rest ih =>
      rw [run_cons, ih, List.map_cons, run_cons]
      cases call <;> rfl

theorem Cubic.run_machine (state : UInt16 × C) (calls : List (ControllerCall Rtt)) :
    (run cubic.machine.step state calls).2 = run cubic.call state.2 calls := by
  induction calls generalizing state with
  | nil => rfl
  | cons call rest ih => exact ih (cubic.machine.step state call)

/-- Whatever is called on a path table and on the controllers of the connections over it: a
controller under which the path was never switched is the one quinn built, with every call
made on it; and after a switch the first call with a time starts the controller over, so that
what it knows from there on is what was called on it since, at the packet size it had. -/
theorem congestion_per_path (cubic : Cubic Rtt C) (address : Bytes32 → SocketAddr)
    (actions : List (CongestionAction Rtt)) (few : actions.length < 2 ^ 64) :
    ∀ tracked ∈ (run (Congestion.step cubic address) Congestion.new actions).controllers,
      (∀ calls, tracked.log = calls.map .input →
        tracked.controller.inner =
          run cubic.call (cubic.build tracked.builtAt tracked.builtMtu) calls) ∧
      ∀ front (unaware : List (ControllerCall Rtt)) call now (back : List (ControllerCall Rtt)),
        tracked.log = front ++ .moved :: (unaware.map .input ++ .input call :: back.map .input) →
        (∀ next ∈ unaware, next.now = none) → call.now = some now →
        tracked.controller.inner =
          run cubic.call
            (cubic.build now (run mtuStep tracked.builtMtu (front ++ unaware.map .input)))
            (call :: back) := by
  intro tracked present
  have none : Congestion.Tracks cubic (Congestion.new : Congestion Rtt C) 0 :=
    List.forall_mem_nil _
  have follows := Congestion.tracks_run address actions none (by omega) tracked present
  have same := congrArg Prod.snd follows.same
  refine ⟨?_, ?_⟩
  · intro calls unmoved
    unfold Tracked.seen at same
    rw [unmoved, Restart.Restarting.observe_settled, cubic.run_machine] at same
    exact same.symm
  · intro front unaware call now back moved untimed timed
    have blind : ∀ next ∈ unaware, cubic.machine.Blind next := by
      intro next member state
      show next.now.map _ = _
      rw [untimed next member]
      rfl
    have size := cubic.mtu_machine (run cubic.machine.observe
      ⟨(tracked.builtMtu, cubic.build tracked.builtAt tracked.builtMtu), false⟩ front).current
      unaware
    rw [cubic.mtu_observe, ← run_append] at size
    have tells := cubic.fresh_of_now timed (run cubic.machine.step
      (run cubic.machine.observe
        ⟨(tracked.builtMtu, cubic.build tracked.builtAt tracked.builtMtu), false⟩
        front).current unaware)
    rw [size] at tells
    unfold Tracked.seen at same
    rw [moved, Restart.Restarting.observe_moved _ front back blind tells,
      cubic.run_machine] at same
    exact same.symm

end Runs

/-- A controller that is the calls it was told. -/
def tellingCubic : Cubic Unit (List (ControllerCall Unit)) where
  build _ _ := []
  call told call := told ++ [call]

def upgradedAddr : SocketAddr := ⟨.newV4 192 0 2 7, 4433⟩

/-- A visit on the relay that is upgraded, and told of a packet size before it sends again. -/
def upgradedVisit : List (CongestionAction Unit) :=
  [.path (.insertRelay (List.Vector.replicate 32 1)), .build 0 10 1200,
    .call 0 (.onSent 11 1200 1), .path (.upgradeTo 0 upgradedAddr),
    .call 0 (.onMtuUpdate 1400), .call 0 (.onSent 20 1400 2)]

theorem congestion_per_path_upgradedVisit :
    ∃ tracked, (run (Congestion.step tellingCubic fun _ => upgradedAddr) Congestion.new
        upgradedVisit).controllers = [tracked] ∧
      tracked.controller.inner = run tellingCubic.call (tellingCubic.build 20 1400)
        [.onSent 20 1400 2] := by
  refine ⟨_, rfl, ?_⟩
  have law := congestion_per_path tellingCubic (fun _ => upgradedAddr) upgradedVisit (by decide)
    _ (List.mem_singleton_self _)
  apply law.2 [.input (.onSent 11 1200 1)] [.onMtuUpdate 1400] (.onSent 20 1400 2) 20 []
  · rfl
  · intro next member
    rw [List.mem_singleton.mp member]
    rfl
  · rfl

end Mosschat.Net
