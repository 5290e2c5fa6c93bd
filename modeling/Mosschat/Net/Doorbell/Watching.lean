import Mosschat.Library.Machine
import Mosschat.Net.Doorbell
import Mosschat.Net.Doorbell.Attempt

/-!
Owns a watched path as `run_doorbell` drives it, turn after turn, and that a path some answers
of which reach the watch before it probes again is never reported stale.

Does not own what a visit does when its path is stale.
-/

namespace Mosschat.Net

open Mosschat.Library.Machine Mosschat.Net.Gate

/-- One turn of the loop while it watches a path: when it begins, the tx id it draws, whether
the socket takes the probe, and the pongs it drains, each with its source and the time it is
taken from the queue. -/
structure WatchTick where
  now : Nat
  tx : TxId
  sent : Bool
  arrived : List (SocketAddr × TxId × Nat)
deriving DecidableEq

/-- The watch of a relayed visit, as long as the relay is not dead. -/
def RelayWatch.asWatch (watch : RelayWatch) : Watch :=
  ⟨watch.addr, watch.liveness, watch.outstanding, watch.sentAt⟩

/-- The watch of a relayed visit with what it watches put back. -/
def RelayWatch.keeping (watch : RelayWatch) (kept : Watch) : RelayWatch :=
  { watch with
    liveness := kept.liveness, outstanding := kept.outstanding, sentAt := kept.sentAt }

namespace Watch

/-- A direct path is watched from the upgrade on. -/
def opened (addr : SocketAddr) (now rtt : Nat) : Watch :=
  ⟨addr, ((PeerLiveness.new now).withSrtt rtt).setActivity .visit, none, none⟩

/-- What a path is watched by, direct or relayed. -/
def begins (relayed : Bool) (addr : SocketAddr) (now rtt : Nat) : Watch :=
  if relayed then (RelayWatch.new addr now).asWatch else opened addr now rtt

/-- The probe of a turn. Only on the relay a refused probe is taken back. -/
def probes (watch : Watch) (relayed : Bool) (tick : WatchTick) : Watch :=
  let (liveness, due) := watch.liveness.dueProbe tick.now
  if due then
    if relayed && !tick.sent then
      { watch with
        liveness := liveness.probeNotSent tick.now, outstanding := none, sentAt := none }
    else { watch with liveness := liveness, outstanding := some tick.tx, sentAt := some tick.now }
  else { watch with liveness := liveness }

/-- The poll of a turn. -/
def polls (watch : Watch) (now : Nat) : Watch × Option LivenessChange :=
  ({ watch with liveness := (watch.liveness.poll now).1 }, (watch.liveness.poll now).2)

/-- The pong is the one that is waited for. -/
def Awaits (watch : Watch) (arrival : SocketAddr × TxId × Nat) : Prop :=
  arrival.1 = watch.addr ∧ watch.outstanding = some arrival.2.1

instance (watch : Watch) (arrival : SocketAddr × TxId × Nat) :
    Decidable (watch.Awaits arrival) :=
  inferInstanceAs (Decidable (_ ∧ _))

/-- A pong that is drained. -/
def pong (watch : Watch) (arrival : SocketAddr × TxId × Nat) : Watch :=
  if watch.Awaits arrival then
    match watch.sentAt with
    | none => { watch with outstanding := none }
    | some sentAt =>
      { watch with
        liveness := (watch.liveness.onPong arrival.2.2 (arrival.2.2 - sentAt)).1
        outstanding := none }
  else watch

/-- One turn of the loop: probe, poll, drain. -/
def turn (relayed : Bool) (watch : Watch) (tick : WatchTick) : Watch :=
  tick.arrived.foldl pong ((watch.probes relayed tick).polls tick.now).1

/-- The change a turn reports. -/
def reports (relayed : Bool) (watch : Watch) (tick : WatchTick) : List LivenessChange :=
  ((watch.probes relayed tick).polls tick.now).2.toList

/-- A turn sends no probe, or one that is refused, or one that leaves or that nothing else
looks after. -/
theorem probes_cases (watch : Watch) (relayed : Bool) (tick : WatchTick) :
    (watch.liveness.dueProbe tick.now).2 = false ∧
        watch.probes relayed tick =
          { watch with liveness := (watch.liveness.dueProbe tick.now).1 } ∨
      (watch.liveness.dueProbe tick.now).2 = true ∧ (relayed && !tick.sent) = true ∧
        watch.probes relayed tick =
          { watch with
            liveness := (watch.liveness.dueProbe tick.now).1.probeNotSent tick.now
            outstanding := none
            sentAt := none } ∨
      (watch.liveness.dueProbe tick.now).2 = true ∧ (relayed && !tick.sent) = false ∧
        watch.probes relayed tick =
          { watch with
            liveness := (watch.liveness.dueProbe tick.now).1
            outstanding := some tick.tx
            sentAt := some tick.now } := by
  unfold probes
  cases due : (watch.liveness.dueProbe tick.now).2 with
  | false => exact Or.inl ⟨rfl, by simp [due]⟩
  | true =>
      right
      cases refused : relayed && !tick.sent with
      | true => exact Or.inl ⟨rfl, rfl, by simp [due]⟩
      | false => exact Or.inr ⟨rfl, rfl, by simp [due]⟩

end Watch

/-! ## The turns of the doorbell -/

namespace Doorbell

/-- While nothing changes, the doorbell's turn on a direct path is the watch's. -/
theorem watches_of_quiet (house : Doorbell) (running : Running) (watch : Watch)
    (tick : WatchTick) (failed : Bool)
    (quiet : ((watch.probes false tick).polls tick.now).2 = none) :
    house.watches running watch tick.tx tick.now failed =
      ({ house with
          stage := .looping running (.watching ((watch.probes false tick).polls tick.now).1) },
        []) := by
  unfold Doorbell.watches
  unfold Watch.probes Watch.polls at quiet ⊢
  simp only [Bool.false_and, Bool.false_eq_true, ↓reduceIte] at quiet ⊢
  cases due : (watch.liveness.dueProbe tick.now).2 with
  | true =>
      simp only [due, ↓reduceIte] at quiet ⊢
      rw [quiet]
  | false =>
      simp only [due, Bool.false_eq_true, ↓reduceIte] at quiet ⊢
      rw [quiet]

/-- While the relay is not dead, the doorbell's turn on the relay is the watch's. -/
theorem relayWatches_of_alive (house : Doorbell) (running : Running) (watch : RelayWatch)
    (tick : WatchTick) (alive : watch.deadSince = none)
    (lasts : ((watch.asWatch.probes true tick).polls tick.now).2 ≠ some .wentDead) :
    house.relayWatches running watch tick.tx tick.now tick.sent =
      { house with
        stage := .looping running
          (.relayed (watch.keeping ((watch.asWatch.probes true tick).polls tick.now).1)) } := by
  have aliveStill : watch.deadSince.isNone = true := by rw [alive]; rfl
  unfold Doorbell.relayWatches RelayWatch.dueProbe RelayWatch.probeNotSent
  unfold Watch.probes Watch.polls RelayWatch.asWatch at lasts
  unfold RelayWatch.keeping Watch.probes Watch.polls RelayWatch.asWatch
  simp only [aliveStill, ↓reduceIte, Bool.true_and] at lasts ⊢
  cases due : (watch.liveness.dueProbe tick.now).2 with
  | true =>
      cases isSent : tick.sent with
      | true =>
          simp only [due, isSent, Bool.not_true, Bool.false_eq_true, ↓reduceIte] at lasts ⊢
          split
          · next dead => exact absurd dead lasts
          · rfl
          · rfl
      | false =>
          simp only [due, isSent, Bool.not_false, Bool.false_eq_true, ↓reduceIte] at lasts ⊢
          split
          · next dead => exact absurd dead lasts
          · rfl
          · rfl
  | false =>
      simp only [due, Bool.false_eq_true, ↓reduceIte] at lasts ⊢
      split
      · next dead => exact absurd dead lasts
      · rfl
      · rfl

/-- A pong the doorbell drains is the watch's. -/
theorem pongs_watching {house : Doorbell} {running : Running} {watch : Watch}
    (isStage : house.stage = .looping running (.watching watch))
    (arrival : SocketAddr × TxId × Nat) :
    (house.pongs arrival.1 arrival.2.1 arrival.2.2).stage =
      .looping running (.watching (watch.pong arrival)) := by
  unfold Doorbell.pongs Watch.pong
  rw [isStage]
  simp only
  by_cases awaits : watch.Awaits arrival
  · rw [if_pos awaits, if_pos (show arrival.1 = watch.addr ∧ _ from awaits)]
    cases watch.sentAt with
    | none => rfl
    | some sentAt => rfl
  · rw [if_neg awaits, if_neg (show ¬(arrival.1 = watch.addr ∧ _) from awaits)]
    exact isStage

theorem pongs_relayed {house : Doorbell} {running : Running} {watch : RelayWatch}
    (isStage : house.stage = .looping running (.relayed watch)) (alive : watch.deadSince = none)
    (arrival : SocketAddr × TxId × Nat) :
    (house.pongs arrival.1 arrival.2.1 arrival.2.2).stage =
      .looping running (.relayed (watch.keeping (watch.asWatch.pong arrival))) := by
  unfold Doorbell.pongs Watch.pong
  rw [isStage]
  simp only [alive, Option.isSome_none, Bool.false_eq_true, ↓reduceIte]
  by_cases awaits : arrival.1 = watch.addr ∧ watch.outstanding = some arrival.2.1
  · rw [if_pos awaits, if_pos (show watch.asWatch.Awaits arrival from awaits)]
    unfold RelayWatch.keeping RelayWatch.asWatch
    cases watch.sentAt with
    | none => rw [alive]
    | some sentAt => rw [alive]
  · rw [if_neg awaits, if_neg (show ¬watch.asWatch.Awaits arrival from awaits)]
    exact isStage

end Doorbell

/-! ## Misses against probes -/

theorem probeLossFloor_le (srtt : Option Nat) : probeLossFloor ≤ probeLossDeadline srtt := by
  cases srtt with
  | none => exact Nat.le_refl _
  | some srtt => exact Nat.le_max_right _ _

/-- Every miss of a live visit stands for two probes that were due: the one whose answer is
missed, and the one that was due before it was charged. -/
structure Charged (peer : PeerLiveness) (unanswered : Nat) : Prop where
  live : peer.state = .live
  visit : peer.activity = .visit
  unmarked : peer.outstanding = none → 2 * peer.misses ≤ unanswered
  marked : ∀ sentAt, peer.outstanding = some sentAt →
    peer.lastSent = some sentAt ∧ 2 * peer.misses + 1 ≤ unanswered ∨
      2 * peer.misses + 2 ≤ unanswered

namespace Charged

open PeerLiveness

theorem opened (now : Nat) (srtt : Option Nat) :
    Charged { PeerLiveness.new now with activity := .visit, srtt := srtt } 0 :=
  ⟨rfl, rfl, fun _ => Nat.le_refl 0, nofun⟩

/-- The turn's probe is counted, and a probe that is overdue then is not the turn's. -/
theorem dueProbe {peer : PeerLiveness} {unanswered : Nat} (charged : Charged peer unanswered)
    (now : Nat) :
    Charged (peer.dueProbe now).1
        (if (peer.dueProbe now).2 then unanswered + 1 else unanswered) ∧
      ∀ sentAt, (peer.dueProbe now).1.outstanding = some sentAt →
        probeLossFloor ≤ now - sentAt →
        2 * (peer.dueProbe now).1.misses + 2 ≤
          if (peer.dueProbe now).2 then unanswered + 1 else unanswered := by
  have notDead : peer.state ≠ .dead := by
    rw [charged.live]
    exact nofun
  unfold PeerLiveness.dueProbe
  rw [if_neg notDead]
  by_cases lately : peer.sentLately now = true
  · rw [if_pos lately]
    refine ⟨charged, ?_⟩
    intro sentAt isMark overdue
    rcases charged.marked sentAt isMark with ⟨isLast, -⟩ | enough
    · have interval : peer.probeInterval = probeLossFloor := by
        rw [PeerLiveness.probeInterval, charged.live, charged.visit]
        rfl
      rw [PeerLiveness.sentLately, isLast, interval, decide_eq_true_eq] at lately
      omega
    · exact enough
  · rw [if_neg lately]
    simp only [↓reduceIte]
    cases isMark : peer.outstanding with
    | none =>
        have before := charged.unmarked isMark
        refine ⟨⟨charged.live, charged.visit, nofun, ?_⟩, ?_⟩
        · intro sentAt isNow
          exact Or.inl ⟨isNow, Nat.succ_le_succ before⟩
        · intro sentAt isNow overdue
          have same : now = sentAt := Option.some.inj isNow
          have floor : 0 < probeLossFloor := by decide
          omega
    | some marked =>
        have before : 2 * peer.misses + 2 ≤ unanswered + 1 := by
          rcases charged.marked marked isMark with ⟨-, enough⟩ | enough
          · omega
          · omega
        refine ⟨⟨charged.live, charged.visit, nofun, ?_⟩, ?_⟩
        · exact fun _ _ => Or.inr before
        · exact fun _ _ _ => before

theorem probeNotSent {peer : PeerLiveness} {unanswered : Nat}
    (charged : Charged peer unanswered) (sentAt : Nat) :
    Charged (peer.probeNotSent sentAt) unanswered := by
  rcases probeNotSent_cases peer sentAt with ⟨-, same⟩ | ⟨isMark, cleared⟩
  · rw [same]
    exact charged
  · rw [cleared]
    refine ⟨charged.live, charged.visit, ?_, nofun⟩
    intro _
    rcases charged.marked sentAt isMark with ⟨-, enough⟩ | enough
    · exact Nat.le_trans (Nat.le_succ _) enough
    · exact Nat.le_trans (Nat.le_add_right _ 2) enough

/-- A probe that is taken back where nothing is waited for leaves no trace. -/
theorem takenBack {peer : PeerLiveness} (charged : Charged peer 0) (now : Nat)
    (due : (peer.dueProbe now).2 = true) :
    Charged ((peer.dueProbe now).1.probeNotSent now) 0 ∧
      ((peer.dueProbe now).1.probeNotSent now).outstanding = none := by
  have unmarked : peer.outstanding = none := by
    cases isMark : peer.outstanding with
    | none => rfl
    | some sentAt =>
        rcases charged.marked sentAt isMark with ⟨-, enough⟩ | enough
        · omega
        · omega
  have misses := charged.unmarked unmarked
  rcases dueProbe_cases peer now with same | ⟨-, sent⟩
  · rw [same] at due
    cases due
  · rw [sent, unmarked]
    have cleared : PeerLiveness.probeNotSent { peer with
        lastSent := some now, outstanding := some now } now =
        { peer with lastSent := some now, outstanding := none } := if_pos rfl
    simp only [Option.isNone_none, ↓reduceIte, cleared]
    exact ⟨⟨charged.live, charged.visit, fun _ => misses, nofun⟩, trivial⟩

/-- Fewer than six probes make no third miss. -/
theorem poll {peer : PeerLiveness} {unanswered : Nat} (charged : Charged peer unanswered)
    {now : Nat} (few : unanswered ≤ 5)
    (overdue : ∀ sentAt, peer.outstanding = some sentAt → probeLossFloor ≤ now - sentAt →
      2 * peer.misses + 2 ≤ unanswered) :
    Charged (peer.poll now).1 unanswered ∧ (peer.poll now).2 = none := by
  have stale : probesToStale = 3 := rfl
  have notDead : peer.state ≠ .dead := by
    rw [charged.live]
    exact nofun
  have kept : Charged (peer.chargeMiss now) unanswered := by
    rcases chargeMiss_cases peer now with same | ⟨sentAt, isMark, late, charges⟩
    · rw [same]
      exact charged
    · have enough := overdue sentAt isMark (Nat.le_trans (probeLossFloor_le peer.srtt) late)
      rw [charges]
      refine ⟨charged.live, charged.visit, fun _ => ?_, nofun⟩
      show 2 * min (peer.misses + 1) (2 ^ 32 - 1) ≤ unanswered
      omega
  have misses : 2 * (peer.chargeMiss now).misses ≤ unanswered := by
    cases isMark : (peer.chargeMiss now).outstanding with
    | none => exact kept.unmarked isMark
    | some sentAt =>
        rcases kept.marked sentAt isMark with ⟨-, enough⟩ | enough
        · omega
        · omega
  rcases poll_cases peer now with
    ⟨dead, -⟩ | ⟨-, polled⟩ | ⟨-, enough, -⟩ | ⟨since, isStale, -⟩
  · exact absurd dead notDead
  · rw [polled]
    exact ⟨kept, rfl⟩
  · omega
  · rw [charged.live] at isStale
    cases isStale

theorem onPong {peer : PeerLiveness} {unanswered : Nat} (charged : Charged peer unanswered)
    (now rtt : Nat) : Charged (peer.onPong now rtt).1 0 := by
  have notDead : peer.state ≠ .dead := by
    rw [charged.live]
    exact nofun
  rw [onPong_of_ne_dead notDead]
  exact ⟨charged.live, charged.visit, fun _ => Nat.le_refl 0, nofun⟩

end Charged

/-! ## No false death -/

/-- A watched path, and how many probes were due since the first that left after an answer
last reached it. -/
structure Watched where
  watch : Watch
  unanswered : Nat

namespace Watched

/-- The count once the turn's probe is due or not. It does not begin with a probe that is taken
back. -/
def probed (relayed : Bool) (state : Watched) (tick : WatchTick) : Nat :=
  if (state.watch.liveness.dueProbe tick.now).2 then
    if relayed && !tick.sent && state.unanswered == 0 then 0 else state.unanswered + 1
  else state.unanswered

/-- A pong that is drained. -/
def hears (state : Watched) (arrival : SocketAddr × TxId × Nat) : Watched :=
  ⟨state.watch.pong arrival, if state.watch.Awaits arrival then 0 else state.unanswered⟩

def step (relayed : Bool) (state : Watched) (tick : WatchTick) : Watched :=
  tick.arrived.foldl hears
    ⟨((state.watch.probes relayed tick).polls tick.now).1, state.probed relayed tick⟩

theorem foldl_hears (state : Watched) (arrived : List (SocketAddr × TxId × Nat)) :
    (arrived.foldl hears state).watch = arrived.foldl Watch.pong state.watch := by
  induction arrived generalizing state with
  | nil => rfl
  | cons arrival rest ih => exact ih (state.hears arrival)

theorem step_watch (relayed : Bool) (state : Watched) (tick : WatchTick) :
    (state.step relayed tick).watch = state.watch.turn relayed tick :=
  foldl_hears _ _

/-- The count bounds the misses, and what is waited for was timed. -/
structure Counted (state : Watched) : Prop where
  charged : Charged state.watch.liveness state.unanswered
  timed : state.watch.outstanding ≠ none → state.watch.sentAt ≠ none

theorem Counted.hears {state : Watched} (counted : Counted state)
    (arrival : SocketAddr × TxId × Nat) : Counted (state.hears arrival) := by
  unfold Watched.hears Watch.pong
  by_cases awaits : state.watch.Awaits arrival
  · rw [if_pos awaits, if_pos awaits]
    cases isSent : state.watch.sentAt with
    | none =>
        have waited : state.watch.outstanding ≠ none := by
          rw [awaits.2]
          exact nofun
        exact absurd isSent (counted.timed waited)
    | some sentAt => exact ⟨counted.charged.onPong _ _, fun waited => absurd rfl waited⟩
  · rw [if_neg awaits, if_neg awaits]
    exact counted

theorem Counted.drains {state : Watched} (counted : Counted state)
    (arrived : List (SocketAddr × TxId × Nat)) : Counted (arrived.foldl Watched.hears state) := by
  induction arrived generalizing state with
  | nil => exact counted
  | cons arrival rest ih => exact ih (counted.hears arrival)

/-- A turn before which few probes went without an answer reports nothing. -/
theorem Counted.turn {state : Watched} (counted : Counted state) (relayed : Bool)
    {tick : WatchTick} (few : state.probed relayed tick ≤ 5) :
    Counted (state.step relayed tick) ∧ state.watch.reports relayed tick = [] := by
  obtain ⟨charged, overdue⟩ := counted.charged.dueProbe tick.now
  suffices probed : Charged (state.watch.probes relayed tick).liveness
        (state.probed relayed tick) ∧
      (∀ sentAt, (state.watch.probes relayed tick).liveness.outstanding = some sentAt →
        probeLossFloor ≤ tick.now - sentAt →
        2 * (state.watch.probes relayed tick).liveness.misses + 2 ≤
          state.probed relayed tick) ∧
      ((state.watch.probes relayed tick).outstanding ≠ none →
        (state.watch.probes relayed tick).sentAt ≠ none) by
    obtain ⟨charged, overdue, timed⟩ := probed
    obtain ⟨polled, quiet⟩ := charged.poll few overdue
    constructor
    · apply Counted.drains
      exact ⟨polled, timed⟩
    · rw [Watch.reports, Watch.polls, quiet]
      rfl
  unfold Watched.probed
  rcases state.watch.probes_cases relayed tick with
    ⟨due, probed⟩ | ⟨due, refused, probed⟩ | ⟨due, taken, probed⟩
  · rw [due] at charged overdue ⊢
    rw [probed]
    exact ⟨charged, overdue, counted.timed⟩
  · rw [probed, refused, Bool.true_and]
    by_cases first : state.unanswered = 0
    · have before := counted.charged
      rw [first] at before ⊢
      obtain ⟨takenBack, cleared⟩ := before.takenBack tick.now due
      rw [due]
      refine ⟨takenBack, ?_, fun waited => absurd rfl waited⟩
      intro sentAt isMark
      simp only [cleared, reduceCtorEq] at isMark
    · rw [due] at charged overdue ⊢
      rw [beq_false_of_ne first]
      refine ⟨charged.probeNotSent _, ?_, fun waited => absurd rfl waited⟩
      intro sentAt isMark late
      rcases PeerLiveness.probeNotSent_cases (state.watch.liveness.dueProbe tick.now).1 tick.now
        with ⟨-, same⟩ | ⟨-, cleared⟩
      · simp only [same] at isMark ⊢
        exact overdue sentAt isMark late
      · simp only [cleared, reduceCtorEq] at isMark
  · rw [due] at charged overdue ⊢
    rw [probed, taken, Bool.false_and]
    exact ⟨charged, overdue, fun _ => nofun⟩

/-- A path no six probes of which go without an answer that still counts is never reported
stale, whatever the socket refuses and whoever else answers. -/
theorem never_stale (relayed : Bool) (addr : SocketAddr) (now rtt : Nat)
    (ticks : List WatchTick)
    (answered : Guarded (Watched.step relayed) (fun state tick => state.probed relayed tick ≤ 5)
      ⟨Watch.begins relayed addr now rtt, 0⟩ ticks) :
    outputs (Watch.turn relayed) (Watch.reports relayed) (Watch.begins relayed addr now rtt)
      ticks = [] := by
  have initial : Counted ⟨Watch.begins relayed addr now rtt, 0⟩ := by
    cases relayed with
    | true => exact ⟨Charged.opened now none, fun waited => absurd rfl waited⟩
    | false => exact ⟨Charged.opened now (some rtt), fun waited => absurd rfl waited⟩
  suffices general : ∀ state : Watched, Counted state →
      Guarded (Watched.step relayed) (fun state tick => state.probed relayed tick ≤ 5) state
        ticks → outputs (Watch.turn relayed) (Watch.reports relayed) state.watch ticks = [] by
    exact general _ initial answered
  clear initial answered
  induction ticks with
  | nil => exact fun _ _ _ => rfl
  | cons tick rest ih =>
      intro state counted answered
      obtain ⟨next, quiet⟩ := counted.turn relayed answered.1
      have later := ih (state.step relayed tick) next answered.2
      rw [step_watch] at later
      rw [outputs, quiet, List.nil_append]
      exact later

/-- An answer to the probe is drained by a deadline, or the turns end before it. -/
def Heard (addr : SocketAddr) (tx : TxId) (deadline : Nat) (ticks : List WatchTick) : Prop :=
  (∃ tick ∈ ticks, ∃ arrival ∈ tick.arrived,
    arrival.1 = addr ∧ arrival.2.1 = tx ∧ arrival.2.2 ≤ deadline) ∨
    ∀ tick ∈ ticks, tick.now ≤ deadline

instance (addr : SocketAddr) (tx : TxId) (deadline : Nat) (ticks : List WatchTick) :
    Decidable (Heard addr tx deadline ticks) :=
  inferInstanceAs (Decidable (_ ∨ _))

/-- Every probe that leaves is answered within the loss deadline of the time it is sent. -/
def AnswersInTime (relayed : Bool) : Watch → List WatchTick → Prop
  | _, [] => True
  | watch, tick :: rest =>
    ((watch.liveness.dueProbe tick.now).2 = true → tick.sent = true →
        Heard watch.addr tick.tx (tick.now + probeLossDeadline watch.liveness.srtt)
          (tick :: rest)) ∧
      AnswersInTime relayed (watch.turn relayed tick) rest

instance decidableAnswersInTime (relayed : Bool) :
    (watch : Watch) → (ticks : List WatchTick) → Decidable (AnswersInTime relayed watch ticks)
  | _, [] => .isTrue trivial
  | watch, tick :: rest =>
      have := decidableAnswersInTime relayed (watch.turn relayed tick) rest
      inferInstanceAs (Decidable ((_ → _ → _) ∧ _))

def watchedAddr : SocketAddr := ⟨.newV4 203 0 113 9, 5000⟩

def numberedProbe (number : Nat) : TxId := ⟨[UInt8.ofNat number, 0, 0, 0, 0, 0, 0, 0], rfl⟩

/-- Turns of 20 ms, in which every probe is answered after 600 ms. -/
def late (number : Nat) : WatchTick where
  now := number * fromMillis 20
  tx := numberedProbe number
  sent := true
  arrived :=
    if 30 ≤ number ∧ (number - 30) % 25 = 0 then
      [(watchedAddr, numberedProbe (number - 30), number * fromMillis 20)]
    else []

/-- Turns of 20 ms, in which the socket takes no probe. -/
def refusing (number : Nat) : WatchTick where
  now := number * fromMillis 20
  tx := numberedProbe number
  sent := false
  arrived := []

/-- A round trip of 200 ms that grows to 600 ms makes the path stale though every answer is in
time, and so does a socket that takes no probe. -/
theorem stale_though_answered :
    AnswersInTime false (Watch.begins false watchedAddr 0 (fromMillis 200))
        ((List.range 141).map late) ∧
      outputs (Watch.turn false) (Watch.reports false)
          (Watch.begins false watchedAddr 0 (fromMillis 200)) ((List.range 141).map late) =
        [.wentStale] ∧
      AnswersInTime false (Watch.begins false watchedAddr 0 (fromMillis 100))
        ((List.range 126).map refusing) ∧
      outputs (Watch.turn false) (Watch.reports false)
          (Watch.begins false watchedAddr 0 (fromMillis 100)) ((List.range 126).map refusing) =
        [.wentStale] := by
  refine ⟨?_, ?_, ?_, ?_⟩
  · decide +kernel
  · decide +kernel
  · decide +kernel
  · decide +kernel

/-- Turns of 20 ms, in which every fifth probe is answered, after 200 ms. -/
def sparing (number : Nat) : WatchTick where
  now := number * fromMillis 20
  tx := numberedProbe number
  sent := true
  arrived :=
    if number % 125 = 110 then
      [(watchedAddr, numberedProbe (number - 10), number * fromMillis 20)]
    else []

/-- Eight seconds of a direct path that answers every fifth probe, and of a relay that takes
none. -/
theorem never_stale_sparing :
    outputs (Watch.turn false) (Watch.reports false)
        (Watch.begins false watchedAddr 0 (fromMillis 200)) ((List.range 400).map sparing) = [] ∧
      outputs (Watch.turn true) (Watch.reports true)
        (Watch.begins true watchedAddr 0 (fromMillis 200)) ((List.range 400).map refusing) = [] :=
  ⟨never_stale false watchedAddr 0 (fromMillis 200) _ (by decide +kernel),
    never_stale true watchedAddr 0 (fromMillis 200) _ (by decide +kernel)⟩

end Watched

end Mosschat.Net
