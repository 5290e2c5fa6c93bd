import Mosschat.Net.Gate

/-!
Owns the liveness of one path, from `live.rs`: the intervals as functions of the round
trip time, and the state machine a watch drives.

Does not own the attempt record its transitions are written to.
-/

namespace Mosschat.Net

open Mosschat.Net.Gate

/-! ## The intervals -/

/-- `Duration::from_millis`. -/
def fromMillis (millis : Nat) : Nat := millis * 10 ^ 6

/-- `Duration::MAX`. -/
def durationMax : Nat := (2 ^ 64 - 1) * 10 ^ 9 + 999999999

/-- `Duration::saturating_mul`. -/
def saturatingMul (duration factor : Nat) : Nat := min (duration * factor) durationMax

/-- `Duration::saturating_add`. -/
def saturatingAdd (left right : Nat) : Nat := min (left + right) durationMax

def keepaliveSrttMultiplier : Nat := 8
def keepaliveFloor : Nat := fromSecs 5
def keepaliveCeiling : Nat := fromSecs 15
def visitProbeInterval : Nat := fromMillis 500
def probesToStale : Nat := 3
def probeLossFloor : Nat := fromMillis 500
def lossSrttMultiplier : Nat := 4
def deadGraceBase : Nat := fromSecs 5
def deadProbeInterval : Nat := fromSecs 1

/-- `keepalive_interval`. -/
def keepaliveInterval : Option Nat → Nat
  | none => keepaliveFloor
  | some srtt => min (max (saturatingMul srtt keepaliveSrttMultiplier) keepaliveFloor)
      keepaliveCeiling

/-- `probe_loss_deadline`. -/
def probeLossDeadline : Option Nat → Nat
  | none => probeLossFloor
  | some srtt => max (saturatingMul srtt lossSrttMultiplier) probeLossFloor

/-- `dead_grace`. -/
def deadGrace : Option Nat → Nat
  | none => deadGraceBase
  | some srtt => saturatingAdd (saturatingMul srtt lossSrttMultiplier) deadGraceBase

/-! ## The state machine -/

/-- `Activity`. -/
inductive Activity where
  | idle
  | visit
deriving DecidableEq

/-- `Liveness`. -/
inductive Liveness where
  | live
  | stale
  | dead
deriving DecidableEq

/-- `LastSeenReason`. -/
inductive LastSeenReason where
  | goodbye
  | timeout
deriving DecidableEq

/-- `LastSeen`. -/
structure LastSeen where
  seenAt : Nat
  reason : LastSeenReason
deriving DecidableEq

/-- `LivenessChange`. -/
inductive LivenessChange where
  | wentStale
  | wentDead
deriving DecidableEq

/-- `PeerLiveness`. -/
structure PeerLiveness where
  activity : Activity
  state : Liveness
  srtt : Option Nat
  /-- When the oldest unanswered probe went out. -/
  outstanding : Option Nat
  misses : Nat
  lastSent : Option Nat
  lastAnswer : Nat
  staleSince : Option Nat
  lastSeen : Option LastSeen
deriving DecidableEq

namespace PeerLiveness

/-- `PeerLiveness::new`. -/
def new (now : Nat) : PeerLiveness where
  activity := .idle
  state := .live
  srtt := none
  outstanding := none
  misses := 0
  lastSent := none
  lastAnswer := now
  staleSince := none
  lastSeen := none

/-- `PeerLiveness::with_srtt`. -/
def withSrtt (peer : PeerLiveness) (srtt : Nat) : PeerLiveness := { peer with srtt := some srtt }

/-- `PeerLiveness::set_activity`. -/
def setActivity (peer : PeerLiveness) (activity : Activity) : PeerLiveness :=
  { peer with activity := activity }

/-- `PeerLiveness::probe_interval`. -/
def probeInterval (peer : PeerLiveness) : Nat :=
  match peer.state, peer.activity with
  | .stale, _ => deadProbeInterval
  | _, .visit => visitProbeInterval
  | _, .idle => keepaliveInterval peer.srtt

/-- The last probe went out less than an interval ago. -/
def sentLately (peer : PeerLiveness) (now : Nat) : Bool :=
  match peer.lastSent with
  | some last => now - last < peer.probeInterval
  | none => false

/-- `PeerLiveness::due_probe`. -/
def dueProbe (peer : PeerLiveness) (now : Nat) : PeerLiveness × Bool :=
  if peer.state = .dead then (peer, false)
  else if peer.sentLately now then (peer, false)
  else
    let outstanding := if peer.outstanding.isNone then some now else peer.outstanding
    ({ peer with lastSent := some now, outstanding := outstanding }, true)

/-- `PeerLiveness::probe_not_sent`. -/
def probeNotSent (peer : PeerLiveness) (sentAt : Nat) : PeerLiveness :=
  if peer.outstanding = some sentAt then { peer with outstanding := none } else peer

/-- The estimator of `PeerLiveness::on_pong`, weighting the new sample an eighth. -/
def smoothed (srtt : Option Nat) (rtt : Nat) : Nat :=
  match srtt with
  | none => rtt
  | some previous => saturatingAdd (saturatingMul previous 7) rtt / 8

/-- `PeerLiveness::on_pong`. -/
def onPong (peer : PeerLiveness) (now rtt : Nat) : PeerLiveness × Bool :=
  if peer.state = .dead then (peer, false)
  else
    ({ peer with
        srtt := some (smoothed peer.srtt rtt)
        outstanding := none
        misses := 0
        lastAnswer := now }, true)

/-- The oldest unanswered probe has waited for the loss deadline. -/
def overdue (peer : PeerLiveness) (now : Nat) : Bool :=
  match peer.outstanding with
  | some sent => probeLossDeadline peer.srtt ≤ now - sent
  | none => false

/-- The charge at the front of `PeerLiveness::poll`: an overdue probe is a miss. -/
def chargeMiss (peer : PeerLiveness) (now : Nat) : PeerLiveness :=
  if peer.overdue now then
    { peer with misses := min (peer.misses + 1) (2 ^ 32 - 1), outstanding := none }
  else peer

/-- `PeerLiveness::poll`. -/
def poll (peer : PeerLiveness) (now : Nat) : PeerLiveness × Option LivenessChange :=
  if peer.state = .dead then (peer, none)
  else
    let peer := peer.chargeMiss now
    match peer.state with
    | .live =>
      if probesToStale ≤ peer.misses then
        ({ peer with state := .stale, staleSince := some now }, some .wentStale)
      else (peer, none)
    | .stale =>
      match peer.staleSince with
      | none => (peer, none)
      | some since =>
        if deadGrace peer.srtt ≤ now - since then
          ({ peer with state := .dead, lastSeen := some ⟨peer.lastAnswer, .timeout⟩ },
            some .wentDead)
        else (peer, none)
    | .dead => (peer, none)

/-- `PeerLiveness::on_goodbye`. -/
def onGoodbye (peer : PeerLiveness) (now : Nat) : PeerLiveness × Option LivenessChange :=
  if peer.state = .dead then (peer, none)
  else ({ peer with state := .dead, lastSeen := some ⟨now, .goodbye⟩ }, some .wentDead)

/-! ## What one operation does -/

/-- A probe that is due starts the wait, unless an older one is waited for. -/
theorem dueProbe_cases (peer : PeerLiveness) (now : Nat) :
    peer.dueProbe now = (peer, false) ∨
      peer.state ≠ .dead ∧
        peer.dueProbe now =
          ({ peer with
              lastSent := some now
              outstanding := if peer.outstanding.isNone then some now else peer.outstanding },
            true) := by
  unfold dueProbe
  by_cases isDead : peer.state = .dead
  · exact Or.inl (if_pos isDead)
  · rw [if_neg isDead]
    by_cases lately : peer.sentLately now = true
    · exact Or.inl (if_pos lately)
    · exact Or.inr ⟨isDead, if_neg lately⟩

theorem probeNotSent_cases (peer : PeerLiveness) (sentAt : Nat) :
    peer.outstanding ≠ some sentAt ∧ peer.probeNotSent sentAt = peer ∨
      peer.outstanding = some sentAt ∧
        peer.probeNotSent sentAt = { peer with outstanding := none } := by
  by_cases marked : peer.outstanding = some sentAt
  · exact Or.inr ⟨marked, if_pos marked⟩
  · exact Or.inl ⟨marked, if_neg marked⟩

theorem onPong_of_dead {peer : PeerLiveness} (isDead : peer.state = .dead) (now rtt : Nat) :
    peer.onPong now rtt = (peer, false) := if_pos isDead

theorem onPong_of_ne_dead {peer : PeerLiveness} (notDead : peer.state ≠ .dead) (now rtt : Nat) :
    peer.onPong now rtt =
      ({ peer with
          srtt := some (smoothed peer.srtt rtt)
          outstanding := none
          misses := 0
          lastAnswer := now }, true) := if_neg notDead

/-- The charge touches the count and the marker, and only an overdue probe is charged. -/
theorem chargeMiss_cases (peer : PeerLiveness) (now : Nat) :
    peer.chargeMiss now = peer ∨
      ∃ sent, peer.outstanding = some sent ∧ probeLossDeadline peer.srtt ≤ now - sent ∧
        peer.chargeMiss now =
          { peer with misses := min (peer.misses + 1) (2 ^ 32 - 1), outstanding := none } := by
  unfold chargeMiss overdue
  cases marker : peer.outstanding with
  | none => exact Or.inl (if_neg Bool.false_ne_true)
  | some sent =>
      by_cases late : probeLossDeadline peer.srtt ≤ now - sent
      · exact Or.inr ⟨sent, rfl, late, if_pos (decide_eq_true late)⟩
      · exact Or.inl (if_neg (by simp only [decide_eq_true_eq]; exact late))

/-- Every outcome of a poll. -/
theorem poll_cases (peer : PeerLiveness) (now : Nat) :
    peer.state = .dead ∧ peer.poll now = (peer, none) ∨
      peer.state ≠ .dead ∧ peer.poll now = (peer.chargeMiss now, none) ∨
      peer.state = .live ∧ probesToStale ≤ (peer.chargeMiss now).misses ∧
        peer.poll now = ({ peer.chargeMiss now with state := .stale, staleSince := some now },
          some .wentStale) ∨
      ∃ since, peer.state = .stale ∧ peer.staleSince = some since ∧
        deadGrace peer.srtt ≤ now - since ∧
        peer.poll now = ({ peer.chargeMiss now with
          state := .dead, lastSeen := some ⟨peer.lastAnswer, .timeout⟩ }, some .wentDead) := by
  have fields : (peer.chargeMiss now).state = peer.state ∧
      (peer.chargeMiss now).srtt = peer.srtt ∧
      (peer.chargeMiss now).staleSince = peer.staleSince ∧
      (peer.chargeMiss now).lastAnswer = peer.lastAnswer := by
    rcases chargeMiss_cases peer now with same | ⟨sent, -, -, charged⟩
    · rw [same]
      exact ⟨rfl, rfl, rfl, rfl⟩
    · rw [charged]
      exact ⟨rfl, rfl, rfl, rfl⟩
  obtain ⟨state, srtt, staleSince, lastAnswer⟩ := fields
  unfold poll
  simp only [state, staleSince, srtt, lastAnswer]
  cases isState : peer.state with
  | dead => exact Or.inl ⟨rfl, rfl⟩
  | live =>
      by_cases enough : probesToStale ≤ (peer.chargeMiss now).misses
      · simp [enough]
      · simp [enough]
  | stale =>
      cases began : peer.staleSince with
      | none => simp
      | some since =>
          by_cases graceOver : deadGrace peer.srtt ≤ now - since
          · simp [graceOver]
          · simp [graceOver]

theorem state_dueProbe (peer : PeerLiveness) (now : Nat) :
    (peer.dueProbe now).1.state = peer.state := by
  rcases dueProbe_cases peer now with same | ⟨_, due⟩
  · rw [same]
  · rw [due]

theorem state_onPong (peer : PeerLiveness) (now rtt : Nat) :
    (peer.onPong now rtt).1.state = peer.state := by
  by_cases isDead : peer.state = .dead
  · rw [onPong_of_dead isDead]
  · rw [onPong_of_ne_dead isDead]

/-- The state a poll leaves, by the change it reports. -/
theorem state_poll (peer : PeerLiveness) (now : Nat) :
    (peer.poll now).1.state =
      match (peer.poll now).2 with
      | some .wentStale => .stale
      | some .wentDead => .dead
      | none => peer.state := by
  have charged : (peer.chargeMiss now).state = peer.state := by
    rcases chargeMiss_cases peer now with same | ⟨sent, _, _, charged⟩
    · rw [same]
    · rw [charged]
  rcases poll_cases peer now with
    ⟨_, polled⟩ | ⟨_, polled⟩ | ⟨_, _, polled⟩ | ⟨since, _, _, _, polled⟩
  · rw [polled]
  · rw [polled]
    exact charged
  · rw [polled]
  · rw [polled]

/-- Only a live path goes stale, and only a stale one dies of a poll. -/
theorem state_of_poll {peer : PeerLiveness} {now : Nat} {change : LivenessChange}
    (isChange : (peer.poll now).2 = some change) :
    peer.state = match change with
      | .wentStale => .live
      | .wentDead => .stale := by
  rcases poll_cases peer now with
    ⟨_, polled⟩ | ⟨_, polled⟩ | ⟨isLive, _, polled⟩ | ⟨since, isStale, _, _, polled⟩
  · rw [polled] at isChange
    cases isChange
  · rw [polled] at isChange
    cases isChange
  · rw [polled] at isChange
    cases isChange
    exact isLive
  · rw [polled] at isChange
    cases isChange
    exact isStale

end PeerLiveness

end Mosschat.Net
