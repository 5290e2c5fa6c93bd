import Mathlib.Data.List.Induction
import Mosschat.Library.Log
import Mosschat.Library.Machine
import Mosschat.Net.Liveness

/-!
Owns the runs of one `PeerLiveness`: in every order of its calls the state goes forward
only, each transition is reported once, and each report has its cause in the run.

Does not own who makes the calls.
-/

namespace Mosschat.Net

open Mosschat.Library Mosschat.Library.Machine

/-! ## Calls -/

/-- A call on a `PeerLiveness`. -/
inductive LivenessCall where
  | dueProbe (now : Nat)
  | probeNotSent (sentAt : Nat)
  | onPong (now rtt : Nat)
  | poll (now : Nat)
  | onGoodbye (now : Nat)
  | setActivity (activity : Activity)
deriving DecidableEq

/-- What a call returns. -/
inductive LivenessAnswer where
  | unit
  | due (isDue : Bool)
  | recorded (taken : Bool)
  | change (change : Option LivenessChange)
deriving DecidableEq

namespace LivenessCall

/-- The time a call is made at, where it is given one. -/
def time : LivenessCall → Option Nat
  | .dueProbe now | .onPong now _ | .poll now | .onGoodbye now => some now
  | .probeNotSent sentAt => some sentAt
  | .setActivity _ => none

/-- The call is an answer of the peer. -/
def IsPong : LivenessCall → Prop
  | .onPong _ _ => True
  | _ => False

/-- The call ends the wait for the probe sent at this time. -/
def Ends (sentAt : Nat) (call : LivenessCall) : Prop :=
  call.IsPong ∨ call = .probeNotSent sentAt

end LivenessCall

/-- The calls are made at times that never go back. -/
def InOrder (created : Nat) (calls : List LivenessCall) : Prop :=
  (created :: calls.filterMap LivenessCall.time).Pairwise (· ≤ ·)

instance (created : Nat) (calls : List LivenessCall) : Decidable (InOrder created calls) :=
  inferInstanceAs (Decidable (List.Pairwise _ _))

/-- How far a path has come. -/
def Liveness.rank : Liveness → Nat
  | .live => 0
  | .stale => 1
  | .dead => 2

namespace PeerLiveness

/-- One call, with what it returns. -/
def call (peer : PeerLiveness) : LivenessCall → PeerLiveness × LivenessAnswer
  | .dueProbe now => ((peer.dueProbe now).1, .due (peer.dueProbe now).2)
  | .probeNotSent sentAt => (peer.probeNotSent sentAt, .unit)
  | .onPong now rtt => ((peer.onPong now rtt).1, .recorded (peer.onPong now rtt).2)
  | .poll now => ((peer.poll now).1, .change (peer.poll now).2)
  | .onGoodbye now => ((peer.onGoodbye now).1, .change (peer.onGoodbye now).2)
  | .setActivity activity => (peer.setActivity activity, .unit)

def step (peer : PeerLiveness) (next : LivenessCall) : PeerLiveness := (peer.call next).1

/-- A new path, its round trip time seeded or not. -/
def opened (created : Nat) (seed : Option Nat) : PeerLiveness :=
  match seed with
  | none => new created
  | some srtt => (new created).withSrtt srtt

/-- The transition a call reports. -/
def report (peer : PeerLiveness) (next : LivenessCall) : List LivenessChange :=
  match (peer.call next).2 with
  | .change (some change) => [change]
  | _ => []

/-! ## One call -/

@[simp] theorem chargeMiss_state (peer : PeerLiveness) (now : Nat) :
    (peer.chargeMiss now).state = peer.state := by
  rcases chargeMiss_cases peer now with same | ⟨sent, -, -, charged⟩
  · rw [same]
  · rw [charged]

@[simp] theorem chargeMiss_lastSeen (peer : PeerLiveness) (now : Nat) :
    (peer.chargeMiss now).lastSeen = peer.lastSeen := by
  rcases chargeMiss_cases peer now with same | ⟨sent, -, -, charged⟩
  · rw [same]
  · rw [charged]

@[simp] theorem chargeMiss_lastAnswer (peer : PeerLiveness) (now : Nat) :
    (peer.chargeMiss now).lastAnswer = peer.lastAnswer := by
  rcases chargeMiss_cases peer now with same | ⟨sent, -, -, charged⟩
  · rw [same]
  · rw [charged]

@[simp] theorem chargeMiss_staleSince (peer : PeerLiveness) (now : Nat) :
    (peer.chargeMiss now).staleSince = peer.staleSince := by
  rcases chargeMiss_cases peer now with same | ⟨sent, -, -, charged⟩
  · rw [same]
  · rw [charged]

/-- A dead path keeps everything but the activity it is told and the marker of a probe
that never left. -/
theorem step_of_dead {peer : PeerLiveness} (isDead : peer.state = .dead) (next : LivenessCall) :
    peer.step next =
        { peer with
          activity := (peer.step next).activity, outstanding := (peer.step next).outstanding } ∧
      ((peer.step next).activity = peer.activity ∨
        ∃ activity, next = .setActivity activity ∧ (peer.step next).activity = activity) ∧
      ((peer.step next).outstanding = peer.outstanding ∨
        ∃ sentAt, next = .probeNotSent sentAt ∧ peer.outstanding = some sentAt ∧
          (peer.step next).outstanding = none) := by
  cases next with
  | dueProbe now =>
      have same : peer.step (.dueProbe now) = peer := by simp [step, call, dueProbe, isDead]
      rw [same]
      exact ⟨rfl, Or.inl rfl, Or.inl rfl⟩
  | onPong now rtt =>
      have same : peer.step (.onPong now rtt) = peer := by simp [step, call, onPong, isDead]
      rw [same]
      exact ⟨rfl, Or.inl rfl, Or.inl rfl⟩
  | poll now =>
      have same : peer.step (.poll now) = peer := by simp [step, call, poll, isDead]
      rw [same]
      exact ⟨rfl, Or.inl rfl, Or.inl rfl⟩
  | onGoodbye now =>
      have same : peer.step (.onGoodbye now) = peer := by simp [step, call, onGoodbye, isDead]
      rw [same]
      exact ⟨rfl, Or.inl rfl, Or.inl rfl⟩
  | setActivity activity => exact ⟨rfl, Or.inr ⟨activity, rfl, rfl⟩, Or.inl rfl⟩
  | probeNotSent sentAt =>
      rcases probeNotSent_cases peer sentAt with ⟨-, same⟩ | ⟨marked, cleared⟩
      · have unmoved : peer.step (.probeNotSent sentAt) = peer := same
        rw [unmoved]
        exact ⟨rfl, Or.inl rfl, Or.inl rfl⟩
      · have moved : peer.step (.probeNotSent sentAt) = { peer with outstanding := none } := cleared
        rw [moved]
        exact ⟨rfl, Or.inl rfl, Or.inr ⟨sentAt, rfl, marked, rfl⟩⟩

/-- A call that moves no state reports nothing, and every move is reported. -/
theorem report_cases (peer : PeerLiveness) (next : LivenessCall) :
    (peer.step next).state = peer.state ∧ (peer.step next).lastSeen = peer.lastSeen ∧
        (peer.step next).staleSince = peer.staleSince ∧ peer.report next = [] ∨
      peer.state = .live ∧ (peer.step next).state = .stale ∧
        (peer.step next).lastSeen = peer.lastSeen ∧ peer.report next = [.wentStale] ∧
        (∃ now, next = .poll now ∧ probesToStale ≤ (peer.chargeMiss now).misses ∧
          (peer.step next).staleSince = some now) ∨
      peer.state = .stale ∧ (peer.step next).state = .dead ∧ peer.report next = [.wentDead] ∧
        (∃ now since, next = .poll now ∧ peer.staleSince = some since ∧
          deadGrace peer.srtt ≤ now - since ∧
          (peer.step next).lastSeen = some ⟨peer.lastAnswer, .timeout⟩) ∨
      peer.state ≠ .dead ∧ (peer.step next).state = .dead ∧ peer.report next = [.wentDead] ∧
        ∃ now, next = .onGoodbye now ∧ (peer.step next).lastSeen = some ⟨now, .goodbye⟩ := by
  cases next with
  | dueProbe now =>
      left
      rcases dueProbe_cases peer now with same | ⟨-, due⟩
      · simp [step, report, call, same]
      · simp [step, report, call, due]
  | onPong now rtt =>
      left
      by_cases isDead : peer.state = .dead
      · simp [step, report, call, onPong_of_dead isDead]
      · simp [step, report, call, onPong_of_ne_dead isDead]
  | setActivity activity => simp [step, report, call, setActivity]
  | probeNotSent sentAt =>
      left
      rcases probeNotSent_cases peer sentAt with ⟨-, same⟩ | ⟨-, cleared⟩
      · simp [step, report, call, same]
      · simp [step, report, call, cleared]
  | onGoodbye now =>
      by_cases isDead : peer.state = .dead
      · simp [step, report, call, onGoodbye, isDead]
      · simp [step, report, call, onGoodbye, isDead]
  | poll now =>
      rcases poll_cases peer now with
        ⟨isDead, polled⟩ | ⟨-, polled⟩ | ⟨isLive, enough, polled⟩ |
          ⟨since, isStale, began, graceOver, polled⟩
      · simp [step, report, call, polled]
      · simp [step, report, call, polled]
      · simp [step, report, call, polled, isLive, enough]
      · simp [step, report, call, polled, isStale, began, graceOver]

/-! ## A run's history -/

section History

variable (start : PeerLiveness) (calls : List LivenessCall)

/-- The state that receives the call at a position. -/
def before (position : Nat) : PeerLiveness := run step start (calls.take position)

/-- The call at this position sent a probe the path waits for, and nothing has ended the
wait since. -/
structure Waiting (probe sentAt : Nat) : Prop where
  called : calls[probe]? = some (.dueProbe sentAt)
  unmarked : (before start calls probe).outstanding = none
  isDue : ((before start calls probe).dueProbe sentAt).2 = true
  waits : ∀ later other, probe < later → calls[later]? = some other → ¬other.Ends sentAt

/-- The probe sent at one position had waited for the loss deadline, unanswered, at the
poll of another. -/
structure Lost (probe charge : Nat) : Prop where
  ordered : probe < charge
  times : ∃ sentAt now, calls[probe]? = some (.dueProbe sentAt) ∧
    (before start calls probe).outstanding = none ∧
    ((before start calls probe).dueProbe sentAt).2 = true ∧
    calls[charge]? = some (.poll now) ∧
    probeLossDeadline (before start calls charge).srtt ≤ now - sentAt ∧
    ∀ between other, probe < between → between < charge → calls[between]? = some other →
      ¬other.Ends sentAt

/-- No answer has come since this position. -/
def Silent (position : Nat) : Prop :=
  ∀ later other, position ≤ later → calls[later]? = some other → ¬other.IsPong

/-- The last answer came at this time; where there was none, the path was made then. -/
def AnsweredAt (created answered : Nat) : Prop :=
  (∃ position rtt, Log.Latest LivenessCall.IsPong calls position (.onPong answered rtt)) ∨
    (∀ other ∈ calls, ¬other.IsPong) ∧ answered = created

end History

variable {start : PeerLiveness} {calls : List LivenessCall} {next : LivenessCall}

theorem before_append {position : Nat} (inside : position ≤ calls.length) :
    before start (calls ++ [next]) position = before start calls position := by
  unfold before
  rw [Log.take_append inside]

theorem before_length : before start (calls ++ [next]) calls.length = run step start calls := by
  unfold before
  rw [Log.take_append (Nat.le_refl _), List.take_length]

theorem Waiting.append {probe sentAt : Nat} (waiting : Waiting start calls probe sentAt)
    (kept : ¬next.Ends sentAt) : Waiting start (calls ++ [next]) probe sentAt where
  called := Log.getElem?_append waiting.called
  unmarked := by
    rw [before_append (Nat.le_of_lt (Log.lt_length_of_getElem? waiting.called))]
    exact waiting.unmarked
  isDue := by
    rw [before_append (Nat.le_of_lt (Log.lt_length_of_getElem? waiting.called))]
    exact waiting.isDue
  waits := by
    intro later other after found
    rcases Log.getElem?_append_cases found with old | new
    · exact waiting.waits later other after old
    · rw [List.mem_singleton.mp new]
      exact kept

/-- An overdue probe is lost at the poll that finds it so. -/
theorem Waiting.lost {probe sentAt now : Nat} (waiting : Waiting start calls probe sentAt)
    (late : probeLossDeadline (run step start calls).srtt ≤ now - sentAt) :
    Lost start (calls ++ [.poll now]) probe calls.length where
  ordered := Log.lt_length_of_getElem? waiting.called
  times := by
    have inside := Nat.le_of_lt (Log.lt_length_of_getElem? waiting.called)
    refine ⟨sentAt, now, Log.getElem?_append waiting.called, ?_, ?_, by simp, ?_, ?_⟩
    · rw [before_append inside]
      exact waiting.unmarked
    · rw [before_append inside]
      exact waiting.isDue
    · rw [before_length]
      exact late
    · intro between other after earlier found
      rw [List.getElem?_append_left earlier] at found
      exact waiting.waits between other after found

theorem Lost.append {probe charge : Nat} (lost : Lost start calls probe charge) :
    Lost start (calls ++ [next]) probe charge where
  ordered := lost.ordered
  times := by
    obtain ⟨sentAt, now, called, unmarked, isDue, polled, late, waits⟩ := lost.times
    have inside := Log.lt_length_of_getElem? polled
    have inside' : probe ≤ calls.length := Nat.le_of_lt (lost.ordered.trans inside)
    refine ⟨sentAt, now, Log.getElem?_append called, ?_, ?_, Log.getElem?_append polled, ?_, ?_⟩
    · rw [before_append inside']
      exact unmarked
    · rw [before_append inside']
      exact isDue
    · rw [before_append (Nat.le_of_lt inside)]
      exact late
    · intro between other after earlier found
      rw [List.getElem?_append_left (earlier.trans inside)] at found
      exact waits between other after earlier found

theorem Silent.append {position : Nat} (silent : Silent calls position) (quiet : ¬next.IsPong) :
    Silent (calls ++ [next]) position := by
  intro later other after found
  rcases Log.getElem?_append_cases found with old | new
  · exact silent later other after old
  · rw [List.mem_singleton.mp new]
    exact quiet

theorem AnsweredAt.append {created answered : Nat} (answeredAt : AnsweredAt calls created answered)
    (quiet : ¬next.IsPong) : AnsweredAt (calls ++ [next]) created answered := by
  rcases answeredAt with ⟨position, rtt, latest⟩ | ⟨never, isCreated⟩
  · left
    refine ⟨position, rtt, latest.append ?_⟩
    intro other new
    rw [List.mem_singleton.mp new]
    exact quiet
  · right
    refine ⟨?_, isCreated⟩
    intro other member
    rcases List.mem_append.mp member with old | new
    · exact never other old
    · rw [List.mem_singleton.mp new]
      exact quiet

/-! ## The invariant of a run -/

/-- The probes charged since the last answer, and the one waited for. -/
structure Charged (start : PeerLiveness) (calls : List LivenessCall) (peer : PeerLiveness)
    (lost : List (Nat × Nat)) : Prop where
  count : peer.misses ≤ lost.length
  each : ∀ probe ∈ lost, Lost start calls probe.1 probe.2
  apart : lost.Pairwise fun earlier later => earlier.2 < later.1
  silent : ∀ probe ∈ lost, Silent calls probe.1
  waiting : ∀ sentAt, peer.outstanding = some sentAt →
    ∃ probe, Waiting start calls probe sentAt ∧ Silent calls probe ∧
      ∀ other ∈ lost, other.2 < probe

/-- What the fields of a `PeerLiveness` say about the calls it has taken. -/
structure Tracks (created : Nat) (start : PeerLiveness) (calls : List LivenessCall)
    (peer : PeerLiveness) : Prop where
  charged : peer.state ≠ .dead → ∃ lost, Charged start calls peer lost
  stale : peer.state = .stale → ∃ position since, peer.staleSince = some since ∧
    calls[position]? = some (.poll since) ∧
    (before start calls position).report (.poll since) = [.wentStale]
  answered : peer.state ≠ .dead → AnsweredAt calls created peer.lastAnswer
  seen : peer.lastSeen.isSome ↔ peer.state = .dead

theorem Charged.congr {peer other : PeerLiveness} {lost : List (Nat × Nat)}
    (charged : Charged start calls peer lost) (quiet : ¬next.IsPong)
    (misses : other.misses = peer.misses)
    (marker : ∀ sentAt, other.outstanding = some sentAt →
      peer.outstanding = some sentAt ∧ ¬next.Ends sentAt) :
    Charged start (calls ++ [next]) other lost where
  count := misses ▸ charged.count
  each := fun probe member => (charged.each probe member).append
  apart := charged.apart
  silent := fun probe member => (charged.silent probe member).append quiet
  waiting := by
    intro sentAt marked
    obtain ⟨was, kept⟩ := marker sentAt marked
    obtain ⟨probe, waiting, silent, past⟩ := charged.waiting sentAt was
    exact ⟨probe, waiting.append kept, silent.append quiet, past⟩

theorem not_ends_of_plain {sentAt : Nat} (quiet : ¬next.IsPong)
    (sent : ∀ other, next ≠ .probeNotSent other) : ¬next.Ends sentAt := by
  rintro (pong | notSent)
  · exact quiet pong
  · exact sent sentAt notSent

/-- A probe becomes waited for. -/
theorem Charged.sent {peer : PeerLiveness} {lost : List (Nat × Nat)} {now : Nat}
    (isPeer : run step start calls = peer) (charged : Charged start calls peer lost)
    (unmarked : peer.outstanding = none) (isDue : (peer.dueProbe now).2 = true)
    {other : PeerLiveness} (misses : other.misses = peer.misses)
    (marked : other.outstanding = some now) :
    Charged start (calls ++ [.dueProbe now]) other lost where
  count := misses ▸ charged.count
  each := fun probe member => (charged.each probe member).append
  apart := charged.apart
  silent := fun probe member => (charged.silent probe member).append id
  waiting := by
    intro sentAt isMarked
    rw [marked] at isMarked
    cases isMarked
    have nothingAfter : ∀ later call, calls.length ≤ later →
        (calls ++ [.dueProbe now])[later]? = some call → call = .dueProbe now := by
      intro later call after found
      rw [List.getElem?_append_right after] at found
      exact List.mem_singleton.mp (List.mem_of_getElem? found)
    refine ⟨calls.length, ?_, ?_, ?_⟩
    · constructor
      · simp
      · rw [before_length, isPeer]
        exact unmarked
      · rw [before_length, isPeer]
        exact isDue
      · intro later call after found ends
        rw [nothingAfter later call (Nat.le_of_lt after) found] at ends
        rcases ends with pong | notSent
        · exact pong
        · cases notSent
    · intro later call after found
      rw [nothingAfter later call after found]
      exact id
    · intro probe member
      obtain ⟨_, _, _, _, _, polled, _⟩ := (charged.each probe member).times
      exact Log.lt_length_of_getElem? polled

/-- The overdue probe is charged. -/
theorem Charged.charge {peer : PeerLiveness} {lost : List (Nat × Nat)} {sentAt now : Nat}
    (isPeer : run step start calls = peer) (charged : Charged start calls peer lost)
    (marked : peer.outstanding = some sentAt) (late : probeLossDeadline peer.srtt ≤ now - sentAt)
    {other : PeerLiveness} (misses : other.misses ≤ peer.misses + 1)
    (unmarked : other.outstanding = none) :
    ∃ more, Charged start (calls ++ [.poll now]) other more := by
  obtain ⟨probe, waiting, silent, past⟩ := charged.waiting sentAt marked
  refine ⟨lost ++ [(probe, calls.length)], ?_, ?_, ?_, ?_, ?_⟩
  · rw [List.length_append, List.length_singleton]
    have count := charged.count
    omega
  · intro each member
    rcases List.mem_append.mp member with old | new
    · exact (charged.each each old).append
    · rw [List.mem_singleton.mp new]
      rw [← isPeer] at late
      exact waiting.lost late
  · rw [List.pairwise_append]
    refine ⟨charged.apart, List.pairwise_singleton _ _, ?_⟩
    intro earlier old later new
    rw [List.mem_singleton.mp new]
    exact past earlier old
  · intro each member
    rcases List.mem_append.mp member with old | new
    · exact (charged.silent each old).append id
    · rw [List.mem_singleton.mp new]
      exact silent.append id
  · intro other' isMarked
    rw [unmarked] at isMarked
    cases isMarked

/-- An answer clears the count and the marker. -/
theorem charged_of_cleared {peer : PeerLiveness} (misses : peer.misses = 0)
    (unmarked : peer.outstanding = none) : Charged start calls peer [] where
  count := Nat.le_of_eq misses
  each := by simp
  apart := List.Pairwise.nil
  silent := by simp
  waiting := by
    intro sentAt marked
    rw [unmarked] at marked
    cases marked

/-- A call on a path that stays alive keeps its account of the probes. -/
theorem charged_step {peer : PeerLiveness} (isPeer : run step start calls = peer)
    (notDead : peer.state ≠ .dead) (charged : ∃ lost, Charged start calls peer lost) :
    ∃ lost, Charged start (calls ++ [next]) (peer.step next) lost := by
  obtain ⟨lost, charged⟩ := charged
  cases next with
  | dueProbe now =>
      have plain : ∀ sentAt, ¬(LivenessCall.dueProbe now).Ends sentAt := by
        intro sentAt
        exact not_ends_of_plain id (by simp)
      rcases dueProbe_cases peer now with same | ⟨-, due⟩
      · have unmoved : peer.step (.dueProbe now) = peer := congrArg Prod.fst same
        rw [unmoved]
        exact ⟨lost, charged.congr id rfl fun sentAt marked => ⟨marked, plain sentAt⟩⟩
      · have isDue : (peer.dueProbe now).2 = true := by rw [due]
        have misses : (peer.step (.dueProbe now)).misses = peer.misses := by
          simp [step, call, due]
        cases marker : peer.outstanding with
        | none =>
            have marked : (peer.step (.dueProbe now)).outstanding = some now := by
              simp [step, call, due, marker]
            exact ⟨lost, charged.sent isPeer marker isDue misses marked⟩
        | some older =>
            have marked : (peer.step (.dueProbe now)).outstanding = peer.outstanding := by
              simp [step, call, due, marker]
            refine ⟨lost, charged.congr id misses ?_⟩
            intro sentAt isMarked
            rw [marked] at isMarked
            exact ⟨isMarked, plain sentAt⟩
  | probeNotSent sentAt =>
      rcases probeNotSent_cases peer sentAt with ⟨unmarked, same⟩ | ⟨-, cleared⟩
      · have unmoved : peer.step (.probeNotSent sentAt) = peer := same
        rw [unmoved]
        refine ⟨lost, charged.congr id rfl ?_⟩
        intro other marked
        refine ⟨marked, ?_⟩
        rintro (pong | notSent)
        · exact pong
        · cases notSent
          exact unmarked marked
      · have moved : peer.step (.probeNotSent sentAt) = { peer with outstanding := none } := cleared
        rw [moved]
        refine ⟨lost, charged.congr id rfl ?_⟩
        intro other marked
        cases marked
  | onPong now rtt =>
      have taken := onPong_of_ne_dead notDead now rtt
      refine ⟨[], charged_of_cleared ?_ ?_⟩
      · simp [step, call, taken]
      · simp [step, call, taken]
  | poll now =>
      have fields : (peer.step (.poll now)).misses = (peer.chargeMiss now).misses ∧
          (peer.step (.poll now)).outstanding = (peer.chargeMiss now).outstanding := by
        rcases poll_cases peer now with
          ⟨isDead, -⟩ | ⟨-, polled⟩ | ⟨-, -, polled⟩ | ⟨since, -, -, -, polled⟩
        · exact absurd isDead notDead
        · simp [step, call, polled]
        · simp [step, call, polled]
        · simp [step, call, polled]
      rcases chargeMiss_cases peer now with same | ⟨sentAt, marked, late, isCharged⟩
      · rw [same] at fields
        refine ⟨lost, charged.congr id fields.1 ?_⟩
        intro sentAt marked
        rw [fields.2] at marked
        exact ⟨marked, not_ends_of_plain id (by simp)⟩
      · rw [isCharged] at fields
        refine charged.charge isPeer marked late ?_ fields.2
        rw [fields.1]
        exact Nat.min_le_left _ _
  | onGoodbye now =>
      have left : peer.step (.onGoodbye now) =
          { peer with state := .dead, lastSeen := some ⟨now, .goodbye⟩ } := by
        simp [step, call, onGoodbye, notDead]
      rw [left]
      exact ⟨lost, charged.congr id rfl fun sentAt marked =>
        ⟨marked, not_ends_of_plain id (by simp)⟩⟩
  | setActivity activity =>
      exact ⟨lost, charged.congr id rfl fun sentAt marked =>
        ⟨marked, not_ends_of_plain id (by simp)⟩⟩

/-- Only an answer moves the time of the last one. -/
theorem step_lastAnswer {peer : PeerLiveness} (quiet : ¬next.IsPong) :
    (peer.step next).lastAnswer = peer.lastAnswer := by
  cases next with
  | dueProbe now =>
      rcases dueProbe_cases peer now with same | ⟨-, due⟩
      · simp [step, call, same]
      · simp [step, call, due]
  | probeNotSent sentAt =>
      rcases probeNotSent_cases peer sentAt with ⟨-, same⟩ | ⟨-, cleared⟩
      · simp [step, call, same]
      · simp [step, call, cleared]
  | onPong now rtt => exact absurd trivial quiet
  | poll now =>
      rcases poll_cases peer now with
        ⟨-, polled⟩ | ⟨-, polled⟩ | ⟨-, -, polled⟩ | ⟨since, -, -, -, polled⟩
      · simp [step, call, polled]
      · simp [step, call, polled]
      · simp [step, call, polled]
      · simp [step, call, polled]
  | onGoodbye now =>
      by_cases isDead : peer.state = .dead
      · simp [step, call, onGoodbye, isDead]
      · simp [step, call, onGoodbye, isDead]
  | setActivity activity => rfl

theorem answered_step {peer : PeerLiveness} {created : Nat} (notDead : peer.state ≠ .dead)
    (answered : AnsweredAt calls created peer.lastAnswer) :
    AnsweredAt (calls ++ [next]) created (peer.step next).lastAnswer := by
  by_cases pong : next.IsPong
  · cases next with
    | onPong now rtt =>
        have moved : (peer.step (.onPong now rtt)).lastAnswer = now := by
          simp [step, call, onPong_of_ne_dead notDead]
        rw [moved]
        exact Or.inl ⟨calls.length, rtt, Log.Latest.concat_self pong⟩
    | dueProbe | probeNotSent | poll | onGoodbye | setActivity => exact absurd pong id
  · rw [step_lastAnswer pong]
    exact answered.append pong

theorem report_before {position : Nat} {polled : LivenessCall}
    (found : calls[position]? = some polled) :
    (before start (calls ++ [next]) position).report polled =
      (before start calls position).report polled := by
  rw [before_append (Nat.le_of_lt (Log.lt_length_of_getElem? found))]

theorem tracks_step {peer : PeerLiveness} {created : Nat} (isPeer : run step start calls = peer)
    (tracks : Tracks created start calls peer) :
    Tracks created start (calls ++ [next]) (peer.step next) := by
  have alive : (peer.step next).state ≠ .dead → peer.state ≠ .dead := by
    intro notDead isDead
    have same := congrArg state (step_of_dead isDead next).1
    exact notDead (same.trans isDead)
  have stillSeen : peer.state = .dead → (peer.step next).lastSeen = peer.lastSeen := by
    intro isDead
    exact (congrArg lastSeen (step_of_dead isDead next).1).trans rfl
  constructor
  · intro notDead
    exact charged_step isPeer (alive notDead) (tracks.charged (alive notDead))
  · intro isStale
    rcases report_cases peer next with
      ⟨state, -, since, -⟩ | ⟨-, -, -, reported, now, isPoll, -, since⟩ |
        ⟨-, isDead, -⟩ | ⟨-, isDead, -⟩
    · have wasStale : peer.state = .stale := state.symm.trans isStale
      obtain ⟨position, began, isSince, polled, reported⟩ := tracks.stale wasStale
      refine ⟨position, began, since.trans isSince, Log.getElem?_append polled, ?_⟩
      rw [report_before polled]
      exact reported
    · refine ⟨calls.length, now, since, ?_, ?_⟩
      · rw [isPoll]
        simp
      · rw [before_length, isPeer, ← isPoll]
        exact reported
    · rw [isDead] at isStale
      cases isStale
    · rw [isDead] at isStale
      cases isStale
  · intro notDead
    exact answered_step (alive notDead) (tracks.answered (alive notDead))
  · rcases report_cases peer next with
      ⟨state, seen, -⟩ | ⟨isLive, isStale, seen, -⟩ |
        ⟨-, isDead, -, _, _, -, -, -, seen⟩ | ⟨-, isDead, -, _, -, seen⟩
    · rw [state, seen]
      exact tracks.seen
    · have unseen := tracks.seen
      rw [isLive] at unseen
      rw [isStale, seen, unseen]
      simp
    · simp [isDead, seen]
    · simp [isDead, seen]

theorem tracks_opened (created : Nat) (seed : Option Nat) :
    Tracks created (opened created seed) [] (opened created seed) := by
  have fields : (opened created seed).state = .live ∧ (opened created seed).misses = 0 ∧
      (opened created seed).outstanding = none ∧ (opened created seed).lastAnswer = created ∧
      (opened created seed).lastSeen = none := by
    cases seed with
    | none => exact ⟨rfl, rfl, rfl, rfl, rfl⟩
    | some srtt => exact ⟨rfl, rfl, rfl, rfl, rfl⟩
  obtain ⟨isLive, misses, unmarked, answered, unseen⟩ := fields
  constructor
  · intro _
    exact ⟨[], charged_of_cleared misses unmarked⟩
  · intro isStale
    rw [isLive] at isStale
    cases isStale
  · intro _
    exact Or.inr ⟨by simp, answered⟩
  · simp [isLive, unseen]

theorem tracks_run (created : Nat) (seed : Option Nat) (calls : List LivenessCall) :
    Tracks created (opened created seed) calls (run step (opened created seed) calls) := by
  induction calls using List.reverseRecOn with
  | nil => exact tracks_opened created seed
  | append_singleton calls next ih =>
      rw [run_concat]
      exact tracks_step rfl ih

/-- The reports a path in this state has given. -/
def Reported (state : Liveness) (reports : List LivenessChange) : Prop :=
  match state with
  | .live => reports = []
  | .stale => reports = [.wentStale]
  | .dead => reports = [.wentDead] ∨ reports = [.wentStale, .wentDead]

theorem reported_run (created : Nat) (seed : Option Nat) (calls : List LivenessCall) :
    Reported (run step (opened created seed) calls).state
      (outputs step report (opened created seed) calls) := by
  induction calls using List.reverseRecOn with
  | nil => cases seed <;> rfl
  | append_singleton calls next ih =>
      have single : outputs step report (run step (opened created seed) calls) [next] =
          (run step (opened created seed) calls).report next := List.append_nil _
      rw [run_concat, outputs_append, single]
      rcases report_cases (run step (opened created seed) calls) next with
        ⟨state, -, -, reported⟩ | ⟨isLive, isStale, -, reported, -⟩ |
          ⟨isStale, isDead, reported, -⟩ | ⟨notDead, isDead, reported, -⟩
      · rw [state, reported, List.append_nil]
        exact ih
      · rw [isLive] at ih
        have nothing : outputs step report (opened created seed) calls = [] := ih
        rw [isStale, reported, nothing]
        rfl
      · rw [isStale] at ih
        have stale : outputs step report (opened created seed) calls = [.wentStale] :=
          ih
        rw [isDead, reported, stale]
        exact Or.inr rfl
      · rw [isDead, reported]
        cases was : (run step (opened created seed) calls).state with
        | live =>
            rw [was] at ih
            have nothing : outputs step report (opened created seed) calls = [] :=
              ih
            rw [nothing]
            exact Or.inl rfl
        | stale =>
            rw [was] at ih
            have stale : outputs step report (opened created seed) calls = [.wentStale] :=
              ih
            rw [stale]
            exact Or.inr rfl
        | dead => exact absurd was notDead

/-! ## The law of a run -/

/-- What holds of a path that has taken `calls` and takes `next`. -/
structure LivenessLaw (created : Nat) (start : PeerLiveness) (calls : List LivenessCall)
    (next : LivenessCall) (peer after : PeerLiveness) : Prop where
  forward : peer.state.rank ≤ after.state.rank
  /-- Every transition so far was reported, once, and nothing else was. -/
  reported : Reported peer.state (outputs step report start calls)
  reportsStale : peer.report next = [.wentStale] ↔ peer.state = .live ∧ after.state = .stale
  reportsDead : peer.report next = [.wentDead] ↔ peer.state ≠ .dead ∧ after.state = .dead
  reportsNothing : peer.report next = [] ↔ after.state = peer.state
  /-- Three probes, one after the other, were lost, and no answer has come since the first
  of them was sent. -/
  stale : peer.report next = [.wentStale] → ∃ probes : List (Nat × Nat),
    probesToStale ≤ probes.length ∧
      (∀ probe ∈ probes, Lost start (calls ++ [next]) probe.1 probe.2) ∧
      (probes.Pairwise fun earlier later => earlier.2 < later.1) ∧
      ∀ probe ∈ probes, Silent (calls ++ [next]) probe.1
  /-- A timeout comes when the grace has passed since the poll that reported stale. -/
  timeout : ∀ now, next = .poll now → peer.report next = [.wentDead] →
    ∃ position since, calls[position]? = some (.poll since) ∧
      (before start calls position).report (.poll since) = [.wentStale] ∧
      deadGrace peer.srtt ≤ now - since
  frozen : peer.state = .dead →
    after = { peer with activity := after.activity, outstanding := after.outstanding } ∧
      (after.activity = peer.activity ∨
        ∃ activity, next = .setActivity activity ∧ after.activity = activity) ∧
      (after.outstanding = peer.outstanding ∨
        ∃ sentAt, next = .probeNotSent sentAt ∧ peer.outstanding = some sentAt ∧
          after.outstanding = none)
  refuses : peer.state = .dead →
    (∀ now, (peer.dueProbe now).2 = false) ∧ ∀ now rtt, (peer.onPong now rtt).2 = false
  seen : peer.lastSeen.isSome ↔ peer.state = .dead
  seenOnce : peer.lastSeen.isSome → after.lastSeen = peer.lastSeen
  /-- A path dies by a goodbye, seen last then, or by a timeout, seen last when it last
  answered. -/
  died : peer.state ≠ .dead → after.state = .dead →
    (∃ now, next = .onGoodbye now ∧ after.lastSeen = some ⟨now, .goodbye⟩) ∨
      ∃ now answered, next = .poll now ∧ AnsweredAt calls created answered ∧
        after.lastSeen = some ⟨answered, .timeout⟩

/-- Every run of a path, whatever the calls and their times, obeys the law at each call. -/
theorem liveness_law (created : Nat) (seed : Option Nat) (calls : List LivenessCall)
    (next : LivenessCall) :
    let start := opened created seed
    let peer := run step start calls
    LivenessLaw created start calls next peer (peer.step next) := by
  intro start peer
  have tracks : Tracks created start calls peer := tracks_run created seed calls
  have cases := report_cases peer next
  constructor
  · rcases cases with
      ⟨state, -⟩ | ⟨isLive, isStale, -⟩ | ⟨isStale, isDead, -⟩ | ⟨-, isDead, -⟩
    · rw [state]
    · rw [isLive, isStale]
      decide
    · rw [isStale, isDead]
      decide
    · rw [isDead]
      cases peer.state <;> decide
  · exact reported_run created seed calls
  · rcases cases with
      ⟨state, -, -, reported⟩ | ⟨isLive, isStale, -, reported, -⟩ |
        ⟨isStale, isDead, reported, -⟩ | ⟨-, isDead, reported, -⟩
    · rw [reported, state]
      simp only [List.nil_eq, reduceCtorEq, false_iff]
      intro both
      rw [both.1] at both
      cases both.2
    · simp [reported, isLive, isStale]
    · simp [reported, isStale]
    · simp [reported, isDead]
  · rcases cases with
      ⟨state, -, -, reported⟩ | ⟨isLive, isStale, -, reported, -⟩ |
        ⟨isStale, isDead, reported, -⟩ | ⟨notDead, isDead, reported, -⟩
    · rw [reported, state]
      simp
    · simp [reported, isStale]
    · simp [reported, isStale, isDead]
    · simp [reported, isDead, notDead]
  · rcases cases with
      ⟨state, -, -, reported⟩ | ⟨isLive, isStale, -, reported, -⟩ |
        ⟨isStale, isDead, reported, -⟩ | ⟨notDead, isDead, reported, -⟩
    · simp [reported, state]
    · simp [reported, isLive, isStale]
    · simp [reported, isStale, isDead]
    · rw [reported, isDead]
      simp only [reduceCtorEq, false_iff]
      exact fun same => notDead same.symm
  · intro reportsStale
    rcases cases with
      ⟨-, -, -, reported⟩ | ⟨isLive, isStale, -, -, now, isPoll, enough, -⟩ |
        ⟨-, -, reported, -⟩ | ⟨-, -, reported, -⟩
    · rw [reported] at reportsStale
      cases reportsStale
    · have notDead : peer.state ≠ .dead := by
        rw [isLive]
        decide
      obtain ⟨probes, charged⟩ :
          ∃ lost, Charged start (calls ++ [next]) (peer.step next) lost :=
        charged_step rfl notDead (tracks.charged notDead)
      have count : (peer.chargeMiss now).misses = (peer.step next).misses := by
        rcases poll_cases peer now with
          ⟨isDead, -⟩ | ⟨-, polled⟩ | ⟨-, -, polled⟩ | ⟨since, -, -, -, polled⟩
        · exact absurd isDead notDead
        · simp [isPoll, step, call, polled]
        · simp [isPoll, step, call, polled]
        · simp [isPoll, step, call, polled]
      refine ⟨probes, ?_, charged.each, charged.apart, charged.silent⟩
      rw [count] at enough
      exact enough.trans charged.count
    · rw [reported] at reportsStale
      cases reportsStale
    · rw [reported] at reportsStale
      cases reportsStale
  · intro now isPoll reportsDead
    rcases cases with
      ⟨-, -, -, reported⟩ | ⟨-, -, -, reported, -⟩ |
        ⟨isStale, -, -, polledAt, since, alsoPoll, isSince, graceOver, -⟩ |
          ⟨-, -, -, left, isGoodbye, -⟩
    · rw [reported] at reportsDead
      cases reportsDead
    · rw [reported] at reportsDead
      cases reportsDead
    · rw [isPoll] at alsoPoll
      cases alsoPoll
      obtain ⟨position, began, alsoSince, polled, reported⟩ := tracks.stale isStale
      rw [isSince] at alsoSince
      cases alsoSince
      exact ⟨position, since, polled, reported, graceOver⟩
    · rw [isPoll] at isGoodbye
      cases isGoodbye
  · intro isDead
    exact step_of_dead isDead next
  · intro isDead
    constructor
    · intro now
      rw [dueProbe, if_pos isDead]
    · intro now rtt
      rw [onPong_of_dead isDead]
  · exact tracks.seen
  · intro seen
    exact (congrArg lastSeen (step_of_dead (tracks.seen.mp seen) next).1).trans rfl
  · intro notDead isDead
    rcases cases with
      ⟨state, -⟩ | ⟨-, isStale, -⟩ | ⟨-, -, -, now, _, isPoll, -, -, seen⟩ |
        ⟨-, -, -, now, isGoodbye, seen⟩
    · rw [state] at isDead
      exact absurd isDead notDead
    · rw [isStale] at isDead
      cases isDead
    · exact Or.inr ⟨now, peer.lastAnswer, isPoll, tracks.answered notDead, seen⟩
    · exact Or.inl ⟨now, isGoodbye, seen⟩

/-- A dead path still takes the activity it is told, and its probe interval with it. -/
theorem dead_path_changes :
    ¬ ∀ (created : Nat) (seed : Option Nat) (calls : List LivenessCall) (next : LivenessCall),
      InOrder created (calls ++ [next]) →
        (run step (opened created seed) calls).state = .dead →
          (run step (opened created seed) (calls ++ [next])) =
            run step (opened created seed) calls := by
  intro unchanged
  have same := unchanged 0 none [.onGoodbye 0] (.setActivity .visit) (by decide) (by decide)
  have intervals := congrArg probeInterval same
  exact absurd intervals (by decide)

end PeerLiveness

end Mosschat.Net
