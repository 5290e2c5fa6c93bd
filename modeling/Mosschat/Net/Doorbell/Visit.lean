import Mosschat.Library.Machine
import Mosschat.Net.Diag.Recorder
import Mosschat.Net.Doorbell.Attempt
import Mosschat.Net.Doorbell.Path
import Mosschat.Net.Doorbell.Turn

/-!
Owns a visit as its record sees it: `run_doorbell` with its attempt, its recorder and the reason
it ends with, and when that reason does not depend on the exit the visit takes.

Does not own the round trips a visit measures, nor the counters of its egress queue.
-/

namespace Mosschat.Net

open Mosschat.Core Mosschat.Library.Machine Mosschat.Net.Gate Mosschat.Net.Diag

/-- What `RttSamples::percentiles` gives, and its source. -/
structure RttSummary where
  medianUs : UInt32
  p95Us : UInt32
  samples : UInt32
  source : RttSource

/-- What the clocks say during an action: the milliseconds since the attempt began when the action
records an entry, and when it closes the record, and when the gate's start signal came. -/
structure Clocks where
  atMs : UInt64
  endedMs : UInt64
  startReceivedAt : Nat

/-- `run_doorbell` with what it keeps for its record. -/
structure DoorbellVisit where
  house : Doorbell
  /-- `DoorbellParams::peer_observed`. -/
  peerObserved : Option SocketAddr
  /-- `DoorbellParams::peer_discovered`. -/
  peerDiscovered : List SocketAddr
  attempt : Attempt
  recorder : Option Recorder
  /-- The counters of the path's egress queue. -/
  stats : ShaperStats
  rtt : RttSummary
  giveUpReason : Option Reason
  relayDead : Bool

/-- What happens to a visit. -/
inductive VisitAction where
  | acts (action : DoorbellAction) (clocks : Clocks)
  | arrives (frame : Option PorchFrame)
  /-- The probes of `Phase::Probing`. -/
  | probes (now : Nat) (txIds : Nat → TxId)
  /-- A pong of `Phase::Probing`. -/
  | answers (source : SocketAddr) (pong : Probe) (now : Nat)
  /-- Whoever shares the recorder writes into it: the gate's client, the monitors of the paths, and
  the doorbell its steps and events, but for those of the ends of a visit. -/
  | observes (call : RecorderCall)
  /-- The egress queue of the path counts. -/
  | carries (stats : ShaperStats)
  | measures (rtt : RttSummary)

/-- The exchange that an action completes. -/
def Doorbell.exchangeRead (house : Doorbell) (action : DoorbellAction) : Option Exchanged :=
  match house.stage, action with
  | .attempting adopted, .begins _ _ _ _ failed => if failed then none else adopted
  | .exchanging offer, .expects _ failed =>
    match house.frames with
    | some (.candidates _ attempt addrs probeHalf noUpgrade) :: _ =>
      if house.initiator then
        if attempt = offer.attempt then some ⟨attempt, addrs, probeHalf, noUpgrade⟩ else none
      else if failed then none
      else some ⟨attempt, addrs, probeHalf, noUpgrade⟩
    | _ => none
  | _, _ => none

/-- The change the watch of the relay comes to in a turn. -/
def RelayWatch.changes (watch : RelayWatch) (tx : TxId) (now : Nat) (sent : Bool) :
    Option LivenessChange :=
  let (watch, due) := watch.dueProbe now
  let watch :=
    if due then
      let probed := { watch with outstanding := some tx, sentAt := some now }
      if sent then probed else probed.probeNotSent now
    else watch
  (watch.liveness.poll now).2

/-- `record_relay_counters`. -/
def recordRelayCounters (recorder : Option Recorder) (path : Option PathEntry)
    (stats : ShaperStats) : Option Recorder :=
  match recorder, path with
  | some recorder, some _ => some (recorder.call (.setRelayStats stats))
  | recorder, _ => recorder

/-- `settle`. -/
def settle (recorder : Option Recorder) (reason : Reason) (elapsedMs : UInt64) :
    Option Recorder :=
  recorder.map fun recorder => (recorder.finish reason elapsedMs).1

/-- `finish_visit`. -/
def finishVisit (recorder : Option Recorder) (rtt : RttSummary) (path : Option PathEntry)
    (stats : ShaperStats) (reason : Reason) (elapsedMs : UInt64) : Option Recorder :=
  let counted := recordRelayCounters recorder path stats
  let measured := counted.map fun recorder =>
    recorder.call (.setRtt rtt.medianUs rtt.p95Us rtt.samples rtt.source)
  settle measured reason elapsedMs

/-- `end_of_visit_reason`. -/
def endOfVisitReason (params : DoorbellParams) (giveUpReason : Option Reason)
    (path : Option PathEntry) (attempt : Attempt) (recorder : Option Recorder)
    (everUpgraded relayDead : Bool) : Reason :=
  if relayDead then .pathIdleTimeout
  else if params.noPunch then .punchDisabled
  else
    match giveUpReason with
    | some reason => reason
    | none =>
      if !everUpgraded then
        if attempt.candidates.length = 0 then .noCandidates
        else (recorder.map fun recorder => recorder.state.probeFailureReason).getD .probeTimeout
      else if path.any fun entry => entry.directAddr.isNone then .pathIdleTimeout
      else .ok

namespace DoorbellVisit

/-- `run_doorbell` up to its first attempt, with the recorder it is given. -/
def new (params : DoorbellParams) (peerObserved : Option SocketAddr)
    (peerDiscovered : List SocketAddr) (synthetic : SocketAddr) (path : Option PathEntry)
    (recorder : Option Recorder) (stats : ShaperStats) (started : Nat) : DoorbellVisit where
  house := .new params synthetic path started
  peerObserved := peerObserved
  peerDiscovered := peerDiscovered
  attempt := .new (List.Vector.replicate 16 0) peerObserved
  recorder := recorder
  stats := stats
  rtt := ⟨0, 0, 0, .notSampled⟩
  giveUpReason := none
  relayDead := false

/-- The reason the visit was recorded with. -/
def recorded (visit : DoorbellVisit) : Option Reason := visit.recorder.bind Recorder.recorded

/-- The visit has upgraded once, or has left a path. -/
def everUpgraded (visit : DoorbellVisit) : Bool :=
  visit.house.outcome.upgradedTo.isSome || visit.house.outcome.fellBack

/-- The candidate table of an attempt. -/
def tableOf (visit : DoorbellVisit) (read : Exchanged) : Attempt :=
  let attempt := Attempt.new read.attempt visit.peerObserved
  let attempt := visit.peerDiscovered.foldl Attempt.vouch attempt
  let attempt := (attempt.addPeerCandidates read.peerAddrs).1
  visit.peerDiscovered.foldl (fun attempt addr => (attempt.addDiscovered addr).1) attempt

/-- The attempt after its exchange, which failed if the doorbell ended. -/
def exchanges (visit : DoorbellVisit) (read : Option Exchanged) (clocks : Clocks) : DoorbellVisit :=
  let visit := { visit with attempt := (read.map visit.tableOf).getD visit.attempt }
  match visit.house.stage with
  | .looping _ (.relayed _) => { visit with giveUpReason := some .punchDisabled }
  | .ended _ =>
    { visit with recorder := settle visit.recorder .peerHandshakeFailed clocks.endedMs }
  | _ => visit

/-- A wait for the gate, which failed if the doorbell is on the relay or ended. -/
def signalled (visit : DoorbellVisit) (clocks : Clocks) : DoorbellVisit :=
  match visit.house.stage with
  | .looping _ (.relayed _) => { visit with giveUpReason := some .internal }
  | .ended _ => { visit with recorder := settle visit.recorder .internal clocks.endedMs }
  | _ => visit

/-- The stop and the hold exit. -/
def leaves (visit : DoorbellVisit) (clocks : Clocks) : DoorbellVisit :=
  let detail := if visit.house.stopping then "this house is stopping" else "the hold elapsed"
  let recorder := visit.recorder.map fun recorder =>
    recorder.call (.event .goodbye detail clocks.atMs)
  let reason := endOfVisitReason visit.house.params visit.giveUpReason visit.house.path
    visit.attempt recorder visit.everUpgraded visit.relayDead
  { visit with
    recorder := finishVisit recorder visit.rtt visit.house.path visit.stats reason
      clocks.endedMs }

/-- The closed exit. -/
def closes (visit : DoorbellVisit) (clocks : Clocks) : DoorbellVisit :=
  let recorder := record visit.recorder .closed .ok "the peer connection closed" clocks.atMs
  let reason :=
    if visit.house.held || visit.house.outcome.upgradedTo.isSome then
      endOfVisitReason visit.house.params visit.giveUpReason visit.house.path visit.attempt
        recorder visit.everUpgraded visit.relayDead
    else .internal
  { visit with
    recorder := finishVisit recorder visit.rtt visit.house.path visit.stats reason
      clocks.endedMs }

/-- What the give-up branch has recorded when it asks for its reason. -/
def countsGivenUp (visit : DoorbellVisit) (clocks : Clocks) : Option Recorder :=
  let detail := "0 of " ++ toString visit.attempt.candidates.length ++ " candidates answered"
  recordRelayCounters (record visit.recorder .probeBurst .fail detail clocks.atMs)
    visit.house.path visit.stats

/-- The give-up branch, of a visit that is held or is not. -/
def givesUp (visit : DoorbellVisit) (clocks : Clocks) : DoorbellVisit :=
  let counted := visit.countsGivenUp clocks
  let reason := (counted.map fun recorder =>
    if visit.attempt.candidates.length = 0 then .noCandidates
    else recorder.state.probeFailureReason).getD .probeTimeout
  if visit.house.held then { visit with recorder := counted, giveUpReason := some reason }
  else { visit with recorder := settle counted reason clocks.endedMs }

/-- The path of a visit that is not held is lost. -/
def losesPath (visit : DoorbellVisit) (clocks : Clocks) : DoorbellVisit :=
  match visit.house.stage with
  | .ended _ =>
    let counted := recordRelayCounters visit.recorder visit.house.path visit.stats
    { visit with recorder := settle counted .pathIdleTimeout clocks.endedMs }
  | _ => visit

/-- The peer said goodbye. -/
def goodbyeRead (visit : DoorbellVisit) (clocks : Clocks) : DoorbellVisit :=
  let emitted := visit.recorder.map fun recorder =>
    recorder.call (.event .goodbye "the peer said goodbye" clocks.atMs)
  let recorder := record emitted .closed .ok "the peer said goodbye" clocks.atMs
  let reason :=
    if visit.giveUpReason = some .punchDisabled then .punchDisabled else .peerGoodbye
  { visit with
    recorder := finishVisit recorder visit.rtt visit.house.path visit.stats reason
      clocks.endedMs }

/-- What an action of the doorbell does to its visit. -/
def act (crypto : Crypto) (visit : DoorbellVisit) (action : DoorbellAction) (clocks : Clocks) :
    DoorbellVisit :=
  let moved := { visit with house := (visit.house.act crypto action).1 }
  match action with
  | .begins _ _ _ _ _ =>
    match visit.house.stage with
    | .attempting _ =>
      exchanges { moved with giveUpReason := none } (visit.house.exchangeRead action) clocks
    | _ => visit
  | .expects _ _ | .timesOut =>
    match visit.house.stage with
    | .exchanging _ => moved.exchanges (visit.house.exchangeRead action) clocks
    | _ => visit
  | .startRequested _ _ =>
    match visit.house.stage with
    | .requesting _ => moved.signalled clocks
    | _ => visit
  | .startAwaited _ failed =>
    match visit.house.stage with
    | .awaiting _ =>
      if failed then moved.signalled clocks
      else { moved with attempt := visit.attempt.startSignalReceived clocks.startReceivedAt }
    | _ => visit
  | .leaves now _ =>
    match visit.house.stage with
    | .looping _ _ =>
      if visit.house.stopping || visit.house.holdUntil.any fun last => last ≤ now then
        moved.leaves clocks
      else visit
    | _ => visit
  | .turns givenUp tx now sent _ =>
    match visit.house.stage with
    | .looping _ .probing =>
      -- Whether the candidates are given up is the attempt's to say.
      if givenUp && visit.attempt.givenUp now then moved.givesUp clocks else visit
    | .looping _ (.watching _) => moved.losesPath clocks
    | .looping _ (.relayed watch) =>
      if watch.changes tx now sent = some .wentDead then
        losesPath { moved with relayDead := true } clocks
      else moved
    | _ => visit
  | .pongs source tx _ =>
    match visit.house.stage with
    | .looping _ (.relayed watch) =>
      if source = watch.addr ∧ watch.outstanding = some tx ∧ watch.deadSince.isSome then
        { moved with relayDead := false }
      else moved
    | .looping _ (.watching _) => moved
    | _ => visit
  | .wins addr rtt _ _ =>
    match visit.house.stage with
    | .looping _ .probing =>
      if visit.attempt.decide.2 = some ⟨addr, rtt⟩ then
        { moved with attempt := visit.attempt.decide.1 }
      else visit
    | _ => visit
  | .reads _ =>
    match visit.house.stage, visit.house.frames with
    | .looping _ _, some (.goodbye _ _) :: _ => moved.goodbyeRead clocks
    | .looping _ _, some (.pathDown _ _ _ _) :: _ => moved.losesPath clocks
    | _, _ => moved
  | .closes =>
    match visit.house.stage with
    | .looping _ _ => moved.closes clocks
    | _ => visit
  | .stops => moved

def step (crypto : Crypto) (visit : DoorbellVisit) : VisitAction → DoorbellVisit
  | .acts action clocks => visit.act crypto action clocks
  | .arrives frame => { visit with house := visit.house.arrives frame }
  | .probes now txIds =>
    match visit.house.stage with
    | .looping _ .probing => { visit with attempt := (visit.attempt.dueProbes now txIds).1 }
    | _ => visit
  | .answers source pong now =>
    match visit.house.stage with
    | .looping _ .probing => { visit with attempt := (visit.attempt.onPong source pong now).1 }
    | _ => visit
  | .observes call =>
    match call with
    | .setRelayStats _ => visit
    | _ => { visit with recorder := visit.recorder.map fun recorder => recorder.call call }
  | .carries stats => { visit with stats := stats }
  | .measures rtt => { visit with rtt := rtt }

/-! ## What the reason should be -/

/-- The attempt still probes, nothing was upgraded, and neither the punch is off nor the relay
dead. -/
structure StillProbing (visit : DoorbellVisit) : Prop where
  phase : ∃ running, visit.house.stage = .looping running .probing
  notUpgraded : visit.everUpgraded = false
  punching : visit.house.params.noPunch = false
  alive : visit.relayDead = false

/-- The reason recorded at an exit is the one recorded where the visit gives up first. -/
structure ReasonAgrees (visit : DoorbellVisit) : Prop where
  left : ∀ gaveUp atEnd : Clocks,
    (visit.leaves atEnd).recorded = ((visit.givesUp gaveUp).leaves atEnd).recorded
  closed : visit.house.held = true → ∀ gaveUp atEnd : Clocks,
    (visit.closes atEnd).recorded = ((visit.givesUp gaveUp).closes atEnd).recorded

/-- The recorder says of the relay what its counters say, where the reason turns on it. -/
def RelayTold (visit : DoorbellVisit) : Prop :=
  ∀ recorder entry, visit.recorder = some recorder → visit.house.path = some entry →
    visit.attempt.candidates ≠ [] → recorder.state.inferredMapping ≠ .endpointDependent →
    sharesIp recorder.state.localObserved.1 recorder.state.peerObserved = true →
    recorder.state.gateCarriedTraffic = decide (0 < visit.stats.relayQueued)

/-- The reason of a visit that still probes, by what its recorder says. -/
def probingReason (attempt : Attempt) (recorder : Recorder) : Reason :=
  if attempt.candidates.length = 0 then .noCandidates else recorder.state.probeFailureReason

/-! ## The recorder of a visit that goes on -/

/-- The recorder has not written its record. -/
def Unfinished (recorder : Option Recorder) : Prop :=
  ∀ told, recorder = some told → told.state.finished = none

theorem Unfinished.call {recorder : Option Recorder} (unfinished : Unfinished recorder)
    (next : RecorderCall) :
    Unfinished (recorder.map fun recorder => recorder.call next) := by
  intro told isTold
  obtain ⟨before, isBefore, same⟩ := Option.map_eq_some_iff.mp isTold
  rw [← same]
  exact (RecorderState.finished_call before.state next).trans (unfinished before isBefore)

theorem Unfinished.counted {recorder : Option Recorder} (unfinished : Unfinished recorder)
    (path : Option PathEntry) (stats : ShaperStats) :
    Unfinished (recordRelayCounters recorder path stats) := by
  cases recorder with
  | none => exact unfinished
  | some before =>
      cases path with
      | none => exact unfinished
      | some entry => exact unfinished.call (.setRelayStats stats)

/-- A recorder that has not written its record writes it with the reason it is settled with. -/
theorem recorded_settle {recorder : Option Recorder} (unfinished : Unfinished recorder)
    (reason : Reason) (elapsedMs : UInt64) :
    (settle recorder reason elapsedMs).bind Recorder.recorded =
      recorder.map fun _ => reason := by
  cases recorder with
  | none => rfl
  | some before => exact Recorder.recorded_finish (unfinished before rfl) reason elapsedMs

theorem map_counted (recorder : Option Recorder) (path : Option PathEntry) (stats : ShaperStats)
    (reason : Reason) :
    (recordRelayCounters recorder path stats).map (fun _ => reason) =
      recorder.map fun _ => reason := by
  cases recorder with
  | none => rfl
  | some before =>
      cases path with
      | none => rfl
      | some entry => rfl

theorem recorded_finishVisit {recorder : Option Recorder} (unfinished : Unfinished recorder)
    (rtt : RttSummary) (path : Option PathEntry) (stats : ShaperStats) (reason : Reason)
    (elapsedMs : UInt64) :
    (finishVisit recorder rtt path stats reason elapsedMs).bind Recorder.recorded =
      recorder.map fun _ => reason := by
  have counted := unfinished.counted path stats
  unfold finishVisit
  simp only
  rw [recorded_settle (counted.call _), Option.map_map]
  exact map_counted recorder path stats reason

/-! ## A record that is written -/

theorem recorded_call (recorder : Option Recorder) (next : RecorderCall) :
    (recorder.map fun recorder => recorder.call next).bind Recorder.recorded =
      recorder.bind Recorder.recorded := by
  cases recorder with
  | none => rfl
  | some before =>
      show (before.state.call next).finished.map _ = before.state.finished.map _
      rw [RecorderState.finished_call]

theorem recorded_counted (recorder : Option Recorder) (path : Option PathEntry)
    (stats : ShaperStats) :
    (recordRelayCounters recorder path stats).bind Recorder.recorded =
      recorder.bind Recorder.recorded := by
  cases recorder with
  | none => rfl
  | some before =>
      cases path with
      | none => rfl
      | some entry => exact recorded_call (some before) (.setRelayStats stats)

theorem recorded_settle_again {recorder : Option Recorder} {reason : Reason}
    (written : recorder.bind Recorder.recorded = some reason) (other : Reason)
    (elapsedMs : UInt64) :
    (settle recorder other elapsedMs).bind Recorder.recorded = some reason := by
  obtain ⟨before, isBefore, isReason⟩ := Option.bind_eq_some_iff.mp written
  obtain ⟨already, closed, -⟩ := Option.map_eq_some_iff.mp isReason
  have same : (before.finish other elapsedMs).1 = before := by
    rw [Recorder.finish, closed]
  rw [isBefore]
  show ((before.finish other elapsedMs).1).recorded = some reason
  rw [same]
  exact isReason

/-- Whatever exit a visit takes after its record is written, the record stays. -/
theorem recorded_finishVisit_again {recorder : Option Recorder} {reason : Reason}
    (written : recorder.bind Recorder.recorded = some reason) (rtt : RttSummary)
    (path : Option PathEntry) (stats : ShaperStats) (other : Reason) (elapsedMs : UInt64) :
    (finishVisit recorder rtt path stats other elapsedMs).bind Recorder.recorded =
      some reason := by
  apply recorded_settle_again
  rw [recorded_call, recorded_counted]
  exact written

/-! ## The reason at each exit -/

section Exits

variable {visit : DoorbellVisit}

theorem probingReason_call (attempt : Attempt) (recorder : Recorder) {next : RecorderCall}
    (told : (recorder.state.call next).probeFailureReason = recorder.state.probeFailureReason) :
    probingReason attempt (recorder.call next) = probingReason attempt recorder := by
  unfold probingReason Recorder.call
  rw [told]

/-- The reason of a visit that still probes and has not given up. -/
theorem endOfVisitReason_probing (probing : StillProbing visit)
    (unnamed : visit.giveUpReason = none) (recorder : Recorder) :
    endOfVisitReason visit.house.params visit.giveUpReason visit.house.path visit.attempt
      (some recorder) visit.everUpgraded visit.relayDead =
        probingReason visit.attempt recorder := by
  unfold endOfVisitReason
  rw [probing.alive, probing.punching, unnamed, probing.notUpgraded]
  rfl

/-- What an exit records, of a visit that still probes. -/
theorem recorded_exit (probing : StillProbing visit) (unnamed : visit.giveUpReason = none)
    (unfinished : Unfinished visit.recorder) (next : RecorderCall)
    (told : ∀ state : RecorderState,
      (state.call next).probeFailureReason = state.probeFailureReason) (elapsedMs : UInt64) :
    let recorder := visit.recorder.map fun recorder => recorder.call next
    let reason := endOfVisitReason visit.house.params visit.giveUpReason visit.house.path
      visit.attempt recorder visit.everUpgraded visit.relayDead
    (finishVisit recorder visit.rtt visit.house.path visit.stats reason elapsedMs).bind
      Recorder.recorded = visit.recorder.map (probingReason visit.attempt) := by
  intro recorder reason
  rw [recorded_finishVisit (unfinished.call next)]
  cases isRecorder : visit.recorder with
  | none => rfl
  | some before =>
      have isReason : reason = probingReason visit.attempt (before.call next) := by
        show endOfVisitReason _ _ _ _ (visit.recorder.map _) _ _ = _
        rw [isRecorder]
        exact endOfVisitReason_probing probing unnamed (before.call next)
      rw [isReason, probingReason_call visit.attempt before (told before.state)]
      rfl

theorem recorded_leaves (probing : StillProbing visit) (unnamed : visit.giveUpReason = none)
    (unfinished : Unfinished visit.recorder) (atEnd : Clocks) :
    (visit.leaves atEnd).recorded = visit.recorder.map (probingReason visit.attempt) :=
  recorded_exit probing unnamed unfinished _ (fun _ => rfl) atEnd.endedMs

theorem recorded_closes (probing : StillProbing visit) (unnamed : visit.giveUpReason = none)
    (unfinished : Unfinished visit.recorder) (held : visit.house.held = true) (atEnd : Clocks) :
    (visit.closes atEnd).recorded = visit.recorder.map (probingReason visit.attempt) := by
  have exits := recorded_exit probing unnamed unfinished
    (.step .closed .ok "the peer connection closed" atEnd.atMs) (fun _ => rfl) atEnd.endedMs
  unfold closes
  simp only [held, Bool.true_or, if_true]
  exact exits

/-- The reason of a burst turns on the relay only where both sides share an IP and the mapping does
not depend on the endpoint. -/
theorem probeFailureReason_eq_iff (localObserved peerObserved : Option Addr) (mapping : Mapping)
    (carried other : Bool) :
    Diag.probeFailureReason localObserved peerObserved mapping carried =
        Diag.probeFailureReason localObserved peerObserved mapping other ↔
      (mapping ≠ .endpointDependent → sharesIp localObserved peerObserved = true →
        carried = other) := by
  unfold Diag.probeFailureReason
  by_cases dependent : mapping = .endpointDependent
  · rw [if_pos dependent, if_pos dependent]
    exact iff_of_true rfl fun apart => absurd dependent apart
  · rw [if_neg dependent, if_neg dependent]
    cases sharesIp localObserved peerObserved with
    | false => exact iff_of_true rfl fun _ shared => absurd shared Bool.false_ne_true
    | true =>
        cases carried with
        | false =>
            cases other with
            | false => exact iff_of_true rfl fun _ _ => rfl
            | true => exact iff_of_false nofun fun same => Bool.false_ne_true (same dependent rfl)
        | true =>
            cases other with
            | false => exact iff_of_false nofun fun same => Bool.noConfusion (same dependent rfl)
            | true => exact iff_of_true rfl fun _ _ => rfl

/-- What the give-up branch says of its attempt, by the counters it has read. -/
def countedReason (visit : DoorbellVisit) : Option Reason :=
  (recordRelayCounters visit.recorder visit.house.path visit.stats).map
    (probingReason visit.attempt)

theorem map_countsGivenUp (visit : DoorbellVisit) (gaveUp : Clocks) :
    (visit.countsGivenUp gaveUp).map (probingReason visit.attempt) = visit.countedReason := by
  unfold countsGivenUp countedReason
  cases visit.recorder with
  | none => rfl
  | some before =>
      cases visit.house.path with
      | none => rfl
      | some entry => rfl

theorem Unfinished.countsGivenUp (unfinished : Unfinished visit.recorder) (gaveUp : Clocks) :
    Unfinished (visit.countsGivenUp gaveUp) :=
  (unfinished.call _).counted visit.house.path visit.stats

/-- What an exit records of a visit that gave up before it, held or not. -/
theorem recorded_exit_givesUp (probing : StillProbing visit)
    (unfinished : Unfinished visit.recorder) (gaveUp : Clocks) (next : RecorderCall)
    (elapsedMs : UInt64) :
    let after := visit.givesUp gaveUp
    let recorder := after.recorder.map fun recorder => recorder.call next
    let reason := endOfVisitReason after.house.params after.giveUpReason after.house.path
      after.attempt recorder after.everUpgraded after.relayDead
    (finishVisit recorder after.rtt after.house.path after.stats reason elapsedMs).bind
      Recorder.recorded = visit.countedReason := by
  intro after recorder reason
  have counted := unfinished.countsGivenUp gaveUp
  have told := map_countsGivenUp visit gaveUp
  cases isCounted : visit.countsGivenUp gaveUp with
  | none =>
      have none : recorder = none := by
        show (visit.givesUp gaveUp).recorder.map _ = _
        unfold givesUp
        rw [isCounted]
        cases visit.house.held with
        | true => rfl
        | false => rfl
      rw [isCounted] at told
      rw [none, ← told]
      cases after.house.path with
      | none => rfl
      | some entry => rfl
  | some before =>
      rw [isCounted] at told counted
      have isReason : visit.countedReason = some (probingReason visit.attempt before) := told.symm
      rw [isReason]
      cases held : visit.house.held with
      | true =>
          have isAfter : after = { visit with
              recorder := some before
              giveUpReason := some (probingReason visit.attempt before) } := by
            show visit.givesUp gaveUp = _
            unfold givesUp
            rw [isCounted, held]
            rfl
          have isNamed : reason = probingReason visit.attempt before := by
            show endOfVisitReason after.house.params after.giveUpReason after.house.path
              after.attempt recorder after.everUpgraded after.relayDead = _
            rw [isAfter]
            unfold endOfVisitReason
            simp only
            rw [probing.alive, probing.punching]
            rfl
          have isRecorder : recorder = some (before.call next) := by
            show after.recorder.map _ = _
            rw [isAfter]
            rfl
          rw [isRecorder, isNamed]
          exact recorded_finishVisit (counted.call next) _ _ _ _ _
      | false =>
          have isAfter : after.recorder =
              settle (some before) (probingReason visit.attempt before) gaveUp.endedMs := by
            show (visit.givesUp gaveUp).recorder = _
            unfold givesUp
            rw [isCounted, held]
            rfl
          apply recorded_finishVisit_again
          rw [recorded_call, isAfter, recorded_settle counted]
          rfl

/-- The counters change the reason exactly where it turns on the relay. -/
theorem countedReason_iff (visit : DoorbellVisit) :
    visit.recorder.map (probingReason visit.attempt) = visit.countedReason ↔
      visit.RelayTold := by
  unfold countedReason RelayTold
  cases isRecorder : visit.recorder with
  | none =>
      apply iff_of_true rfl
      intro recorder entry isSome
      cases isSome
  | some before =>
      cases isPath : visit.house.path with
      | none =>
          apply iff_of_true rfl
          intro recorder entry _ isSome
          cases isSome
      | some entry =>
          show some (probingReason visit.attempt before) =
            some (probingReason visit.attempt (before.call (.setRelayStats visit.stats))) ↔ _
          rw [Option.some.injEq]
          unfold probingReason
          constructor
          · intro same recorder other isBefore _ some apart shared
            cases isBefore
            have isSome : ¬visit.attempt.candidates.length = 0 := fun empty =>
              some (List.length_eq_zero_iff.mp empty)
            rw [if_neg isSome, if_neg isSome] at same
            exact (probeFailureReason_eq_iff _ _ _ _ _).mp same apart shared
          · intro told
            by_cases none : visit.attempt.candidates.length = 0
            · rw [if_pos none, if_pos none]
            · rw [if_neg none, if_neg none]
              apply (probeFailureReason_eq_iff _ _ _ _ _).mpr
              intro apart shared
              have some : visit.attempt.candidates ≠ [] := fun empty =>
                none (List.length_eq_zero_iff.mpr empty)
              exact told before entry rfl rfl some apart shared

end Exits

/-! ## Every run -/

end DoorbellVisit

/-- The doorbell may still come to probe the candidates of its attempt. -/
def DoorbellStage.hopeful : DoorbellStage → Bool
  | .exchanging _ | .requesting _ | .awaiting _ | .looping _ .probing => true
  | .attempting _ | .looping _ (.watching _) | .looping _ (.relayed _) | .ended _ => false

/-- `run_doorbell` has returned. -/
def DoorbellStage.returned : DoorbellStage → Bool
  | .ended _ => true
  | .attempting _ | .exchanging _ | .requesting _ | .awaiting _ | .looping _ _ => false

namespace Doorbell

theorem hopeful_watches (house : Doorbell) (running : Running) (watch : Watch) (tx : TxId)
    (now : Nat) (failed : Bool) :
    (house.watches running watch tx now failed).1.stage.hopeful = false := by
  unfold Doorbell.watches
  simp only
  split
  · split
    · rfl
    · rfl
  · split
    · rfl
    · rfl
  · rfl

theorem hopeful_relayWatches (house : Doorbell) (running : Running) (watch : RelayWatch)
    (tx : TxId) (now : Nat) (sent : Bool) :
    (house.relayWatches running watch tx now sent).stage.hopeful = false := by
  unfold Doorbell.relayWatches
  simp only
  split
  · split
    · rfl
    · rfl
  · rfl
  · rfl

theorem hopeful_pathDown (house : Doorbell) (running : Running) (now : Nat) :
    (house.pathDown running now).stage.hopeful = false := by
  unfold Doorbell.pathDown
  simp only
  split
  · split
    · rfl
    · rfl
  · rfl

/-- A frame that ends nothing leaves the doorbell where it is. -/
theorem stage_reads (house : Doorbell) (now : Nat) :
    (house.reads now).stage = house.stage ∨
      (house.reads now).stage.hopeful = false ∧ house.stage.returned = false := by
  unfold Doorbell.reads
  split
  · next running phase frame rest isStage isFrames =>
      have going : house.stage.returned = false := by
        rw [isStage]
        rfl
      simp only
      split
      · exact Or.inr ⟨rfl, going⟩
      · split
        · exact Or.inr ⟨rfl, going⟩
        · exact Or.inl rfl
      · split
        · exact Or.inr ⟨hopeful_pathDown _ _ _, going⟩
        · exact Or.inl rfl
      · exact Or.inl rfl
      · exact Or.inl rfl
  · exact Or.inl rfl

theorem hopeful_pongs {house : Doorbell} (hopeless : house.stage.hopeful = false)
    (source : SocketAddr) (tx : TxId) (arrived : Nat) :
    (house.pongs source tx arrived).stage.hopeful = false := by
  unfold Doorbell.pongs
  split
  · split
    · split
      · rfl
      · rfl
    · exact hopeless
  · split
    · rfl
    · exact hopeless
  · exact hopeless

end Doorbell

namespace DoorbellVisit

/-- No reason is named while the attempt may still probe, and no record is written before the
doorbell returns. -/
structure Pending (visit : DoorbellVisit) : Prop where
  unnamed : visit.house.stage.hopeful = true → visit.giveUpReason = none
  unfinished : visit.house.stage.returned = false → Unfinished visit.recorder

namespace Pending

variable {visit : DoorbellVisit}

theorem unnamed_of (pending : visit.Pending) {stage : DoorbellStage}
    (isStage : visit.house.stage = stage) (hopeful : stage.hopeful = true) :
    visit.giveUpReason = none := by
  apply pending.unnamed
  rw [isStage]
  exact hopeful

theorem unfinished_of (pending : visit.Pending) {stage : DoorbellStage}
    (isStage : visit.house.stage = stage) (going : stage.returned = false) :
    Unfinished visit.recorder := by
  apply pending.unfinished
  rw [isStage]
  exact going

/-- A doorbell that will not probe leaves only its recorder to look at. -/
theorem of_hopeless {next : DoorbellVisit} (hopeless : next.house.stage.hopeful = false)
    (unfinished : next.house.stage.returned = false → Unfinished next.recorder) : Pending next where
  unnamed hopeful := by
    rw [hopeless] at hopeful
    cases hopeful
  unfinished := unfinished

theorem of_returned {next : DoorbellVisit} {result : Except DoorbellError DoorbellOutcome}
    (isStage : next.house.stage = .ended result) : Pending next := by
  apply of_hopeless
  · rw [isStage]
    rfl
  · rw [isStage]
    exact nofun

theorem of_relayed {next : DoorbellVisit} {running : Running} {watch : RelayWatch}
    (isStage : next.house.stage = .looping running (.relayed watch))
    (unfinished : Unfinished next.recorder) : Pending next := by
  apply of_hopeless
  · rw [isStage]
    rfl
  · exact fun _ => unfinished

theorem exchanges (unnamed : visit.giveUpReason = none) (unfinished : Unfinished visit.recorder)
    (read : Option Exchanged) (clocks : Clocks) : (visit.exchanges read clocks).Pending := by
  unfold DoorbellVisit.exchanges
  simp only
  split
  · next isStage => exact of_relayed isStage unfinished
  · next isStage => exact of_returned isStage
  · exact ⟨fun _ => unnamed, fun _ => unfinished⟩

theorem signalled (unnamed : visit.giveUpReason = none) (unfinished : Unfinished visit.recorder)
    (clocks : Clocks) : (visit.signalled clocks).Pending := by
  unfold DoorbellVisit.signalled
  split
  · next isStage => exact of_relayed isStage unfinished
  · next isStage => exact of_returned isStage
  · exact ⟨fun _ => unnamed, fun _ => unfinished⟩

theorem losesPath (pending : visit.Pending) (clocks : Clocks) :
    (visit.losesPath clocks).Pending := by
  unfold DoorbellVisit.losesPath
  split
  · next isStage => exact of_returned isStage
  · exact pending

theorem givesUp (hopeless : visit.house.stage.hopeful = false)
    (returned : visit.house.held = false → visit.house.stage.returned = true)
    (unfinished : Unfinished visit.recorder) (clocks : Clocks) :
    (visit.givesUp clocks).Pending := by
  unfold DoorbellVisit.givesUp
  simp only
  split
  · exact of_hopeless hopeless fun _ => unfinished.countsGivenUp clocks
  · next notHeld =>
      rw [Bool.not_eq_true] at notHeld
      apply of_hopeless
      · exact hopeless
      · intro going
        exact absurd ((returned notHeld).symm.trans going) (by decide)

/-- The turn of the phase. -/
theorem turns (pending : visit.Pending) (crypto : Crypto) (givenUp : Bool) (tx : TxId) (now : Nat)
    (sent failed : Bool) (clocks : Clocks) :
    (visit.act crypto (.turns givenUp tx now sent failed) clocks).Pending := by
  have turned : (visit.house.act crypto (.turns givenUp tx now sent failed)).1 =
      (visit.house.turns givenUp tx now sent failed).1 := rfl
  unfold DoorbellVisit.act
  simp only
  rw [turned]
  split
  · next running isStage =>
      have unfinished := pending.unfinished_of isStage rfl
      simp only [Doorbell.turns, isStage]
      split
      · next both =>
          rw [Bool.and_eq_true] at both
          simp only [both.1, if_true]
          apply givesUp
          · split
            · rfl
            · rfl
          · intro notHeld
            have isHeld : visit.house.held = false := by
              split at notHeld
              · exact notHeld
              · exact notHeld
            rw [isHeld]
            rfl
          · exact unfinished
      · exact pending
  · next running watch isStage =>
      simp only [Doorbell.turns, isStage]
      apply losesPath
      apply of_hopeless
      · exact Doorbell.hopeful_watches _ _ _ _ _ _
      · exact fun _ => pending.unfinished_of isStage rfl
  · next running watch isStage =>
      have unfinished := pending.unfinished_of isStage rfl
      simp only [Doorbell.turns, isStage]
      have hopeless := visit.house.hopeful_relayWatches running watch tx now sent
      split
      · apply losesPath
        exact of_hopeless hopeless fun _ => unfinished
      · exact of_hopeless hopeless fun _ => unfinished
  · exact pending

theorem reads (pending : visit.Pending) (crypto : Crypto) (now : Nat) (clocks : Clocks) :
    (visit.act crypto (.reads now) clocks).Pending := by
  have read : (visit.house.act crypto (.reads now)).1 = visit.house.reads now := rfl
  have stays : Pending { visit with house := visit.house.reads now } := by
    rcases visit.house.stage_reads now with same | ⟨hopeless, going⟩
    · constructor
      · show (visit.house.reads now).stage.hopeful = true → _
        rw [same]
        exact pending.unnamed
      · show (visit.house.reads now).stage.returned = false → _
        rw [same]
        exact pending.unfinished
    · exact of_hopeless hopeless fun _ => pending.unfinished going
  unfold DoorbellVisit.act
  simp only
  rw [read]
  split
  · next running phase v reason rest isStage isFrames =>
      have ended : (visit.house.reads now).stage = .ended (.ok visit.house.outcome) := by
        unfold Doorbell.reads
        rw [isStage, isFrames]
        rfl
      exact of_returned ended
  · exact losesPath stays clocks
  · exact stays

theorem act (pending : visit.Pending) (crypto : Crypto) (action : DoorbellAction)
    (clocks : Clocks) : (visit.act crypto action clocks).Pending := by
  cases action with
  | turns givenUp tx now sent failed => exact pending.turns crypto givenUp tx now sent failed clocks
  | reads now => exact pending.reads crypto now clocks
  | begins attempt half candidates now failed =>
      unfold DoorbellVisit.act
      simp only
      split
      · next adopted isStage =>
          apply exchanges
          · rfl
          · exact pending.unfinished_of isStage rfl
      · exact pending
  | expects now failed =>
      unfold DoorbellVisit.act
      simp only
      split
      · next offer isStage =>
          apply exchanges
          · exact pending.unnamed_of isStage rfl
          · exact pending.unfinished_of isStage rfl
      · exact pending
  | timesOut =>
      unfold DoorbellVisit.act
      simp only
      split
      · next offer isStage =>
          apply exchanges
          · exact pending.unnamed_of isStage rfl
          · exact pending.unfinished_of isStage rfl
      · exact pending
  | startRequested now failed =>
      unfold DoorbellVisit.act
      simp only
      split
      · next running isStage =>
          apply signalled
          · exact pending.unnamed_of isStage rfl
          · exact pending.unfinished_of isStage rfl
      · exact pending
  | startAwaited now failed =>
      unfold DoorbellVisit.act
      simp only
      split
      · next running isStage =>
          have unnamed := pending.unnamed_of isStage rfl
          have unfinished := pending.unfinished_of isStage rfl
          split
          · apply signalled
            · exact unnamed
            · exact unfinished
          · exact ⟨fun _ => unnamed, fun _ => unfinished⟩
      · exact pending
  | leaves now failed =>
      unfold DoorbellVisit.act
      simp only
      split
      · next running phase isStage =>
          split
          · next leaving =>
              have ended : (visit.house.act crypto (.leaves now failed)).1.stage =
                  .ended (.ok visit.house.outcome) := by
                unfold Doorbell.act
                simp only
                rw [isStage]
                simp only
                unfold Doorbell.leaves
                rw [if_pos leaving]
                rfl
              exact of_returned ended
          · exact pending
      · exact pending
  | pongs source tx arrived =>
      unfold DoorbellVisit.act
      simp only
      split
      · next running watch isStage =>
          have moved : Pending { visit with house := visit.house.pongs source tx arrived } := by
            apply of_hopeless
            · apply Doorbell.hopeful_pongs
              rw [isStage]
              rfl
            · exact fun _ => pending.unfinished_of isStage rfl
          split
          · exact ⟨moved.unnamed, moved.unfinished⟩
          · exact moved
      · next running watch isStage =>
          apply of_hopeless
          · apply Doorbell.hopeful_pongs
            rw [isStage]
            rfl
          · exact fun _ => pending.unfinished_of isStage rfl
      · exact pending
  | wins addr rtt now failed =>
      unfold DoorbellVisit.act
      simp only
      split
      · next running isStage =>
          split
          · apply of_hopeless
            · show (visit.house.wins addr rtt now failed).1.stage.hopeful = false
              unfold Doorbell.wins
              rw [isStage]
              cases failed with
              | true => rfl
              | false => rfl
            · exact fun _ => pending.unfinished_of isStage rfl
          · exact pending
      · exact pending
  | closes =>
      unfold DoorbellVisit.act
      simp only
      split
      · next running phase isStage =>
          have ended : (visit.house.act crypto .closes).1.stage =
              .ended (.ok visit.house.outcome) := by
            unfold Doorbell.act
            simp only
            rw [isStage]
            rfl
          exact of_returned ended
      · exact pending
  | stops => exact ⟨pending.unnamed, pending.unfinished⟩

theorem step (pending : visit.Pending) (crypto : Crypto) (next : VisitAction) :
    (visit.step crypto next).Pending := by
  cases next with
  | acts action clocks => exact pending.act crypto action clocks
  | arrives frame =>
      have same : (visit.house.arrives frame).stage = visit.house.stage := by
        unfold Doorbell.arrives
        split
        · rfl
        · rfl
      constructor
      · show (visit.house.arrives frame).stage.hopeful = true → _
        rw [same]
        exact pending.unnamed
      · show (visit.house.arrives frame).stage.returned = false → _
        rw [same]
        exact pending.unfinished
  | probes now txIds =>
      unfold DoorbellVisit.step
      simp only
      split
      · exact ⟨pending.unnamed, pending.unfinished⟩
      · exact pending
  | answers source pong now =>
      unfold DoorbellVisit.step
      simp only
      split
      · exact ⟨pending.unnamed, pending.unfinished⟩
      · exact pending
  | observes call =>
      have called : Pending { visit with
          recorder := visit.recorder.map fun recorder => recorder.call call } :=
        ⟨pending.unnamed, fun going => (pending.unfinished going).call call⟩
      cases call with
      | setRelayStats stats => exact pending
      | _ => exact called
  | carries stats => exact ⟨pending.unnamed, pending.unfinished⟩
  | measures rtt => exact ⟨pending.unnamed, pending.unfinished⟩

end Pending

/-- The reason a visit that still probes is recorded with, whatever it has observed by then, does
not depend on the exit exactly when the recorder says of the relay what its counters say, where
the reason turns on it. -/
theorem reasonAgrees_iff (crypto : Crypto) (params : DoorbellParams)
    (peerObserved : Option SocketAddr) (peerDiscovered : List SocketAddr) (synthetic : SocketAddr)
    (path : Option PathEntry) (peer : Option PeerFingerprint) (startedAtMs : UInt64)
    (version platform : String) (stats : ShaperStats) (started : Nat)
    (actions : List VisitAction) :
    let recorder := peer.map fun peer => Recorder.new peer startedAtMs version platform
    let visit := run (step crypto)
      (new params peerObserved peerDiscovered synthetic path recorder stats started) actions
    visit.StillProbing → (visit.ReasonAgrees ↔ visit.RelayTold) := by
  intro recorder visit probing
  have initial : (new params peerObserved peerDiscovered synthetic path recorder stats
      started).Pending := by
    apply Pending.of_hopeless
    · rfl
    · intro _ told isTold
      obtain ⟨fingerprint, -, isNew⟩ := Option.map_eq_some_iff.mp isTold
      rw [← isNew]
      rfl
  have pending : visit.Pending :=
    run_always (fun _ next pending => pending.step crypto next) initial actions
  obtain ⟨running, isStage⟩ := probing.phase
  have unnamed := pending.unnamed_of isStage rfl
  have unfinished := pending.unfinished_of isStage rfl
  rw [← countedReason_iff visit]
  constructor
  · intro agrees
    have left := agrees.left ⟨0, 0, 0⟩ ⟨0, 0, 0⟩
    rw [recorded_leaves probing unnamed unfinished] at left
    exact left.trans (recorded_exit_givesUp probing unfinished ⟨0, 0, 0⟩ _ _)
  · intro same
    constructor
    · intro gaveUp atEnd
      rw [recorded_leaves probing unnamed unfinished, same]
      exact (recorded_exit_givesUp probing unfinished gaveUp _ _).symm
    · intro held gaveUp atEnd
      rw [recorded_closes probing unnamed unfinished held, same]
      have stillHeld : (visit.givesUp gaveUp).house.held = true := by
        unfold givesUp
        rw [held]
        exact held
      have exits := recorded_exit_givesUp probing unfinished gaveUp
        (.step .closed .ok "the peer connection closed" atEnd.atMs) atEnd.endedMs
      unfold closes
      simp only [stillHeld, Bool.true_or, if_true]
      exact exits.symm

/-! ### A visit behind one address -/

/-- An address the gate saw, of a network both houses are in. -/
def seenAt (port : UInt16) : Addr :=
  .fromSocketAddr ⟨.newV4 203 0 113 9, port⟩

/-- A visit that is held, and whose houses share an IP. -/
def besidePeer : DoorbellVisit :=
  new ⟨2, .untilPeerLeaves, false⟩ none [] ⟨.v6 (List.Vector.replicate 16 0xfd), 1⟩
    (some ⟨.relay, none, 0⟩) (some (Recorder.new ⟨List.Vector.replicate 4 7⟩ 0 "" ""))
    ⟨0, 0, 0, 0, 0, 0⟩ 0

/-- The relay has carried a datagram when this house is asked to stop, and no candidate has
answered yet. -/
def stopsProbing : List VisitAction :=
  let clocks : Clocks := ⟨0, 0, 0⟩
  [.observes (.setLocalObservedPrimary (seenAt 4000)), .observes (.setPeerObserved (seenAt 4001)),
    .acts (.begins (List.Vector.replicate 16 0) (List.Vector.replicate 32 0) [] 0 false) clocks,
    .arrives (some (.candidates 1 (List.Vector.replicate 16 1) [seenAt 4433]
      (List.Vector.replicate 32 0) false)),
    .acts (.expects 1 false) clocks, .acts (.startAwaited 2 false) clocks,
    .carries ⟨1, 1200, 0, 0, 0, 0⟩, .acts .stops clocks]

theorem stillProbing_stopsProbing :
    StillProbing (run (step Doorbell.tailCrypto) besidePeer stopsProbing) where
  phase := ⟨_, rfl⟩
  notUpgraded := rfl
  punching := rfl
  alive := rfl

theorem reasonAgrees_stopsProbing :
    ReasonAgrees (run (step Doorbell.tailCrypto) besidePeer stopsProbing) ↔
      RelayTold (run (step Doorbell.tailCrypto) besidePeer stopsProbing) :=
  reasonAgrees_iff Doorbell.tailCrypto ⟨2, .untilPeerLeaves, false⟩ none [] _ _
    (some ⟨List.Vector.replicate 4 7⟩) 0 "" "" _ 0 stopsProbing stillProbing_stopsProbing

/-- The give-up branch names the hairpin, the exit a timeout. -/
theorem stop_hides_hairpin :
    ¬(StillProbing (run (step Doorbell.tailCrypto) besidePeer stopsProbing) →
      ReasonAgrees (run (step Doorbell.tailCrypto) besidePeer stopsProbing)) := by
  intro all
  have left := (all stillProbing_stopsProbing).left ⟨0, 0, 0⟩ ⟨0, 0, 0⟩
  have hidden : ((run (step Doorbell.tailCrypto) besidePeer stopsProbing).leaves
      ⟨0, 0, 0⟩).recorded = some .probeTimeout := by rfl
  have named : (((run (step Doorbell.tailCrypto) besidePeer stopsProbing).givesUp
      ⟨0, 0, 0⟩).leaves ⟨0, 0, 0⟩).recorded = some .hairpinFailure := by rfl
  rw [hidden, named] at left
  cases left

end DoorbellVisit

end Mosschat.Net
