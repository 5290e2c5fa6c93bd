import Mosschat.Library.Machine
import Mosschat.Net.Diag
import Mosschat.Net.Path

/-!
Owns the recorder of `diag.rs`: what one attempt has written down of itself so far, the reason it
infers for a probe burst that answered nothing, and the one record it closes with.

Does not own the clock, of which a call brings the milliseconds since the attempt began, nor the
sink the record goes to.
-/

namespace Mosschat.Net.Diag

open Mosschat.Core Mosschat.Library.Machine Mosschat.Net.Gate

/-- `MAX_RECORD_ENTRIES`. -/
def maxRecordEntries : Nat := 512

/-- `TRUNCATION_MARKER`. -/
def truncationMarker : String := "further entries dropped"

/-- `ShaperStats`, of `path.rs`. -/
structure ShaperStats where
  relayQueued : UInt64
  relayBytes : UInt64
  relayShapedDelayP50Us : UInt64
  relayShapedDelayMaxUs : UInt64
  relayDroppedAtFull : UInt64
  relaySocketBackpressure : UInt64
deriving DecidableEq

/-- `infer_mapping`. -/
def inferMapping : Option Addr → Option Addr → Mapping
  | some first, some second =>
    if first.bytes = second.bytes ∧ first.port = second.port then .endpointIndependent
    else .endpointDependent
  | _, _ => .unknown

/-- Both addresses were seen, and they share an IP. -/
def sharesIp : Option Addr → Option Addr → Bool
  | some localAddr, some peerAddr => localAddr.bytes == peerAddr.bytes
  | _, _ => false

/-- `probe_failure_reason`. -/
def probeFailureReason (localObserved peerObserved : Option Addr) (mapping : Mapping)
    (relayCarriedTraffic : Bool) : Reason :=
  if mapping = .endpointDependent then .endpointDependentMapping
  else if sharesIp localObserved peerObserved && relayCarriedTraffic then .hairpinFailure
  else .probeTimeout

/-- An entry joins a list that is not full, and the first one too many leaves the marker. -/
def pushBounded {α : Type} (entries : List α) (entry marker : α) : List α :=
  if entries.length < maxRecordEntries then entries ++ [entry]
  else if entries.length = maxRecordEntries then entries ++ [marker]
  else entries

/-- `RecorderState`. -/
structure RecorderState where
  attempt : Bytes16
  session : UInt32
  gateMs : UInt64
  steps : List StepRecord
  events : List VisitEvent
  failedStep : Option Step
  localObserved : Option Addr × Option Addr
  peerObserved : Option Addr
  mapping : Option Mapping
  reasonHint : Option Reason
  gateCarriedTraffic : Bool
  gateBytes : UInt64
  relayQueued : UInt64
  relayShapedDelayP50Us : UInt64
  relayShapedDelayMaxUs : UInt64
  relayDroppedAtFull : UInt64
  path : PathChoice
  pathRttUs : UInt32
  rttMedianUs : UInt32
  rttP95Us : UInt32
  rttSamples : UInt32
  rttSource : RttSource
  finished : Option DiagRecord
deriving DecidableEq

/-- `RecorderInner` without its sink: whom the attempt is against and when it began, the version
and the platform of the house, and the state. -/
structure Recorder where
  peer : PeerFingerprint
  startedAtMs : UInt64
  version : String
  platform : String
  state : RecorderState
deriving DecidableEq

/-- What is written into a recorder that is not closed. A step and an event bring the time they
are recorded at. -/
inductive RecorderCall where
  | step (step : Step) (outcome : StepOutcome) (detail : String) (atMs : UInt64)
  | event (event : VisitEventKind) (detail : String) (atMs : UInt64)
  | setRtt (medianUs p95Us samples : UInt32) (source : RttSource)
  | setAttempt (attempt : Bytes16)
  | setSession (session : UInt32)
  | setGateMs (gateMs : UInt64)
  | setLocalObservedPrimary (addr : Addr)
  | setLocalObservedSecondary (addr : Addr)
  | setPeerObserved (addr : Addr)
  | setPath (path : PathChoice) (rttUs : UInt32)
  | setRelayStats (stats : ShaperStats)
  | setReasonHint (reason : Reason)
  | setMapping (mapping : Mapping)

namespace RecorderState

/-- The state of `Recorder::new`. -/
def new : RecorderState where
  attempt := List.Vector.replicate 16 0
  session := 0
  gateMs := 0
  steps := []
  events := []
  failedStep := none
  localObserved := (none, none)
  peerObserved := none
  mapping := none
  reasonHint := none
  gateCarriedTraffic := false
  gateBytes := 0
  relayQueued := 0
  relayShapedDelayP50Us := 0
  relayShapedDelayMaxUs := 0
  relayDroppedAtFull := 0
  path := .relay ⟨0, List.Vector.replicate 16 0, 0⟩
  pathRttUs := 0
  rttMedianUs := 0
  rttP95Us := 0
  rttSamples := 0
  rttSource := .notSampled
  finished := none

/-- `Recorder::step`. -/
def step (state : RecorderState) (step : Step) (outcome : StepOutcome) (detail : String)
    (atMs : UInt64) : RecorderState :=
  { state with
    failedStep :=
      if outcome = .fail ∧ state.failedStep.isNone then some step else state.failedStep
    steps := pushBounded state.steps ⟨step, atMs, outcome, detail⟩
      ⟨step, atMs, outcome, truncationMarker ++ " (at " ++ toString maxRecordEntries ++ " steps)"⟩ }

/-- `Recorder::event`. -/
def event (state : RecorderState) (event : VisitEventKind) (detail : String) (atMs : UInt64) :
    RecorderState :=
  { state with
    events := pushBounded state.events ⟨event, atMs, detail⟩
      ⟨event, atMs, truncationMarker ++ " (at " ++ toString maxRecordEntries ++ " events)"⟩ }

/-- `Recorder::set_relay_stats`. -/
def setRelayStats (state : RecorderState) (stats : ShaperStats) : RecorderState :=
  { state with
    gateCarriedTraffic := decide (0 < stats.relayQueued)
    gateBytes := stats.relayBytes
    relayQueued := stats.relayQueued
    relayShapedDelayP50Us := stats.relayShapedDelayP50Us
    relayShapedDelayMaxUs := stats.relayShapedDelayMaxUs
    relayDroppedAtFull := stats.relayDroppedAtFull }

/-- The mapping that was set, or else what the two reflections say. -/
def inferredMapping (state : RecorderState) : Mapping :=
  state.mapping.getD (inferMapping state.localObserved.1 state.localObserved.2)

/-- `Recorder::probe_failure_reason`. -/
def probeFailureReason (state : RecorderState) : Reason :=
  Diag.probeFailureReason state.localObserved.1 state.peerObserved state.inferredMapping
    state.gateCarriedTraffic

/-- A call of the recorder. -/
def call (state : RecorderState) : RecorderCall → RecorderState
  | .step step outcome detail atMs => state.step step outcome detail atMs
  | .event event detail atMs => state.event event detail atMs
  | .setRtt medianUs p95Us samples source =>
    { state with
      rttMedianUs := medianUs, rttP95Us := p95Us, rttSamples := samples, rttSource := source }
  | .setAttempt attempt => { state with attempt := attempt }
  | .setSession session => { state with session := session }
  | .setGateMs gateMs => { state with gateMs := gateMs }
  | .setLocalObservedPrimary addr =>
    { state with localObserved := (some addr, state.localObserved.2) }
  | .setLocalObservedSecondary addr =>
    { state with localObserved := (state.localObserved.1, some addr) }
  | .setPeerObserved addr => { state with peerObserved := some addr }
  | .setPath path rttUs => { state with path := path, pathRttUs := rttUs }
  | .setRelayStats stats => state.setRelayStats stats
  | .setReasonHint reason => { state with reasonHint := some reason }
  | .setMapping mapping => { state with mapping := some mapping }

end RecorderState

namespace Recorder

/-- `Recorder::new`. -/
def new (peer : PeerFingerprint) (startedAtMs : UInt64) (version platform : String) :
    Recorder where
  peer := peer
  startedAtMs := startedAtMs
  version := version
  platform := platform
  state := .new

def call (recorder : Recorder) (next : RecorderCall) : Recorder :=
  { recorder with state := recorder.state.call next }

/-- `Recorder::snapshot`. -/
def snapshot (recorder : Recorder) (reason : Reason) (elapsedMs : UInt64) : DiagRecord :=
  let state := recorder.state
  let unset : Addr := ⟨0, List.Vector.replicate 16 0, 0⟩
  { attempt := state.attempt
    session := state.session
    gateMs := state.gateMs
    peer := recorder.peer
    startedAtMs := recorder.startedAtMs
    endedAtMs := saturatingAddU64 recorder.startedAtMs elapsedMs
    steps := state.steps
    events := state.events
    failedStep := state.failedStep
    localObserved := (state.localObserved.1.getD unset, state.localObserved.2.getD unset)
    peerObserved := state.peerObserved.getD unset
    mapping := state.inferredMapping
    gateCarriedTraffic := state.gateCarriedTraffic
    gateBytes := state.gateBytes
    relayQueued := state.relayQueued
    relayShapedDelayP50Us := state.relayShapedDelayP50Us
    relayShapedDelayMaxUs := state.relayShapedDelayMaxUs
    relayDroppedAtFull := state.relayDroppedAtFull
    path := state.path
    pathRttUs := state.pathRttUs
    rttMedianUs := state.rttMedianUs
    rttP95Us := state.rttP95Us
    rttSamples := state.rttSamples
    rttSource := state.rttSource
    reason := reason
    version := recorder.version
    platform := recorder.platform }

/-- `Recorder::finish`, and the record it returns. -/
def finish (recorder : Recorder) (reason : Reason) (elapsedMs : UInt64) :
    Recorder × DiagRecord :=
  match recorder.state.finished with
  | some already => (recorder, already)
  | none =>
    let record := recorder.snapshot reason elapsedMs
    ({ recorder with state := { recorder.state with finished := some record } }, record)

/-- The reason the attempt was closed with. -/
def recorded (recorder : Recorder) : Option Reason :=
  recorder.state.finished.map DiagRecord.reason

end Recorder

/-- `record`, with a recorder or without. -/
def record (recorder : Option Recorder) (step : Step) (outcome : StepOutcome) (detail : String)
    (atMs : UInt64) : Option Recorder :=
  recorder.map fun recorder => recorder.call (.step step outcome detail atMs)

/-! ## What the calls leave alone -/

namespace RecorderState

theorem finished_call (state : RecorderState) (next : RecorderCall) :
    (state.call next).finished = state.finished := by
  cases next with
  | _ => rfl

end RecorderState

namespace Recorder

theorem recorded_finish {recorder : Recorder} (isOpen : recorder.state.finished = none)
    (reason : Reason) (elapsedMs : UInt64) :
    (recorder.finish reason elapsedMs).1.recorded = some reason := by
  unfold finish
  rw [isOpen]
  rfl

end Recorder

end Mosschat.Net.Diag
