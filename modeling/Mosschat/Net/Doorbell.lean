import Mosschat.Net.Gate.Wire
import Mosschat.Net.Liveness

/-!
Owns the doorbell of `punch.rs` as one house runs it: the frames of the porch stream, the
phases of an attempt, the path its peer's traffic leaves on, and `run_doorbell` from one wait
to the next.

Does not own the candidates of an attempt, of which it takes the winner or that all are given
up, nor what a visit records.
-/

namespace Mosschat.Net

open Mosschat.Core Mosschat.Net.Gate

/-! ## The path -/

/-- `PathKind`. -/
inductive PathKind where
  | relay
  | direct (addr : SocketAddr)
deriving DecidableEq

/-- `PathEntry`: where a peer's traffic leaves to, without its egress queue. -/
structure PathEntry where
  kind : PathKind
  srtt : Option Nat
  epoch : UInt64
deriving DecidableEq

namespace PathEntry

/-- `PathEntry::direct_addr`. -/
def directAddr (entry : PathEntry) : Option SocketAddr :=
  match entry.kind with
  | .relay => none
  | .direct addr => some addr

/-- `PathEntry::upgrade_to`. -/
def upgradeTo (entry : PathEntry) (addr : SocketAddr) : PathEntry × Bool :=
  if entry.kind = .direct addr then (entry, false)
  else (⟨.direct addr, none, entry.epoch + 1⟩, true)

/-- `PathEntry::fall_back_to_relay`. -/
def fallBackToRelay (entry : PathEntry) : PathEntry × Option SocketAddr :=
  match entry.kind with
  | .relay => (entry, none)
  | .direct addr => (⟨.relay, none, entry.epoch + 1⟩, some addr)

/-- `PathEntry::record_rtt`. -/
def recordRtt (entry : PathEntry) (sample : Nat) : PathEntry :=
  { entry with
    srtt := some (match entry.srtt with
      | none => sample
      | some previous => (previous * 7 + sample) / 8) }

@[simp] theorem kind_upgradeTo (entry : PathEntry) (addr : SocketAddr) :
    (entry.upgradeTo addr).1.kind = .direct addr := by
  unfold upgradeTo
  split
  · next same => exact same
  · rfl

@[simp] theorem kind_fallBackToRelay (entry : PathEntry) :
    entry.fallBackToRelay.1.kind = .relay := by
  unfold fallBackToRelay
  split
  · next isRelay => exact isRelay
  · rfl

@[simp] theorem kind_recordRtt (entry : PathEntry) (sample : Nat) :
    (entry.recordRtt sample).kind = entry.kind := rfl

end PathEntry

/-! ## The porch stream -/

/-- `PorchFrame`. -/
inductive PorchFrame where
  | candidates (v : UInt8) (attempt : Bytes16) (addrs : List Addr) (probeHalf : Bytes32)
      (noUpgrade : Bool)
  | pathUp (v : UInt8) (attempt : Bytes16) (addr : Addr) (rttUs : UInt32)
  | pathDown (v : UInt8) (attempt : Bytes16) (addr : Addr) (reason : UInt8)
  | goodbye (v : UInt8) (reason : UInt8)
deriving DecidableEq

/-- `PORCH_FRAME_QUEUE`. -/
def porchFrameQueue : Nat := 16

/-- The wait between two turns of the loop, at most. -/
def doorbellTick : Nat := fromMillis 20

/-- `GOODBYE_VISIT_OVER`. -/
def goodbyeVisitOver : UInt8 := 0

/-- `probe_key`. -/
def probeKey (crypto : Crypto) (attempt : Bytes16) (halfInitiator halfResponder : Bytes32) :
    Bytes32 :=
  crypto.blake3 ("mosschat-probe-v1".toUTF8.toList ++ attempt.toList ++ halfInitiator.toList ++
    halfResponder.toList)

/-! ## The phases -/

/-- `Watch`. -/
structure Watch where
  addr : SocketAddr
  liveness : PeerLiveness
  outstanding : Option (List.Vector UInt8 8)
  sentAt : Option Nat
deriving DecidableEq

/-- `RelayWatch`. -/
structure RelayWatch where
  addr : SocketAddr
  liveness : PeerLiveness
  outstanding : Option (List.Vector UInt8 8)
  sentAt : Option Nat
  deadSince : Option Nat
  lastDeadProbe : Option Nat
deriving DecidableEq

namespace RelayWatch

/-- `RelayWatch::new`. -/
def new (addr : SocketAddr) (now : Nat) : RelayWatch where
  addr := addr
  liveness := (PeerLiveness.new now).setActivity .visit
  outstanding := none
  sentAt := none
  deadSince := none
  lastDeadProbe := none

/-- `RelayWatch::due_probe`. -/
def dueProbe (watch : RelayWatch) (now : Nat) : RelayWatch × Bool :=
  if watch.deadSince.isNone then
    let (liveness, due) := watch.liveness.dueProbe now
    ({ watch with liveness := liveness }, due)
  else if watch.lastDeadProbe.any fun last => now - last < deadProbeInterval then (watch, false)
  else ({ watch with lastDeadProbe := some now }, true)

/-- `RelayWatch::probe_not_sent`. -/
def probeNotSent (watch : RelayWatch) (sentAt : Nat) : RelayWatch :=
  if watch.deadSince.isNone then
    { watch with
      liveness := watch.liveness.probeNotSent sentAt, outstanding := none, sentAt := none }
  else { watch with lastDeadProbe := none, outstanding := none, sentAt := none }

end RelayWatch

/-- `Phase`. -/
inductive Phase where
  | probing
  | watching (watch : Watch)
  | relayed (watch : RelayWatch)
deriving DecidableEq

/-! ## One house -/

/-- `Hold`. -/
inductive Hold where
  | untilAttemptSettles
  | forDuration (duration : Nat)
  | untilPeerLeaves
deriving DecidableEq

def maxHold : Nat := fromSecs 86400

/-- `DoorbellParams`, as far as the turns of `run_doorbell` read them. -/
structure DoorbellParams where
  role : UInt8
  hold : Hold
  noPunch : Bool
deriving DecidableEq

/-- `DoorbellOutcome`. -/
structure DoorbellOutcome where
  attempt : Bytes16
  upgradedTo : Option SocketAddr
  fellBack : Bool
deriving DecidableEq

/-- How `run_doorbell` fails. -/
inductive DoorbellError where
  /-- `GateError::Protocol`, of `expect_candidates` and `exchange_candidates`. -/
  | protocol
  /-- `GateError::Timeout`, of `expect_candidates`. -/
  | timeout
  /-- What the stream, the connection or the gate failed with. -/
  | failed
deriving DecidableEq

/-- `Exchanged`. -/
structure Exchanged where
  attempt : Bytes16
  peerAddrs : List Addr
  peerHalf : Bytes32
  peerNoUpgrade : Bool
deriving DecidableEq

/-- What a house goes into an exchange with. The attempt is the initiator's own. -/
structure Offer where
  attempt : Bytes16
  half : Bytes32
  candidates : List SocketAddr
deriving DecidableEq

/-- The attempt that is under way, and the probe key it is armed with. -/
structure Running where
  attempt : Bytes16
  key : Bytes32
deriving DecidableEq

/-- Where `run_doorbell` is. -/
inductive DoorbellStage where
  /-- At the top of `'attempts`, with the frame that started the rerun. -/
  | attempting (adopted : Option Exchanged)
  /-- In `expect_candidates`. -/
  | exchanging (offer : Offer)
  /-- In `request_start`. -/
  | requesting (running : Running)
  /-- In `await_start`. -/
  | awaiting (running : Running)
  | looping (running : Running) (phase : Phase)
  | ended (result : Except DoorbellError DoorbellOutcome)

/-- One `run_doorbell`, once its porch stream is open. -/
structure Doorbell where
  params : DoorbellParams
  /-- The peer's address to quinn. -/
  synthetic : SocketAddr
  path : Option PathEntry
  /-- The queue of `read_porch_frames`; `none` is the error its stream ended with. -/
  frames : List (Option PorchFrame)
  /-- `read_porch_frames` runs. -/
  reading : Bool
  stage : DoorbellStage
  outcome : DoorbellOutcome
  holdUntil : Option Nat
  /-- `DoorbellControl::stopping`. -/
  stopping : Bool

/-- What happens to a house between two of its waits. A write that `failed` left nothing on
the stream. -/
inductive DoorbellAction where
  /-- The top of `'attempts`, which draws an attempt id and a half. -/
  | begins (attempt : Bytes16) (half : Bytes32) (candidates : List SocketAddr) (now : Nat)
      (failed : Bool)
  /-- `expect_candidates` looks at the queue. -/
  | expects (now : Nat) (failed : Bool)
  | timesOut
  | startRequested (now : Nat) (failed : Bool)
  | startAwaited (now : Nat) (failed : Bool)
  /-- The end of the visit, where it was asked to stop or the hold is over. -/
  | leaves (now : Nat) (failed : Bool)
  /-- The turn of the phase. -/
  | turns (givenUp : Bool) (tx : List.Vector UInt8 8) (now : Nat) (sent failed : Bool)
  /-- A pong of the attempt. -/
  | pongs (source : SocketAddr) (tx : List.Vector UInt8 8) (arrived : Nat)
  /-- A candidate has won. -/
  | wins (addr : SocketAddr) (rtt now : Nat) (failed : Bool)
  /-- The next of the peer's frames. -/
  | reads (now : Nat)
  /-- The peer's connection has closed. -/
  | closes
  /-- `DoorbellControl::stop`. -/
  | stops

namespace Doorbell

/-- `run_doorbell`, up to its first attempt. -/
def new (params : DoorbellParams) (synthetic : SocketAddr) (path : Option PathEntry)
    (started : Nat) : Doorbell where
  params := params
  synthetic := synthetic
  path := path
  frames := []
  reading := true
  stage := .attempting none
  outcome := ⟨List.Vector.replicate 16 0, none, false⟩
  holdUntil :=
    match params.hold with
    | .forDuration duration => some (started + min duration maxHold)
    | .untilAttemptSettles | .untilPeerLeaves => none
  stopping := false

def initiator (house : Doorbell) : Bool := house.params.role == 1

def held (house : Doorbell) : Bool := house.params.hold != .untilAttemptSettles

/-- What `read_porch_frames` does with a frame, or with the end of its stream. -/
def arrives (house : Doorbell) (frame : Option PorchFrame) : Doorbell :=
  if house.reading then
    { house with
      frames :=
        if house.frames.length < porchFrameQueue then house.frames ++ [frame] else house.frames
      reading := frame.isSome }
  else house

/-- `run_doorbell` returns. -/
def ends (house : Doorbell) (result : Except DoorbellError DoorbellOutcome) : Doorbell :=
  { house with stage := .ended result }

/-- `Phase::Relayed`, with a fresh watch. -/
def relays (house : Doorbell) (running : Running) (now : Nat) : Doorbell :=
  { house with stage := .looping running (.relayed (RelayWatch.new house.synthetic now)) }

/-- `path.fall_back_to_relay()`. -/
def fallsBack (house : Doorbell) : Doorbell :=
  { house with path := house.path.map fun entry => entry.fallBackToRelay.1 }

/-- The frame of `write_candidates`. -/
def offers (house : Doorbell) (attempt : Bytes16) (candidates : List SocketAddr)
    (half : Bytes32) : PorchFrame :=
  .candidates 1 attempt (candidates.map Addr.fromSocketAddr) half house.params.noPunch

/-- The attempt, from its exchange to the wait for a start signal. -/
def exchanged (crypto : Crypto) (house : Doorbell) (read : Exchanged) (half : Bytes32)
    (now : Nat) : Doorbell :=
  let key :=
    if house.initiator then probeKey crypto read.attempt half read.peerHalf
    else probeKey crypto read.attempt read.peerHalf half
  let running : Running := ⟨read.attempt, key⟩
  let house := { house with outcome := { house.outcome with attempt := read.attempt } }
  if house.params.noPunch || read.peerNoUpgrade then house.relays running now
  else if house.initiator then { house with stage := .requesting running }
  else { house with stage := .awaiting running }

/-- The house answers the exchange it has read, or `failed` to. -/
def answers (crypto : Crypto) (house : Doorbell) (read : Exchanged) (half : Bytes32)
    (candidates : List SocketAddr) (now : Nat) (failed : Bool) : Doorbell × List PorchFrame :=
  if failed then (house.ends (.error .failed), [])
  else (house.exchanged crypto read half now, [house.offers read.attempt candidates half])

/-- The top of `'attempts`. -/
def begins (crypto : Crypto) (house : Doorbell) (attempt : Bytes16) (half : Bytes32)
    (candidates : List SocketAddr) (now : Nat) (failed : Bool) : Doorbell × List PorchFrame :=
  match house.stage with
  | .attempting (some adopted) => house.answers crypto adopted half candidates now failed
  | .attempting none =>
    if house.initiator then
      if failed then (house.ends (.error .failed), [])
      else ({ house with stage := .exchanging ⟨attempt, half, candidates⟩ },
        [house.offers attempt candidates half])
    else ({ house with stage := .exchanging ⟨attempt, half, candidates⟩ }, [])
  | _ => (house, [])

/-- One look of `expect_candidates` at the queue, and what `exchange_candidates` makes of the
frame. -/
def expects (crypto : Crypto) (house : Doorbell) (now : Nat) (failed : Bool) :
    Doorbell × List PorchFrame :=
  match house.stage, house.frames with
  | .exchanging offer, some (.candidates _ attempt addrs probeHalf noUpgrade) :: rest =>
    let house := { house with frames := rest }
    let read : Exchanged := ⟨attempt, addrs, probeHalf, noUpgrade⟩
    if house.initiator then
      if attempt ≠ offer.attempt then (house.ends (.error .protocol), [])
      else (house.exchanged crypto read offer.half now, [])
    else house.answers crypto read offer.half offer.candidates now failed
  | .exchanging _, some _ :: rest => (ends { house with frames := rest } (.error .protocol), [])
  | .exchanging _, none :: rest => (ends { house with frames := rest } (.error .failed), [])
  | _, _ => (house, [])

/-- The gate has answered a wait of the attempt that is under way: `onward`, unless it
`failed`. -/
def signalled (house : Doorbell) (running : Running) (onward : DoorbellStage) (now : Nat)
    (failed : Bool) : Doorbell :=
  if failed then
    if house.held then house.relays running now else house.ends (.error .failed)
  else { house with stage := onward }

/-- The end of the visit. -/
def leaves (house : Doorbell) (now : Nat) (failed : Bool) : Doorbell × List PorchFrame :=
  if house.stopping || house.holdUntil.any fun last => last ≤ now then
    (house.ends (.ok house.outcome), if failed then [] else [.goodbye 1 goodbyeVisitOver])
  else (house, [])

/-- The turn of `Phase::Watching`. -/
def watches (house : Doorbell) (running : Running) (watch : Watch) (tx : List.Vector UInt8 8)
    (now : Nat) (failed : Bool) : Doorbell × List PorchFrame :=
  let (liveness, due) := watch.liveness.dueProbe now
  let watch :=
    if due then { watch with liveness := liveness, outstanding := some tx, sentAt := some now }
    else { watch with liveness := liveness }
  let (liveness, change) := watch.liveness.poll now
  let watched : Doorbell :=
    { house with stage := .looping running (.watching { watch with liveness := liveness }) }
  match change with
  | some .wentStale =>
    let left := watched.fallsBack
    let left := { left with outcome := { left.outcome with fellBack := true } }
    let written : List PorchFrame :=
      if failed then [] else [.pathDown 1 running.attempt (Addr.fromSocketAddr watch.addr) 16]
    if house.held then (left, written) else (left.ends (.ok left.outcome), written)
  | some .wentDead =>
    if house.held && house.initiator then ({ watched with stage := .attempting none }, [])
    else (watched.relays running now, [])
  | none => (watched, [])

/-- The turn of `Phase::Relayed`. -/
def relayWatches (house : Doorbell) (running : Running) (watch : RelayWatch)
    (tx : List.Vector UInt8 8) (now : Nat) (sent : Bool) : Doorbell :=
  let (watch, due) := watch.dueProbe now
  let watch :=
    if due then
      let probed := { watch with outstanding := some tx, sentAt := some now }
      if sent then probed else probed.probeNotSent now
    else watch
  let (liveness, change) := watch.liveness.poll now
  let watch := { watch with liveness := liveness }
  match change with
  | some .wentDead =>
    let dead := { watch with deadSince := some now, outstanding := none }
    let watched := { house with stage := .looping running (.relayed dead) }
    if house.held then watched else watched.ends (.ok house.outcome)
  | some .wentStale | none =>
    { house with stage := .looping running (.relayed watch) }

/-- The turn of the phase. -/
def turns (house : Doorbell) (givenUp : Bool) (tx : List.Vector UInt8 8) (now : Nat)
    (sent failed : Bool) : Doorbell × List PorchFrame :=
  match house.stage with
  | .looping running .probing =>
    if givenUp then
      if house.held then (house.relays running now, []) else (house.ends (.ok house.outcome), [])
    else (house, [])
  | .looping running (.watching watch) => house.watches running watch tx now failed
  | .looping running (.relayed watch) => (house.relayWatches running watch tx now sent, [])
  | _ => (house, [])

/-- A pong of the attempt, which while it probes is the candidates' own. -/
def pongs (house : Doorbell) (source : SocketAddr) (tx : List.Vector UInt8 8) (arrived : Nat) :
    Doorbell :=
  match house.stage with
  | .looping running (.watching watch) =>
    if source = watch.addr ∧ watch.outstanding = some tx then
      match watch.sentAt with
      | none =>
        { house with stage := .looping running (.watching { watch with outstanding := none }) }
      | some sent =>
        let sample := arrived - sent
        let answered : Watch :=
          { watch with
            liveness := (watch.liveness.onPong arrived sample).1
            outstanding := none }
        { house with
          path := house.path.map fun entry => entry.recordRtt sample
          stage := .looping running (.watching answered) }
    else house
  | .looping running (.relayed watch) =>
    if source = watch.addr ∧ watch.outstanding = some tx then
      let answered :=
        if watch.deadSince.isSome then RelayWatch.new watch.addr arrived
        else
          match watch.sentAt with
          | none => { watch with outstanding := none }
          | some sent =>
            { watch with
              liveness := (watch.liveness.onPong arrived (arrived - sent)).1
              outstanding := none }
      { house with stage := .looping running (.relayed answered) }
    else house
  | _ => house

/-- A candidate has won: the traffic moves to it. -/
def wins (house : Doorbell) (addr : SocketAddr) (rtt now : Nat) (failed : Bool) :
    Doorbell × List PorchFrame :=
  match house.stage with
  | .looping running .probing =>
    let liveness := ((PeerLiveness.new now).withSrtt rtt).setActivity .visit
    let upgraded : Doorbell :=
      { house with
        path := house.path.map fun entry => (entry.upgradeTo addr).1.recordRtt rtt
        outcome := { house.outcome with upgradedTo := some addr }
        stage := .looping running (.watching ⟨addr, liveness, none, none⟩) }
    let rttUs := UInt32.ofNat (min (rtt / 1000) (2 ^ 32 - 1))
    if failed then (upgraded.ends (.error .failed), [])
    else (upgraded, [.pathUp 1 running.attempt (Addr.fromSocketAddr addr) rttUs])
  | _ => (house, [])

/-- The peer left the path of this attempt. -/
def pathDown (house : Doorbell) (running : Running) (now : Nat) : Doorbell :=
  let dropped := (house.path.bind fun entry => entry.fallBackToRelay.2).isSome
  let left := house.fallsBack
  let left :=
    if dropped then { left with outcome := { left.outcome with fellBack := true } } else left
  if house.held then
    if house.initiator then { left with stage := .attempting none } else left.relays running now
  else left.ends (.ok left.outcome)

/-- The next of the peer's frames, in the loop. -/
def reads (house : Doorbell) (now : Nat) : Doorbell :=
  match house.stage, house.frames with
  | .looping running _, frame :: rest =>
    let house := { house with frames := rest }
    match frame with
    | some (.goodbye _ _) => house.ends (.ok house.outcome)
    | some (.candidates _ attempt addrs probeHalf noUpgrade) =>
      if attempt ≠ running.attempt then
        { house with stage := .attempting (some ⟨attempt, addrs, probeHalf, noUpgrade⟩) }
      else house
    | some (.pathDown _ attempt _ _) =>
      if attempt = running.attempt then house.pathDown running now else house
    | some (.pathUp _ _ _ _) | none => house
  | _, _ => house

/-- What an action leaves, and the frames it writes. -/
def act (crypto : Crypto) (house : Doorbell) : DoorbellAction → Doorbell × List PorchFrame
  | .begins attempt half candidates now failed =>
    house.begins crypto attempt half candidates now failed
  | .expects now failed => house.expects crypto now failed
  | .timesOut =>
    match house.stage with
    | .exchanging _ => (house.ends (.error .timeout), [])
    | _ => (house, [])
  | .startRequested now failed =>
    match house.stage with
    | .requesting running => (house.signalled running (.awaiting running) now failed, [])
    | _ => (house, [])
  | .startAwaited now failed =>
    match house.stage with
    | .awaiting running => (house.signalled running (.looping running .probing) now failed, [])
    | _ => (house, [])
  | .leaves now failed =>
    match house.stage with
    | .looping _ _ => house.leaves now failed
    | _ => (house, [])
  | .turns givenUp tx now sent failed => house.turns givenUp tx now sent failed
  | .pongs source tx arrived => (house.pongs source tx arrived, [])
  | .wins addr rtt now failed => house.wins addr rtt now failed
  | .reads now => (house.reads now, [])
  | .closes =>
    match house.stage with
    | .looping _ _ => (house.ends (.ok house.outcome), [])
    | _ => (house, [])
  | .stops => ({ house with stopping := true }, [])

end Doorbell

end Mosschat.Net
