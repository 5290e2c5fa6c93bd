import Mathlib.Data.Char
import Mathlib.Data.List.Lex
import Mosschat.Net.AddrText
import Mosschat.Net.Doorbell.FrameCodec
import Mosschat.Net.Doorbell.PongLimiter
import Mosschat.Net.Live

/-!
Owns one attempt of the doorbell, from `punch.rs`: its candidate table, the schedule of
its probes, the answers it counts and the rule it upgrades by.

Does not own the packet form of a probe, the sockets, or what a winner leads to.
-/

namespace Mosschat.Net

open Mosschat.Core Mosschat.Library Mosschat.Library.Machine Mosschat.Library.Cbor
  Mosschat.Net.Gate

def probePing : UInt8 := 0x01
def probePong : UInt8 := 0x02
def probeFastInterval : Nat := fromMillis 100
def probeFastWindow : Nat := fromSecs 3
def probeSlowInterval : Nat := fromSecs 1
def probeGiveUp : Nat := fromSecs 10
def discoveryCandidateSlots : Nat := 4
def consecutivePongsToWin : Nat := 3
def fireInMs : UInt16 := 200

/-- `Probe`. -/
structure Probe where
  kind : UInt8
  attempt : Bytes16
  tx : TxId
  observed : Addr
deriving DecidableEq

/-- `Addr::default`. -/
def Addr.unset : Addr := ⟨0, List.Vector.replicate 16 0, 0⟩

/-! ## Which addresses are probed -/

namespace IpAddr

/-- `IpAddr::is_unspecified`. -/
def isUnspecified : IpAddr → Bool
  | .v4 octets => octets == List.Vector.replicate 4 0
  | .v6 octets => octets == List.Vector.replicate 16 0

/-- `IpAddr::is_multicast`. -/
def isMulticast : IpAddr → Bool
  | .v4 octets => (octets.head &&& 0xf0) == 224
  | .v6 octets => octets.head == 0xff

/-- `Ipv4Addr::is_broadcast`. -/
def isBroadcast : IpAddr → Bool
  | .v4 octets => octets == List.Vector.replicate 4 255
  | .v6 _ => false

/-- `is_link_local_v6`, by the two octets of the first segment. -/
def isLinkLocalV6 (octets : List.Vector UInt8 16) : Bool :=
  octets.head == 0xfe && (octets.tail.head &&& 0xc0) == 0x80

/-- `is_unique_local_v6`. -/
def isUniqueLocalV6 (octets : List.Vector UInt8 16) : Bool := (octets.head &&& 0xfe) == 0xfc

end IpAddr

/-- `is_probeable`. -/
def isProbeable (addr : SocketAddr) : Bool :=
  if addr.port == 0 || addr.port == 1 then false
  else
    match addr.ip with
    | .v4 _ => !addr.ip.isUnspecified && !addr.ip.isBroadcast && !addr.ip.isMulticast
    | .v6 _ => !addr.ip.isUnspecified && !addr.ip.isMulticast

/-- `is_globally_routable`. -/
def isGloballyRoutable (addr : SocketAddr) : Bool :=
  match addr.ip with
  | .v4 octets =>
    !addr.ip.isLoopback && !IpAddr.isLinkLocalV4 octets && !IpAddr.isPrivateV4 octets &&
      !addr.ip.isUnspecified && !addr.ip.isBroadcast && !addr.ip.isMulticast
  | .v6 octets =>
    !addr.ip.isLoopback && !addr.ip.isUnspecified && !addr.ip.isMulticast &&
      !IpAddr.isLinkLocalV6 octets && !IpAddr.isUniqueLocalV6 octets

/-! ## One candidate -/

/-- `Candidate`. -/
structure Candidate where
  addr : SocketAddr
  source : CandidateSource
  consecutive : Nat
  recent : List Nat
  srtt : Option Nat
  outstanding : HashMap TxId Nat
  lastSent : Option Nat
  givenUp : Bool

namespace Candidate

/-- A candidate as `add_candidate` pushes it. -/
def fresh (addr : SocketAddr) (source : CandidateSource) : Candidate where
  addr := addr
  source := source
  consecutive := 0
  recent := []
  srtt := none
  outstanding := ∅
  lastSent := none
  givenUp := false

/-- The last three of a list, what the loop of `record_rtt` leaves. -/
def lastThree (list : List Nat) : List Nat := list.drop (list.length - consecutivePongsToWin)

/-- `Candidate::record_rtt`. -/
def recordRtt (candidate : Candidate) (rtt : Nat) : Candidate :=
  { candidate with
    recent := lastThree (candidate.recent ++ [rtt])
    srtt := some (match candidate.srtt with
      | none => rtt
      | some previous => (previous * 7 + rtt) / 8) }

/-- `Candidate::winning_rtt`. -/
def winningRtt (candidate : Candidate) : Option Nat :=
  if candidate.recent = [] then none
  else some (candidate.recent.sum / candidate.recent.length)

/-- The candidate is passed over by a round of probes. -/
def waits (candidate : Candidate) (now interval : Nat) : Bool :=
  candidate.givenUp || match candidate.lastSent with
    | some last => now - last < interval
    | none => false

/-- The candidate after a ping; one that an earlier ping is still unanswered of begins its
streak anew. -/
def pinged (candidate : Candidate) (tx : TxId) (now : Nat) : Candidate :=
  let candidate :=
    if candidate.outstanding.entries.isEmpty then candidate
    else { candidate with consecutive := 0, recent := [], outstanding := ∅ }
  { candidate with
    outstanding := candidate.outstanding.put tx now
    lastSent := some now }

/-- What a pong does to the candidate, and whether it counts. -/
def answer (candidate : Candidate) (source : SocketAddr) (tx : TxId) (now : Nat) :
    Candidate × Bool :=
  if candidate.addr ≠ source then (candidate, false)
  else
    match candidate.outstanding.lookup tx with
    | none => (candidate, false)
    | some sent =>
      let candidate := { candidate with outstanding := candidate.outstanding.erase tx }
      let candidate := candidate.recordRtt (now - sent)
      ({ candidate with consecutive := min (candidate.consecutive + 1) (2 ^ 32 - 1) }, true)

theorem pinged_eq (candidate : Candidate) (tx : TxId) (now : Nat) :
    candidate.outstanding.entries.isEmpty = true ∧
        candidate.pinged tx now =
          { candidate with
            outstanding := candidate.outstanding.put tx now
            lastSent := some now } ∨
      candidate.outstanding.entries.isEmpty = false ∧
        candidate.pinged tx now =
          { candidate with
            consecutive := 0
            recent := []
            outstanding := HashMap.put ∅ tx now
            lastSent := some now } := by
  unfold pinged
  cases idle : candidate.outstanding.entries.isEmpty with
  | true => exact Or.inl ⟨rfl, rfl⟩
  | false => exact Or.inr ⟨rfl, rfl⟩

@[simp] theorem pinged_addr (candidate : Candidate) (tx : TxId) (now : Nat) :
    (candidate.pinged tx now).addr = candidate.addr := by
  rcases candidate.pinged_eq tx now with ⟨-, eq⟩ | ⟨-, eq⟩
  · rw [eq]
  · rw [eq]

@[simp] theorem pinged_source (candidate : Candidate) (tx : TxId) (now : Nat) :
    (candidate.pinged tx now).source = candidate.source := by
  rcases candidate.pinged_eq tx now with ⟨-, eq⟩ | ⟨-, eq⟩
  · rw [eq]
  · rw [eq]

/-- A pong counts where it is from the candidate and of a ping it has not answered. -/
theorem answer_cases (candidate : Candidate) (source : SocketAddr) (tx : TxId) (now : Nat) :
    (candidate.addr ≠ source ∨ candidate.outstanding.lookup tx = none) ∧
        candidate.answer source tx now = (candidate, false) ∨
      candidate.addr = source ∧ ∃ sent, candidate.outstanding.lookup tx = some sent ∧
        (candidate.answer source tx now).2 = true ∧
        (candidate.answer source tx now).1.addr = candidate.addr ∧
        (candidate.answer source tx now).1.source = candidate.source ∧
        (candidate.answer source tx now).1.outstanding = candidate.outstanding.erase tx ∧
        (candidate.answer source tx now).1.recent = lastThree (candidate.recent ++ [now - sent]) ∧
        (candidate.answer source tx now).1.consecutive =
          min (candidate.consecutive + 1) (2 ^ 32 - 1) ∧
        (candidate.answer source tx now).1.lastSent = candidate.lastSent ∧
        (candidate.answer source tx now).1.givenUp = candidate.givenUp := by
  unfold answer
  by_cases isSource : candidate.addr = source
  · cases found : candidate.outstanding.lookup tx with
    | none => simp [isSource]
    | some sent =>
        right
        simp [isSource, recordRtt]
  · exact Or.inl ⟨Or.inl isSource, if_pos isSource⟩

@[simp] theorem answer_addr (candidate : Candidate) (source : SocketAddr) (tx : TxId)
    (now : Nat) : (candidate.answer source tx now).1.addr = candidate.addr := by
  rcases candidate.answer_cases source tx now with ⟨-, same⟩ | ⟨-, _, -, -, addr, -⟩
  · rw [same]
  · exact addr

@[simp] theorem answer_source (candidate : Candidate) (source : SocketAddr) (tx : TxId)
    (now : Nat) : (candidate.answer source tx now).1.source = candidate.source := by
  rcases candidate.answer_cases source tx now with ⟨-, same⟩ | ⟨-, _, -, -, -, isSource, -⟩
  · rw [same]
  · exact isSource

end Candidate

/-! ## The attempt -/

/-- `Winner`. -/
structure Winner where
  addr : SocketAddr
  rtt : Nat
deriving DecidableEq

/-- `Attempt`. -/
structure Attempt where
  id : Bytes16
  vouched : List SocketAddr
  fireAt : Option Nat
  candidates : List Candidate
  discoveryCandidates : Nat
  winner : Option Winner

/-- `Iterator::min_by`: the first of the least. -/
def minBy {α : Type} (greater : α → α → Bool) : List α → Option α
  | [] => none
  | first :: rest =>
    some (rest.foldl (fun least next => if greater least next then next else least) first)

namespace Attempt

/-- `Attempt::new`. -/
def new (id : Bytes16) (gateReflectedPeer : Option SocketAddr) : Attempt where
  id := id
  vouched := (gateReflectedPeer.map unmapV4).toList
  fireAt := none
  candidates := []
  discoveryCandidates := 0
  winner := none

/-- `Attempt::add_candidate`. -/
def addCandidate (attempt : Attempt) (addr : SocketAddr) (source : CandidateSource) :
    Attempt × Bool :=
  let addr := unmapV4 addr
  if maxCandidates ≤ attempt.candidates.length || !isProbeable addr ||
      attempt.candidates.any fun candidate => candidate.addr == addr then
    (attempt, false)
  else if source == .peerReported && !isGloballyRoutable addr &&
      !attempt.vouched.contains addr then
    (attempt, false)
  else
    ({ attempt with candidates := attempt.candidates ++ [Candidate.fresh addr source] }, true)

/-- `Attempt::vouch`. -/
def vouch (attempt : Attempt) (addr : SocketAddr) : Attempt :=
  let addr := unmapV4 addr
  if attempt.vouched.contains addr then attempt
  else { attempt with vouched := attempt.vouched ++ [addr] }

/-- `Attempt::add_discovered`. -/
def addDiscovered (attempt : Attempt) (addr : SocketAddr) : Attempt × Bool :=
  let attempt := attempt.vouch addr
  if discoveryCandidateSlots ≤ attempt.discoveryCandidates then (attempt, false)
  else
    let added := attempt.addCandidate addr .discovery
    if added.2 then
      ({ added.1 with discoveryCandidates := added.1.discoveryCandidates + 1 }, true)
    else (added.1, false)

/-- `Attempt::add_peer_candidates`, with how many were accepted. -/
def addPeerCandidates (attempt : Attempt) : List Addr → Attempt × Nat
  | [] => (attempt, 0)
  | addr :: rest =>
    match addr.toSocketAddr with
    | none => attempt.addPeerCandidates rest
    | some addr =>
      let added := attempt.addCandidate addr .peerReported
      let later := added.1.addPeerCandidates rest
      (later.1, later.2 + if added.2 then 1 else 0)

/-- `Attempt::start_signal_received`. -/
def startSignalReceived (attempt : Attempt) (receivedAt : Nat) : Attempt :=
  { attempt with fireAt := some (receivedAt + fromMillis fireInMs.toNat) }

/-- `Attempt::given_up`. -/
def givenUp (attempt : Attempt) (now : Nat) : Bool :=
  if attempt.winner.isSome then false
  else
    match attempt.fireAt with
    | none => false
    | some fireAt => fireAt + probeGiveUp ≤ now

/-- The ping of a round, before it is encoded and authenticated. -/
def ping (id : Bytes16) (tx : TxId) : Probe := ⟨probePing, id, tx, Addr.unset⟩

/-- The loop of `due_probes`. `drawn` counts the tx ids it has taken. -/
def probeEach (id : Bytes16) (now interval : Nat) (txIds : Nat → TxId) :
    Nat → List Candidate → List Candidate × List (SocketAddr × Probe)
  | _, [] => ([], [])
  | drawn, candidate :: rest =>
    if candidate.waits now interval then
      let later := probeEach id now interval txIds drawn rest
      (candidate :: later.1, later.2)
    else
      let later := probeEach id now interval txIds (drawn + 1) rest
      (candidate.pinged (txIds drawn) now :: later.1,
        (candidate.addr, ping id (txIds drawn)) :: later.2)

/-- The interval of the probes, so long after they began. -/
def probeIntervalAfter (elapsed : Nat) : Nat :=
  if elapsed < probeFastWindow then probeFastInterval else probeSlowInterval

/-- `Attempt::due_probes`. -/
def dueProbes (attempt : Attempt) (now : Nat) (txIds : Nat → TxId) :
    Attempt × List (SocketAddr × Probe) :=
  match attempt.fireAt with
  | none => (attempt, [])
  | some fireAt =>
    if now < fireAt || attempt.winner.isSome then (attempt, [])
    else
      let elapsed := now - fireAt
      if probeGiveUp ≤ elapsed then
        let candidates := attempt.candidates.map fun candidate =>
          { candidate with givenUp := true }
        ({ attempt with candidates := candidates }, [])
      else
        let probed := probeEach attempt.id now (probeIntervalAfter elapsed) txIds 0
          attempt.candidates
        ({ attempt with candidates := probed.1 }, probed.2)

/-- `Attempt::on_pong`. -/
def onPong (attempt : Attempt) (source : SocketAddr) (pong : Probe) (now : Nat) :
    Attempt × Bool :=
  if attempt.winner.isSome || pong.kind != probePong || pong.attempt != attempt.id then
    (attempt, false)
  else
    let candidates := attempt.candidates.map fun candidate =>
      (candidate.answer source pong.tx now).1
    ({ attempt with candidates := candidates },
      attempt.candidates.any fun candidate => (candidate.answer source pong.tx now).2)

/-- The comparison of `decide` says `Ordering::Greater`. -/
def comesAfter (left right : Nat × SocketAddr) : Bool :=
  right.1 < left.1 ||
    (left.1 == right.1 && showSocketAddr right.2 < showSocketAddr left.2)

/-- The candidates that may win, each with its mean round trip. -/
def contenders (attempt : Attempt) : List (Nat × SocketAddr) :=
  (attempt.candidates.filter fun candidate =>
    consecutivePongsToWin ≤ candidate.consecutive).filterMap fun candidate =>
      candidate.winningRtt.map fun rtt => (rtt, candidate.addr)

/-- `Attempt::decide`. -/
protected def decide (attempt : Attempt) : Attempt × Option Winner :=
  if attempt.winner.isSome then (attempt, none)
  else
    match minBy comesAfter attempt.contenders with
    | none => (attempt, none)
    | some (rtt, addr) => ({ attempt with winner := some ⟨addr, rtt⟩ }, some ⟨addr, rtt⟩)

/-- `Attempt::path_failed`. -/
def pathFailed (attempt : Attempt) : Attempt × Option Winner :=
  ({ attempt with winner := none }, attempt.winner)

/-- `Attempt::source_of`. -/
def sourceOf (attempt : Attempt) (addr : SocketAddr) : Option CandidateSource :=
  (attempt.candidates.find? fun candidate => candidate.addr == addr).map Candidate.source

end Attempt

/-! ## Calls -/

/-- A call on an `Attempt`. -/
inductive AttemptCall where
  | addCandidate (addr : SocketAddr) (source : CandidateSource)
  | addDiscovered (addr : SocketAddr)
  | vouch (addr : SocketAddr)
  | addPeerCandidates (addrs : List Addr)
  | startSignalReceived (receivedAt : Nat)
  | dueProbes (now : Nat) (txIds : Nat → TxId)
  | onPong (source : SocketAddr) (pong : Probe) (now : Nat)
  | decide
  | pathFailed

namespace Attempt

def step (attempt : Attempt) : AttemptCall → Attempt
  | .addCandidate addr source => (attempt.addCandidate addr source).1
  | .addDiscovered addr => (attempt.addDiscovered addr).1
  | .vouch addr => attempt.vouch addr
  | .addPeerCandidates addrs => (attempt.addPeerCandidates addrs).1
  | .startSignalReceived receivedAt => attempt.startSignalReceived receivedAt
  | .dueProbes now txIds => (attempt.dueProbes now txIds).1
  | .onPong source pong now => (attempt.onPong source pong now).1
  | .decide => attempt.decide.1
  | .pathFailed => attempt.pathFailed.1

/-- The probes a call sends. -/
def sends (attempt : Attempt) : AttemptCall → List (SocketAddr × Probe)
  | .dueProbes now txIds => (attempt.dueProbes now txIds).2
  | _ => []

/-- The winner a call returns. -/
def wins (attempt : Attempt) : AttemptCall → List Winner
  | .decide => attempt.decide.2.toList
  | _ => []

end Attempt

end Mosschat.Net
