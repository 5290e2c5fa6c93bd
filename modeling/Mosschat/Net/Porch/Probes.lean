import Mosschat.Net.Porch.Segments

/-!
Owns the probe queues of the porch socket: a probe that verifies under the key an attempt has
armed waits for that attempt's doorbell, and for no other.

Does not own how a segment is told to be a probe, nor BLAKE3, which is the parameter `keyedHash`
of the codec.
-/

namespace Mosschat.Net

open Mosschat.Core Mosschat.Library Mosschat.Library.Cbor Mosschat.Library.Machine
open Mosschat.Net.Gate

/-- `INBOUND_PROBE_QUEUE_CAP`. -/
def inboundProbeQueueCap : Nat := 1024

/-- A call of `queue_probes` that has copied the armed keys, and the segments it has not looked
at yet. -/
structure Arriving where
  source : SocketAddr
  segments : List ProbeSegment
  keys : HashMap Bytes16 Bytes32

/-- What one porch socket keeps of its probes. -/
structure ProbeQueues where
  probeKeys : HashMap Bytes16 Bytes32
  inboundProbes : HashMap Bytes16 (List (SocketAddr × Probe))
  probesUnauthenticated : UInt64
  inboundProbesDropped : UInt64
  /-- The calls of `queue_probes` that have not returned. -/
  arriving : HashMap Nat Arriving
  /-- The calls of `disarm_probe_key` that are between their two locks. -/
  disarming : HashMap Nat Bytes16

/-- What happens to the probe queues, one lock at a time. A call is named by a number that no
call under way has. -/
inductive ProbeEvent where
  | armProbeKey (attempt : Bytes16) (key : Bytes32)
  /-- `disarm_probe_key` removes the key. -/
  | disarms (call : Nat) (attempt : Bytes16)
  /-- It removes the queue. -/
  | discards (call : Nat)
  /-- `queue_probes` copies the armed keys. -/
  | arrives (call : Nat) (source : SocketAddr) (segments : List ProbeSegment)
  /-- It looks at its next segment. -/
  | files (call : Nat)
  | tryRecvProbe (attempt : Bytes16)

namespace ProbeQueues

/-- `PorchSocket::new`. -/
def new : ProbeQueues where
  probeKeys := ∅
  inboundProbes := ∅
  probesUnauthenticated := 0
  inboundProbesDropped := 0
  arriving := ∅
  disarming := ∅

/-- The queue of an attempt. -/
def queue (world : ProbeQueues) (attempt : Bytes16) : List (SocketAddr × Probe) :=
  (world.inboundProbes.lookup attempt).getD []

/-- The first part of `queue_probes`. -/
def arrives (world : ProbeQueues) (call : Nat) (source : SocketAddr)
    (segments : List ProbeSegment) : ProbeQueues :=
  if world.probeKeys = ∅ then
    { world with
      probesUnauthenticated := world.probesUnauthenticated + UInt64.ofNat segments.length }
  else { world with arriving := world.arriving.put call ⟨source, segments, world.probeKeys⟩ }

/-- A verified probe is filed under the attempt it names, unless that queue is full. -/
def file (world : ProbeQueues) (source : SocketAddr) (probe : Probe) : ProbeQueues :=
  let queue := world.queue probe.attempt
  if inboundProbeQueueCap ≤ queue.length then
    { world with inboundProbesDropped := world.inboundProbesDropped + 1 }
  else
    { world with
      inboundProbes := world.inboundProbes.put probe.attempt (queue ++ [(source, probe)]) }

/-- `try_recv_probe`: the queue without the probe that is handed out. -/
def tryRecvProbe (world : ProbeQueues) (attempt : Bytes16) : ProbeQueues :=
  match world.inboundProbes.lookup attempt with
  | none => world
  | some queue =>
    if queue.tail = [] then { world with inboundProbes := world.inboundProbes.erase attempt }
    else { world with inboundProbes := world.inboundProbes.put attempt queue.tail }

variable (keyedHash : Bytes32 → Bytes → Bytes32)

/-- The first copied key the segment verifies under, if it names the attempt of that key. -/
def verify (keys : HashMap Bytes16 Bytes32) (segment : ProbeSegment) : Option Probe :=
  keys.entries.findSome? fun entry =>
    (Probe.decode keyedHash segment.toList entry.2).filter fun probe => probe.attempt = entry.1

/-- What the next segment of a call verifies as, with its source. -/
def verified (world : ProbeQueues) (call : Nat) : Option (SocketAddr × Probe) :=
  match world.arriving.lookup call with
  | some ⟨source, segment :: _, keys⟩ =>
    (verify keyedHash keys segment).map fun probe => (source, probe)
  | _ => none

/-- One turn of the loop of `queue_probes`, or its return. -/
def files (world : ProbeQueues) (call : Nat) : ProbeQueues :=
  match world.arriving.lookup call with
  | none => world
  | some ⟨_, [], _⟩ => { world with arriving := world.arriving.erase call }
  | some ⟨source, segment :: segments, keys⟩ =>
    let world := { world with arriving := world.arriving.put call ⟨source, segments, keys⟩ }
    match verify keyedHash keys segment with
    | none => { world with probesUnauthenticated := world.probesUnauthenticated + 1 }
    | some probe => world.file source probe

/-- One event. A number that is taken, or that no call has, changes nothing. -/
def step (world : ProbeQueues) : ProbeEvent → ProbeQueues
  | .armProbeKey attempt key => { world with probeKeys := world.probeKeys.put attempt key }
  | .disarms call attempt =>
    if call ∈ world.disarming then world
    else
      { world with
        probeKeys := world.probeKeys.erase attempt
        disarming := world.disarming.put call attempt }
  | .discards call =>
    match world.disarming.lookup call with
    | none => world
    | some attempt =>
      { world with
        inboundProbes := world.inboundProbes.erase attempt
        disarming := world.disarming.erase call }
  | .arrives call source segments =>
    if call ∈ world.arriving then world else world.arrives call source segments
  | .files call => world.files keyedHash call
  | .tryRecvProbe attempt => world.tryRecvProbe attempt

/-! ## What a run gives out -/

/-- The probe the event verifies. -/
def verifies (world : ProbeQueues) : ProbeEvent → List (SocketAddr × Probe)
  | .files call => (world.verified keyedHash call).toList
  | _ => []

/-- The verified probe the event counts as dropped. -/
def drops (world : ProbeQueues) (event : ProbeEvent) : List (SocketAddr × Probe) :=
  (world.verifies keyedHash event).filter fun probe =>
    inboundProbeQueueCap ≤ (world.queue probe.2.attempt).length

/-- The verified probe the event queues. -/
def accepts (world : ProbeQueues) (event : ProbeEvent) : List (SocketAddr × Probe) :=
  (world.verifies keyedHash event).filter fun probe =>
    (world.queue probe.2.attempt).length < inboundProbeQueueCap

/-- The probe the event hands to the doorbell of an attempt. -/
def hands (attempt : Bytes16) (world : ProbeQueues) : ProbeEvent → List (SocketAddr × Probe)
  | .tryRecvProbe other => if other = attempt then (world.queue attempt).head?.toList else []
  | _ => []

/-- The probes of an attempt that a disarm of it discards. -/
def discards (attempt : Bytes16) (world : ProbeQueues) : ProbeEvent → List (SocketAddr × Probe)
  | .discards call =>
    if world.disarming.lookup call = some attempt then world.queue attempt else []
  | _ => []

/-- The probes of an attempt that the event takes out of its queue. -/
def leaves (attempt : Bytes16) (world : ProbeQueues) (event : ProbeEvent) :
    List (SocketAddr × Probe) :=
  world.hands attempt event ++ world.discards attempt event

/-- The probes among these that name an attempt. -/
def naming (attempt : Bytes16) (probes : List (SocketAddr × Probe)) :
    List (SocketAddr × Probe) :=
  probes.filter fun probe => probe.2.attempt = attempt

/-- The attempt's key is armed, or a disarm of it has not returned. -/
def Armed (world : ProbeQueues) (attempt : Bytes16) : Prop :=
  attempt ∈ world.probeKeys ∨ ∃ call, world.disarming.lookup call = some attempt

/-- The probe came in one of the batches of the run, and verified under the key its attempt had
armed as that batch came. -/
def Authentic (events : List ProbeEvent) (attempt : Bytes16) (probe : SocketAddr × Probe) : Prop :=
  probe.2.attempt = attempt ∧
    ∃ before call segments segment key,
      before ++ [.arrives call probe.1 segments] <+: events ∧ segment ∈ segments ∧
        (run (step keyedHash) new before).probeKeys.lookup attempt = some key ∧
        Probe.decode keyedHash segment.toList key = some probe.2

/-- What the queues keep to after these events. -/
structure Orderly (events : List ProbeEvent) : Prop where
  authentic : ∀ attempt probe, probe ∈ outputs (step keyedHash) (hands attempt) new events →
    Authentic keyedHash events attempt probe
  /-- What leaves a queue, and what is still in it, came in that order. -/
  inOrder : ∀ attempt, naming attempt (outputs (step keyedHash) (accepts keyedHash) new events) =
    outputs (step keyedHash) (leaves attempt) new events ++
      (run (step keyedHash) new events).queue attempt
  handed : ∀ attempt, (outputs (step keyedHash) (hands attempt) new events).Sublist
    (outputs (step keyedHash) (leaves attempt) new events)
  bounded : ∀ attempt, ((run (step keyedHash) new events).queue attempt).length ≤
    inboundProbeQueueCap
  accounted : ∀ attempt,
    (naming attempt (outputs (step keyedHash) (verifies keyedHash) new events)).Perm
      (naming attempt (outputs (step keyedHash) (drops keyedHash) new events) ++
        (outputs (step keyedHash) (hands attempt) new events ++
          (outputs (step keyedHash) (discards attempt) new events ++
            (run (step keyedHash) new events).queue attempt)))
  counted : (run (step keyedHash) new events).inboundProbesDropped =
    UInt64.ofNat (outputs (step keyedHash) (drops keyedHash) new events).length
  armed : ∀ attempt, attempt ∈ (run (step keyedHash) new events).inboundProbes →
    (run (step keyedHash) new events).Armed attempt

/-- A batch does not file a probe for an attempt that was disarmed since the keys were copied. -/
def InTime (world : ProbeQueues) : ProbeEvent → Prop
  | .files call => ∀ probe, world.verified keyedHash call = some probe →
      world.Armed probe.2.attempt
  | _ => True

/-! ## The check -/

/-- What a segment decodes to does not depend on the key. -/
theorem decode_unique {segment : Bytes} {key other : Bytes32} {probe second : Probe}
    (decoded : Probe.decode keyedHash segment key = some probe)
    (again : Probe.decode keyedHash segment other = some second) : probe = second := by
  obtain ⟨_, _, _, _, _, observed, read, isProbe⟩ := Probe.decode_eq_some keyedHash decoded
  obtain ⟨_, _, _, _, _, seen, readAgain, isSecond⟩ := Probe.decode_eq_some keyedHash again
  have same : observed = seen := Option.some.inj (read.symm.trans readAgain)
  rw [isProbe, isSecond, same]

/-- A segment verifies as a probe exactly when it decodes to it under the key of the attempt it
names, in whatever order the keys were copied. -/
theorem verify_eq_some {keys : HashMap Bytes16 Bytes32} {segment : ProbeSegment} {probe : Probe} :
    verify keyedHash keys segment = some probe ↔
      ∃ key, keys.lookup probe.attempt = some key ∧
        Probe.decode keyedHash segment.toList key = some probe := by
  constructor
  · intro verified
    obtain ⟨⟨attempt, key⟩, member, passes⟩ := List.exists_of_findSome?_eq_some verified
    obtain ⟨decoded, names⟩ := Option.filter_eq_some_iff.mp passes
    have isAttempt : probe.attempt = attempt := of_decide_eq_true names
    refine ⟨key, ?_, decoded⟩
    rw [isAttempt]
    exact AList.mem_lookup_iff.mpr member
  · rintro ⟨key, isKey, decoded⟩
    have passes : (Probe.decode keyedHash segment.toList key).filter
        (fun found => decide (found.attempt = probe.attempt)) = some probe :=
      Option.filter_eq_some_iff.mpr ⟨decoded, decide_eq_true rfl⟩
    have member : ⟨probe.attempt, key⟩ ∈ keys.entries := AList.mem_lookup_iff.mp isKey
    cases found : verify keyedHash keys segment with
    | none =>
        have fails := List.findSome?_eq_none_iff.mp found ⟨probe.attempt, key⟩ member
        rw [passes] at fails
        cases fails
    | some second =>
        obtain ⟨⟨attempt, other⟩, _, otherPasses⟩ := List.exists_of_findSome?_eq_some found
        have again := (Option.filter_eq_some_iff.mp otherPasses).1
        rw [decode_unique keyedHash decoded again]

/-! ## One event -/

/-- What a turn of `queue_probes` that verifies nothing leaves alone. -/
theorem files_of_none {world : ProbeQueues} {call : Nat}
    (nothing : world.verified keyedHash call = none) :
    (world.files keyedHash call).inboundProbes = world.inboundProbes ∧
      (world.files keyedHash call).inboundProbesDropped = world.inboundProbesDropped := by
  unfold verified at nothing
  unfold files
  split
  · exact ⟨rfl, rfl⟩
  · exact ⟨rfl, rfl⟩
  · next source segment segments keys found =>
      rw [found] at nothing
      have refused : verify keyedHash keys segment = none := Option.map_eq_none_iff.mp nothing
      rw [refused]
      exact ⟨rfl, rfl⟩

theorem inboundProbes_file (world : ProbeQueues) (source : SocketAddr) (probe : Probe) :
    (world.file source probe).inboundProbes =
      if inboundProbeQueueCap ≤ (world.queue probe.attempt).length then world.inboundProbes
      else world.inboundProbes.put probe.attempt
        (world.queue probe.attempt ++ [(source, probe)]) := by
  unfold file
  simp only
  split <;> rfl

theorem dropped_file (world : ProbeQueues) (source : SocketAddr) (probe : Probe) :
    (world.file source probe).inboundProbesDropped =
      if inboundProbeQueueCap ≤ (world.queue probe.attempt).length then
        world.inboundProbesDropped + 1
      else world.inboundProbesDropped := by
  unfold file
  simp only
  split <;> rfl

/-- What a turn that verifies a probe does with it. -/
theorem files_of_some {world : ProbeQueues} {call : Nat} {probe : SocketAddr × Probe}
    (verifies : world.verified keyedHash call = some probe) :
    (world.files keyedHash call).inboundProbes =
        (world.file probe.1 probe.2).inboundProbes ∧
      (world.files keyedHash call).inboundProbesDropped =
        (world.file probe.1 probe.2).inboundProbesDropped := by
  unfold verified at verifies
  unfold files
  split
  · next absent =>
      rw [absent] at verifies
      cases verifies
  · next found =>
      rw [found] at verifies
      cases verifies
  · next source segment segments keys found =>
      rw [found] at verifies
      obtain ⟨inner, isVerified, isProbe⟩ := Option.map_eq_some_iff.mp verifies
      rw [isVerified, ← isProbe]
      simp only
      rw [inboundProbes_file, inboundProbes_file, dropped_file, dropped_file]
      exact ⟨rfl, rfl⟩

/-- A turn of `queue_probes` leaves the keys and the disarms. -/
theorem keys_files (world : ProbeQueues) (call : Nat) :
    (world.files keyedHash call).probeKeys = world.probeKeys ∧
      (world.files keyedHash call).disarming = world.disarming := by
  unfold files
  split
  · exact ⟨rfl, rfl⟩
  · exact ⟨rfl, rfl⟩
  · simp only
    split
    · exact ⟨rfl, rfl⟩
    · unfold file
      simp only
      split <;> exact ⟨rfl, rfl⟩

theorem queue_of_inboundProbes {world next : ProbeQueues}
    (same : next.inboundProbes = world.inboundProbes) (attempt : Bytes16) :
    next.queue attempt = world.queue attempt := by
  unfold queue
  rw [same]

theorem inboundProbes_tryRecvProbe (world : ProbeQueues) (other attempt : Bytes16) :
    (world.tryRecvProbe other).queue attempt =
      if attempt = other then (world.queue attempt).tail else world.queue attempt := by
  unfold tryRecvProbe queue
  cases found : world.inboundProbes.lookup other with
  | none =>
      by_cases same : attempt = other
      · rw [if_pos same, same, found]
        rfl
      · rw [if_neg same]
  | some probes =>
      simp only
      by_cases same : attempt = other
      · rw [if_pos same, same, found]
        split
        · next last =>
            rw [HashMap.lookup_erase, if_pos rfl]
            exact last.symm
        · rw [HashMap.lookup_put, if_pos rfl]
          rfl
      · rw [if_neg same]
        split
        · rw [HashMap.lookup_erase, if_neg same]
        · rw [HashMap.lookup_put, if_neg same]

/-- What an event puts at the end of a queue, and takes from its front. -/
theorem queue_step (world : ProbeQueues) (event : ProbeEvent) (attempt : Bytes16) :
    world.queue attempt ++ naming attempt (world.accepts keyedHash event) =
      world.leaves attempt event ++ (world.step keyedHash event).queue attempt := by
  cases event with
  | armProbeKey other key => exact List.append_nil _
  | disarms call other =>
      show world.queue attempt ++ [] = (if call ∈ world.disarming then world
        else _ : ProbeQueues).queue attempt
      rw [List.append_nil]
      split <;> rfl
  | arrives call source segments =>
      show world.queue attempt ++ [] = (if call ∈ world.arriving then world
        else world.arrives call source segments).queue attempt
      rw [List.append_nil]
      split
      · rfl
      · unfold arrives
        split <;> rfl
  | discards call =>
      show world.queue attempt ++ [] =
        [] ++ (if world.disarming.lookup call = some attempt then world.queue attempt else []) ++
          ProbeQueues.queue (match world.disarming.lookup call with
            | none => world
            | some other =>
              { world with
                inboundProbes := world.inboundProbes.erase other
                disarming := world.disarming.erase call }) attempt
      rw [List.append_nil, List.nil_append]
      cases found : world.disarming.lookup call with
      | none =>
          rw [if_neg (Option.some_ne_none attempt).symm]
          rfl
      | some other =>
          simp only [queue, HashMap.lookup_erase, Option.some.injEq]
          by_cases same : attempt = other
          · rw [if_pos same, if_pos same.symm]
            exact (List.append_nil _).symm
          · rw [if_neg same, if_neg (Ne.symm same)]
            rfl
  | tryRecvProbe other =>
      show world.queue attempt ++ [] = (if other = attempt then _ else _) ++ [] ++
        (world.tryRecvProbe other).queue attempt
      rw [inboundProbes_tryRecvProbe, List.append_nil, List.append_nil]
      by_cases same : attempt = other
      · rw [if_pos same, if_pos same.symm]
        cases world.queue attempt with
        | nil => rfl
        | cons first rest => rfl
      · rw [if_neg same, if_neg (Ne.symm same)]
        rfl
  | files call =>
      show world.queue attempt ++ naming attempt ((world.verified keyedHash call).toList.filter _) =
        (world.files keyedHash call).queue attempt
      cases verifies : world.verified keyedHash call with
      | none =>
          rw [queue_of_inboundProbes (files_of_none keyedHash verifies).1]
          exact List.append_nil _
      | some probe =>
          have filed := inboundProbes_file world probe.1 probe.2
          rw [queue_of_inboundProbes (files_of_some keyedHash verifies).1, Option.toList_some]
          by_cases full : inboundProbeQueueCap ≤ (world.queue probe.2.attempt).length
          · rw [if_pos full] at filed
            rw [queue_of_inboundProbes filed, List.filter_cons_of_neg (by simpa using full)]
            exact List.append_nil _
          · rw [if_neg full] at filed
            rw [List.filter_cons_of_pos (by simpa using full)]
            unfold queue at filed ⊢
            rw [filed, HashMap.lookup_put]
            by_cases same : attempt = probe.2.attempt
            · rw [if_pos same, same]
              unfold naming
              rw [List.filter_cons_of_pos (by simp)]
              rfl
            · rw [if_neg same]
              unfold naming
              rw [List.filter_cons_of_neg (by simpa using Ne.symm same)]
              exact List.append_nil _

/-- A verified probe is dropped or queued. -/
theorem verifies_perm (world : ProbeQueues) (event : ProbeEvent) :
    (world.verifies keyedHash event).Perm
      (world.drops keyedHash event ++ world.accepts keyedHash event) := by
  have split := List.filter_append_perm (fun probe : SocketAddr × Probe =>
    decide (inboundProbeQueueCap ≤ (world.queue probe.2.attempt).length))
    (world.verifies keyedHash event)
  have others : (world.verifies keyedHash event).filter (fun probe : SocketAddr × Probe =>
      !decide (inboundProbeQueueCap ≤ (world.queue probe.2.attempt).length)) =
        world.accepts keyedHash event := by
    apply List.filter_congr
    intro probe _
    rw [← decide_not]
    exact decide_eq_decide.mpr Nat.not_le
  rw [others] at split
  exact split.symm

theorem dropped_step (world : ProbeQueues) (event : ProbeEvent) :
    (world.step keyedHash event).inboundProbesDropped =
      world.inboundProbesDropped + UInt64.ofNat (world.drops keyedHash event).length := by
  have nothing : world.inboundProbesDropped = world.inboundProbesDropped + UInt64.ofNat 0 :=
    (UInt64.add_zero _).symm
  cases event with
  | armProbeKey other key => exact nothing
  | disarms call other =>
      show (if call ∈ world.disarming then world else _ : ProbeQueues).inboundProbesDropped = _
      split
      · exact nothing
      · exact nothing
  | arrives call source segments =>
      show (if call ∈ world.arriving then world
        else world.arrives call source segments).inboundProbesDropped = _
      split
      · exact nothing
      · unfold arrives
        split
        · exact nothing
        · exact nothing
  | discards call =>
      unfold step
      simp only
      split
      · exact nothing
      · exact nothing
  | tryRecvProbe other =>
      show (world.tryRecvProbe other).inboundProbesDropped = _
      unfold tryRecvProbe
      split
      · exact nothing
      · split
        · exact nothing
        · exact nothing
  | files call =>
      show (world.files keyedHash call).inboundProbesDropped = _ +
        UInt64.ofNat (((world.verified keyedHash call).toList).filter _).length
      cases verifies : world.verified keyedHash call with
      | none =>
          rw [(files_of_none keyedHash verifies).2]
          exact nothing
      | some probe =>
          rw [(files_of_some keyedHash verifies).2, dropped_file, Option.toList_some]
          by_cases full : inboundProbeQueueCap ≤ (world.queue probe.2.attempt).length
          · rw [if_pos full, List.filter_cons_of_pos (by simpa using full)]
            rfl
          · rw [if_neg full, List.filter_cons_of_neg (by simpa using full)]
            exact nothing

theorem length_queue_step {world : ProbeQueues} {attempt : Bytes16}
    (within : (world.queue attempt).length ≤ inboundProbeQueueCap) (event : ProbeEvent) :
    ((world.step keyedHash event).queue attempt).length ≤ inboundProbeQueueCap := by
  have moved := congrArg List.length (queue_step keyedHash world event attempt)
  rw [List.length_append, List.length_append] at moved
  -- A probe is accepted only where there is room for one.
  have room : (world.queue attempt).length + (naming attempt (world.accepts keyedHash event)).length
      ≤ inboundProbeQueueCap := by
    by_cases some : naming attempt (world.accepts keyedHash event) = []
    · rw [some]
      exact within
    · obtain ⟨probe, member⟩ := List.exists_mem_of_ne_nil _ some
      have accepted := List.mem_filter.mp member
      have fits := (List.mem_filter.mp accepted.1).2
      have named : probe.2.attempt = attempt := of_decide_eq_true accepted.2
      have fits : (world.queue probe.2.attempt).length < inboundProbeQueueCap :=
        of_decide_eq_true fits
      have single : (world.verifies keyedHash event).length ≤ 1 := by
        cases event with
        | files call =>
            show ((world.verified keyedHash call).toList).length ≤ 1
            cases world.verified keyedHash call with
            | none => exact Nat.zero_le 1
            | some probe => exact Nat.le_refl 1
        | _ => exact Nat.zero_le 1
      have one : (naming attempt (world.accepts keyedHash event)).length ≤ 1 :=
        le_trans (List.length_filter_le _ _) (le_trans (List.length_filter_le _ _) single)
      rw [named] at fits
      omega
  omega

theorem naming_append (attempt : Bytes16) (first second : List (SocketAddr × Probe)) :
    naming attempt (first ++ second) = naming attempt first ++ naming attempt second :=
  List.filter_append _ _

/-! ## Every run -/

theorem inOrder_run (events : List ProbeEvent) (attempt : Bytes16) :
    naming attempt (outputs (step keyedHash) (accepts keyedHash) new events) =
      outputs (step keyedHash) (leaves attempt) new events ++
        (run (step keyedHash) new events).queue attempt := by
  induction events using List.reverseRecOn with
  | nil => rfl
  | append_singleton events event ih =>
      rw [outputs_concat, outputs_concat, naming_append, ih, List.append_assoc,
        queue_step, run_concat, List.append_assoc]

theorem handed_run (events : List ProbeEvent) (attempt : Bytes16) (start : ProbeQueues) :
    (outputs (step keyedHash) (hands attempt) start events).Sublist
      (outputs (step keyedHash) (leaves attempt) start events) := by
  induction events generalizing start with
  | nil => exact List.Sublist.refl _
  | cons event rest ih =>
      exact (List.sublist_append_left _ _).append (ih _)

theorem accounted_run (events : List ProbeEvent) (attempt : Bytes16) :
    (naming attempt (outputs (step keyedHash) (verifies keyedHash) new events)).Perm
      (naming attempt (outputs (step keyedHash) (drops keyedHash) new events) ++
        (outputs (step keyedHash) (hands attempt) new events ++
          (outputs (step keyedHash) (discards attempt) new events ++
            (run (step keyedHash) new events).queue attempt))) := by
  have both : (outputs (step keyedHash) (verifies keyedHash) new events).Perm
      (outputs (step keyedHash) (drops keyedHash) new events ++
        outputs (step keyedHash) (accepts keyedHash) new events) :=
    outputs_perm (verifies_perm keyedHash) new events
  refine (both.filter fun probe => decide (probe.2.attempt = attempt)).trans ?_
  rw [List.filter_append]
  apply List.Perm.append_left
  show (naming attempt _).Perm _
  rw [inOrder_run, ← List.append_assoc]
  exact (outputs_perm (fun _ _ => List.Perm.refl _) new events).append_right _

theorem counted_run (events : List ProbeEvent) :
    (run (step keyedHash) new events).inboundProbesDropped =
      UInt64.ofNat (outputs (step keyedHash) (drops keyedHash) new events).length := by
  induction events using List.reverseRecOn with
  | nil => rfl
  | append_singleton events event ih =>
      rw [run_concat, dropped_step, ih, outputs_concat, List.length_append,
        UInt64.ofNat_add]

theorem bounded_run (events : List ProbeEvent) (attempt : Bytes16) :
    ((run (step keyedHash) new events).queue attempt).length ≤ inboundProbeQueueCap := by
  have preserved : ∀ (world : ProbeQueues) (event : ProbeEvent),
      (world.queue attempt).length ≤ inboundProbeQueueCap →
        ((world.step keyedHash event).queue attempt).length ≤ inboundProbeQueueCap :=
    fun world event within => length_queue_step keyedHash within event
  exact run_always preserved (Nat.zero_le _) events

/-! ## Where a probe came from -/

/-- What the calls under way copied, and what the queues hold, came with a batch of the run. -/
structure Genuine (events : List ProbeEvent) (world : ProbeQueues) : Prop where
  arriving : ∀ call arriving, world.arriving.lookup call = some arriving →
    ∃ before segments, before ++ [.arrives call arriving.source segments] <+: events ∧
      arriving.segments ⊆ segments ∧ arriving.keys = (run (step keyedHash) new before).probeKeys
  queued : ∀ attempt probe, probe ∈ world.queue attempt → Authentic keyedHash events attempt probe

theorem Authentic.more {events : List ProbeEvent} {attempt : Bytes16}
    {probe : SocketAddr × Probe} (authentic : Authentic keyedHash events attempt probe)
    (later : List ProbeEvent) : Authentic keyedHash (events ++ later) attempt probe := by
  obtain ⟨named, before, call, segments, segment, key, came, rest⟩ := authentic
  exact ⟨named, before, call, segments, segment, key, came.trans (List.prefix_append _ _), rest⟩

/-- What a call verifies next is authentic. -/
theorem Genuine.verified {events : List ProbeEvent} {world : ProbeQueues}
    (genuine : Genuine keyedHash events world) {call : Nat} {probe : SocketAddr × Probe}
    (verifies : world.verified keyedHash call = some probe) :
    Authentic keyedHash events probe.2.attempt probe := by
  unfold ProbeQueues.verified at verifies
  split at verifies
  · next source segment segments keys found =>
      obtain ⟨inner, isVerified, isProbe⟩ := Option.map_eq_some_iff.mp verifies
      obtain ⟨key, isKey, decoded⟩ := (verify_eq_some keyedHash).mp isVerified
      obtain ⟨before, all, came, inside, copied⟩ := genuine.arriving call _ found
      have isKey : (run (step keyedHash) new before).probeKeys.lookup inner.attempt = some key := by
        rw [← copied]
        exact isKey
      rw [← isProbe]
      exact ⟨rfl, before, call, all, segment, key, came, inside List.mem_cons_self, isKey, decoded⟩
  · cases verifies

theorem arriving_files {world : ProbeQueues} {call other : Nat} {arriving : Arriving}
    (found : (world.files keyedHash call).arriving.lookup other = some arriving) :
    ∃ segments, arriving.segments ⊆ segments ∧
      world.arriving.lookup other = some { arriving with segments := segments } := by
  have same : world.arriving.lookup other = some arriving → ∃ segments,
      arriving.segments ⊆ segments ∧
        world.arriving.lookup other = some { arriving with segments := segments } :=
    fun was => ⟨arriving.segments, List.Subset.refl _, was⟩
  unfold files at found
  split at found
  · exact same found
  · simp only [HashMap.lookup_erase] at found
    split at found
    · cases found
    · exact same found
  · next source segment segments keys isCall =>
      -- Whatever becomes of the segment, the call goes on with the others.
      have goesOn : (world.arriving.put call ⟨source, segments, keys⟩).lookup other =
          some arriving := by
        simp only at found
        split at found
        · exact found
        · unfold file at found
          simp only at found
          split at found <;> exact found
      rw [HashMap.lookup_put] at goesOn
      split at goesOn
      · next isOther =>
          cases goesOn
          rw [isOther]
          exact ⟨segment :: segments, List.subset_cons_self _ _, isCall⟩
      · exact same goesOn

/-- A call under way after an event was so before, or has just copied the keys. -/
theorem arriving_step {world : ProbeQueues} {event : ProbeEvent} {call : Nat}
    {arriving : Arriving}
    (found : (world.step keyedHash event).arriving.lookup call = some arriving) :
    (∃ segments, arriving.segments ⊆ segments ∧
        world.arriving.lookup call = some { arriving with segments := segments }) ∨
      event = .arrives call arriving.source arriving.segments ∧
        arriving.keys = world.probeKeys := by
  have same : world.arriving.lookup call = some arriving →
      (∃ segments, arriving.segments ⊆ segments ∧
        world.arriving.lookup call = some { arriving with segments := segments }) ∨
      event = .arrives call arriving.source arriving.segments ∧
        arriving.keys = world.probeKeys :=
    fun was => Or.inl ⟨arriving.segments, List.Subset.refl _, was⟩
  cases event with
  | armProbeKey other key => exact same found
  | disarms other attempt =>
      apply same
      unfold step at found
      simp only at found
      split at found <;> exact found
  | discards other =>
      apply same
      unfold step at found
      simp only at found
      split at found <;> exact found
  | tryRecvProbe attempt =>
      apply same
      unfold step tryRecvProbe at found
      simp only at found
      split at found
      · exact found
      · split at found <;> exact found
  | arrives other source segments =>
      unfold step at found
      simp only at found
      split at found
      · exact same found
      · unfold arrives at found
        split at found
        · exact same found
        · simp only [HashMap.lookup_put] at found
          split at found
          · next isCall =>
              cases found
              rw [isCall]
              exact Or.inr ⟨rfl, rfl⟩
          · exact same found
  | files other => exact Or.inl (arriving_files keyedHash found)

theorem Genuine.more {events : List ProbeEvent}
    (genuine : Genuine keyedHash events (run (step keyedHash) new events)) (event : ProbeEvent) :
    Genuine keyedHash (events ++ [event]) (run (step keyedHash) new (events ++ [event])) := by
  rw [run_concat]
  constructor
  · intro call arriving found
    rcases arriving_step keyedHash found with ⟨all, inside, was⟩ | ⟨isArrives, copied⟩
    · obtain ⟨before, segments, came, within, keys⟩ := genuine.arriving call _ was
      exact ⟨before, segments, came.trans (List.prefix_append _ _),
        List.Subset.trans inside within, keys⟩
    · refine ⟨events, arriving.segments, ?_, List.Subset.refl _, copied⟩
      simp only [isArrives, List.prefix_refl]
  · intro attempt probe member
    have moved := queue_step keyedHash (run (step keyedHash) new events) event attempt
    have among : probe ∈ (run (step keyedHash) new events).queue attempt ++
        naming attempt ((run (step keyedHash) new events).accepts keyedHash event) := by
      rw [moved]
      exact List.mem_append_right _ member
    rcases List.mem_append.mp among with old | new
    · exact (genuine.queued attempt probe old).more keyedHash [event]
    · obtain ⟨isAccepted, named⟩ := List.mem_filter.mp new
      have isVerified := List.mem_of_mem_filter isAccepted
      have isAttempt : probe.2.attempt = attempt := of_decide_eq_true named
      cases event with
      | files call =>
          have authentic := genuine.verified keyedHash (Option.mem_toList.mp isVerified)
          rw [isAttempt] at authentic
          exact authentic.more keyedHash _
      | _ => cases isVerified

theorem genuine_run (events : List ProbeEvent) :
    Genuine keyedHash events (run (step keyedHash) new events) := by
  induction events using List.reverseRecOn with
  | nil =>
      refine ⟨?_, ?_⟩
      · intro call arriving found
        cases found
      · intro attempt probe member
        cases member
  | append_singleton events event ih =>
      exact ih.more keyedHash event

theorem authentic_run (events : List ProbeEvent) (attempt : Bytes16)
    {probe : SocketAddr × Probe}
    (handed : probe ∈ outputs (step keyedHash) (hands attempt) new events) :
    Authentic keyedHash events attempt probe := by
  induction events using List.reverseRecOn with
  | nil => cases handed
  | append_singleton events event ih =>
      rw [outputs_concat] at handed
      rcases List.mem_append.mp handed with earlier | now
      · exact (ih earlier).more keyedHash [event]
      · cases event with
        | tryRecvProbe other =>
            have member : probe ∈ (run (step keyedHash) new events).queue attempt := by
              have first : probe ∈ (if other = attempt then
                ((run (step keyedHash) new events).queue attempt).head?.toList else []) := now
              split at first
              · exact List.mem_of_mem_head? (Option.mem_toList.mp first)
              · cases first
            exact ((genuine_run keyedHash events).queued attempt probe member).more keyedHash _
        | _ => cases now

/-! ## The armed attempts -/

/-- An attempt has a queue only while its key is armed. -/
def Bounded (world : ProbeQueues) : Prop :=
  ∀ attempt, attempt ∈ world.inboundProbes → world.Armed attempt

/-- No new queue, and nothing disarmed. -/
theorem Bounded.keep {world next : ProbeQueues} (bounded : world.Bounded)
    (queues : ∀ attempt, attempt ∈ next.inboundProbes → attempt ∈ world.inboundProbes)
    (armed : ∀ attempt, world.Armed attempt → next.Armed attempt) : next.Bounded :=
  fun attempt occupied => armed attempt (bounded attempt (queues attempt occupied))

theorem Bounded.disarms {world : ProbeQueues} (bounded : world.Bounded) (call : Nat)
    (attempt : Bytes16) : (world.step keyedHash (.disarms call attempt)).Bounded := by
  unfold step
  simp only
  by_cases taken : call ∈ world.disarming
  · rw [if_pos taken]
    exact bounded
  · rw [if_neg taken]
    refine bounded.keep (fun _ occupied => occupied) ?_
    intro other armed
    by_cases same : other = attempt
    · refine Or.inr ⟨call, ?_⟩
      show (world.disarming.put call attempt).lookup call = some other
      rw [HashMap.lookup_put, if_pos rfl, same]
    · rcases armed with key | ⟨earlier, isDisarming⟩
      · exact Or.inl (AList.mem_erase.mpr ⟨same, key⟩)
      · have differs : earlier ≠ call := by
          intro isCall
          apply taken
          rw [← isCall, ← AList.lookup_isSome, isDisarming]
          rfl
        refine Or.inr ⟨earlier, ?_⟩
        show (world.disarming.put call attempt).lookup earlier = some other
        rw [HashMap.lookup_put, if_neg differs]
        exact isDisarming

theorem Bounded.discards {world : ProbeQueues} (bounded : world.Bounded) (call : Nat) :
    (world.step keyedHash (.discards call)).Bounded := by
  unfold step
  simp only
  cases found : world.disarming.lookup call with
  | none => exact bounded
  | some attempt =>
      intro other occupied
      obtain ⟨differs, was⟩ := AList.mem_erase.mp occupied
      rcases bounded other was with key | ⟨earlier, isDisarming⟩
      · exact Or.inl key
      · have elsewhere : earlier ≠ call := by
          intro isCall
          rw [isCall, found] at isDisarming
          exact differs (Option.some.inj isDisarming).symm
        refine Or.inr ⟨earlier, ?_⟩
        show (world.disarming.erase call).lookup earlier = some other
        rw [HashMap.lookup_erase, if_neg elsewhere]
        exact isDisarming

theorem Bounded.tryRecvProbe {world : ProbeQueues} (bounded : world.Bounded)
    (attempt : Bytes16) : (world.tryRecvProbe attempt).Bounded := by
  unfold ProbeQueues.tryRecvProbe
  cases found : world.inboundProbes.lookup attempt with
  | none => exact bounded
  | some queue =>
      have occupied : attempt ∈ world.inboundProbes := by
        rw [← AList.lookup_isSome, found]
        rfl
      simp only
      split
      · exact bounded.keep (fun _ kept => (AList.mem_erase.mp kept).2) fun _ armed => armed
      · refine bounded.keep ?_ fun _ armed => armed
        intro other kept
        rcases (HashMap.mem_put _ _ _ _).mp kept with same | was
        · rw [same]
          exact occupied
        · exact was

theorem armed_files {world : ProbeQueues} {call : Nat} {attempt : Bytes16} :
    (world.files keyedHash call).Armed attempt ↔ world.Armed attempt := by
  obtain ⟨keys, disarming⟩ := keys_files keyedHash world call
  unfold Armed
  rw [keys, disarming]

/-- A turn of `queue_probes` gives a queue to an attempt that is not armed only by filing a probe
of it. -/
theorem bounded_files_iff {world : ProbeQueues} (bounded : world.Bounded) (call : Nat) :
    (world.files keyedHash call).Bounded ↔ world.InTime keyedHash (.files call) := by
  cases verifies : world.verified keyedHash call with
  | none =>
      apply iff_of_true
      · apply bounded.keep
        · rw [(files_of_none keyedHash verifies).1]
          exact fun _ occupied => occupied
        · exact fun _ => (armed_files keyedHash).mpr
      · intro probe isProbe
        rw [verifies] at isProbe
        cases isProbe
  | some probe =>
      have filed := (files_of_some keyedHash verifies).1
      have isInTime : world.InTime keyedHash (.files call) ↔ world.Armed probe.2.attempt := by
        constructor
        · exact fun inTime => inTime probe verifies
        · intro armed other isOther
          rw [← Option.some.inj (verifies.symm.trans isOther)]
          exact armed
      rw [isInTime]
      rw [inboundProbes_file] at filed
      by_cases full : inboundProbeQueueCap ≤ (world.queue probe.2.attempt).length
      · rw [if_pos full] at filed
        -- A queue that is full is there already.
        have occupied : probe.2.attempt ∈ world.inboundProbes := by
          by_contra vacant
          have nothing : world.queue probe.2.attempt = [] := by
            unfold queue
            rw [AList.lookup_eq_none.mpr vacant]
            rfl
          rw [nothing] at full
          exact absurd full (by decide)
        apply iff_of_true _ (bounded _ occupied)
        apply bounded.keep
        · rw [filed]
          exact fun _ was => was
        · exact fun _ => (armed_files keyedHash).mpr
      · rw [if_neg full] at filed
        constructor
        · intro after
          apply (armed_files keyedHash).mp (after _ _)
          rw [filed]
          exact (HashMap.mem_put _ _ _ _).mpr (Or.inl rfl)
        · intro armed attempt occupied
          rw [filed] at occupied
          apply (armed_files keyedHash).mpr
          rcases (HashMap.mem_put _ _ _ _).mp occupied with same | was
          · rw [same]
            exact armed
          · exact bounded attempt was

/-- The attempts with a queue stay among the armed ones over an event exactly when it is in
time. -/
theorem bounded_step_iff {world : ProbeQueues} (bounded : world.Bounded) (event : ProbeEvent) :
    (world.step keyedHash event).Bounded ↔ world.InTime keyedHash event := by
  cases event with
  | files call => exact bounded_files_iff keyedHash bounded call
  | disarms call attempt => exact iff_of_true (bounded.disarms keyedHash call attempt) trivial
  | discards call => exact iff_of_true (bounded.discards keyedHash call) trivial
  | tryRecvProbe attempt => exact iff_of_true (bounded.tryRecvProbe attempt) trivial
  | armProbeKey attempt key =>
      apply iff_of_true _ trivial
      refine bounded.keep (fun _ occupied => occupied) ?_
      intro other armed
      exact armed.imp (fun isKey => (HashMap.mem_put _ _ _ _).mpr (Or.inr isKey)) id
  | arrives call source segments =>
      apply iff_of_true _ trivial
      unfold step arrives
      simp only
      split
      · exact bounded
      · split
        · exact bounded.keep (fun _ occupied => occupied) fun _ armed => armed
        · exact bounded.keep (fun _ occupied => occupied) fun _ armed => armed

/-- Whatever else happens, the queues are orderly as long as the attempts with a queue are
armed. -/
theorem orderly_iff (events : List ProbeEvent) :
    Orderly keyedHash events ↔ (run (step keyedHash) new events).Bounded := by
  constructor
  · exact fun orderly => orderly.armed
  · intro bounded
    exact ⟨fun attempt _ => authentic_run keyedHash events attempt,
      inOrder_run keyedHash events, fun attempt => handed_run keyedHash events attempt new,
      bounded_run keyedHash events, accounted_run keyedHash events, counted_run keyedHash events,
      bounded⟩

/-- The queues are orderly throughout a run exactly when no batch in it files a probe for an
attempt that was disarmed after the batch had copied its key. -/
theorem orderly_iff_inTime (events : List ProbeEvent) :
    (∀ front, front <+: events → Orderly keyedHash front) ↔
      Guarded (step keyedHash) (InTime keyedHash) new events := by
  have initial : (new : ProbeQueues).Bounded := by
    intro attempt occupied
    exact absurd occupied (AList.notMem_empty attempt)
  have kept : Throughout (step keyedHash) Bounded new events ↔
      Guarded (step keyedHash) (InTime keyedHash) new events :=
    throughout_iff_guarded (fun _ event bounded => bounded_step_iff keyedHash bounded event) initial
  rw [← kept]
  constructor
  · exact fun orderly front inside => (orderly_iff keyedHash front).mp (orderly front inside)
  · exact fun bounded front inside => (orderly_iff keyedHash front).mpr (bounded front inside)

/-- An attempt, its key, and a probe of it. -/
def lateAttempt : Bytes16 := List.Vector.replicate 16 7

def lateKey : Bytes32 := List.Vector.replicate 32 9

def lateProbe : Probe := ⟨probePing, lateAttempt, List.Vector.replicate 8 0, Addr.unset⟩

def lateSegment : ProbeSegment :=
  ⟨lateProbe.encode keyedHash lateKey, Probe.encode_length keyedHash lateProbe lateKey⟩

def lateSource : SocketAddr := ⟨.v4 (List.Vector.replicate 4 1), 4433⟩

/-- The attempt is disarmed after a batch has copied its key. -/
def lateDisarm : List ProbeEvent :=
  [.armProbeKey lateAttempt lateKey, .arrives 0 lateSource [lateSegment keyedHash],
    .disarms 0 lateAttempt, .discards 0]

/-- The batch has its key, and the attempt is not armed. -/
theorem run_lateDisarm :
    run (step keyedHash) new (lateDisarm keyedHash) =
      { probeKeys := AList.erase lateAttempt (HashMap.put ∅ lateAttempt lateKey)
        inboundProbes := AList.erase lateAttempt ∅
        probesUnauthenticated := 0
        inboundProbesDropped := 0
        arriving := HashMap.put ∅ 0
          ⟨lateSource, [lateSegment keyedHash], HashMap.put ∅ lateAttempt lateKey⟩
        disarming := AList.erase 0 (HashMap.put ∅ 0 lateAttempt) } := by
  have some : HashMap.put ∅ lateAttempt lateKey ≠ (∅ : HashMap Bytes16 Bytes32) := by
    intro nothing
    have found := HashMap.lookup_put (∅ : HashMap Bytes16 Bytes32) lateAttempt lateAttempt lateKey
    rw [nothing, if_pos rfl] at found
    cases found
  unfold lateDisarm
  simp only [run_cons, run_nil, step, arrives, new]
  rw [if_neg (AList.notMem_empty 0), if_neg some]
  simp only
  rw [if_neg (AList.notMem_empty 0)]
  simp only [HashMap.lookup_put, if_true]

/-- The probe is filed for the attempt all the same, and its queue stays. -/
theorem late_probe_filed :
    ¬∃ keyedHash, Orderly keyedHash (lateDisarm keyedHash ++ [.files 0]) := by
  rintro ⟨keyedHash, orderly⟩
  have verifies : (run (step keyedHash) new (lateDisarm keyedHash)).verified keyedHash 0 =
      some (lateSource, lateProbe) := by
    have isProbe : verify keyedHash (HashMap.put ∅ lateAttempt lateKey) (lateSegment keyedHash) =
        some lateProbe := by
      apply (verify_eq_some keyedHash).mpr
      refine ⟨lateKey, ?_, Probe.decode_encode keyedHash lateKey (Or.inl rfl)⟩
      exact (HashMap.lookup_put _ _ _ _).trans (if_pos rfl)
    rw [run_lateDisarm]
    unfold verified
    simp only [HashMap.lookup_put, if_true]
    rw [isProbe]
    rfl
  have bounded : (run (step keyedHash) new (lateDisarm keyedHash)).Bounded := by
    intro attempt occupied
    rw [run_lateDisarm] at occupied
    exact absurd (AList.mem_erase.mp occupied).2 (AList.notMem_empty attempt)
  have after := (orderly_iff keyedHash _).mp orderly
  rw [run_concat] at after
  have armed := (bounded_files_iff keyedHash bounded 0).mp after _ verifies
  rw [run_lateDisarm] at armed
  rcases armed with isKey | ⟨call, isDisarming⟩
  · exact (AList.mem_erase.mp isKey).1 rfl
  · simp only [HashMap.lookup_erase, HashMap.lookup_put] at isDisarming
    split at isDisarming
    · cases isDisarming
    · cases isDisarming

end ProbeQueues

end Mosschat.Net
