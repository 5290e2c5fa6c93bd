import Mathlib.Data.Nat.Find
import Mosschat.Net.Doorbell.Ending

/-!
Owns an attempt as `run_doorbell` drives it, tick after tick, and that a candidate that
answers within 900 ms makes it upgrade before it gives up.

Does not own the sockets between the ticks, nor what the doorbell does once it upgraded.
-/

namespace Mosschat.Net

open Mosschat.Core Mosschat.Library Mosschat.Library.Machine Mosschat.Net.Gate

/-- One turn of the loop while it probes: when it begins, the tx ids it draws, and the probes
it drains, each with its source and the time it is taken from the queue. -/
structure Tick where
  now : Nat
  txIds : Nat → TxId
  arrived : List (SocketAddr × Probe × Nat)

/-- The call only adds candidates, or vouches for an address. -/
def AttemptCall.Adds : AttemptCall → Prop
  | .addCandidate .. | .addDiscovered _ | .vouch _ | .addPeerCandidates _ => True
  | _ => False

/-- The candidate is at the address. -/
def Candidate.isAt (addr : SocketAddr) (candidate : Candidate) : Bool := candidate.addr == addr

namespace Attempt

/-- What the loop does with one probe it drained. -/
def hears (attempt : Attempt) (arrival : SocketAddr × Probe × Nat) : Attempt :=
  if arrival.2.1.kind = probePing then attempt
  else (attempt.onPong arrival.1 arrival.2.1 arrival.2.2).1

/-- One turn of the loop: probe, drain, decide. -/
def turn (attempt : Attempt) (tick : Tick) : Attempt × Option Winner :=
  (tick.arrived.foldl hears (attempt.dueProbes tick.now tick.txIds).1).decide

/-- The attempt before each turn. -/
def stateAt (start : Attempt) (ticks : Nat → Tick) : Nat → Attempt
  | 0 => start
  | number + 1 => ((stateAt start ticks number).turn (ticks number)).1

/-- The turns follow each other within a tick, begin while the probes are still frequent, and
go on until the attempt would be given up. -/
structure Drives (ticks : Nat → Tick) (fireAt : Nat) : Prop where
  ordered : ∀ number, (ticks number).now ≤ (ticks (number + 1)).now
  prompt : ∀ number, (ticks (number + 1)).now ≤ (ticks number).now + doorbellTick
  first : (ticks 0).now ≤ fireAt + probeFastWindow
  lasting : ∃ number, fireAt + probeGiveUp ≤ (ticks number).now

/-- The arrival is the address's pong for the ping. -/
def IsPong (id : Bytes16) (addr : SocketAddr) (tx : TxId)
    (arrival : SocketAddr × Probe × Nat) : Prop :=
  arrival.1 = addr ∧ arrival.2.1.kind = probePong ∧ arrival.2.1.attempt = id ∧
    arrival.2.1.tx = tx

/-- Every ping to the address is answered within the round trip: its pong is drained no later
than in the first turn that begins after it. -/
def Answering (start : Attempt) (ticks : Nat → Tick) (addr : SocketAddr) (rtt : Nat) : Prop :=
  ∀ sentIn, ∀ probe ∈
      ((stateAt start ticks sentIn).dueProbes (ticks sentIn).now (ticks sentIn).txIds).2,
    probe.1 = addr → ∃ drainedIn, sentIn ≤ drainedIn ∧
      (∃ arrival ∈ (ticks drainedIn).arrived, IsPong start.id addr probe.2.tx arrival) ∧
      ∀ between, sentIn ≤ between → between < drainedIn →
        (ticks between).now < (ticks sentIn).now + rtt

/-! ## One candidate in the table -/

/-- The candidate at an address. -/
def seat (attempt : Attempt) (addr : SocketAddr) : Option Candidate :=
  attempt.candidates.find? (Candidate.isAt addr)

theorem seat_probeEach {id : Bytes16} {now interval : Nat} {txIds : Nat → TxId} {drawn : Nat}
    {candidates : List Candidate} {addr : SocketAddr} {candidate : Candidate}
    (found : candidates.find? (Candidate.isAt addr) = some candidate) :
    candidate.waits now interval = true ∧
        (probeEach id now interval txIds drawn candidates).1.find? (Candidate.isAt addr) =
          some candidate ∨
      candidate.waits now interval = false ∧ ∃ tx,
        (probeEach id now interval txIds drawn candidates).1.find? (Candidate.isAt addr) =
            some (candidate.pinged tx now) ∧
          (addr, ping id tx) ∈ (probeEach id now interval txIds drawn candidates).2 := by
  induction candidates generalizing drawn with
  | nil => cases found
  | cons head rest ih =>
      cases isHead : head.isAt addr with
      | true =>
          rw [List.find?_cons_of_pos isHead, Option.some.injEq] at found
          rw [← found]
          cases waits : head.waits now interval with
          | true =>
              left
              rw [probeEach, if_pos waits]
              exact ⟨rfl, List.find?_cons_of_pos isHead⟩
          | false =>
              right
              refine ⟨rfl, txIds drawn, ?_, ?_⟩
              · rw [probeEach, if_neg (ne_true_of_eq_false waits)]
                exact List.find?_cons_of_pos (by rw [Candidate.isAt, Candidate.pinged_addr]; exact isHead)
              · rw [probeEach, if_neg (ne_true_of_eq_false waits)]
                rw [Candidate.isAt, beq_iff_eq] at isHead
                rw [isHead]
                exact List.mem_cons_self
      | false =>
          have notHead : ¬head.isAt addr = true := ne_true_of_eq_false isHead
          rw [List.find?_cons_of_neg notHead] at found
          rw [probeEach]
          split
          · rw [List.find?_cons_of_neg notHead]
            exact ih found
          · have notPinged : ¬(head.pinged (txIds drawn) now).isAt addr = true := by
              rw [Candidate.isAt, Candidate.pinged_addr]
              exact notHead
            rw [List.find?_cons_of_neg notPinged]
            refine (ih found).imp_right fun pinged => ?_
            obtain ⟨due, tx, isPinged, sent⟩ := pinged
            exact ⟨due, tx, isPinged, List.mem_cons_of_mem _ sent⟩

/-- What a candidate makes of one probe that was drained. -/
def Heard (id : Bytes16) (candidate : Candidate) (arrival : SocketAddr × Probe × Nat) :
    Candidate :=
  if arrival.2.1.kind = probePong ∧ arrival.2.1.attempt = id then
    (candidate.answer arrival.1 arrival.2.1.tx arrival.2.2).1
  else candidate

theorem hears_eq {attempt : Attempt} (open_ : attempt.winner = none)
    (arrival : SocketAddr × Probe × Nat) :
    attempt.hears arrival = { attempt with
      candidates := attempt.candidates.map fun candidate => Heard attempt.id candidate arrival } := by
  unfold hears onPong
  by_cases ours : arrival.2.1.kind = probePong ∧ arrival.2.1.attempt = attempt.id
  · have notPing : arrival.2.1.kind ≠ probePing := by
      rw [ours.1]
      decide
    have reaches : ¬((attempt.winner.isSome || arrival.2.1.kind != probePong ||
        arrival.2.1.attempt != attempt.id) = true) := by
      simp only [open_, ours.1, ours.2, Option.isSome_none, bne_self_eq_false, Bool.or_self,
        Bool.false_eq_true, not_false_eq_true]
    rw [if_neg notPing, if_neg reaches]
    simp only [Heard, ours, and_self, ↓reduceIte]
  · have same : attempt.candidates.map (fun candidate => Heard attempt.id candidate arrival) =
        attempt.candidates := by
      simp only [Heard, if_neg ours, List.map_id']
    have ignored : (attempt.winner.isSome || arrival.2.1.kind != probePong ||
        arrival.2.1.attempt != attempt.id) = true := by
      rw [Bool.or_assoc, Bool.or_eq_true, Bool.or_eq_true, bne_iff_ne, bne_iff_ne]
      exact Or.inr (not_and_or.mp ours)
    rw [same, if_pos ignored]
    split <;> rfl

theorem heard_addr (id : Bytes16) (candidate : Candidate)
    (arrival : SocketAddr × Probe × Nat) : (Heard id candidate arrival).addr = candidate.addr := by
  unfold Heard
  split
  · exact Candidate.answer_addr _ _ _ _
  · rfl

/-- Draining changes each candidate on its own. -/
theorem foldl_hears {attempt : Attempt} (open_ : attempt.winner = none)
    (arrived : List (SocketAddr × Probe × Nat)) :
    arrived.foldl hears attempt = { attempt with
      candidates := attempt.candidates.map fun candidate =>
        arrived.foldl (Heard attempt.id) candidate } := by
  induction arrived generalizing attempt with
  | nil =>
      simp only [List.foldl_nil, List.map_id']
  | cons arrival rest ih =>
      rw [List.foldl_cons, hears_eq open_]
      have later := ih (show ({ attempt with
        candidates := attempt.candidates.map fun candidate =>
          Heard attempt.id candidate arrival } : Attempt).winner = none from open_)
      rw [later]
      simp only [List.map_map, Function.comp_def, List.foldl_cons]

theorem foldl_heard_addr (id : Bytes16) (candidate : Candidate)
    (arrived : List (SocketAddr × Probe × Nat)) :
    (arrived.foldl (Heard id) candidate).addr = candidate.addr := by
  induction arrived generalizing candidate with
  | nil => rfl
  | cons arrival rest ih =>
      exact (ih _).trans (heard_addr id candidate arrival)

theorem seat_hears {attempt : Attempt} (open_ : attempt.winner = none) {addr : SocketAddr}
    {candidate : Candidate} (found : attempt.seat addr = some candidate)
    (arrived : List (SocketAddr × Probe × Nat)) :
    (arrived.foldl hears attempt).seat addr =
      some (arrived.foldl (Heard attempt.id) candidate) := by
  rw [foldl_hears open_]
  show (attempt.candidates.map _).find? _ = _
  rw [List.find?_map]
  have same : (Candidate.isAt addr ∘ fun candidate =>
      arrived.foldl (Heard attempt.id) candidate) = Candidate.isAt addr := by
    funext other
    rw [Function.comp_apply, Candidate.isAt, foldl_heard_addr]
    rfl
  rw [same, show attempt.candidates.find? (Candidate.isAt addr) = some candidate from found]
  rfl

/-- The candidate's ping is answered, and nothing else changed. -/
structure Answered (candidate next : Candidate) : Prop where
  addr : next.addr = candidate.addr
  lastSent : next.lastSent = candidate.lastSent
  givenUp : next.givenUp = candidate.givenUp
  outstanding : next.outstanding = ∅
  consecutive : next.consecutive = min (candidate.consecutive + 1) (2 ^ 32 - 1)

/-- One probe that is drained changes nothing, or it is the pong that is waited for. -/
theorem heard_cases {id : Bytes16} {candidate : Candidate} {awaited : Option (TxId × Nat)}
    (isAwaited : candidate.outstanding = awaiting awaited)
    (arrival : SocketAddr × Probe × Nat) :
    Heard id candidate arrival = candidate ∧
        (∀ tx at_, awaited = some (tx, at_) → ¬IsPong id candidate.addr tx arrival) ∨
      awaited ≠ none ∧ Answered candidate (Heard id candidate arrival) := by
  unfold Heard
  by_cases ours : arrival.2.1.kind = probePong ∧ arrival.2.1.attempt = id
  · rw [if_pos ours]
    rcases candidate.answer_cases arrival.1 arrival.2.1.tx arrival.2.2 with
      ⟨ignored, same⟩ | ⟨-, sent, found, -, addr, -, outstanding, -, consecutive, rest⟩
    · refine Or.inl ⟨congrArg Prod.fst same, ?_⟩
      intro tx at_ isPing isPong
      rw [isAwaited, lookup_awaiting, isPing] at ignored
      rcases ignored with other | unknown
      · exact other isPong.1.symm
      · simp only [isPong.2.2.2, ↓reduceIte, reduceCtorEq] at unknown
    · right
      rw [isAwaited, lookup_awaiting] at found
      cases awaited with
      | none => cases found
      | some awaited =>
          simp only at found
          split at found
          · next isTx =>
              refine ⟨nofun, addr, rest.1, rest.2, ?_, consecutive⟩
              rw [outstanding, isAwaited, isTx]
              exact erase_awaiting awaited.1 awaited.2
          · cases found
  · rw [if_neg ours]
    refine Or.inl ⟨rfl, ?_⟩
    intro tx at_ _ isPong
    exact ours ⟨isPong.2.1, isPong.2.2.1⟩

theorem foldl_heard {id : Bytes16} {candidate : Candidate} {awaited : Option (TxId × Nat)}
    (isAwaited : candidate.outstanding = awaiting awaited)
    (arrived : List (SocketAddr × Probe × Nat)) :
    arrived.foldl (Heard id) candidate = candidate ∧
        (∀ tx at_, awaited = some (tx, at_) →
          ∀ arrival ∈ arrived, ¬IsPong id candidate.addr tx arrival) ∨
      awaited ≠ none ∧ Answered candidate (arrived.foldl (Heard id) candidate) := by
  induction arrived generalizing candidate awaited with
  | nil => exact Or.inl ⟨rfl, fun _ _ _ => nofun⟩
  | cons arrival rest ih =>
      rw [List.foldl_cons]
      rcases heard_cases isAwaited arrival with ⟨same, notPong⟩ | ⟨waited, answered⟩
      · rw [same]
        refine (ih isAwaited).imp_left fun unmoved => ⟨unmoved.1, ?_⟩
        intro tx at_ isPing
        exact List.forall_mem_cons.mpr ⟨notPong tx at_ isPing, unmoved.2 tx at_ isPing⟩
      · right
        refine ⟨waited, ?_⟩
        rcases ih (show (Heard id candidate arrival).outstanding = awaiting none
          from answered.outstanding) with ⟨same, -⟩ | ⟨impossible, -⟩
        · rw [same]
          exact answered
        · exact absurd rfl impossible

/-! ## One turn -/

/-- The attempt probes: it has fired or will, and nothing has won. -/
structure Probing (attempt : Attempt) (id : Bytes16) (fireAt : Nat) : Prop where
  countable : Countable attempt
  unwon : attempt.winner = none
  isFire : attempt.fireAt = some fireAt
  isId : attempt.id = id

theorem probing_dueProbes {attempt : Attempt} {id : Bytes16} {fireAt : Nat}
    (probing : Probing attempt id fireAt) (now : Nat) (txIds : Nat → TxId) :
    Probing (attempt.dueProbes now txIds).1 id fireAt := by
  refine ⟨probing.countable.dueProbes now txIds,
    (winner_dueProbes attempt now txIds).trans probing.unwon, ?_,
    (id_step attempt (.dueProbes now txIds)).trans probing.isId⟩
  unfold dueProbes
  rw [probing.isFire]
  simp only
  split
  · exact probing.isFire
  · split
    · rfl
    · rfl

theorem probing_hears {attempt : Attempt} {id : Bytes16} {fireAt : Nat}
    (probing : Probing attempt id fireAt) (arrived : List (SocketAddr × Probe × Nat)) :
    Probing (arrived.foldl hears attempt) id fireAt := by
  induction arrived generalizing attempt with
  | nil => exact probing
  | cons arrival rest ih =>
      apply ih
      have heard := hears_eq probing.unwon arrival
      refine ⟨?_, ?_, ?_, ?_⟩
      · unfold hears
        split
        · exact probing.countable
        · exact probing.countable.onPong _ _ _
      · rw [heard]
        exact probing.unwon
      · rw [heard]
        exact probing.isFire
      · rw [heard]
        exact probing.isId

/-- A turn that decides nothing leaves no candidate with a streak. -/
theorem turn_undecided {attempt : Attempt} {id : Bytes16} {fireAt : Nat}
    (probing : Probing attempt id fireAt) {tick : Tick}
    (undecided : (attempt.turn tick).2 = none) :
    Probing (attempt.turn tick).1 id fireAt ∧
      (attempt.turn tick).1 =
        tick.arrived.foldl hears (attempt.dueProbes tick.now tick.txIds).1 ∧
      ∀ candidate ∈ (attempt.turn tick).1.candidates,
        candidate.consecutive < consecutivePongsToWin := by
  have drained := probing_hears (probing_dueProbes probing tick.now tick.txIds) tick.arrived
  have same : (attempt.turn tick).1 =
      tick.arrived.foldl hears (attempt.dueProbes tick.now tick.txIds).1 :=
    decide_eq_none undecided
  rw [same]
  refine ⟨drained, rfl, ?_⟩
  intro candidate member
  by_contra enough
  apply decide_of_enough drained.countable drained.unwon
    ⟨candidate, member, Nat.le_of_not_lt enough⟩
  show Option.toList (attempt.turn tick).2 = []
  rw [undecided]
  rfl

/-- A candidate is passed over or pinged, while the attempt is under way. -/
theorem seat_dueProbes {attempt : Attempt} {id : Bytes16} {fireAt : Nat}
    (probing : Probing attempt id fireAt) {now : Nat} (begun : fireAt ≤ now)
    (inTime : now < fireAt + probeGiveUp) (txIds : Nat → TxId) {addr : SocketAddr}
    {candidate : Candidate} (found : attempt.seat addr = some candidate) :
    candidate.waits now (probeIntervalAfter (now - fireAt)) = true ∧
        (attempt.dueProbes now txIds).1.seat addr = some candidate ∨
      candidate.waits now (probeIntervalAfter (now - fireAt)) = false ∧ ∃ tx,
        (attempt.dueProbes now txIds).1.seat addr = some (candidate.pinged tx now) ∧
          (addr, ping id tx) ∈ (attempt.dueProbes now txIds).2 := by
  have notEarly : ¬((now < fireAt || attempt.winner.isSome) = true) := by
    rw [probing.unwon, Option.isSome_none, Bool.or_false, decide_eq_true_eq]
    omega
  have notOver : ¬probeGiveUp ≤ now - fireAt := by omega
  unfold dueProbes
  rw [probing.isFire]
  simp only
  rw [if_neg notEarly, if_neg notOver, ← probing.isId]
  exact seat_probeEach found

theorem dueProbes_early {attempt : Attempt} {id : Bytes16} {fireAt : Nat}
    (probing : Probing attempt id fireAt) {now : Nat} (early : now < fireAt)
    (txIds : Nat → TxId) : attempt.dueProbes now txIds = (attempt, []) := by
  unfold dueProbes
  rw [probing.isFire]
  simp only
  rw [if_pos (by rw [decide_eq_true early, Bool.true_or])]

/-! ## The answering candidate through a run -/

section Answering

variable {start : Attempt} {ticks : Nat → Tick} {addr : SocketAddr} {fireAt rtt : Nat}

variable (start ticks addr fireAt) in
/-- The candidate was last pinged in a turn, late by no more than a slow round for each answer
in a row and the ping it owes an answer to, which was not drained up to some turn. -/
structure Paced (candidate : Candidate) (sentIn : Nat) (awaited : Option (TxId × Nat))
    (upTo : Nat) : Prop where
  isAddr : candidate.addr = addr
  givenUp : candidate.givenUp = false
  begun : fireAt ≤ (ticks sentIn).now
  lastSent : candidate.lastSent = some (ticks sentIn).now
  outstanding : candidate.outstanding = awaiting awaited
  paced : (ticks sentIn).now ≤ fireAt + probeFastWindow +
    (candidate.consecutive + if awaited.isNone then 0 else 1) * (probeSlowInterval + doorbellTick)
  pending : ∀ tx at_, awaited = some (tx, at_) →
    (addr, ping start.id tx) ∈
        ((stateAt start ticks sentIn).dueProbes (ticks sentIn).now (ticks sentIn).txIds).2 ∧
      ∀ between, sentIn ≤ between → between < upTo →
        ∀ arrival ∈ (ticks between).arrived, ¬IsPong start.id addr tx arrival

/-- Draining a turn keeps the pace. -/
theorem Paced.drain {candidate : Candidate} {sentIn number : Nat}
    {awaited : Option (TxId × Nat)}
    (paced : Paced start ticks addr fireAt candidate sentIn awaited number)
    (few : ((ticks number).arrived.foldl (Heard start.id) candidate).consecutive <
      consecutivePongsToWin) :
    ∃ awaited, Paced start ticks addr fireAt
      ((ticks number).arrived.foldl (Heard start.id) candidate) sentIn awaited (number + 1) := by
  have isWin : consecutivePongsToWin = 3 := rfl
  rcases foldl_heard paced.outstanding (ticks number).arrived with
    ⟨same, notPong⟩ | ⟨waited, answered⟩
  · rw [same]
    refine ⟨awaited, paced.isAddr, paced.givenUp, paced.begun, paced.lastSent, paced.outstanding,
      paced.paced, ?_⟩
    intro tx at_ isPing
    obtain ⟨sent, notBefore⟩ := paced.pending tx at_ isPing
    refine ⟨sent, ?_⟩
    intro between since upTo arrival member
    rcases Nat.lt_or_eq_of_le (Nat.le_of_lt_succ upTo) with before | now
    · exact notBefore between since before arrival member
    · rw [now] at member
      rw [← paced.isAddr]
      exact notPong tx at_ isPing arrival member
  · refine ⟨none, answered.addr.trans paced.isAddr, answered.givenUp.trans paced.givenUp,
      paced.begun, answered.lastSent.trans paced.lastSent, answered.outstanding, ?_, nofun⟩
    have before := paced.paced
    rw [answered.consecutive] at few
    have one : (if awaited.isNone then 0 else 1) = 1 := by
      cases awaited with
      | none => exact absurd rfl waited
      | some awaited => rfl
    have count : min (candidate.consecutive + 1) (2 ^ 32 - 1) = candidate.consecutive + 1 := by
      omega
    rw [answered.consecutive, count]
    rw [one] at before
    exact before

theorem pinged_outstanding {candidate : Candidate} {awaited : Option (TxId × Nat)}
    (isAwaited : candidate.outstanding = awaiting awaited) (tx : TxId) (now : Nat) :
    (candidate.pinged tx now).outstanding = awaiting (some (tx, now)) ∧
      (candidate.pinged tx now).lastSent = some now ∧
      (candidate.pinged tx now).givenUp = candidate.givenUp ∧
      (awaited = none → (candidate.pinged tx now).consecutive = candidate.consecutive) := by
  have idle := isEmpty_awaiting awaited
  rw [← isAwaited] at idle
  rcases candidate.pinged_eq tx now with ⟨isIdle, pinged⟩ | ⟨isIdle, pinged⟩
  · have empty : candidate.outstanding = ∅ := AList.ext (List.isEmpty_iff.mp isIdle)
    rw [pinged]
    exact ⟨by rw [empty]; rfl, rfl, rfl, fun _ => rfl⟩
  · rw [pinged]
    refine ⟨rfl, rfl, rfl, ?_⟩
    intro none
    rw [none, isIdle] at idle
    cases idle

/-- A ping that is in time keeps the pace. -/
theorem paced_ping {candidate : Candidate} {number : Nat} {awaited : Option (TxId × Nat)}
    (isAddr : candidate.addr = addr) (notGivenUp : candidate.givenUp = false)
    (isAwaited : candidate.outstanding = awaiting awaited) (begun : fireAt ≤ (ticks number).now)
    {tx : TxId} (sent : (addr, ping start.id tx) ∈
      ((stateAt start ticks number).dueProbes (ticks number).now (ticks number).txIds).2)
    (inTime : (ticks number).now ≤ fireAt + probeFastWindow +
        (probeSlowInterval + doorbellTick) ∨
      awaited = none ∧ (ticks number).now ≤ fireAt + probeFastWindow +
        (candidate.consecutive + 1) * (probeSlowInterval + doorbellTick)) :
    Paced start ticks addr fireAt (candidate.pinged tx (ticks number).now) number
      (some (tx, (ticks number).now)) number := by
  obtain ⟨outstanding, lastSent, givenUp, consecutive⟩ :=
    pinged_outstanding isAwaited tx (ticks number).now
  refine ⟨(candidate.pinged_addr _ _).trans isAddr, givenUp.trans notGivenUp, begun, lastSent,
    outstanding, ?_, ?_⟩
  · show (ticks number).now ≤ fireAt + probeFastWindow + (_ + 1) * _
    rcases inTime with early | ⟨answered, inTime⟩
    · rw [Nat.add_mul, Nat.one_mul]
      omega
    · rw [consecutive answered]
      exact inTime
  · intro _ _ isPing
    cases isPing
    refine ⟨sent, ?_⟩
    intro between since before
    exact absurd since (Nat.not_le_of_lt before)

variable (start ticks addr fireAt) in
/-- No ping left for the address before a turn. -/
structure Idle (number : Nat) : Prop where
  seat : ∃ source, (stateAt start ticks number).seat addr = some (Candidate.fresh addr source)
  early : ∀ before, before + 1 = number → (ticks before).now < fireAt

variable (start ticks addr fireAt) in
/-- After a turn the candidate keeps the pace, and its next ping is not due. -/
structure Going (last : Nat) (candidate : Candidate) (sentIn : Nat)
    (awaited : Option (TxId × Nat)) : Prop where
  seat : (stateAt start ticks (last + 1)).seat addr = some candidate
  earlier : sentIn ≤ last
  paced : Paced start ticks addr fireAt candidate sentIn awaited (last + 1)
  few : candidate.consecutive < consecutivePongsToWin
  notDue : (ticks last).now <
    (ticks sentIn).now + probeIntervalAfter ((ticks last).now - fireAt)

/-- What is left of a turn once the candidate was passed over or pinged. -/
theorem going_of_paced {number : Nat} {candidate : Candidate} {sentIn : Nat}
    {awaited : Option (TxId × Nat)}
    (probing : Probing (stateAt start ticks number) start.id fireAt)
    (undecided : ((stateAt start ticks number).turn (ticks number)).2 = none)
    (found : ((stateAt start ticks number).dueProbes (ticks number).now
      (ticks number).txIds).1.seat addr = some candidate)
    (paced : Paced start ticks addr fireAt candidate sentIn awaited number)
    (earlier : sentIn ≤ number)
    (notDue : (ticks number).now <
      (ticks sentIn).now + probeIntervalAfter ((ticks number).now - fireAt)) :
    ∃ candidate sentIn awaited, Going start ticks addr fireAt number candidate sentIn awaited := by
  obtain ⟨-, isNext, few⟩ := turn_undecided probing undecided
  have probed := probing_dueProbes probing (ticks number).now (ticks number).txIds
  have drained := seat_hears probed.unwon found (ticks number).arrived
  rw [← isNext, probed.isId] at drained
  have stillFew := few _ (List.mem_of_find?_eq_some drained)
  obtain ⟨stillAwaited, stillPaced⟩ := paced.drain stillFew
  exact ⟨_, sentIn, stillAwaited, drained, earlier, stillPaced, stillFew, notDue⟩

theorem probeIntervalAfter_le (elapsed : Nat) : probeIntervalAfter elapsed ≤ probeSlowInterval := by
  unfold probeIntervalAfter
  split
  · decide
  · exact Nat.le_refl _

/-- Before the first ping nothing happens to the candidate until it is due. -/
theorem idle_turn {number : Nat}
    (probing : Probing (stateAt start ticks number) start.id fireAt)
    (undecided : ((stateAt start ticks number).turn (ticks number)).2 = none)
    (drives : Drives ticks fireAt) (inTime : (ticks number).now < fireAt + probeGiveUp)
    (idle : Idle start ticks addr fireAt number) :
    Idle start ticks addr fireAt (number + 1) ∨
      ∃ candidate sentIn awaited, Going start ticks addr fireAt number candidate sentIn awaited := by
  obtain ⟨source, isSeat⟩ := idle.seat
  by_cases early : (ticks number).now < fireAt
  · left
    obtain ⟨-, isNext, -⟩ := turn_undecided probing undecided
    rw [dueProbes_early probing early] at isNext
    have drained := seat_hears probing.unwon isSeat (ticks number).arrived
    rw [← isNext] at drained
    refine ⟨⟨source, ?_⟩, ?_⟩
    · refine drained.trans (congrArg some ?_)
      rcases foldl_heard (show (Candidate.fresh addr source).outstanding = awaiting none from rfl)
        (ticks number).arrived with ⟨same, -⟩ | ⟨impossible, -⟩
      · exact same
      · exact absurd rfl impossible
    · intro before isBefore
      rw [Nat.succ.inj isBefore]
      exact early
  · right
    rw [Nat.not_lt] at early
    rcases seat_dueProbes probing early inTime (ticks number).txIds isSeat with
      ⟨waits, -⟩ | ⟨-, tx, pinged, sent⟩
    · cases waits
    · have onTime : (ticks number).now ≤
          fireAt + probeFastWindow + (probeSlowInterval + doorbellTick) := by
        cases number with
        | zero => exact Nat.le_trans drives.first (Nat.le_add_right _ _)
        | succ before =>
            have wasEarly := idle.early before rfl
            have step := drives.prompt before
            omega
      have paced := paced_ping rfl rfl (show (Candidate.fresh addr source).outstanding =
        awaiting none from rfl) early sent (Or.inl onTime)
      have some : 0 < probeIntervalAfter ((ticks number).now - fireAt) := by
        unfold probeIntervalAfter
        split <;> decide
      exact going_of_paced probing undecided pinged paced (Nat.le_refl _)
        (Nat.lt_add_of_pos_right some)

/-- A ping that is still unanswered when the next one is due left a moment ago. -/
theorem Going.answered {last sentIn : Nat} {candidate : Candidate}
    {awaited : Option (TxId × Nat)}
    (going : Going start ticks addr fireAt last candidate sentIn awaited)
    (answering : Answering start ticks addr rtt) {tx : TxId} {at_ : Nat}
    (isPing : awaited = some (tx, at_)) : (ticks last).now < (ticks sentIn).now + rtt := by
  obtain ⟨sent, notDrained⟩ := going.paced.pending tx at_ isPing
  obtain ⟨drainedIn, since, ⟨arrival, member, isPong⟩, prompt⟩ :=
    answering sentIn (addr, ping start.id tx) sent rfl
  by_cases before : drainedIn < last + 1
  · exact absurd isPong (notDrained drainedIn since before arrival member)
  · exact prompt last going.earlier (by omega)

theorem going_turn {last sentIn : Nat} {candidate : Candidate} {awaited : Option (TxId × Nat)}
    (probing : Probing (stateAt start ticks (last + 1)) start.id fireAt)
    (undecided : ((stateAt start ticks (last + 1)).turn (ticks (last + 1))).2 = none)
    (drives : Drives ticks fireAt) (answering : Answering start ticks addr rtt)
    (quick : rtt ≤ fromMillis 900) (inTime : (ticks (last + 1)).now < fireAt + probeGiveUp)
    (going : Going start ticks addr fireAt last candidate sentIn awaited)
    (ordered : (ticks sentIn).now ≤ (ticks last).now) :
    ∃ candidate sentIn awaited,
      Going start ticks addr fireAt (last + 1) candidate sentIn awaited := by
  have paced := going.paced
  have step := drives.prompt last
  have notBefore := drives.ordered last
  have begun : fireAt ≤ (ticks (last + 1)).now := by
    have sentBegun := paced.begun
    omega
  rcases seat_dueProbes probing begun inTime (ticks (last + 1)).txIds going.seat with
    ⟨waits, passed⟩ | ⟨due, tx, pinged, sent⟩
  · refine going_of_paced probing undecided passed paced (Nat.le_succ_of_le going.earlier) ?_
    rw [Candidate.waits, paced.givenUp, paced.lastSent, Bool.false_or, decide_eq_true_eq] at waits
    omega
  · rw [Candidate.waits, paced.givenUp, paced.lastSent, Bool.false_or, decide_eq_false_iff_not]
      at due
    have some : 0 < probeIntervalAfter ((ticks (last + 1)).now - fireAt) := by
      unfold probeIntervalAfter
      split <;> decide
    refine going_of_paced probing undecided pinged
      (paced_ping paced.isAddr paced.givenUp paced.outstanding begun sent ?_) (Nat.le_refl _)
      (Nat.lt_add_of_pos_right some)
    by_cases fast : (ticks (last + 1)).now < fireAt + probeFastWindow
    · left
      omega
    · -- In the slow phase every ping was answered before the next one is due.
      right
      have slow : probeIntervalAfter ((ticks (last + 1)).now - fireAt) = probeSlowInterval :=
        if_neg (by omega)
      have within := probeIntervalAfter_le ((ticks last).now - fireAt)
      have notDue := going.notDue
      have late := paced.paced
      rw [slow] at due
      have isSlow : probeSlowInterval = 1000000000 := rfl
      have isTick : doorbellTick = 20000000 := rfl
      have isQuick : fromMillis 900 = 900000000 := rfl
      cases isAwaited : awaited with
      | none =>
          refine ⟨rfl, ?_⟩
          rw [isAwaited] at late
          have noneLate : (ticks sentIn).now ≤ fireAt + probeFastWindow +
            candidate.consecutive * (probeSlowInterval + doorbellTick) := late
          rw [Nat.add_mul, Nat.one_mul]
          omega
      | some waited =>
          have recent := going.answered answering isAwaited
          omega

theorem Drives.mono (drives : Drives ticks fireAt) {first second : Nat} (before : first ≤ second) :
    (ticks first).now ≤ (ticks second).now := by
  induction before with
  | refl => exact Nat.le_refl _
  | step _ ih => exact ih.trans (drives.ordered _)

/-- As long as nothing is decided, the candidate keeps the pace. -/
theorem keeps_pace (probing : Probing start start.id fireAt)
    (isFresh : ∃ source, start.seat addr = some (Candidate.fresh addr source))
    (drives : Drives ticks fireAt) (answering : Answering start ticks addr rtt)
    (quick : rtt ≤ fromMillis 900) {number : Nat}
    (undecided : ∀ earlier < number, (ticks earlier).now < fireAt + probeGiveUp ∧
      ((stateAt start ticks earlier).turn (ticks earlier)).2 = none) :
    Probing (stateAt start ticks number) start.id fireAt ∧
      (Idle start ticks addr fireAt number ∨ ∃ last candidate sentIn awaited, last + 1 = number ∧
        Going start ticks addr fireAt last candidate sentIn awaited) := by
  induction number with
  | zero => exact ⟨probing, Or.inl ⟨isFresh, nofun⟩⟩
  | succ number ih =>
      obtain ⟨stillProbing, stage⟩ := ih fun earlier before =>
        undecided earlier (Nat.lt_succ_of_lt before)
      obtain ⟨inTime, undecidedNow⟩ := undecided number (Nat.lt_succ_self number)
      refine ⟨(turn_undecided stillProbing undecidedNow).1, ?_⟩
      rcases stage with idle | ⟨last, candidate, sentIn, awaited, isLast, going⟩
      · rcases idle_turn stillProbing undecidedNow drives inTime idle with
          stillIdle | ⟨next, nextSent, nextAwaited, goes⟩
        · exact Or.inl stillIdle
        · exact Or.inr ⟨number, next, nextSent, nextAwaited, rfl, goes⟩
      · rw [← isLast] at stillProbing undecidedNow inTime
        obtain ⟨next, nextSent, nextAwaited, goes⟩ := going_turn stillProbing undecidedNow drives
          answering quick inTime going (drives.mono going.earlier)
        exact Or.inr ⟨last + 1, next, nextSent, nextAwaited, by rw [isLast], goes⟩

/-- The pace is too fast for ten seconds without a streak. -/
theorem decides_in_time (probing : Probing start start.id fireAt)
    (isFresh : ∃ source, start.seat addr = some (Candidate.fresh addr source))
    (drives : Drives ticks fireAt) (answering : Answering start ticks addr rtt)
    (quick : rtt ≤ fromMillis 900) :
    ∃ number winner, (ticks number).now + doorbellTick < fireAt + probeGiveUp ∧
      ((stateAt start ticks number).turn (ticks number)).2 = some winner := by
  by_contra never
  have undecided : ∀ number, (ticks number).now + doorbellTick < fireAt + probeGiveUp →
      ((stateAt start ticks number).turn (ticks number)).2 = none := by
    intro number inTime
    rw [Option.eq_none_iff_forall_not_mem]
    exact fun winner wins => never ⟨number, winner, inTime, wins⟩
  have lasting : ∃ number, fireAt + probeGiveUp ≤ (ticks number).now + doorbellTick := by
    obtain ⟨number, isOver⟩ := drives.lasting
    exact ⟨number, Nat.le_add_right_of_le isOver⟩
  have isOver := Nat.find_spec lasting
  have before : ∀ earlier < Nat.find lasting,
      (ticks earlier).now + doorbellTick < fireAt + probeGiveUp :=
    fun earlier isEarlier => Nat.lt_of_not_le (Nat.find_min lasting isEarlier)
  have isFast : probeFastWindow = 3000000000 := rfl
  have isEnd : probeGiveUp = 10000000000 := rfl
  have isSlow : probeSlowInterval = 1000000000 := rfl
  have isTick : doorbellTick = 20000000 := rfl
  have isWin : consecutivePongsToWin = 3 := rfl
  have first := drives.first
  obtain ⟨-, stage⟩ := keeps_pace probing isFresh drives answering quick
    fun earlier (isEarlier : earlier < Nat.find lasting) =>
      ⟨Nat.lt_of_le_of_lt (Nat.le_add_right _ _) (before earlier isEarlier),
        undecided earlier (before earlier isEarlier)⟩
  cases isNumber : Nat.find lasting with
  | zero =>
      rw [isNumber] at isOver
      omega
  | succ last =>
      rw [isNumber] at isOver stage
      have step := drives.prompt last
      rcases stage with idle | ⟨last', candidate, sentIn, awaited, isLast, going⟩
      · have early := idle.early last rfl
        omega
      · rw [Nat.succ.inj isLast] at going
        have few := going.few
        have notDue := going.notDue
        have within := probeIntervalAfter_le ((ticks last).now - fireAt)
        have count : (candidate.consecutive + if awaited.isNone then 0 else 1) ≤ 3 := by
          split <;> omega
        have paced := going.paced.paced
        have bound := Nat.mul_le_mul_right (probeSlowInterval + doorbellTick) count
        omega

end Answering

/-! ## From the start signal on -/

theorem grows_step {attempt : Attempt} {call : AttemptCall} (adds : call.Adds) :
    Grows attempt (attempt.step call) := by
  cases call with
  | addCandidate addr source => exact grows_addCandidate attempt addr source
  | addDiscovered addr => exact grows_addDiscovered attempt addr
  | vouch addr => exact grows_vouch attempt addr
  | addPeerCandidates addrs => exact grows_addPeerCandidates attempt addrs
  | _ => cases adds

/-- Nothing has won, and no candidate was pinged. -/
structure Gathered (attempt : Attempt) : Prop where
  unwon : attempt.winner = none
  fresh : ∀ candidate ∈ attempt.candidates, ∃ addr source, candidate = Candidate.fresh addr source

theorem Gathered.grows {attempt next : Attempt} (gathered : Gathered attempt)
    (grows : Grows attempt next) : Gathered next := by
  obtain ⟨more, isNext, pushed⟩ := grows.candidates
  refine ⟨grows.winner.trans gathered.unwon, ?_⟩
  intro candidate member
  rw [isNext] at member
  rcases List.mem_append.mp member with old | new
  · exact gathered.fresh candidate old
  · obtain ⟨addr, source, isFresh, -⟩ := pushed candidate new
    exact ⟨addr, source, isFresh⟩

theorem gathered_after {id : Bytes16} {gateReflectedPeer : Option SocketAddr}
    {gathering : List AttemptCall} (adds : ∀ call ∈ gathering, call.Adds) :
    Gathered (after id gateReflectedPeer gathering) := by
  have guarded : Guarded step (fun _ call => call.Adds) (new id gateReflectedPeer) gathering :=
    guarded_mono (fun _ call member => adds call member) (guarded_mem _ gathering)
  have initial : Gathered (new id gateReflectedPeer) :=
    ⟨rfl, fun candidate member => absurd member List.not_mem_nil⟩
  exact run_preserves (fun _ _ gathered adds => gathered.grows (grows_step adds)) initial guarded

/-- The attempt a start signal was received for, after its candidates were gathered. -/
def signalled (id : Bytes16) (gateReflectedPeer : Option SocketAddr)
    (gathering : List AttemptCall) (receivedAt : Nat) : Attempt :=
  (after id gateReflectedPeer gathering).startSignalReceived receivedAt

/-- Driven as the doorbell does it, an attempt one of whose candidates answers every ping
within 900 ms is decided in a turn that is over before it is given up, whatever else
arrives. -/
theorem upgrade_in_time (id : Bytes16) (gateReflectedPeer : Option SocketAddr)
    (gathering : List AttemptCall) (adds : ∀ call ∈ gathering, call.Adds) (receivedAt : Nat)
    (ticks : Nat → Tick) (drives : Drives ticks (receivedAt + fromMillis fireInMs.toNat))
    (addr : SocketAddr) (isCandidate : addr ∈ (after id gateReflectedPeer gathering).addrs)
    (rtt : Nat) (quick : rtt ≤ fromMillis 900)
    (answering : Answering (signalled id gateReflectedPeer gathering receivedAt) ticks addr rtt) :
    ∃ number winner,
      (ticks number).now + doorbellTick < receivedAt + fromMillis fireInMs.toNat + probeGiveUp ∧
        ((stateAt (signalled id gateReflectedPeer gathering receivedAt) ticks number).turn
          (ticks number)).2 = some winner := by
  obtain ⟨unwon, fresh⟩ : Gathered (after id gateReflectedPeer gathering) := gathered_after adds
  have probing : Probing (signalled id gateReflectedPeer gathering receivedAt)
      (signalled id gateReflectedPeer gathering receivedAt).id
      (receivedAt + fromMillis fireInMs.toNat) :=
    ⟨(countable_after id gateReflectedPeer gathering).step (.startSignalReceived receivedAt),
      unwon, rfl, rfl⟩
  have isFresh : ∃ source, (signalled id gateReflectedPeer gathering receivedAt).seat addr =
      some (Candidate.fresh addr source) := by
    obtain ⟨candidate, member, isAddr⟩ := List.mem_map.mp isCandidate
    have isSome : ((after id gateReflectedPeer gathering).candidates.find?
        (Candidate.isAt addr)).isSome := by
      rw [List.find?_isSome]
      exact ⟨candidate, member, by rw [Candidate.isAt, isAddr, beq_self_eq_true]⟩
    obtain ⟨seated, isSeated⟩ := Option.isSome_iff_exists.mp isSome
    obtain ⟨seatedAddr, source, isFresh⟩ := fresh seated (List.mem_of_find?_eq_some isSeated)
    have isAt := List.find?_some isSeated
    rw [Candidate.isAt, beq_iff_eq, isFresh] at isAt
    refine ⟨source, isSeated.trans ?_⟩
    rw [isFresh, show seatedAddr = addr from isAt]
  exact decides_in_time probing isFresh drives answering quick

theorem tx_probeEach {id : Bytes16} {now interval : Nat} {txIds : Nat → TxId} {drawn : Nat}
    {candidates : List Candidate} {probe : SocketAddr × Probe}
    (sent : probe ∈ (probeEach id now interval txIds drawn candidates).2) :
    ∃ number, probe.2.tx = txIds number := by
  induction candidates generalizing drawn with
  | nil => cases sent
  | cons candidate rest ih =>
      rw [probeEach] at sent
      split at sent
      · exact ih sent
      · rcases List.mem_cons.mp sent with here | later
        · exact ⟨drawn, by rw [here]; rfl⟩
        · exact ih later

/-- A turn every 20 ms, each with the pong of a ping it may have sent. -/
def echoed (number : Nat) : Tick where
  now := fromMillis (200 + 20 * number)
  txIds := fun _ => List.Vector.replicate 8 0
  arrived := [(⟨.newV4 203 0 113 9, 5000⟩,
    ⟨probePong, List.Vector.replicate 16 0, List.Vector.replicate 8 0, Addr.unset⟩,
    fromMillis (200 + 20 * number))]

theorem drives_echoed : Drives echoed (0 + fromMillis fireInMs.toNat) := by
  have isMilli : ∀ count, fromMillis count = count * 1000000 := fun _ => rfl
  have isTick : doorbellTick = 20 * 1000000 := rfl
  have isEnd : probeGiveUp = 10000 * 1000000 := rfl
  have isFire : fireInMs.toNat = 200 := rfl
  refine ⟨?_, ?_, ?_, ⟨500, ?_⟩⟩
  · intro number
    simp only [echoed, isMilli]
    omega
  · intro number
    simp only [echoed, isMilli, isTick]
    omega
  · simp only [echoed, isMilli, isFire]
    omega
  · simp only [echoed, isMilli, isEnd, isFire]
    omega

theorem upgrade_in_time_echoed :
    ∃ number winner,
      (echoed number).now + doorbellTick < 0 + fromMillis fireInMs.toNat + probeGiveUp ∧
      ((stateAt (signalled (List.Vector.replicate 16 0) none
        [.addCandidate ⟨.v4 ⟨[203, 0, 113, 9], rfl⟩, 5000⟩ .gateReflected] 0) echoed number).turn
          (echoed number)).2 = some winner := by
  refine upgrade_in_time (List.Vector.replicate 16 0) none
    [.addCandidate ⟨.v4 ⟨[203, 0, 113, 9], rfl⟩, 5000⟩ .gateReflected]
    (List.forall_mem_singleton.mpr trivial) 0 echoed drives_echoed
    ⟨.v4 ⟨[203, 0, 113, 9], rfl⟩, 5000⟩ (by decide) 0 (Nat.zero_le _) ?_
  intro sentIn probe sent isAddr
  refine ⟨sentIn, Nat.le_refl _, ⟨_, List.mem_singleton_self _, rfl, rfl, rfl, ?_⟩, ?_⟩
  · have isTx : probe.2.tx = List.Vector.replicate 8 0 := by
      unfold dueProbes at sent
      split at sent
      · cases sent
      · simp only at sent
        split at sent
        · cases sent
        · split at sent
          · cases sent
          · exact (tx_probeEach sent).choose_spec
    rw [isTx]
  · intro between since before
    exact absurd since (Nat.not_le_of_lt before)

end Attempt

end Mosschat.Net
