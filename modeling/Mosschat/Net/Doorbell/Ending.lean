import Mosschat.Net.Doorbell.Upgrade

/-!
Owns the end of an attempt: when it counts as given up, and whether any call after that, or
after its path failed, still sends a probe or returns a winner.

Does not own what the doorbell does with an attempt that ended.
-/

namespace Mosschat.Net

open Mosschat.Library Mosschat.Library.Machine Mosschat.Net.Gate

/-- The call probes, answers or decides, at this time or later. -/
def AttemptCall.Later (now : Nat) : AttemptCall → Prop
  | .dueProbes calledAt _ => now ≤ calledAt
  | .onPong _ _ calledAt => now ≤ calledAt
  | .decide => True
  | _ => False

/-- The candidate needs no ping to win but those it was sent. -/
def Candidate.CanWin (candidate : Candidate) : Prop :=
  consecutivePongsToWin ≤ candidate.consecutive + candidate.outstanding.entries.length

namespace Attempt

/-- No later call sends a probe or returns a winner. -/
def Finished (attempt : Attempt) (now : Nat) : Prop :=
  ∀ later, (∀ call ∈ later, AttemptCall.Later now call) →
    outputs step sends attempt later = [] ∧ outputs step wins attempt later = []

/-- The attempt is given up as soon as nothing is left to wait for, and once it is given up
or its path failed it is over. -/
structure EndsForGood (attempt : Attempt) (now : Nat) : Prop where
  prompt : ∀ fireAt, attempt.fireAt = some fireAt → attempt.winner = none →
    attempt.candidates = [] ∧ fireAt ≤ now ∨ fireAt + probeGiveUp ≤ now →
    attempt.givenUp now = true
  final : attempt.givenUp now = true → Finished attempt now
  failed : ∀ winner, attempt.pathFailed.2 = some winner → Finished attempt.pathFailed.1 now

/-- Nothing has won. The ten seconds of an attempt without candidates have not begun or are
over, and when they are over none of its candidates can win without another ping. -/
structure OutOfReach (attempt : Attempt) (now : Nat) : Prop where
  unwon : attempt.winner = none
  waited : ∀ fireAt, attempt.fireAt = some fireAt → attempt.candidates = [] → fireAt ≤ now →
    fireAt + probeGiveUp ≤ now
  spent : ∀ fireAt, attempt.fireAt = some fireAt → fireAt + probeGiveUp ≤ now →
    ∀ candidate ∈ attempt.candidates, ¬candidate.CanWin

/-! ## What a candidate counts -/

/-- The candidate's counters are those of some history, with a round trip for a streak. -/
def Counted (candidate : Candidate) : Prop :=
  ∃ tally, Shows candidate tally ∧ (1 ≤ tally.consecutive → tally.recent ≠ [])

theorem Counted.fresh (addr : SocketAddr) (source : CandidateSource) :
    Counted (Candidate.fresh addr source) :=
  ⟨Tally.empty, Shows.fresh addr source, fun some => absurd some (Nat.not_succ_le_zero 0)⟩

theorem lastThree_concat_ne_nil (list : List Nat) (last : Nat) :
    Candidate.lastThree (list ++ [last]) ≠ [] := by
  intro none
  have isWin : consecutivePongsToWin = 3 := rfl
  have length := congrArg List.length none
  rw [Candidate.lastThree, List.length_drop, List.length_append, List.length_singleton,
    List.length_nil, isWin] at length
  omega

theorem Counted.pinged {candidate : Candidate} (counted : Counted candidate) (tx : TxId)
    (now : Nat) : Counted (candidate.pinged tx now) := by
  obtain ⟨tally, told, streak⟩ := counted
  refine ⟨_, told.pinged tx now, ?_⟩
  rw [Tally.note_ping, Tally.kept]
  split
  · exact streak
  · exact fun some => absurd some (Nat.not_succ_le_zero 0)

theorem Counted.answer {candidate : Candidate} (counted : Counted candidate)
    (source : SocketAddr) (tx : TxId) (now : Nat) :
    Counted (candidate.answer source tx now).1 := by
  obtain ⟨tally, told, streak⟩ := counted
  refine ⟨_, told.answer source tx now, ?_⟩
  unfold Tally.note
  cases isAwaited : tally.awaited with
  | none => exact streak
  | some awaited =>
      simp only
      split
      · exact fun _ => lastThree_concat_ne_nil _ _
      · exact streak

theorem length_awaiting (awaited : Option (TxId × Nat)) :
    (awaiting awaited).entries.length = if awaited.isNone then 0 else 1 := by
  cases awaited with
  | none => rfl
  | some awaited =>
      have absent : awaited.1 ∉ (∅ : HashMap TxId Nat) := AList.notMem_empty _
      show (HashMap.put ∅ awaited.1 awaited.2).entries.length = 1
      rw [HashMap.put, if_neg absent]
      rfl

/-- An answer takes the ping it is of with it. -/
theorem canWin_of_answer {candidate : Candidate} (counted : Counted candidate)
    {source : SocketAddr} {tx : TxId} {now : Nat}
    (canWin : (candidate.answer source tx now).1.CanWin) : candidate.CanWin := by
  obtain ⟨tally, told, -⟩ := counted
  rcases candidate.answer_cases source tx now with ⟨-, same⟩ | ⟨-, sent, found, -, -, -, rest⟩
  · rw [same] at canWin
    exact canWin
  · obtain ⟨outstanding, -, consecutive, -⟩ := rest
    unfold Candidate.CanWin at canWin ⊢
    rw [told.outstanding, lookup_awaiting] at found
    rw [consecutive, outstanding, told.outstanding] at canWin
    rw [told.outstanding, length_awaiting]
    cases isAwaited : tally.awaited with
    | none =>
        rw [isAwaited] at found
        cases found
    | some awaited =>
        rw [isAwaited] at found canWin
        simp only at found
        split at found
        · next isTx =>
            rw [isTx, erase_awaiting] at canWin
            have none : (∅ : HashMap TxId Nat).entries.length = 0 := rfl
            have one : (if (some awaited).isNone then 0 else 1) = 1 := rfl
            omega
        · cases found

/-! ## What every attempt keeps to -/

/-- What the table of an attempt counts, and what a winner leaves in it. -/
structure Countable (attempt : Attempt) : Prop where
  counted : ∀ candidate ∈ attempt.candidates, Counted candidate
  won : attempt.winner ≠ none →
    ∃ candidate ∈ attempt.candidates, consecutivePongsToWin ≤ candidate.consecutive

theorem Countable.grows {attempt next : Attempt} (countable : Countable attempt)
    (grows : Grows attempt next) : Countable next := by
  obtain ⟨more, isNext, pushed⟩ := grows.candidates
  constructor
  · intro candidate member
    rw [isNext] at member
    rcases List.mem_append.mp member with old | new
    · exact countable.counted candidate old
    · obtain ⟨addr, source, isFresh, -⟩ := pushed candidate new
      rw [isFresh]
      exact Counted.fresh addr source
  · rw [grows.winner, isNext]
    intro won
    obtain ⟨candidate, member, enough⟩ := countable.won won
    exact ⟨candidate, List.mem_append_left _ member, enough⟩

theorem counted_probeEach {id : Bytes16} {now interval : Nat} {txIds : Nat → TxId} {drawn : Nat}
    {candidates : List Candidate} (counted : ∀ candidate ∈ candidates, Counted candidate) :
    ∀ candidate ∈ (probeEach id now interval txIds drawn candidates).1, Counted candidate := by
  induction candidates generalizing drawn with
  | nil => exact nofun
  | cons candidate rest ih =>
      rw [List.forall_mem_cons] at counted
      rw [probeEach]
      split
      · exact List.forall_mem_cons.mpr ⟨counted.1, ih counted.2⟩
      · exact List.forall_mem_cons.mpr ⟨counted.1.pinged _ _, ih counted.2⟩

theorem Countable.dueProbes {attempt : Attempt} (countable : Countable attempt) (now : Nat)
    (txIds : Nat → TxId) : Countable (attempt.dueProbes now txIds).1 := by
  unfold Attempt.dueProbes
  cases attempt.fireAt with
  | none => exact countable
  | some fireAt =>
      simp only
      split
      · exact countable
      next begun =>
        rw [Bool.or_eq_true, not_or, Option.not_isSome_iff_eq_none] at begun
        split
        · refine ⟨?_, fun won => absurd begun.2 won⟩
          intro candidate member
          obtain ⟨earlier, isEarlier, isCandidate⟩ := List.mem_map.mp member
          obtain ⟨tally, told, streak⟩ := countable.counted earlier isEarlier
          rw [← isCandidate]
          exact ⟨tally, ⟨told.consecutive, told.recent, told.outstanding⟩, streak⟩
        · exact ⟨counted_probeEach countable.counted, fun won => absurd begun.2 won⟩

theorem Countable.onPong {attempt : Attempt} (countable : Countable attempt)
    (source : SocketAddr) (pong : Probe) (now : Nat) :
    Countable (attempt.onPong source pong now).1 := by
  unfold Attempt.onPong
  split
  · exact countable
  next reaches =>
    rw [Bool.or_eq_true, Bool.or_eq_true, not_or, not_or, Option.not_isSome_iff_eq_none] at reaches
    refine ⟨?_, fun won => absurd reaches.1.1 won⟩
    intro candidate member
    obtain ⟨earlier, isEarlier, isCandidate⟩ := List.mem_map.mp member
    rw [← isCandidate]
    exact (countable.counted earlier isEarlier).answer source pong.tx now

theorem decide_eq_none {attempt : Attempt} (undecided : attempt.decide.2 = none) :
    attempt.decide.1 = attempt := by
  unfold Attempt.decide at undecided ⊢
  split
  · rfl
  next open_ =>
    rw [if_neg open_] at undecided
    split
    · rfl
    · next least =>
        rw [least] at undecided
        cases undecided

theorem Countable.decide {attempt : Attempt} (countable : Countable attempt) :
    Countable attempt.decide.1 := by
  cases isWinner : attempt.decide.2 with
  | none =>
      rw [decide_eq_none isWinner]
      exact countable
  | some winner =>
      obtain ⟨-, isLeast, decided⟩ := decide_eq_some isWinner
      obtain ⟨contends, -⟩ := minBy_eq_some compares_comesAfter isLeast
      obtain ⟨candidate, member, enough, -⟩ := mem_contenders.mp contends
      rw [decided]
      exact ⟨countable.counted, fun _ => ⟨candidate, member, enough⟩⟩

theorem Countable.step {attempt : Attempt} (countable : Countable attempt) (call : AttemptCall) :
    Countable (attempt.step call) := by
  cases call with
  | addCandidate addr source => exact countable.grows (grows_addCandidate attempt addr source)
  | addDiscovered addr => exact countable.grows (grows_addDiscovered attempt addr)
  | vouch addr => exact countable.grows (grows_vouch attempt addr)
  | addPeerCandidates addrs => exact countable.grows (grows_addPeerCandidates attempt addrs)
  | startSignalReceived receivedAt => exact ⟨countable.counted, countable.won⟩
  | dueProbes now txIds => exact countable.dueProbes now txIds
  | onPong source pong now => exact countable.onPong source pong now
  | decide => exact countable.decide
  | pathFailed => exact ⟨countable.counted, fun won => absurd rfl won⟩

theorem countable_after (id : Bytes16) (gateReflectedPeer : Option SocketAddr)
    (calls : List AttemptCall) : Countable (after id gateReflectedPeer calls) :=
  run_always (fun _ call countable => countable.step call) ⟨nofun, fun won => absurd rfl won⟩ calls

/-! ## When nothing follows -/

/-- A candidate with a streak wins at the next call of `decide`. -/
theorem decide_of_enough {attempt : Attempt} (countable : Countable attempt)
    (open_ : attempt.winner = none)
    (enough : ∃ candidate ∈ attempt.candidates, consecutivePongsToWin ≤ candidate.consecutive) :
    attempt.wins .decide ≠ [] := by
  obtain ⟨candidate, member, enough⟩ := enough
  obtain ⟨tally, told, streak⟩ := countable.counted candidate member
  have isWin : consecutivePongsToWin = 3 := rfl
  have recent : candidate.recent ≠ [] := by
    rw [told.recent]
    exact streak (by rw [← told.consecutive]; omega)
  have contends : (candidate.recent.sum / candidate.recent.length, candidate.addr) ∈
      attempt.contenders :=
    mem_contenders.mpr ⟨candidate, member, enough, if_neg recent, rfl⟩
  unfold wins Attempt.decide
  rw [open_]
  cases isLeast : minBy comesAfter attempt.contenders with
  | none =>
      rw [minBy_eq_none isLeast] at contends
      cases contends
  | some least => exact List.cons_ne_nil _ _

/-- Nothing is sent and nothing wins any more. -/
structure Over (attempt : Attempt) (now : Nat) : Prop where
  countable : Countable attempt
  unwon : attempt.winner = none
  late : ∃ fireAt, attempt.fireAt = some fireAt ∧ fireAt + probeGiveUp ≤ now
  spent : ∀ candidate ∈ attempt.candidates, ¬candidate.CanWin

theorem Over.kept {attempt : Attempt} {now : Nat} (ended : Over attempt now) {call : AttemptCall}
    (later : call.Later now) :
    attempt.sends call = [] ∧ attempt.wins call = [] ∧ Over (attempt.step call) now := by
  obtain ⟨fireAt, isFire, late⟩ := ended.late
  have countable := ended.countable.step call
  cases call with
  | dueProbes calledAt txIds =>
      have isLater : now ≤ calledAt := later
      have begun : ¬((calledAt < fireAt || attempt.winner.isSome) = true) := by
        rw [ended.unwon, Option.isSome_none, Bool.or_false, decide_eq_true_eq]
        omega
      have isOver : probeGiveUp ≤ calledAt - fireAt := by omega
      have due : attempt.dueProbes calledAt txIds = ({ attempt with
          candidates := attempt.candidates.map fun candidate =>
            { candidate with givenUp := true } }, []) := by
        unfold dueProbes
        rw [isFire]
        simp only
        rw [if_neg begun, if_pos isOver]
      rw [step, due] at countable ⊢
      rw [sends, due]
      refine ⟨rfl, rfl, countable, ended.unwon, ⟨fireAt, isFire, late⟩, ?_⟩
      intro candidate member
      obtain ⟨earlier, isEarlier, isCandidate⟩ := List.mem_map.mp member
      rw [← isCandidate]
      exact ended.spent earlier isEarlier
  | onPong source pong calledAt =>
      refine ⟨rfl, rfl, countable, ?_, ⟨fireAt, ?_, late⟩, ?_⟩
      · exact (winner_onPong attempt source pong calledAt).trans ended.unwon
      · show (attempt.onPong source pong calledAt).1.fireAt = some fireAt
        unfold onPong
        split
        · exact isFire
        · exact isFire
      · intro candidate member
        rw [step] at member
        unfold onPong at member
        split at member
        · exact ended.spent candidate member
        · obtain ⟨earlier, isEarlier, isCandidate⟩ := List.mem_map.mp member
          rw [← isCandidate]
          intro canWin
          exact ended.spent earlier isEarlier
            (canWin_of_answer (ended.countable.counted earlier isEarlier) canWin)
  | decide =>
      have none : attempt.contenders = [] := by
        rw [List.eq_nil_iff_forall_not_mem]
        intro contender contends
        obtain ⟨candidate, member, enough, -⟩ := mem_contenders.mp contends
        exact ended.spent candidate member (Nat.le_trans enough (Nat.le_add_right _ _))
      have decided : attempt.decide = (attempt, Option.none) := by
        unfold Attempt.decide
        rw [ended.unwon, none]
        rfl
      rw [wins, step, decided]
      exact ⟨rfl, rfl, ended⟩
  | _ => cases later

theorem Over.finished {attempt : Attempt} {now : Nat} (ended : Over attempt now) :
    Finished attempt now := by
  intro later isLater
  have guarded : Guarded step (fun _ call => AttemptCall.Later now call) attempt later :=
    guarded_mono (fun _ call member => isLater call member) (guarded_mem attempt later)
  have sendsNothing : ∀ (state : Attempt) call, AttemptCall.Later now call → Over state now →
      state.sends call = [] ∧ Over (state.step call) now := by
    intro state call isLater ended
    exact ⟨(ended.kept isLater).1, (ended.kept isLater).2.2⟩
  have winsNothing : ∀ (state : Attempt) call, AttemptCall.Later now call → Over state now →
      state.wins call = [] ∧ Over (state.step call) now := by
    intro state call isLater ended
    exact (ended.kept isLater).2
  exact ⟨outputs_eq_nil sendsNothing ended guarded, outputs_eq_nil winsNothing ended guarded⟩

/-! ## When something follows -/

theorem givenUp_iff {attempt : Attempt} {now : Nat} (unwon : attempt.winner = none) :
    attempt.givenUp now = true ↔
      ∃ fireAt, attempt.fireAt = some fireAt ∧ fireAt + probeGiveUp ≤ now := by
  unfold givenUp
  rw [unwon]
  cases attempt.fireAt with
  | none => simp
  | some fireAt => simp

theorem not_finished_of_enough {attempt : Attempt} {now : Nat} (countable : Countable attempt)
    (open_ : attempt.winner = none)
    (enough : ∃ candidate ∈ attempt.candidates, consecutivePongsToWin ≤ candidate.consecutive) :
    ¬Finished attempt now := by
  intro finished
  apply decide_of_enough countable open_ enough
  have nothing := (finished [.decide] (List.forall_mem_singleton.mpr trivial)).2
  rw [outputs, outputs, List.append_nil] at nothing
  exact nothing

/-- One late pong is enough where a candidate lacks one. -/
theorem not_finished_of_canWin {attempt : Attempt} {now : Nat} (countable : Countable attempt)
    (open_ : attempt.winner = none) {candidate : Candidate}
    (member : candidate ∈ attempt.candidates) (canWin : candidate.CanWin) :
    ¬Finished attempt now := by
  intro finished
  by_cases enough : consecutivePongsToWin ≤ candidate.consecutive
  · exact not_finished_of_enough countable open_ ⟨candidate, member, enough⟩ finished
  obtain ⟨tally, told, -⟩ := countable.counted candidate member
  have isWin : consecutivePongsToWin = 3 := rfl
  unfold Candidate.CanWin at canWin
  rw [told.outstanding, length_awaiting] at canWin
  cases isAwaited : tally.awaited with
  | none =>
      rw [isAwaited] at canWin
      exact enough canWin
  | some awaited =>
      rw [isAwaited] at canWin
      simp only [Option.isNone_some, Bool.false_eq_true, ↓reduceIte] at canWin
      have isWaited : candidate.outstanding.lookup awaited.1 = some awaited.2 := by
        rw [told.outstanding, lookup_awaiting, isAwaited]
        exact if_pos rfl
      have counts : consecutivePongsToWin ≤
          (candidate.answer candidate.addr awaited.1 now).1.consecutive := by
        rcases candidate.answer_cases candidate.addr awaited.1 now with
          ⟨ignored, -⟩ | ⟨-, -, -, -, -, -, -, -, consecutive, -⟩
        · rw [isWaited] at ignored
          exact ignored.elim (absurd rfl) nofun
        · rw [consecutive]
          omega
      let pong : Probe := ⟨probePong, attempt.id, awaited.1, Addr.unset⟩
      let answered := attempt.step (.onPong candidate.addr pong now)
      have stillOpen : answered.winner = none :=
        (winner_onPong attempt candidate.addr pong now).trans open_
      have answers : (candidate.answer candidate.addr awaited.1 now).1 ∈ answered.candidates := by
        show _ ∈ (attempt.onPong candidate.addr pong now).1.candidates
        have reaches : ¬((attempt.winner.isSome || pong.kind != probePong ||
            pong.attempt != attempt.id) = true) := by
          simp only [open_, pong, Option.isSome_none, bne_self_eq_false, Bool.or_self,
            Bool.false_eq_true, not_false_eq_true]
        rw [onPong, if_neg reaches]
        exact List.mem_map_of_mem member
      have later : ∀ call ∈ [AttemptCall.onPong candidate.addr pong now, .decide],
          AttemptCall.Later now call :=
        List.forall_mem_cons.mpr ⟨Nat.le_refl now, List.forall_mem_singleton.mpr trivial⟩
      have nothing := (finished _ later).2
      rw [outputs, outputs, outputs, List.append_nil, List.append_eq_nil_iff] at nothing
      exact decide_of_enough (countable.step _) stillOpen ⟨_, answers, counts⟩ nothing.2

/-- Whatever was called on an attempt before, it ends promptly and for good exactly where
nothing has won, its ten seconds are waited out, and none of its candidates is so close to a
streak that the pings it was sent can still win. -/
theorem endsForGood_iff (id : Bytes16) (gateReflectedPeer : Option SocketAddr)
    (calls : List AttemptCall) (now : Nat) :
    EndsForGood (after id gateReflectedPeer calls) now ↔
      OutOfReach (after id gateReflectedPeer calls) now := by
  have countable := countable_after id gateReflectedPeer calls
  constructor
  · intro ends
    have unwon : (after id gateReflectedPeer calls).winner = none := by
      cases isWinner : (after id gateReflectedPeer calls).winner with
      | none => rfl
      | some winner =>
          have enough := countable.won (by rw [isWinner]; exact nofun)
          have failed : Countable (after id gateReflectedPeer calls).pathFailed.1 :=
            countable.step .pathFailed
          exact absurd (ends.failed winner isWinner) (not_finished_of_enough failed rfl enough)
    refine ⟨unwon, ?_, ?_⟩
    · intro fireAt isFire none begun
      have givenUp := ends.prompt fireAt isFire unwon (Or.inl ⟨none, begun⟩)
      rw [givenUp_iff unwon] at givenUp
      obtain ⟨_, isFireToo, over_⟩ := givenUp
      rw [isFire, Option.some.injEq] at isFireToo
      rw [isFireToo]
      exact over_
    · intro fireAt isFire over_ candidate member canWin
      have givenUp := (givenUp_iff unwon).mpr ⟨fireAt, isFire, over_⟩
      exact not_finished_of_canWin countable unwon member canWin (ends.final givenUp)
  · intro outOfReach
    have unwon := outOfReach.unwon
    refine ⟨?_, ?_, ?_⟩
    · intro fireAt isFire _ ended
      rw [givenUp_iff unwon]
      refine ⟨fireAt, isFire, ?_⟩
      rcases ended with ⟨none, begun⟩ | over_
      · exact outOfReach.waited fireAt isFire none begun
      · exact over_
    · intro givenUp
      obtain ⟨fireAt, isFire, over_⟩ := (givenUp_iff unwon).mp givenUp
      have ended : Over (after id gateReflectedPeer calls) now :=
        ⟨countable, unwon, ⟨fireAt, isFire, over_⟩, outOfReach.spent fireAt isFire over_⟩
      exact ended.finished
    · intro winner isWinner
      rw [pathFailed, unwon] at isWinner
      cases isWinner

/-- An attempt without candidates is not given up when it fires; one that is given up wins by
a pong that comes later; and one whose winner's path failed picks the same winner again. -/
theorem ends_late_and_again :
    ¬EndsForGood (after (List.Vector.replicate 16 0) none [.startSignalReceived 0])
        (fromMillis 200) ∧
      ¬EndsForGood (after (List.Vector.replicate 16 0) none (fourthInFlight.take 7))
        (fromSecs 11) ∧
      ¬EndsForGood (after (List.Vector.replicate 16 0) none (fourthInFlight ++ [.decide]))
        (fromSecs 1) := by
  refine ⟨?_, ?_, ?_⟩
  · intro ends
    have givenUp := ends.prompt (fromMillis 200) rfl rfl (Or.inl ⟨rfl, Nat.le_refl _⟩)
    exact absurd givenUp (by decide)
  · intro ends
    have finished := ends.final (by decide)
    have nothing := (finished
      [.onPong ⟨.v4 ⟨[203, 0, 113, 9], rfl⟩, 5000⟩
          ⟨probePong, List.Vector.replicate 16 0, ⟨[3, 0, 0, 0, 0, 0, 0, 0], rfl⟩, Addr.unset⟩
          (fromSecs 11),
        .decide]
      (List.forall_mem_cons.mpr ⟨Nat.le_refl _, List.forall_mem_singleton.mpr trivial⟩)).2
    exact absurd nothing (by decide)
  · intro ends
    have finished := ends.failed ⟨⟨.v4 ⟨[203, 0, 113, 9], rfl⟩, 5000⟩, fromMillis 10⟩
      (by decide)
    have nothing := (finished [.decide] (List.forall_mem_singleton.mpr trivial)).2
    exact absurd nothing (by decide)

end Attempt

end Mosschat.Net
