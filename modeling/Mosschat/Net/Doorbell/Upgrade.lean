import Mosschat.Net.Doorbell.Candidates
import Mosschat.Net.Doorbell.Streak

/-!
Owns the upgrade rule: in every order of the calls on an attempt, which candidate `decide`
returns, that it returns one at most once, and which pongs change nothing.

Does not own whether a candidate is returned in time.
-/

namespace Mosschat.Net

open Mosschat.Core Mosschat.Library Mosschat.Library.Machine Mosschat.Net.Gate

/-! ## The least of a list -/

section MinBy

variable {α : Type} {greater : α → α → Bool}

/-- The comparison orders all values, and never both ways. -/
structure Compares (greater : α → α → Bool) : Prop where
  irrefl : ∀ value, greater value value = false
  trans : ∀ first second third, greater second first = false → greater third second = false →
    greater third first = false
  asymm : ∀ left right, greater left right = true → greater right left = false

theorem foldl_least (compares : Compares greater) (least : α) (list : List α) :
    (list.foldl (fun least next => if greater least next then next else least) least = least ∨
        list.foldl (fun least next => if greater least next then next else least) least ∈ list) ∧
      greater (list.foldl (fun least next => if greater least next then next else least) least)
        least = false ∧
      ∀ value ∈ list,
        greater (list.foldl (fun least next => if greater least next then next else least) least)
          value = false := by
  induction list generalizing least with
  | nil => exact ⟨Or.inl rfl, compares.irrefl least, nofun⟩
  | cons next rest ih =>
      rw [List.foldl_cons]
      cases isGreater : greater least next with
      | true =>
          simp only [↓reduceIte]
          obtain ⟨isOne, leastOfNext, leastOfRest⟩ := ih next
          refine ⟨Or.inr ?_, ?_, ?_⟩
          · exact isOne.elim (fun same => by rw [same]; exact List.mem_cons_self)
              (List.mem_cons_of_mem next)
          · exact compares.trans _ _ _ (compares.asymm _ _ isGreater) leastOfNext
          · rw [List.forall_mem_cons]
            exact ⟨leastOfNext, leastOfRest⟩
      | false =>
          simp only [Bool.false_eq_true, ↓reduceIte]
          obtain ⟨isOne, leastOfLeast, leastOfRest⟩ := ih least
          refine ⟨isOne.imp_right (List.mem_cons_of_mem next), leastOfLeast, ?_⟩
          rw [List.forall_mem_cons]
          exact ⟨compares.trans _ _ _ isGreater leastOfLeast, leastOfRest⟩

/-- The value `min_by` returns is one of the list's, and none is less. -/
theorem minBy_eq_some (compares : Compares greater) {list : List α} {least : α}
    (found : minBy greater list = some least) :
    least ∈ list ∧ ∀ value ∈ list, greater least value = false := by
  cases list with
  | nil => cases found
  | cons first rest =>
      have isLeast := Option.some.inj found
      obtain ⟨isOne, leastOfFirst, leastOfRest⟩ := foldl_least compares first rest
      rw [isLeast] at isOne leastOfFirst leastOfRest
      refine ⟨?_, List.forall_mem_cons.mpr ⟨leastOfFirst, leastOfRest⟩⟩
      exact isOne.elim (fun same => by rw [same]; exact List.mem_cons_self)
        (List.mem_cons_of_mem first)

theorem minBy_eq_none {list : List α} (none : minBy greater list = none) : list = [] := by
  cases list with
  | nil => rfl
  | cons first rest => cases none

end MinBy

namespace Attempt

theorem comesAfter_eq_false {left right : Nat × SocketAddr} :
    comesAfter left right = false ↔
      left.1 < right.1 ∨
        left.1 = right.1 ∧ showSocketAddr left.2 ≤ showSocketAddr right.2 := by
  rw [comesAfter, Bool.or_eq_false_iff, decide_eq_false_iff_not, Bool.and_eq_false_iff,
    beq_eq_false_iff_ne, decide_eq_false_iff_not, not_lt, not_lt]
  constructor
  · intro isLeast
    rcases Nat.lt_or_eq_of_le isLeast.1 with less | same
    · exact Or.inl less
    · exact Or.inr ⟨same, isLeast.2.resolve_left (not_not_intro same)⟩
  · intro isLeast
    rcases isLeast with less | ⟨same, inOrder⟩
    · exact ⟨Nat.le_of_lt less, Or.inl (Nat.ne_of_lt less)⟩
    · exact ⟨Nat.le_of_eq same, Or.inr inOrder⟩

theorem compares_comesAfter : Compares comesAfter where
  irrefl := fun value => comesAfter_eq_false.mpr (Or.inr ⟨rfl, le_refl _⟩)
  trans := by
    intro first second third firstSecond secondThird
    rw [comesAfter_eq_false] at firstSecond secondThird ⊢
    rcases firstSecond with less | ⟨same, inOrder⟩
    · left
      omega
    · rcases secondThird with less | ⟨alsoSame, alsoInOrder⟩
      · left
        omega
      · exact Or.inr ⟨alsoSame.trans same, le_trans alsoInOrder inOrder⟩
  asymm := by
    intro left right isAfter
    rw [comesAfter_eq_false]
    have notLeft : ¬comesAfter left right = false := by rw [isAfter]; exact Bool.noConfusion
    rw [comesAfter_eq_false] at notLeft
    rcases Nat.lt_trichotomy left.1 right.1 with less | same | more
    · exact absurd (Or.inl less) notLeft
    · rcases le_total (showSocketAddr left.2) (showSocketAddr right.2) with inOrder | inOrder
      · exact absurd (Or.inr ⟨same, inOrder⟩) notLeft
      · exact Or.inr ⟨same.symm, inOrder⟩
    · exact Or.inl more

/-! ## The history of an attempt -/

/-- A probe as it left. -/
def sentAt (now : Nat) (probe : SocketAddr × Probe) : AttemptEvent :=
  .pinged probe.1 probe.2.tx now

/-- What a call says to the addresses under probe, and they to it. -/
def notes (attempt : Attempt) : AttemptCall → List AttemptEvent
  | .dueProbes now txIds => (attempt.dueProbes now txIds).2.map (sentAt now)
  | .onPong source pong now =>
    if pong.kind = probePong ∧ pong.attempt = attempt.id then [.ponged source pong.tx now] else []
  | _ => []

/-- The history of an attempt after its calls. -/
def log (id : Bytes16) (gateReflectedPeer : Option SocketAddr) (calls : List AttemptCall) :
    List AttemptEvent :=
  outputs step notes (new id gateReflectedPeer) calls

/-- The ping that is waited for, as a candidate keeps it. -/
def awaiting : Option (TxId × Nat) → HashMap TxId Nat
  | none => ∅
  | some (tx, sentAt) => HashMap.put ∅ tx sentAt

/-- The candidate counts what the counters do. -/
structure Shows (candidate : Candidate) (tally : Tally) : Prop where
  consecutive : candidate.consecutive = tally.consecutive
  recent : candidate.recent = tally.recent
  outstanding : candidate.outstanding = awaiting tally.awaited

theorem isEmpty_awaiting (awaited : Option (TxId × Nat)) :
    (awaiting awaited).entries.isEmpty = awaited.isNone := by
  cases awaited with
  | none => rfl
  | some awaited =>
      have absent : awaited.1 ∉ (∅ : HashMap TxId Nat) := AList.notMem_empty _
      show (HashMap.put ∅ awaited.1 awaited.2).entries.isEmpty = false
      rw [HashMap.put, if_neg absent]
      rfl

theorem lookup_awaiting (awaited : Option (TxId × Nat)) (tx : TxId) :
    (awaiting awaited).lookup tx =
      match awaited with
      | none => none
      | some (waited, sentAt) => if tx = waited then some sentAt else none := by
  cases awaited with
  | none => exact AList.lookup_empty tx
  | some awaited =>
      show (HashMap.put ∅ awaited.1 awaited.2).lookup tx = _
      rw [HashMap.lookup_put, AList.lookup_empty]

theorem erase_awaiting (tx : TxId) (sentAt : Nat) :
    (awaiting (some (tx, sentAt))).erase tx = ∅ := by
  apply AList.ext
  have absent : tx ∉ (∅ : HashMap TxId Nat) := AList.notMem_empty _
  show (AList.erase tx (HashMap.put ∅ tx sentAt)).entries = []
  rw [HashMap.put, if_neg absent]
  exact List.kerase_cons_eq rfl

theorem Shows.fresh (addr : SocketAddr) (source : CandidateSource) :
    Shows (Candidate.fresh addr source) Tally.empty := ⟨rfl, rfl, rfl⟩

theorem Shows.pinged {candidate : Candidate} {tally : Tally} (told : Shows candidate tally)
    (tx : TxId) (now : Nat) :
    Shows (candidate.pinged tx now) (tally.note candidate.addr (.pinged candidate.addr tx now)) := by
  have idle := isEmpty_awaiting tally.awaited
  rw [← told.outstanding] at idle
  rw [Tally.note_ping, Tally.kept, ← idle]
  rcases candidate.pinged_eq tx now with ⟨isIdle, pinged⟩ | ⟨isIdle, pinged⟩
  · have empty : candidate.outstanding = ∅ := AList.ext (List.isEmpty_iff.mp isIdle)
    rw [pinged, isIdle]
    exact ⟨told.consecutive, told.recent, by rw [empty]; rfl⟩
  · rw [pinged, isIdle]
    exact ⟨rfl, rfl, rfl⟩

theorem Shows.answer {candidate : Candidate} {tally : Tally} (told : Shows candidate tally)
    (source : SocketAddr) (tx : TxId) (now : Nat) :
    Shows (candidate.answer source tx now).1 (tally.note candidate.addr (.ponged source tx now)) := by
  have found := lookup_awaiting tally.awaited tx
  rw [← told.outstanding] at found
  rcases candidate.answer_cases source tx now with ⟨ignored, same⟩ | ⟨isSource, sent, isSent, rest⟩
  · have noAnswer : ∀ waited sentAt, tally.awaited = some (waited, sentAt) →
        ¬(AttemptEvent.ponged source tx now).Answers candidate.addr waited := by
      intro waited sentAt isAwaited answers
      obtain ⟨arrivedAt, isAnswer⟩ := answers
      cases isAnswer
      rw [isAwaited] at found
      rcases ignored with other | unknown
      · exact other rfl
      · simp only [unknown, ↓reduceIte, reduceCtorEq] at found
    have noPing : ¬(AttemptEvent.ponged source tx now).Pings candidate.addr := by
      intro pings
      obtain ⟨_, _, isPing⟩ := pings
      cases isPing
    rw [same, Tally.note_of_not noPing noAnswer]
    exact told
  · obtain ⟨-, -, -, outstanding, recent, consecutive, -⟩ := rest
    cases isAwaited : tally.awaited with
    | none =>
        rw [isAwaited, isSent] at found
        cases found
    | some awaited =>
        rw [isAwaited, isSent] at found
        have isTx : tx = awaited.1 := by
          by_contra differs
          simp only [differs, ↓reduceIte, reduceCtorEq] at found
        simp only [isTx, ↓reduceIte, Option.some.injEq] at found
        rw [← isSource, isTx, Tally.note_answer (show tally.awaited = some (awaited.1, awaited.2)
          from isAwaited)]
        rw [← isSource, isTx] at outstanding recent consecutive
        constructor
        · rw [consecutive, told.consecutive]
        · rw [recent, told.recent, found]
        · rw [outstanding, told.outstanding, isAwaited]
          exact erase_awaiting awaited.1 awaited.2

theorem foldl_note_others {addr : SocketAddr} (tally : Tally) (now : Nat)
    {probes : List (SocketAddr × Probe)} (others : ∀ probe ∈ probes, probe.1 ≠ addr) :
    (probes.map (sentAt now)).foldl (Tally.note addr) tally = tally := by
  apply Tally.foldl_note_of_not
  · intro event member pings
    obtain ⟨probe, isProbe, isEvent⟩ := List.mem_map.mp member
    obtain ⟨tx, at_, isPing⟩ := pings
    rw [← isEvent, sentAt, AttemptEvent.pinged.injEq] at isPing
    exact others probe isProbe isPing.1
  · intro event member tx at_ _ answers
    obtain ⟨probe, -, isEvent⟩ := List.mem_map.mp member
    obtain ⟨arrivedAt, isAnswer⟩ := answers
    rw [← isEvent] at isAnswer
    cases isAnswer

/-- A round of probes is one event for each candidate that is probed. -/
theorem shows_probeEach {id : Bytes16} {now interval : Nat} {txIds : Nat → TxId} {drawn : Nat}
    {candidates : List Candidate} (distinct : (candidates.map Candidate.addr).Nodup)
    {next : Candidate} (member : next ∈ (probeEach id now interval txIds drawn candidates).1) :
    ∃ candidate ∈ candidates, next.addr = candidate.addr ∧ ∀ tally, Shows candidate tally →
      Shows next (((probeEach id now interval txIds drawn candidates).2.map (sentAt now)).foldl
        (Tally.note candidate.addr) tally) := by
  induction candidates generalizing drawn with
  | nil => cases member
  | cons candidate rest ih =>
      rw [List.map_cons, List.nodup_cons] at distinct
      have others : ∀ drawn, ∀ probe ∈ (probeEach id now interval txIds drawn rest).2,
          probe.1 ≠ candidate.addr := by
        intro drawn probe sent same
        exact distinct.1 (same ▸ mem_probeEach sent)
      unfold probeEach at member ⊢
      split at member
      next waits =>
        rw [if_pos waits]
        rcases List.mem_cons.mp member with here | later
        · refine ⟨candidate, List.mem_cons_self, by rw [here], ?_⟩
          intro tally told
          rw [foldl_note_others tally now (others drawn), here]
          exact told
        · obtain ⟨earlier, isEarlier, addr, told⟩ := ih distinct.2 later
          exact ⟨earlier, List.mem_cons_of_mem _ isEarlier, addr, told⟩
      next probed =>
        rw [if_neg probed]
        rcases List.mem_cons.mp member with here | later
        · refine ⟨candidate, List.mem_cons_self, by rw [here, Candidate.pinged_addr], ?_⟩
          intro tally told
          rw [List.map_cons, List.foldl_cons, foldl_note_others _ now (others (drawn + 1)), here]
          exact told.pinged (txIds drawn) now
        · obtain ⟨earlier, isEarlier, addr, told⟩ := ih distinct.2 later
          refine ⟨earlier, List.mem_cons_of_mem _ isEarlier, addr, ?_⟩
          intro tally isTold
          have other : candidate.addr ≠ earlier.addr := by
            intro same
            rw [same] at distinct
            exact distinct.1 (List.mem_map_of_mem isEarlier)
          rw [List.map_cons, List.foldl_cons]
          show Shows next (List.foldl _ (if candidate.addr = earlier.addr then _ else tally) _)
          rw [if_neg other]
          exact told tally isTold

/-- A candidate as it is pushed, at an address the table did not hold. -/
def Pushed (attempt : Attempt) (candidate : Candidate) : Prop :=
  ∃ addr source, candidate = Candidate.fresh addr source ∧ addr ∉ attempt.addrs

/-- All that changed is what was vouched for, and that candidates were pushed. -/
structure Grows (attempt next : Attempt) : Prop where
  id : next.id = attempt.id
  fireAt : next.fireAt = attempt.fireAt
  winner : next.winner = attempt.winner
  candidates : ∃ more, next.candidates = attempt.candidates ++ more ∧
    ∀ candidate ∈ more, attempt.Pushed candidate

theorem Grows.of_vouched {attempt next : Attempt} (id : next.id = attempt.id)
    (fireAt : next.fireAt = attempt.fireAt) (winner : next.winner = attempt.winner)
    (candidates : next.candidates = attempt.candidates) : Grows attempt next :=
  ⟨id, fireAt, winner, [], by rw [candidates, List.append_nil], nofun⟩

theorem Grows.trans {attempt between next : Attempt} (first : Grows attempt between)
    (second : Grows between next) : Grows attempt next := by
  obtain ⟨front, isFront, pushedFront⟩ := first.candidates
  obtain ⟨back, isBack, pushedBack⟩ := second.candidates
  refine ⟨second.id.trans first.id, second.fireAt.trans first.fireAt,
    second.winner.trans first.winner, front ++ back, ?_, ?_⟩
  · rw [isBack, isFront, List.append_assoc]
  · intro candidate member
    rcases List.mem_append.mp member with early | late
    · exact pushedFront candidate early
    · obtain ⟨addr, source, isFresh, new⟩ := pushedBack candidate late
      refine ⟨addr, source, isFresh, fun known => new ?_⟩
      rw [addrs, isFront, List.map_append]
      exact List.mem_append_left _ known

theorem grows_addCandidate (attempt : Attempt) (addr : SocketAddr) (source : CandidateSource) :
    Grows attempt (attempt.addCandidate addr source).1 := by
  rcases addCandidate_cases attempt addr source with same | ⟨-, -, new, -, pushed⟩
  · rw [same]
    exact Grows.of_vouched rfl rfl rfl rfl
  · rw [pushed]
    refine ⟨rfl, rfl, rfl, [_], rfl, ?_⟩
    intro candidate member
    exact ⟨_, _, List.mem_singleton.mp member, new⟩

theorem grows_vouch (attempt : Attempt) (addr : SocketAddr) :
    Grows attempt (attempt.vouch addr) := by
  unfold vouch
  simp only
  split
  · exact Grows.of_vouched rfl rfl rfl rfl
  · exact Grows.of_vouched rfl rfl rfl rfl

theorem grows_addPeerCandidates (attempt : Attempt) (addrs : List Addr) :
    Grows attempt (attempt.addPeerCandidates addrs).1 := by
  induction addrs generalizing attempt with
  | nil => exact Grows.of_vouched rfl rfl rfl rfl
  | cons addr rest ih =>
      rw [addPeerCandidates]
      cases addr.toSocketAddr with
      | none => exact ih attempt
      | some addr => exact (grows_addCandidate attempt addr _).trans (ih _)

theorem grows_addDiscovered (attempt : Attempt) (addr : SocketAddr) :
    Grows attempt (attempt.addDiscovered addr).1 := by
  have vouched := grows_vouch attempt addr
  have added := vouched.trans (grows_addCandidate (attempt.vouch addr) addr .discovery)
  unfold addDiscovered
  simp only
  split
  · exact vouched
  · split
    · exact ⟨added.id, added.fireAt, added.winner, added.candidates⟩
    · exact added

/-- The counters of every candidate tell the history, while nothing has won. -/
structure Told (attempt : Attempt) (log : List AttemptEvent) : Prop where
  distinct : attempt.addrs.Nodup
  known : ∀ event ∈ log, ∀ addr, event.Pings addr → addr ∈ attempt.addrs
  shown : attempt.winner = none →
    ∀ candidate ∈ attempt.candidates, Shows candidate (Tally.of candidate.addr log)

/-- An address outside the table was never pinged. -/
theorem Told.unknown {attempt : Attempt} {log : List AttemptEvent} (told : Told attempt log)
    {addr : SocketAddr} (new : addr ∉ attempt.addrs) : Tally.of addr log = Tally.empty := by
  apply Tally.foldl_note_of_not
  · exact fun event member pings => new (told.known event member addr pings)
  · intro event member tx at_ isAwaited
    cases isAwaited

theorem Told.grows {attempt next : Attempt} {log : List AttemptEvent} (told : Told attempt log)
    (open_ : attempt.winner = none) (grows : Grows attempt next) {candidate : Candidate}
    (member : candidate ∈ next.candidates) :
    Shows candidate (Tally.of candidate.addr (log ++ [])) := by
  obtain ⟨more, isNext, pushed⟩ := grows.candidates
  rw [isNext] at member
  rw [List.append_nil]
  rcases List.mem_append.mp member with old | new
  · exact told.shown open_ candidate old
  · obtain ⟨addr, source, isFresh, new⟩ := pushed candidate new
    rw [isFresh]
    show Shows (Candidate.fresh addr source) (Tally.of addr log)
    rw [told.unknown new]
    exact Shows.fresh addr source

/-- What a round of probes does to the candidates. -/
theorem shown_dueProbes {attempt : Attempt} {log : List AttemptEvent} (told : Told attempt log)
    (open_ : attempt.winner = none) (now : Nat) (txIds : Nat → TxId) :
    ∀ candidate ∈ (attempt.dueProbes now txIds).1.candidates,
      Shows candidate (Tally.of candidate.addr
        (log ++ attempt.notes (.dueProbes now txIds))) := by
  intro candidate member
  rw [Tally.of_append]
  unfold notes
  simp only
  unfold dueProbes at member ⊢
  cases isFire : attempt.fireAt with
  | none =>
      rw [isFire] at member
      exact told.shown open_ candidate member
  | some fireAt =>
      rw [isFire] at member
      simp only at member ⊢
      split at member
      next early =>
        rw [if_pos early]
        exact told.shown open_ candidate member
      next begun =>
        rw [if_neg begun]
        split at member
        next over_ =>
          rw [if_pos over_]
          obtain ⟨earlier, isEarlier, isCandidate⟩ := List.mem_map.mp member
          have shown := told.shown open_ earlier isEarlier
          rw [← isCandidate]
          exact ⟨shown.consecutive, shown.recent, shown.outstanding⟩
        next inTime =>
          rw [if_neg inTime]
          obtain ⟨earlier, isEarlier, addr, shown⟩ := shows_probeEach told.distinct member
          rw [addr]
          exact shown _ (told.shown open_ earlier isEarlier)

/-- What a pong does to the candidates. -/
theorem shown_onPong {attempt : Attempt} {log : List AttemptEvent} (told : Told attempt log)
    (open_ : attempt.winner = none) (source : SocketAddr) (pong : Probe) (now : Nat) :
    ∀ candidate ∈ (attempt.onPong source pong now).1.candidates,
      Shows candidate (Tally.of candidate.addr
        (log ++ attempt.notes (.onPong source pong now))) := by
  intro candidate member
  rw [Tally.of_append]
  unfold notes
  simp only
  by_cases ours : pong.kind = probePong ∧ pong.attempt = attempt.id
  · rw [if_pos ours]
    simp only [onPong, open_, ours.1, ours.2, Option.isSome_none, bne_self_eq_false,
      Bool.or_self, Bool.false_eq_true, ↓reduceIte] at member
    obtain ⟨earlier, isEarlier, isCandidate⟩ := List.mem_map.mp member
    rw [← isCandidate, Candidate.answer_addr]
    exact (told.shown open_ earlier isEarlier).answer source pong.tx now
  · have ignored : (pong.kind != probePong || pong.attempt != attempt.id) = true := by
      rw [Bool.or_eq_true, bne_iff_ne, bne_iff_ne]
      exact not_and_or.mp ours
    rw [if_neg ours]
    rw [onPong, Bool.or_assoc, ignored, Bool.or_true, if_pos rfl] at member
    exact told.shown open_ candidate member

theorem winner_dueProbes (attempt : Attempt) (now : Nat) (txIds : Nat → TxId) :
    (attempt.dueProbes now txIds).1.winner = attempt.winner := by
  unfold dueProbes
  cases attempt.fireAt with
  | none => rfl
  | some fireAt =>
      simp only
      split
      · rfl
      · split <;> rfl

theorem winner_onPong (attempt : Attempt) (source : SocketAddr) (pong : Probe) (now : Nat) :
    (attempt.onPong source pong now).1.winner = attempt.winner := by
  unfold onPong
  split <;> rfl

/-- Nothing but the failure of its path takes a winner away. -/
theorem winner_step {attempt : Attempt} {call : AttemptCall} (kept : call ≠ .pathFailed)
    (open_ : (attempt.step call).winner = none) : attempt.winner = none := by
  cases call with
  | addCandidate addr source => exact (grows_addCandidate attempt addr source).winner ▸ open_
  | addDiscovered addr => exact (grows_addDiscovered attempt addr).winner ▸ open_
  | vouch addr => exact (grows_vouch attempt addr).winner ▸ open_
  | addPeerCandidates addrs => exact (grows_addPeerCandidates attempt addrs).winner ▸ open_
  | startSignalReceived receivedAt => exact open_
  | dueProbes now txIds => exact winner_dueProbes attempt now txIds ▸ open_
  | onPong source pong now => exact winner_onPong attempt source pong now ▸ open_
  | decide =>
      cases isWinner : attempt.winner with
      | none => rfl
      | some winner =>
          rw [step, Attempt.decide, isWinner] at open_
          exact isWinner ▸ open_
  | pathFailed => exact absurd rfl kept

theorem candidates_decide (attempt : Attempt) :
    attempt.decide.1.candidates = attempt.candidates := by
  unfold Attempt.decide
  split
  · rfl
  · split <;> rfl

theorem told_step {attempt : Attempt} {call : AttemptCall} {log : List AttemptEvent}
    (kept : call ≠ .pathFailed) (told : Told attempt log) :
    Told (attempt.step call) (log ++ attempt.notes call) := by
  obtain ⟨more, joined, -⟩ := joined_step attempt call
  have grows : attempt.addrs ⊆ (attempt.step call).addrs := by
    rw [addrs_eq, addrs_eq, joined.table, List.map_append]
    exact List.subset_append_left _ _
  refine ⟨joined.distinct told.distinct, ?_, ?_⟩
  · intro event member addr pings
    rcases List.mem_append.mp member with old | new
    · exact grows (told.known event old addr pings)
    · apply grows
      cases call with
      | dueProbes now txIds =>
          obtain ⟨probe, sent, isEvent⟩ := List.mem_map.mp new
          obtain ⟨tx, at_, isPing⟩ := pings
          rw [← isEvent, sentAt, AttemptEvent.pinged.injEq] at isPing
          rw [← isPing.1]
          exact mem_sends (show probe ∈ attempt.sends (.dueProbes now txIds) from sent)
      | onPong source pong now =>
          obtain ⟨tx, at_, isPing⟩ := pings
          rw [notes, isPing] at new
          split at new
          · cases List.mem_singleton.mp new
          · cases new
      | _ => cases new
  · intro stillOpen candidate member
    have open_ := winner_step kept stillOpen
    cases call with
    | addCandidate addr source =>
        exact told.grows open_ (grows_addCandidate attempt addr source) member
    | addDiscovered addr => exact told.grows open_ (grows_addDiscovered attempt addr) member
    | vouch addr => exact told.grows open_ (grows_vouch attempt addr) member
    | addPeerCandidates addrs =>
        exact told.grows open_ (grows_addPeerCandidates attempt addrs) member
    | startSignalReceived receivedAt =>
        show Shows candidate (Tally.of candidate.addr (log ++ []))
        rw [List.append_nil]
        exact told.shown open_ candidate member
    | dueProbes now txIds => exact shown_dueProbes told open_ now txIds candidate member
    | onPong source pong now => exact shown_onPong told open_ source pong now candidate member
    | decide =>
        show Shows candidate (Tally.of candidate.addr (log ++ []))
        rw [List.append_nil]
        exact told.shown open_ candidate (candidates_decide attempt ▸ member)
    | pathFailed => exact absurd rfl kept

/-! ## The upgrade rule -/

theorem guarded_kept {calls : List AttemptCall} (kept : .pathFailed ∉ calls) (start : Attempt) :
    Guarded step (fun _ call => call ≠ .pathFailed) start calls := by
  apply guarded_mono _ (guarded_mem start calls)
  intro _ call member same
  exact kept (same ▸ member)

theorem told_after {id : Bytes16} {gateReflectedPeer : Option SocketAddr}
    {calls : List AttemptCall} (kept : .pathFailed ∉ calls) :
    Told (after id gateReflectedPeer calls) (log id gateReflectedPeer calls) := by
  have initial : Told (new id gateReflectedPeer) [] := ⟨List.nodup_nil, nofun, nofun⟩
  exact guarded_outputs (fun attempt call log noFailure told => told_step noFailure told)
    initial (guarded_kept kept _)

/-- The winner answered three pings in a row, and no address that did so was faster. -/
structure Earns (attempt : Attempt) (log : List AttemptEvent) (winner : Winner) : Prop where
  candidate : winner.addr ∈ attempt.addrs
  streak : ∃ first second third, Streak winner.addr log first second third ∧
    winner.rtt = (first + second + third) / 3
  least : ∀ addr first second third, Streak addr log first second third →
    winner.rtt < (first + second + third) / 3 ∨
      winner.rtt = (first + second + third) / 3 ∧ showSocketAddr winner.addr ≤ showSocketAddr addr

theorem mem_contenders {attempt : Attempt} {contender : Nat × SocketAddr} :
    contender ∈ attempt.contenders ↔ ∃ candidate ∈ attempt.candidates,
      consecutivePongsToWin ≤ candidate.consecutive ∧ candidate.winningRtt = some contender.1 ∧
        candidate.addr = contender.2 := by
  rw [contenders, List.mem_filterMap]
  constructor
  · rintro ⟨candidate, member, isContender⟩
    rw [List.mem_filter, decide_eq_true_eq] at member
    obtain ⟨rtt, isRtt, pair⟩ := Option.map_eq_some_iff.mp isContender
    exact ⟨candidate, member.1, member.2, by rw [isRtt, ← pair], by rw [← pair]⟩
  · rintro ⟨candidate, member, enough, isRtt, isAddr⟩
    refine ⟨candidate, List.mem_filter.mpr ⟨member, decide_eq_true enough⟩, ?_⟩
    rw [isRtt, isAddr]
    rfl

/-- A candidate with a streak contends with the mean of it. -/
theorem Shows.mean {candidate : Candidate} {tally : Tally} (told : Shows candidate tally)
    {first second third : Nat} (recent : tally.recent = [first, second, third]) :
    candidate.winningRtt = some ((first + second + third) / 3) := by
  rw [Candidate.winningRtt, told.recent, recent, if_neg (List.cons_ne_nil _ _)]
  simp only [List.sum_cons, List.sum_nil, List.length_cons, List.length_nil, Nat.add_zero,
    Nat.zero_add, Nat.reduceAdd, Nat.add_assoc]

/-- Who was pinged at an address of the table stands in it. -/
theorem Told.contends {attempt : Attempt} {log : List AttemptEvent} (told : Told attempt log)
    (open_ : attempt.winner = none) {addr : SocketAddr} {first second third : Nat}
    (streak : Streak addr log first second third) :
    ((first + second + third) / 3, addr) ∈ attempt.contenders := by
  obtain ⟨enough, recent⟩ := Tally.of_streak streak
  obtain ⟨front, one, two, three, tail, isLog, isOne, -⟩ := streak
  obtain ⟨tx, at_, between, arrivedAt, rest, isStretch, -⟩ := isOne
  have pinged : AttemptEvent.pinged addr tx at_ ∈ log := by
    rw [isLog, isStretch]
    simp
  obtain ⟨candidate, member, isAddr⟩ :=
    List.mem_map.mp (told.known _ pinged addr ⟨tx, at_, rfl⟩)
  have shown := told.shown open_ candidate member
  rw [isAddr] at shown
  exact mem_contenders.mpr
    ⟨candidate, member, by rw [shown.consecutive]; exact enough, shown.mean recent, isAddr⟩

/-- A contender has a streak whose mean it contends with. -/
theorem Told.of_contends {attempt : Attempt} {log : List AttemptEvent} (told : Told attempt log)
    (open_ : attempt.winner = none) {contender : Nat × SocketAddr}
    (contends : contender ∈ attempt.contenders) :
    contender.2 ∈ attempt.addrs ∧ ∃ first second third, Streak contender.2 log first second third ∧
      contender.1 = (first + second + third) / 3 := by
  obtain ⟨candidate, member, enough, isRtt, isAddr⟩ := mem_contenders.mp contends
  have shown := told.shown open_ candidate member
  rw [isAddr] at shown
  rw [shown.consecutive] at enough
  obtain ⟨first, second, third, recent, streak⟩ := streak_of_tally enough
  rw [shown.mean recent, Option.some.injEq] at isRtt
  exact ⟨isAddr ▸ List.mem_map_of_mem member, first, second, third, streak, isRtt.symm⟩

theorem decide_eq_some {attempt : Attempt} {winner : Winner}
    (wins : attempt.decide.2 = some winner) :
    attempt.winner = none ∧
      minBy comesAfter attempt.contenders = some (winner.rtt, winner.addr) ∧
      attempt.decide.1 = { attempt with winner := some winner } := by
  cases isWinner : attempt.winner with
  | some earlier =>
      rw [Attempt.decide, isWinner] at wins
      cases wins
  | none =>
      unfold Attempt.decide at wins ⊢
      rw [isWinner] at wins ⊢
      simp only [Option.isSome_none, Bool.false_eq_true, ↓reduceIte] at wins ⊢
      cases isLeast : minBy comesAfter attempt.contenders with
      | none =>
          rw [isLeast] at wins
          cases wins
      | some least =>
          rw [isLeast] at wins
          cases wins
          exact ⟨trivial, rfl, rfl⟩

theorem Told.earns {attempt : Attempt} {log : List AttemptEvent} (told : Told attempt log)
    {winner : Winner} (wins : attempt.decide.2 = some winner) : Earns attempt log winner := by
  obtain ⟨open_, isLeast, -⟩ := decide_eq_some wins
  obtain ⟨contends, least⟩ := minBy_eq_some compares_comesAfter isLeast
  obtain ⟨known, streak⟩ := told.of_contends open_ contends
  refine ⟨known, streak, ?_⟩
  intro addr first second third hasStreak
  exact comesAfter_eq_false.mp (least _ (told.contends open_ hasStreak))

/-- An attempt is decided once. -/
theorem wins_once {id : Bytes16} {gateReflectedPeer : Option SocketAddr}
    {calls : List AttemptCall} (kept : .pathFailed ∉ calls) :
    (outputs step wins (new id gateReflectedPeer) calls).length ≤ 1 := by
  have told : ∀ (attempt : Attempt) call (won : List Winner), call ≠ .pathFailed →
      won.length ≤ 1 ∧ (attempt.winner = none → won = []) →
        (won ++ attempt.wins call).length ≤ 1 ∧
          ((attempt.step call).winner = none → won ++ attempt.wins call = []) := by
    intro attempt call won noFailure once
    have silent : attempt.wins call = [] → (won ++ attempt.wins call).length ≤ 1 ∧
        ((attempt.step call).winner = none → won ++ attempt.wins call = []) := by
      intro none
      rw [none, List.append_nil]
      exact ⟨once.1, fun open_ => once.2 (winner_step noFailure open_)⟩
    cases call with
    | decide =>
        cases isWinner : attempt.decide.2 with
        | none => exact silent (by rw [wins, isWinner]; rfl)
        | some winner =>
            obtain ⟨open_, -, decided⟩ := decide_eq_some isWinner
            rw [once.2 open_, wins, isWinner, step, decided]
            refine ⟨Nat.le_refl 1, ?_⟩
            intro isOpen
            cases isOpen
    | _ => exact silent rfl
  have tells := guarded_outputs told
    (show ([] : List Winner).length ≤ 1 ∧ ((new id gateReflectedPeer).winner = none →
      ([] : List Winner) = []) from ⟨Nat.zero_le 1, fun _ => rfl⟩) (guarded_kept kept _)
  exact tells.1

theorem id_step (attempt : Attempt) (call : AttemptCall) : (attempt.step call).id = attempt.id := by
  cases call with
  | addCandidate addr source => exact (grows_addCandidate attempt addr source).id
  | addDiscovered addr => exact (grows_addDiscovered attempt addr).id
  | vouch addr => exact (grows_vouch attempt addr).id
  | addPeerCandidates addrs => exact (grows_addPeerCandidates attempt addrs).id
  | startSignalReceived receivedAt => rfl
  | dueProbes now txIds =>
      show (attempt.dueProbes now txIds).1.id = attempt.id
      unfold dueProbes
      cases attempt.fireAt with
      | none => rfl
      | some fireAt =>
          simp only
          split
          · rfl
          · split <;> rfl
  | onPong source pong now =>
      show (attempt.onPong source pong now).1.id = attempt.id
      unfold onPong
      split <;> rfl
  | decide =>
      show attempt.decide.1.id = attempt.id
      unfold Attempt.decide
      split
      · rfl
      · split <;> rfl
  | pathFailed => rfl

theorem id_after (id : Bytes16) (gateReflectedPeer : Option SocketAddr)
    (calls : List AttemptCall) : (after id gateReflectedPeer calls).id = id :=
  run_always (fun attempt call same => (id_step attempt call).trans same) rfl calls

/-- A pong that no ping of this attempt to its source waits for changes nothing. -/
theorem onPong_or_awaited {attempt : Attempt} {log : List AttemptEvent} (told : Told attempt log)
    (source : SocketAddr) (pong : Probe) (now : Nat) :
    attempt.onPong source pong now = (attempt, false) ∨
      pong.kind = probePong ∧ pong.attempt = attempt.id ∧ ∃ front at_ stretch,
        log = front ++ stretch ∧ Unanswered source (pong.tx, at_) stretch := by
  by_cases ignored : (attempt.winner.isSome || pong.kind != probePong ||
      pong.attempt != attempt.id) = true
  · exact Or.inl (if_pos ignored)
  have reaches := ignored
  rw [Bool.or_eq_true, Bool.or_eq_true, not_or, not_or, bne_iff_ne, bne_iff_ne, not_not,
    not_not, Option.not_isSome_iff_eq_none] at reaches
  by_cases isWaited : ∃ candidate ∈ attempt.candidates, candidate.addr = source ∧
      ∃ at_, candidate.outstanding.lookup pong.tx = some at_
  · obtain ⟨candidate, member, isAddr, at_, isWaited⟩ := isWaited
    have shown := told.shown reaches.1.1 candidate member
    rw [shown.outstanding, lookup_awaiting, isAddr] at isWaited
    obtain ⟨front, rounds, rtts, tail, tells⟩ := tells_of source log
    have isTail := tells.tail
    cases isAwaited : (Tally.of source log).awaited with
    | none =>
        rw [isAwaited] at isWaited
        cases isWaited
    | some awaited =>
        rw [isAwaited] at isWaited isTail
        simp only at isWaited isTail
        split at isWaited
        · next isTx =>
            refine Or.inr ⟨reaches.1.2, reaches.2, _, awaited.2, tail, tells.log, ?_⟩
            rw [isTx]
            exact isTail
        · cases isWaited
  · left
    have unmoved : ∀ candidate ∈ attempt.candidates,
        candidate.answer source pong.tx now = (candidate, false) := by
      intro candidate member
      rcases candidate.answer_cases source pong.tx now with ⟨-, same⟩ | ⟨isSource, at_, found, -⟩
      · exact same
      · exact absurd ⟨candidate, member, isSource, at_, found⟩ isWaited
    have sameCandidates : attempt.candidates.map (fun candidate =>
        (candidate.answer source pong.tx now).1) = attempt.candidates := by
      rw [List.map_congr_left fun candidate member => congrArg Prod.fst (unmoved candidate member)]
      exact List.map_id _
    have uncounted : attempt.candidates.any (fun candidate =>
        (candidate.answer source pong.tx now).2) = false := by
      rw [List.any_eq_false]
      intro candidate member
      rw [unmoved candidate member]
      exact Bool.false_ne_true
    rw [onPong, if_neg ignored, sameCandidates, uncounted]

/-- In every order of the calls before a path fails: whatever wins answered three pings in a
row, each before the next was sent, and was the fastest that did; one address wins at most;
and a pong counts only where a ping of this attempt to its source waits for it. -/
theorem upgrade_sound (id : Bytes16) (gateReflectedPeer : Option SocketAddr)
    (calls : List AttemptCall) (kept : .pathFailed ∉ calls) :
    (∀ winner, (after id gateReflectedPeer calls).decide.2 = some winner →
        Earns (after id gateReflectedPeer calls) (log id gateReflectedPeer calls) winner) ∧
      (outputs step wins (new id gateReflectedPeer) calls).length ≤ 1 ∧
      ∀ source pong now,
        (after id gateReflectedPeer calls).onPong source pong now =
            (after id gateReflectedPeer calls, false) ∨
          pong.kind = probePong ∧ pong.attempt = id ∧ ∃ front at_ stretch,
            log id gateReflectedPeer calls = front ++ stretch ∧
              Unanswered source (pong.tx, at_) stretch := by
  have told : Told (after id gateReflectedPeer calls) (log id gateReflectedPeer calls) :=
    told_after kept
  refine ⟨fun winner wins => told.earns wins, wins_once kept, ?_⟩
  intro source pong now
  have isId := id_after id gateReflectedPeer calls
  have awaited := onPong_or_awaited told source pong now
  rw [isId] at awaited
  exact awaited

/-- The address answered its last three pings, and none was sent to it since. -/
def AnsweredLastThree (addr : SocketAddr) (log : List AttemptEvent) : Prop :=
  ∃ front one two three first second third, log = front ++ one ++ two ++ three ∧
    Round addr one first ∧ Round addr two second ∧ Round addr three third

/-- A history that ends with a ping does not end with its answer. -/
theorem not_answeredLastThree (addr : SocketAddr) (log : List AttemptEvent) (tx : TxId)
    (at_ : Nat) : ¬AnsweredLastThree addr (log ++ [.pinged addr tx at_]) := by
  rintro ⟨front, one, two, three, first, second, third, isLog, -, -, round⟩
  obtain ⟨pingTx, pingAt, between, arrivedAt, rest, isRound, -, noPing, -⟩ := round
  rw [isRound] at isLog
  have isLast := congrArg List.getLast? isLog
  rw [List.getLast?_concat] at isLast
  rcases List.eq_nil_or_concat rest with none | ⟨earlier, last, isRest⟩
  · rw [none] at isLast
    simp [List.getLast?_append, List.getLast?_cons] at isLast
  · rw [isRest] at isLast
    simp [List.getLast?_append, List.getLast?_cons] at isLast
    apply noPing last
    · rw [isRest, List.concat_eq_append]
      exact List.mem_append_right _ (List.mem_singleton_self last)
    · exact ⟨tx, at_, isLast.symm⟩

/-- One candidate that answers three pings within ten milliseconds each, and is pinged a
fourth time before anything is decided. -/
def fourthInFlight : List AttemptCall :=
  let addr : SocketAddr := ⟨.v4 ⟨[203, 0, 113, 9], rfl⟩, 5000⟩
  let tx (number : UInt8) : TxId := ⟨[number, 0, 0, 0, 0, 0, 0, 0], rfl⟩
  let pong (number : UInt8) : Probe :=
    ⟨probePong, List.Vector.replicate 16 0, tx number, Addr.unset⟩
  [.addCandidate addr .gateReflected, .startSignalReceived 0,
    .dueProbes (fromMillis 200) fun _ => tx 1, .onPong addr (pong 1) (fromMillis 210),
    .dueProbes (fromMillis 300) fun _ => tx 2, .onPong addr (pong 2) (fromMillis 310),
    .dueProbes (fromMillis 400) fun _ => tx 3, .onPong addr (pong 3) (fromMillis 410),
    .dueProbes (fromMillis 500) fun _ => tx 4]

/-- The winner's last ping may be unanswered. -/
theorem decides_in_flight :
    AttemptCall.pathFailed ∉ fourthInFlight ∧
      ∃ winner, (after (List.Vector.replicate 16 0) none fourthInFlight).decide.2 = some winner ∧
        ¬AnsweredLastThree winner.addr
          (log (List.Vector.replicate 16 0) none fourthInFlight) := by
  constructor
  · simp [fourthInFlight]
  · refine ⟨⟨⟨.v4 ⟨[203, 0, 113, 9], rfl⟩, 5000⟩, fromMillis 10⟩, by decide, ?_⟩
    exact not_answeredLastThree _ ((log (List.Vector.replicate 16 0) none fourthInFlight).take 6)
      ⟨[4, 0, 0, 0, 0, 0, 0, 0], rfl⟩ (fromMillis 500)

theorem upgrade_sound_in_flight :
    Earns (after (List.Vector.replicate 16 0) none fourthInFlight)
      (log (List.Vector.replicate 16 0) none fourthInFlight)
      ⟨⟨.v4 ⟨[203, 0, 113, 9], rfl⟩, 5000⟩, fromMillis 10⟩ :=
  (upgrade_sound (List.Vector.replicate 16 0) none fourthInFlight (by simp [fourthInFlight])).1 _
    (by decide)

end Attempt

end Mosschat.Net
