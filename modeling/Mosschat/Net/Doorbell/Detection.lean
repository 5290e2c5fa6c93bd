import Mathlib.Data.Nat.Find
import Mosschat.Net.Doorbell.Watching
import Mosschat.Net.Liveness.Runs

/-!
Owns how long a direct path that answers nothing stays live: the turn that reports it stale,
against the probe that was the first without an answer.

Does not own what makes a path silent.
-/

namespace Mosschat.Net

open Mosschat.Library.Machine Mosschat.Net.Gate

namespace Watch

/-- The watch of a direct path before each turn. -/
def stateAt (start : Watch) (ticks : Nat → WatchTick) : Nat → Watch
  | 0 => start
  | number + 1 => (stateAt start ticks number).turn false (ticks number)

/-- How late the path may be reported stale. -/
def staleBy (srtt : Option Nat) : Nat :=
  3 * probeLossDeadline srtt + visitProbeInterval + 3 * doorbellTick

/-- The probe after an overdue one leaves soon enough after it, however the turns fall. -/
def InStep (srtt : Option Nat) : Prop :=
  ∃ rounds, probeLossDeadline srtt + doorbellTick ≤ rounds * visitProbeInterval ∧
    2 * (rounds * (visitProbeInterval + doorbellTick - 1)) ≤
      2 * probeLossDeadline srtt + visitProbeInterval + 2 * doorbellTick

/-- From its first turn on, when a probe is due, the path of a visit answers nothing, and the
turns follow each other within a tick for as long as it may take. -/
structure Silent (start : Watch) (ticks : Nat → WatchTick) : Prop where
  live : start.liveness.state = .live
  visit : start.liveness.activity = .visit
  marked : ∀ sentAt, start.liveness.outstanding = some sentAt → sentAt ≤ (ticks 0).now
  due : (start.liveness.dueProbe (ticks 0).now).2 = true
  silent : ∀ number, ∀ arrival ∈ (ticks number).arrived, ∀ earlier ≤ number,
    ¬(arrival.1 = start.addr ∧ arrival.2.1 = (ticks earlier).tx)
  ordered : ∀ number, (ticks number).now ≤ (ticks (number + 1)).now
  prompt : ∀ number, (ticks (number + 1)).now ≤ (ticks number).now + doorbellTick
  lasting : ∃ number, (ticks 0).now + staleBy start.liveness.srtt ≤ (ticks number).now

/-! ## One turn -/

/-- The path slips: its last probe was the given one after the anchor, no later than the losses
so far allow. -/
structure Slips (first : Nat) (peer : PeerLiveness) (now anchor count sent : Nat) : Prop where
  live : peer.state = .live
  visit : peer.activity = .visit
  lastSent : peer.lastSent = some sent
  slow : anchor + count * visitProbeInterval ≤ sent
  quick : sent ≤ anchor + count * (visitProbeInterval + doorbellTick - 1)
  early : sent < anchor + probeLossDeadline peer.srtt + doorbellTick
  recent : now < sent + visitProbeInterval
  marked : ∀ mark, peer.outstanding = some mark → mark ≤ anchor ∧
    2 * anchor ≤ 2 * first + peer.misses *
      (2 * probeLossDeadline peer.srtt + visitProbeInterval + 2 * doorbellTick)
  unmarked : peer.outstanding = none → 2 * anchor +
      (2 * probeLossDeadline peer.srtt + visitProbeInterval + 2 * doorbellTick) ≤
    2 * first + peer.misses *
      (2 * probeLossDeadline peer.srtt + visitProbeInterval + 2 * doorbellTick)

/-- The loss deadline of the probe that is waited for is ahead. -/
def Ahead (peer : PeerLiveness) (now anchor : Nat) : Prop :=
  ∀ mark, peer.outstanding = some mark → now < anchor + probeLossDeadline peer.srtt

/-- The next turn's probe, if it is due, keeps the path in step. -/
theorem Slips.dueProbe {first : Nat} {peer : PeerLiveness} {now anchor count sent : Nat}
    (slips : Slips first peer now anchor count sent) (ahead : Ahead peer now anchor)
    (inStep : InStep peer.srtt) {next : Nat} (ordered : now ≤ next)
    (prompt : next ≤ now + doorbellTick) :
    ∃ anchor count sent, Slips first (peer.dueProbe next).1 next anchor count sent := by
  have notDead : peer.state ≠ .dead := by
    intro isDead
    rw [slips.live] at isDead
    cases isDead
  have interval : peer.probeInterval = visitProbeInterval := by
    rw [PeerLiveness.probeInterval, slips.live, slips.visit]
  have isVisit : visitProbeInterval = 500000000 := rfl
  have isTick : doorbellTick = 20000000 := rfl
  have floor := probeLossFloor_le peer.srtt
  have isFloor : probeLossFloor = 500000000 := rfl
  have recent := slips.recent
  unfold PeerLiveness.dueProbe
  rw [if_neg notDead]
  by_cases lately : peer.sentLately next = true
  · rw [if_pos lately]
    rw [PeerLiveness.sentLately, slips.lastSent, interval, decide_eq_true_eq] at lately
    exact ⟨anchor, count, sent, slips.live, slips.visit, slips.lastSent, slips.slow, slips.quick,
      slips.early, by omega, slips.marked, slips.unmarked⟩
  · have due := lately
    rw [PeerLiveness.sentLately, slips.lastSent, interval, decide_eq_true_eq] at due
    rw [if_neg lately]
    simp only
    have slow := slips.slow
    have quick := slips.quick
    have nextQuick : next ≤ anchor + (count + 1) * (visitProbeInterval + doorbellTick - 1) := by
      rw [Nat.add_mul, Nat.one_mul]
      omega
    cases isMark : peer.outstanding with
    | some mark =>
        have isAhead := ahead mark isMark
        have allowed := slips.marked mark isMark
        refine ⟨anchor, count + 1, next, slips.live, slips.visit, rfl, ?_, nextQuick, ?_, ?_, ?_,
          ?_⟩
        · rw [Nat.add_mul, Nat.one_mul]
          omega
        · show next < anchor + probeLossDeadline peer.srtt + doorbellTick
          omega
        · omega
        · intro other isOther
          rw [← Option.some.inj isOther]
          exact allowed
        · intro isNone
          cases isNone
    | none =>
        obtain ⟨rounds, long, short⟩ := inStep
        have early := slips.early
        have allowed := slips.unmarked isMark
        have few : count < rounds := by
          have less : count * visitProbeInterval < rounds * visitProbeInterval := by omega
          exact Nat.lt_of_mul_lt_mul_right less
        have bound : (count + 1) * (visitProbeInterval + doorbellTick - 1) ≤
            rounds * (visitProbeInterval + doorbellTick - 1) := Nat.mul_le_mul_right _ few
        refine ⟨next, 0, next, slips.live, slips.visit, rfl, by omega, by omega, ?_, by omega, ?_,
          ?_⟩
        · show next < next + probeLossDeadline peer.srtt + doorbellTick
          omega
        · intro other isOther
          refine ⟨Nat.le_of_eq (Option.some.inj isOther).symm, ?_⟩
          show 2 * next ≤ 2 * first + peer.misses *
            (2 * probeLossDeadline peer.srtt + visitProbeInterval + 2 * doorbellTick)
          omega
        · intro isNone
          cases isNone

/-- A poll reports the path stale, or leaves it in step with at most two misses. -/
theorem Slips.poll {first : Nat} {peer : PeerLiveness} {now anchor count sent : Nat}
    (slips : Slips first peer now anchor count sent) (few : peer.misses < probesToStale) :
    (peer.poll now).2 = some .wentStale ∨
      (peer.poll now).2 = none ∧ Slips first (peer.poll now).1 now anchor count sent ∧
        Ahead (peer.poll now).1 now anchor ∧ (peer.poll now).1.misses < probesToStale := by
  have isWin : probesToStale = 3 := rfl
  have kept : Slips first (peer.chargeMiss now) now anchor count sent ∧
      Ahead (peer.chargeMiss now) now anchor := by
    unfold PeerLiveness.chargeMiss PeerLiveness.overdue
    cases isMark : peer.outstanding with
    | none =>
        refine ⟨slips, ?_⟩
        intro mark isSome
        simp only [Bool.false_eq_true, ↓reduceIte, isMark] at isSome
        cases isSome
    | some mark =>
        obtain ⟨before, allowed⟩ := slips.marked mark isMark
        by_cases late : probeLossDeadline peer.srtt ≤ now - mark
        · rw [if_pos (decide_eq_true late)]
          refine ⟨⟨slips.live, slips.visit, slips.lastSent, slips.slow, slips.quick, slips.early,
            slips.recent, nofun, ?_⟩, nofun⟩
          intro _
          have count : min (peer.misses + 1) (2 ^ 32 - 1) = peer.misses + 1 := by omega
          show 2 * anchor + (2 * probeLossDeadline peer.srtt + visitProbeInterval +
            2 * doorbellTick) ≤ 2 * first + min (peer.misses + 1) (2 ^ 32 - 1) *
              (2 * probeLossDeadline peer.srtt + visitProbeInterval + 2 * doorbellTick)
          rw [count, Nat.add_mul, Nat.one_mul]
          omega
        · rw [if_neg (by rw [decide_eq_true_eq]; exact late)]
          refine ⟨slips, ?_⟩
          intro other isOther
          have same : mark = other := Option.some.inj (isMark.symm.trans isOther)
          omega
  rcases PeerLiveness.poll_cases peer now with
    ⟨dead, -⟩ | ⟨-, polled⟩ | ⟨-, -, polled⟩ | ⟨since, isStale, -⟩
  · rw [slips.live] at dead
    cases dead
  · by_cases enough : probesToStale ≤ (peer.chargeMiss now).misses
    · have stale : (peer.poll now).2 = some .wentStale := by
        unfold PeerLiveness.poll
        rw [if_neg (by rw [slips.live]; exact nofun)]
        simp only [kept.1.live, if_pos enough]
      exact Or.inl stale
    · right
      rw [polled]
      exact ⟨rfl, kept.1, kept.2, Nat.lt_of_not_le enough⟩
  · left
    rw [polled]
  · rw [slips.live] at isStale
    cases isStale

/-! ## The silent path through a run -/

theorem probes_direct (watch : Watch) (tick : WatchTick) :
    (watch.probes false tick).liveness = (watch.liveness.dueProbe tick.now).1 ∧
      (watch.probes false tick).addr = watch.addr ∧
      (watch.probes false tick).outstanding =
        if (watch.liveness.dueProbe tick.now).2 then some tick.tx else watch.outstanding := by
  rcases watch.probes_cases false tick with ⟨due, probed⟩ | ⟨-, refused, -⟩ | ⟨due, -, probed⟩
  · rw [probed, due]
    exact ⟨rfl, rfl, rfl⟩
  · cases refused
  · rw [probed, due]
    exact ⟨rfl, rfl, rfl⟩

theorem drain_of_silent {watch : Watch} {arrived : List (SocketAddr × TxId × Nat)}
    (silent : ∀ arrival ∈ arrived, ¬watch.Awaits arrival) : arrived.foldl pong watch = watch := by
  induction arrived with
  | nil => rfl
  | cons arrival rest ih =>
      rw [List.forall_mem_cons] at silent
      have same : watch.pong arrival = watch := if_neg silent.1
      rw [List.foldl_cons, same]
      exact ih silent.2

theorem dueProbe_keeps (peer : PeerLiveness) (now : Nat) :
    (peer.dueProbe now).1.srtt = peer.srtt ∧ (peer.dueProbe now).1.misses = peer.misses := by
  rcases PeerLiveness.dueProbe_cases peer now with same | ⟨-, due⟩
  · rw [same]
    exact ⟨rfl, rfl⟩
  · rw [due]
    exact ⟨rfl, rfl⟩

theorem srtt_poll (peer : PeerLiveness) (now : Nat) : (peer.poll now).1.srtt = peer.srtt := by
  have charged : (peer.chargeMiss now).srtt = peer.srtt := by
    rcases PeerLiveness.chargeMiss_cases peer now with same | ⟨sentAt, -, -, charges⟩
    · rw [same]
    · rw [charges]
  rcases PeerLiveness.poll_cases peer now with
    ⟨-, polled⟩ | ⟨-, polled⟩ | ⟨-, -, polled⟩ | ⟨since, -, -, -, polled⟩
  · rw [polled]
  · rw [polled]
    exact charged
  · rw [polled]
    exact charged
  · rw [polled]
    exact charged

section Silent

variable {start : Watch} {ticks : Nat → WatchTick}

variable (start ticks) in
/-- After a turn the silent path is live and in step. -/
structure Falling (last anchor count sent : Nat) : Prop where
  slips : Slips (ticks 0).now (stateAt start ticks (last + 1)).liveness (ticks last).now anchor
    count sent
  ahead : Ahead (stateAt start ticks (last + 1)).liveness (ticks last).now anchor
  few : (stateAt start ticks (last + 1)).liveness.misses < probesToStale
  srtt : (stateAt start ticks (last + 1)).liveness.srtt = start.liveness.srtt
  addr : (stateAt start ticks (last + 1)).addr = start.addr
  waited : ∃ earlier ≤ last,
    (stateAt start ticks (last + 1)).outstanding = some (ticks earlier).tx

/-- What is left of a turn once its probe left or was not due. -/
theorem falling_of_slips (silent : Silent start ticks) {number anchor count sent : Nat}
    (slips : Slips (ticks 0).now
      ((stateAt start ticks number).liveness.dueProbe (ticks number).now).1 (ticks number).now
      anchor count sent)
    (few : (stateAt start ticks number).liveness.misses < probesToStale)
    (srtt : (stateAt start ticks number).liveness.srtt = start.liveness.srtt)
    (addr : (stateAt start ticks number).addr = start.addr)
    (waited : ∃ earlier ≤ number, ((stateAt start ticks number).probes false
      (ticks number)).outstanding = some (ticks earlier).tx) :
    (stateAt start ticks number).reports false (ticks number) = [.wentStale] ∨
      ∃ anchor count sent, Falling start ticks number anchor count sent := by
  obtain ⟨isLiveness, isAddr, -⟩ := probes_direct (stateAt start ticks number) (ticks number)
  obtain ⟨keptSrtt, keptMisses⟩ := dueProbe_keeps (stateAt start ticks number).liveness
    (ticks number).now
  rw [← isLiveness] at slips keptSrtt keptMisses
  rcases slips.poll (keptMisses ▸ few) with stale | ⟨-, slips, ahead, few⟩
  · left
    rw [reports, polls, stale]
    rfl
  · right
    obtain ⟨earlier, before, waited⟩ := waited
    have drained : stateAt start ticks (number + 1) =
        (((stateAt start ticks number).probes false (ticks number)).polls
          (ticks number).now).1 := by
      apply drain_of_silent
      intro arrival member awaits
      have isTx : some (ticks earlier).tx = some arrival.2.1 := waited.symm.trans awaits.2
      exact silent.silent number arrival member earlier before
        ⟨awaits.1.trans (isAddr.trans addr), (Option.some.inj isTx).symm⟩
    refine ⟨anchor, count, sent, ?_, ?_, ?_, ?_, ?_, earlier, before, ?_⟩
    · rw [drained]
      exact slips
    · rw [drained]
      exact ahead
    · rw [drained]
      exact few
    · rw [drained]
      exact (srtt_poll _ _).trans (keptSrtt.trans srtt)
    · rw [drained]
      exact isAddr.trans addr
    · rw [drained]
      exact waited

/-- The first turn probes. -/
theorem falling_first (silent : Silent start ticks)
    (few : start.liveness.misses < probesToStale) :
    start.reports false (ticks 0) = [.wentStale] ∨
      ∃ anchor count sent, Falling start ticks 0 anchor count sent := by
  have floor := probeLossFloor_le start.liveness.srtt
  have isFloor : probeLossFloor = 500000000 := rfl
  have isVisit : visitProbeInterval = 500000000 := rfl
  have slips : Slips (ticks 0).now (start.liveness.dueProbe (ticks 0).now).1 (ticks 0).now
      (ticks 0).now 0 (ticks 0).now := by
    have due := silent.due
    rcases PeerLiveness.dueProbe_cases start.liveness (ticks 0).now with same | ⟨-, probed⟩
    · rw [same] at due
      cases due
    · rw [probed]
      refine ⟨silent.live, silent.visit, rfl, by omega, by omega, ?_, by omega, ?_, ?_⟩
      · show (ticks 0).now < (ticks 0).now + probeLossDeadline start.liveness.srtt + doorbellTick
        omega
      · intro mark isMark
        refine ⟨?_, Nat.le_add_right _ _⟩
        cases before : start.liveness.outstanding with
        | none =>
            rw [before] at isMark
            exact Nat.le_of_eq (Option.some.inj isMark).symm
        | some sentAt =>
            rw [before] at isMark
            rw [← show sentAt = mark from Option.some.inj isMark]
            exact silent.marked sentAt before
      · intro isNone
        cases before : start.liveness.outstanding with
        | none =>
            rw [before] at isNone
            cases isNone
        | some sentAt =>
            rw [before] at isNone
            cases isNone
  refine falling_of_slips silent (show Slips _ ((stateAt start ticks 0).liveness.dueProbe _).1 _ _ _ _ from slips)
    few rfl rfl ⟨0, Nat.le_refl 0, ?_⟩
  rw [(probes_direct _ _).2.2, show stateAt start ticks 0 = start from rfl, silent.due]
  rfl

theorem falling_succ (silent : Silent start ticks) (inStep : InStep start.liveness.srtt)
    {last anchor count sent : Nat} (falling : Falling start ticks last anchor count sent) :
    (stateAt start ticks (last + 1)).reports false (ticks (last + 1)) = [.wentStale] ∨
      ∃ anchor count sent, Falling start ticks (last + 1) anchor count sent := by
  obtain ⟨nextAnchor, nextCount, nextSent, slips⟩ := falling.slips.dueProbe falling.ahead
    (falling.srtt ▸ inStep) (silent.ordered last) (silent.prompt last)
  obtain ⟨earlier, before, waited⟩ := falling.waited
  refine falling_of_slips silent slips falling.few falling.srtt falling.addr ?_
  rw [(probes_direct _ _).2.2]
  split
  · exact ⟨last + 1, Nat.le_refl _, rfl⟩
  · exact ⟨earlier, Nat.le_succ_of_le before, waited⟩

/-- A path that is still live has not slipped for long. -/
theorem Falling.soon {last anchor count sent : Nat}
    (falling : Falling start ticks last anchor count sent) :
    (ticks last).now + doorbellTick < (ticks 0).now + staleBy start.liveness.srtt := by
  have floor := probeLossFloor_le start.liveness.srtt
  have isFloor : probeLossFloor = 500000000 := rfl
  have isVisit : visitProbeInterval = 500000000 := rfl
  have isTick : doorbellTick = 20000000 := rfl
  have isStale : probesToStale = 3 := rfl
  have few := falling.few
  have early := falling.slips.early
  have recent := falling.slips.recent
  have misses : (stateAt start ticks (last + 1)).liveness.misses *
      (2 * probeLossDeadline start.liveness.srtt + visitProbeInterval + 2 * doorbellTick) ≤
      2 * (2 * probeLossDeadline start.liveness.srtt + visitProbeInterval + 2 * doorbellTick) :=
    Nat.mul_le_mul_right _ (by omega)
  unfold staleBy
  cases isMark : (stateAt start ticks (last + 1)).liveness.outstanding with
  | some mark =>
      have ahead := falling.ahead mark isMark
      have allowed := (falling.slips.marked mark isMark).2
      rw [falling.srtt] at ahead allowed early
      omega
  | none =>
      have allowed := falling.slips.unmarked isMark
      rw [falling.srtt] at allowed early
      omega

/-- As long as it is not reported, the silent path is live and in step. -/
theorem falling_until (silent : Silent start ticks) (inStep : InStep start.liveness.srtt)
    (few : start.liveness.misses < probesToStale) {number : Nat}
    (unreported : ∀ earlier ≤ number,
      (stateAt start ticks earlier).reports false (ticks earlier) ≠ [.wentStale]) :
    ∃ anchor count sent, Falling start ticks number anchor count sent := by
  induction number with
  | zero => exact (falling_first silent few).resolve_left (unreported 0 (Nat.le_refl 0))
  | succ last ih =>
      obtain ⟨anchor, count, sent, falling⟩ := ih fun earlier before =>
        unreported earlier (Nat.le_succ_of_le before)
      exact (falling_succ silent inStep falling).resolve_left
        (unreported (last + 1) (Nat.le_refl _))

/-- A live path with three misses is reported at once. -/
theorem reports_of_many (watch : Watch) (tick : WatchTick) (live : watch.liveness.state = .live)
    (many : probesToStale ≤ watch.liveness.misses) :
    watch.reports false tick = [.wentStale] := by
  obtain ⟨isLiveness, -, -⟩ := probes_direct watch tick
  have isStale : probesToStale = 3 := rfl
  have isLive : (watch.liveness.dueProbe tick.now).1.state = .live :=
    (PeerLiveness.state_dueProbe _ _).trans live
  have misses := (dueProbe_keeps watch.liveness tick.now).2
  have charged : probesToStale ≤
      ((watch.liveness.dueProbe tick.now).1.chargeMiss tick.now).misses := by
    rcases PeerLiveness.chargeMiss_cases (watch.liveness.dueProbe tick.now).1 tick.now with
      same | ⟨sentAt, -, -, charges⟩
    · rw [same, misses]
      exact many
    · rw [charges]
      show probesToStale ≤ min ((watch.liveness.dueProbe tick.now).1.misses + 1) (2 ^ 32 - 1)
      omega
  have stale : ((watch.liveness.dueProbe tick.now).1.poll tick.now).2 = some .wentStale := by
    unfold PeerLiveness.poll
    rw [if_neg (by rw [isLive]; exact nofun)]
    simp only [PeerLiveness.chargeMiss_state, isLive, if_pos charged]
  rw [reports, polls, isLiveness, stale]
  rfl

/-- A path that answers nothing any more is reported stale in time, where its loss deadline is
in step with the probes. -/
theorem stale_in_time (start : Watch) (ticks : Nat → WatchTick) (silent : Silent start ticks)
    (inStep : InStep start.liveness.srtt) :
    ∃ number, (ticks number).now ≤ (ticks 0).now + staleBy start.liveness.srtt ∧
      (stateAt start ticks number).reports false (ticks number) = [.wentStale] := by
  by_cases few : start.liveness.misses < probesToStale
  · by_contra never
    have isOver := Nat.find_spec silent.lasting
    have falls : ∀ number < Nat.find silent.lasting,
        ∃ anchor count sent, Falling start ticks number anchor count sent := by
      intro number before
      apply falling_until silent inStep few
      intro earlier notAfter isStale
      have inTime := Nat.find_min silent.lasting (Nat.lt_of_le_of_lt notAfter before)
      exact never ⟨earlier, Nat.le_of_lt (Nat.lt_of_not_le inTime), isStale⟩
    cases isNumber : Nat.find silent.lasting with
    | zero =>
        rw [isNumber] at isOver
        have positive : 0 < staleBy start.liveness.srtt :=
          Nat.lt_of_lt_of_le (by decide : 0 < 3 * doorbellTick) (Nat.le_add_left _ _)
        omega
    | succ last =>
        rw [isNumber] at isOver falls
        obtain ⟨anchor, count, sent, falling⟩ := falls last (Nat.lt_succ_self last)
        have soon := falling.soon
        have prompt := silent.prompt last
        omega
  · exact ⟨0, Nat.le_add_right _ _,
      reports_of_many start (ticks 0) silent.live (Nat.le_of_not_lt few)⟩

end Silent

/-- Turns of 20 ms in which nothing arrives. -/
def unheard (number : Nat) : WatchTick where
  now := number * fromMillis 20
  tx := Watched.numberedProbe number
  sent := true
  arrived := []

theorem silent_unheard (rtt : Nat)
    (few : staleBy (some rtt) ≤ 1000 * fromMillis 20) :
    Silent (begins false Watched.watchedAddr 0 rtt) unheard := by
  have isTick : doorbellTick = fromMillis 20 := rfl
  refine ⟨rfl, rfl, nofun, rfl, ?_, ?_, ?_, ⟨1000, ?_⟩⟩
  · exact fun number arrival member => absurd member List.not_mem_nil
  · intro number
    exact Nat.mul_le_mul_right _ (Nat.le_succ number)
  · intro number
    show (number + 1) * fromMillis 20 ≤ number * fromMillis 20 + doorbellTick
    rw [Nat.add_mul, Nat.one_mul, isTick]
  · show 0 * fromMillis 20 + staleBy (some rtt) ≤ 1000 * fromMillis 20
    rw [Nat.zero_mul, Nat.zero_add]
    exact few

/-- With a round trip of 100 ms the silent path is still live when it should be stale. -/
theorem stale_too_late :
    Silent (begins false Watched.watchedAddr 0 (fromMillis 100)) unheard ∧
      ∀ number, (unheard number).now ≤ (unheard 0).now +
          staleBy (begins false Watched.watchedAddr 0 (fromMillis 100)).liveness.srtt →
        (stateAt (begins false Watched.watchedAddr 0 (fromMillis 100)) unheard number).reports
          false (unheard number) ≠ [.wentStale] := by
  refine ⟨silent_unheard _ (by decide), ?_⟩
  have live : ∀ number < 104,
      (stateAt (begins false Watched.watchedAddr 0 (fromMillis 100)) unheard number).reports
        false (unheard number) ≠ [.wentStale] := by
    decide
  intro number inTime
  have bound : staleBy (begins false Watched.watchedAddr 0 (fromMillis 100)).liveness.srtt =
      2060000000 := by decide
  have isTick : fromMillis 20 = 20000000 := rfl
  apply live number
  simp only [unheard, bound, isTick] at inTime
  omega

theorem stale_in_time_unheard :
    ∃ number, (unheard number).now ≤ (unheard 0).now +
        staleBy (begins false Watched.watchedAddr 0 (fromMillis 200)).liveness.srtt ∧
      (stateAt (begins false Watched.watchedAddr 0 (fromMillis 200)) unheard number).reports
        false (unheard number) = [.wentStale] :=
  stale_in_time (begins false Watched.watchedAddr 0 (fromMillis 200)) unheard
    (silent_unheard (fromMillis 200) (by decide)) ⟨2, by decide, by decide⟩

end Watch

end Mosschat.Net
