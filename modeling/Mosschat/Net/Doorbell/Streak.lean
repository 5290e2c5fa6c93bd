import Mathlib.Data.List.Forall2
import Mathlib.Data.List.Induction
import Mosschat.Net.Doorbell.Attempt

/-!
Owns what three pings answered in a row are in the history of an attempt, and that the
counters of a candidate tell them.

Does not own which candidate wins.
-/

namespace Mosschat.Net

open Mosschat.Library Mosschat.Library.Machine

/-- What happens between an attempt and the addresses it probes. -/
inductive AttemptEvent where
  /-- A ping left for the address. -/
  | pinged (addr : SocketAddr) (tx : TxId) (sentAt : Nat)
  /-- A pong of this attempt came from the address. -/
  | ponged (source : SocketAddr) (tx : TxId) (arrivedAt : Nat)
deriving DecidableEq

namespace AttemptEvent

/-- The event is a ping to the address. -/
def Pings (addr : SocketAddr) (event : AttemptEvent) : Prop :=
  ∃ tx sentAt, event = .pinged addr tx sentAt

/-- The event is the address's answer to the ping. -/
def Answers (addr : SocketAddr) (tx : TxId) (event : AttemptEvent) : Prop :=
  ∃ arrivedAt, event = .ponged addr tx arrivedAt

end AttemptEvent

/-- A ping to the address, its answer, and what came before the next ping. -/
def Round (addr : SocketAddr) (stretch : List AttemptEvent) (rtt : Nat) : Prop :=
  ∃ tx sentAt between arrivedAt rest,
    stretch = .pinged addr tx sentAt :: (between ++ .ponged addr tx arrivedAt :: rest) ∧
      (∀ event ∈ between, ¬event.Pings addr ∧ ¬event.Answers addr tx) ∧
      (∀ event ∈ rest, ¬event.Pings addr) ∧ rtt = arrivedAt - sentAt

/-- Nothing, or one ping to the address that is not answered yet. -/
def InFlight (addr : SocketAddr) (stretch : List AttemptEvent) : Prop :=
  stretch = [] ∨ ∃ tx sentAt rest, stretch = .pinged addr tx sentAt :: rest ∧
    ∀ event ∈ rest, ¬event.Pings addr ∧ ¬event.Answers addr tx

/-- The address answered three successive pings, each before the next was sent, and at most
one ping, which it has not answered yet, was sent to it since. -/
def Streak (addr : SocketAddr) (log : List AttemptEvent) (first second third : Nat) : Prop :=
  ∃ front one two three tail, log = front ++ one ++ two ++ three ++ tail ∧
    Round addr one first ∧ Round addr two second ∧ Round addr three third ∧ InFlight addr tail

/-! ## The counters of a candidate -/

/-- What a candidate counts. -/
structure Tally where
  consecutive : Nat
  recent : List Nat
  awaited : Option (TxId × Nat)

namespace Tally

open Candidate

def empty : Tally := ⟨0, [], none⟩

/-- What an event does to the counters for an address. -/
def note (addr : SocketAddr) (tally : Tally) : AttemptEvent → Tally
  | .pinged target tx sentAt =>
    if target = addr then
      if tally.awaited.isNone then { tally with awaited := some (tx, sentAt) }
      else ⟨0, [], some (tx, sentAt)⟩
    else tally
  | .ponged source tx arrivedAt =>
    match tally.awaited with
    | none => tally
    | some (awaited, sentAt) =>
      if source = addr ∧ tx = awaited then
        ⟨min (tally.consecutive + 1) (2 ^ 32 - 1), lastThree (tally.recent ++ [arrivedAt - sentAt]),
          none⟩
      else tally

/-- The counters for an address after a history. -/
def of (addr : SocketAddr) (log : List AttemptEvent) : Tally := log.foldl (note addr) empty

theorem of_append (addr : SocketAddr) (log more : List AttemptEvent) :
    of addr (log ++ more) = more.foldl (note addr) (of addr log) := List.foldl_append

/-- Events that are neither a ping to the address nor the answer it is waited for change
nothing. -/
theorem note_of_not {addr : SocketAddr} {tally : Tally} {event : AttemptEvent}
    (noPing : ¬event.Pings addr)
    (noAnswer : ∀ tx sentAt, tally.awaited = some (tx, sentAt) → ¬event.Answers addr tx) :
    tally.note addr event = tally := by
  cases event with
  | pinged target tx sentAt =>
      have other : target ≠ addr := by
        intro same
        exact noPing ⟨tx, sentAt, by rw [same]⟩
      exact if_neg other
  | ponged source tx arrivedAt =>
      unfold note
      cases isAwaited : tally.awaited with
      | none => rfl
      | some awaited =>
          apply if_neg
          intro same
          apply noAnswer awaited.1 awaited.2 isAwaited
          exact ⟨arrivedAt, by rw [same.1, same.2]⟩

theorem foldl_note_of_not {addr : SocketAddr} (tally : Tally) {events : List AttemptEvent}
    (noPing : ∀ event ∈ events, ¬event.Pings addr)
    (noAnswer : ∀ event ∈ events, ∀ tx sentAt, tally.awaited = some (tx, sentAt) →
      ¬event.Answers addr tx) : events.foldl (note addr) tally = tally := by
  induction events with
  | nil => rfl
  | cons event rest ih =>
      rw [List.forall_mem_cons] at noPing noAnswer
      rw [List.foldl_cons, note_of_not noPing.1 noAnswer.1]
      exact ih noPing.2 noAnswer.2

/-- What a ping to the address leaves of its streak. -/
def kept (tally : Tally) : Tally :=
  if tally.awaited.isNone then tally else empty

theorem note_ping (addr : SocketAddr) (tally : Tally) (tx : TxId) (sentAt : Nat) :
    tally.note addr (.pinged addr tx sentAt) =
      ⟨tally.kept.consecutive, tally.kept.recent, some (tx, sentAt)⟩ := by
  simp only [note, kept, ↓reduceIte]
  split <;> rfl

theorem note_answer {addr : SocketAddr} {tally : Tally} {tx : TxId} {sentAt : Nat}
    (awaited : tally.awaited = some (tx, sentAt)) (arrivedAt : Nat) :
    tally.note addr (.ponged addr tx arrivedAt) =
      ⟨min (tally.consecutive + 1) (2 ^ 32 - 1), lastThree (tally.recent ++ [arrivedAt - sentAt]),
        none⟩ := by
  unfold note
  rw [awaited]
  exact if_pos ⟨rfl, rfl⟩

/-- A round is one more answer in a row, or the first. -/
theorem foldl_round {addr : SocketAddr} {stretch : List AttemptEvent} {rtt : Nat}
    (round : Round addr stretch rtt) (tally : Tally) :
    stretch.foldl (note addr) tally =
      ⟨min (tally.kept.consecutive + 1) (2 ^ 32 - 1), lastThree (tally.kept.recent ++ [rtt]),
        none⟩ := by
  obtain ⟨tx, sentAt, between, arrivedAt, rest, rfl, quiet, noPing, rfl⟩ := round
  rw [List.foldl_cons, note_ping, List.foldl_append, List.foldl_cons]
  have waiting := foldl_note_of_not
    ⟨tally.kept.consecutive, tally.kept.recent, some (tx, sentAt)⟩
    (fun event member => (quiet event member).1)
    (by
      intro event member awaited _ isAwaited
      cases isAwaited
      exact (quiet event member).2)
  rw [waiting, note_answer rfl]
  exact foldl_note_of_not _ noPing nofun

/-- A ping in flight leaves the streak before it. -/
theorem foldl_inFlight {addr : SocketAddr} {stretch : List AttemptEvent}
    (inFlight : InFlight addr stretch) {tally : Tally} (answered : tally.awaited = none) :
    (stretch.foldl (note addr) tally).consecutive = tally.consecutive ∧
      (stretch.foldl (note addr) tally).recent = tally.recent := by
  rcases inFlight with rfl | ⟨tx, sentAt, rest, rfl, quiet⟩
  · exact ⟨rfl, rfl⟩
  · have same : tally.kept = tally := if_pos (by rw [answered]; rfl)
    have waiting := foldl_note_of_not
      ⟨tally.consecutive, tally.recent, some (tx, sentAt)⟩
      (fun event member => (quiet event member).1)
      (by
        intro event member awaited _ isAwaited
        cases isAwaited
        exact (quiet event member).2)
    rw [List.foldl_cons, note_ping, same, waiting]
    exact ⟨rfl, rfl⟩

theorem lastThree_append (list more : List Nat) :
    lastThree (lastThree list ++ more) = lastThree (list ++ more) := by
  have isWin : consecutivePongsToWin = 3 := rfl
  unfold lastThree
  rw [← List.drop_append_of_le_length (Nat.sub_le _ _), List.drop_drop, isWin]
  congr 1
  rw [List.length_drop, List.length_append]
  by_cases long : 3 ≤ list.length
  · omega
  · omega

theorem lastThree_of_three (list : List Nat) (first second third : Nat) :
    lastThree (list ++ [first] ++ [second] ++ [third]) = [first, second, third] := by
  have three : consecutivePongsToWin = 3 := rfl
  have width : (list ++ [first] ++ [second] ++ [third]).length - consecutivePongsToWin =
      list.length := by
    rw [three]
    simp
  rw [lastThree, width, List.append_assoc, List.append_assoc, List.drop_left]
  rfl

/-- Three pings answered in a row are counted. -/
theorem of_streak {addr : SocketAddr} {log : List AttemptEvent} {first second third : Nat}
    (streak : Streak addr log first second third) :
    consecutivePongsToWin ≤ (of addr log).consecutive ∧
      (of addr log).recent = [first, second, third] := by
  obtain ⟨front, one, two, three, tail, rfl, isOne, isTwo, isThree, inFlight⟩ := streak
  have isWin : consecutivePongsToWin = 3 := rfl
  have answered : ∀ consecutive recent, (⟨consecutive, recent, none⟩ : Tally).kept =
      ⟨consecutive, recent, none⟩ := fun _ _ => rfl
  rw [of_append, of_append, of_append, of_append, foldl_round isOne, foldl_round isTwo, answered,
    foldl_round isThree, answered]
  obtain ⟨consecutive, recent⟩ := foldl_inFlight inFlight
    (show (⟨_, _, none⟩ : Tally).awaited = none from rfl)
  rw [consecutive, recent]
  constructor
  · simp only
    omega
  · simp only
    rw [lastThree_append, List.append_assoc, lastThree_append, ← List.append_assoc,
      lastThree_of_three]

end Tally

/-! ## What the counters tell of the history -/

/-- An event that is no ping to the address comes after a round as well. -/
theorem Round.concat {addr : SocketAddr} {stretch : List AttemptEvent} {rtt : Nat}
    (round : Round addr stretch rtt) {event : AttemptEvent} (noPing : ¬event.Pings addr) :
    Round addr (stretch ++ [event]) rtt := by
  obtain ⟨tx, sentAt, between, arrivedAt, rest, rfl, quiet, others, isRtt⟩ := round
  refine ⟨tx, sentAt, between, arrivedAt, rest ++ [event], by simp, quiet, ?_, isRtt⟩
  intro other member
  rcases List.mem_append.mp member with old | new
  · exact others other old
  · rw [List.mem_singleton.mp new]
    exact noPing

/-- A ping to the address, and nothing that answers it. -/
def Unanswered (addr : SocketAddr) (awaited : TxId × Nat) (stretch : List AttemptEvent) : Prop :=
  ∃ rest, stretch = .pinged addr awaited.1 awaited.2 :: rest ∧
    ∀ event ∈ rest, ¬event.Pings addr ∧ ¬event.Answers addr awaited.1

theorem Unanswered.concat {addr : SocketAddr} {awaited : TxId × Nat}
    {stretch : List AttemptEvent} (unanswered : Unanswered addr awaited stretch)
    {event : AttemptEvent} (noPing : ¬event.Pings addr)
    (noAnswer : ¬event.Answers addr awaited.1) : Unanswered addr awaited (stretch ++ [event]) := by
  obtain ⟨rest, rfl, quiet⟩ := unanswered
  refine ⟨rest ++ [event], by simp, ?_⟩
  intro other member
  rcases List.mem_append.mp member with old | new
  · exact quiet other old
  · rw [List.mem_singleton.mp new]
    exact ⟨noPing, noAnswer⟩

/-- An answer closes the round. -/
theorem Unanswered.round {addr : SocketAddr} {awaited : TxId × Nat} {stretch : List AttemptEvent}
    (unanswered : Unanswered addr awaited stretch) (arrivedAt : Nat) :
    Round addr (stretch ++ [.ponged addr awaited.1 arrivedAt]) (arrivedAt - awaited.2) := by
  obtain ⟨rest, rfl, quiet⟩ := unanswered
  exact ⟨awaited.1, awaited.2, rest, arrivedAt, [], by simp, quiet, nofun, rfl⟩

/-- The history ends with the rounds that are counted, and the ping that is waited for. -/
structure Tells (addr : SocketAddr) (log : List AttemptEvent) (tally : Tally)
    (front : List AttemptEvent) (rounds : List (List AttemptEvent)) (rtts : List Nat)
    (tail : List AttemptEvent) : Prop where
  log : log = front ++ rounds.flatten ++ tail
  rounds : List.Forall₂ (Round addr) rounds rtts
  consecutive : tally.consecutive = min rtts.length (2 ^ 32 - 1)
  recent : tally.recent = Candidate.lastThree rtts
  tail : match tally.awaited with
    | none => tail = []
    | some awaited => Unanswered addr awaited tail

/-- The parts of what is matched are matched. -/
theorem forall₂_append_left {α β : Type} {matched : α → β → Prop} {front back : List α}
    {list : List β} (all : List.Forall₂ matched (front ++ back) list) :
    ∃ first second, List.Forall₂ matched front first ∧ List.Forall₂ matched back second ∧
      list = first ++ second := by
  induction front generalizing list with
  | nil => exact ⟨[], list, .nil, all, rfl⟩
  | cons head rest ih =>
      cases all with
      | cons here later =>
          obtain ⟨first, second, isFirst, isSecond, rfl⟩ := ih later
          exact ⟨_ :: first, second, .cons here isFirst, isSecond, rfl⟩

/-- An event the counters do not note. -/
theorem Tells.unmoved {addr : SocketAddr} {log : List AttemptEvent} {tally : Tally}
    {front tail : List AttemptEvent} {rounds : List (List AttemptEvent)} {rtts : List Nat}
    (tells : Tells addr log tally front rounds rtts tail) {event : AttemptEvent}
    (noPing : ¬event.Pings addr)
    (noAnswer : ∀ tx sentAt, tally.awaited = some (tx, sentAt) → ¬event.Answers addr tx) :
    ∃ front rounds rtts tail, Tells addr (log ++ [event]) tally front rounds rtts tail := by
  obtain ⟨isLog, isRounds, consecutive, recent, isTail⟩ := tells
  cases isAwaited : tally.awaited with
  | some awaited =>
      rw [isAwaited] at isTail
      refine ⟨front, rounds, rtts, tail ++ [event], ?_, isRounds, consecutive, recent, ?_⟩
      · rw [isLog, List.append_assoc _ tail]
      · rw [isAwaited]
        exact isTail.concat noPing (noAnswer awaited.1 awaited.2 isAwaited)
  | none =>
      rw [isAwaited] at isTail
      simp only at isTail
      rw [isTail, List.append_nil] at isLog
      rcases List.eq_nil_or_concat rounds with rfl | ⟨earlier, last, rfl⟩
      · refine ⟨front ++ [event], [], rtts, [], ?_, isRounds, consecutive, recent, ?_⟩
        · rw [isLog]
          simp
        · rw [isAwaited]
      · rw [List.concat_eq_append] at isLog isRounds
        obtain ⟨earlierRtts, lastRtts, earlierRounds, lastRounds, rfl⟩ :=
          forall₂_append_left isRounds
        cases lastRounds with
        | @cons _ lastRtt _ _ lastRound none =>
            cases none
            refine ⟨front, earlier ++ [last ++ [event]], earlierRtts ++ [lastRtt], [], ?_, ?_,
              consecutive, recent, ?_⟩
            · rw [isLog]
              simp
            · exact List.rel_append earlierRounds (.cons (lastRound.concat noPing) .nil)
            · rw [isAwaited]

/-- A ping to the address goes on from the rounds before it, or begins anew. -/
theorem Tells.pinged {addr : SocketAddr} {log : List AttemptEvent} {tally : Tally}
    {front tail : List AttemptEvent} {rounds : List (List AttemptEvent)} {rtts : List Nat}
    (tells : Tells addr log tally front rounds rtts tail) (tx : TxId) (sentAt : Nat) :
    ∃ front rounds rtts tail, Tells addr (log ++ [.pinged addr tx sentAt])
      (tally.note addr (.pinged addr tx sentAt)) front rounds rtts tail := by
  rw [Tally.note_ping]
  cases isAwaited : tally.awaited with
  | none =>
      have isTail := tells.tail
      rw [isAwaited] at isTail
      simp only at isTail
      have same : tally.kept = tally := if_pos (by rw [isAwaited]; rfl)
      refine ⟨front, rounds, rtts, [.pinged addr tx sentAt], ?_, tells.rounds, ?_, ?_, ?_⟩
      · rw [tells.log, isTail, List.append_nil]
      · rw [same]
        exact tells.consecutive
      · rw [same]
        exact tells.recent
      · exact ⟨[], rfl, nofun⟩
  | some awaited =>
      have anew : tally.kept = Tally.empty := if_neg (by rw [isAwaited]; exact Bool.false_ne_true)
      refine ⟨log, [], [], [.pinged addr tx sentAt], by simp, .nil, ?_, ?_, ⟨[], rfl, nofun⟩⟩
      · rw [anew]
        rfl
      · rw [anew]
        rfl

/-- The counters after one more event tell of it. -/
theorem Tells.note {addr : SocketAddr} {log : List AttemptEvent} {tally : Tally}
    {front tail : List AttemptEvent} {rounds : List (List AttemptEvent)} {rtts : List Nat}
    (tells : Tells addr log tally front rounds rtts tail) (event : AttemptEvent) :
    ∃ front rounds rtts tail,
      Tells addr (log ++ [event]) (tally.note addr event) front rounds rtts tail := by
  by_cases isPing : event.Pings addr
  · obtain ⟨tx, sentAt, rfl⟩ := isPing
    exact tells.pinged tx sentAt
  by_cases isAnswer : ∃ awaited, tally.awaited = some awaited ∧ event.Answers addr awaited.1
  · obtain ⟨awaited, isAwaited, arrivedAt, rfl⟩ := isAnswer
    have isTail := tells.tail
    rw [isAwaited] at isTail
    rw [Tally.note_answer isAwaited]
    refine ⟨front, rounds ++ [tail ++ [.ponged addr awaited.1 arrivedAt]],
      rtts ++ [arrivedAt - awaited.2], [], ?_, ?_, ?_, ?_, rfl⟩
    · rw [tells.log]
      simp
    · exact List.rel_append tells.rounds (.cons (isTail.round arrivedAt) .nil)
    · show min (tally.consecutive + 1) (2 ^ 32 - 1) = _
      rw [tells.consecutive, List.length_append, List.length_singleton]
      omega
    · show Candidate.lastThree (tally.recent ++ _) = _
      rw [tells.recent, Tally.lastThree_append]
  · have noAnswer : ∀ tx sentAt, tally.awaited = some (tx, sentAt) → ¬event.Answers addr tx :=
      fun tx sentAt isAwaited answers => isAnswer ⟨(tx, sentAt), isAwaited, answers⟩
    rw [Tally.note_of_not isPing noAnswer]
    exact tells.unmoved isPing noAnswer

theorem tells_of (addr : SocketAddr) (log : List AttemptEvent) :
    ∃ front rounds rtts tail, Tells addr log (Tally.of addr log) front rounds rtts tail := by
  induction log using List.reverseRecOn with
  | nil => exact ⟨[], [], [], [], rfl, .nil, rfl, rfl, rfl⟩
  | append_singleton log event ih =>
      obtain ⟨front, rounds, rtts, tail, tells⟩ := ih
      rw [Tally.of_append]
      exact tells.note event

/-- A list of three or more ends with its last three. -/
theorem exists_lastThree {α : Type} {list : List α} (long : 3 ≤ list.length) :
    ∃ front first second third, list = front ++ [first, second, third] := by
  have width : (list.drop (list.length - 3)).length = 3 := by
    rw [List.length_drop]
    omega
  obtain ⟨first, second, third, isEnd⟩ := List.length_eq_three.mp width
  exact ⟨list.take (list.length - 3), first, second, third, by
    rw [← isEnd, List.take_append_drop]⟩

/-- Three answers in a row are what the counters say they are. -/
theorem streak_of_tally {addr : SocketAddr} {log : List AttemptEvent}
    (enough : consecutivePongsToWin ≤ (Tally.of addr log).consecutive) :
    ∃ first second third, (Tally.of addr log).recent = [first, second, third] ∧
      Streak addr log first second third := by
  obtain ⟨front, rounds, rtts, tail, tells⟩ := tells_of addr log
  have isWin : consecutivePongsToWin = 3 := rfl
  have sameLength := tells.rounds.length_eq
  have consecutive := tells.consecutive
  obtain ⟨earlier, one, two, three, rfl⟩ :=
    exists_lastThree (show 3 ≤ rounds.length by omega)
  obtain ⟨earlierRtts, lastRtts, -, lastRounds, rfl⟩ := forall₂_append_left tells.rounds
  cases lastRounds with
  | @cons _ first _ _ isOne others =>
      cases others with
      | @cons _ second _ _ isTwo others =>
          cases others with
          | @cons _ third _ _ isThree none =>
              cases none
              refine ⟨first, second, third, ?_, ?_⟩
              · rw [tells.recent]
                have three := Tally.lastThree_of_three earlierRtts first second third
                rw [List.append_assoc, List.append_assoc] at three
                exact three
              · refine ⟨front ++ earlier.flatten, one, two, three, tail, ?_, isOne, isTwo, isThree,
                  ?_⟩
                · rw [tells.log]
                  simp
                · have isTail := tells.tail
                  cases isAwaited : (Tally.of addr log).awaited with
                  | none =>
                      rw [isAwaited] at isTail
                      exact Or.inl isTail
                  | some awaited =>
                      rw [isAwaited] at isTail
                      obtain ⟨rest, isStretch, quiet⟩ := isTail
                      exact Or.inr ⟨awaited.1, awaited.2, rest, isStretch, quiet⟩

end Mosschat.Net
