import Mathlib.Data.List.Dedup
import Mathlib.Data.List.Induction
import Mosschat.Library.Fifo
import Mosschat.Library.Machine
import Mosschat.Net.Gate

/-!
Owns the limiter a visit answers pings through, from `punch.rs`: how many pings it answers
in a second, how long it knows a ping it has answered, and where it keeps to what it says of
both.

Does not own the pongs.
-/

namespace Mosschat.Net

open Mosschat.Library Mosschat.Library.Machine Mosschat.Library.Cbor Mosschat.Net.Gate

/-- The eight random bytes of a ping. -/
abbrev TxId := List.Vector UInt8 8

def pongAnswersPerSecond : Nat := 64
def answeredTxMemory : Nat := 4096

/-- `PongLimiter`. -/
structure PongLimiter where
  windowStart : Nat
  answeredInWindow : Nat
  seen : HashMap TxId Unit
  order : List TxId

/-- A call of `may_answer`. -/
structure PingCall where
  tx : TxId
  now : Nat
deriving DecidableEq

namespace PongLimiter

/-- `PongLimiter::new`. -/
def new (now : Nat) : PongLimiter := ⟨now, 0, ∅, []⟩

/-- A window that has lasted a second is over, and the next one starts. -/
def restart (limiter : PongLimiter) (now : Nat) : PongLimiter :=
  if fromSecs 1 ≤ now - limiter.windowStart then
    { limiter with windowStart := now, answeredInWindow := 0 }
  else limiter

/-- `PongLimiter::may_answer`. -/
def mayAnswer (limiter : PongLimiter) (tx : TxId) (now : Nat) : PongLimiter × Bool :=
  let limiter := limiter.restart now
  if pongAnswersPerSecond ≤ limiter.answeredInWindow then (limiter, false)
  else if (limiter.seen.lookup tx).isSome then (limiter, false)
  else
    let kept := Fifo.evict answeredTxMemory (limiter.order ++ [tx]) (limiter.seen.put tx ())
    ({ limiter with
        seen := kept.2
        order := kept.1
        answeredInWindow := min (limiter.answeredInWindow + 1) (2 ^ 32 - 1) }, true)

/-- The limiter after a call. -/
def step (limiter : PongLimiter) (call : PingCall) : PongLimiter :=
  (limiter.mayAnswer call.tx call.now).1

/-- The call, where it is answered with yes. -/
def emits (limiter : PongLimiter) (call : PingCall) : List PingCall :=
  if (limiter.mayAnswer call.tx call.now).2 then [call] else []

/-- The calls that a visit begun at `started` answers with yes, in order. -/
def answered (started : Nat) (calls : List PingCall) : List PingCall :=
  outputs step emits (new started) calls

theorem answered_concat (started : Nat) (calls : List PingCall) (call : PingCall) :
    answered started (calls ++ [call]) =
      answered started calls ++ (run step (new started) calls).emits call := by
  rw [answered, outputs_append]
  exact congrArg _ (List.append_nil _)

/-! ## One call -/

theorem restart_cases (limiter : PongLimiter) (now : Nat) :
    fromSecs 1 ≤ now - limiter.windowStart ∧
        limiter.restart now = { limiter with windowStart := now, answeredInWindow := 0 } ∨
      now - limiter.windowStart < fromSecs 1 ∧ limiter.restart now = limiter := by
  by_cases past : fromSecs 1 ≤ now - limiter.windowStart
  · exact Or.inl ⟨past, if_pos past⟩
  · exact Or.inr ⟨Nat.lt_of_not_le past, if_neg past⟩

@[simp] theorem restart_seen (limiter : PongLimiter) (now : Nat) :
    (limiter.restart now).seen = limiter.seen := by
  rcases restart_cases limiter now with ⟨-, again⟩ | ⟨-, same⟩
  · rw [again]
  · rw [same]

@[simp] theorem restart_order (limiter : PongLimiter) (now : Nat) :
    (limiter.restart now).order = limiter.order := by
  rcases restart_cases limiter now with ⟨-, again⟩ | ⟨-, same⟩
  · rw [again]
  · rw [same]

/-- A call is answered with yes where the window has room and the ping is not known. -/
theorem step_cases (limiter : PongLimiter) (call : PingCall) :
    limiter.step call = limiter.restart call.now ∧ limiter.emits call = [] ∧
        (pongAnswersPerSecond ≤ (limiter.restart call.now).answeredInWindow ∨
          (limiter.seen.lookup call.tx).isSome) ∨
      (limiter.restart call.now).answeredInWindow < pongAnswersPerSecond ∧
        limiter.seen.lookup call.tx = none ∧ limiter.emits call = [call] ∧
        limiter.step call =
          { limiter.restart call.now with
            seen := (Fifo.evict answeredTxMemory (limiter.order ++ [call.tx])
              (limiter.seen.put call.tx ())).2
            order := (Fifo.evict answeredTxMemory (limiter.order ++ [call.tx])
              (limiter.seen.put call.tx ())).1
            answeredInWindow := (limiter.restart call.now).answeredInWindow + 1 } := by
  unfold emits step mayAnswer
  simp only [restart_seen, restart_order]
  by_cases full : pongAnswersPerSecond ≤ (limiter.restart call.now).answeredInWindow
  · simp [full]
  · cases known : limiter.seen.lookup call.tx with
    | some _ => simp [full]
    | none =>
        have room : (limiter.restart call.now).answeredInWindow < pongAnswersPerSecond :=
          Nat.lt_of_not_le full
        have rate : pongAnswersPerSecond = 64 := rfl
        simp [full, room]
        omega

/-! ## What the limiter remembers -/

/-- The memory: the last answered pings, each of them once. -/
structure Remembers (limiter : PongLimiter) (ids : List TxId) : Prop where
  recent : limiter.order <:+ ids
  whole : limiter.order = ids ∨ limiter.order.length = answeredTxMemory
  within : limiter.order.length ≤ answeredTxMemory
  distinct : limiter.order.Nodup
  known : ∀ tx, (limiter.seen.lookup tx).isSome ↔ tx ∈ limiter.order
  stretches : ∀ stretch, stretch <:+: ids → stretch.length ≤ answeredTxMemory + 1 →
    stretch.Nodup

/-- A ping that is not known joins the memory, and the oldest of a full one is forgotten. -/
theorem Remembers.answer {limiter next : PongLimiter} {ids : List TxId}
    (remembers : limiter.Remembers ids) {tx : TxId} (fresh : limiter.seen.lookup tx = none)
    (isSeen : next.seen =
      (Fifo.evict answeredTxMemory (limiter.order ++ [tx]) (limiter.seen.put tx ())).2)
    (isOrder : next.order =
      (Fifo.evict answeredTxMemory (limiter.order ++ [tx]) (limiter.seen.put tx ())).1) :
    next.Remembers (ids ++ [tx]) := by
  have unknown : tx ∉ limiter.order := by
    rw [← remembers.known, fresh]
    exact Bool.false_ne_true
  have grown : (limiter.order ++ [tx]).Nodup := by
    rw [List.nodup_append]
    refine ⟨remembers.distinct, List.nodup_singleton tx, ?_⟩
    intro old member new isNew
    rw [List.mem_singleton.mp isNew]
    exact fun same => unknown (same ▸ member)
  have longer : limiter.order ++ [tx] <:+ ids ++ [tx] :=
    List.suffix_append_self_iff.mpr remembers.recent
  have stretches : ∀ stretch, stretch <:+: ids ++ [tx] →
      stretch.length ≤ answeredTxMemory + 1 → stretch.Nodup := by
    intro stretch inside short
    rcases List.infix_concat_iff.mp inside with atEnd | earlier
    · rcases List.suffix_concat_iff.mp atEnd with empty | ⟨front, isStretch, atFront⟩
      · rw [empty]
        exact List.nodup_nil
      · have width : front.length ≤ answeredTxMemory := by
          rw [isStretch, List.length_append, List.length_singleton] at short
          omega
        have held : front <:+ limiter.order := by
          rcases remembers.whole with all | full
          · rw [all]
            exact atFront
          · exact List.suffix_of_suffix_length_le atFront remembers.recent (full ▸ width)
        rw [isStretch]
        exact grown.sublist (held.sublist.append_right [tx])
    · exact remembers.stretches stretch earlier short
  by_cases full : limiter.order.length = answeredTxMemory
  · cases isQueue : limiter.order with
    | nil =>
        rw [isQueue] at full
        cases full
    | cons oldest rest =>
        rw [isQueue, List.length_cons] at full
        rw [isQueue, List.cons_append] at longer grown
        rw [isQueue, List.cons_append,
          Fifo.evict_of_length_eq _ (by rw [List.length_append, List.length_singleton, full])]
          at isSeen isOrder
        rw [List.nodup_cons] at grown
        constructor
        · rw [isOrder]
          exact (List.suffix_cons oldest _).trans longer
        · right
          rw [isOrder, List.length_append, List.length_singleton, full]
        · rw [isOrder, List.length_append, List.length_singleton, full]
        · rw [isOrder]
          exact grown.2
        · intro other
          have before := remembers.known other
          rw [isQueue, List.mem_cons] at before
          rw [isSeen, isOrder, HashMap.lookup_erase, HashMap.lookup_put, List.mem_append,
            List.mem_singleton]
          by_cases isOldest : other = oldest
          · rw [List.mem_append, List.mem_singleton] at grown
            rw [if_pos isOldest, isOldest]
            exact iff_of_false Bool.noConfusion grown.1
          · rw [if_neg isOldest]
            by_cases isNew : other = tx
            · simp [isNew]
            · simp [isNew, isOldest, before]
        · exact stretches
  · have room : (limiter.order ++ [tx]).length ≤ answeredTxMemory := by
      have within := remembers.within
      rw [List.length_append, List.length_singleton]
      omega
    have all : limiter.order = ids := remembers.whole.resolve_right full
    rw [Fifo.evict_of_le _ room] at isSeen isOrder
    constructor
    · rw [isOrder]
      exact longer
    · left
      rw [isOrder, all]
    · rw [isOrder]
      exact room
    · rw [isOrder]
      exact grown
    · intro other
      have before := remembers.known other
      rw [isSeen, isOrder, HashMap.lookup_put, List.mem_append, List.mem_singleton]
      by_cases isNew : other = tx
      · simp [isNew]
      · simp [isNew, before]
    · exact stretches

/-- What a visit's limiter remembers after its calls. -/
theorem remembers_run (started : Nat) (calls : List PingCall) :
    (run step (new started) calls).Remembers ((answered started calls).map PingCall.tx) := by
  induction calls using List.reverseRecOn with
  | nil =>
      exact
        { recent := List.nil_suffix
          whole := Or.inl rfl
          within := Nat.zero_le _
          distinct := List.nodup_nil
          known := fun _ => iff_of_false Bool.noConfusion List.not_mem_nil
          stretches := by
            intro stretch inside _
            rw [List.infix_nil.mp inside]
            exact List.nodup_nil }
  | append_singleton front call remembers =>
      rw [run_concat, answered_concat, List.map_append]
      rcases step_cases (run step (new started) front) call with
        ⟨stepped, silent, -⟩ | ⟨-, fresh, emitted, stepped⟩
      · rw [stepped, silent, List.map_nil, List.append_nil]
        exact
          { recent := by rw [restart_order]; exact remembers.recent
            whole := by rw [restart_order]; exact remembers.whole
            within := by rw [restart_order]; exact remembers.within
            distinct := by rw [restart_order]; exact remembers.distinct
            known := by rw [restart_seen, restart_order]; exact remembers.known
            stretches := remembers.stretches }
      · rw [emitted]
        exact remembers.answer fresh (by rw [stepped]) (by rw [stepped])

/-! ## Where the documented bounds hold -/

/-- At most 64 answers within any second, and none of them to a ping answered before. -/
structure Documented (answers : List PingCall) : Prop where
  second : ∀ first, answers.countP
    (fun answer => first ≤ answer.now ∧ answer.now ≤ first + fromSecs 1) ≤ pongAnswersPerSecond
  once : (answers.map PingCall.tx).Nodup

/-- The window of the last call, how many pings came in it that had not come before, and the
pings that came. -/
structure Tally where
  window : Nat
  fresh : Nat
  known : List TxId

/-- The new pings of the window that a call at `now` is in. -/
def Tally.freshAt (tally : Tally) (now : Nat) : Nat :=
  if fromSecs 1 ≤ now - tally.window then 0 else tally.fresh

def Tally.come (tally : Tally) (call : PingCall) : Tally where
  window := if fromSecs 1 ≤ call.now - tally.window then call.now else tally.window
  fresh := if call.tx ∈ tally.known then tally.freshAt call.now else tally.freshAt call.now + 1
  known := call.tx :: tally.known

/-- The call, where fewer new pings came before it in its window than the window has answers. -/
def Tally.early (tally : Tally) (call : PingCall) : List PingCall :=
  if tally.freshAt call.now < pongAnswersPerSecond then [call] else []

/-- The calls that are early in their windows. -/
def early (started : Nat) (calls : List PingCall) : List PingCall :=
  outputs Tally.come Tally.early ⟨started, 0, []⟩ calls

/-- The pings among some calls within the second from `first` on. -/
def pingsWithin (first : Nat) (calls : List PingCall) : List TxId :=
  (calls.filter fun call => first ≤ call.now ∧ call.now ≤ first + fromSecs 1).map PingCall.tx

/-- In no second do more than 64 pings come early in their windows. -/
def Spread (started : Nat) (calls : List PingCall) : Prop :=
  ∀ first, (pingsWithin first (early started calls)).dedup.length ≤ pongAnswersPerSecond

/-- Between two arrivals of a ping fewer others come than are remembered. -/
def Returns (calls : List PingCall) : Prop :=
  ∀ front first middle second rest, calls = front ++ first :: middle ++ second :: rest →
    first.tx = second.tx →
    ((middle.map PingCall.tx).filter (· ≠ first.tx)).dedup.length < answeredTxMemory

/-- The limiter has answered as many pings of its window as were new, or is full. -/
structure Tallied (tally : Tally) (limiter : PongLimiter) : Prop where
  window : tally.window = limiter.windowStart
  fresh : min pongAnswersPerSecond tally.fresh ≤ limiter.answeredInWindow

theorem Tallied.restart {tally : Tally} {limiter : PongLimiter} (tallied : Tallied tally limiter)
    (call : PingCall) :
    (tally.come call).window = (limiter.restart call.now).windowStart ∧
      min pongAnswersPerSecond (tally.freshAt call.now) ≤
        (limiter.restart call.now).answeredInWindow := by
  unfold Tally.come Tally.freshAt
  dsimp only
  rw [tallied.window]
  rcases restart_cases limiter call.now with ⟨past, again⟩ | ⟨lasts, same⟩
  · rw [again, if_pos past, if_pos past]
    exact ⟨rfl, Nat.min_le_right _ _⟩
  · rw [same, if_neg (Nat.not_le.mpr lasts), if_neg (Nat.not_le.mpr lasts)]
    exact ⟨rfl, tallied.fresh⟩

/-- What is answered is early, and a new ping that comes early is answered. -/
theorem Tallied.step {tally : Tally} {limiter : PongLimiter} (tallied : Tallied tally limiter)
    {call : PingCall} (unknown : call.tx ∉ tally.known → limiter.seen.lookup call.tx = none) :
    Tallied (tally.come call) (limiter.step call) ∧
      (limiter.emits call).Sublist (tally.early call) := by
  obtain ⟨window, fresh⟩ := tallied.restart call
  have rate : pongAnswersPerSecond = 64 := rfl
  have isFresh : (tally.come call).fresh = if call.tx ∈ tally.known then tally.freshAt call.now
    else tally.freshAt call.now + 1 := rfl
  rcases step_cases limiter call with ⟨stepped, silent, refused⟩ | ⟨room, -, emitted, stepped⟩
  · rw [stepped, silent]
    refine ⟨⟨window, ?_⟩, List.nil_sublist _⟩
    rw [isFresh]
    split_ifs with isKnown
    · exact fresh
    · rcases refused with full | isSeen
      · omega
      · rw [unknown isKnown] at isSeen
        cases isSeen
  · have isEarly : tally.freshAt call.now < pongAnswersPerSecond := by omega
    rw [stepped, emitted, Tally.early, if_pos isEarly]
    refine ⟨⟨window, ?_⟩, List.Sublist.refl _⟩
    rw [isFresh]
    split_ifs
    · dsimp only
      omega
    · dsimp only
      omega

theorem known_come (started : Nat) (calls : List PingCall) (tx : TxId) :
    tx ∈ (run Tally.come ⟨started, 0, []⟩ calls).known ↔ tx ∈ calls.map PingCall.tx := by
  induction calls using List.reverseRecOn with
  | nil => rfl
  | append_singleton front call ih =>
      rw [run_concat, List.map_append, List.mem_append, ← ih]
      show tx ∈ call.tx :: _ ↔ _
      rw [List.mem_cons, or_comm]
      simp

/-- A ping that has not come is not known. -/
theorem lookup_of_new {started : Nat} {calls : List PingCall}
    (among : (answered started calls).Sublist calls) {tx : TxId}
    (isNew : tx ∉ calls.map PingCall.tx) :
    (run step (new started) calls).seen.lookup tx = none := by
  have remembers := remembers_run started calls
  by_contra isSeen
  have isKnown := (remembers.known tx).mp (Option.isSome_iff_ne_none.mpr isSeen)
  exact isNew ((among.map _).subset (remembers.recent.mem isKnown))

theorem early_concat (started : Nat) (calls : List PingCall) (call : PingCall) :
    early started (calls ++ [call]) =
      early started calls ++ (run Tally.come ⟨started, 0, []⟩ calls).early call := by
  rw [early, outputs_append]
  exact congrArg _ (List.append_nil _)

theorem early_sublist (started : Nat) (calls : List PingCall) :
    (early started calls).Sublist calls := by
  induction calls using List.reverseRecOn with
  | nil => exact List.Sublist.slnil
  | append_singleton front call ih =>
      rw [early_concat]
      apply ih.append
      unfold Tally.early
      split
      · exact List.Sublist.refl _
      · exact List.nil_sublist _

/-- The calls that are answered are early. -/
theorem answered_early (started : Nat) (calls : List PingCall) :
    Tallied (run Tally.come ⟨started, 0, []⟩ calls) (run step (new started) calls) ∧
      (answered started calls).Sublist (early started calls) := by
  induction calls using List.reverseRecOn with
  | nil => exact ⟨⟨rfl, Nat.min_le_right _ _⟩, List.Sublist.slnil⟩
  | append_singleton front call ih =>
      obtain ⟨tallied, among⟩ := ih
      have unknown : call.tx ∉ (run Tally.come ⟨started, 0, []⟩ front).known →
          (run step (new started) front).seen.lookup call.tx = none := by
        intro isNew
        rw [known_come] at isNew
        exact lookup_of_new (among.trans (early_sublist started front)) isNew
      obtain ⟨next, here⟩ := tallied.step unknown
      rw [run_concat, run_concat, answered_concat, early_concat]
      exact ⟨next, among.append here⟩

/-- Of pings that come once, those that come early are answered. -/
theorem answered_eq_early {started : Nat} {calls : List PingCall}
    (distinct : (calls.map PingCall.tx).Nodup) :
    answered started calls = early started calls ∧
      (run step (new started) calls).answeredInWindow =
        min pongAnswersPerSecond (run Tally.come ⟨started, 0, []⟩ calls).fresh := by
  induction calls using List.reverseRecOn with
  | nil => exact ⟨rfl, rfl⟩
  | append_singleton front call ih =>
      rw [List.map_append, List.nodup_append] at distinct
      obtain ⟨same, counted⟩ := ih distinct.1
      have isNew : call.tx ∉ front.map PingCall.tx := fun member =>
        distinct.2.2 _ member _ (List.mem_singleton_self _) rfl
      obtain ⟨tallied, among⟩ := answered_early started front
      have fresh := lookup_of_new (among.trans (early_sublist started front)) isNew
      rw [← known_come started] at isNew
      rw [run_concat, run_concat, answered_concat, early_concat, same]
      generalize run Tally.come ⟨started, 0, []⟩ front = tally at tallied counted isNew
      generalize run step (new started) front = limiter at tallied counted fresh
      have isFresh : (tally.come call).fresh = tally.freshAt call.now + 1 := if_neg isNew
      have countedHere : (limiter.restart call.now).answeredInWindow =
          min pongAnswersPerSecond (tally.freshAt call.now) := by
        unfold Tally.freshAt
        rw [tallied.window]
        rcases restart_cases limiter call.now with ⟨past, again⟩ | ⟨lasts, unchanged⟩
        · rw [again, if_pos past, Nat.min_zero]
        · rw [unchanged, if_neg (Nat.not_le.mpr lasts), counted]
      rw [isFresh, Tally.early]
      rcases step_cases limiter call with ⟨stepped, silent, full | isSeen⟩ |
        ⟨room, -, emitted, stepped⟩
      · have late : ¬tally.freshAt call.now < pongAnswersPerSecond := by omega
        rw [stepped, silent, if_neg late, countedHere]
        exact ⟨rfl, by omega⟩
      · rw [fresh] at isSeen
        cases isSeen
      · have isEarly : tally.freshAt call.now < pongAnswersPerSecond := by omega
        rw [stepped, emitted, if_pos isEarly]
        exact ⟨rfl, by dsimp only; omega⟩

/-- The answers of a second are to pings that came early in it. -/
theorem countP_second_le {started : Nat} {calls : List PingCall}
    (once : ((answered started calls).map PingCall.tx).Nodup) (first : Nat) :
    (answered started calls).countP
        (fun answer => first ≤ answer.now ∧ answer.now ≤ first + fromSecs 1) ≤
      (pingsWithin first (early started calls)).dedup.length := by
  have among : (pingsWithin first (answered started calls)).Sublist
      (pingsWithin first (early started calls)) :=
    ((answered_early started calls).2.filter _).map _
  have distinct : (pingsWithin first (answered started calls)).Nodup :=
    once.sublist (List.filter_sublist.map PingCall.tx)
  rw [List.countP_eq_length_filter, ← List.length_map (f := PingCall.tx)]
  refine (List.subperm_of_subset distinct ?_).length_le
  intro tx member
  rw [List.mem_dedup]
  exact among.subset member

/-- An answer to a ping answered before comes after 4096 others. -/
theorem once_of_returns {started : Nat} {calls : List PingCall} (returns : Returns calls) :
    ((answered started calls).map PingCall.tx).Nodup := by
  have among := (answered_early started calls).2.trans (early_sublist started calls)
  have stretches := (remembers_run started calls).stretches
  rw [List.Nodup, List.pairwise_map, List.pairwise_iff_forall_sublist]
  intro one two pair same
  obtain ⟨before, after, isAnswers, inBefore, inAfter⟩ := List.cons_sublist_iff.mp pair
  obtain ⟨lead, gap, rfl⟩ := List.append_of_mem inBefore
  obtain ⟨gapEnd, tail, rfl⟩ := List.append_of_mem (List.singleton_sublist.mp inAfter)
  have isSplit : answered started calls = lead ++ (one :: (gap ++ gapEnd)) ++ two :: tail := by
    rw [isAnswers]
    simp
  generalize gap ++ gapEnd = between at isSplit
  rw [isSplit] at among stretches
  -- Four thousand and ninety-six other pings are answered in between.
  have long : answeredTxMemory ≤ between.length := by
    by_contra short
    have whole := stretches (one.tx :: between.map PingCall.tx ++ [two.tx])
      ⟨lead.map PingCall.tx, tail.map PingCall.tx, by simp⟩ (by simp; omega)
    rw [List.nodup_append] at whole
    exact whole.2.2 one.tx List.mem_cons_self two.tx (List.mem_singleton_self _) same
  have others := stretches (one.tx :: (between.take answeredTxMemory).map PingCall.tx)
    ⟨lead.map PingCall.tx,
      (between.drop answeredTxMemory).map PingCall.tx ++ two.tx :: tail.map PingCall.tx, by
        rw [List.map_append, List.map_append, List.map_cons, List.map_cons]
        conv_rhs => rw [← List.take_append_drop answeredTxMemory between, List.map_append]
        simp only [List.append_assoc, List.cons_append]⟩ (by simp)
  rw [List.nodup_cons] at others
  -- They came between the arrivals of the two.
  rw [List.append_assoc] at among
  have fromOne := (List.sublist_append_right _ _).trans among
  obtain ⟨upToOne, rest, isCalls, inOne, afterOne⟩ := List.cons_sublist_iff.mp fromOne
  obtain ⟨start, follow, rfl⟩ := List.append_of_mem inOne
  obtain ⟨held, remains, rfl, inHeld, atTwo⟩ := List.append_sublist_iff.mp afterOne
  obtain ⟨upToTwo, finish, rfl, inTwo, -⟩ := List.cons_sublist_iff.mp atTwo
  obtain ⟨ahead, behind, rfl⟩ := List.append_of_mem inTwo
  have few := returns start one (follow ++ held ++ ahead) two (behind ++ finish)
    (by rw [isCalls]; simp) same
  have inside : (between.take answeredTxMemory).map PingCall.tx ⊆
      (((follow ++ held ++ ahead).map PingCall.tx).filter (· ≠ one.tx)).dedup := by
    intro tx member
    have other : tx ≠ one.tx := by
      rintro rfl
      exact others.1 member
    rw [List.mem_dedup, List.mem_filter, decide_eq_true_iff]
    refine ⟨?_, other⟩
    obtain ⟨answer, isTaken, rfl⟩ := List.mem_map.mp member
    apply List.mem_map_of_mem (f := PingCall.tx)
    apply List.mem_append_left
    apply List.mem_append_right
    exact inHeld.subset (List.mem_of_mem_take isTaken)
  have counted := (List.subperm_of_subset others.2 inside).length_le
  rw [List.length_map, List.length_take, Nat.min_eq_left long] at counted
  exact absurd few (Nat.not_lt.mpr counted)

/-- So it is where no second brings more than 64 different pings at all. -/
theorem spread_of_few {started : Nat} {calls : List PingCall}
    (few : ∀ first, (pingsWithin first calls).dedup.length ≤ pongAnswersPerSecond) :
    Spread started calls := by
  intro first
  have among : (pingsWithin first (early started calls)).Sublist (pingsWithin first calls) :=
    ((early_sublist started calls).filter _).map _
  refine le_trans (List.subperm_of_subset (List.nodup_dedup _) ?_).length_le (few first)
  intro tx member
  rw [List.mem_dedup] at member ⊢
  exact among.subset member

/-- The documented bounds hold where no second has more than 64 pings that come early in their
windows, and no ping comes again after so many others that it is forgotten; and of pings that
come once, only there. -/
theorem documented_of_spread (started : Nat) (calls : List PingCall) :
    (Spread started calls → Returns calls → Documented (answered started calls)) ∧
      ((calls.map PingCall.tx).Nodup →
        (Documented (answered started calls) ↔ Spread started calls)) := by
  constructor
  · intro spread returns
    have once : ((answered started calls).map PingCall.tx).Nodup := once_of_returns returns
    exact ⟨fun first => (countP_second_le once first).trans (spread first), once⟩
  · intro distinct
    have same : answered started calls = early started calls := (answered_eq_early distinct).1
    have once : ((answered started calls).map PingCall.tx).Nodup := by
      rw [same]
      exact distinct.sublist ((early_sublist started calls).map _)
    constructor
    · intro documented first
      refine (List.dedup_sublist _).length_le.trans ?_
      have counted := documented.second first
      rw [same, List.countP_eq_length_filter] at counted
      rw [pingsWithin, List.length_map]
      exact counted
    · intro spread
      exact ⟨fun first => (countP_second_le once first).trans (spread first), once⟩

/-- The tx id with this number. -/
def numbered (number : Nat) : TxId := ⟨beBytes 8 number, beBytes_length 8 number⟩

theorem numbered_injective {first second : Nat} (firstSmall : first < 256 ^ 8)
    (secondSmall : second < 256 ^ 8) (same : numbered first = numbered second) :
    first = second := by
  have bytes : beBytes 8 first = beBytes 8 second := congrArg List.Vector.toList same
  have values := congrArg beValue bytes
  rw [beValue_beBytes, beValue_beBytes, Nat.mod_eq_of_lt firstSmall,
    Nat.mod_eq_of_lt secondSmall] at values
  exact values

/-- The pings numbered below `count`, each at its time. -/
def pings (times : Nat → Nat) (count : Nat) : List PingCall :=
  (List.range count).map fun number => ⟨numbered number, times number⟩

theorem pings_ids (times : Nat → Nat) (count : Nat) :
    (pings times count).map PingCall.tx = (List.range count).map numbered := List.map_map

theorem pings_nodup (times : Nat → Nat) {count : Nat} (small : count ≤ 256 ^ 8) :
    ((pings times count).map PingCall.tx).Nodup := by
  rw [pings_ids]
  apply List.nodup_range.map_on
  intro first inside second within same
  rw [List.mem_range] at inside within
  exact numbered_injective (by omega) (by omega) same

/-- Sixty-four pings, all of them again in the same second, and again in a later one. -/
def bursts : List PingCall :=
  pings (fun _ => 0) pongAnswersPerSecond ++
    pings (fun _ => fromSecs 1 / 2) pongAnswersPerSecond ++
    pings (fun _ => fromSecs 2) pongAnswersPerSecond

theorem bursts_spread : Spread 0 bursts := by
  apply spread_of_few
  intro first
  have ids : bursts.map PingCall.tx ⊆ (List.range pongAnswersPerSecond).map numbered := by
    simp only [bursts, List.map_append, pings_ids, List.append_subset]
    exact ⟨⟨List.Subset.refl _, List.Subset.refl _⟩, List.Subset.refl _⟩
  have among : (pingsWithin first bursts).dedup ⊆
      (List.range pongAnswersPerSecond).map numbered := by
    intro tx member
    exact ids ((List.filter_sublist.map PingCall.tx).subset (List.mem_dedup.mp member))
  have counted := (List.subperm_of_subset (List.nodup_dedup _) among).length_le
  rw [List.length_map, List.length_range] at counted
  exact counted

theorem bursts_return : Returns bursts := by
  intro front first middle second rest isCalls _
  have lengths := congrArg List.length isCalls
  simp only [bursts, pings, List.length_append, List.length_map, List.length_range,
    List.length_cons] at lengths
  have others := ((List.dedup_sublist _).trans
    (List.filter_sublist (p := (· ≠ first.tx)) (l := middle.map PingCall.tx))).length_le
  rw [List.length_map] at others
  have rate : pongAnswersPerSecond = 64 := rfl
  have memory : answeredTxMemory = 4096 := rfl
  omega

/-- At three bursts. -/
theorem documented_of_spread_bursts : Documented (answered 0 bursts) :=
  (documented_of_spread 0 bursts).1 bursts_spread bursts_return

/-! ## A flood of pings -/

/-- No call is made before the one ahead of it, nor before the visit began. -/
def Timely (started : Nat) (calls : List PingCall) : Prop :=
  (started :: calls.map PingCall.now).Pairwise (· ≤ ·)

/-- One ping each second. -/
def slowly (number : Nat) : Nat := (number + 1) * fromSecs 1

/-- Sixty-four pings just before the end of the first second, and the others at its end. -/
def hastily (number : Nat) : Nat := if number < 64 then fromSecs 1 - 1 else fromSecs 1

/-- One ping more than the memory has room for, and the first of them again. -/
def replayed : List PingCall :=
  pings slowly (answeredTxMemory + 1) ++ [⟨numbered 0, slowly (answeredTxMemory + 1)⟩]

theorem pings_succ (times : Nat → Nat) (count : Nat) :
    pings times (count + 1) = pings times count ++ [⟨numbered count, times count⟩] := by
  rw [pings, List.range_succ, List.map_append]
  rfl

theorem timely_pings {times : Nat → Nat} (inOrder : Monotone times) {count : Nat}
    {call : PingCall} (last : call.now = times count) : Timely 0 (pings times count ++ [call]) := by
  show List.Pairwise _ (0 :: _)
  rw [List.pairwise_cons]
  refine ⟨fun _ _ => Nat.zero_le _, ?_⟩
  rw [pings, List.map_append, List.map_map, List.pairwise_append]
  refine ⟨?_, List.pairwise_singleton _ _, ?_⟩
  · rw [List.pairwise_map]
    exact (List.pairwise_lt_range (n := count)).imp fun before => inOrder before.le
  · intro time member other isLast
    obtain ⟨number, inside, isTime⟩ := List.mem_map.mp member
    rw [List.map_singleton, List.mem_singleton] at isLast
    rw [isLast, last, ← isTime]
    exact inOrder (List.mem_range.mp inside).le

theorem slowly_monotone : Monotone slowly := fun _ _ before =>
  Nat.mul_le_mul_right _ (Nat.succ_le_succ before)

theorem hastily_monotone : Monotone hastily := by
  intro first second before
  have later : fromSecs 1 - 1 ≤ fromSecs 1 := Nat.sub_le _ _
  unfold hastily
  split_ifs <;> omega

/-- Of pings that are a second apart, each has a window of its own. -/
theorem early_slowly (count : Nat) :
    early 0 (pings slowly count) = pings slowly count ∧
      (run Tally.come ⟨0, 0, []⟩ (pings slowly count)).window + fromSecs 1 ≤ slowly count := by
  induction count with
  | zero => exact ⟨rfl, Nat.le_of_eq (Nat.one_mul _).symm⟩
  | succ count ih =>
      obtain ⟨same, began⟩ := ih
      rw [pings_succ, early_concat, same, run_concat]
      generalize run Tally.come ⟨0, 0, []⟩ (pings slowly count) = tally at began
      have past : fromSecs 1 ≤ slowly count - tally.window := by omega
      have none : tally.freshAt (slowly count) = 0 := if_pos past
      constructor
      · rw [Tally.early, none, if_pos (by decide)]
      · rw [Tally.come, if_pos past]
        exact Nat.le_of_eq (Nat.succ_mul (count + 1) _).symm

/-- Of pings in the first window sixty-four are early. -/
theorem early_hastily {count : Nat} (few : count ≤ 64) :
    early 0 (pings hastily count) = pings hastily count ∧
      (run Tally.come ⟨0, 0, []⟩ (pings hastily count)).window = 0 ∧
      (run Tally.come ⟨0, 0, []⟩ (pings hastily count)).fresh ≤ count := by
  induction count with
  | zero => exact ⟨rfl, rfl, Nat.le_refl 0⟩
  | succ count ih =>
      obtain ⟨same, isWindow, counted⟩ := ih (by omega)
      rw [pings_succ, early_concat, same, run_concat]
      generalize run Tally.come ⟨0, 0, []⟩ (pings hastily count) = tally at isWindow counted
      have soon : hastily count = fromSecs 1 - 1 := if_pos (by omega)
      have within : ¬fromSecs 1 ≤ hastily count - tally.window := by
        rw [soon, isWindow]
        decide
      have fresh : tally.freshAt (hastily count) = tally.fresh := if_neg within
      have isEarly : tally.fresh < pongAnswersPerSecond := Nat.lt_of_le_of_lt counted few
      refine ⟨?_, (if_neg within).trans isWindow, ?_⟩
      · rw [Tally.early, fresh, if_pos isEarly]
      · show (if numbered count ∈ tally.known then tally.freshAt (hastily count)
          else tally.freshAt (hastily count) + 1) ≤ count + 1
        rw [fresh]
        split <;> omega

/-- The sixty-fifth opens the next window. -/
theorem early_hastily_next : early 0 (pings hastily 65) = pings hastily 65 := by
  obtain ⟨same, isWindow, -⟩ := early_hastily (Nat.le_refl 64)
  have past : fromSecs 1 ≤ hastily 64 -
      (run Tally.come ⟨0, 0, []⟩ (pings hastily 64)).window := by
    rw [isWindow]
    decide
  have none : (run Tally.come ⟨0, 0, []⟩ (pings hastily 64)).freshAt (hastily 64) = 0 :=
    if_pos past
  rw [pings_succ, early_concat, same, Tally.early, none, if_pos (by decide)]

/-- After 4096 other pings the memory has lost the first one. -/
theorem replayed_answered : answered 0 replayed = replayed := by
  have all : answered 0 (pings slowly (answeredTxMemory + 1)) =
      pings slowly (answeredTxMemory + 1) :=
    (answered_eq_early (pings_nodup slowly (by decide))).1.trans (early_slowly _).1
  have remembers := remembers_run 0 (pings slowly (answeredTxMemory + 1))
  have tallied := (answered_early 0 (pings slowly (answeredTxMemory + 1))).1
  have began := (early_slowly (answeredTxMemory + 1)).2
  have distinct : ((pings slowly (answeredTxMemory + 1)).map PingCall.tx).Nodup :=
    pings_nodup slowly (by decide)
  rw [all] at remembers
  rw [pings_ids, List.range_succ_eq_map, List.map_cons, List.nodup_cons] at distinct
  rw [replayed, answered_concat, all]
  rw [tallied.window] at began
  generalize run step (new 0) (pings slowly (answeredTxMemory + 1)) = limiter at remembers began ⊢
  have room : (limiter.restart (slowly (answeredTxMemory + 1))).answeredInWindow = 0 := by
    rcases restart_cases limiter (slowly (answeredTxMemory + 1)) with ⟨-, again⟩ | ⟨lasts, -⟩
    · rw [again]
    · omega
  have forgotten : numbered 0 ∉ limiter.order := by
    intro member
    have recent := remembers.recent
    rw [pings_ids, List.range_succ_eq_map, List.map_cons] at recent
    rcases List.suffix_cons_iff.mp recent with every | within
    · have width := remembers.within
      rw [every, List.length_cons, List.length_map, List.length_map, List.length_range] at width
      omega
    · exact distinct.1 (within.mem member)
  rcases step_cases limiter ⟨numbered 0, slowly (answeredTxMemory + 1)⟩ with
    ⟨-, -, full | isSeen⟩ | ⟨-, -, emitted, -⟩
  · rw [room] at full
    exact absurd full (by decide)
  · exact absurd ((remembers.known _).mp isSeen) forgotten
  · rw [emitted]

/-- Sixty-five pongs within a second, and a ping that is answered twice. -/
theorem answered_beyond :
    Timely 0 (pings hastily 65) ∧
      pongAnswersPerSecond < (answered 0 (pings hastily 65)).countP (fun answer =>
        fromSecs 1 - 1 ≤ answer.now ∧ answer.now ≤ fromSecs 1 - 1 + fromSecs 1) ∧
      Timely 0 replayed ∧ ¬((answered 0 replayed).map PingCall.tx).Nodup := by
  refine ⟨?_, ?_, timely_pings slowly_monotone rfl, ?_⟩
  · rw [pings_succ]
    exact timely_pings hastily_monotone rfl
  · have all : ∀ answer ∈ pings hastily 65,
        fromSecs 1 - 1 ≤ answer.now ∧ answer.now ≤ fromSecs 1 - 1 + fromSecs 1 := by
      intro answer member
      obtain ⟨number, -, rfl⟩ := List.mem_map.mp member
      show fromSecs 1 - 1 ≤ hastily number ∧ hastily number ≤ fromSecs 1 - 1 + fromSecs 1
      have second : fromSecs 1 = 1000000000 := rfl
      unfold hastily
      split_ifs <;> omega
    rw [(answered_eq_early (pings_nodup hastily (by decide))).1, early_hastily_next,
      List.countP_eq_length.mpr fun answer member => decide_eq_true (all answer member)]
    decide
  · rw [replayed_answered, replayed, List.map_append, pings_ids, List.range_succ_eq_map,
      List.map_cons, List.cons_append, List.nodup_cons]
    exact fun distinct => distinct.1 (by simp)

end PongLimiter

end Mosschat.Net
