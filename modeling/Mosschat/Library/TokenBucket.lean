import Mathlib.Algebra.Order.BigOperators.Group.List
import Mathlib.Algebra.Order.Field.Basic
import Mathlib.Data.List.Induction
import Mathlib.Tactic.Linarith
import Mathlib.Tactic.Ring
import Mosschat.Library.Machine

/-!
Owns token buckets over an ordered field: a bucket that gains tokens at a rate up to a
capacity and pays out what is asked where it holds enough, what it pays out in a
window of time, and where it pays what a count of every window would.

Does not own any clock, or what a token stands for.
-/

namespace Mosschat.Library

open Machine

universe u

variable {K : Type u} [Field K] [LinearOrder K] [IsStrictOrderedRing K]

/-- What a bucket holds at most, and what it gains in a unit of time. -/
structure TokenBucket (K : Type u) [Field K] [LinearOrder K] where
  capacity : K
  rate : K
  capacity_nonneg : 0 ≤ capacity
  rate_nonneg : 0 ≤ rate

/-- An amount that is asked for at a time. -/
structure Demand (K : Type u) [Field K] [LinearOrder K] where
  time : K
  amount : K
  amount_nonneg : 0 ≤ amount

namespace TokenBucket

/-- What a bucket holds, as it was reckoned last. -/
structure Account (bucket : TokenBucket K) where
  balance : K
  reckoned : K
  balance_nonneg : 0 ≤ balance
  balance_le : balance ≤ bucket.capacity

variable {bucket : TokenBucket K}

namespace Account

/-- What the bucket holds at a time. A time before the last reckoning gains nothing. -/
def balanceAt (account : bucket.Account) (time : K) : K :=
  min (account.balance + max 0 (time - account.reckoned) * bucket.rate) bucket.capacity

omit [IsStrictOrderedRing K] in
theorem balanceAt_le (account : bucket.Account) (time : K) :
    account.balanceAt time ≤ bucket.capacity :=
  min_le_right _ _

theorem gained_nonneg (account : bucket.Account) (time : K) :
    0 ≤ max 0 (time - account.reckoned) * bucket.rate :=
  mul_nonneg (le_max_left _ _) bucket.rate_nonneg

/-- Waiting costs nothing. -/
theorem balance_le_balanceAt (account : bucket.Account) (time : K) :
    account.balance ≤ account.balanceAt time := by
  apply le_min _ account.balance_le
  have gained := account.gained_nonneg time
  linarith

theorem balanceAt_nonneg (account : bucket.Account) (time : K) : 0 ≤ account.balanceAt time :=
  account.balance_nonneg.trans (account.balance_le_balanceAt time)

/-- The account reckoned anew. -/
def reckon (account : bucket.Account) (time : K) : bucket.Account where
  balance := account.balanceAt time
  reckoned := time
  balance_nonneg := account.balanceAt_nonneg time
  balance_le := account.balanceAt_le time

/-- The account after a payment it can make. -/
def pay (account : bucket.Account) (amount : K) (nonneg : 0 ≤ amount)
    (enough : amount ≤ account.balance) : bucket.Account where
  balance := account.balance - amount
  reckoned := account.reckoned
  balance_nonneg := sub_nonneg.mpr enough
  balance_le := (sub_le_self _ nonneg).trans account.balance_le

/-- The account reckons and pays where it holds enough. -/
def serve (account : bucket.Account) (demand : Demand K) : bucket.Account × Bool :=
  if enough : demand.amount ≤ (account.reckon demand.time).balance then
    ((account.reckon demand.time).pay demand.amount demand.amount_nonneg enough, true)
  else (account.reckon demand.time, false)

/-- The account after a demand. -/
def next (account : bucket.Account) (demand : Demand K) : bucket.Account :=
  (account.serve demand).1

/-- What of the demand is paid. -/
def grants (account : bucket.Account) (demand : Demand K) : List (Demand K) :=
  if demand.amount ≤ account.balanceAt demand.time then [demand] else []

/-- The demands that are paid, in order. -/
def granted (account : bucket.Account) (demands : List (Demand K)) : List (Demand K) :=
  outputs next grants account demands

/-- No demand comes before the one ahead of it, nor before the account was reckoned. -/
def Timely (account : bucket.Account) (demands : List (Demand K)) : Prop :=
  (account.reckoned :: demands.map Demand.time).Pairwise (· ≤ ·)

/-! ## One demand -/

theorem serve_of_le {account : bucket.Account} {demand : Demand K}
    (enough : demand.amount ≤ account.balanceAt demand.time) :
    account.serve demand =
      ((account.reckon demand.time).pay demand.amount demand.amount_nonneg enough, true) :=
  dif_pos enough

theorem serve_of_lt {account : bucket.Account} {demand : Demand K}
    (short : account.balanceAt demand.time < demand.amount) :
    account.serve demand = (account.reckon demand.time, false) :=
  dif_neg (not_le.mpr short)

theorem next_of_le {account : bucket.Account} {demand : Demand K}
    (enough : demand.amount ≤ account.balanceAt demand.time) :
    account.next demand =
      (account.reckon demand.time).pay demand.amount demand.amount_nonneg enough :=
  congrArg Prod.fst (serve_of_le enough)

theorem next_of_lt {account : bucket.Account} {demand : Demand K}
    (short : account.balanceAt demand.time < demand.amount) :
    account.next demand = account.reckon demand.time :=
  congrArg Prod.fst (serve_of_lt short)

theorem next_reckoned (account : bucket.Account) (demand : Demand K) :
    (account.next demand).reckoned = demand.time := by
  rcases le_or_gt demand.amount (account.balanceAt demand.time) with enough | short
  · rw [next_of_le enough]
    rfl
  · rw [next_of_lt short]
    rfl

/-- A demand takes what it is paid out of what there was at its time. -/
theorem next_balance (account : bucket.Account) (demand : Demand K) :
    (account.next demand).balance =
      account.balanceAt demand.time - ((account.grants demand).map Demand.amount).sum := by
  unfold grants
  rcases le_or_gt demand.amount (account.balanceAt demand.time) with enough | short
  · rw [next_of_le enough, if_pos enough, List.map_singleton, List.sum_singleton]
    rfl
  · rw [next_of_lt short, if_neg (not_le.mpr short), List.map_nil, List.sum_nil, sub_zero]
    rfl

/-- Reckoning in between changes nothing. -/
theorem balanceAt_reckon (account : bucket.Account) {time later : K}
    (first : account.reckoned ≤ time) (second : time ≤ later) :
    (account.reckon time).balanceAt later = account.balanceAt later := by
  show min (min (account.balance + max 0 (time - account.reckoned) * bucket.rate) bucket.capacity +
      max 0 (later - time) * bucket.rate) bucket.capacity = account.balanceAt later
  unfold balanceAt
  rw [max_eq_right (sub_nonneg.mpr first), max_eq_right (sub_nonneg.mpr second),
    max_eq_right (sub_nonneg.mpr (first.trans second))]
  have gained : 0 ≤ (later - time) * bucket.rate :=
    mul_nonneg (sub_nonneg.mpr second) bucket.rate_nonneg
  rcases le_total (account.balance + (time - account.reckoned) * bucket.rate) bucket.capacity with
    room | full
  · rw [min_eq_left room]
    congr 1
    ring
  · rw [min_eq_right full, min_eq_right, min_eq_right]
    · linarith
    · linarith

/-- What a reckoning credits is at most what the time brings. -/
theorem balanceAt_le_of_reckoned_le (account : bucket.Account) {time : K}
    (order : account.reckoned ≤ time) :
    account.balanceAt time ≤ account.balance + bucket.rate * (time - account.reckoned) := by
  unfold balanceAt
  rw [max_eq_right (sub_nonneg.mpr order), mul_comm]
  exact min_le_left _ _

/-! ## Any demands -/

theorem granted_cons (account : bucket.Account) (demand : Demand K) (rest : List (Demand K)) :
    account.granted (demand :: rest) = account.grants demand ++ (account.next demand).granted rest :=
  rfl

theorem granted_append (account : bucket.Account) (first second : List (Demand K)) :
    account.granted (first ++ second) =
      account.granted first ++ (run next account first).granted second :=
  outputs_append account first second

theorem timely_cons {account : bucket.Account} {demand : Demand K} {rest : List (Demand K)} :
    account.Timely (demand :: rest) ↔
      account.reckoned ≤ demand.time ∧ (account.next demand).Timely rest := by
  unfold Timely
  rw [next_reckoned, List.map_cons, List.pairwise_cons (a := account.reckoned)]
  constructor
  · intro ordered
    exact ⟨ordered.1 _ List.mem_cons_self, ordered.2⟩
  · intro ordered
    refine ⟨?_, ordered.2⟩
    intro time member
    rcases List.mem_cons.mp member with isFirst | later
    · rw [isFirst]
      exact ordered.1
    · exact ordered.1.trans ((List.pairwise_cons.mp ordered.2).1 time later)

theorem timely_append {account : bucket.Account} {first second : List (Demand K)} :
    account.Timely (first ++ second) ↔
      account.Timely first ∧ (run next account first).Timely second := by
  induction first generalizing account with
  | nil =>
      refine ⟨fun timely => ⟨List.pairwise_singleton _ _, timely⟩, And.right⟩
  | cons demand rest ih =>
      rw [List.cons_append, timely_cons, timely_cons, ih, and_assoc]
      rfl

/-- What is paid and what is left were there before, or are what the time has brought. -/
theorem granted_le {account : bucket.Account} {demands : List (Demand K)}
    (timely : account.Timely demands) :
    ((account.granted demands).map Demand.amount).sum + (run next account demands).balance ≤
      account.balance + bucket.rate * ((run next account demands).reckoned - account.reckoned) := by
  induction demands generalizing account with
  | nil =>
      show (0 : K) + account.balance ≤
        account.balance + bucket.rate * (account.reckoned - account.reckoned)
      rw [sub_self, mul_zero, zero_add, add_zero]
  | cons demand rest ih =>
      obtain ⟨order, timelyRest⟩ := timely_cons.mp timely
      have credited := account.balanceAt_le_of_reckoned_le order
      have later := ih timelyRest
      rw [next_reckoned, next_balance] at later
      rw [granted_cons, List.map_append, List.sum_append, run_cons]
      linarith

/-! ## Windows of time -/

end Account

/-- The demands of a window, its ends among them. -/
def within (start finish : K) (demands : List (Demand K)) : List (Demand K) :=
  demands.filter fun demand => decide (start ≤ demand.time ∧ demand.time ≤ finish)

/-- What the demands ask for in all. -/
def total (demands : List (Demand K)) : K := (demands.map Demand.amount).sum

omit [IsStrictOrderedRing K] in
theorem within_append (start finish : K) (first second : List (Demand K)) :
    within start finish (first ++ second) = within start finish first ++ within start finish second :=
  List.filter_append first second

omit [IsStrictOrderedRing K] in
theorem within_eq_self {start finish : K} {demands : List (Demand K)}
    (inside : ∀ demand ∈ demands, start ≤ demand.time ∧ demand.time ≤ finish) :
    within start finish demands = demands :=
  List.filter_eq_self.mpr fun demand member => decide_eq_true (inside demand member)

omit [IsStrictOrderedRing K] in
theorem within_eq_nil {start finish : K} {demands : List (Demand K)}
    (outside : ∀ demand ∈ demands, demand.time < start ∨ finish < demand.time) :
    within start finish demands = [] := by
  apply List.filter_eq_nil_iff.mpr
  intro demand member inside
  have bounds := of_decide_eq_true inside
  rcases outside demand member with early | late
  · exact absurd early (not_lt.mpr bounds.1)
  · exact absurd late (not_lt.mpr bounds.2)

theorem total_nonneg (demands : List (Demand K)) : 0 ≤ total demands := by
  apply List.sum_nonneg
  intro amount member
  obtain ⟨demand, -, rfl⟩ := List.mem_map.mp member
  exact demand.amount_nonneg

omit [IsStrictOrderedRing K] in
theorem total_append (first second : List (Demand K)) :
    total (first ++ second) = total first + total second := by
  unfold total
  rw [List.map_append, List.sum_append]

omit [IsStrictOrderedRing K] in
theorem total_singleton (demand : Demand K) : total [demand] = demand.amount := by
  unfold total
  rw [List.map_singleton, List.sum_singleton]

omit [IsStrictOrderedRing K] in
/-- The demands of a window stand together. -/
theorem exists_window {demands : List (Demand K)}
    (ordered : (demands.map Demand.time).Pairwise (· ≤ ·)) (start finish : K) :
    ∃ early late, demands = early ++ within start finish demands ++ late ∧
      (∀ demand ∈ early, demand.time < start) ∧ ∀ demand ∈ late, finish < demand.time := by
  induction demands with
  | nil => exact ⟨[], [], rfl, by simp, by simp⟩
  | cons demand rest ih =>
      rw [List.map_cons, List.pairwise_cons] at ordered
      have after : ∀ other ∈ rest, demand.time ≤ other.time := fun other member =>
        ordered.1 _ (List.mem_map_of_mem member)
      obtain ⟨early, late, split, before, behind⟩ := ih ordered.2
      rcases lt_or_ge demand.time start with isEarly | started
      · have outside : within start finish [demand] = [] :=
          within_eq_nil fun other member => Or.inl (List.mem_singleton.mp member ▸ isEarly)
        refine ⟨demand :: early, late, ?_, List.forall_mem_cons.mpr ⟨isEarly, before⟩, behind⟩
        rw [← List.singleton_append, within_append, outside, List.nil_append]
        exact congrArg (List.cons demand) split
      · have noneEarly : early = [] := by
          apply List.eq_nil_iff_forall_not_mem.mpr
          intro other member
          have inRest : other ∈ rest := by
            rw [split]
            exact List.mem_append_left _ (List.mem_append_left _ member)
          exact absurd (before other member) (not_lt.mpr (started.trans (after other inRest)))
        subst noneEarly
        rcases lt_or_ge finish demand.time with isLate | inTime
        · have allLate : ∀ other ∈ demand :: rest, finish < other.time :=
            List.forall_mem_cons.mpr
              ⟨isLate, fun other member => isLate.trans_le (after other member)⟩
          refine ⟨[], demand :: rest, ?_, by simp, allLate⟩
          rw [within_eq_nil fun other member => Or.inr (allLate other member)]
          rfl
        · have inside : within start finish [demand] = [demand] :=
            within_eq_self fun other member => List.mem_singleton.mp member ▸ ⟨started, inTime⟩
          refine ⟨[], late, ?_, by simp, behind⟩
          rw [← List.singleton_append, within_append, inside]
          exact congrArg (List.cons demand) split

namespace Account

/-- What is paid was asked for. -/
theorem granted_sublist (account : bucket.Account) (demands : List (Demand K)) :
    (account.granted demands).Sublist demands := by
  induction demands generalizing account with
  | nil => exact List.Sublist.slnil
  | cons demand rest ih =>
      rw [granted_cons]
      have later := ih (account.next demand)
      unfold grants
      split
      · exact later.cons_cons demand
      · exact later.cons demand

/-- What a window is paid, it is paid by what the demands before it left. -/
theorem within_granted {account : bucket.Account} {early inside late : List (Demand K)}
    {start finish : K} (before : ∀ demand ∈ early, demand.time < start)
    (during : ∀ demand ∈ inside, start ≤ demand.time ∧ demand.time ≤ finish)
    (behind : ∀ demand ∈ late, finish < demand.time) :
    within start finish (account.granted (early ++ inside ++ late)) =
      (run next account early).granted inside := by
  rw [granted_append, granted_append, within_append, within_append]
  have noneEarly : within start finish (account.granted early) = [] :=
    within_eq_nil fun demand member =>
      Or.inl (before demand ((granted_sublist _ _).subset member))
  have allInside : within start finish ((run next account early).granted inside) =
      (run next account early).granted inside :=
    within_eq_self fun demand member => during demand ((granted_sublist _ _).subset member)
  have noneLate : within start finish
      ((run next account (early ++ inside)).granted late) = [] :=
    within_eq_nil fun demand member =>
      Or.inr (behind demand ((granted_sublist _ _).subset member))
  rw [noneEarly, allInside, noneLate, List.nil_append, List.append_nil]

theorem reckoned_le_of_timely {account : bucket.Account} {demands : List (Demand K)} {finish : K}
    (bound : ∀ demand ∈ demands, demand.time ≤ finish) (start : account.reckoned ≤ finish) :
    (run next account demands).reckoned ≤ finish := by
  induction demands generalizing account with
  | nil => exact start
  | cons demand rest ih =>
      rw [List.forall_mem_cons] at bound
      apply ih bound.2
      rw [next_reckoned]
      exact bound.1

/-- A window is paid at most what a full bucket holds and what it gains meanwhile. -/
theorem total_within_le {account : bucket.Account} {demands : List (Demand K)}
    (timely : account.Timely demands) {start finish : K} (order : start ≤ finish) :
    total (within start finish (account.granted demands)) ≤
      bucket.capacity + bucket.rate * (finish - start) := by
  have gained : 0 ≤ bucket.rate * (finish - start) :=
    mul_nonneg bucket.rate_nonneg (sub_nonneg.mpr order)
  have ordered := (List.pairwise_cons.mp timely).2
  obtain ⟨early, late, split, before, behind⟩ := exists_window ordered start finish
  have during : ∀ demand ∈ within start finish demands,
      start ≤ demand.time ∧ demand.time ≤ finish :=
    fun demand member => of_decide_eq_true (List.mem_filter.mp member).2
  have timelyWindow : (run next account early).Timely (within start finish demands) := by
    rw [split] at timely
    exact (timely_append.mp (timely_append.mp timely).1).2
  have paid : within start finish (account.granted demands) =
      (run next account early).granted (within start finish demands) := by
    conv_lhs => rw [split]
    exact within_granted before during behind
  rw [paid]
  -- The first demand of the window finds a full bucket at most.
  cases shape : within start finish demands with
  | nil =>
      have full := bucket.capacity_nonneg
      show (0 : K) ≤ _
      linarith
  | cons demand rest =>
      rw [shape, List.forall_mem_cons] at during
      rw [shape, timely_cons] at timelyWindow
      have found := (run next account early).balanceAt_le demand.time
      have credited := granted_le timelyWindow.2
      have left := (run next (run next account early) (demand :: rest)).balance_nonneg
      have ended : (run next ((run next account early).next demand) rest).reckoned ≤ finish := by
        apply reckoned_le_of_timely
        · exact fun other member => (during.2 other member).2
        · rw [next_reckoned]
          exact during.1.2
      rw [next_reckoned, next_balance] at credited
      have span : (run next ((run next account early).next demand) rest).reckoned - demand.time ≤
          finish - start := by
        have started := during.1.1
        linarith
      have brought := mul_le_mul_of_nonneg_left span bucket.rate_nonneg
      unfold total
      rw [granted_cons, List.map_append, List.sum_append]
      rw [run_cons] at left
      linarith

/-! ## A full bucket by what it has paid -/

theorem granted_concat (account : bucket.Account) (front : List (Demand K)) (demand : Demand K) :
    account.granted (front ++ [demand]) =
      account.granted front ++ (run next account front).grants demand := by
  unfold granted
  rw [outputs_append]
  exact congrArg _ (List.append_nil _)

/-- What a payment leaves, later. -/
theorem le_balanceAt_next_iff {account : bucket.Account} {demand : Demand K}
    (enough : demand.amount ≤ account.balanceAt demand.time) {time : K}
    (after : demand.time ≤ time) (amount : K) :
    amount ≤ (account.next demand).balanceAt time ↔ amount ≤ bucket.capacity ∧
      amount + demand.amount - bucket.rate * (time - demand.time) ≤
        account.balanceAt demand.time := by
  have left : (account.next demand).balance = account.balanceAt demand.time - demand.amount := by
    rw [next_balance, grants, if_pos enough, List.map_singleton, List.sum_singleton]
  show amount ≤ min ((account.next demand).balance +
    max 0 (time - (account.next demand).reckoned) * bucket.rate) bucket.capacity ↔ _
  rw [next_reckoned, left, max_eq_right (sub_nonneg.mpr after), le_min_iff, and_comm, mul_comm]
  apply and_congr_right
  intro _
  constructor
  · intro fits
    linarith
  · intro fits
    linarith

/-- A bucket that was full holds an amount exactly where no run of its payments to now has been
ahead of the time with it. -/
theorem le_balanceAt_run_iff {account : bucket.Account} (full : account.balance = bucket.capacity)
    {demands : List (Demand K)} (timely : account.Timely demands) {time : K}
    (after : (run next account demands).reckoned ≤ time) (amount : K) :
    amount ≤ (run next account demands).balanceAt time ↔
      amount ≤ bucket.capacity ∧ ∀ first rest, first :: rest <:+ account.granted demands →
        total (first :: rest) + amount ≤ bucket.capacity + bucket.rate * (time - first.time) := by
  induction demands using List.reverseRecOn generalizing time amount with
  | nil =>
      have whole : account.balanceAt time = bucket.capacity := by
        apply le_antisymm (account.balanceAt_le time)
        rw [← full]
        exact account.balance_le_balanceAt time
      show amount ≤ account.balanceAt time ↔ _
      rw [whole]
      refine ⟨fun fits => ⟨fits, ?_⟩, And.left⟩
      intro first rest inside
      cases List.suffix_nil.mp inside
  | append_singleton front demand ih =>
      obtain ⟨timelyFront, timelyLast⟩ := timely_append.mp timely
      have order := (timely_cons.mp timelyLast).1
      rw [run_concat] at after ⊢
      rw [next_reckoned] at after
      rw [granted_concat, grants]
      rcases le_or_gt demand.amount ((run next account front).balanceAt demand.time) with
        enough | short
      · rw [if_pos enough]
        have before := ih timelyFront order
          (amount + demand.amount - bucket.rate * (time - demand.time))
        have gained : 0 ≤ bucket.rate * (time - demand.time) :=
          mul_nonneg bucket.rate_nonneg (sub_nonneg.mpr after)
        rw [le_balanceAt_next_iff enough after, before]
        constructor
        · rintro ⟨fits, alone, ahead⟩
          refine ⟨fits, ?_⟩
          intro first rest inside
          obtain ⟨stretch, isStretch, atEnd⟩ :=
            (List.suffix_concat_iff.mp inside).resolve_left (List.cons_ne_nil _ _)
          cases stretch with
          | nil =>
              cases isStretch
              rw [total_singleton]
              linarith
          | cons other others =>
              have isFirst : first = other := (List.cons.inj isStretch).1
              have earlier := ahead other others atEnd
              rw [isStretch, isFirst, total_append, total_singleton]
              linarith
        · rintro ⟨fits, ahead⟩
          have last := ahead demand [] (List.suffix_append _ _)
          rw [total_singleton] at last
          refine ⟨fits, by linarith, ?_⟩
          intro first rest inside
          have later := ahead first (rest ++ [demand])
            (by rw [← List.cons_append]; exact List.suffix_append_self_iff.mpr inside)
          rw [← List.cons_append, total_append, total_singleton] at later
          linarith
      · rw [next_of_lt short, if_neg (not_le.mpr short), List.append_nil,
          balanceAt_reckon _ order after]
        exact ih timelyFront (order.trans after) amount

end Account

/-! ## A count of every window -/

/-- What of the demand a count pays that lets no window of the span have more than the capacity. -/
def counts (capacity span : K) (paid : List (Demand K)) (demand : Demand K) : List (Demand K) :=
  if total (within (demand.time - span) demand.time paid) + demand.amount ≤ capacity then [demand]
  else []

/-- The demands that the count pays, in order. -/
def counted (capacity span : K) (demands : List (Demand K)) : List (Demand K) :=
  run (fun paid demand => paid ++ counts capacity span paid demand) [] demands

/-- Whatever the count refuses is out of reach for a bucket that pays what the count pays: it is
more than the capacity, or is, with all that the count has paid from some payment on, more than
the capacity and what the time since brings. -/
def Outspent (capacity rate span : K) (demands : List (Demand K)) : Prop :=
  ∀ front demand, front ++ [demand] <+: demands →
    capacity < total (within (demand.time - span) demand.time (counted capacity span front)) +
      demand.amount →
    capacity < demand.amount ∨ ∃ first rest, first :: rest <:+ counted capacity span front ∧
      capacity + rate * (demand.time - first.time) < total (first :: rest) + demand.amount

omit [IsStrictOrderedRing K] in
theorem counted_concat (capacity span : K) (front : List (Demand K)) (demand : Demand K) :
    counted capacity span (front ++ [demand]) =
      counted capacity span front ++ counts capacity span (counted capacity span front) demand :=
  run_concat _ _ _

omit [IsStrictOrderedRing K] in
/-- What is counted was asked for. -/
theorem counted_sublist (capacity span : K) (demands : List (Demand K)) :
    (counted capacity span demands).Sublist demands := by
  induction demands using List.reverseRecOn with
  | nil => exact List.Sublist.slnil
  | append_singleton front demand ih =>
      rw [counted_concat]
      apply ih.append
      unfold counts
      split
      · exact List.Sublist.refl _
      · exact List.nil_sublist _

omit [IsStrictOrderedRing K] in
theorem within_sublist (start finish : K) {some all : List (Demand K)} (among : some.Sublist all) :
    (within start finish some).Sublist (within start finish all) := among.filter _

theorem total_le_of_sublist {some all : List (Demand K)} (among : some.Sublist all) :
    total some ≤ total all :=
  (among.map Demand.amount).sum_le_sum fun _ member => by
    obtain ⟨demand, -, rfl⟩ := List.mem_map.mp member
    exact demand.amount_nonneg

/-- What two windows cover is no more than what the two have. -/
theorem total_le_add {demands : List (Demand K)} {start middle finish : K}
    (inside : ∀ demand ∈ demands, start ≤ demand.time ∧ demand.time ≤ finish) :
    total demands ≤
      total (within start middle demands) + total (within middle finish demands) := by
  induction demands with
  | nil =>
      show (0 : K) ≤ 0 + 0
      rw [add_zero]
  | cons demand rest ih =>
      rw [List.forall_mem_cons] at inside
      have later := ih inside.2
      rw [← List.singleton_append, within_append, within_append, total_append, total_append,
        total_append]
      have first := total_nonneg (within start middle [demand])
      have second := total_nonneg (within middle finish [demand])
      rcases le_total demand.time middle with early | late
      · have whole : within start middle [demand] = [demand] :=
          within_eq_self fun other member => List.mem_singleton.mp member ▸ ⟨inside.1.1, early⟩
        rw [whole] at first ⊢
        linarith
      · have whole : within middle finish [demand] = [demand] :=
          within_eq_self fun other member => List.mem_singleton.mp member ▸ ⟨late, inside.1.2⟩
        rw [whole] at second ⊢
        linarith

/-- Nothing is refused of demands that are no more than the capacity in all. -/
theorem outspent_of_total_le {capacity rate span : K} {demands : List (Demand K)}
    (fits : total demands ≤ capacity) : Outspent capacity rate span demands := by
  intro front demand inside past
  have paid := total_le_of_sublist
    ((List.filter_sublist (p := fun other : Demand K =>
      decide (demand.time - span ≤ other.time ∧ other.time ≤ demand.time))).trans
      (counted_sublist capacity span front))
  have asked := total_le_of_sublist inside.sublist
  rw [total_append, total_singleton] at asked
  unfold within at past
  linarith

namespace Account

/-- What the count pays, a bucket that was full and gains its capacity within the span can pay. -/
theorem le_balanceAt_of_count {account : bucket.Account}
    (full : account.balance = bucket.capacity) {span : K}
    (refills : bucket.capacity ≤ bucket.rate * span) {front : List (Demand K)} {demand : Demand K}
    (timely : account.Timely (front ++ [demand]))
    (fits : total (within (demand.time - span) demand.time (account.granted front)) +
      demand.amount ≤ bucket.capacity) :
    demand.amount ≤ (run next account front).balanceAt demand.time := by
  obtain ⟨timelyFront, timelyLast⟩ := timely_append.mp timely
  have ordered := (List.pairwise_cons.mp timely).2
  rw [List.map_append, List.pairwise_append] at ordered
  have granted := account.granted_sublist front
  have before : ∀ other ∈ account.granted front, other.time ≤ demand.time := fun other member =>
    ordered.2.2 _ (List.mem_map_of_mem (granted.subset member)) _ List.mem_cons_self
  apply (le_balanceAt_run_iff full timelyFront (timely_cons.mp timelyLast).1 _).mpr
  constructor
  · have some := total_nonneg (within (demand.time - span) demand.time (account.granted front))
    linarith
  · intro first rest inside
    have among := inside.sublist
    have inOrder := ordered.1.sublist ((among.trans granted).map _)
    rw [List.map_cons, List.pairwise_cons] at inOrder
    have stretch : ∀ other ∈ first :: rest,
        first.time ≤ other.time ∧ other.time ≤ demand.time :=
      List.forall_mem_cons.mpr ⟨⟨le_refl _, before first (among.subset List.mem_cons_self)⟩,
        fun other member => ⟨inOrder.1 _ (List.mem_map_of_mem member),
          before other (among.subset (List.mem_cons_of_mem _ member))⟩⟩
    have lasts := (stretch first List.mem_cons_self).2
    have window := total_le_of_sublist (within_sublist (demand.time - span) demand.time among)
    rcases le_total (demand.time - span) first.time with young | old
    · have whole : within (demand.time - span) demand.time (first :: rest) = first :: rest :=
        within_eq_self fun other member =>
          ⟨young.trans (stretch other member).1, (stretch other member).2⟩
      have gained : 0 ≤ bucket.rate * (demand.time - first.time) :=
        mul_nonneg bucket.rate_nonneg (sub_nonneg.mpr lasts)
      rw [whole] at window
      linarith
    · -- The part of the stretch before the window is no more than a bucket pays in that time.
      have parts : total (first :: rest) ≤
          total (within first.time (demand.time - span) (first :: rest)) +
            total (within (demand.time - span) demand.time (first :: rest)) :=
        total_le_add stretch
      have early := total_le_of_sublist (within_sublist first.time (demand.time - span) among)
      have paid := total_within_le timelyFront old
      have whole : bucket.rate * (demand.time - span - first.time) =
          bucket.rate * (demand.time - first.time) - bucket.rate * span := by
        ring
      linarith

theorem timely_of_prefix {account : bucket.Account} {demands front : List (Demand K)}
    {demand : Demand K} (timely : account.Timely demands) (inside : front ++ [demand] <+: demands) :
    (run next account front).reckoned ≤ demand.time ∧ account.Timely front := by
  have timelyHere : account.Timely (front ++ [demand]) :=
    List.Pairwise.sublist ((inside.sublist.map _).cons_cons _) timely
  obtain ⟨timelyFront, timelyLast⟩ := timely_append.mp timelyHere
  exact ⟨(timely_cons.mp timelyLast).1, timelyFront⟩

/-- As far as the bucket has paid what the count has paid, it refuses what the count refuses. -/
def Refuses (account : bucket.Account) (span : K) (demands : List (Demand K)) : Prop :=
  ∀ front demand, front ++ [demand] <+: demands →
    account.granted front = counted bucket.capacity span front →
    bucket.capacity < total (within (demand.time - span) demand.time
      (counted bucket.capacity span front)) + demand.amount →
    (run next account front).balanceAt demand.time < demand.amount

/-- The bucket pays what the count pays, as long as it refuses what the count refuses. -/
theorem granted_eq_counted {account : bucket.Account} (full : account.balance = bucket.capacity)
    {span : K} (refills : bucket.capacity ≤ bucket.rate * span) {demands : List (Demand K)}
    (timely : account.Timely demands) (refuses : account.Refuses span demands) :
    ∀ front, front <+: demands → account.granted front = counted bucket.capacity span front := by
  intro front inside
  induction front using List.reverseRecOn with
  | nil => rfl
  | append_singleton front demand ih =>
      have same := ih ((List.prefix_append _ _).trans inside)
      have timelyHere : account.Timely (front ++ [demand]) :=
        List.Pairwise.sublist ((inside.sublist.map _).cons_cons _) timely
      rw [granted_concat, counted_concat, same]
      unfold grants counts
      rcases le_or_gt (total (within (demand.time - span) demand.time
        (counted bucket.capacity span front)) + demand.amount) bucket.capacity with fits | past
      · rw [if_pos fits, if_pos (le_balanceAt_of_count full refills timelyHere (same ▸ fits))]
      · rw [if_neg (not_le.mpr past), if_neg (not_le.mpr (refuses front demand inside same past))]

/-- No window of the span has more of the counted than the capacity. -/
theorem total_within_counted_le {account : bucket.Account} {span : K}
    {demands : List (Demand K)} (timely : account.Timely demands) (start : K) :
    total (within start (start + span) (counted bucket.capacity span demands)) ≤
      bucket.capacity := by
  induction demands using List.reverseRecOn with
  | nil => exact bucket.capacity_nonneg
  | append_singleton front demand ih =>
      have before := ih (timely_append.mp timely).1
      rw [counted_concat, within_append, total_append]
      unfold counts
      split_ifs with fits
      · by_cases inside : start ≤ demand.time ∧ demand.time ≤ start + span
        · -- The window that ends at the demand has all of it.
          have whole : within start (start + span) [demand] = [demand] :=
            within_eq_self fun other member => List.mem_singleton.mp member ▸ inside
          have ordered := (List.pairwise_cons.mp timely).2
          rw [List.map_append, List.pairwise_append] at ordered
          have covered : within start (start + span) (counted bucket.capacity span front) =
              within start (start + span) (within (demand.time - span) demand.time
                (counted bucket.capacity span front)) := by
            unfold within
            rw [List.filter_filter]
            apply List.filter_congr
            intro other member
            have earlier := ordered.2.2 _ (List.mem_map_of_mem ((counted_sublist _ _ _).subset
              member)) _ List.mem_cons_self
            rw [← Bool.decide_and]
            apply decide_eq_decide.mpr
            constructor
            · intro bounds
              refine ⟨bounds, ?_, earlier⟩
              have ends := inside.2
              have starts := bounds.1
              linarith
            · exact And.left
          have less : total (within start (start + span) (within (demand.time - span) demand.time
              (counted bucket.capacity span front))) ≤ total (within (demand.time - span)
                demand.time (counted bucket.capacity span front)) :=
            total_le_of_sublist List.filter_sublist
          rw [whole, covered, total_singleton]
          linarith
        · have none : within start (start + span) [demand] = [] := by
            unfold within
            rw [List.filter_cons_of_neg (by simpa using inside)]
            rfl
          rw [none]
          show _ + (0 : K) ≤ _
          rw [add_zero]
          exact before
      · show _ + (0 : K) ≤ _
        rw [add_zero]
        exact before

/-- Where the windows that open at a demand are paid no more than the capacity, neither is the
one that ends at a demand which is paid. -/
theorem paid_window_le {account : bucket.Account} {demands : List (Demand K)}
    (timely : account.Timely demands) {span : K} (nonneg : 0 ≤ span)
    (bounded : ∀ demand ∈ demands, total (within demand.time (demand.time + span)
      (account.granted demands)) ≤ bucket.capacity)
    {front : List (Demand K)} {demand : Demand K} (inside : front ++ [demand] <+: demands)
    (enough : demand.amount ≤ (run next account front).balanceAt demand.time) :
    total (within (demand.time - span) demand.time (account.granted front)) + demand.amount ≤
      bucket.capacity := by
  have granted : account.granted (front ++ [demand]) = account.granted front ++ [demand] := by
    rw [granted_concat, grants, if_pos enough]
  obtain ⟨late, isAll⟩ := inside
  have all : (account.granted front ++ [demand]).Sublist (account.granted demands) := by
    rw [← isAll, granted_append, granted]
    exact List.sublist_append_left _ _
  have ordered := (List.pairwise_cons.mp timely).2
  have inOrder := ordered.sublist ((all.trans (granted_sublist _ _)).map _)
  -- The window opens at the first of what it has.
  obtain ⟨window, isWindow⟩ : ∃ window, window =
      within (demand.time - span) demand.time (account.granted front) ++ [demand] := ⟨_, rfl⟩
  have among : window.Sublist (account.granted front ++ [demand]) := by
    rw [isWindow]
    exact List.filter_sublist.append_right _
  have started : ∀ other ∈ window, demand.time - span ≤ other.time ∧ other.time ≤ demand.time := by
    intro other member
    rw [isWindow, List.mem_append, List.mem_singleton] at member
    rcases member with earlier | isLast
    · exact of_decide_eq_true (List.mem_filter.mp earlier).2
    · rw [isLast]
      exact ⟨sub_le_self _ nonneg, le_refl _⟩
  have amount : total window =
      total (within (demand.time - span) demand.time (account.granted front)) + demand.amount := by
    rw [isWindow, total_append, total_singleton]
  rw [← amount]
  cases window with
  | nil => exact bucket.capacity_nonneg
  | cons first rest =>
      have inTurn := inOrder.sublist (among.map _)
      rw [List.map_cons, List.pairwise_cons] at inTurn
      have whole : within first.time (first.time + span) (first :: rest) = first :: rest := by
        apply within_eq_self
        intro other member
        have opens := (started first List.mem_cons_self).1
        have ends := (started other member).2
        refine ⟨?_, by linarith⟩
        rcases List.mem_cons.mp member with isFirst | later
        · rw [isFirst]
        · exact inTurn.1 _ (List.mem_map_of_mem later)
      have isDemand : first ∈ demands :=
        (granted_sublist _ _).subset ((among.trans all).subset List.mem_cons_self)
      have less := total_le_of_sublist
        (within_sublist first.time (first.time + span) (among.trans all))
      rw [whole] at less
      exact less.trans (bounded first isDemand)

/-- Where all that the count refuses is out of a full bucket's reach, no window of the span is
paid more than the capacity. -/
theorem total_within_le_of_outspent {account : bucket.Account}
    (full : account.balance = bucket.capacity) {span : K}
    (refills : bucket.capacity ≤ bucket.rate * span) {demands : List (Demand K)}
    (timely : account.Timely demands)
    (outspent : Outspent bucket.capacity bucket.rate span demands) (start : K) :
    total (within start (start + span) (account.granted demands)) ≤ bucket.capacity := by
  have refuses : account.Refuses span demands := by
    intro front demand inside same past
    obtain ⟨order, timelyFront⟩ := timely_of_prefix timely inside
    by_contra enough
    obtain ⟨alone, ahead⟩ :=
      (le_balanceAt_run_iff full timelyFront order demand.amount).mp (not_lt.mp enough)
    rcases outspent front demand inside past with more | ⟨first, rest, atEnd, more⟩
    · exact absurd alone (not_le.mpr more)
    · rw [← same] at atEnd
      exact absurd (ahead first rest atEnd) (not_le.mpr more)
  rw [granted_eq_counted full refills timely refuses demands (List.prefix_refl _)]
  exact total_within_counted_le timely start

/-- Where the windows that open at a demand are paid no more than the capacity, all that the count
refuses is out of a full bucket's reach. -/
theorem outspent_of_windows {account : bucket.Account}
    (full : account.balance = bucket.capacity) {span : K} (nonneg : 0 ≤ span)
    (refills : bucket.capacity ≤ bucket.rate * span) {demands : List (Demand K)}
    (timely : account.Timely demands)
    (bounded : ∀ demand ∈ demands, total (within demand.time (demand.time + span)
      (account.granted demands)) ≤ bucket.capacity) :
    Outspent bucket.capacity bucket.rate span demands := by
  have refuses : account.Refuses span demands := by
    intro front demand inside same past
    by_contra enough
    apply not_le.mpr past
    rw [← same]
    exact paid_window_le timely nonneg bounded inside (not_lt.mp enough)
  have same := granted_eq_counted full refills timely refuses
  intro front demand inside past
  have isSame := same front ((List.prefix_append _ _).trans inside)
  have short := refuses front demand inside isSame past
  obtain ⟨order, timelyFront⟩ := timely_of_prefix timely inside
  have outspent := mt (le_balanceAt_run_iff full timelyFront order demand.amount).mpr
    (not_le.mpr short)
  rw [isSame] at outspent
  by_cases alone : bucket.capacity < demand.amount
  · exact Or.inl alone
  · right
    by_contra none
    push Not at none
    exact outspent ⟨not_lt.mp alone, none⟩

end Account

end TokenBucket

end Mosschat.Library
