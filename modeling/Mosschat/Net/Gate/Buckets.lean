import Mathlib.Data.Rat.Floor
import Mosschat.Library.TokenBucket
import Mosschat.Net.Gate

/-!
Owns what the rate limiters of the gate let through, their floats taken for the exact
rationals they stand for: a limiter is a token bucket, and a window of time takes from
it at most what a full bucket holds and what it gains meanwhile.

Does not own the limits the gate builds its limiters with.
-/

namespace Mosschat.Net.Gate

open Mosschat.Library Mosschat.Library.Machine

/-- Floats as the exact rationals they stand for. -/
instance exactRationals : F64 ℚ where
  ofNat count := count
  asSecs duration := duration / 1000000000
  add left right := left + right
  sub left right := left - right
  mul left right := left * right
  div left right := left / right
  min left right := Min.min left right
  ge left right := decide (right ≤ left)
  floor number := ⌊number⌋.toNat

/-- An instant in seconds. -/
def secs (instant : Nat) : ℚ := F64.asSecs instant

theorem secs_eq (instant : Nat) : secs instant = instant / 1000000000 := rfl

theorem secs_le_secs {first second : Nat} : secs first ≤ secs second ↔ first ≤ second := by
  rw [secs_eq, secs_eq, div_le_div_iff_of_pos_right (by norm_num)]
  exact Nat.cast_le

theorem secs_add (first second : Nat) : secs (first + second) = secs first + secs second := by
  rw [secs_eq, secs_eq, secs_eq, Nat.cast_add, add_div]

/-- `Instant::duration_since` saturates. -/
theorem secs_sub (later earlier : Nat) :
    secs (later - earlier) = max 0 (secs later - secs earlier) := by
  rcases Nat.le_total earlier later with order | order
  · have parts := secs_add (later - earlier) earlier
    rw [Nat.sub_add_cancel order] at parts
    rw [max_eq_right (sub_nonneg.mpr (secs_le_secs.mpr order)), parts]
    ring
  · rw [Nat.sub_eq_zero_of_le order, max_eq_left (sub_nonpos.mpr (secs_le_secs.mpr order)), secs_eq]
    norm_num

/-- A call of `try_take_n`. -/
structure Call where
  amount : ℚ
  now : Nat
  amount_nonneg : 0 ≤ amount

namespace RateLimiter

/-! ## Calls to a limiter -/

/-- A limiter as one of its constructors makes it. -/
inductive Made : RateLimiter ℚ → Prop where
  | perMinute (burst rate now : Nat) : Made (perMinute burst rate now)
  | perHour (burst rate now : Nat) : Made (perHour burst rate now)
  | perSecond (burst rate now : Nat) : Made (perSecond burst rate now)
  | capacityPerHour (capacity : ℚ) (now : Nat) (nonneg : 0 ≤ capacity) :
      Made (capacityPerHour capacity now)

/-- The limiter after a call. -/
def call (limiter : RateLimiter ℚ) (call : Call) : RateLimiter ℚ :=
  (limiter.tryTakeN call.amount call.now).1

/-- The call, where it was let through. -/
def lets (limiter : RateLimiter ℚ) (call : Call) : List Call :=
  if (limiter.tryTakeN call.amount call.now).2 then [call] else []

/-- The limiter after the calls. -/
def after (limiter : RateLimiter ℚ) (calls : List Call) : RateLimiter ℚ :=
  run RateLimiter.call limiter calls

/-- The calls that were let through, in order. -/
def taken (limiter : RateLimiter ℚ) (calls : List Call) : List Call :=
  outputs RateLimiter.call lets limiter calls

/-- What the limiter holds at an instant, the refill since its last call included. -/
def refilled (limiter : RateLimiter ℚ) (now : Nat) : ℚ :=
  Min.min (limiter.tokens + secs (now - limiter.last) * limiter.refillPerS) limiter.capacity

/-- What was taken in all by calls from one instant to another, both included. -/
def takenWithin (limiter : RateLimiter ℚ) (calls : List Call) (start finish : Nat) : ℚ :=
  (((limiter.taken calls).filter fun call =>
    decide (start ≤ call.now ∧ call.now ≤ finish)).map Call.amount).sum

/-! ## A limiter is a token bucket -/

/-- The limiter reads as this account of a bucket. -/
structure Reads {bucket : TokenBucket ℚ} (account : bucket.Account) (limiter : RateLimiter ℚ) :
    Prop where
  capacity : limiter.capacity = bucket.capacity
  rate : limiter.refillPerS = bucket.rate
  tokens : limiter.tokens = account.balance
  last : secs limiter.last = account.reckoned

end RateLimiter

/-- The call as a demand on a bucket. -/
def Call.demand (call : Call) : Demand ℚ := ⟨secs call.now, call.amount, call.amount_nonneg⟩

namespace RateLimiter

open TokenBucket

/-- Every constructor makes a limiter that reads as a full account. -/
theorem made_reads {limiter : RateLimiter ℚ} (made : limiter.Made) :
    ∃ bucket : TokenBucket ℚ, ∃ account : bucket.Account, Reads account limiter := by
  have whole : ∀ (capacity rate : ℚ) (now : Nat), 0 ≤ capacity → 0 ≤ rate →
      ∃ bucket : TokenBucket ℚ, ∃ account : bucket.Account,
        Reads account (⟨capacity, capacity, rate, now⟩ : RateLimiter ℚ) := by
    intro capacity rate now capacityNonneg rateNonneg
    exact ⟨⟨capacity, rate, capacityNonneg, rateNonneg⟩,
      ⟨capacity, secs now, capacityNonneg, le_refl _⟩, rfl, rfl, rfl, rfl⟩
  cases made with
  | perMinute burst rate now =>
      apply whole
      · exact Nat.cast_nonneg burst
      · exact div_nonneg (Nat.cast_nonneg rate) (Nat.cast_nonneg 60)
  | perHour burst rate now =>
      apply whole
      · exact Nat.cast_nonneg burst
      · exact div_nonneg (Nat.cast_nonneg rate) (Nat.cast_nonneg 3600)
  | perSecond burst rate now =>
      apply whole
      · exact Nat.cast_nonneg burst
      · exact Nat.cast_nonneg rate
  | capacityPerHour capacity now nonneg =>
      apply whole
      · exact nonneg
      · exact div_nonneg nonneg (Nat.cast_nonneg 3600)

section Reads

variable {bucket : TokenBucket ℚ} {account : bucket.Account} {limiter : RateLimiter ℚ}

theorem Reads.refilled (reads : Reads account limiter) (now : Nat) :
    limiter.refilled now = account.balanceAt (secs now) := by
  unfold RateLimiter.refilled Account.balanceAt
  rw [reads.tokens, reads.rate, reads.capacity, secs_sub, reads.last]

/-- `try_take_n`, where it refuses and where it does not. -/
theorem tryTakeN_eq (limiter : RateLimiter ℚ) (amount : ℚ) (now : Nat) :
    limiter.tryTakeN amount now =
      if amount ≤ limiter.refilled now then
        ({ limiter with last := now, tokens := limiter.refilled now - amount }, true)
      else ({ limiter with last := now, tokens := limiter.refilled now }, false) := by
  show (if decide (amount ≤ limiter.refilled now) = true then _ else _) = _
  simp only [decide_eq_true_iff]
  rfl

/-- A call does to the limiter what its demand does to the account. -/
theorem Reads.call (reads : Reads account limiter) (call : Call) :
    Reads (account.next call.demand) (limiter.call call) := by
  have found := reads.refilled call.now
  unfold RateLimiter.call Account.next
  rw [tryTakeN_eq]
  rcases le_or_gt call.amount (limiter.refilled call.now) with enough | short
  · have alsoEnough : call.demand.amount ≤ account.balanceAt call.demand.time := found ▸ enough
    rw [if_pos enough, Account.serve_of_le alsoEnough]
    exact ⟨reads.capacity, reads.rate, congrArg (· - call.amount) found, rfl⟩
  · have alsoShort : account.balanceAt call.demand.time < call.demand.amount := found ▸ short
    rw [if_neg (not_le.mpr short), Account.serve_of_lt alsoShort]
    exact ⟨reads.capacity, reads.rate, found, rfl⟩

theorem Reads.lets (reads : Reads account limiter) (call : Call) :
    (limiter.lets call).map Call.demand = account.grants call.demand := by
  have found := reads.refilled call.now
  unfold RateLimiter.lets Account.grants
  rw [tryTakeN_eq]
  rcases le_or_gt call.amount (limiter.refilled call.now) with enough | short
  · have alsoEnough : call.demand.amount ≤ account.balanceAt call.demand.time := found ▸ enough
    rw [if_pos enough, if_pos alsoEnough]
    rfl
  · have alsoShort : account.balanceAt call.demand.time < call.demand.amount := found ▸ short
    rw [if_neg (not_le.mpr short), if_neg (not_le.mpr alsoShort)]
    rfl

theorem Reads.after (reads : Reads account limiter) (calls : List Call) :
    Reads (run Account.next account (calls.map Call.demand)) (limiter.after calls) := by
  induction calls generalizing account limiter with
  | nil => exact reads
  | cons call rest ih => exact ih (reads.call call)

theorem Reads.taken (reads : Reads account limiter) (calls : List Call) :
    (limiter.taken calls).map Call.demand = account.granted (calls.map Call.demand) := by
  induction calls generalizing account limiter with
  | nil => rfl
  | cons call rest ih =>
      show (limiter.lets call ++ (limiter.call call).taken rest).map Call.demand = _
      rw [List.map_append, reads.lets, ih (reads.call call)]
      rfl

/-- What is taken in a window is what the bucket pays in it. -/
theorem Reads.takenWithin (reads : Reads account limiter) (calls : List Call)
    (start finish : Nat) :
    limiter.takenWithin calls start finish =
      total (within (secs start) (secs finish) (account.granted (calls.map Call.demand))) := by
  unfold RateLimiter.takenWithin TokenBucket.total TokenBucket.within
  rw [← reads.taken, List.filter_map, List.map_map]
  congr 1
  apply congrArg (List.map Call.amount)
  apply List.filter_congr
  intro call _
  apply decide_eq_decide.mpr
  rw [← secs_le_secs, ← secs_le_secs]
  rfl

theorem Reads.timely (reads : Reads account limiter) {calls : List Call}
    (ordered : (limiter.last :: calls.map Call.now).Pairwise (· ≤ ·)) :
    account.Timely (calls.map Call.demand) := by
  unfold Account.Timely
  have inSeconds : ((limiter.last :: calls.map Call.now).map secs).Pairwise (· ≤ ·) :=
    List.pairwise_map.mpr (ordered.imp fun order => secs_le_secs.mpr order)
  rw [List.map_cons, reads.last, List.map_map] at inSeconds
  rw [List.map_map]
  exact inSeconds

/-- A call after the limiter's last one leaves the balances of all later instants to what
it was refused. -/
theorem Reads.refilled_refused (reads : Reads account limiter) {call : Call}
    (order : limiter.last ≤ call.now)
    (refused : (limiter.tryTakeN call.amount call.now).2 = false) {later : Nat}
    (after : call.now ≤ later) : (limiter.call call).refilled later = limiter.refilled later := by
  have short : ¬ call.amount ≤ limiter.refilled call.now := by
    intro enough
    rw [tryTakeN_eq, if_pos enough] at refused
    exact Bool.noConfusion refused
  have alsoShort : account.balanceAt call.demand.time < call.demand.amount := by
    show account.balanceAt (secs call.now) < call.amount
    rw [← reads.refilled]
    exact not_le.mp short
  have reckoned : account.next call.demand = account.reckon (secs call.now) := by
    unfold Account.next
    rw [Account.serve_of_lt alsoShort]
    rfl
  rw [(reads.call call).refilled, reads.refilled, reckoned]
  apply Account.balanceAt_reckon
  · rw [← reads.last]
    exact secs_le_secs.mpr order
  · exact secs_le_secs.mpr after

end Reads

theorem last_call (limiter : RateLimiter ℚ) (call : Call) : (limiter.call call).last = call.now := by
  unfold RateLimiter.call
  rw [tryTakeN_eq]
  split <;> rfl

/-- The calls that follow come after the last of those before. -/
theorem ordered_after {limiter : RateLimiter ℚ} {front rest : List Call}
    (ordered : (limiter.last :: (front ++ rest).map Call.now).Pairwise (· ≤ ·)) :
    ((limiter.after front).last :: rest.map Call.now).Pairwise (· ≤ ·) := by
  induction front generalizing limiter with
  | nil => exact ordered
  | cons call front ih =>
      have later : ((limiter.call call).last :: (front ++ rest).map Call.now).Pairwise
          (· ≤ ·) := by
        rw [last_call]
        exact (List.pairwise_cons.mp ordered).2
      exact ih later

/-- A window takes at most the capacity and the refill of its length. -/
theorem takenWithin_le {limiter : RateLimiter ℚ} (made : limiter.Made) {calls : List Call}
    (ordered : (limiter.last :: calls.map Call.now).Pairwise (· ≤ ·)) (start span : Nat) :
    limiter.takenWithin calls start (start + span) ≤
      limiter.capacity + limiter.refillPerS * secs span := by
  obtain ⟨bucket, account, reads⟩ := made_reads made
  have bound := Account.total_within_le (reads.timely ordered)
    (secs_le_secs.mpr (Nat.le_add_right start span))
  rw [secs_add, add_sub_cancel_left] at bound
  rw [reads.takenWithin, reads.capacity, reads.rate, secs_add]
  exact bound

theorem made_full {limiter : RateLimiter ℚ} (made : limiter.Made) :
    limiter.tokens = limiter.capacity := by
  cases made <;> rfl

/-- No window of a span that brings the whole capacity takes more than the capacity exactly where
all that a count of every window refuses is out of the limiter's reach. -/
theorem takenWithin_le_capacity_iff {limiter : RateLimiter ℚ} (made : limiter.Made)
    {calls : List Call} (ordered : (limiter.last :: calls.map Call.now).Pairwise (· ≤ ·))
    {span : Nat} (refills : limiter.capacity ≤ limiter.refillPerS * secs span) :
    (∀ start, limiter.takenWithin calls start (start + span) ≤ limiter.capacity) ↔
      Outspent limiter.capacity limiter.refillPerS (secs span) (calls.map Call.demand) := by
  obtain ⟨bucket, account, reads⟩ := made_reads made
  have full : account.balance = bucket.capacity := by
    rw [← reads.tokens, made_full made, reads.capacity]
  have timely := reads.timely ordered
  have nonneg : 0 ≤ secs span := by
    rw [secs_eq]
    exact div_nonneg (Nat.cast_nonneg span) (by norm_num)
  rw [reads.capacity, reads.rate] at refills ⊢
  constructor
  · intro bounded
    apply Account.outspent_of_windows full nonneg refills timely
    rw [List.forall_mem_map]
    intro call _
    have here := bounded call.now
    rw [reads.takenWithin, secs_add] at here
    exact here
  · intro outspent start
    rw [reads.takenWithin, secs_add]
    exact Account.total_within_le_of_outspent full refills timely outspent (secs start)

/-- A limiter of any capacity and rate, called at instants in order: it holds something
between nothing and its capacity, refuses exactly what it does not hold and is none the
poorer for it, and a window of time takes no more than the capacity and the refill of
its length. -/
theorem tryTakeN_bounded {limiter : RateLimiter ℚ} (made : limiter.Made) (calls : List Call)
    (ordered : (limiter.last :: calls.map Call.now).Pairwise (· ≤ ·)) :
    (∀ front, front <+: calls →
      0 ≤ (limiter.after front).tokens ∧ (limiter.after front).tokens ≤ limiter.capacity) ∧
    (∀ front call, front ++ [call] <+: calls →
      (((limiter.after front).tryTakeN call.amount call.now).2 = false ↔
        (limiter.after front).refilled call.now < call.amount) ∧
      (((limiter.after front).tryTakeN call.amount call.now).2 = false → ∀ later, call.now ≤ later →
        (limiter.after (front ++ [call])).refilled later = (limiter.after front).refilled later)) ∧
    ∀ start span, limiter.takenWithin calls start (start + span) ≤
      limiter.capacity + limiter.refillPerS * secs span := by
  obtain ⟨bucket, account, reads⟩ := made_reads made
  refine ⟨?_, ?_, ?_⟩
  · intro front _
    have held := reads.after front
    rw [held.tokens, reads.capacity]
    exact ⟨Account.balance_nonneg _, Account.balance_le _⟩
  · intro front call inside
    have held := reads.after front
    constructor
    · rw [tryTakeN_eq]
      split
      · next enough => exact iff_of_false Bool.noConfusion (not_lt.mpr enough)
      · next short => exact iff_of_true rfl (not_le.mp short)
    · intro refused later after
      have order : (limiter.after front).last ≤ call.now := by
        obtain ⟨rest, rfl⟩ := inside
        rw [List.append_assoc] at ordered
        exact (List.pairwise_cons.mp (ordered_after ordered)).1 _ List.mem_cons_self
      have same := held.refilled_refused order refused after
      unfold RateLimiter.after at same ⊢
      rw [run_concat]
      exact same
  · exact takenWithin_le made ordered

/-- Six `Introduce`s at once and a seventh a second later, in the first minute. -/
theorem tryTakeN_bounded_perMinute :
    (perMinute 6 6 0 : RateLimiter ℚ).takenWithin
      [⟨6, 0, by decide⟩, ⟨1, fromSecs 1, by decide⟩] 0 (0 + fromSecs 60) ≤ 12 := by
  have bound := (tryTakeN_bounded (.perMinute 6 6 0)
    [⟨6, 0, by decide⟩, ⟨1, fromSecs 1, by decide⟩] (by decide)).2.2 0 (fromSecs 60)
  have twelve : (perMinute 6 6 0 : RateLimiter ℚ).capacity +
      (perMinute 6 6 0 : RateLimiter ℚ).refillPerS * secs (fromSecs 60) = 12 := by
    show ((6 : Nat) : ℚ) + ((6 : Nat) : ℚ) / ((60 : Nat) : ℚ) * secs (fromSecs 60) = 12
    rw [secs_eq, fromSecs]
    norm_num
  rw [twelve] at bound
  exact bound

end RateLimiter

end Mosschat.Net.Gate
