import Mosschat.Net.Gate.Buckets
import Mosschat.Net.Path.Shaper

/-!
Owns the rate of a relay shaper, its floats taken for the exact rationals they stand for: how
much leaves it at most in a window of time, and at least while its queue is never empty.

Does not own what a batch is sent on.
-/

namespace Mosschat.Net

open Mosschat.Library Mosschat.Library.Cbor Mosschat.Library.Machine Mosschat.Net.Gate TokenBucket

/-- The two shapers there are. -/
inductive ShaperKind where
  | house
  | gate

/-- `RelayShaper::house` and `RelayShaper::gate`. -/
def ShaperKind.make : ShaperKind → Nat → RelayShaper ℚ
  | .house, now => .house now
  | .gate, now => .gate now

/-- When a call is made. A close has no use for the clock. -/
def ShaperCall.time : ShaperCall → List Nat
  | .tryEnqueueAll _ now | .enqueueOrDrop _ now | .drain now => [now]
  | .close => []

namespace RelayShaper

/-- The datagrams a call hands out, each with the instant it leaves at. -/
def leaves (shaper : RelayShaper ℚ) (call : ShaperCall) : List (Nat × Bytes) :=
  call.time.flatMap fun now => (shaper.hands call).map fun payload => (now, payload)

/-- How many datagrams leave from one instant to another, both included. -/
def drainedWithin (shaper : RelayShaper ℚ) (calls : List ShaperCall) (start finish : Nat) : Nat :=
  ((outputs step leaves shaper calls).filter fun left =>
    decide (start ≤ left.1 ∧ left.1 ≤ finish)).length

/-- The tokens that `refill` leaves at an instant. -/
def available (shaper : RelayShaper ℚ) (now : Nat) : ℚ :=
  min (shaper.tokens + secs (now - shaper.lastRefill) * shaper.perSecond) shaper.tokenCap

/-! ## One pass -/

/-- The numbers of a shaper, as far as its rate rests on them. -/
structure Paced (shaper : RelayShaper ℚ) : Prop where
  burst : 1 ≤ shaper.burst
  rate : 0 < shaper.perSecond
  /-- A token takes longer than a nanosecond. -/
  slow : shaper.perSecond < 1000000000
  roomy : 2 ≤ shaper.tokenCap
  nonneg : 0 ≤ shaper.tokens
  capped : shaper.tokens ≤ shaper.tokenCap

/-- What a pass of `drain` comes to. -/
inductive Pass (shaper : RelayShaper ℚ) (now : Nat) : RelayShaper ℚ × Next → Prop where
  | closed (isClosed : shaper.closed = true) : Pass shaper now (shaper, .closed)
  | idle (isOpen : shaper.closed = false) (empty : shaper.items = []) :
      Pass shaper now (shaper.refill now, .idle)
  | sleep (isOpen : shaper.closed = false) (short : shaper.available now < 1) :
      Pass shaper now (shaper.refill now, .sleep)
  | ready (isOpen : shaper.closed = false) (take : Nat) (some : 1 ≤ take)
      (within : take ≤ shaper.burst) (queued : take ≤ shaper.items.length)
      (paid : (take : ℚ) ≤ shaper.available now) :
      Pass shaper now
        ({ shaper.refill now with
            tokens := shaper.available now - take, items := shaper.items.drop take },
          .ready ((shaper.items.take take).map Prod.snd))

theorem pass_drain {shaper : RelayShaper ℚ} (burst : 1 ≤ shaper.burst) (now : Nat) :
    Pass shaper now (shaper.drainPass now) := by
  unfold drainPass
  cases isClosed : shaper.closed with
  | true =>
      rw [if_pos rfl]
      exact .closed isClosed
  | false =>
      rw [if_neg Bool.false_ne_true]
      by_cases empty : shaper.items = []
      · have none : (shaper.refill now).items.isEmpty = true := List.isEmpty_iff.mpr empty
        simp only [if_pos none]
        exact .idle isClosed empty
      · have some : ¬(shaper.refill now).items.isEmpty = true := fun isEmpty =>
          empty (List.isEmpty_iff.mp isEmpty)
        have queued : 1 ≤ shaper.items.length := List.length_pos_iff.mpr empty
        simp only [if_neg some]
        by_cases enough : 1 ≤ shaper.available now
        · have ready : F64.ge (shaper.refill now).tokens (F64.ofNat 1 : ℚ) = true :=
            decide_eq_true (by exact_mod_cast enough)
          simp only [if_pos ready]
          have whole : 1 ≤ ⌊shaper.available now⌋.toNat := by
            have floored : (1 : ℤ) ≤ ⌊shaper.available now⌋ :=
              Int.le_floor.mpr (by exact_mod_cast enough)
            omega
          have floor : ((⌊shaper.available now⌋.toNat : Nat) : ℚ) ≤ shaper.available now := by
            have nonneg : 0 ≤ ⌊shaper.available now⌋ := by omega
            have cast : ((⌊shaper.available now⌋.toNat : Nat) : ℚ) =
                (⌊shaper.available now⌋ : ℚ) := by
              exact_mod_cast congrArg (Int.cast : ℤ → ℚ) (Int.toNat_of_nonneg nonneg)
            rw [cast]
            exact Int.floor_le _
          refine .ready isClosed
            (max (min (min ⌊shaper.available now⌋.toNat shaper.items.length) shaper.burst) 1)
            (by omega) (by omega) (by omega) ?_
          refine le_trans ?_ floor
          exact_mod_cast (show max (min (min ⌊shaper.available now⌋.toNat shaper.items.length)
            shaper.burst) 1 ≤ ⌊shaper.available now⌋.toNat by omega)
        · have notReady : ¬F64.ge (shaper.refill now).tokens (F64.ofNat 1 : ℚ) = true := by
            intro ready
            exact enough (by exact_mod_cast of_decide_eq_true ready)
          simp only [if_neg notReady]
          exact .sleep isClosed (lt_of_not_ge enough)

theorem available_nonneg {shaper : RelayShaper ℚ} (paced : shaper.Paced) (now : Nat) :
    0 ≤ shaper.available now := by
  have gained : 0 ≤ secs (now - shaper.lastRefill) * shaper.perSecond := by
    apply mul_nonneg _ paced.rate.le
    rw [secs_sub]
    exact le_max_left _ _
  have tokens := paced.nonneg
  have roomy := paced.roomy
  exact le_min (by linarith) (by linarith)

/-- The numbers the rate rests on are the same. -/
structure SameRate (before after : RelayShaper ℚ) : Prop where
  tokens : after.tokens = before.tokens
  lastRefill : after.lastRefill = before.lastRefill
  tokenCap : after.tokenCap = before.tokenCap
  perSecond : after.perSecond = before.perSecond
  burst : after.burst = before.burst

/-- A call but a pass leaves the tokens. -/
theorem sameRate_step (shaper : RelayShaper ℚ) {call : ShaperCall}
    (other : ∀ now, call ≠ .drain now) : SameRate shaper (shaper.step call) := by
  cases call with
  | drain now => exact absurd rfl (other now)
  | close => exact ⟨rfl, rfl, rfl, rfl, rfl⟩
  | tryEnqueueAll transmit now =>
      show SameRate shaper (shaper.tryEnqueueAll transmit.segments now).1
      unfold tryEnqueueAll
      split
      · exact ⟨rfl, rfl, rfl, rfl, rfl⟩
      · split
        · exact ⟨rfl, rfl, rfl, rfl, rfl⟩
        · split <;> exact ⟨rfl, rfl, rfl, rfl, rfl⟩
  | enqueueOrDrop payload now =>
      show SameRate shaper (shaper.enqueueOrDrop payload now).1
      unfold enqueueOrDrop
      split
      · exact ⟨rfl, rfl, rfl, rfl, rfl⟩
      · split <;> exact ⟨rfl, rfl, rfl, rfl, rfl⟩

theorem Paced.step {shaper : RelayShaper ℚ} (paced : shaper.Paced) (call : ShaperCall) :
    (shaper.step call).Paced := by
  have nonneg := available_nonneg paced
  by_cases isDrain : ∃ now, call = .drain now
  · obtain ⟨now, rfl⟩ := isDrain
    have pass := pass_drain paced.burst now
    show (shaper.drainPass now).1.Paced
    generalize shaper.drainPass now = result at pass
    cases pass with
    | closed isClosed => exact paced
    | idle isOpen empty =>
        exact ⟨paced.burst, paced.rate, paced.slow, paced.roomy, nonneg now, min_le_right _ _⟩
    | sleep isOpen short =>
        exact ⟨paced.burst, paced.rate, paced.slow, paced.roomy, nonneg now, min_le_right _ _⟩
    | ready isOpen take some within queued paid =>
        have full : shaper.available now ≤ shaper.tokenCap := min_le_right _ _
        have taken : (0 : ℚ) ≤ take := Nat.cast_nonneg take
        refine ⟨paced.burst, paced.rate, paced.slow, paced.roomy, sub_nonneg.mpr paid, ?_⟩
        show shaper.available now - take ≤ shaper.tokenCap
        linarith
  · have other : ∀ now, call ≠ .drain now := fun now same => isDrain ⟨now, same⟩
    have same := shaper.sameRate_step other
    constructor
    · rw [same.burst]
      exact paced.burst
    · rw [same.perSecond]
      exact paced.rate
    · rw [same.perSecond]
      exact paced.slow
    · rw [same.tokenCap]
      exact paced.roomy
    · rw [same.tokens]
      exact paced.nonneg
    · rw [same.tokens, same.tokenCap]
      exact paced.capped

theorem paced_make (kind : ShaperKind) (now : Nat) : (kind.make now).Paced := by
  cases kind with
  | house =>
      refine ⟨show 1 ≤ houseDrainBurst by decide, ?_, ?_, ?_, le_refl _, ?_⟩
      · show (0 : ℚ) < ((2000 : Nat) : ℚ)
        norm_num
      · show ((2000 : Nat) : ℚ) < 1000000000
        norm_num
      · show (2 : ℚ) ≤ ((16 : Nat) : ℚ)
        norm_num
      · show ((0 : Nat) : ℚ) ≤ ((16 : Nat) : ℚ)
        norm_num
  | gate =>
      refine ⟨show 1 ≤ gateRelayQueueDepth by decide, ?_, ?_, ?_, le_refl _, ?_⟩
      · show (0 : ℚ) < ((2000 : Nat) : ℚ) * (((11 : Nat) : ℚ) / ((10 : Nat) : ℚ))
        norm_num
      · show ((2000 : Nat) : ℚ) * (((11 : Nat) : ℚ) / ((10 : Nat) : ℚ)) < 1000000000
        norm_num
      · show (2 : ℚ) ≤ ((24 : Nat) : ℚ)
        norm_num
      · show ((0 : Nat) : ℚ) ≤ ((24 : Nat) : ℚ)
        norm_num

/-- The shaper after it has paid for so many datagrams at an instant. -/
structure Pays (shaper : RelayShaper ℚ) (now count : Nat) (after : RelayShaper ℚ) : Prop where
  enough : (count : ℚ) ≤ shaper.available now
  tokens : after.tokens = shaper.available now - count
  lastRefill : after.lastRefill = now
  tokenCap : after.tokenCap = shaper.tokenCap
  perSecond : after.perSecond = shaper.perSecond

/-- What a pass finds ready. -/
def Next.payloads : Next → List Bytes
  | .ready payloads => payloads
  | _ => []

theorem hands_drain (shaper : RelayShaper ℚ) (now : Nat) :
    shaper.hands (.drain now) = (shaper.drainPass now).2.payloads := rfl

/-- A pass of an open queue pays for what it hands out. -/
theorem pays_drain {shaper : RelayShaper ℚ} (paced : shaper.Paced)
    (isOpen : shaper.closed = false) (now : Nat) :
    Pays shaper now (shaper.hands (.drain now)).length (shaper.step (.drain now)) := by
  have nonneg := available_nonneg paced now
  have pass := pass_drain paced.burst now
  have nothing : ((0 : Nat) : ℚ) ≤ shaper.available now := by
    rw [Nat.cast_zero]
    exact nonneg
  have unpaid : shaper.available now = shaper.available now - ((0 : Nat) : ℚ) := by
    rw [Nat.cast_zero, sub_zero]
  unfold hands step
  dsimp only
  generalize shaper.drainPass now = result at pass ⊢
  cases pass with
  | closed isClosed =>
      rw [isOpen] at isClosed
      cases isClosed
  | idle _ empty => exact ⟨nothing, unpaid, rfl, rfl, rfl⟩
  | sleep _ short => exact ⟨nothing, unpaid, rfl, rfl, rfl⟩
  | ready _ take some within queued paid =>
      have count : ((shaper.items.take take).map Prod.snd).length = take := by
        rw [List.length_map, List.length_take, Nat.min_eq_left queued]
      show Pays shaper now ((shaper.items.take take).map Prod.snd).length _
      rw [count]
      exact ⟨paid, rfl, rfl, rfl, rfl⟩

/-- A closed queue hands out nothing. -/
theorem step_closed {shaper : RelayShaper ℚ} (isClosed : shaper.closed = true) (now : Nat) :
    shaper.hands (.drain now) = [] ∧ shaper.step (.drain now) = shaper := by
  have pass : shaper.drainPass now = (shaper, .closed) := if_pos isClosed
  unfold hands step
  dsimp only
  rw [pass]
  exact ⟨rfl, rfl⟩

/-! ## A shaper is a token bucket -/

/-- The shaper reads as this account of a bucket. -/
structure ReadsAs {bucket : TokenBucket ℚ} (account : bucket.Account) (shaper : RelayShaper ℚ) :
    Prop where
  capacity : shaper.tokenCap = bucket.capacity
  rate : shaper.perSecond = bucket.rate
  tokens : shaper.tokens = account.balance
  lastRefill : secs shaper.lastRefill = account.reckoned

theorem Paced.readsAs {shaper : RelayShaper ℚ} (paced : shaper.Paced) :
    ∃ bucket : TokenBucket ℚ, ∃ account : bucket.Account, ReadsAs account shaper := by
  have capacity : 0 ≤ shaper.tokenCap := le_trans (by norm_num) paced.roomy
  exact ⟨⟨shaper.tokenCap, shaper.perSecond, capacity, paced.rate.le⟩,
    ⟨shaper.tokens, secs shaper.lastRefill, paced.nonneg, paced.capped⟩, rfl, rfl, rfl, rfl⟩

theorem count_nonneg (count : Nat) : 0 ≤ (count : ℚ) := Nat.cast_nonneg count

/-- What a call demands: a pass of an open queue pays for what it hands out. -/
def demands (shaper : RelayShaper ℚ) : ShaperCall → List (Demand ℚ)
  | .drain now =>
    if shaper.closed then []
    else [⟨secs now, ((shaper.hands (.drain now)).length : ℚ), Nat.cast_nonneg _⟩]
  | _ => []

theorem demands_closed {shaper : RelayShaper ℚ} (isClosed : shaper.closed = true) (now : Nat) :
    shaper.demands (.drain now) = [] := if_pos isClosed

theorem demands_open {shaper : RelayShaper ℚ} (isOpen : shaper.closed = false) (now : Nat) :
    shaper.demands (.drain now) =
      [⟨secs now, ((shaper.hands (.drain now)).length : ℚ), count_nonneg _⟩] :=
  if_neg (by rw [isOpen]; exact Bool.false_ne_true)

theorem demands_of_not_drain (shaper : RelayShaper ℚ) {call : ShaperCall}
    (other : ∀ now, call ≠ .drain now) : shaper.demands call = [] := by
  cases call with
  | drain now => exact absurd rfl (other now)
  | close | tryEnqueueAll | enqueueOrDrop => rfl

section ReadsAs

variable {bucket : TokenBucket ℚ} {account : bucket.Account} {shaper : RelayShaper ℚ}

theorem ReadsAs.available (reads : ReadsAs account shaper) (now : Nat) :
    shaper.available now = account.balanceAt (secs now) := by
  unfold RelayShaper.available Account.balanceAt
  rw [reads.tokens, reads.rate, reads.capacity, secs_sub, reads.lastRefill]

/-- A call's demands are all met. -/
theorem ReadsAs.granted (reads : ReadsAs account shaper) (paced : shaper.Paced)
    (call : ShaperCall) :
    account.granted (shaper.demands call) = shaper.demands call ∧
      ReadsAs (run Account.next account (shaper.demands call)) (shaper.step call) := by
  by_cases isDrain : ∃ now, call = .drain now
  · obtain ⟨now, rfl⟩ := isDrain
    cases isClosed : shaper.closed with
    | true =>
        rw [demands_closed isClosed, (step_closed isClosed now).2]
        exact ⟨rfl, reads⟩
    | false =>
        have pays := pays_drain paced isClosed now
        have enough : ((shaper.hands (.drain now)).length : ℚ) ≤ account.balanceAt (secs now) := by
          rw [← reads.available]
          exact pays.enough
        rw [demands_open isClosed]
        constructor
        · rw [Account.granted_cons, Account.grants, if_pos enough]
          rfl
        · show ReadsAs (account.serve _).1 _
          rw [Account.serve_of_le enough]
          refine ⟨pays.tokenCap.trans reads.capacity, pays.perSecond.trans reads.rate, ?_, ?_⟩
          · rw [pays.tokens, reads.available]
            rfl
          · rw [pays.lastRefill]
            rfl
  · have other : ∀ now, call ≠ .drain now := fun now same => isDrain ⟨now, same⟩
    have same := shaper.sameRate_step other
    rw [shaper.demands_of_not_drain other]
    refine ⟨rfl, same.tokenCap.trans reads.capacity, same.perSecond.trans reads.rate,
      same.tokens.trans reads.tokens, ?_⟩
    rw [same.lastRefill]
    exact reads.lastRefill

/-- So are those of a run. -/
theorem ReadsAs.granted_run (reads : ReadsAs account shaper) (paced : shaper.Paced)
    (calls : List ShaperCall) :
    account.granted (outputs step demands shaper calls) = outputs step demands shaper calls := by
  induction calls generalizing account shaper with
  | nil => rfl
  | cons call rest ih =>
      obtain ⟨now, later⟩ := reads.granted paced call
      rw [outputs, Account.granted_append, now, ih later (paced.step call)]

end ReadsAs

/-- What a call demands within a window is what leaves in it. -/
theorem total_demands (shaper : RelayShaper ℚ) (call : ShaperCall) (start finish : Nat) :
    total (within (secs start) (secs finish) (shaper.demands call)) =
      (((shaper.leaves call).filter fun left =>
        decide (start ≤ left.1 ∧ left.1 ≤ finish)).length : ℚ) := by
  cases call with
  | close | tryEnqueueAll | enqueueOrDrop => rfl
  | drain now =>
      have leaves : shaper.leaves (.drain now) =
          (shaper.hands (.drain now)).map fun payload => (now, payload) :=
        List.append_nil _
      rw [leaves]
      cases isClosed : shaper.closed with
      | true =>
          rw [demands_closed isClosed, (step_closed isClosed now).1]
          exact Nat.cast_zero.symm
      | false =>
          rw [demands_open isClosed]
          by_cases inside : start ≤ now ∧ now ≤ finish
          · rw [within_eq_self, List.filter_eq_self.mpr, List.length_map]
            · exact List.sum_singleton
            · intro left member
              obtain ⟨payload, _, rfl⟩ := List.mem_map.mp member
              exact decide_eq_true inside
            · intro demand member
              rw [List.mem_singleton.mp member]
              exact ⟨secs_le_secs.mpr inside.1, secs_le_secs.mpr inside.2⟩
          · rw [within_eq_nil, List.filter_eq_nil_iff.mpr]
            · exact Nat.cast_zero.symm
            · intro left member
              obtain ⟨payload, _, rfl⟩ := List.mem_map.mp member
              simpa using inside
            · intro demand member
              rw [List.mem_singleton.mp member]
              by_cases early : now < start
              · exact Or.inl (lt_of_not_ge fun order => absurd (secs_le_secs.mp order) (by omega))
              · exact Or.inr (lt_of_not_ge fun order => absurd (secs_le_secs.mp order) (by omega))

theorem total_demands_run (shaper : RelayShaper ℚ) (calls : List ShaperCall)
    (start finish : Nat) :
    total (within (secs start) (secs finish) (outputs step demands shaper calls)) =
      (shaper.drainedWithin calls start finish : ℚ) := by
  unfold drainedWithin
  induction calls generalizing shaper with
  | nil => rfl
  | cons call rest ih =>
      rw [outputs, outputs, within_append, total_append, List.filter_append, List.length_append,
        Nat.cast_add, total_demands, ih]

/-- The demands of calls in order are in order. -/
theorem timely_demands {bucket : TokenBucket ℚ} {account : bucket.Account}
    {shaper : RelayShaper ℚ} (reads : ReadsAs account shaper) (paced : shaper.Paced)
    {calls : List ShaperCall}
    (ordered : (shaper.lastRefill :: calls.flatMap ShaperCall.time).Pairwise (· ≤ ·)) :
    account.Timely (outputs step demands shaper calls) := by
  induction calls generalizing account shaper with
  | nil => exact List.pairwise_singleton _ _
  | cons call rest ih =>
      have later := (reads.granted paced call).2
      rw [List.flatMap_cons] at ordered
      have skipped : (shaper.lastRefill :: rest.flatMap ShaperCall.time).Pairwise (· ≤ ·) :=
        ordered.sublist ((List.sublist_append_right _ _).cons_cons _)
      by_cases isDrain : ∃ now, call = .drain now
      · obtain ⟨now, rfl⟩ := isDrain
        cases isClosed : shaper.closed with
        | true =>
            rw [(step_closed isClosed now).2, demands_closed isClosed] at later
            rw [outputs, demands_closed isClosed, (step_closed isClosed now).2]
            exact ih later paced skipped
        | false =>
            have pays := pays_drain paced isClosed now
            rw [demands_open isClosed] at later
            rw [outputs, demands_open isClosed]
            refine Account.timely_cons.mpr ⟨?_, ih later (paced.step _) ?_⟩
            · rw [← reads.lastRefill]
              exact secs_le_secs.mpr ((List.pairwise_cons.mp ordered).1 now (List.mem_cons_self))
            · rw [pays.lastRefill]
              exact (List.pairwise_cons.mp ordered).2
      · have other : ∀ now, call ≠ .drain now := fun now same => isDrain ⟨now, same⟩
        rw [shaper.demands_of_not_drain other] at later
        rw [outputs, shaper.demands_of_not_drain other]
        refine ih later (paced.step call) ?_
        rw [(shaper.sameRate_step other).lastRefill]
        exact skipped

/-- No window sees more than a full bucket and what it gains meanwhile. -/
theorem drainedWithin_le {shaper : RelayShaper ℚ} (paced : shaper.Paced)
    {calls : List ShaperCall}
    (ordered : (shaper.lastRefill :: calls.flatMap ShaperCall.time).Pairwise (· ≤ ·))
    {start finish : Nat} (order : start ≤ finish) :
    (shaper.drainedWithin calls start finish : ℚ) ≤
      shaper.tokenCap + shaper.perSecond * (secs finish - secs start) := by
  obtain ⟨bucket, account, reads⟩ := paced.readsAs
  have bound := Account.total_within_le (timely_demands reads paced ordered)
    (secs_le_secs.mpr order)
  rw [reads.granted_run paced, total_demands_run] at bound
  rw [reads.capacity, reads.rate]
  exact bound

/-- A batch is not empty and no longer than the burst. -/
theorem batch_le_burst {shaper : RelayShaper ℚ} (burst : 1 ≤ shaper.burst) {now : Nat}
    {payloads : List Bytes} (ready : (shaper.drainPass now).2 = .ready payloads) :
    payloads ≠ [] ∧ payloads.length ≤ shaper.burst := by
  have pass := pass_drain burst now
  generalize shaper.drainPass now = result at pass ready
  cases pass with
  | closed isClosed => cases ready
  | idle isOpen empty => cases ready
  | sleep isOpen short => cases ready
  | ready isOpen take some within queued paid =>
      cases ready
      have count : ((shaper.items.take take).map Prod.snd).length = take := by
        rw [List.length_map, List.length_take, Nat.min_eq_left queued]
      rw [← List.length_pos_iff, count]
      exact ⟨some, within⟩

theorem burst_step (shaper : RelayShaper ℚ) (call : ShaperCall) :
    (shaper.step call).burst = shaper.burst := by
  by_cases isDrain : ∃ now, call = .drain now
  · obtain ⟨now, rfl⟩ := isDrain
    show (shaper.drainPass now).1.burst = shaper.burst
    rcases shaper.drainPass_cases now with ⟨_, is⟩ | ⟨_, is | is | ⟨take, tokens, is⟩⟩
    all_goals exact congrArg (fun result => result.1.burst) is
  · exact (shaper.sameRate_step fun now same => isDrain ⟨now, same⟩).burst

end RelayShaper

/-! ## The task that drains -/

/-- A shaper with the one task that calls `drain` on it, again at once after each batch. -/
structure ShaperTask where
  shaper : RelayShaper ℚ
  clock : Nat
  /-- When the next pass is, unless the task waits for an arrival. -/
  due : Option Nat

/-- What happens to the shaper: someone queues or closes it, or the task makes the pass that is
due. -/
inductive ShaperEvent where
  | tryEnqueueAll (transmit : Transmit) (now : Nat)
  | enqueueOrDrop (payload : Bytes) (now : Nat)
  | close (now : Nat)
  | passes

namespace ShaperTask

/-- The task makes its first pass as soon as it is spawned. -/
def new (kind : ShaperKind) (born : Nat) : ShaperTask := ⟨kind.make born, born, some born⟩

/-- The `deficit` of a pass, over the rate: what `drain` sleeps for, in seconds. -/
def sleepSecs (shaper : RelayShaper ℚ) (now : Nat) : ℚ :=
  F64.div (F64.sub (F64.ofNat 1) (shaper.refill now).tokens) shaper.perSecond

/-- The first instant that is not before the end of the sleep. -/
def wakesAt (shaper : RelayShaper ℚ) (now : Nat) : Nat :=
  now + ⌈sleepSecs shaper now * 1000000000⌉₊

/-- The shaper after a call that queues. An arrival ends the wait for one. -/
def arrives (task : ShaperTask) (call : ShaperCall) (now : Nat) : ShaperTask where
  shaper := task.shaper.step call
  clock := now
  due := if task.due = none ∧ task.shaper.accepts call ≠ [] then some now else task.due

/-- The shaper after a close, which ends the wait for an arrival too. -/
def closes (task : ShaperTask) (now : Nat) : ShaperTask where
  shaper := task.shaper.step .close
  clock := now
  due := some (task.due.getD now)

/-- The pass that is due. -/
def pass (task : ShaperTask) : ShaperTask :=
  match task.due with
  | none => task
  | some now =>
    { shaper := task.shaper.step (.drain now)
      clock := now
      due := match (task.shaper.drainPass now).2 with
        | .ready _ => some now
        | .sleep => some (wakesAt task.shaper now)
        | .idle | .closed => none }

def step (task : ShaperTask) : ShaperEvent → ShaperTask
  | .tryEnqueueAll transmit now => task.arrives (.tryEnqueueAll transmit now) now
  | .enqueueOrDrop payload now => task.arrives (.enqueueOrDrop payload now) now
  | .close now => task.closes now
  | .passes => task.pass

/-- The datagrams that leave at an event. -/
def leaves (task : ShaperTask) : ShaperEvent → List Bytes
  | .passes => task.due.toList.flatMap fun now => task.shaper.hands (.drain now)
  | _ => []

/-- The instant is one at which the task stands as it does: nothing has happened after it, and
no pass was due before it. -/
def At (task : ShaperTask) (now : Nat) : Prop :=
  task.clock ≤ now ∧ ∀ due, task.due = some due → now ≤ due

/-- The event comes in its time: the task is woken exactly when it asked to be. -/
def Timely (task : ShaperTask) : ShaperEvent → Prop
  | .tryEnqueueAll _ now | .enqueueOrDrop _ now | .close now => task.At now
  | .passes => task.due ≠ none

instance (task : ShaperTask) (now : Nat) : Decidable (task.At now) :=
  inferInstanceAs (Decidable (task.clock ≤ now ∧ ∀ due ∈ task.due, now ≤ due))

instance (task : ShaperTask) : (event : ShaperEvent) → Decidable (task.Timely event)
  | .tryEnqueueAll _ now | .enqueueOrDrop _ now | .close now =>
    inferInstanceAs (Decidable (task.At now))
  | .passes => inferInstanceAs (Decidable (task.due ≠ none))

/-- The queue is never empty from the task's state on. -/
def Busy (task : ShaperTask) (events : List ShaperEvent) : Prop :=
  Throughout step (fun task => task.shaper.items ≠ []) task events

/-! ## What a run of the task keeps -/

/-- A sleeping task is woken with at least one token, and fewer than two. -/
def Asleep (shaper : RelayShaper ℚ) (due : Nat) : Prop :=
  shaper.tokens + secs (due - shaper.lastRefill) * shaper.perSecond < 2

/-- A task whose shaper has this rate, with the next pass due now or after a sleep, unless
there is nothing to drain. -/
structure Steady (rate : ℚ) (task : ShaperTask) : Prop where
  paced : task.shaper.Paced
  perSecond : task.shaper.perSecond = rate
  discarded : task.shaper.closed = true → task.shaper.items = []
  refilled : task.shaper.lastRefill ≤ task.clock
  reached : ∀ due, task.due = some due → task.clock ≤ due
  asleep : ∀ due, task.due = some due → due = task.clock ∨ Asleep task.shaper due
  waits : task.due = none → task.shaper.items = []

theorem steady_new (kind : ShaperKind) (born : Nat) :
    Steady (kind.make born).perSecond (new kind born) where
  paced := RelayShaper.paced_make kind born
  perSecond := rfl
  discarded _ := by cases kind <;> rfl
  refilled := by cases kind <;> exact Nat.le_refl born
  reached due isDue := Nat.le_of_eq (Option.some.inj isDue)
  asleep due isDue := Or.inl (Option.some.inj isDue).symm
  waits := by
    intro isDue
    cases isDue

/-- What the sleep brings: one token is there at its end, and no second one. -/
theorem asleep_wakesAt {shaper : RelayShaper ℚ} (paced : shaper.Paced) {now : Nat}
    (short : shaper.available now < 1) : Asleep (shaper.refill now) (wakesAt shaper now) := by
  have slept : secs (wakesAt shaper now - now) = (⌈sleepSecs shaper now * 1000000000⌉₊ : ℚ) /
      1000000000 := by
    rw [wakesAt, Nat.add_sub_cancel_left, secs_eq]
  have deficit : sleepSecs shaper now = (1 - shaper.available now) / shaper.perSecond := by
    show (((1 : Nat) : ℚ) - shaper.available now) / shaper.perSecond = _
    rw [Nat.cast_one]
  have rate := paced.rate
  have slow := paced.slow
  have nonneg : 0 ≤ sleepSecs shaper now * 1000000000 := by
    rw [deficit]
    apply mul_nonneg (div_nonneg _ rate.le) (by norm_num)
    linarith
  have ceiled := Nat.ceil_lt_add_one nonneg
  have brought : secs (wakesAt shaper now - now) * shaper.perSecond <
      (sleepSecs shaper now * 1000000000 + 1) / 1000000000 * shaper.perSecond := by
    rw [slept]
    apply mul_lt_mul_of_pos_right _ rate
    exact div_lt_div_of_pos_right ceiled (by norm_num)
  have total : (sleepSecs shaper now * 1000000000 + 1) / 1000000000 * shaper.perSecond =
      1 - shaper.available now + shaper.perSecond / 1000000000 := by
    rw [deficit]
    field_simp
  have small : shaper.perSecond / 1000000000 < 1 := by
    rw [div_lt_one (by norm_num)]
    exact slow
  show shaper.available now + secs (wakesAt shaper now - now) * shaper.perSecond < 2
  linarith

theorem asleep_congr {before after : RelayShaper ℚ} (same : RelayShaper.SameRate before after)
    {due : Nat} (asleep : Asleep before due) : Asleep after due := by
  unfold Asleep
  rw [same.tokens, same.lastRefill, same.perSecond]
  exact asleep

theorem Steady.arrives {rate : ℚ} {task : ShaperTask} (steady : Steady rate task)
    {call : ShaperCall} (queues : task.shaper.Queues call)
    (same : RelayShaper.SameRate task.shaper (task.shaper.step call)) {now : Nat}
    (timely : task.At now) : Steady rate (task.arrives call now) where
  paced := steady.paced.step call
  perSecond := same.perSecond.trans steady.perSecond
  discarded := by
    intro isClosed
    have was : task.shaper.closed = true := queues.closed.symm.trans isClosed
    exact (queues.afterClose was).trans (steady.discarded was)
  refilled := by
    show (task.shaper.step call).lastRefill ≤ now
    rw [same.lastRefill]
    exact Nat.le_trans steady.refilled timely.1
  reached := by
    intro due isDue
    show now ≤ due
    unfold ShaperTask.arrives at isDue
    simp only at isDue
    split at isDue
    · exact Nat.le_of_eq (Option.some.inj isDue)
    · exact timely.2 due isDue
  asleep := by
    intro due isDue
    show due = now ∨ Asleep (task.shaper.step call) due
    unfold ShaperTask.arrives at isDue
    simp only at isDue
    split at isDue
    · exact Or.inl (Option.some.inj isDue).symm
    · rcases steady.asleep due isDue with atOnce | asleep
      · left
        have order := timely.1
        have reached := timely.2 due isDue
        omega
      · exact Or.inr (asleep_congr same asleep)
  waits := by
    intro isDue
    show (task.shaper.step call).items = []
    unfold ShaperTask.arrives at isDue
    simp only at isDue
    split at isDue
    · cases isDue
    · rename_i seen
      have refused : task.shaper.accepts call = [] := by
        by_contra accepted
        exact seen ⟨isDue, accepted⟩
      have items : (task.shaper.step call).items = task.shaper.items := queues.refused refused
      rw [items]
      exact steady.waits isDue

theorem Steady.closes {rate : ℚ} {task : ShaperTask} (steady : Steady rate task) {now : Nat}
    (timely : task.At now) : Steady rate (task.closes now) where
  paced := steady.paced.step .close
  perSecond := steady.perSecond
  discarded _ := rfl
  refilled := Nat.le_trans steady.refilled timely.1
  reached := by
    intro due isDue
    show now ≤ due
    have isDue : task.due.getD now = due := Option.some.inj isDue
    cases waiting : task.due with
    | none =>
        rw [waiting] at isDue
        exact Nat.le_of_eq isDue
    | some pending =>
        rw [waiting] at isDue
        have same : pending = due := isDue
        rw [← same]
        exact timely.2 pending waiting
  asleep := by
    intro due isDue
    show due = now ∨ Asleep (task.shaper.step .close) due
    have isDue : task.due.getD now = due := Option.some.inj isDue
    cases waiting : task.due with
    | none =>
        rw [waiting] at isDue
        exact Or.inl isDue.symm
    | some pending =>
        rw [waiting] at isDue
        have same : pending = due := isDue
        rw [← same]
        rcases steady.asleep pending waiting with atOnce | asleep
        · left
          have order := timely.1
          have reached := timely.2 pending waiting
          omega
        · exact Or.inr asleep
  waits isDue := by cases isDue

/-- What the pass at an instant makes of the task. -/
inductive PassOf (task : ShaperTask) (now : Nat) : ShaperTask → Prop where
  | closed (isClosed : task.shaper.closed = true) : PassOf task now ⟨task.shaper, now, none⟩
  | idle (empty : task.shaper.items = []) : PassOf task now ⟨task.shaper.refill now, now, none⟩
  | sleep (short : task.shaper.available now < 1)
      (nothing : task.shaper.hands (.drain now) = []) :
      PassOf task now
        ⟨task.shaper.refill now, now, some (wakesAt task.shaper now)⟩
  | ready (isOpen : task.shaper.closed = false) (take : Nat)
      (paid : (take : ℚ) ≤ task.shaper.available now)
      (count : (task.shaper.hands (.drain now)).length = take) :
      PassOf task now
        ⟨{ task.shaper.refill now with
            tokens := task.shaper.available now - take
            items := task.shaper.items.drop take }, now, some now⟩

theorem passOf_pass {task : ShaperTask} (paced : task.shaper.Paced) {now : Nat}
    (isDue : task.due = some now) : PassOf task now task.pass := by
  have pass := RelayShaper.pass_drain paced.burst now
  have hands := RelayShaper.hands_drain task.shaper now
  unfold ShaperTask.pass RelayShaper.step
  rw [isDue]
  dsimp only
  generalize task.shaper.drainPass now = result at pass hands ⊢
  cases pass with
  | closed isClosed => exact .closed isClosed
  | idle isOpen empty => exact .idle empty
  | sleep isOpen short => exact .sleep short hands
  | ready isOpen take some within queued paid =>
      apply PassOf.ready isOpen take paid
      rw [hands]
      show ((task.shaper.items.take take).map Prod.snd).length = take
      rw [List.length_map, List.length_take, Nat.min_eq_left queued]

theorem wakesAt_ge (shaper : RelayShaper ℚ) (now : Nat) : now ≤ wakesAt shaper now :=
  Nat.le_add_right _ _

theorem Steady.pass {rate : ℚ} {task : ShaperTask} (steady : Steady rate task) {now : Nat}
    (isDue : task.due = some now) : Steady rate task.pass := by
  have paced : task.pass.shaper.Paced := by
    have is : task.pass.shaper = task.shaper.step (.drain now) := by
      unfold ShaperTask.pass
      rw [isDue]
    rw [is]
    exact steady.paced.step (.drain now)
  have refilled := Nat.le_trans steady.refilled (steady.reached now isDue)
  have outcome := passOf_pass steady.paced isDue
  generalize task.pass = after at outcome paced
  cases outcome with
  | closed isClosed =>
      exact ⟨paced, steady.perSecond, steady.discarded, refilled,
        (fun _ isDue => by cases isDue), (fun _ isDue => by cases isDue),
        fun _ => steady.discarded isClosed⟩
  | idle empty =>
      exact ⟨paced, steady.perSecond, steady.discarded, Nat.le_refl now,
        (fun _ isDue => by cases isDue), (fun _ isDue => by cases isDue), fun _ => empty⟩
  | sleep short nothing =>
      refine ⟨paced, steady.perSecond, steady.discarded, Nat.le_refl now, ?_, ?_,
        fun isDue => by cases isDue⟩
      · intro due isDue
        rw [← Option.some.inj isDue]
        exact wakesAt_ge task.shaper now
      · intro due isDue
        rw [← Option.some.inj isDue]
        exact Or.inr (asleep_wakesAt steady.paced short)
  | ready isOpen take paid count =>
      refine ⟨paced, steady.perSecond, ?_, Nat.le_refl now, ?_, ?_, fun isDue => by cases isDue⟩
      · intro isClosed
        have same : task.shaper.closed = true := isClosed
        rw [isOpen] at same
        cases same
      · intro due isDue
        exact Nat.le_of_eq (Option.some.inj isDue)
      · intro due isDue
        exact Or.inl (Option.some.inj isDue).symm

theorem Steady.step {rate : ℚ} {task : ShaperTask} (steady : Steady rate task)
    {event : ShaperEvent} (timely : task.Timely event) : Steady rate (task.step event) := by
  cases event with
  | tryEnqueueAll transmit now =>
      exact steady.arrives (task.shaper.queues_tryEnqueueAll transmit now)
        (task.shaper.sameRate_step fun _ same => by cases same) timely
  | enqueueOrDrop payload now =>
      exact steady.arrives (task.shaper.queues_enqueueOrDrop payload now)
        (task.shaper.sameRate_step fun _ same => by cases same) timely
  | close now => exact steady.closes timely
  | passes =>
      obtain ⟨now, isDue⟩ := Option.ne_none_iff_exists'.mp timely
      exact steady.pass isDue

/-! ## A queue that is never empty -/

/-- What a task that has found the queue full of work ever since `start` has done with the
tokens that accrued: they left as datagrams, or are there at the next pass. -/
structure Pursues (start drained : Nat) (task : ShaperTask) (due : Nat) : Prop where
  isDue : task.due = some due
  after : start ≤ due
  spent : task.shaper.perSecond * (secs due - secs start) ≤
    drained + task.shaper.available due
  short : due = start ∨ task.shaper.available due < 2

theorem available_of_asleep {shaper : RelayShaper ℚ} (paced : shaper.Paced) {due : Nat}
    (asleep : Asleep shaper due) :
    shaper.available due = shaper.tokens + secs (due - shaper.lastRefill) * shaper.perSecond := by
  have roomy := paced.roomy
  have asleep : shaper.tokens + secs (due - shaper.lastRefill) * shaper.perSecond < 2 := asleep
  exact min_eq_left (by linarith)

theorem secs_sub_of_le {start finish : Nat} (order : start ≤ finish) :
    (secs (finish - start) : ℚ) = secs finish - secs start := by
  have ordered : (secs start : ℚ) ≤ secs finish := secs_le_secs.mpr order
  rw [secs_sub]
  exact max_eq_right (by linarith)

/-- A stretch starts with the tokens that are there. -/
theorem Steady.pursues {rate : ℚ} {task : ShaperTask} (steady : Steady rate task) {start : Nat}
    (stands : task.At start) (busy : task.shaper.items ≠ []) :
    ∃ due, Pursues start 0 task due := by
  obtain ⟨due, isDue⟩ := Option.ne_none_iff_exists'.mp fun isDue => busy (steady.waits isDue)
  have after := stands.2 due isDue
  have nonneg := RelayShaper.available_nonneg steady.paced due
  refine ⟨due, isDue, after, ?_, ?_⟩
  · rcases steady.asleep due isDue with atOnce | asleep
    · have same : due = start := Nat.le_antisymm (by rw [atOnce]; exact stands.1) after
      rw [same, sub_self, mul_zero, Nat.cast_zero, zero_add]
      exact same ▸ nonneg
    · have refilled := Nat.le_trans steady.refilled stands.1
      have tokens := steady.paced.nonneg
      have sooner : (secs task.shaper.lastRefill : ℚ) ≤ secs start := secs_le_secs.mpr refilled
      have gained : task.shaper.perSecond * (secs due - secs start) ≤
          (secs due - secs task.shaper.lastRefill) * task.shaper.perSecond := by
        rw [mul_comm]
        exact mul_le_mul_of_nonneg_right (by linarith) steady.paced.rate.le
      rw [available_of_asleep steady.paced asleep, secs_sub_of_le (Nat.le_trans refilled after),
        Nat.cast_zero, zero_add]
      linarith
  · rcases steady.asleep due isDue with atOnce | asleep
    · left
      have order := stands.1
      omega
    · right
      rw [available_of_asleep steady.paced asleep]
      exact asleep

theorem available_congr {before after : RelayShaper ℚ}
    (same : RelayShaper.SameRate before after) (now : Nat) :
    after.available now = before.available now := by
  unfold RelayShaper.available
  rw [same.tokens, same.lastRefill, same.perSecond, same.tokenCap]

/-- A call that queues neither spends a token nor moves the next pass. -/
theorem Pursues.arrives {start drained due : Nat} {task : ShaperTask}
    (pursues : Pursues start drained task due) {call : ShaperCall}
    (same : RelayShaper.SameRate task.shaper (task.shaper.step call)) (now : Nat) :
    Pursues start drained (task.arrives call now) due := by
  have isDue : (task.arrives call now).due = some due := by
    unfold ShaperTask.arrives
    rw [if_neg]
    · exact pursues.isDue
    · intro waiting
      rw [pursues.isDue] at waiting
      cases waiting.1
  have available := available_congr same due
  refine ⟨isDue, pursues.after, ?_, ?_⟩
  · show (task.shaper.step call).perSecond * _ ≤ _ + (task.shaper.step call).available due
    rw [same.perSecond, available]
    exact pursues.spent
  · show due = start ∨ (task.shaper.step call).available due < 2
    rw [available]
    exact pursues.short

/-- A pass over a queue with work in it spends a token on each datagram, or sleeps for one. -/
theorem Pursues.pass {rate : ℚ} {start drained now : Nat} {task : ShaperTask}
    (steady : Steady rate task) (pursues : Pursues start drained task now)
    (busy : task.shaper.items ≠ []) :
    ∃ due, Pursues start (drained + (task.leaves .passes).length) task.pass due := by
  have leaves : (task.leaves .passes).length = (task.shaper.hands (.drain now)).length := by
    show (task.due.toList.flatMap fun now => task.shaper.hands (.drain now)).length = _
    rw [pursues.isDue, Option.toList_some, List.flatMap_singleton]
  have spent := pursues.spent
  have full : task.shaper.available now ≤ task.shaper.tokenCap := min_le_right _ _
  have outcome := passOf_pass steady.paced pursues.isDue
  rw [leaves]
  generalize task.pass = after at outcome
  cases outcome with
  | closed isClosed => exact absurd (steady.discarded isClosed) busy
  | idle empty => exact absurd empty busy
  | sleep short nothing =>
      have asleep := asleep_wakesAt steady.paced short
      have later := wakesAt_ge task.shaper now
      generalize wakesAt task.shaper now = wakes at asleep later
      -- The sleep ends below the cap, so all that accrues in it is there when it ends.
      have roomy := steady.paced.roomy
      have asleep : task.shaper.available now + secs (wakes - now) * task.shaper.perSecond < 2 :=
        asleep
      have available : (task.shaper.refill now).available wakes =
          task.shaper.available now + secs (wakes - now) * task.shaper.perSecond :=
        min_eq_left (le_trans asleep.le roomy)
      refine ⟨wakes, rfl, Nat.le_trans pursues.after later, ?_, Or.inr ?_⟩
      · have split : task.shaper.perSecond * (secs wakes - secs start) =
            task.shaper.perSecond * (secs now - secs start) +
              (secs wakes - secs now) * task.shaper.perSecond := by
          ring
        show task.shaper.perSecond * _ ≤ _
        rw [split, available, secs_sub_of_le later, nothing, List.length_nil, Nat.add_zero]
        linarith
      · rw [available]
        exact asleep
  | ready isOpen take paid count =>
      have available : RelayShaper.available
          { task.shaper.refill now with
            tokens := task.shaper.available now - take
            items := task.shaper.items.drop take } now =
          task.shaper.available now - take := by
        have elapsed : (secs (now - now) : ℚ) = 0 := by
          rw [secs_sub_of_le (Nat.le_refl now), sub_self]
        have taken : (0 : ℚ) ≤ take := Nat.cast_nonneg take
        show min (task.shaper.available now - take + secs (now - now) * task.shaper.perSecond)
          task.shaper.tokenCap = _
        rw [elapsed, zero_mul, add_zero]
        exact min_eq_left (by linarith)
      refine ⟨now, rfl, pursues.after, ?_, ?_⟩
      · rw [available, count, Nat.cast_add]
        show task.shaper.perSecond * _ ≤ _
        linarith
      · rw [available]
        rcases pursues.short with atOnce | short
        · exact Or.inl atOnce
        · have taken : (0 : ℚ) ≤ take := Nat.cast_nonneg take
          right
          linarith

/-- An event of the stretch keeps up with the tokens. -/
theorem Pursues.step {rate : ℚ} {start drained due : Nat} {task : ShaperTask}
    (steady : Steady rate task) (pursues : Pursues start drained task due)
    {event : ShaperEvent} (busy : task.shaper.items ≠ [])
    (still : (task.step event).shaper.items ≠ []) :
    ∃ due, Pursues start (drained + (task.leaves event).length) (task.step event) due := by
  cases event with
  | tryEnqueueAll transmit now =>
      exact ⟨due, pursues.arrives (task.shaper.sameRate_step fun _ same => by cases same) now⟩
  | enqueueOrDrop payload now =>
      exact ⟨due, pursues.arrives (task.shaper.sameRate_step fun _ same => by cases same) now⟩
  | close now => exact absurd rfl still
  | passes =>
      obtain ⟨now, isDue⟩ := Option.ne_none_iff_exists'.mp fun waiting =>
        busy (steady.waits waiting)
      have same : now = due := Option.some.inj (isDue.symm.trans pursues.isDue)
      exact Pursues.pass steady pursues busy

/-- So does the whole stretch. -/
theorem Pursues.run {rate : ℚ} {start drained due : Nat} {task : ShaperTask}
    (steady : Steady rate task) (pursues : Pursues start drained task due)
    {events : List ShaperEvent} (timely : Guarded ShaperTask.step Timely task events)
    (busy : task.Busy events) :
    ∃ due, Pursues start
      (drained + (outputs ShaperTask.step ShaperTask.leaves task events).length)
      (Machine.run ShaperTask.step task events) due := by
  induction events generalizing task drained due with
  | nil => exact ⟨due, pursues⟩
  | cons event rest ih =>
      have split := throughout_cons.mp busy
      have still : (task.step event).shaper.items ≠ [] := split.2 [] List.nil_prefix
      obtain ⟨next, later⟩ := Pursues.step steady pursues split.1 still
      rw [outputs, List.length_append, ← Nat.add_assoc]
      exact ih (steady.step timely.1) later timely.2 split.2

/-- While its queue is never empty, a shaper falls short of its rate by less than two. -/
theorem leaves_ge (kind : ShaperKind) (born : Nat) (front stretch : List ShaperEvent)
    (timely : Guarded step Timely (new kind born) (front ++ stretch)) {start finish : Nat}
    (starts : (run step (new kind born) front).At start)
    (ends : (run step (new kind born) (front ++ stretch)).At finish)
    (order : start ≤ finish)
    (busy : (run step (new kind born) front).Busy stretch) :
    ⌊(kind.make born).perSecond * (secs finish - secs start)⌋ - 1 ≤
      ((outputs step leaves (run step (new kind born) front) stretch).length : ℤ) := by
  obtain ⟨before, within⟩ := (guarded_append _ _ _).mp timely
  have preserved := fun task event (steady : Steady (kind.make born).perSecond task)
    (timely : task.Timely event) => steady.step timely
  have steady := run_preserves preserved (steady_new kind born) before
  rw [run_append] at ends
  have later := run_preserves preserved steady within
  have occupied : (run step (new kind born) front).shaper.items ≠ [] := busy [] List.nil_prefix
  obtain ⟨due, initial⟩ := steady.pursues starts occupied
  obtain ⟨last, pursues⟩ := Pursues.run steady initial within busy
  rw [Nat.zero_add] at pursues
  generalize run step (run step (new kind born) front) stretch = final at *
  generalize (outputs step leaves (run step (new kind born) front) stretch).length = drained at *
  have reached := ends.2 last pursues.isDue
  have spent := pursues.spent
  have rate := later.paced.rate
  rw [later.perSecond] at spent rate
  have window : (kind.make born).perSecond * (secs finish - secs start) ≤
      (kind.make born).perSecond * (secs last - secs start) := by
    apply mul_le_mul_of_nonneg_left _ rate.le
    have ordered : (secs finish : ℚ) ≤ secs last := secs_le_secs.mpr reached
    linarith
  rcases pursues.short with atOnce | short
  · have same : finish = start := by omega
    rw [same, sub_self, mul_zero, Int.floor_zero]
    omega
  · have below : (kind.make born).perSecond * (secs finish - secs start) <
        ((drained + 2 : ℤ) : ℚ) := by
      push_cast
      linarith
    have floored := Int.floor_lt.mpr below
    omega

end ShaperTask

/-- Every window sees at most a full bucket and what it gains meanwhile, no batch is empty or
longer than the burst, and while the queue is never empty and its task is woken when it asked,
the shaper falls short of its rate by less than two datagrams. -/
theorem shaper_rate (kind : ShaperKind) (born : Nat) :
    (∀ (calls : List ShaperCall) (start finish : Nat),
      (born :: calls.flatMap ShaperCall.time).Pairwise (· ≤ ·) → start ≤ finish →
        ((kind.make born).drainedWithin calls start finish : ℚ) ≤
          (kind.make born).tokenCap + (kind.make born).perSecond * (secs finish - secs start)) ∧
      (∀ (calls : List ShaperCall) (now : Nat) (payloads : List Bytes),
        ((run RelayShaper.step (kind.make born) calls).drainPass now).2 = .ready payloads →
          payloads ≠ [] ∧ payloads.length ≤ (kind.make born).burst) ∧
      ∀ (front stretch : List ShaperEvent) (start finish : Nat),
        Guarded ShaperTask.step ShaperTask.Timely (.new kind born) (front ++ stretch) →
        (run ShaperTask.step (.new kind born) front).At start →
        (run ShaperTask.step (.new kind born) (front ++ stretch)).At finish → start ≤ finish →
        (run ShaperTask.step (.new kind born) front).Busy stretch →
          ⌊(kind.make born).perSecond * (secs finish - secs start)⌋ - 1 ≤
            ((outputs ShaperTask.step ShaperTask.leaves (run ShaperTask.step (.new kind born) front)
              stretch).length : ℤ) := by
  refine ⟨?_, ?_, ?_⟩
  · intro calls start finish ordered order
    apply RelayShaper.drainedWithin_le (RelayShaper.paced_make kind born) _ order
    cases kind <;> exact ordered
  · intro calls now payloads ready
    have preserved : ∀ (shaper : RelayShaper ℚ) (call : ShaperCall),
        shaper.burst = (kind.make born).burst →
          (shaper.step call).burst = (kind.make born).burst :=
      fun shaper call same => (shaper.burst_step call).trans same
    have burst : (run RelayShaper.step (kind.make born) calls).burst = (kind.make born).burst :=
      run_always preserved rfl calls
    have bound := RelayShaper.batch_le_burst
      (by rw [burst]; exact (RelayShaper.paced_make kind born).burst) ready
    rw [burst] at bound
    exact bound
  · intro front stretch start finish timely starts ends order busy
    exact ShaperTask.leaves_ge kind born front stretch timely starts ends order busy

/-- A hundred datagrams at once. -/
def backlog : List ShaperEvent := List.replicate 100 (.enqueueOrDrop [1] 0)

/-- Fifteen milliseconds of passes over a backlog, of which thirty datagrams leave. -/
theorem shaper_rate_backlog :
    ⌊(ShaperKind.house.make 0).perSecond * (secs 15000000 - secs 0)⌋ - 1 ≤
      ((outputs ShaperTask.step ShaperTask.leaves (run ShaperTask.step (.new .house 0) backlog)
        (List.replicate 60 .passes)).length : ℤ) := by
  have busy : (run ShaperTask.step (.new .house 0) backlog).Busy (List.replicate 60 .passes) :=
    (throughout_iff_guarded (fun _ _ _ => Iff.rfl) (by decide +kernel)).mpr (by decide +kernel)
  exact (shaper_rate .house 0).2.2 backlog (List.replicate 60 .passes) 0 15000000
    (by decide +kernel) (by decide +kernel) (by decide +kernel) (by decide) busy

end Mosschat.Net
