import Mathlib.Data.List.Induction
import Mosschat.Net.Gate.Buckets

/-!
Owns the limits on connection attempts, from `gate/server.rs`: the limiter each key has on
each port, what charges it, and what a sweep makes of it.

Does not own the connections.
-/

namespace Mosschat.Net.Gate

open Mosschat.Core Mosschat.Library Mosschat.Library.Machine

namespace limits

def registerAttemptsPerMinute : Nat := 4
def secondaryAttemptsPerMinute : Nat := 4

end limits

/-- `RateLimiter::is_full`. -/
def RateLimiter.isFull {F : Type} [F64 F] (limiter : RateLimiter F) : Bool :=
  F64.ge limiter.tokens limiter.capacity

/-- The two endpoints of a gate. -/
inductive Port where
  | primary
  | secondary
deriving DecidableEq

/-- How many attempts a key has on the port in a minute. -/
def Port.attemptsPerMinute : Port → Nat
  | .primary => limits.registerAttemptsPerMinute
  | .secondary => limits.secondaryAttemptsPerMinute

/-- `ServerState`, of its attempt limiters. -/
structure AttemptLimiters (F : Type) where
  registerAttempts : HashMap Bytes32 (RateLimiter F)
  secondaryAttempts : HashMap Bytes32 (RateLimiter F)

/-- What happens to the limiters. -/
inductive AttemptAction where
  /-- A member's handshake completes. The clock is read once for a limiter that is made
  and charged. -/
  | connects (port : Port) (key : Bytes32) (now : Nat)
  /-- `sweep_once`. -/
  | sweeps (now : Nat)
deriving DecidableEq

namespace AttemptLimiters

variable {F : Type}

def new : AttemptLimiters F := ⟨∅, ∅⟩

def attempts (limiters : AttemptLimiters F) : Port → HashMap Bytes32 (RateLimiter F)
  | .primary => limiters.registerAttempts
  | .secondary => limiters.secondaryAttempts

def setAttempts (limiters : AttemptLimiters F) (port : Port)
    (attempts : HashMap Bytes32 (RateLimiter F)) : AttemptLimiters F :=
  match port with
  | .primary => { limiters with registerAttempts := attempts }
  | .secondary => { limiters with secondaryAttempts := attempts }

/-- The limiter of the key, made where there is none, and whether it lets the attempt
through: the same block of `handle_primary_connection` and of
`handle_secondary_connection`. -/
def charge [F64 F] (limiters : AttemptLimiters F) (port : Port) (key : Bytes32) (now : Nat) :
    RateLimiter F × Bool :=
  (((limiters.attempts port).lookup key).getD
    (RateLimiter.perMinute port.attemptsPerMinute port.attemptsPerMinute now)).tryTake now

/-- The `retain` of `sweep_once` on one map. -/
def retained [F64 F] (attempts : HashMap Bytes32 (RateLimiter F)) :
    HashMap Bytes32 (RateLimiter F) :=
  attempts.retain fun _ limiter => !limiter.isFull

def step [F64 F] (limiters : AttemptLimiters F) : AttemptAction → AttemptLimiters F
  | .connects port key now =>
    limiters.setAttempts port
      ((limiters.attempts port).put key (limiters.charge port key now).1)
  | .sweeps _ => ⟨retained limiters.registerAttempts, retained limiters.secondaryAttempts⟩

/-- Whether the attempt is let through. -/
def decides [F64 F] (limiters : AttemptLimiters F) : AttemptAction → List Bool
  | .connects port key now => [(limiters.charge port key now).2]
  | .sweeps _ => []

/-- What the attempts of a history are told, in order. -/
def decisions [F64 F] (history : List AttemptAction) : List Bool :=
  outputs step decides (new : AttemptLimiters F) history

/-- The limiters after a history. -/
def after [F64 F] (history : List AttemptAction) : AttemptLimiters F := run step new history

@[simp] theorem attempts_setAttempts (limiters : AttemptLimiters F) (port other : Port)
    (attempts : HashMap Bytes32 (RateLimiter F)) :
    (limiters.setAttempts port attempts).attempts other =
      if other = port then attempts else limiters.attempts other := by
  cases port <;> cases other <;> rfl

end AttemptLimiters

/-- The action is an attempt. -/
def AttemptAction.isAttempt : AttemptAction → Bool
  | .connects .. => true
  | .sweeps _ => false

/-- No attempt was made in the minute before. -/
def QuietMinute (history : List AttemptAction) (now : Nat) : Prop :=
  ∀ port key attempted, .connects port key attempted ∈ history → attempted + fromSecs 60 ≤ now

namespace AttemptLimiters

/-- The limiter holds all it can at this instant. -/
def Refilled (limiter : RateLimiter ℚ) (now : Nat) : Prop :=
  limiter.capacity ≤ limiter.refilled now

/-- What pruning owes: the attempts are told what they would be told if nothing were ever
pruned, a sweep leaves no limiter that has refilled, and after a quiet minute it leaves
none at all. -/
structure Pruned (history : List AttemptAction) : Prop where
  unobserved : decisions (F := ℚ) history =
    decisions (F := ℚ) (history.filter AttemptAction.isAttempt)
  complete : ∀ front now rest, history = front ++ .sweeps now :: rest →
    ∀ port key limiter, ((after (F := ℚ) front).attempts port).lookup key = some limiter →
      Refilled limiter now →
        ((after (F := ℚ) (front ++ [.sweeps now])).attempts port).lookup key = none
  emptied : ∀ front now rest, history = front ++ .sweeps now :: rest → QuietMinute front now →
    ∀ port key, ((after (F := ℚ) (front ++ [.sweeps now])).attempts port).lookup key = none

/-- No sweep finds a limiter that has refilled. -/
def NoneRefilled (history : List AttemptAction) : Prop :=
  ∀ front now rest, history = front ++ .sweeps now :: rest →
    ∀ port key limiter, ((after (F := ℚ) front).attempts port).lookup key = some limiter →
      ¬Refilled limiter now

/-! ## A charged limiter is never full -/

/-- The limiter of a port, short of its capacity since its last charge. -/
structure Charged (port : Port) (limiter : RateLimiter ℚ) : Prop where
  capacity : limiter.capacity = port.attemptsPerMinute
  rate : limiter.refillPerS = (port.attemptsPerMinute : ℚ) / 60
  nonneg : 0 ≤ limiter.tokens
  short : limiter.tokens < limiter.capacity

theorem secs_nonneg (instant : Nat) : 0 ≤ secs instant := by
  rw [secs_eq]
  exact div_nonneg (Nat.cast_nonneg instant) (by norm_num)

theorem attemptsPerMinute_eq (port : Port) : (port.attemptsPerMinute : ℚ) = 4 := by
  cases port <;> rfl

/-- What is charged is short of its capacity, whatever it held before. -/
theorem charged_tryTake {port : Port} {limiter : RateLimiter ℚ}
    (capacity : limiter.capacity = port.attemptsPerMinute)
    (rate : limiter.refillPerS = (port.attemptsPerMinute : ℚ) / 60) (nonneg : 0 ≤ limiter.tokens)
    (now : Nat) : Charged port (limiter.tryTake now).1 ∧ (limiter.tryTake now).1.last = now := by
  have four := attemptsPerMinute_eq port
  have atMost : limiter.refilled now ≤ limiter.capacity := min_le_right _ _
  have atLeast : 0 ≤ limiter.refilled now := by
    apply le_min
    · rw [rate, four]
      exact add_nonneg nonneg (mul_nonneg (secs_nonneg _) (by norm_num))
    · rw [capacity, four]
      norm_num
  unfold RateLimiter.tryTake
  rw [RateLimiter.tryTakeN_eq]
  have one : (F64.ofNat 1 : ℚ) = 1 := Nat.cast_one
  rw [one]
  rcases le_or_gt 1 (limiter.refilled now) with enough | short
  · rw [if_pos enough]
    refine ⟨⟨capacity, rate, sub_nonneg.mpr enough, ?_⟩, rfl⟩
    show limiter.refilled now - 1 < limiter.capacity
    linarith
  · rw [if_neg (not_le.mpr short)]
    refine ⟨⟨capacity, rate, atLeast, ?_⟩, rfl⟩
    show limiter.refilled now < limiter.capacity
    rw [capacity, four]
    linarith

theorem Charged.not_full {port : Port} {limiter : RateLimiter ℚ} (charged : Charged port limiter) :
    limiter.isFull = false :=
  decide_eq_false (not_le.mpr charged.short)

/-- Every limiter is charged, last by an attempt of the history. -/
def Known (limiters : AttemptLimiters ℚ) (history : List AttemptAction) : Prop :=
  ∀ port key limiter, (limiters.attempts port).lookup key = some limiter →
    Charged port limiter ∧ .connects port key limiter.last ∈ history

theorem Known.retained {limiters : AttemptLimiters ℚ} {history : List AttemptAction}
    (known : limiters.Known history) (port : Port) :
    retained (limiters.attempts port) = limiters.attempts port := by
  apply HashMap.retain_eq_self
  intro key limiter found
  rw [(known port key limiter found).1.not_full]
  rfl

/-- A sweep removes nothing. -/
theorem Known.sweeps {limiters : AttemptLimiters ℚ} {history : List AttemptAction}
    (known : limiters.Known history) (now : Nat) : limiters.step (.sweeps now) = limiters := by
  show (⟨_, _⟩ : AttemptLimiters ℚ) = _
  rw [show AttemptLimiters.retained limiters.registerAttempts = limiters.registerAttempts from
      known.retained .primary,
    show AttemptLimiters.retained limiters.secondaryAttempts = limiters.secondaryAttempts from
      known.retained .secondary]

theorem Known.charge {limiters : AttemptLimiters ℚ} {history : List AttemptAction}
    (known : limiters.Known history) (port : Port) (key : Bytes32) (now : Nat) :
    Charged port (limiters.charge port key now).1 ∧
      (limiters.charge port key now).1.last = now := by
  unfold AttemptLimiters.charge
  cases found : (limiters.attempts port).lookup key with
  | some limiter =>
      have charged := (known port key limiter found).1
      exact charged_tryTake charged.capacity charged.rate charged.nonneg now
  | none =>
      have four := attemptsPerMinute_eq port
      apply charged_tryTake rfl rfl
      show (0 : ℚ) ≤ port.attemptsPerMinute
      rw [four]
      norm_num

theorem Known.step {limiters : AttemptLimiters ℚ} {history : List AttemptAction}
    (known : limiters.Known history) (action : AttemptAction) :
    (limiters.step action).Known (history ++ [action]) := by
  cases action with
  | sweeps now =>
      rw [known.sweeps]
      intro port key limiter found
      obtain ⟨charged, attempted⟩ := known port key limiter found
      exact ⟨charged, List.mem_append_left _ attempted⟩
  | connects port key now =>
      intro other otherKey limiter found
      obtain ⟨charged, last⟩ := known.charge port key now
      unfold AttemptLimiters.step at found
      rw [attempts_setAttempts] at found
      by_cases isPort : other = port
      · rw [if_pos isPort, HashMap.lookup_put] at found
        by_cases isKey : otherKey = key
        · rw [if_pos isKey] at found
          rw [← Option.some.inj found, isPort, isKey, last]
          exact ⟨charged, List.mem_append_right _ (List.mem_singleton_self _)⟩
        · rw [if_neg isKey, ← isPort] at found
          obtain ⟨before, attempted⟩ := known other otherKey limiter found
          exact ⟨before, List.mem_append_left _ attempted⟩
      · rw [if_neg isPort] at found
        obtain ⟨before, attempted⟩ := known other otherKey limiter found
        exact ⟨before, List.mem_append_left _ attempted⟩

theorem known_after (history : List AttemptAction) : (after history).Known history := by
  induction history using List.reverseRecOn with
  | nil =>
      intro port key limiter found
      cases port <;> cases found
  | append_singleton history action ih =>
      unfold after
      rw [run_concat]
      exact ih.step action

/-- A sweep of limiters that were all charged tells the attempts nothing. -/
theorem Known.decisions_filter {limiters : AttemptLimiters ℚ} {past : List AttemptAction}
    (known : limiters.Known past) (history : List AttemptAction) :
    outputs AttemptLimiters.step decides limiters history =
      outputs AttemptLimiters.step decides limiters (history.filter AttemptAction.isAttempt) := by
  induction history generalizing limiters past with
  | nil => rfl
  | cons action rest ih =>
      have later := ih (known.step action)
      cases action with
      | connects port key now =>
          show _ ++ _ = _ ++ _
          rw [later]
      | sweeps now =>
          rw [known.sweeps] at later
          show [] ++ outputs AttemptLimiters.step decides (limiters.step (.sweeps now)) rest = _
          rw [known.sweeps, List.nil_append]
          exact later

/-- A minute brings a limiter back to its capacity. -/
theorem Charged.refilled {port : Port} {limiter : RateLimiter ℚ} (charged : Charged port limiter)
    {now : Nat} (quiet : limiter.last + fromSecs 60 ≤ now) : Refilled limiter now := by
  have minute : (60 : ℚ) ≤ secs (now - limiter.last) := by
    have isMinute : secs (fromSecs 60) = 60 := by
      rw [secs_eq, fromSecs]
      norm_num
    rw [← isMinute, secs_le_secs]
    omega
  have four := attemptsPerMinute_eq port
  have nonneg := charged.nonneg
  apply le_min
  · rw [charged.capacity, charged.rate, four]
    linarith
  · exact le_refl _

theorem after_sweeps (front : List AttemptAction) (now : Nat) :
    after (F := ℚ) (front ++ [.sweeps now]) = after front := by
  unfold after
  rw [run_concat]
  exact (known_after front).sweeps now

/-- The limiters are pruned as they should be exactly where there is nothing to prune: a
sweep never removes one. -/
theorem pruned_iff (history : List AttemptAction) : Pruned history ↔ NoneRefilled history := by
  constructor
  · intro pruned front now rest split port key limiter found refilled
    have gone := pruned.complete front now rest split port key limiter found refilled
    rw [after_sweeps, found] at gone
    cases gone
  · intro noneRefilled
    constructor
    · exact (known_after []).decisions_filter history
    · intro front now rest split port key limiter found refilled
      exact absurd refilled (noneRefilled front now rest split port key limiter found)
    · intro front now rest split quiet port key
      rw [after_sweeps, Option.eq_none_iff_forall_ne_some]
      intro limiter found
      obtain ⟨charged, attempted⟩ := known_after front port key limiter found
      have refilled := charged.refilled (quiet port key limiter.last attempted)
      exact noneRefilled front now rest split port key limiter found refilled

/-- An hour after its one attempt a key still has its limiter. -/
theorem idle_limiter_kept :
    ¬Pruned [.connects .primary (List.Vector.replicate 32 1) 0, .sweeps (fromSecs 3600)] := by
  intro pruned
  have quiet : QuietMinute [.connects .primary (List.Vector.replicate 32 1) 0]
      (fromSecs 3600) := by
    intro port key attempted member
    cases List.mem_singleton.mp member
    decide
  have gone := pruned.emptied [.connects .primary (List.Vector.replicate 32 1) 0]
    (fromSecs 3600) [] rfl quiet .primary (List.Vector.replicate 32 1)
  rw [after_sweeps] at gone
  have held := HashMap.lookup_put (κ := Bytes32) ∅ (List.Vector.replicate 32 1)
    (List.Vector.replicate 32 1)
    ((new (F := ℚ)).charge .primary (List.Vector.replicate 32 1) 0).1
  rw [if_pos rfl] at held
  rw [show ((after (F := ℚ) _).attempts .primary).lookup _ = _ from held] at gone
  cases gone

end AttemptLimiters

end Mosschat.Net.Gate
