import Mosschat.Core.Identity
import Mosschat.Library.HashMap

/-!
Owns what both halves of the gate protocol share, from `gate/mod.rs`: the two
clocks, the caps, the freshness window, the pair tag, the rate limiter and the seen
set.

Does not own the frames or either half.
-/

namespace Mosschat.Net.Gate

open Mosschat.Core Mosschat.Library Mosschat.Library.Cbor

/-- `[u8; 16]`. -/
abbrev Bytes16 := List.Vector UInt8 16

/-! ## Time

An `Instant` is a reading of the monotonic clock and a `Duration` a span of it, both
in nanoseconds. -/

/-- `Duration::from_secs`. -/
def fromSecs (secs : Nat) : Nat := secs * 10 ^ 9

/-- `Duration::as_millis`. -/
def asMillis (duration : Nat) : Nat := duration / 10 ^ 6

namespace limits

def introducePerMinute : Nat := 6
def introducePerHour : Nat := 60
def introduceTtlCapS : UInt16 := 60
def startRequestsPerSession : UInt32 := 4
def startFireInMs : UInt16 := 200
def maxSessionsPerRegistration : Nat := 8
def maxConnectionsPerKey : Nat := 2
def registrationTtl : Nat := fromSecs 90
def relayDatagramsPerSecond : Nat := 2000
def relayBytesPerHour : Nat := 2 * 1024 * 1024 * 1024
def frameRatePerSecond : Nat := 32
def frameRateBurst : Nat := 64
def keepalivePerSecond : Nat := 3
def frameTxQueueCap : Nat := 256
def seenWindow : Nat := fromSecs 120
def seenSetCap : Nat := 4096

end limits

/-- `now_ms`. The wall clock runs `epoch` nanoseconds ahead of the monotonic clock;
a clock before 1970 reads 0. -/
def nowMs (epoch : Int) (now : Nat) : UInt64 :=
  UInt64.ofNat (min (asMillis (epoch + now).toNat) (2 ^ 64 - 1))

/-- `u64::abs_diff`. -/
def absDiff (left right : UInt64) : UInt64 := if left < right then right - left else left - right

/-- `within_freshness_window`. -/
def withinFreshnessWindow (sentMs nowMs : UInt64) : Bool :=
  absDiff nowMs sentMs ≤ UInt64.ofNat (asMillis limits.seenWindow)

/-- `a <= b` on byte arrays. -/
def bytesLe (left right : Bytes32) : Bool := decide (left.toList ≤ right.toList)

/-- `b"mosschat-gate-pair-v1"`. -/
def pairDomain : Bytes := "mosschat-gate-pair-v1".toUTF8.toList

/-- `pair_tag`. -/
def pairTag (crypto : Crypto) (community a b : Bytes32) : Bytes32 :=
  let (lo, hi) := if bytesLe a b then (a, b) else (b, a)
  crypto.blake3 (pairDomain ++ community.toList ++ lo.toList ++ hi.toList)

/-! ## Rate limits -/

/-- The operations of `f64` the limiters use. No result depends on a law of theirs. -/
class F64 (F : Type) where
  /-- `f64::from`, and `as f64` of a count. -/
  ofNat : Nat → F
  /-- `Duration::as_secs_f64`. -/
  asSecs : Nat → F
  add : F → F → F
  sub : F → F → F
  mul : F → F → F
  div : F → F → F
  min : F → F → F
  /-- `left >= right`. -/
  ge : F → F → Bool
  /-- `floor() as usize`. -/
  floor : F → Nat

/-- Rates in whole numbers, for the runs on fixed inputs. -/
instance : F64 Nat where
  ofNat count := count
  asSecs duration := duration / 10 ^ 9
  add := Nat.add
  sub := Nat.sub
  mul := Nat.mul
  div := Nat.div
  min := Nat.min
  ge left right := decide (right ≤ left)
  floor number := number

/-- `RateLimiter`. -/
structure RateLimiter (F : Type) where
  capacity : F
  tokens : F
  refillPerS : F
  last : Nat

namespace RateLimiter

variable {F : Type} [F64 F]

/-- `RateLimiter::per_minute`. -/
def perMinute (burst perMinute now : Nat) : RateLimiter F :=
  ⟨F64.ofNat burst, F64.ofNat burst, F64.div (F64.ofNat perMinute) (F64.ofNat 60), now⟩

/-- `RateLimiter::per_hour`. -/
def perHour (burst perHour now : Nat) : RateLimiter F :=
  ⟨F64.ofNat burst, F64.ofNat burst, F64.div (F64.ofNat perHour) (F64.ofNat 3600), now⟩

/-- `RateLimiter::per_second`. -/
def perSecond (burst perSecond now : Nat) : RateLimiter F :=
  ⟨F64.ofNat burst, F64.ofNat burst, F64.ofNat perSecond, now⟩

/-- `RateLimiter::capacity_per_hour`. -/
def capacityPerHour (capacity : F) (now : Nat) : RateLimiter F :=
  ⟨capacity, capacity, F64.div capacity (F64.ofNat 3600), now⟩

/-- `RateLimiter::try_take_n`. The refill is kept also where the amount is refused. -/
def tryTakeN (limiter : RateLimiter F) (amount : F) (now : Nat) : RateLimiter F × Bool :=
  let elapsed := F64.asSecs (now - limiter.last)
  let tokens := F64.min (F64.add limiter.tokens (F64.mul elapsed limiter.refillPerS))
    limiter.capacity
  if F64.ge tokens amount then
    ({ limiter with last := now, tokens := F64.sub tokens amount }, true)
  else ({ limiter with last := now, tokens := tokens }, false)

/-- `RateLimiter::try_take`. -/
def tryTake (limiter : RateLimiter F) (now : Nat) : RateLimiter F × Bool :=
  limiter.tryTakeN (F64.ofNat 1) now

end RateLimiter

/-! ## The seen set -/

/-- `SeenSet`: when each accepted seal was recorded, under 16 bytes of its digest. -/
structure SeenSet where
  entries : HashMap Bytes16 Nat

namespace SeenSet

/-- `SeenSet::new`. -/
def new : SeenSet := ⟨∅⟩

/-- The first 16 bytes of `blake3::hash(sealed)`. -/
def hash (crypto : Crypto) (sealedBytes : Bytes) : Bytes16 := (crypto.blake3 sealedBytes).take 16

/-- `SeenSet::sweep`, at the instant it reads. -/
def sweep (seen : SeenSet) (now : Nat) : SeenSet :=
  ⟨seen.entries.retain fun _ inserted => now - inserted < limits.seenWindow⟩

/-- `SeenSet::accept`. The sweep and the insertion read the clock each on its own. -/
def accept (crypto : Crypto) (seen : SeenSet) (sealedBytes : Bytes) (sweptAt insertedAt : Nat) :
    SeenSet × Bool :=
  let seen := seen.sweep sweptAt
  let hash := hash crypto sealedBytes
  if (seen.entries.lookup hash).isSome then (seen, false)
  else if limits.seenSetCap ≤ seen.entries.entries.length then (seen, false)
  else (⟨seen.entries.put hash insertedAt⟩, true)

end SeenSet

/-! ## The clocks and the window -/

theorem nowMs_toNat (epoch : Int) (now : Nat) :
    (nowMs epoch now).toNat = min (asMillis (epoch + now).toNat) (2 ^ 64 - 1) := by
  rw [nowMs, UInt64.toNat_ofNat']
  exact Nat.mod_eq_of_lt (by omega)

/-- The wall clock never goes back. -/
theorem nowMs_mono (epoch : Int) {earlier later : Nat} (ordered : earlier ≤ later) :
    (nowMs epoch earlier).toNat ≤ (nowMs epoch later).toNat := by
  rw [nowMs_toNat, nowMs_toNat]
  have inOrder : (epoch + earlier).toNat ≤ (epoch + later).toNat := by omega
  have inMillis : asMillis (epoch + earlier).toNat ≤
      asMillis (epoch + later).toNat := Nat.div_le_div_right inOrder
  omega

theorem absDiff_toNat (left right : UInt64) :
    (absDiff left right).toNat = max left.toNat right.toNat - min left.toNat right.toNat := by
  unfold absDiff
  split
  · next below =>
      have ordered : left.toNat < right.toNat := below
      rw [UInt64.toNat_sub_of_le _ _ (Nat.le_of_lt ordered)]
      omega
  · next notBelow =>
      have ordered : right.toNat ≤ left.toNat := Nat.le_of_not_lt notBelow
      rw [UInt64.toNat_sub_of_le _ _ ordered]
      omega

/-- The freshness window is two-sided and closed at both ends. -/
theorem withinFreshnessWindow_iff (sentMs nowMs : UInt64) :
    withinFreshnessWindow sentMs nowMs = true ↔
      nowMs.toNat ≤ sentMs.toNat + 120000 ∧ sentMs.toNat ≤ nowMs.toNat + 120000 := by
  have width : (UInt64.ofNat (asMillis limits.seenWindow)).toNat = 120000 := by decide
  rw [withinFreshnessWindow, decide_eq_true_iff, UInt64.le_iff_toNat_le, absDiff_toNat, width]
  omega

/-- A seal that was fresh once and is stale at a later instant stays stale. -/
theorem stale_of_stale {epoch : Int} {sentMs : UInt64} {opened stale later : Nat}
    (fresh : withinFreshnessWindow sentMs (nowMs epoch opened) = true)
    (isStale : withinFreshnessWindow sentMs (nowMs epoch stale) = false)
    (first : opened ≤ stale) (second : stale ≤ later) :
    withinFreshnessWindow sentMs (nowMs epoch later) = false := by
  rw [withinFreshnessWindow_iff] at fresh
  rw [Bool.eq_false_iff, Ne, withinFreshnessWindow_iff] at isStale ⊢
  have afterOpened := nowMs_mono epoch first
  have afterStale := nowMs_mono epoch second
  omega

namespace SeenSet

/-- The seal was recorded less than a window before `now`. -/
def Holds (crypto : Crypto) (seen : SeenSet) (sealedBytes : Bytes) (now : Nat) : Prop :=
  ∃ inserted, seen.entries.lookup (hash crypto sealedBytes) = some inserted ∧
    now - inserted < limits.seenWindow

theorem lookup_sweep (seen : SeenSet) (now : Nat) (digest : Bytes16) (inserted : Nat) :
    (seen.sweep now).entries.lookup digest = some inserted ↔
      seen.entries.lookup digest = some inserted ∧ now - inserted < limits.seenWindow := by
  show (seen.entries.retain _).lookup digest = _ ↔ _
  rw [HashMap.lookup_retain_eq_some, decide_eq_true_iff]

/-- A seal the set holds is refused. -/
theorem accept_of_holds {crypto : Crypto} {seen : SeenSet} {sealedBytes : Bytes}
    {sweptAt insertedAt : Nat} (held : seen.Holds crypto sealedBytes sweptAt) :
    (seen.accept crypto sealedBytes sweptAt insertedAt).2 = false := by
  obtain ⟨inserted, found, recent⟩ := held
  have kept := (lookup_sweep seen sweptAt _ inserted).mpr ⟨found, recent⟩
  rw [accept, kept]
  rfl

/-- Another acceptance leaves a seal held for as long as it was. -/
theorem holds_accept {crypto : Crypto} {seen : SeenSet} {sealedBytes other : Bytes}
    {sweptAt insertedAt now : Nat} (ordered : sweptAt ≤ now)
    (held : seen.Holds crypto sealedBytes now) :
    (seen.accept crypto other sweptAt insertedAt).1.Holds crypto sealedBytes now := by
  obtain ⟨inserted, found, recent⟩ := held
  have recentThen : sweptAt - inserted < limits.seenWindow := by omega
  have kept := (lookup_sweep seen sweptAt _ inserted).mpr ⟨found, recentThen⟩
  refine ⟨inserted, ?_, recent⟩
  rw [accept]
  split_ifs with known full
  · exact kept
  · exact kept
  · have apart : hash crypto sealedBytes ≠ hash crypto other := by
      intro same
      rw [← same, kept] at known
      exact known rfl
    rw [HashMap.lookup_put, if_neg apart]
    exact kept

/-- An accepted seal is recorded at the instant of its insertion. -/
theorem lookup_accepted {crypto : Crypto} {seen : SeenSet} {sealedBytes : Bytes}
    {sweptAt insertedAt : Nat}
    (accepted : (seen.accept crypto sealedBytes sweptAt insertedAt).2 = true) :
    (seen.accept crypto sealedBytes sweptAt insertedAt).1.entries.lookup (hash crypto sealedBytes) =
      some insertedAt := by
  rw [accept] at accepted ⊢
  split_ifs at accepted ⊢
  rw [HashMap.lookup_put, if_pos rfl]

/-- Every entry was recorded no later than `now`. -/
def RecordedBy (seen : SeenSet) (now : Nat) : Prop :=
  ∀ digest inserted, seen.entries.lookup digest = some inserted → inserted ≤ now

theorem recordedBy_accept {crypto : Crypto} {seen : SeenSet} {sealedBytes : Bytes}
    {sweptAt insertedAt now : Nat} (before : seen.RecordedBy now) (ordered : now ≤ insertedAt) :
    (seen.accept crypto sealedBytes sweptAt insertedAt).1.RecordedBy insertedAt := by
  have swept : (seen.sweep sweptAt).RecordedBy insertedAt := by
    intro digest inserted found
    have inSet := ((lookup_sweep seen sweptAt digest inserted).mp found).1
    exact (before digest inserted inSet).trans ordered
  rw [accept]
  split_ifs with known full
  · exact swept
  · exact swept
  · intro digest inserted found
    rw [HashMap.lookup_put] at found
    split_ifs at found with isHash
    · cases found
      exact Nat.le_refl _
    · exact swept digest inserted found

/-- A window after the last recording the set forgets everything, so it accepts. -/
theorem accept_of_recordedBy {crypto : Crypto} {seen : SeenSet} {sealedBytes : Bytes}
    {sweptAt insertedAt now : Nat} (before : seen.RecordedBy now)
    (elapsed : now + limits.seenWindow ≤ sweptAt) :
    (seen.accept crypto sealedBytes sweptAt insertedAt).2 = true := by
  have forgotten : ∀ digest, (seen.sweep sweptAt).entries.lookup digest = none := by
    intro digest
    rw [Option.eq_none_iff_forall_ne_some]
    intro inserted found
    obtain ⟨inSet, recent⟩ := (lookup_sweep seen sweptAt digest inserted).mp found
    have recorded := before digest inserted inSet
    omega
  have empty : (seen.sweep sweptAt).entries.entries = [] := by
    apply List.eq_nil_iff_forall_not_mem.mpr
    intro entry member
    have found := AList.mem_lookup_iff.mpr member
    rw [forgotten] at found
    cases found
  rw [accept, forgotten, empty]
  rfl

end SeenSet

end Mosschat.Net.Gate
