import Mosschat.Net.Discovery.Soundness

/-!
Owns what an announce spends: the datagrams whose announce the per-key gap lets through,
how far apart two of one key are while no key is forgotten inside its gap, and the flood
of friends that makes the limiter forget one.

Does not own the replay guard, which runs after the gap.
-/

namespace Mosschat.Net

open Mosschat.Core Mosschat.Library Mosschat.Library.Cbor Mosschat.Library.Machine

/-- The announce of the datagram passes every check before the per-key gap, and the gap. -/
structure Spends (crypto : Crypto) (discovery : Discovery) (datagram : Datagram) : Prop where
  packet : (discovery.limiter.admitPacket datagram.now).2 = true
  parsed : Announce.parseUnverified datagram.bytes discovery.community
    (fun key => key == discovery.ownKey || datagram.isFriend key) =
      .ok (Announce.ofFrame datagram.bytes)
  notOurs : (Announce.ofFrame datagram.bytes).key ≠ discovery.ownKey
  signed : (Announce.ofFrame datagram.bytes).verifySignature crypto datagram.bytes = .ok ()
  quiet : ((discovery.limiter.admitPacket datagram.now).1.admitKey
    (Announce.ofFrame datagram.bytes).key datagram.now).2 = true

namespace Listener

/-- The announces `admit_key` lets through, with the times it did. -/
def letThrough (crypto : Crypto) (listener : Listener) (datagram : Datagram) :
    List (Bytes32 × Nat) :=
  let discovery := listener.discovery
  let packet := discovery.limiter.admitPacket datagram.now
  if !packet.2 then []
  else
    let known := fun key => key == discovery.ownKey || datagram.isFriend key
    match Announce.parseUnverified datagram.bytes discovery.community known with
    | .error _ => []
    | .ok announce =>
      if announce.key = discovery.ownKey then []
      else
        match announce.verifySignature crypto datagram.bytes with
        | .error _ => []
        | .ok () =>
          if (packet.1.admitKey announce.key datagram.now).2 then [(announce.key, datagram.now)]
          else []

end Listener

/-- The keys the limiter forgets when it records this one. -/
def ReceiveLimiter.pushedOut (limiter : ReceiveLimiter) (key : Bytes32) : List Bytes32 :=
  match limiter.lastFrom.lookup key with
  | some _ => []
  | none => limiter.order.take (limiter.order.length + 1 - dedupeKeysRemembered)

/-- The limiter's queue holds the keys whose times it holds. -/
def ReceiveLimiter.Queued (limiter : ReceiveLimiter) : Prop :=
  Fifo.Queued limiter.order limiter.lastFrom

/-- The keys the limiter forgets for this datagram have been quiet for a gap. -/
def Listener.Outlasts (crypto : Crypto) (listener : Listener) (datagram : Datagram) : Prop :=
  Spends crypto listener.discovery datagram →
    ∀ key ∈ listener.discovery.limiter.pushedOut (Announce.ofFrame datagram.bytes).key,
      ∀ last, listener.discovery.limiter.lastFrom.lookup key = some last →
        last + announcePerKeyGap ≤ datagram.now

/-- Two announces of one key are a gap apart. -/
def Spaced (announces : List (Bytes32 × Nat)) : Prop :=
  announces.Pairwise fun earlier later =>
    earlier.1 = later.1 → earlier.2 + announcePerKeyGap ≤ later.2

/-! ## What one datagram does to the limiter -/

/-- The state of an announce the gap let through. -/
def Discovery.spend (discovery : Discovery) (datagram : Datagram) : Discovery :=
  { discovery with
    limiter := (discovery.limiter.admitPacket datagram.now).1.record
      (Announce.ofFrame datagram.bytes).key datagram.now }

/-- What a datagram has spent when it is answered. -/
inductive Judged (crypto : Crypto) (discovery : Discovery) (datagram : Datagram) :
    Discovery × Heard → Prop where
  | unspent (free : ¬Spends crypto discovery datagram) (reason : AnnounceError) :
      Judged crypto discovery datagram
        (Discovery.dropWith
          { discovery with limiter := (discovery.limiter.admitPacket datagram.now).1 } reason)
  | refused (spends : Spends crypto discovery datagram) (reason : AnnounceError) :
      Judged crypto discovery datagram ((discovery.spend datagram).dropWith reason)
  | admitted (spends : Spends crypto discovery datagram) :
      Judged crypto discovery datagram
        (Discovery.handOff
          { discovery.spend datagram with
            replay := discovery.replay.remember (Announce.ofFrame datagram.bytes).triple }
          (Announce.ofFrame datagram.bytes) datagram.source datagram.now)

theorem admitKey_of_not_soon {limiter : ReceiveLimiter} {key : Bytes32} {now : Nat}
    (notSoon : limiter.tooSoon key now = false) :
    limiter.admitKey key now = (limiter.record key now, true) := by
  unfold ReceiveLimiter.admitKey
  rw [notSoon]
  rfl

theorem admitKey_of_soon {limiter : ReceiveLimiter} {key : Bytes32} {now : Nat}
    (soon : limiter.tooSoon key now = true) : limiter.admitKey key now = (limiter, false) := by
  unfold ReceiveLimiter.admitKey
  rw [if_pos soon]

theorem Spends.notSoon {crypto : Crypto} {discovery : Discovery} {datagram : Datagram}
    (spends : Spends crypto discovery datagram) :
    (discovery.limiter.admitPacket datagram.now).1.tooSoon (Announce.ofFrame datagram.bytes).key
      datagram.now = false :=
  notSoon_of_admitKey spends.quiet

/-- An announce is dropped before it has spent anything, or goes on to the replay guard. -/
theorem judged_onDatagram (crypto : Crypto) (discovery : Discovery) (datagram : Datagram) :
    Judged crypto discovery datagram
      (discovery.onDatagram crypto datagram.bytes datagram.source datagram.now datagram.nowUnix
        datagram.isFriend) := by
  unfold Discovery.onDatagram
  simp only
  split
  next exceeded =>
    apply Judged.unspent
    intro spends
    rw [spends.packet] at exceeded
    cases exceeded
  next packet =>
  split
  next reason refused =>
    apply Judged.unspent
    intro spends
    rw [spends.parsed] at refused
    cases refused
  next announce parsed =>
  have isFrame := parseUnverified_ok parsed
  subst isFrame
  split
  next ours =>
    apply Judged.unspent
    intro spends
    exact spends.notOurs ours
  next notOurs =>
  split
  next reason unsigned =>
    apply Judged.unspent
    intro spends
    rw [spends.signed] at unsigned
    cases unsigned
  next signed =>
  cases soon : (discovery.limiter.admitPacket datagram.now).1.tooSoon
      (Announce.ofFrame datagram.bytes).key datagram.now with
  | true =>
      rw [admitKey_of_soon soon]
      apply Judged.unspent
      intro spends
      rw [spends.notSoon] at soon
      cases soon
  | false =>
      have spends : Spends crypto discovery datagram :=
        { packet := by simpa using packet
          parsed := parsed
          notOurs := notOurs
          signed := signed
          quiet := by rw [admitKey_of_not_soon soon] }
      rw [admitKey_of_not_soon soon]
      unfold ReplayGuard.admitAnnounce
      simp only [Bool.not_true, Bool.false_eq_true, if_false]
      split_ifs
      · exact .refused spends _
      · exact .refused spends _
      · exact .admitted spends

/-- A datagram leaves what it was told in passing: a new window for the ceiling, and the
time of the key if it spent the gap. -/
theorem limiter_step (crypto : Crypto) (listener : Listener) (datagram : Datagram) :
    ¬Spends crypto listener.discovery datagram ∧
        (listener.step crypto datagram).discovery.limiter =
          (listener.discovery.limiter.admitPacket datagram.now).1 ∨
      Spends crypto listener.discovery datagram ∧
        (listener.step crypto datagram).discovery.limiter =
          (listener.discovery.limiter.admitPacket datagram.now).1.record
            (Announce.ofFrame datagram.bytes).key datagram.now := by
  have judged := judged_onDatagram crypto listener.discovery datagram
  show _ ∧ (listener.hear crypto datagram).1.limiter = _ ∨
    _ ∧ (listener.hear crypto datagram).1.limiter = _
  change Judged crypto listener.discovery datagram (listener.hear crypto datagram) at judged
  generalize listener.hear crypto datagram = result at judged ⊢
  cases judged with
  | unspent free reason => exact Or.inl ⟨free, rfl⟩
  | refused spends reason => exact Or.inr ⟨spends, rfl⟩
  | admitted spends =>
      obtain ⟨cache, counters, after⟩ := handOff_fst
        { listener.discovery.spend datagram with
          replay := listener.discovery.replay.remember (Announce.ofFrame datagram.bytes).triple }
        (Announce.ofFrame datagram.bytes) datagram.source datagram.now
      rw [after]
      exact Or.inr ⟨spends, rfl⟩

/-- What is let through is the announce that spends the gap, or nothing. -/
theorem letThrough_cases (crypto : Crypto) (listener : Listener) (datagram : Datagram) :
    ¬Spends crypto listener.discovery datagram ∧ listener.letThrough crypto datagram = [] ∨
      Spends crypto listener.discovery datagram ∧
        listener.letThrough crypto datagram =
          [((Announce.ofFrame datagram.bytes).key, datagram.now)] := by
  unfold Listener.letThrough
  simp only
  split
  next exceeded =>
    refine Or.inl ⟨?_, rfl⟩
    intro spends
    rw [spends.packet] at exceeded
    cases exceeded
  next packet =>
  split
  next reason refused =>
    refine Or.inl ⟨?_, rfl⟩
    intro spends
    rw [spends.parsed] at refused
    cases refused
  next announce parsed =>
  have isFrame := parseUnverified_ok parsed
  subst isFrame
  split
  next ours => exact Or.inl ⟨fun spends => spends.notOurs ours, rfl⟩
  next notOurs =>
  split
  next reason unsigned =>
    refine Or.inl ⟨?_, rfl⟩
    intro spends
    rw [spends.signed] at unsigned
    cases unsigned
  next signed =>
  split
  next quiet =>
    refine Or.inr ⟨?_, rfl⟩
    exact
      { packet := by simpa using packet
        parsed := parsed
        notOurs := notOurs
        signed := signed
        quiet := quiet }
  next soon => exact Or.inl ⟨fun spends => soon spends.quiet, rfl⟩

/-! ## What the limiter holds -/

/-- The ceiling has its own part of the limiter. -/
theorem admitPacket_keys (limiter : ReceiveLimiter) (now : Nat) :
    (limiter.admitPacket now).1.lastFrom = limiter.lastFrom ∧
      (limiter.admitPacket now).1.order = limiter.order := by
  unfold ReceiveLimiter.admitPacket
  simp only
  split <;> split <;> exact ⟨rfl, rfl⟩

theorem ReceiveLimiter.queued_new (now : Nat) : (ReceiveLimiter.new now).Queued :=
  Fifo.queued_empty

theorem ReceiveLimiter.Queued.admitPacket {limiter : ReceiveLimiter} (queued : limiter.Queued)
    (now : Nat) : (limiter.admitPacket now).1.Queued := by
  obtain ⟨lastFrom, order⟩ := admitPacket_keys limiter now
  unfold ReceiveLimiter.Queued
  rw [lastFrom, order]
  exact queued

theorem ReceiveLimiter.Queued.record {limiter : ReceiveLimiter} (queued : limiter.Queued)
    (key : Bytes32) (now : Nat) : (limiter.record key now).Queued := by
  unfold ReceiveLimiter.record
  simp only
  split
  · next before found => exact Fifo.Queued.refresh queued found now
  · next vacant => exact (Fifo.Queued.push queued vacant now).evict

theorem pushedOut_of_held {limiter : ReceiveLimiter} {key : Bytes32} {before : Nat}
    (found : limiter.lastFrom.lookup key = some before) : limiter.pushedOut key = [] := by
  rw [ReceiveLimiter.pushedOut, found]

/-- What is pushed out for a key is the front of the queue it joins. -/
theorem pushedOut_of_new {limiter : ReceiveLimiter} {key : Bytes32}
    (vacant : limiter.lastFrom.lookup key = none) :
    limiter.pushedOut key =
      (limiter.order ++ [key]).take ((limiter.order ++ [key]).length - dedupeKeysRemembered) := by
  have inside : limiter.order.length + 1 - dedupeKeysRemembered ≤ limiter.order.length := by
    have cap : dedupeKeysRemembered = 512 := rfl
    omega
  rw [ReceiveLimiter.pushedOut, vacant, List.length_append, List.length_singleton,
    List.take_append_of_le_length inside]

theorem lastFrom_record_of_held {limiter : ReceiveLimiter} {key : Bytes32} {before : Nat}
    (found : limiter.lastFrom.lookup key = some before) (now : Nat) :
    (limiter.record key now).lastFrom = limiter.lastFrom.put key now := by
  rw [ReceiveLimiter.record, found]

theorem lastFrom_record_of_new {limiter : ReceiveLimiter} {key : Bytes32}
    (vacant : limiter.lastFrom.lookup key = none) (now : Nat) :
    (limiter.record key now).lastFrom =
      (Fifo.evict dedupeKeysRemembered (limiter.order ++ [key])
        (limiter.lastFrom.put key now)).2 := by
  rw [ReceiveLimiter.record, vacant]

/-- What the limiter holds after it records a key. -/
theorem lookup_record_kept {limiter : ReceiveLimiter} {key other : Bytes32} {now : Nat}
    (kept : other ∉ limiter.pushedOut key) :
    (limiter.record key now).lastFrom.lookup other =
      if other = key then some now else limiter.lastFrom.lookup other := by
  rw [← HashMap.lookup_put]
  cases found : limiter.lastFrom.lookup key with
  | some before => rw [lastFrom_record_of_held found]
  | none =>
      rw [pushedOut_of_new found] at kept
      rw [lastFrom_record_of_new found]
      exact Fifo.lookup_evict kept

/-- A key that is pushed out is forgotten. -/
theorem lookup_record_pushed {limiter : ReceiveLimiter} {key other : Bytes32} (now : Nat)
    (pushed : other ∈ limiter.pushedOut key) :
    (limiter.record key now).lastFrom.lookup other = none := by
  cases found : limiter.lastFrom.lookup key with
  | some before =>
      rw [pushedOut_of_held found] at pushed
      cases pushed
  | none =>
      rw [pushedOut_of_new found] at pushed
      rw [lastFrom_record_of_new found]
      exact Fifo.lookup_evict_of_mem pushed

/-- A key is not pushed out by its own announce. -/
theorem not_mem_pushedOut {limiter : ReceiveLimiter} (queued : limiter.Queued) (key : Bytes32) :
    key ∉ limiter.pushedOut key := by
  unfold ReceiveLimiter.pushedOut
  split
  · exact List.not_mem_nil
  · next vacant =>
      intro inside
      exact queued.not_mem vacant (List.mem_of_mem_take inside)

theorem pushedOut_admitPacket (limiter : ReceiveLimiter) (now : Nat) (key : Bytes32) :
    (limiter.admitPacket now).1.pushedOut key = limiter.pushedOut key := by
  obtain ⟨lastFrom, order⟩ := admitPacket_keys limiter now
  unfold ReceiveLimiter.pushedOut
  rw [lastFrom, order]

/-- What the limiter holds after an announce it let through. -/
theorem lookup_spend {limiter : ReceiveLimiter} {key other : Bytes32} (now : Nat)
    (kept : other ∉ limiter.pushedOut key) :
    ((limiter.admitPacket now).1.record key now).lastFrom.lookup other =
      if other = key then some now else limiter.lastFrom.lookup other := by
  rw [← pushedOut_admitPacket limiter now] at kept
  rw [lookup_record_kept kept, (admitPacket_keys limiter now).1]

theorem queued_step {crypto : Crypto} {listener : Listener} (datagram : Datagram)
    (queued : listener.discovery.limiter.Queued) :
    (listener.step crypto datagram).discovery.limiter.Queued := by
  rcases limiter_step crypto listener datagram with ⟨-, after⟩ | ⟨-, after⟩
  · rw [after]
    exact queued.admitPacket datagram.now
  · rw [after]
    exact (queued.admitPacket datagram.now).record _ _

theorem queued_run {crypto : Crypto} {listener : Listener}
    (queued : listener.discovery.limiter.Queued) (datagrams : List Datagram) :
    (run (Listener.step crypto) listener datagrams).discovery.limiter.Queued := by
  induction datagrams generalizing listener with
  | nil => exact queued
  | cons datagram rest ih =>
      exact ih (queued_step datagram queued)

/-! ## Two announces of one key -/

/-- The announce was a gap ago, or the limiter holds a time of its key no earlier. -/
def Listener.Recalls (listener : Listener) (entry : Bytes32 × Nat) : Prop :=
  entry.2 + announcePerKeyGap ≤ listener.now ∨
    ∃ last, listener.discovery.limiter.lastFrom.lookup entry.1 = some last ∧ entry.2 ≤ last

/-- What the limiter knows of the announces it has let through so far. -/
structure Listener.Accounts (listener : Listener) (announces : List (Bytes32 × Nat)) : Prop where
  queued : listener.discovery.limiter.Queued
  spaced : Spaced announces
  recalls : ∀ entry ∈ announces, listener.Recalls entry

/-- An announce the gap lets through comes a gap after the last one of its key. -/
theorem Listener.Recalls.gap {crypto : Crypto} {listener : Listener} {datagram : Datagram}
    {entry : Bytes32 × Nat} (recalls : listener.Recalls entry)
    (forward : listener.now ≤ datagram.now) (spends : Spends crypto listener.discovery datagram)
    (sameKey : entry.1 = (Announce.ofFrame datagram.bytes).key) :
    entry.2 + announcePerKeyGap ≤ datagram.now := by
  rcases recalls with past | ⟨last, found, since⟩
  · exact past.trans forward
  · have notSoon := spends.notSoon
    unfold ReceiveLimiter.tooSoon at notSoon
    rw [(admitPacket_keys _ _).1, ← sameKey, found] at notSoon
    have longAgo := of_decide_eq_false notSoon
    have gap : announcePerKeyGap = 10 * 10 ^ 9 := rfl
    omega

/-- An announce the limiter recalls is recalled after the next datagram, if the keys
forgotten for it have been quiet for a gap. -/
theorem Listener.Recalls.step {crypto : Crypto} {listener : Listener} {datagram : Datagram}
    {entry : Bytes32 × Nat} (recalls : listener.Recalls entry)
    (forward : listener.now ≤ datagram.now) (outlasts : listener.Outlasts crypto datagram) :
    (listener.step crypto datagram).Recalls entry := by
  rcases recalls with past | ⟨last, found, since⟩
  · exact Or.inl (past.trans forward)
  rcases limiter_step crypto listener datagram with ⟨-, after⟩ | ⟨spends, after⟩
  · refine Or.inr ⟨last, ?_, since⟩
    rw [after, (admitPacket_keys _ _).1]
    exact found
  by_cases pushed : entry.1 ∈
      listener.discovery.limiter.pushedOut (Announce.ofFrame datagram.bytes).key
  · have quiet := outlasts spends entry.1 pushed last found
    exact Or.inl ((Nat.add_le_add_right since _).trans quiet)
  · have lookup := lookup_spend datagram.now pushed
    by_cases sameKey : entry.1 = (Announce.ofFrame datagram.bytes).key
    · have gap := Recalls.gap (Or.inr ⟨last, found, since⟩) forward spends sameKey
      exact Or.inl gap
    · refine Or.inr ⟨last, ?_, since⟩
      rw [after, lookup, if_neg sameKey]
      exact found

theorem Listener.Accounts.step {crypto : Crypto} {listener : Listener} {datagram : Datagram}
    {announces : List (Bytes32 × Nat)} (accounts : listener.Accounts announces)
    (forward : listener.now ≤ datagram.now) (outlasts : listener.Outlasts crypto datagram) :
    (listener.step crypto datagram).Accounts
      (announces ++ listener.letThrough crypto datagram) := by
  have recalls : ∀ entry ∈ announces, (listener.step crypto datagram).Recalls entry := by
    intro entry inside
    exact (accounts.recalls entry inside).step forward outlasts
  have queued : (listener.step crypto datagram).discovery.limiter.Queued :=
    queued_step datagram accounts.queued
  rcases letThrough_cases crypto listener datagram with ⟨-, nothing⟩ | ⟨spends, given⟩
  · rw [nothing, List.append_nil]
    exact ⟨queued, accounts.spaced, recalls⟩
  rw [given]
  constructor
  · exact queued
  · unfold Spaced
    rw [List.pairwise_append]
    refine ⟨accounts.spaced, List.pairwise_singleton _ _, ?_⟩
    intro entry inside new isNew sameKey
    rw [List.mem_singleton] at isNew
    subst isNew
    exact (accounts.recalls entry inside).gap forward spends sameKey
  · intro entry inside
    rw [List.mem_append, List.mem_singleton] at inside
    rcases inside with earlier | isNew
    · exact recalls entry earlier
    · rcases limiter_step crypto listener datagram with ⟨free, -⟩ | ⟨-, after⟩
      · exact absurd spends free
      · refine Or.inr ⟨datagram.now, ?_, ?_⟩
        · rw [after, isNew, lookup_spend _ (not_mem_pushedOut accounts.queued _),
            if_pos rfl]
        · rw [isNew]

/-- A house that has heard nothing yet. -/
def Listener.new (community ownKey : Bytes32) (now : Nat) (nowUnix : UInt64) : Listener :=
  ⟨.new community ownKey now, now, nowUnix⟩

/-- While no key is forgotten inside its gap, two announces of one key that the gap lets
through are a gap apart. -/
theorem announces_spaced {crypto : Crypto} {community ownKey : Bytes32} {started : Nat}
    {startedUnix : UInt64} {datagrams : List Datagram}
    (outlasts : Guarded (Listener.step crypto)
      (fun listener datagram => listener.now ≤ datagram.now ∧ listener.Outlasts crypto datagram)
      (.new community ownKey started startedUnix) datagrams) :
    Spaced (outputs (Listener.step crypto) (Listener.letThrough crypto)
      (.new community ownKey started startedUnix) datagrams) := by
  have initial : (Listener.new community ownKey started startedUnix).Accounts [] := by
    constructor
    · exact ReceiveLimiter.queued_new started
    · exact List.Pairwise.nil
    · intro entry inside
      cases inside
  have accounts := guarded_outputs
    (fun listener datagram announces guard (before : listener.Accounts announces) =>
      before.step guard.1 guard.2)
    initial outlasts
  exact accounts.spaced

/-! ### While there is room -/

theorem length_order_record (limiter : ReceiveLimiter) (key : Bytes32) (now : Nat) :
    (limiter.record key now).order.length ≤ limiter.order.length + 1 := by
  unfold ReceiveLimiter.record
  simp only
  split
  · exact Nat.le_succ _
  · refine (Fifo.length_evict_le _ _ _).trans ?_
    rw [List.length_append]
    exact Nat.le_refl _

/-- A datagram adds one key at most. -/
theorem length_order_step (crypto : Crypto) (listener : Listener) (datagram : Datagram) :
    (listener.step crypto datagram).discovery.limiter.order.length ≤
      listener.discovery.limiter.order.length + 1 := by
  have sameOrder := (admitPacket_keys listener.discovery.limiter datagram.now).2
  rcases limiter_step crypto listener datagram with ⟨-, after⟩ | ⟨-, after⟩
  · rw [after, sameOrder]
    exact Nat.le_succ _
  · rw [after, ← sameOrder]
    exact length_order_record _ _ _

/-- While there is room for one more key, none is forgotten. -/
theorem outlasts_of_room {crypto : Crypto} {listener : Listener} (datagram : Datagram)
    (room : listener.discovery.limiter.order.length < dedupeKeysRemembered) :
    listener.Outlasts crypto datagram := by
  intro spends key pushed
  unfold ReceiveLimiter.pushedOut at pushed
  split at pushed
  · cases pushed
  · have none : listener.discovery.limiter.order.length + 1 - dedupeKeysRemembered = 0 := by
      omega
    rw [none, List.take_zero] at pushed
    cases pushed

/-- A friend announces twice, ten seconds apart. -/
theorem announces_spaced_twice :
    Spaced (outputs (Listener.step trustingCrypto) (Listener.letThrough trustingCrypto)
      (.new zero32 zero32 0 1700000000)
      [lanFlood.datagram 0 0, lanFlood.datagram 0 announcePerKeyGap]) := by
  apply announces_spaced
  refine ⟨⟨Nat.zero_le _, outlasts_of_room _ (by decide)⟩, ⟨Nat.zero_le _, ?_⟩, trivial⟩
  apply outlasts_of_room
  refine Nat.lt_of_le_of_lt (length_order_step _ _ _) ?_
  decide

/-! ## More friends than the limiter remembers -/

namespace Flood

/-- The ceiling is not reached by the next datagram. -/
structure Unhurried (count : Nat) (limiter : ReceiveLimiter) : Prop where
  started : limiter.windowStart ≤ floodClock count
  pace : limiter.inWindow * floodGap ≤ floodClock count - limiter.windowStart

section Run

variable {crypto : Crypto} {flood : Flood}

/-- Whatever datagram is heard at its time, the next one will not reach the ceiling. -/
theorem Unhurried.step {count : Nat} {listener : Listener} {datagram : Datagram}
    (unhurried : Unhurried count listener.discovery.limiter)
    (onTime : datagram.now = floodClock count) :
    Unhurried (count + 1) (listener.step crypto datagram).discovery.limiter := by
  obtain ⟨-, -, started, pace⟩ := admitPacket_paced unhurried.started unhurried.pace
  have onward : floodClock count ≤ floodClock (count + 1) := by
    rw [floodClock_succ]
    omega
  have passed : Unhurried (count + 1)
      (listener.discovery.limiter.admitPacket (floodClock count)).1 :=
    ⟨started.trans onward, pace⟩
  rw [← onTime] at passed
  rcases limiter_step crypto listener datagram with ⟨-, after⟩ | ⟨-, after⟩
  · rw [after]
    exact passed
  · have window := record_window (listener.discovery.limiter.admitPacket datagram.now).1
      (Announce.ofFrame datagram.bytes).key datagram.now
    rw [after]
    constructor
    · rw [window.1]
      exact passed.started
    · rw [window.1, window.2]
      exact passed.pace

/-- A friend who has been quiet for a gap spends it. -/
theorem spends_datagram {count index : Nat} {listener : Listener}
    (unhurried : Unhurried count listener.discovery.limiter)
    (community : listener.discovery.community = flood.community)
    (notOurs : flood.key index ≠ listener.discovery.ownKey)
    (signed : (flood.announce index).verifySignature crypto
      ((flood.announce index).encode (flood.sign index)) = .ok ())
    (quiet : ∀ last, listener.discovery.limiter.lastFrom.lookup (flood.key index) = some last →
      announcePerKeyGap ≤ floodClock count - last) :
    Spends crypto listener.discovery (flood.datagram index (floodClock count)) := by
  obtain ⟨packet, -, -, -⟩ := admitPacket_paced unhurried.started unhurried.pace
  constructor
  · exact packet
  · rw [ofFrame_datagram, community]
    apply Announce.parseUnverified_encode
    exact Bool.or_true _
  · rw [ofFrame_datagram]
    exact notOurs
  · rw [ofFrame_datagram]
    exact signed
  · rw [ofFrame_datagram]
    exact admitKey_paced unhurried.started unhurried.pace quiet

/-- Up to the cap the limiter queues the keys of the flood. -/
theorem Genuine.order (genuine : flood.Genuine crypto) (count : Nat)
    (bounded : count ≤ dedupeKeysRemembered) :
    (run (Listener.step crypto) flood.start (flood.wave count)).discovery.limiter.order =
      (List.range count).map flood.key := by
  have caps : dedupeKeysRemembered ≤ announceSeenRemembered := by decide
  induction count with
  | zero => rfl
  | succ count ih =>
      have within : count ≤ announceSeenRemembered := (Nat.le_of_succ_le bounded).trans caps
      have order := ih (Nat.le_of_succ_le bounded)
      obtain ⟨heard, remembered⟩ := genuine.heard count within
      have admits := genuine.admits_next heard.paced remembered within
      obtain ⟨cache, counters, after⟩ := step_of_admits admits
      have vacant : (run (Listener.step crypto) flood.start
          (flood.wave count)).discovery.limiter.lastFrom.lookup (flood.key count) = none := by
        rw [Option.eq_none_iff_forall_ne_some]
        intro last found
        obtain ⟨index, below, isKey, -⟩ := heard.paced.lastFrom _ last found
        have same := genuine.distinct count index within (below.le.trans within) isKey
        omega
      obtain ⟨sameTimes, sameOrder⟩ := admitPacket_keys (run (Listener.step crypto) flood.start
        (flood.wave count)).discovery.limiter (floodClock count)
      rw [wave_succ, run_concat, after]
      show (ReceiveLimiter.record _ (flood.key count) _).order = _
      unfold ReceiveLimiter.record
      simp only
      rw [sameTimes, vacant, sameOrder, order, List.range_succ, List.map_append]
      rw [Fifo.evict_of_le]
      · rfl
      · rw [List.length_append, List.length_map, List.length_range]
        exact bounded

end Run

end Flood

theorem spends_lan {sentUnix : UInt32} {count index : Nat} {listener : Listener}
    (unhurried : Flood.Unhurried count listener.discovery.limiter)
    (community : listener.discovery.community = zero32)
    (ownKey : listener.discovery.ownKey = zero32)
    (quiet : ∀ last, listener.discovery.limiter.lastFrom.lookup (lanFlood.key index) = some last →
      announcePerKeyGap ≤ floodClock count - last) :
    Spends trustingCrypto listener.discovery
      ((lanRemade sentUnix).datagram index (floodClock count)) := by
  apply Flood.spends_datagram unhurried community
  · rw [ownKey]
    exact lanFlood_genuine.notOurs index
  · exact Announce.verifySignature_encode rfl
  · exact quiet

theorem letThrough_of_spends {crypto : Crypto} {listener : Listener} {datagram : Datagram}
    (spends : Spends crypto listener.discovery datagram) :
    listener.letThrough crypto datagram =
      [((Announce.ofFrame datagram.bytes).key, datagram.now)] := by
  rcases letThrough_cases crypto listener datagram with ⟨free, -⟩ | ⟨-, given⟩
  · exact absurd spends free
  · exact given

theorem limiter_of_spends {crypto : Crypto} {listener : Listener} {datagram : Datagram}
    (spends : Spends crypto listener.discovery datagram) :
    (listener.step crypto datagram).discovery.limiter =
      (listener.discovery.limiter.admitPacket datagram.now).1.record
        (Announce.ofFrame datagram.bytes).key datagram.now := by
  rcases limiter_step crypto listener datagram with ⟨free, -⟩ | ⟨-, after⟩
  · exact absurd spends free
  · exact after

theorem Listener.step_fixed (crypto : Crypto) (listener : Listener) (datagram : Datagram) :
    (listener.step crypto datagram).discovery.community = listener.discovery.community ∧
      (listener.step crypto datagram).discovery.ownKey = listener.discovery.ownKey := by
  have fixed := Discovery.step_fixed crypto listener.discovery (.datagram datagram)
  exact ⟨fixed.1, fixed.2.1⟩

/-- What the limiter holds once the flood has filled it. -/
structure Filled (cap : Nat) (listener : Listener) : Prop where
  isCap : cap = dedupeKeysRemembered
  queued : listener.discovery.limiter.Queued
  order : listener.discovery.limiter.order = (List.range cap).map lanFlood.key
  paced : lanFlood.Paced cap listener

theorem lanFlood_filled {cap : Nat} (isCap : cap = dedupeKeysRemembered) :
    Filled cap (run (Listener.step trustingCrypto) lanFlood.start (lanFlood.wave cap)) := by
  have within : cap ≤ announceSeenRemembered := by
    rw [isCap]
    decide
  constructor
  · exact isCap
  · exact queued_run (ReceiveLimiter.queued_new 0) _
  · exact lanFlood_genuine.order cap (Nat.le_of_eq isCap)
  · exact (lanFlood_genuine.heard cap within).1.paced

section Squeeze

variable {cap : Nat} {listener : Listener}

/-- The first friend announces again. -/
theorem Filled.spends_first (filled : Filled cap listener) (sentUnix : UInt32) :
    Spends trustingCrypto listener.discovery
      ((lanRemade sentUnix).datagram 0 (floodClock cap)) := by
  have isCap : cap = 512 := filled.isCap
  have paced := filled.paced
  apply spends_lan ⟨paced.started, paced.pace⟩ paced.community paced.ownKey
  intro last found
  obtain ⟨index, below, isKey, isLast⟩ := paced.lastFrom _ last found
  have bounded : index ≤ announceSeenRemembered := by
    have cap : announceSeenRemembered = 4096 := rfl
    omega
  have isFirst := lanFlood_genuine.distinct 0 index (Nat.zero_le _) bounded isKey
  rw [isLast, ← isFirst, isCap]
  decide

/-- One more friend is new to the limiter. -/
theorem Filled.vacant (filled : Filled cap listener) :
    listener.discovery.limiter.lastFrom.lookup (lanFlood.key cap) = none := by
  have isCap : cap = 512 := filled.isCap
  have cap4096 : announceSeenRemembered = 4096 := rfl
  rw [Option.eq_none_iff_forall_ne_some]
  intro last found
  obtain ⟨index, below, isKey, -⟩ := filled.paced.lastFrom _ last found
  have same := lanFlood_genuine.distinct cap index (by omega) (by omega) isKey
  omega

theorem Filled.held (filled : Filled cap listener) :
    ∃ last, listener.discovery.limiter.lastFrom.lookup (lanFlood.key 0) = some last := by
  have isCap : cap = 512 := filled.isCap
  have inside : lanFlood.key 0 ∈ listener.discovery.limiter.order := by
    rw [filled.order]
    exact List.mem_map.mpr ⟨0, List.mem_range.mpr (by omega), rfl⟩
  exact Option.isSome_iff_exists.mp ((filled.queued.held _).mp inside)

variable (sentUnix : UInt32)

/-- The first friend's announce is recorded where the friend already stands. -/
theorem Filled.order_again (filled : Filled cap listener) :
    (listener.step trustingCrypto
      ((lanRemade sentUnix).datagram 0 (floodClock cap))).discovery.limiter.order =
        (List.range cap).map lanFlood.key := by
  obtain ⟨last, found⟩ := filled.held
  obtain ⟨sameTimes, sameOrder⟩ := admitPacket_keys listener.discovery.limiter (floodClock cap)
  rw [limiter_of_spends (filled.spends_first sentUnix), Flood.ofFrame_datagram]
  show (ReceiveLimiter.record _ (lanFlood.key 0) (floodClock cap)).order = _
  unfold ReceiveLimiter.record
  simp only
  rw [show ((lanRemade sentUnix).datagram 0 (floodClock cap)).now = floodClock cap from rfl,
    sameTimes, found]
  exact sameOrder.trans filled.order

theorem Filled.vacant_again (filled : Filled cap listener) :
    (listener.step trustingCrypto
      ((lanRemade sentUnix).datagram 0 (floodClock cap))).discovery.limiter.lastFrom.lookup
        (lanFlood.key cap) = none := by
  obtain ⟨last, found⟩ := filled.held
  have kept : lanFlood.key cap ∉ listener.discovery.limiter.pushedOut (lanFlood.key 0) := by
    unfold ReceiveLimiter.pushedOut
    rw [found]
    exact List.not_mem_nil
  have another : lanFlood.key cap ≠ lanFlood.key 0 := by
    intro same
    have vacant := filled.vacant
    rw [same, found] at vacant
    cases vacant
  rw [limiter_of_spends (filled.spends_first sentUnix), Flood.ofFrame_datagram]
  show (ReceiveLimiter.record _ (lanFlood.key 0) (floodClock cap)).lastFrom.lookup _ = none
  rw [show ((lanRemade sentUnix).datagram 0 (floodClock cap)).now = floodClock cap from rfl,
    lookup_spend _ kept, if_neg another]
  exact filled.vacant

/-- One more friend announces. -/
theorem Filled.spends_last (filled : Filled cap listener) :
    Spends trustingCrypto
      (listener.step trustingCrypto
        ((lanRemade sentUnix).datagram 0 (floodClock cap))).discovery
      (lanFlood.datagram cap (floodClock (cap + 1))) := by
  have fixed := Listener.step_fixed trustingCrypto listener
    ((lanRemade sentUnix).datagram 0 (floodClock cap))
  have unhurried : Flood.Unhurried cap listener.discovery.limiter :=
    ⟨filled.paced.started, filled.paced.pace⟩
  apply spends_lan (unhurried.step rfl) (fixed.1.trans filled.paced.community)
    (fixed.2.trans filled.paced.ownKey)
  intro last found
  rw [filled.vacant_again sentUnix] at found
  cases found

/-- The first friend is pushed out. -/
theorem Filled.forgotten (filled : Filled cap listener) :
    ((listener.step trustingCrypto ((lanRemade sentUnix).datagram 0 (floodClock cap))).step
      trustingCrypto (lanFlood.datagram cap (floodClock (cap + 1)))).discovery.limiter.lastFrom.lookup
        (lanFlood.key 0) = none := by
  have isCap : cap = 511 + 1 := filled.isCap
  rw [limiter_of_spends (filled.spends_last sentUnix), Flood.ofFrame_datagram]
  apply lookup_record_pushed
  rw [pushedOut_admitPacket]
  unfold ReceiveLimiter.pushedOut
  show lanFlood.key 0 ∈ match Listener.discovery _ |>.limiter.lastFrom.lookup (lanFlood.key cap) with
    | some _ => [] | none => _
  rw [filled.vacant_again sentUnix]
  simp only
  rw [filled.order_again sentUnix, List.length_map, List.length_range, isCap,
    List.range_succ_eq_map, List.map_cons]
  exact List.mem_cons_self

/-- The first friend announces once more, and is let through again. -/
theorem Filled.spends_forgotten (filled : Filled cap listener) (laterUnix : UInt32) :
    Spends trustingCrypto
      ((listener.step trustingCrypto ((lanRemade sentUnix).datagram 0 (floodClock cap))).step
        trustingCrypto (lanFlood.datagram cap (floodClock (cap + 1)))).discovery
      ((lanRemade laterUnix).datagram 0 (floodClock (cap + 2))) := by
  have fixed := Listener.step_fixed trustingCrypto listener
    ((lanRemade sentUnix).datagram 0 (floodClock cap))
  have fixedAgain := Listener.step_fixed trustingCrypto
    (listener.step trustingCrypto ((lanRemade sentUnix).datagram 0 (floodClock cap)))
    (lanFlood.datagram cap (floodClock (cap + 1)))
  have unhurried : Flood.Unhurried cap listener.discovery.limiter :=
    ⟨filled.paced.started, filled.paced.pace⟩
  have unhurriedAgain : Flood.Unhurried (cap + 1) (listener.step trustingCrypto
      ((lanRemade sentUnix).datagram 0 (floodClock cap))).discovery.limiter :=
    unhurried.step rfl
  apply spends_lan (unhurriedAgain.step rfl)
    (fixedAgain.1.trans (fixed.1.trans filled.paced.community))
    (fixedAgain.2.trans (fixed.2.trans filled.paced.ownKey))
  intro last found
  rw [filled.forgotten sentUnix] at found
  cases found

end Squeeze

/-- As many friends as the limiter remembers announce; the first announces again; one more
friend announces; and the first announces once more. -/
def lanSqueeze (cap : Nat) : List Datagram :=
  lanFlood.wave cap ++
    [(lanRemade 1700000059).datagram 0 (floodClock cap),
      lanFlood.datagram cap (floodClock (cap + 1)),
      (lanRemade 1700000058).datagram 0 (floodClock (cap + 2))]

theorem floodClock_mono {earlier later : Nat} (ordered : earlier ≤ later) :
    floodClock earlier ≤ floodClock later :=
  Nat.mul_le_mul_left floodGap ordered

theorem lanSqueeze_inTime {cap : Nat} (isCap : cap = dedupeKeysRemembered) :
    Guarded (Listener.step trustingCrypto) (fun listener datagram => listener.now ≤ datagram.now)
      lanFlood.start (lanSqueeze cap) := by
  have within : cap ≤ announceSeenRemembered := by
    rw [isCap]
    decide
  have inTime := (lanFlood_genuine.heard cap within).1.inTime
  have filled := lanFlood_filled isCap
  unfold lanSqueeze
  rw [guarded_append]
  refine ⟨guarded_mono (fun _ _ ordered => ordered.1) inTime, filled.paced.now, ?_, ?_, trivial⟩
  · exact floodClock_mono (Nat.le_succ cap)
  · exact floodClock_mono (Nat.le_succ (cap + 1))

theorem lanSqueeze_not_spaced {cap : Nat} (isCap : cap = dedupeKeysRemembered) :
    ¬Spaced (outputs (Listener.step trustingCrypto) (Listener.letThrough trustingCrypto)
      lanFlood.start (lanSqueeze cap)) := by
  have filled := lanFlood_filled isCap
  intro spaced
  unfold lanSqueeze Spaced at spaced
  rw [outputs_append, List.pairwise_append] at spaced
  have last := spaced.2.1
  rw [outputs, outputs, outputs, outputs, letThrough_of_spends (filled.spends_first _),
    letThrough_of_spends (filled.spends_last _),
    letThrough_of_spends (filled.spends_forgotten _ _), Flood.ofFrame_datagram,
    Flood.ofFrame_datagram, Flood.ofFrame_datagram] at last
  have apart : floodClock cap + announcePerKeyGap ≤ floodClock (cap + 2) :=
    (List.pairwise_cons.mp last).1 (lanFlood.key 0, floodClock (cap + 2))
      (List.mem_cons_of_mem _ List.mem_cons_self) rfl
  have gap : announcePerKeyGap = 10 * 10 ^ 9 := rfl
  have pace : floodGap = 25 * 10 ^ 6 := rfl
  rw [floodClock_succ, floodClock_succ] at apart
  omega

theorem lanSqueeze_breaks {cap : Nat} (isCap : cap = dedupeKeysRemembered) :
    Guarded (Listener.step trustingCrypto) (fun listener datagram => listener.now ≤ datagram.now)
        lanFlood.start (lanSqueeze cap) ∧
      ¬Spaced (outputs (Listener.step trustingCrypto) (Listener.letThrough trustingCrypto)
        lanFlood.start (lanSqueeze cap)) :=
  ⟨lanSqueeze_inTime isCap, lanSqueeze_not_spaced isCap⟩

/-- The first friend's last two announces are let through fifty milliseconds apart. -/
theorem lan_squeezed :
    Guarded (Listener.step trustingCrypto) (fun listener datagram => listener.now ≤ datagram.now)
        lanFlood.start (lanSqueeze dedupeKeysRemembered) ∧
      ¬Spaced (outputs (Listener.step trustingCrypto) (Listener.letThrough trustingCrypto)
        lanFlood.start (lanSqueeze dedupeKeysRemembered)) :=
  lanSqueeze_breaks rfl

end Mosschat.Net
