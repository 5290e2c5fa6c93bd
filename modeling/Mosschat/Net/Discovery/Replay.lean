import Mosschat.Library.Machine
import Mosschat.Net.Discovery

/-!
Owns the runs of one house's discovery: which announces it accepts, that none is
accepted twice while the replay guard forgets no triple inside the window, and the
flood of announces that makes it forget one.

Does not own the schedule or the expiry, neither of which touches the guard.
-/

namespace Mosschat.Net

open Mosschat.Core Mosschat.Library Mosschat.Library.Cbor Mosschat.Library.Machine

/-! ## Runs -/

/-- A datagram with the clocks `on_datagram` is given, and who is a friend then. -/
structure Datagram where
  bytes : Bytes
  source : SocketAddr
  now : Nat
  nowUnix : UInt64
  isFriend : Bytes32 → Bool

/-- A house's discovery and the clocks of the last datagram. -/
structure Listener where
  discovery : Discovery
  now : Nat
  nowUnix : UInt64

namespace Listener

/-- One datagram. -/
def hear (crypto : Crypto) (listener : Listener) (datagram : Datagram) : Discovery × Heard :=
  listener.discovery.onDatagram crypto datagram.bytes datagram.source datagram.now datagram.nowUnix
    datagram.isFriend

def step (crypto : Crypto) (listener : Listener) (datagram : Datagram) : Listener :=
  ⟨(listener.hear crypto datagram).1, datagram.now, datagram.nowUnix⟩

/-- The triple of the announce a datagram is discovered by. -/
def accepted (crypto : Crypto) (listener : Listener) (datagram : Datagram) : List Triple :=
  match (listener.hear crypto datagram).2 with
  | .discovered _ _ _ => [(Announce.ofFrame datagram.bytes).triple]
  | .dropped _ => []

/-- Neither clock goes back. -/
def InTime (listener : Listener) (datagram : Datagram) : Prop :=
  listener.now ≤ datagram.now ∧ listener.nowUnix ≤ datagram.nowUnix

end Listener

/-- The announce of the datagram passes every check up to the replay guard, which has not
seen its triple. -/
structure Admits (crypto : Crypto) (discovery : Discovery) (datagram : Datagram) : Prop where
  packet : (discovery.limiter.admitPacket datagram.now).2 = true
  parsed : Announce.parseUnverified datagram.bytes discovery.community
    (fun key => key == discovery.ownKey || datagram.isFriend key) =
      .ok (Announce.ofFrame datagram.bytes)
  notOurs : (Announce.ofFrame datagram.bytes).key ≠ discovery.ownKey
  signed : (Announce.ofFrame datagram.bytes).verifySignature crypto datagram.bytes = .ok ()
  quiet : ((discovery.limiter.admitPacket datagram.now).1.admitKey
    (Announce.ofFrame datagram.bytes).key datagram.now).2 = true
  inWindow : ReplayGuard.inWindow (Announce.ofFrame datagram.bytes).sentUnix datagram.nowUnix = true
  unseen : discovery.replay.seen.lookup (Announce.ofFrame datagram.bytes).triple = none

/-- The triples the guard forgets when it remembers one more. -/
def ReplayGuard.pushedOut (replay : ReplayGuard) : List Triple :=
  replay.order.take (replay.order.length + 1 - announceSeenRemembered)

/-- What the guard forgets for this datagram lies outside the window already. -/
def Listener.Covered (crypto : Crypto) (listener : Listener) (datagram : Datagram) : Prop :=
  Admits crypto listener.discovery datagram →
    ∀ triple ∈ listener.discovery.replay.pushedOut,
      triple.2.1.toNat + announceReplayWindow < datagram.nowUnix.toNat

/-! ## What one datagram does -/

theorem parseUnverified_ok {bytes : Bytes} {community : Bytes32} {isFriend : Bytes32 → Bool}
    {announce : Announce}
    (parsed : Announce.parseUnverified bytes community isFriend = .ok announce) :
    announce = Announce.ofFrame bytes := by
  unfold Announce.parseUnverified at parsed
  split_ifs at parsed
  exact (Except.ok.inj parsed).symm

/-- A datagram leaves the guard alone unless it passes every check. -/
inductive Handled (crypto : Crypto) (discovery : Discovery) (datagram : Datagram) :
    Discovery × Heard → Prop where
  | dropped (limiter : ReceiveLimiter) (reason : AnnounceError) :
      Handled crypto discovery datagram
        (Discovery.dropWith { discovery with limiter } reason)
  | admitted (limiter : ReceiveLimiter) (admits : Admits crypto discovery datagram) :
      Handled crypto discovery datagram
        (Discovery.handOff
          { discovery with
            limiter, replay := discovery.replay.remember (Announce.ofFrame datagram.bytes).triple }
          (Announce.ofFrame datagram.bytes) datagram.source datagram.now)

theorem handled_onDatagram (crypto : Crypto) (discovery : Discovery) (datagram : Datagram) :
    Handled crypto discovery datagram
      (discovery.onDatagram crypto datagram.bytes datagram.source datagram.now datagram.nowUnix
        datagram.isFriend) := by
  unfold Discovery.onDatagram
  simp only
  split
  · exact .dropped _ _
  next packet =>
  split
  · exact .dropped _ _
  next announce parsed =>
  have isFrame := parseUnverified_ok parsed
  subst isFrame
  split
  · exact .dropped _ _
  next notOurs =>
  split
  · exact .dropped _ _
  next signed =>
  split
  · exact .dropped _ _
  next quiet =>
  unfold ReplayGuard.admitAnnounce
  split_ifs with outside seen
  · exact .dropped _ _
  · exact .dropped _ _
  · exact .admitted _
      { packet := by simpa using packet
        parsed := parsed
        notOurs := notOurs
        signed := signed
        quiet := by simpa using quiet
        inWindow := by simpa using outside
        unseen := Option.not_isSome_iff_eq_none.mp seen }

/-- The handoff changes the cache and the counters, and nothing else. -/
theorem handOff_fst (discovery : Discovery) (announce : Announce) (source : SocketAddr)
    (now : Nat) :
    ∃ cache counters,
      (discovery.handOff announce source now).1 = { discovery with cache, counters } := by
  unfold Discovery.handOff
  simp only
  split
  · exact ⟨discovery.cache, _, rfl⟩
  · exact ⟨_, _, rfl⟩

theorem handOff_snd {discovery : Discovery} {announce : Announce} {source : SocketAddr}
    (isLocal : discovery.sourceIsLocal (unmapV4 ⟨source.ip, announce.port⟩).ip = true) (now : Nat) :
    ∃ reply, (discovery.handOff announce source now).2 =
      .discovered announce.key (unmapV4 ⟨source.ip, announce.port⟩) reply := by
  unfold Discovery.handOff
  simp only [isLocal, Bool.not_true, Bool.false_eq_true, if_false]
  exact ⟨_, rfl⟩

theorem handOff_replay (discovery : Discovery) (announce : Announce) (source : SocketAddr)
    (now : Nat) : (discovery.handOff announce source now).1.replay = discovery.replay := by
  obtain ⟨cache, counters, after⟩ := handOff_fst discovery announce source now
  rw [after]

/-- The guard either stays as it is, or remembers the announce of a datagram that passed
every check. -/
theorem replay_step (crypto : Crypto) (listener : Listener) (datagram : Datagram) :
    (listener.step crypto datagram).discovery.replay = listener.discovery.replay ∨
      Admits crypto listener.discovery datagram ∧
        (listener.step crypto datagram).discovery.replay =
          listener.discovery.replay.remember (Announce.ofFrame datagram.bytes).triple := by
  have handled := handled_onDatagram crypto listener.discovery datagram
  show (listener.hear crypto datagram).1.replay = _ ∨ _ ∧ (listener.hear crypto datagram).1.replay = _
  change Handled crypto listener.discovery datagram (listener.hear crypto datagram) at handled
  generalize listener.hear crypto datagram = result at handled ⊢
  cases handled with
  | dropped limiter reason => exact Or.inl rfl
  | admitted limiter admits =>
      rw [handOff_replay]
      exact Or.inr ⟨admits, rfl⟩

/-- An accepted announce passed every check, and the guard remembers it. -/
theorem admits_of_accepted {crypto : Crypto} {listener : Listener} {datagram : Datagram}
    {triple : Triple} (given : triple ∈ listener.accepted crypto datagram) :
    Admits crypto listener.discovery datagram ∧
      triple = (Announce.ofFrame datagram.bytes).triple ∧
      (listener.step crypto datagram).discovery.replay =
        listener.discovery.replay.remember triple := by
  have handled := handled_onDatagram crypto listener.discovery datagram
  show _ ∧ _ ∧ (listener.hear crypto datagram).1.replay = _
  change Handled crypto listener.discovery datagram (listener.hear crypto datagram) at handled
  unfold Listener.accepted at given
  generalize listener.hear crypto datagram = result at handled given ⊢
  cases handled with
  | dropped limiter reason => cases given
  | admitted limiter admits =>
      have isTriple : triple = (Announce.ofFrame datagram.bytes).triple := by
        split at given
        · exact List.mem_singleton.mp given
        · cases given
      rw [handOff_replay, isTriple]
      exact ⟨admits, rfl, rfl⟩

/-! ## No announce is accepted twice -/

/-- What the guard still holds after remembering one more triple. -/
theorem seen_remember {replay : ReplayGuard} {triple other : Triple}
    (kept : other ∉ replay.pushedOut) :
    (replay.remember triple).seen.lookup other =
      if other = triple then some () else replay.seen.lookup other := by
  have width : (replay.order ++ [triple]).length - announceSeenRemembered =
      replay.order.length + 1 - announceSeenRemembered := by
    rw [List.length_append]
    rfl
  have inside : replay.order.length + 1 - announceSeenRemembered ≤ replay.order.length := by
    have cap : announceSeenRemembered = 4096 := rfl
    omega
  have notForgotten : other ∉ (replay.order ++ [triple]).take
      ((replay.order ++ [triple]).length - announceSeenRemembered) := by
    rw [width, List.take_append_of_le_length inside]
    exact kept
  show (Fifo.evict _ _ _).2.lookup other = _
  rw [Fifo.lookup_evict notForgotten, HashMap.lookup_put]

theorem inWindow_iff (sentUnix : UInt32) (nowUnix : UInt64) :
    ReplayGuard.inWindow sentUnix nowUnix = true ↔
      nowUnix.toNat ≤ sentUnix.toNat + announceReplayWindow ∧
        sentUnix.toNat ≤ nowUnix.toNat + announceReplayWindow := by
  rw [ReplayGuard.inWindow, decide_eq_true_iff]
  omega

/-- The guard remembers the triple, or its window is over. -/
def Listener.Spent (listener : Listener) (triple : Triple) : Prop :=
  listener.discovery.replay.seen.lookup triple = some () ∨
    triple.2.1.toNat + announceReplayWindow < listener.nowUnix.toNat

theorem spent_of_accepted {crypto : Crypto} {listener : Listener} {datagram : Datagram}
    {triple : Triple} (covered : listener.Covered crypto datagram)
    (given : triple ∈ listener.accepted crypto datagram) :
    (listener.step crypto datagram).Spent triple := by
  obtain ⟨admits, isTriple, after⟩ := admits_of_accepted given
  have kept : triple ∉ listener.discovery.replay.pushedOut := by
    intro pushed
    have expired := covered admits triple pushed
    have inWindow := ((inWindow_iff _ _).mp admits.inWindow).1
    rw [isTriple] at expired
    change (Announce.ofFrame datagram.bytes).sentUnix.toNat + _ < _ at expired
    omega
  apply Or.inl
  rw [after, seen_remember kept, if_pos rfl]

theorem not_accepted_of_spent {crypto : Crypto} {listener : Listener} {datagram : Datagram}
    {triple : Triple} (inTime : listener.InTime datagram) (spent : listener.Spent triple) :
    triple ∉ listener.accepted crypto datagram := by
  intro given
  obtain ⟨admits, isTriple, -⟩ := admits_of_accepted given
  rcases spent with seen | expired
  · have unseen := admits.unseen
    rw [← isTriple, seen] at unseen
    cases unseen
  · have inWindow := ((inWindow_iff _ _).mp admits.inWindow).1
    have forward : listener.nowUnix.toNat ≤ datagram.nowUnix.toNat := inTime.2
    rw [isTriple] at expired
    change (Announce.ofFrame datagram.bytes).sentUnix.toNat + _ < _ at expired
    omega

theorem spent_step {crypto : Crypto} {listener : Listener} {datagram : Datagram}
    {triple : Triple} (inTime : listener.InTime datagram)
    (covered : listener.Covered crypto datagram) (spent : listener.Spent triple) :
    (listener.step crypto datagram).Spent triple := by
  have forward : listener.nowUnix.toNat ≤ datagram.nowUnix.toNat := inTime.2
  rcases spent with seen | expired
  · rcases replay_step crypto listener datagram with same | ⟨admits, after⟩
    · exact Or.inl (by rw [same]; exact seen)
    · by_cases pushed : triple ∈ listener.discovery.replay.pushedOut
      · exact Or.inr (covered admits triple pushed)
      · apply Or.inl
        rw [after, seen_remember pushed, seen]
        split_ifs <;> rfl
  · exact Or.inr (Nat.lt_of_lt_of_le expired forward)

theorem accepted_nodup (crypto : Crypto) (listener : Listener) (datagram : Datagram) :
    (listener.accepted crypto datagram).Nodup := by
  unfold Listener.accepted
  split
  · exact List.nodup_singleton _
  · exact List.nodup_nil

/-- While the guard forgets no triple inside the window, no announce is accepted twice. -/
theorem announce_accepted_once (crypto : Crypto) (listener : Listener)
    (datagrams : List Datagram)
    (covered : Guarded (Listener.step crypto)
      (fun listener datagram => listener.InTime datagram ∧ listener.Covered crypto datagram)
      listener datagrams) :
    (outputs (Listener.step crypto) (Listener.accepted crypto) listener datagrams).Nodup := by
  refine outputs_nodup Listener.Spent (accepted_nodup crypto) ?_ ?_ ?_ covered
  · intro listener datagram triple guard
    exact spent_of_accepted guard.2
  · intro listener datagram triple guard
    exact not_accepted_of_spent guard.1
  · intro listener datagram triple guard
    exact spent_step guard.1 guard.2

/-! ## A flood of announces -/

/-- The state an announce that passed every check leaves for its handoff. -/
def Discovery.charge (discovery : Discovery) (announce : Announce) (now : Nat) : Discovery :=
  { discovery with
    limiter := (discovery.limiter.admitPacket now).1.record announce.key now
    replay := discovery.replay.remember announce.triple }

/-- A key the limiter admits is not too soon. -/
theorem notSoon_of_admitKey {limiter : ReceiveLimiter} {key : Bytes32} {now : Nat}
    (quiet : (limiter.admitKey key now).2 = true) : limiter.tooSoon key now = false := by
  rw [← Bool.not_eq_true]
  intro soon
  unfold ReceiveLimiter.admitKey at quiet
  rw [if_pos soon] at quiet
  cases quiet

/-- A datagram that passes every check is charged and handed off. -/
theorem hear_of_admits {crypto : Crypto} {listener : Listener} {datagram : Datagram}
    (admits : Admits crypto listener.discovery datagram) :
    listener.hear crypto datagram =
      (listener.discovery.charge (Announce.ofFrame datagram.bytes) datagram.now).handOff
        (Announce.ofFrame datagram.bytes) datagram.source datagram.now := by
  have notSoon := notSoon_of_admitKey admits.quiet
  unfold Listener.hear Discovery.onDatagram ReceiveLimiter.admitKey ReplayGuard.admitAnnounce
  simp only [admits.packet, admits.parsed, admits.notOurs, admits.signed, notSoon,
    admits.inWindow, admits.unseen, Bool.not_true, Bool.false_eq_true, if_false,
    Option.isSome_none]
  rfl

/-- A datagram that passes every check but for its triple is charged to the limiter alone. -/
theorem hear_of_seen {crypto : Crypto} {listener : Listener} {datagram : Datagram}
    {forgetful : ReplayGuard}
    (admits : Admits crypto { listener.discovery with replay := forgetful } datagram)
    (seen : listener.discovery.replay.seen.lookup (Announce.ofFrame datagram.bytes).triple =
      some ()) :
    listener.hear crypto datagram =
      Discovery.dropWith { listener.discovery with
        limiter := (listener.discovery.limiter.admitPacket datagram.now).1.record
          (Announce.ofFrame datagram.bytes).key datagram.now } .replayed := by
  obtain ⟨packet, parsed, notOurs, signed, quiet, inWindow, -⟩ := admits
  dsimp only at packet parsed notOurs quiet
  have notSoon := notSoon_of_admitKey quiet
  unfold Listener.hear Discovery.onDatagram ReceiveLimiter.admitKey ReplayGuard.admitAnnounce
  simp only [packet, parsed, notOurs, signed, notSoon, inWindow, seen, Bool.not_true,
    Bool.false_eq_true, if_false, Option.isSome_some, if_true]

/-- The spacing of a flood: forty announces a second. -/
def floodGap : Nat := 25 * 10 ^ 6

/-- When the announce with this number is heard. -/
def floodClock (count : Nat) : Nat := floodGap * count

theorem floodClock_succ (count : Nat) : floodClock (count + 1) = floodClock count + floodGap := rfl

/-- A flood: announces of many friends, all made in one second and heard one after the
other. -/
structure Flood where
  community : Bytes32
  ownKey : Bytes32
  key : Nat → Bytes32
  sign : Nat → Bytes → Bytes64
  port : UInt16
  sentUnix : UInt32
  source : SocketAddr
  epoch : Int

namespace Flood

def announce (flood : Flood) (index : Nat) : Announce :=
  ⟨flood.community, flood.key index, flood.port, flood.sentUnix, List.Vector.replicate 4 0⟩

/-- The announce of one friend, heard at `now`. -/
def datagram (flood : Flood) (index now : Nat) : Datagram where
  bytes := (flood.announce index).encode (flood.sign index)
  source := flood.source
  now := now
  nowUnix := unixNow flood.epoch now
  isFriend := fun _ => true

/-- The house before the flood. -/
def start (flood : Flood) : Listener :=
  ⟨.new flood.community flood.ownKey 0, 0, unixNow flood.epoch 0⟩

/-- The first `count` announces of the flood. -/
def wave (flood : Flood) (count : Nat) : List Datagram :=
  (List.range count).map fun index => flood.datagram index (floodClock index)

/-- The announces are signed by distinct friends on this network, and the one second they
were made in is inside the window throughout. -/
structure Genuine (crypto : Crypto) (flood : Flood) : Prop where
  distinct : ∀ first second, first ≤ announceSeenRemembered → second ≤ announceSeenRemembered →
    flood.key first = flood.key second → first = second
  notOurs : ∀ index, flood.key index ≠ flood.ownKey
  signed : ∀ index, (flood.announce index).verifySignature crypto
    ((flood.announce index).encode (flood.sign index)) = .ok ()
  inWindow : ∀ count, count ≤ announceSeenRemembered + 1 →
    ReplayGuard.inWindow flood.sentUnix (unixNow flood.epoch (floodClock count)) = true
  sourceIsLocal : ∀ discovery : Discovery,
    discovery.sourceIsLocal (unmapV4 ⟨flood.source.ip, flood.port⟩).ip = true

/-- What the clocks and the limiter read when `count` announces have been heard. -/
structure Paced (flood : Flood) (count : Nat) (listener : Listener) : Prop where
  now : listener.now ≤ floodClock count
  nowUnix : listener.nowUnix ≤ unixNow flood.epoch (floodClock count)
  community : listener.discovery.community = flood.community
  ownKey : listener.discovery.ownKey = flood.ownKey
  started : listener.discovery.limiter.windowStart ≤ floodClock count
  pace : listener.discovery.limiter.inWindow * floodGap ≤
    floodClock count - listener.discovery.limiter.windowStart
  lastFrom : ∀ key last, listener.discovery.limiter.lastFrom.lookup key = some last →
    ∃ index < count, key = flood.key index ∧ last = floodClock index

/-- What the guard remembers when `count` announces have been heard. -/
structure Remembered (flood : Flood) (count : Nat) (replay : ReplayGuard) : Prop where
  order : replay.order = (List.range count).map fun index => (flood.announce index).triple
  seen : ∀ triple held, replay.seen.lookup triple = some held →
    ∃ index < count, triple = (flood.announce index).triple

theorem admitPacket_reset {limiter : ReceiveLimiter} {now : Nat}
    (reset : 10 ^ 9 ≤ now - limiter.windowStart) :
    limiter.admitPacket now = ({ limiter with windowStart := now, inWindow := 1 }, true) := by
  have room : ¬announcePacketsPerSecond ≤ 0 := by decide
  unfold ReceiveLimiter.admitPacket
  simp only [if_pos reset, if_neg room, Nat.zero_add]

theorem admitPacket_within {limiter : ReceiveLimiter} {now : Nat}
    (within : ¬10 ^ 9 ≤ now - limiter.windowStart)
    (room : ¬announcePacketsPerSecond ≤ limiter.inWindow) :
    limiter.admitPacket now = ({ limiter with inWindow := limiter.inWindow + 1 }, true) := by
  unfold ReceiveLimiter.admitPacket
  simp only [if_neg within, if_neg room]

/-- At forty packets a second the ceiling is never reached. -/
theorem admitPacket_paced {limiter : ReceiveLimiter} {now : Nat}
    (started : limiter.windowStart ≤ now)
    (pace : limiter.inWindow * floodGap ≤ now - limiter.windowStart) :
    (limiter.admitPacket now).2 = true ∧
      (limiter.admitPacket now).1.lastFrom = limiter.lastFrom ∧
      (limiter.admitPacket now).1.windowStart ≤ now ∧
      (limiter.admitPacket now).1.inWindow * floodGap ≤
        now + floodGap - (limiter.admitPacket now).1.windowStart := by
  have gap : floodGap = 25000000 := rfl
  by_cases reset : 10 ^ 9 ≤ now - limiter.windowStart
  · have afresh : 1 * floodGap ≤ now + floodGap - now := by omega
    rw [admitPacket_reset reset]
    exact ⟨rfl, rfl, Nat.le_refl _, afresh⟩
  · have room : ¬announcePacketsPerSecond ≤ limiter.inWindow := by
      have ceiling : announcePacketsPerSecond = 50 := rfl
      rw [gap] at pace
      omega
    have onward : (limiter.inWindow + 1) * floodGap ≤ now + floodGap - limiter.windowStart := by
      rw [Nat.add_mul]
      omega
    rw [admitPacket_within reset room]
    exact ⟨rfl, rfl, started, onward⟩

theorem lookup_record {limiter : ReceiveLimiter} {key other : Bytes32} {now last : Nat}
    (found : (limiter.record key now).lastFrom.lookup other = some last) :
    other = key ∧ last = now ∨ limiter.lastFrom.lookup other = some last := by
  have inPut : (limiter.lastFrom.put key now).lookup other = some last := by
    unfold ReceiveLimiter.record at found
    simp only at found
    split at found
    · exact found
    · exact Fifo.lookup_of_evict found
  rw [HashMap.lookup_put] at inPut
  split_ifs at inPut with isKey
  · exact Or.inl ⟨isKey, (Option.some.inj inPut).symm⟩
  · exact Or.inr inPut

/-- A key that has been quiet for a gap is admitted. -/
theorem admitKey_paced {limiter : ReceiveLimiter} {now : Nat} {key : Bytes32}
    (started : limiter.windowStart ≤ now)
    (pace : limiter.inWindow * floodGap ≤ now - limiter.windowStart)
    (quiet : ∀ last, limiter.lastFrom.lookup key = some last →
      announcePerKeyGap ≤ now - last) :
    ((limiter.admitPacket now).1.admitKey key now).2 = true := by
  obtain ⟨-, lastFrom, -, -⟩ := admitPacket_paced started pace
  have notSoon : (limiter.admitPacket now).1.tooSoon key now = false := by
    unfold ReceiveLimiter.tooSoon
    rw [lastFrom]
    split
    · next last found =>
        have silence := quiet last found
        rw [decide_eq_false_iff_not]
        omega
    · rfl
  unfold ReceiveLimiter.admitKey
  rw [notSoon]
  rfl

theorem record_window (limiter : ReceiveLimiter) (key : Bytes32) (now : Nat) :
    (limiter.record key now).windowStart = limiter.windowStart ∧
      (limiter.record key now).inWindow = limiter.inWindow := by
  unfold ReceiveLimiter.record
  simp only
  split <;> exact ⟨rfl, rfl⟩

section Run

variable {crypto : Crypto} {flood : Flood}

theorem ofFrame_datagram (index now : Nat) :
    Announce.ofFrame (flood.datagram index now).bytes = flood.announce index :=
  Announce.ofFrame_encode _ _

/-- A friend who has been quiet for a gap, and whose triple the guard does not hold, passes
every check. -/
theorem Genuine.admits (genuine : flood.Genuine crypto) {count index : Nat}
    {listener : Listener} (paced : flood.Paced count listener)
    (bounded : count ≤ announceSeenRemembered + 1)
    (quiet : ∀ last, listener.discovery.limiter.lastFrom.lookup (flood.key index) = some last →
      announcePerKeyGap ≤ floodClock count - last)
    (unseen : listener.discovery.replay.seen.lookup (flood.announce index).triple = none) :
    Admits crypto listener.discovery (flood.datagram index (floodClock count)) := by
  obtain ⟨packet, -, -, -⟩ := admitPacket_paced paced.started paced.pace
  constructor
  · exact packet
  · rw [ofFrame_datagram, paced.community]
    apply Announce.parseUnverified_encode
    exact Bool.or_true _
  · rw [ofFrame_datagram, paced.ownKey]
    exact genuine.notOurs index
  · rw [ofFrame_datagram]
    exact genuine.signed index
  · rw [ofFrame_datagram]
    exact admitKey_paced paced.started paced.pace quiet
  · rw [ofFrame_datagram]
    exact genuine.inWindow count bounded
  · rw [ofFrame_datagram]
    exact unseen

/-- A datagram that passes every check is accepted: its source is on this network. -/
theorem Genuine.accepted (genuine : flood.Genuine crypto) {index now : Nat} {listener : Listener}
    (admits : Admits crypto listener.discovery (flood.datagram index now)) :
    listener.accepted crypto (flood.datagram index now) = [(flood.announce index).triple] := by
  have isLocal : (listener.discovery.charge (flood.announce index) now).sourceIsLocal
      (unmapV4 ⟨flood.source.ip, (flood.announce index).port⟩).ip = true :=
    genuine.sourceIsLocal _
  obtain ⟨reply, discovered⟩ := handOff_snd isLocal now
  have heard := hear_of_admits admits
  rw [ofFrame_datagram] at heard
  change listener.hear crypto (flood.datagram index now) =
    (listener.discovery.charge (flood.announce index) now).handOff (flood.announce index)
      flood.source now at heard
  unfold Listener.accepted
  rw [heard, discovered, ofFrame_datagram]

/-- The state after a datagram that passes every check. -/
theorem step_of_admits {index now : Nat} {listener : Listener}
    (admits : Admits crypto listener.discovery (flood.datagram index now)) :
    ∃ cache counters, listener.step crypto (flood.datagram index now) =
      ⟨{ listener.discovery.charge (flood.announce index) now with cache, counters }, now,
        unixNow flood.epoch now⟩ := by
  have heard := hear_of_admits admits
  rw [ofFrame_datagram] at heard
  obtain ⟨cache, counters, after⟩ := handOff_fst
    (listener.discovery.charge (flood.announce index) now) (flood.announce index) flood.source now
  refine ⟨cache, counters, ?_⟩
  unfold Listener.step
  rw [heard, ← after]
  rfl

/-- Whoever it is from, an announce heard next keeps the clocks in order. -/
theorem Paced.inTime {count : Nat} {listener : Listener} (paced : flood.Paced count listener)
    (index : Nat) : listener.InTime (flood.datagram index (floodClock count)) :=
  ⟨paced.now, paced.nowUnix⟩

/-- The next announce of the flood keeps the pace. -/
theorem Paced.step {count : Nat} {listener : Listener} (paced : flood.Paced count listener)
    (admits : Admits crypto listener.discovery (flood.datagram count (floodClock count))) :
    flood.Paced (count + 1) (listener.step crypto (flood.datagram count (floodClock count))) := by
  obtain ⟨-, lastFrom, started, pace⟩ := admitPacket_paced paced.started paced.pace
  have window := record_window (listener.discovery.limiter.admitPacket (floodClock count)).1
    (flood.key count) (floodClock count)
  have onward : floodClock count ≤ floodClock (count + 1) := by
    rw [floodClock_succ]
    omega
  obtain ⟨cache, counters, after⟩ := step_of_admits admits
  rw [after]
  constructor
  · exact onward
  · exact unixNow_mono _ onward
  · exact paced.community
  · exact paced.ownKey
  · show (ReceiveLimiter.record _ (flood.key count) _).windowStart ≤ _
    rw [window.1]
    exact started.trans onward
  · show (ReceiveLimiter.record _ (flood.key count) _).inWindow * floodGap ≤
      _ - (ReceiveLimiter.record _ (flood.key count) _).windowStart
    rw [window.1, window.2, floodClock_succ]
    exact pace
  · intro key last found
    rcases lookup_record found with ⟨isKey, isNow⟩ | before
    · exact ⟨count, Nat.lt_succ_self count, isKey, isNow⟩
    · rw [lastFrom] at before
      obtain ⟨index, below, isKey, isLast⟩ := paced.lastFrom key last before
      exact ⟨index, Nat.lt_succ_of_lt below, isKey, isLast⟩

/-- Below the cap the guard remembers every announce of the flood. -/
theorem Remembered.step {count : Nat} {replay : ReplayGuard}
    (remembered : flood.Remembered count replay) (below : count < announceSeenRemembered) :
    flood.Remembered (count + 1) (replay.remember (flood.announce count).triple) := by
  have fits : (replay.order ++ [(flood.announce count).triple]).length ≤
      announceSeenRemembered := by
    rw [remembered.order, List.length_append, List.length_map, List.length_range]
    exact below
  unfold ReplayGuard.remember
  rw [Fifo.evict_of_le _ fits]
  constructor
  · show replay.order ++ [(flood.announce count).triple] = _
    rw [remembered.order, List.range_succ, List.map_append]
    rfl
  · intro triple held found
    change (replay.seen.put _ ()).lookup triple = some held at found
    rw [HashMap.lookup_put] at found
    split_ifs at found with isNew
    · exact ⟨count, Nat.lt_succ_self count, isNew⟩
    · obtain ⟨index, before, isTriple⟩ := remembered.seen triple held found
      exact ⟨index, Nat.lt_succ_of_lt before, isTriple⟩

/-- At the cap the guard forgets the first announce of the flood. -/
theorem Remembered.overflow {replay : ReplayGuard}
    (remembered : flood.Remembered announceSeenRemembered replay) (triple : Triple) :
    (replay.remember triple).seen.lookup (flood.announce 0).triple = none := by
  have order := remembered.order
  rw [show announceSeenRemembered = 4095 + 1 from rfl, List.range_succ_eq_map,
    List.map_cons] at order
  have full : (((List.range 4095).map Nat.succ).map fun index =>
      (flood.announce index).triple).length + 1 = announceSeenRemembered := by
    rw [List.length_map, List.length_map, List.length_range]
    rfl
  unfold ReplayGuard.remember
  rw [order, List.cons_append, Fifo.evict_of_length_eq]
  · exact AList.lookup_erase _ _
  · rw [List.length_append]
    exact full

theorem wave_succ (count : Nat) :
    flood.wave (count + 1) = flood.wave count ++ [flood.datagram count (floodClock count)] := by
  unfold wave
  rw [List.range_succ, List.map_append]
  rfl

/-- What a run has come to when `count` announces of the flood have been heard. -/
structure Underway (crypto : Crypto) (flood : Flood) (count : Nat) : Prop where
  paced : flood.Paced count (run (Listener.step crypto) flood.start (flood.wave count))
  inTime : Guarded (Listener.step crypto) Listener.InTime flood.start (flood.wave count)
  accepted : outputs (Listener.step crypto) (Listener.accepted crypto) flood.start
    (flood.wave count) = (List.range count).map fun index => (flood.announce index).triple

/-- Any announce heard next comes in time. -/
theorem Underway.inTime_append (heard : Underway crypto flood count) (index : Nat) :
    Guarded (Listener.step crypto) Listener.InTime flood.start
      (flood.wave count ++ [flood.datagram index (floodClock count)]) := by
  rw [guarded_append]
  exact ⟨heard.inTime, heard.paced.inTime index, trivial⟩

/-- An announce that passes every check is accepted after the ones before it. -/
theorem Underway.accepted_append (heard : Underway crypto flood count) (genuine : flood.Genuine crypto)
    {index : Nat}
    (admits : Admits crypto
      (run (Listener.step crypto) flood.start (flood.wave count)).discovery
      (flood.datagram index (floodClock count))) :
    outputs (Listener.step crypto) (Listener.accepted crypto) flood.start
        (flood.wave count ++ [flood.datagram index (floodClock count)]) =
      ((List.range count).map fun index => (flood.announce index).triple) ++
        [(flood.announce index).triple] := by
  rw [outputs_append, heard.accepted]
  show _ ++ (Listener.accepted crypto _ _ ++ []) = _
  rw [genuine.accepted admits, List.append_nil]

/-- One more announce of the flood, if it passes every check. -/
theorem Underway.next (heard : Underway crypto flood count) (genuine : flood.Genuine crypto)
    (admits : Admits crypto
      (run (Listener.step crypto) flood.start (flood.wave count)).discovery
      (flood.datagram count (floodClock count))) :
    Underway crypto flood (count + 1) := by
  constructor
  · rw [wave_succ, run_concat]
    exact heard.paced.step admits
  · rw [wave_succ]
    exact heard.inTime_append count
  · rw [wave_succ, heard.accepted_append genuine admits, List.range_succ, List.map_append]
    rfl

/-- An announce of the flood that is new to the house passes every check. -/
theorem Genuine.admits_next (genuine : flood.Genuine crypto) {count : Nat} {listener : Listener}
    (paced : flood.Paced count listener)
    (remembered : flood.Remembered count listener.discovery.replay)
    (bounded : count ≤ announceSeenRemembered) :
    Admits crypto listener.discovery (flood.datagram count (floodClock count)) := by
  apply genuine.admits paced (Nat.le_succ_of_le bounded)
  · intro last found
    obtain ⟨index, below, isKey, -⟩ := paced.lastFrom _ last found
    have same := genuine.distinct count index bounded (below.le.trans bounded) isKey
    omega
  · rw [Option.eq_none_iff_forall_ne_some]
    intro held found
    obtain ⟨index, below, isTriple⟩ := remembered.seen _ held found
    have isKey : flood.key count = flood.key index := congrArg Prod.fst isTriple
    have same := genuine.distinct count index bounded (below.le.trans bounded) isKey
    omega

theorem start_paced : flood.Paced 0 flood.start := by
  constructor
  · exact Nat.zero_le _
  · exact UInt64.le_refl _
  · rfl
  · rfl
  · exact Nat.zero_le _
  · show 0 * floodGap ≤ _
    rw [Nat.zero_mul]
    exact Nat.zero_le _
  · intro key last found
    cases found

/-- Up to the cap every announce of the flood is accepted and remembered. -/
theorem Genuine.heard (genuine : flood.Genuine crypto) (count : Nat)
    (bounded : count ≤ announceSeenRemembered) :
    Underway crypto flood count ∧ flood.Remembered count
      (run (Listener.step crypto) flood.start (flood.wave count)).discovery.replay := by
  induction count with
  | zero =>
      refine ⟨⟨start_paced, trivial, rfl⟩, rfl, ?_⟩
      intro triple held found
      cases found
  | succ count ih =>
      obtain ⟨heard, remembered⟩ := ih (Nat.le_of_succ_le bounded)
      have admits := genuine.admits_next heard.paced remembered (Nat.le_of_succ_le bounded)
      obtain ⟨cache, counters, after⟩ := step_of_admits admits
      refine ⟨heard.next genuine admits, ?_⟩
      rw [wave_succ, run_concat, after]
      exact remembered.step bounded

/-- Up to the cap nothing is forgotten. -/
theorem Genuine.covered (genuine : flood.Genuine crypto) (count : Nat)
    (bounded : count ≤ announceSeenRemembered) :
    Guarded (Listener.step crypto) (Listener.Covered crypto) flood.start (flood.wave count) := by
  induction count with
  | zero => trivial
  | succ count ih =>
      have before := Nat.le_of_succ_le bounded
      obtain ⟨-, remembered⟩ := genuine.heard count before
      rw [wave_succ, guarded_append]
      refine ⟨ih before, ?_, trivial⟩
      intro _ triple pushed
      have none : count + 1 - announceSeenRemembered = 0 := Nat.sub_eq_zero_of_le bounded
      rw [ReplayGuard.pushedOut, remembered.order, List.length_map, List.length_range,
        none] at pushed
      cases pushed

/-- Up to the cap the guard knows every announce of the flood. -/
theorem Genuine.known (genuine : flood.Genuine crypto) {count index : Nat} (below : index < count)
    (bounded : count ≤ announceSeenRemembered) :
    (run (Listener.step crypto) flood.start
      (flood.wave count)).discovery.replay.seen.lookup (flood.announce index).triple =
        some () := by
  induction count with
  | zero => exact absurd below (Nat.not_lt_zero _)
  | succ count ih =>
      have before := Nat.le_of_succ_le bounded
      obtain ⟨heard, remembered⟩ := genuine.heard count before
      have admits := genuine.admits_next heard.paced remembered before
      obtain ⟨cache, counters, after⟩ := step_of_admits admits
      have fits : ((run (Listener.step crypto) flood.start (flood.wave count)).discovery.replay.order
          ++ [(flood.announce count).triple]).length ≤ announceSeenRemembered := by
        rw [remembered.order, List.length_append, List.length_map, List.length_range]
        exact bounded
      rw [wave_succ, run_concat, after]
      show (ReplayGuard.remember _ _).seen.lookup _ = _
      unfold ReplayGuard.remember
      rw [Fifo.evict_of_le _ fits]
      show (HashMap.put _ _ ()).lookup _ = _
      rw [HashMap.lookup_put]
      split_ifs with isNew
      · rfl
      · rcases Nat.lt_succ_iff_lt_or_eq.mp below with earlier | same
        · exact ih earlier before
        · exact absurd (same ▸ rfl) isNew

/-- One announce over the cap, the first announce is accepted again when it is
replayed. -/
theorem Genuine.accepted_again (genuine : flood.Genuine crypto) {cap : Nat}
    (isCap : cap = announceSeenRemembered) :
    Guarded (Listener.step crypto) Listener.InTime flood.start
        (flood.wave (cap + 1) ++ [flood.datagram 0 (floodClock (cap + 1))]) ∧
      ¬(outputs (Listener.step crypto) (Listener.accepted crypto) flood.start
        (flood.wave (cap + 1) ++ [flood.datagram 0 (floodClock (cap + 1))])).Nodup := by
  have bounded : cap ≤ announceSeenRemembered := Nat.le_of_eq isCap
  obtain ⟨heard, remembered⟩ := genuine.heard cap bounded
  have admitsLast := genuine.admits_next heard.paced remembered bounded
  have heardLast := heard.next genuine admitsLast
  obtain ⟨cache, counters, after⟩ := step_of_admits admitsLast
  have full : flood.Remembered announceSeenRemembered
      (run (Listener.step crypto) flood.start (flood.wave cap)).discovery.replay :=
    isCap ▸ remembered
  have forgotten := full.overflow (flood.announce cap).triple
  have admitsFirst : Admits crypto
      (run (Listener.step crypto) flood.start (flood.wave (cap + 1))).discovery
      (flood.datagram 0 (floodClock (cap + 1))) := by
    apply genuine.admits heardLast.paced (Nat.succ_le_succ bounded)
    · intro last found
      obtain ⟨index, below, isKey, isLast⟩ := heardLast.paced.lastFrom _ last found
      have indexBounded : index ≤ announceSeenRemembered :=
        (Nat.le_of_lt_succ below).trans bounded
      have isFirst := genuine.distinct 0 index (Nat.zero_le _) indexBounded isKey
      rw [isLast, ← isFirst, isCap]
      unfold announcePerKeyGap floodClock floodGap announceSeenRemembered
      omega
    · rw [wave_succ, run_concat, after]
      exact forgotten
  refine ⟨heardLast.inTime_append 0, ?_⟩
  have member : (flood.announce 0).triple ∈
      (List.range (cap + 1)).map fun index => (flood.announce index).triple :=
    List.mem_map.mpr ⟨0, List.mem_range.mpr (Nat.succ_pos _), rfl⟩
  rw [heardLast.accepted_append genuine admitsFirst, List.nodup_append]
  intro distinct
  exact distinct.2.2 _ member _ (List.mem_singleton.mpr rfl) rfl

end Run

end Flood

/-! ### A flood of friends on one network -/

theorem length_trusting (input : Bytes) :
    ((input ++ List.replicate 32 0).take 32).length = 32 := by
  rw [List.length_take, List.length_append, List.length_replicate]
  omega

/-- Primitives under which every signature verifies. -/
def trustingCrypto : Crypto where
  blake3 input := ⟨(input ++ List.replicate 32 0).take 32, length_trusting input⟩
  verifyingKey _ := true
  verifyStrict _ _ _ := true

/-- Friends in the house's own private network whose clocks are a minute ahead of it. -/
def lanFlood : Flood where
  community := zero32
  ownKey := zero32
  key index := ⟨1 :: beBytes 31 index, by simp⟩
  sign _ _ := List.Vector.replicate 64 0
  port := 443
  sentUnix := 1700000060
  source := ⟨.v4 ⟨[192, 168, 1, 2], rfl⟩, 49911⟩
  epoch := 1700000000 * 10 ^ 9

theorem lanFlood_inWindow {now : Nat} (bounded : now ≤ 103 * 10 ^ 9) :
    ReplayGuard.inWindow lanFlood.sentUnix (unixNow lanFlood.epoch now) = true := by
  have sent : lanFlood.sentUnix.toNat = 1700000060 := rfl
  have window : announceReplayWindow = 60 := rfl
  have epoch : lanFlood.epoch = 1700000000 * 10 ^ 9 := rfl
  rw [inWindow_iff, unixNow_toNat, sent, window, epoch]
  omega

theorem lanFlood_genuine : lanFlood.Genuine trustingCrypto := by
  constructor
  · intro first second firstBounded secondBounded same
    have digits : beBytes 31 first = beBytes 31 second :=
      (List.cons.inj (congrArg List.Vector.toList same)).2
    have values := congrArg beValue digits
    have cap : announceSeenRemembered = 4096 := rfl
    rw [beValue_beBytes, beValue_beBytes, Nat.mod_eq_of_lt (by omega),
      Nat.mod_eq_of_lt (by omega)] at values
    exact values
  · intro index same
    have firstByte := congrArg (fun key : Bytes32 => key.toList.head?) same
    cases firstByte
  · intro index
    exact Announce.verifySignature_encode rfl
  · intro count bounded
    apply lanFlood_inWindow
    unfold floodClock floodGap
    have cap : announceSeenRemembered = 4096 := rfl
    omega
  · intro discovery
    rfl

/-- The friends of the flood, with announces made in another second. -/
def lanRemade (sentUnix : UInt32) : Flood := { lanFlood with sentUnix }

/-- Announces that are out of the window in the second after the last of 4096. -/
def lanAging : Flood := lanRemade 1700000042

theorem lanAging_genuine : lanAging.Genuine trustingCrypto where
  distinct := lanFlood_genuine.distinct
  notOurs := lanFlood_genuine.notOurs
  signed _ := Announce.verifySignature_encode rfl
  inWindow := by
    intro count bounded
    have sent : lanAging.sentUnix.toNat = 1700000042 := rfl
    have window : announceReplayWindow = 60 := rfl
    have epoch : lanAging.epoch = 1700000000 * 10 ^ 9 := rfl
    have cap : announceSeenRemembered = 4096 := rfl
    rw [inWindow_iff, unixNow_toNat, sent, window, epoch]
    unfold floodClock floodGap
    omega
  sourceIsLocal := lanFlood_genuine.sourceIsLocal

/-- The first of `cap` announces again, that of one more friend after the second in which
theirs run out, and the first once more. -/
def lanReplays (cap : Nat) : List Datagram :=
  [lanAging.datagram 0 (floodClock cap), (lanRemade 1700000104).datagram cap (104 * 10 ^ 9),
    lanAging.datagram 0 (105 * 10 ^ 9)]

/-- A run that has heard `cap` of the friends, and where the guard knows the first. -/
structure Aged (cap : Nat) (listener : Listener) : Prop where
  isCap : cap = announceSeenRemembered
  paced : lanAging.Paced cap listener
  remembered : lanAging.Remembered announceSeenRemembered listener.discovery.replay
  known : listener.discovery.replay.seen.lookup (lanAging.announce 0).triple = some ()

namespace Aged

variable {cap : Nat} {listener : Listener}

/-- The guard stops the replay. -/
theorem replayed (aged : Aged cap listener) :
    listener.hear trustingCrypto (lanAging.datagram 0 (floodClock cap)) =
      Discovery.dropWith { listener.discovery with
        limiter := (listener.discovery.limiter.admitPacket (floodClock cap)).1.record
          (lanAging.key 0) (floodClock cap) } .replayed := by
  obtain ⟨isCap, paced, -, known⟩ := aged
  have forgetful : lanAging.Paced cap
      { listener with discovery := { listener.discovery with replay := ⟨∅, []⟩ } } :=
    ⟨paced.now, paced.nowUnix, paced.community, paced.ownKey, paced.started, paced.pace,
      paced.lastFrom⟩
  have admits := @Flood.Genuine.admits _ _ lanAging_genuine cap 0 _ forgetful (by omega) (by
    intro last found
    obtain ⟨index, below, isKey, isLast⟩ := paced.lastFrom _ last found
    have isFirst := lanAging_genuine.distinct 0 index (Nat.zero_le _) (by omega) isKey
    have size : announceSeenRemembered = 4096 := rfl
    rw [isLast, ← isFirst, isCap, size]
    unfold announcePerKeyGap floodClock floodGap
    omega) rfl
  have heard := hear_of_seen admits (by rw [Flood.ofFrame_datagram]; exact known)
  rw [Flood.ofFrame_datagram] at heard
  exact heard

/-- The announce of one more friend passes every check. -/
theorem admits (aged : Aged cap listener) :
    Admits trustingCrypto (listener.hear trustingCrypto
        (lanAging.datagram 0 (floodClock cap))).1
      ((lanRemade 1700000104).datagram cap (104 * 10 ^ 9)) := by
  have size : announceSeenRemembered = 4096 := rfl
  rw [aged.replayed]
  obtain ⟨isCap, paced, remembered, -⟩ := aged
  obtain ⟨-, lastFrom, started, -⟩ := Flood.admitPacket_paced paced.started paced.pace
  have window := Flood.record_window (listener.discovery.limiter.admitPacket (floodClock cap)).1
    (lanAging.key 0) (floodClock cap)
  have clock : floodClock cap = 102400000000 := by
    rw [isCap]
    rfl
  have reset : 10 ^ 9 ≤ 104 * 10 ^ 9 - (ReceiveLimiter.record
      (listener.discovery.limiter.admitPacket (floodClock cap)).1 (lanAging.key 0)
        (floodClock cap)).windowStart := by
    rw [window.1]
    omega
  have packet := Flood.admitPacket_reset reset
  have isOther {index : Nat} (isKey : lanAging.key cap = lanAging.key index) (below : index < cap) :
      False := by
    have same := lanAging_genuine.distinct cap index (by omega) (by omega) isKey
    omega
  have quiet : (ReceiveLimiter.record
      (listener.discovery.limiter.admitPacket (floodClock cap)).1 (lanAging.key 0)
        (floodClock cap)).lastFrom.lookup (lanAging.key cap) = none := by
    rw [Option.eq_none_iff_forall_ne_some]
    intro last found
    rcases Flood.lookup_record found with ⟨isKey, -⟩ | before
    · exact isOther isKey (by omega)
    · rw [lastFrom] at before
      obtain ⟨index, below, isKey, -⟩ := paced.lastFrom _ last before
      exact isOther isKey below
  constructor
  · exact congrArg Prod.snd packet
  · rw [Flood.ofFrame_datagram]
    show Announce.parseUnverified _ listener.discovery.community _ = _
    rw [paced.community]
    apply Announce.parseUnverified_encode
    exact Bool.or_true _
  · rw [Flood.ofFrame_datagram]
    show lanAging.key cap ≠ listener.discovery.ownKey
    rw [paced.ownKey]
    exact lanFlood_genuine.notOurs cap
  · rw [Flood.ofFrame_datagram]
    exact Announce.verifySignature_encode rfl
  · rw [Flood.ofFrame_datagram]
    show (ReceiveLimiter.admitKey (ReceiveLimiter.admitPacket (ReceiveLimiter.record
      (listener.discovery.limiter.admitPacket (floodClock cap)).1 (lanAging.key 0)
        (floodClock cap)) (104 * 10 ^ 9)).1 (lanAging.key cap) _).2 = true
    rw [packet]
    unfold ReceiveLimiter.admitKey ReceiveLimiter.tooSoon
    dsimp only
    rw [quiet]
    rfl
  · rw [Flood.ofFrame_datagram]
    show ReplayGuard.inWindow 1700000104 (unixNow (1700000000 * 10 ^ 9) (104 * 10 ^ 9)) = true
    decide
  · rw [Flood.ofFrame_datagram, Option.eq_none_iff_forall_ne_some]
    intro held found
    obtain ⟨index, below, isTriple⟩ := remembered.seen _ held found
    exact isOther (congrArg Prod.fst isTriple) (isCap ▸ below)

/-- The window stops the second replay. -/
theorem outside (other : Listener) :
    ¬Admits trustingCrypto other.discovery (lanAging.datagram 0 (105 * 10 ^ 9)) := by
  intro admits
  have inWindow := admits.inWindow
  rw [Flood.ofFrame_datagram] at inWindow
  change ReplayGuard.inWindow 1700000042 (unixNow (1700000000 * 10 ^ 9) (105 * 10 ^ 9)) = true
    at inWindow
  revert inWindow
  decide

/-- The friend who comes after the window makes the guard forget the first announce. -/
theorem replays (aged : Aged cap listener) :
    Guarded (Listener.step trustingCrypto)
        (fun listener datagram =>
          listener.InTime datagram ∧ listener.Covered trustingCrypto datagram)
        listener (lanReplays cap) ∧
      (run (Listener.step trustingCrypto) listener (lanReplays cap)).discovery.replay.seen.lookup
        (lanAging.announce 0).triple = none := by
  have size : announceSeenRemembered = 4096 := rfl
  have clock : floodClock cap ≤ 104 * 10 ^ 9 := by
    unfold floodClock floodGap
    have isCap := aged.isCap
    omega
  have replay : (listener.hear trustingCrypto (lanAging.datagram 0
      (floodClock cap))).1.replay = listener.discovery.replay := by
    rw [aged.replayed]
    rfl
  obtain ⟨cache, counters, after⟩ := @Flood.step_of_admits _ _ _ _
    (listener.step trustingCrypto (lanAging.datagram 0 (floodClock cap))) aged.admits
  have remembers : ((listener.step trustingCrypto (lanAging.datagram 0 (floodClock cap))).step
      trustingCrypto ((lanRemade 1700000104).datagram cap (104 * 10 ^ 9))).discovery.replay =
        listener.discovery.replay.remember ((lanRemade 1700000104).announce cap).triple := by
    rw [after, ← replay]
    rfl
  refine ⟨⟨⟨aged.paced.inTime 0, ?_⟩, ⟨⟨clock, unixNow_mono _ clock⟩, ?_⟩, ⟨?_, ?_⟩, trivial⟩, ?_⟩
  · intro admits
    have unseen := admits.unseen
    rw [Flood.ofFrame_datagram, aged.known] at unseen
    cases unseen
  · intro _ triple pushed
    have held : triple ∈ listener.discovery.replay.order := by
      rw [← replay]
      exact List.mem_of_mem_take pushed
    rw [aged.remembered.order] at held
    obtain ⟨index, -, rfl⟩ := List.mem_map.mp held
    show (1700000042 : UInt32).toNat + announceReplayWindow <
      (unixNow (1700000000 * 10 ^ 9) (104 * 10 ^ 9)).toNat
    decide
  · have later : 104 * 10 ^ 9 ≤ 105 * 10 ^ 9 := by decide
    rw [after]
    exact ⟨later, unixNow_mono _ later⟩
  · exact fun admits => absurd admits (outside _)
  · rcases replay_step trustingCrypto ((listener.step trustingCrypto
        (lanAging.datagram 0 (floodClock cap))).step trustingCrypto
          ((lanRemade 1700000104).datagram cap (104 * 10 ^ 9)))
        (lanAging.datagram 0 (105 * 10 ^ 9)) with same | ⟨admits, -⟩
    · rw [lanReplays, run_cons, run_cons, run_cons, run_nil, same, remembers]
      exact aged.remembered.overflow _
    · exact absurd admits (outside _)

end Aged

/-- After 4096 announces the guard stops the replay of the first, forgets the first for a later
one, and the window stops the next replay. -/
theorem announce_accepted_once_aging :
    (run (Listener.step trustingCrypto) lanAging.start
        (lanAging.wave announceSeenRemembered ++
          lanReplays announceSeenRemembered)).discovery.replay.seen.lookup
            (lanAging.announce 0).triple = none ∧
      (outputs (Listener.step trustingCrypto) (Listener.accepted trustingCrypto) lanAging.start
        (lanAging.wave announceSeenRemembered ++ lanReplays announceSeenRemembered)).Nodup := by
  generalize isCap : announceSeenRemembered = cap
  obtain ⟨heard, remembered⟩ := lanAging_genuine.heard cap isCap.ge
  have aged : Aged cap (run (Listener.step trustingCrypto) lanAging.start (lanAging.wave cap)) :=
    ⟨isCap.symm, heard.paced, isCap ▸ remembered,
      lanAging_genuine.known (by rw [← isCap]; decide) isCap.ge⟩
  obtain ⟨guarded, forgotten⟩ := aged.replays
  constructor
  · rw [run_append]
    exact forgotten
  · apply announce_accepted_once
    rw [guarded_append]
    exact ⟨guarded_and.mpr ⟨heard.inTime, lanAging_genuine.covered cap isCap.ge⟩, guarded⟩

/-- 4097 friends announce within 103 seconds, and the announce of the first is replayed:
it is accepted twice. -/
theorem announce_accepted_twice :
    Guarded (Listener.step trustingCrypto) Listener.InTime lanFlood.start
        (lanFlood.wave (announceSeenRemembered + 1) ++
          [lanFlood.datagram 0 (floodClock (announceSeenRemembered + 1))]) ∧
      ¬(outputs (Listener.step trustingCrypto) (Listener.accepted trustingCrypto) lanFlood.start
        (lanFlood.wave (announceSeenRemembered + 1) ++
          [lanFlood.datagram 0 (floodClock (announceSeenRemembered + 1))])).Nodup :=
  lanFlood_genuine.accepted_again rfl

end Mosschat.Net
