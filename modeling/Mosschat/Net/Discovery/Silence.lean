import Mosschat.Net.Discovery.Gap

/-!
Owns what a dropped announce costs its friend: two runs of one house, of which only one
heard the datagram, answer alike from then on when the datagram spent nothing, and the
friend's next announce is refused when it did.

Does not own the packet ceiling, which is the whole house's and is set apart.
-/

namespace Mosschat.Net

open Mosschat.Core Mosschat.Library Mosschat.Library.Cbor Mosschat.Library.Machine

/-- Two houses hear the same datagram. -/
def Listener.stepBoth (crypto : Crypto) (both : Listener × Listener) (datagram : Datagram) :
    Listener × Listener :=
  (both.1.step crypto datagram, both.2.step crypto datagram)

/-- The ceiling of packets a second answers both houses alike. -/
def SameCeiling (both : Listener × Listener) (datagram : Datagram) : Prop :=
  (both.1.discovery.limiter.admitPacket datagram.now).2 =
    (both.2.discovery.limiter.admitPacket datagram.now).2

/-- A friend's own announce, from an address on this network, made inside the window and not
heard before. -/
structure Fresh (crypto : Crypto) (discovery : Discovery) (datagram : Datagram) : Prop where
  parsed : Announce.parseUnverified datagram.bytes discovery.community
    (fun key => key == discovery.ownKey || datagram.isFriend key) =
      .ok (Announce.ofFrame datagram.bytes)
  friend : datagram.isFriend (Announce.ofFrame datagram.bytes).key = true
  notOurs : (Announce.ofFrame datagram.bytes).key ≠ discovery.ownKey
  signed : (Announce.ofFrame datagram.bytes).verifySignature crypto datagram.bytes = .ok ()
  inWindow : ReplayGuard.inWindow (Announce.ofFrame datagram.bytes).sentUnix datagram.nowUnix = true
  unseen : discovery.replay.seen.lookup (Announce.ofFrame datagram.bytes).triple = none
  isLocal : discovery.sourceIsLocal
    (unmapV4 ⟨datagram.source.ip, (Announce.ofFrame datagram.bytes).port⟩).ip = true

/-- Every later fresh announce gets the answer it gets in the house that never heard this
datagram. -/
def SilencesNobody (crypto : Crypto) (listener : Listener) (datagram : Datagram) : Prop :=
  ∀ between later,
    Guarded (Listener.step crypto) (fun listener datagram => listener.now ≤ datagram.now)
      (listener.step crypto datagram) (between ++ [later]) →
    Guarded (Listener.stepBoth crypto) SameCeiling (listener.step crypto datagram, listener)
      (between ++ [later]) →
    Fresh crypto (run (Listener.step crypto) listener between).discovery later →
    ((run (Listener.step crypto) (listener.step crypto datagram) between).hear crypto later).2 =
      ((run (Listener.step crypto) listener between).hear crypto later).2

/-- The friend whose announce the datagram is makes a fresh one inside its gap, which the
ceiling lets in. -/
structure AnnouncesAgain (crypto : Crypto) (listener : Listener) (datagram later : Datagram) :
    Prop where
  sameKey : (Announce.ofFrame later.bytes).key = (Announce.ofFrame datagram.bytes).key
  forward : datagram.now ≤ later.now
  soon : later.now < datagram.now + announcePerKeyGap
  fresh : Fresh crypto listener.discovery later
  packet : (listener.discovery.limiter.admitPacket later.now).2 = true
  packetAfter : ((listener.step crypto datagram).discovery.limiter.admitPacket later.now).2 = true

/-! ## Two houses that differ in what they counted -/

/-- The same house with other counts. -/
def Discovery.recounted (discovery : Discovery) (windowStart inWindow : Nat)
    (counters : DiscoveryCounters) : Discovery :=
  { discovery with limiter := { discovery.limiter with windowStart, inWindow }, counters }

/-- The houses differ in the ceiling's window and the counters at most. -/
def Alike (left right : Discovery) : Prop :=
  ∃ windowStart inWindow counters, right = left.recounted windowStart inWindow counters

section Recounted

variable (discovery : Discovery) (windowStart inWindow : Nat) (counters : DiscoveryCounters)

theorem dropWith_recounted (reason : AnnounceError) :
    ∃ after, (discovery.recounted windowStart inWindow counters).dropWith reason =
      ((discovery.dropWith reason).1.recounted windowStart inWindow after,
        (discovery.dropWith reason).2) :=
  ⟨_, rfl⟩

theorem handOff_recounted (announce : Announce) (source : SocketAddr) (now : Nat) :
    ∃ after, (discovery.recounted windowStart inWindow counters).handOff announce source now =
      ((discovery.handOff announce source now).1.recounted windowStart inWindow after,
        (discovery.handOff announce source now).2) := by
  unfold Discovery.handOff
  simp only
  rw [show (discovery.recounted windowStart inWindow counters).sourceIsLocal _ =
    discovery.sourceIsLocal _ from rfl]
  split
  · exact dropWith_recounted discovery windowStart inWindow counters _
  · exact ⟨_, rfl⟩

theorem record_recounted (limiter : ReceiveLimiter) (key : Bytes32) (now : Nat) :
    ReceiveLimiter.record { limiter with windowStart, inWindow } key now =
      { limiter.record key now with windowStart, inWindow } := by
  unfold ReceiveLimiter.record
  simp only
  split <;> rfl

theorem admitKey_recounted (limiter : ReceiveLimiter) (key : Bytes32) (now : Nat) :
    ReceiveLimiter.admitKey { limiter with windowStart, inWindow } key now =
      ({ (limiter.admitKey key now).1 with windowStart, inWindow },
        (limiter.admitKey key now).2) := by
  have sameSoon : ReceiveLimiter.tooSoon { limiter with windowStart, inWindow } key now =
      limiter.tooSoon key now := rfl
  cases soon : limiter.tooSoon key now with
  | true => rw [admitKey_of_soon soon, admitKey_of_soon (sameSoon.trans soon)]
  | false =>
      rw [admitKey_of_not_soon soon, admitKey_of_not_soon (sameSoon.trans soon), record_recounted]

end Recounted

/-- What `on_datagram` does with a datagram the ceiling let in. -/
def Discovery.judge (crypto : Crypto) (discovery : Discovery) (datagram : Datagram) :
    Discovery × Heard :=
  let known := fun key => key == discovery.ownKey || datagram.isFriend key
  match Announce.parseUnverified datagram.bytes discovery.community known with
  | .error reason => discovery.dropWith reason
  | .ok announce =>
    if announce.key = discovery.ownKey then discovery.dropWith .ourselves
    else
      match announce.verifySignature crypto datagram.bytes with
      | .error reason => discovery.dropWith reason
      | .ok () =>
        let quiet := discovery.limiter.admitKey announce.key datagram.now
        let discovery := { discovery with limiter := quiet.1 }
        if !quiet.2 then discovery.dropWith .rateLimited
        else
          let admitted := discovery.replay.admitAnnounce announce datagram.nowUnix
          let discovery := { discovery with replay := admitted.1 }
          match admitted.2 with
          | .error reason => discovery.dropWith reason
          | .ok () => discovery.handOff announce datagram.source datagram.now

theorem hear_eq (crypto : Crypto) (listener : Listener) (datagram : Datagram) :
    listener.hear crypto datagram =
      if !(listener.discovery.limiter.admitPacket datagram.now).2 then
        Discovery.dropWith
          { listener.discovery with
            limiter := (listener.discovery.limiter.admitPacket datagram.now).1 }
          .rateLimited
      else
        Discovery.judge crypto
          { listener.discovery with
            limiter := (listener.discovery.limiter.admitPacket datagram.now).1 }
          datagram :=
  rfl

/-- The counts have no say in the judgement. -/
theorem judge_recounted (crypto : Crypto) (discovery : Discovery) (datagram : Datagram)
    (windowStart inWindow : Nat) (counters : DiscoveryCounters) :
    ∃ after, (discovery.recounted windowStart inWindow counters).judge crypto datagram =
      ((discovery.judge crypto datagram).1.recounted windowStart inWindow after,
        (discovery.judge crypto datagram).2) := by
  unfold Discovery.judge
  simp only
  rw [show (discovery.recounted windowStart inWindow counters).ownKey = discovery.ownKey from rfl,
    show (discovery.recounted windowStart inWindow counters).community =
      discovery.community from rfl,
    show (discovery.recounted windowStart inWindow counters).limiter =
      { discovery.limiter with windowStart, inWindow } from rfl,
    show (discovery.recounted windowStart inWindow counters).replay = discovery.replay from rfl]
  split
  · exact dropWith_recounted discovery windowStart inWindow counters _
  next announce parsed =>
  split
  · exact dropWith_recounted discovery windowStart inWindow counters _
  split
  · exact dropWith_recounted discovery windowStart inWindow counters _
  rw [admitKey_recounted]
  simp only
  split
  · exact dropWith_recounted
      { discovery with limiter := (discovery.limiter.admitKey announce.key datagram.now).1 }
      windowStart inWindow counters _
  split
  · exact dropWith_recounted
      { discovery with
        limiter := (discovery.limiter.admitKey announce.key datagram.now).1
        replay := (discovery.replay.admitAnnounce announce datagram.nowUnix).1 }
      windowStart inWindow counters _
  · exact handOff_recounted
      { discovery with
        limiter := (discovery.limiter.admitKey announce.key datagram.now).1
        replay := (discovery.replay.admitAnnounce announce datagram.nowUnix).1 }
      windowStart inWindow counters _ _ _

theorem admitPacket_fst (limiter : ReceiveLimiter) (now : Nat) :
    ∃ windowStart inWindow,
      (limiter.admitPacket now).1 = { limiter with windowStart, inWindow } := by
  unfold ReceiveLimiter.admitPacket
  simp only
  split <;> split <;> exact ⟨_, _, rfl⟩

/-- Two houses alike that the ceiling answers alike give one answer, and stay alike. -/
theorem Alike.hear {left right : Listener} (alike : Alike left.discovery right.discovery)
    (crypto : Crypto) {datagram : Datagram} (sameCeiling : SameCeiling (left, right) datagram) :
    Alike (left.hear crypto datagram).1 (right.hear crypto datagram).1 ∧
      (left.hear crypto datagram).2 = (right.hear crypto datagram).2 := by
  obtain ⟨windowStart, inWindow, counters, isRight⟩ := alike
  obtain ⟨leftStart, leftCount, leftPacket⟩ :=
    admitPacket_fst left.discovery.limiter datagram.now
  obtain ⟨rightStart, rightCount, rightPacket⟩ :=
    admitPacket_fst right.discovery.limiter datagram.now
  have passed : ({ right.discovery with
        limiter := (right.discovery.limiter.admitPacket datagram.now).1 } : Discovery) =
      Discovery.recounted
        { left.discovery with
          limiter := (left.discovery.limiter.admitPacket datagram.now).1 }
        rightStart rightCount counters := by
    rw [leftPacket, rightPacket, isRight]
    rfl
  unfold SameCeiling at sameCeiling
  rw [hear_eq, hear_eq, passed, ← sameCeiling]
  split
  · obtain ⟨after, same⟩ := dropWith_recounted
      { left.discovery with limiter := (left.discovery.limiter.admitPacket datagram.now).1 }
      rightStart rightCount counters .rateLimited
    rw [same]
    exact ⟨⟨_, _, _, rfl⟩, rfl⟩
  · obtain ⟨after, same⟩ := judge_recounted crypto
      { left.discovery with limiter := (left.discovery.limiter.admitPacket datagram.now).1 }
      datagram rightStart rightCount counters
    rw [same]
    exact ⟨⟨_, _, _, rfl⟩, rfl⟩

theorem Alike.symm {left right : Discovery} (alike : Alike left right) : Alike right left := by
  obtain ⟨windowStart, inWindow, counters, isRight⟩ := alike
  refine ⟨left.limiter.windowStart, left.limiter.inWindow, left.counters, ?_⟩
  rw [isRight]
  rfl

theorem run_stepBoth (crypto : Crypto) (both : Listener × Listener) (datagrams : List Datagram) :
    run (Listener.stepBoth crypto) both datagrams =
      (run (Listener.step crypto) both.1 datagrams,
        run (Listener.step crypto) both.2 datagrams) := by
  induction datagrams generalizing both with
  | nil => rfl
  | cons datagram rest ih =>
      rw [run_cons, ih]
      rfl

/-- Two houses alike stay alike over every run the ceiling answers alike. -/
theorem Alike.run {crypto : Crypto} {both : Listener × Listener} {datagrams : List Datagram}
    (alike : Alike both.1.discovery both.2.discovery)
    (sameCeiling : Guarded (Listener.stepBoth crypto) SameCeiling both datagrams) :
    Alike (run (Listener.step crypto) both.1 datagrams).discovery
      (run (Listener.step crypto) both.2 datagrams).discovery := by
  induction datagrams generalizing both with
  | nil => exact alike
  | cons datagram rest ih =>
      have next : Alike (both.1.step crypto datagram).discovery
          (both.2.step crypto datagram).discovery := (alike.hear crypto sameCeiling.1).1
      exact ih next sameCeiling.2

/-! ## A dropped announce -/

variable {crypto : Crypto} {listener : Listener} {datagram : Datagram}

/-- A datagram that spends nothing leaves the house as it was, apart from its counts. -/
theorem alike_of_unspent (free : ¬Spends crypto listener.discovery datagram) :
    Alike listener.discovery (listener.step crypto datagram).discovery := by
  have judged := judged_onDatagram crypto listener.discovery datagram
  show Alike listener.discovery (listener.hear crypto datagram).1
  change Judged crypto listener.discovery datagram (listener.hear crypto datagram) at judged
  generalize listener.hear crypto datagram = result at judged ⊢
  cases judged with
  | unspent unspent reason =>
      obtain ⟨windowStart, inWindow, passed⟩ :=
        admitPacket_fst listener.discovery.limiter datagram.now
      rw [passed]
      exact ⟨windowStart, inWindow, _, rfl⟩
  | refused spends reason => exact absurd spends free
  | admitted spends => exact absurd spends free

theorem silencesNobody_of_unspent (free : ¬Spends crypto listener.discovery datagram) :
    SilencesNobody crypto listener datagram := by
  intro between later ordered sameCeiling fresh
  rw [guarded_append] at sameCeiling
  have alike : Alike (run (Listener.step crypto) (listener.step crypto datagram) between).discovery
      (run (Listener.step crypto) listener between).discovery :=
    (alike_of_unspent free).symm.run sameCeiling.1
  rw [run_stepBoth] at sameCeiling
  exact (alike.hear crypto sameCeiling.2.1).2

/-- An announce inside the gap of its key is refused. -/
theorem hear_of_soon (packet : (listener.discovery.limiter.admitPacket datagram.now).2 = true)
    (parsed : Announce.parseUnverified datagram.bytes listener.discovery.community
      (fun key => key == listener.discovery.ownKey || datagram.isFriend key) =
        .ok (Announce.ofFrame datagram.bytes))
    (notOurs : (Announce.ofFrame datagram.bytes).key ≠ listener.discovery.ownKey)
    (signed : (Announce.ofFrame datagram.bytes).verifySignature crypto datagram.bytes = .ok ())
    (soon : (listener.discovery.limiter.admitPacket datagram.now).1.tooSoon
      (Announce.ofFrame datagram.bytes).key datagram.now = true) :
    (listener.hear crypto datagram).2 = .dropped .rateLimited := by
  rw [hear_eq, packet]
  unfold Discovery.judge
  simp only [Bool.not_true, Bool.false_eq_true, if_false]
  rw [parsed]
  simp only
  rw [if_neg notOurs, signed, admitKey_of_soon soon]
  rfl

namespace AnnouncesAgain

variable {later : Datagram}

/-- Had the dropped datagram never come, the friend would have been discovered. -/
theorem discovered (again : AnnouncesAgain crypto listener datagram later)
    (spends : Spends crypto listener.discovery datagram) :
    ∃ key addr reply, (listener.hear crypto later).2 = .discovered key addr reply := by
  have fresh := again.fresh
  have notSoon : (listener.discovery.limiter.admitPacket later.now).1.tooSoon
      (Announce.ofFrame later.bytes).key later.now = false := by
    have earlier := spends.notSoon
    have forward := again.forward
    unfold ReceiveLimiter.tooSoon at earlier ⊢
    rw [(admitPacket_keys _ _).1] at earlier ⊢
    rw [again.sameKey]
    cases found : listener.discovery.limiter.lastFrom.lookup (Announce.ofFrame datagram.bytes).key with
    | none => rfl
    | some last =>
        rw [found] at earlier
        have longAgo := of_decide_eq_false earlier
        apply decide_eq_false
        omega
  have admits : Admits crypto listener.discovery later :=
    { packet := again.packet
      parsed := fresh.parsed
      notOurs := fresh.notOurs
      signed := fresh.signed
      quiet := by rw [admitKey_of_not_soon notSoon]
      inWindow := fresh.inWindow
      unseen := fresh.unseen }
  have isLocal : (listener.discovery.charge (Announce.ofFrame later.bytes) later.now).sourceIsLocal
      (unmapV4 ⟨later.source.ip, (Announce.ofFrame later.bytes).port⟩).ip = true := fresh.isLocal
  obtain ⟨reply, found⟩ := handOff_snd isLocal later.now
  rw [hear_of_admits admits, found]
  exact ⟨_, _, reply, rfl⟩

/-- After it, the friend is refused. -/
theorem refused (again : AnnouncesAgain crypto listener datagram later)
    (queued : listener.discovery.limiter.Queued)
    (spends : Spends crypto listener.discovery datagram) :
    ((listener.step crypto datagram).hear crypto later).2 = .dropped .rateLimited := by
  have fresh := again.fresh
  have fixed := Listener.step_fixed crypto listener datagram
  have forward := again.forward
  have soonAfter := again.soon
  apply hear_of_soon again.packetAfter
  · rw [fixed.1, fixed.2]
    exact fresh.parsed
  · rw [fixed.2]
    exact fresh.notOurs
  · exact fresh.signed
  · unfold ReceiveLimiter.tooSoon
    rw [(admitPacket_keys _ _).1, again.sameKey, limiter_of_spends spends,
      lookup_spend _ (not_mem_pushedOut queued _), if_pos rfl]
    apply decide_eq_true
    omega

end AnnouncesAgain

/-- A datagram that spends nothing silences nobody; and where the friend whose key it bears
announces again inside the gap, that announce is answered as if the datagram had never come
exactly when the datagram spent nothing. -/
theorem silencesNobody_iff (crypto : Crypto) (listener : Listener) (datagram : Datagram) :
    (¬Spends crypto listener.discovery datagram → SilencesNobody crypto listener datagram) ∧
      (listener.discovery.limiter.Queued →
        ∀ later, AnnouncesAgain crypto listener datagram later →
          (((listener.step crypto datagram).hear crypto later).2 = (listener.hear crypto later).2 ↔
            ¬Spends crypto listener.discovery datagram)) := by
  refine ⟨silencesNobody_of_unspent, ?_⟩
  intro queued later again
  constructor
  · intro same spends
    obtain ⟨key, addr, reply, found⟩ := again.discovered spends
    rw [again.refused queued spends, found] at same
    cases same
  · intro free
    have sameCeiling : SameCeiling (listener.step crypto datagram, listener) later :=
      again.packetAfter.trans again.packet.symm
    exact ((alike_of_unspent free).symm.hear crypto sameCeiling).2

/-! ### An old announce sent again -/

/-- An announce of the first friend made a day before, which anyone on the network may have
kept. -/
def lanStale : Datagram := (lanRemade 1699913600).datagram 0 0

/-- The first friend's announce of five seconds later. -/
def lanNext : Datagram := lanFlood.datagram 0 (5 * 10 ^ 9)

theorem lanNext_fresh : Fresh trustingCrypto lanFlood.start.discovery lanNext := by
  unfold lanNext
  constructor
  · rw [Flood.ofFrame_datagram]
    apply Announce.parseUnverified_encode
    rfl
  · rfl
  · rw [Flood.ofFrame_datagram]
    exact lanFlood_genuine.notOurs 0
  · rw [Flood.ofFrame_datagram]
    exact lanFlood_genuine.signed 0
  · rw [Flood.ofFrame_datagram]
    apply lanFlood_inWindow
    decide
  · rfl
  · rfl

theorem lanStale_spends : Spends trustingCrypto lanFlood.start.discovery lanStale := by
  have unhurried : Flood.Unhurried 0 lanFlood.start.discovery.limiter :=
    ⟨Nat.zero_le _, Nat.zero_le _⟩
  apply spends_lan unhurried rfl rfl
  intro last found
  cases found

/-- The friend announces again, five seconds after the old announce came. -/
theorem lanNext_again : AnnouncesAgain trustingCrypto lanFlood.start lanStale lanNext := by
  constructor
  · unfold lanNext lanStale
    rw [Flood.ofFrame_datagram, Flood.ofFrame_datagram]
    rfl
  · exact Nat.zero_le _
  · decide
  · exact lanNext_fresh
  · decide
  · rw [limiter_of_spends lanStale_spends]
    decide

/-- Once the old announce has come again, and been dropped, the friend's next one is not
heard. -/
theorem lanStale_silences :
    (lanFlood.start.hear trustingCrypto lanStale).2 = .dropped .outsideWindow ∧
      ¬SilencesNobody trustingCrypto lanFlood.start lanStale := by
  have again := lanNext_again
  refine ⟨by decide +kernel, ?_⟩
  intro silences
  have sameCeiling : SameCeiling (lanFlood.start.step trustingCrypto lanStale, lanFlood.start)
      lanNext := again.packetAfter.trans again.packet.symm
  have same := silences [] lanNext ⟨again.forward, trivial⟩ ⟨sameCeiling, trivial⟩ again.fresh
  obtain ⟨key, addr, reply, found⟩ := again.discovered lanStale_spends
  rw [run_nil, run_nil, again.refused (ReceiveLimiter.queued_new 0) lanStale_spends, found] at same
  cases same

end Mosschat.Net
