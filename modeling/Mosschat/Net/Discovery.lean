import Mosschat.Library.Fifo
import Mosschat.Net.Live

/-!
Owns the receive side of same-network discovery, from `discovery.rs`: the announce
frame, the receive limiter, the replay guard, `Discovery::on_datagram` and what is read
of the addresses it discovered.

Does not own the announcing schedule or the multicast socket.
-/

namespace Mosschat.Net

open Mosschat.Core Mosschat.Library Mosschat.Library.Cbor

/-! ## The announce frame -/

def announceDiscriminator : UInt8 := 0x2b
def announceLen : Nat := 144
def announceType : UInt8 := 0x01

/-- `b"MSD"`. -/
def announceMagic : Bytes := [0x4d, 0x53, 0x44]

/-- `ANNOUNCE_SIGNING_CONTEXT`. -/
def announceSigningContext : Bytes := "mosschat-discovery-v1".toUTF8.toList

/-- `ANNOUNCE_PER_KEY_GAP`, in nanoseconds. -/
def announcePerKeyGap : Nat := 10 * 10 ^ 9

def announcePacketsPerSecond : Nat := 50

/-- `ANNOUNCE_REPLAY_WINDOW`, in seconds. -/
def announceReplayWindow : Nat := 60

def announceSeenRemembered : Nat := 4096
def dedupeKeysRemembered : Nat := 512

/-- `AnnounceError`. -/
inductive AnnounceError where
  | malformed
  | otherCommunity
  | notAFriend
  | badSignature
  | ourselves
  | rateLimited
  | outsideWindow
  | replayed
  | sourceNotLocal
deriving DecidableEq

/-- `Announce`. -/
structure Announce where
  community : Bytes32
  key : Bytes32
  port : UInt16
  sentUnix : UInt32
  nonce : List.Vector UInt8 4
deriving DecidableEq

/-- What the replay guard knows an announce by. -/
abbrev Triple := Bytes32 × UInt32 × List.Vector UInt8 4

/-- `bytes[start..start + width]`, of a frame whose length has been checked. -/
def sliceAt (bytes : Bytes) (start width : Nat) : List.Vector UInt8 width :=
  ⟨(bytes.drop start).takeD width 0, List.takeD_length _ _ _⟩

namespace Announce

def triple (announce : Announce) : Triple := (announce.key, announce.sentUnix, announce.nonce)

/-- Bytes 0 to 6 of the frame. -/
def header : Bytes := announceDiscriminator :: (announceMagic ++ [0x01, announceType])

/-- Bytes 0 to 80 of the frame, the part the signature covers. -/
def signedPart (announce : Announce) : Bytes :=
  header ++
    (announce.community.toList ++
      (announce.key.toList ++
        (beBytes 2 announce.port.toNat ++
          (beBytes 4 announce.sentUnix.toNat ++ announce.nonce.toList))))

/-- `Announce::encode`, with the signer's `sign`. -/
def encode (announce : Announce) (sign : Bytes → Bytes64) : Bytes :=
  announce.signedPart ++ (sign (announceSigningContext ++ announce.signedPart)).toList

/-- The fields of a frame that passed the shape checks. -/
def ofFrame (bytes : Bytes) : Announce where
  community := sliceAt bytes 6 32
  key := sliceAt bytes 38 32
  port := UInt16.ofNat (beValue (sliceAt bytes 70 2).toList)
  sentUnix := UInt32.ofNat (beValue (sliceAt bytes 72 4).toList)
  nonce := sliceAt bytes 76 4

/-- Whether the fixed bytes of the frame are right. -/
def wellShaped (bytes : Bytes) : Bool :=
  bytes[0]? == some announceDiscriminator && (bytes.drop 1).take 3 == announceMagic &&
    bytes[4]? == some 0x01 && bytes[5]? == some announceType

/-- `Announce::parse_unverified`. -/
def parseUnverified (bytes : Bytes) (community : Bytes32) (isFriend : Bytes32 → Bool) :
    Except AnnounceError Announce :=
  if bytes.length ≠ announceLen then .error .malformed
  else if !wellShaped bytes then .error .malformed
  else if (ofFrame bytes).community ≠ community then .error .otherCommunity
  else if !isFriend (ofFrame bytes).key then .error .notAFriend
  else .ok (ofFrame bytes)

/-- `Announce::verify_signature`. -/
def verifySignature (crypto : Crypto) (announce : Announce) (bytes : Bytes) :
    Except AnnounceError Unit :=
  if bytes.length ≠ announceLen then .error .malformed
  else
    match verify crypto announce.key (announceSigningContext ++ bytes.take 80)
        (sliceAt bytes 80 64) with
    | .ok () => .ok ()
    | .error _ => .error .badSignature

end Announce

/-! ### The frame's codec -/

/-- A slice past a prefix is a slice of what follows it. -/
theorem sliceAt_skip {front back : Bytes} {skipped start width : Nat} (past : Nat)
    (exact : front.length = skipped) (split : start = skipped + past) :
    sliceAt (front ++ back) start width = sliceAt back past width := by
  apply List.Vector.eq
  show ((front ++ back).drop start).takeD width 0 = (back.drop past).takeD width 0
  rw [split, ← exact, ← List.drop_drop, List.drop_left]

theorem sliceAt_zero_toList {front : Bytes} {width : Nat} (back : Bytes)
    (exact : front.length = width) : (sliceAt (front ++ back) 0 width).toList = front := by
  show (front ++ back).takeD width 0 = front
  exact List.takeD_left' exact

theorem sliceAt_zero {width : Nat} (value : List.Vector UInt8 width) (back : Bytes) :
    sliceAt (value.toList ++ back) 0 width = value :=
  List.Vector.eq _ _ (sliceAt_zero_toList back value.toList_length)

namespace Announce

theorem signedPart_length (announce : Announce) : announce.signedPart.length = 80 := by
  simp only [signedPart, header, announceMagic, List.length_append, List.length_cons,
    List.length_nil, beBytes_length, List.Vector.toList_length]

theorem encode_length (announce : Announce) (sign : Bytes → Bytes64) :
    (announce.encode sign).length = announceLen := by
  rw [encode, List.length_append, signedPart_length, List.Vector.toList_length]
  rfl

theorem encode_eq (announce : Announce) (sign : Bytes → Bytes64) :
    announce.encode sign =
      header ++ (announce.community.toList ++ (announce.key.toList ++
        (beBytes 2 announce.port.toNat ++ (beBytes 4 announce.sentUnix.toNat ++
          (announce.nonce.toList ++
            (sign (announceSigningContext ++ announce.signedPart)).toList))))) := by
  rw [encode]
  conv_lhs => arg 1; rw [signedPart]
  simp only [List.append_assoc]

/-- The fields of an encoded announce are its own. -/
theorem ofFrame_encode (announce : Announce) (sign : Bytes → Bytes64) :
    ofFrame (announce.encode sign) = announce := by
  have headerLength : header.length = 6 := rfl
  have communityLength := announce.community.toList_length
  have keyLength := announce.key.toList_length
  have portLength := beBytes_length 2 announce.port.toNat
  have sentLength := beBytes_length 4 announce.sentUnix.toNat
  have community : sliceAt (announce.encode sign) 6 32 = announce.community := by
    rw [encode_eq, sliceAt_skip 0 headerLength rfl]
    exact sliceAt_zero _ _
  have key : sliceAt (announce.encode sign) 38 32 = announce.key := by
    rw [encode_eq, sliceAt_skip 32 headerLength rfl,
      sliceAt_skip 0 communityLength rfl]
    exact sliceAt_zero _ _
  have port : (sliceAt (announce.encode sign) 70 2).toList = beBytes 2 announce.port.toNat := by
    rw [encode_eq, sliceAt_skip 64 headerLength rfl,
      sliceAt_skip 32 communityLength rfl,
      sliceAt_skip 0 keyLength rfl]
    exact sliceAt_zero_toList _ portLength
  have sent : (sliceAt (announce.encode sign) 72 4).toList =
      beBytes 4 announce.sentUnix.toNat := by
    rw [encode_eq, sliceAt_skip 66 headerLength rfl,
      sliceAt_skip 34 communityLength rfl,
      sliceAt_skip 2 keyLength rfl, sliceAt_skip 0 portLength rfl]
    exact sliceAt_zero_toList _ sentLength
  have nonce : sliceAt (announce.encode sign) 76 4 = announce.nonce := by
    rw [encode_eq, sliceAt_skip 70 headerLength rfl,
      sliceAt_skip 38 communityLength rfl,
      sliceAt_skip 6 keyLength rfl, sliceAt_skip 4 portLength rfl,
      sliceAt_skip 0 sentLength rfl]
    exact sliceAt_zero _ _
  have portBack : UInt16.ofNat (announce.port.toNat % 256 ^ 2) = announce.port := by
    have small : announce.port.toNat < 256 ^ 2 := announce.port.toNat_lt
    rw [Nat.mod_eq_of_lt small, UInt16.ofNat_toNat]
  have sentBack : UInt32.ofNat (announce.sentUnix.toNat % 256 ^ 4) = announce.sentUnix := by
    have small : announce.sentUnix.toNat < 256 ^ 4 := announce.sentUnix.toNat_lt
    rw [Nat.mod_eq_of_lt small, UInt32.ofNat_toNat]
  rw [ofFrame, community, key, port, sent, nonce, beValue_beBytes, beValue_beBytes, portBack,
    sentBack]

/-- A friend's announce is read back from its frame. -/
theorem parseUnverified_encode {announce : Announce} {isFriend : Bytes32 → Bool}
    (sign : Bytes → Bytes64) (friend : isFriend announce.key = true) :
    parseUnverified (announce.encode sign) announce.community isFriend = .ok announce := by
  have shaped : wellShaped (announce.encode sign) = true := rfl
  rw [parseUnverified, if_neg (not_not.mpr (encode_length announce sign)), shaped,
    ofFrame_encode, friend]
  simp

/-- The signature of a frame is checked over what was signed. -/
theorem verifySignature_encode {crypto : Crypto} {announce : Announce} {sign : Bytes → Bytes64}
    (signed : verify crypto announce.key (announceSigningContext ++ announce.signedPart)
      (sign (announceSigningContext ++ announce.signedPart)) = .ok ()) :
    announce.verifySignature crypto (announce.encode sign) = .ok () := by
  have front : (announce.encode sign).take 80 = announce.signedPart :=
    List.take_left' announce.signedPart_length
  have signature : sliceAt (announce.encode sign) 80 64 =
      sign (announceSigningContext ++ announce.signedPart) := by
    rw [← List.append_nil (announce.encode sign), encode, List.append_assoc,
      sliceAt_skip 0 announce.signedPart_length rfl]
    exact sliceAt_zero _ _
  rw [verifySignature, if_neg (not_not.mpr (encode_length announce sign)), front, signature,
    signed]

end Announce

/-! ## The replay guard -/

/-- `ReplayGuard`: the set of the triples admitted, and the order they came in. -/
structure ReplayGuard where
  seen : HashMap Triple Unit
  order : List Triple

namespace ReplayGuard

/-- `ReplayGuard::new`. -/
def new : ReplayGuard := ⟨∅, []⟩

/-- The skew of an announce from this house's clock is within the window. -/
def inWindow (sentUnix : UInt32) (nowUnix : UInt64) : Bool :=
  let sent := sentUnix.toNat
  let now := nowUnix.toNat
  max now sent - min now sent ≤ announceReplayWindow

/-- Record a triple and forget the oldest over the cap. -/
def remember (replay : ReplayGuard) (triple : Triple) : ReplayGuard :=
  let kept := Fifo.evict announceSeenRemembered (replay.order ++ [triple])
    (replay.seen.put triple ())
  ⟨kept.2, kept.1⟩

/-- `ReplayGuard::admit`. -/
def admitAnnounce (replay : ReplayGuard) (announce : Announce) (nowUnix : UInt64) :
    ReplayGuard × Except AnnounceError Unit :=
  if !inWindow announce.sentUnix nowUnix then (replay, .error .outsideWindow)
  else if (replay.seen.lookup announce.triple).isSome then (replay, .error .replayed)
  else (replay.remember announce.triple, .ok ())

end ReplayGuard

/-- `unix_now`. The wall clock runs `epoch` nanoseconds ahead of the monotonic one; a
clock before 1970 reads 0. -/
def unixNow (epoch : Int) (now : Nat) : UInt64 :=
  UInt64.ofNat (min ((epoch + now).toNat / 10 ^ 9) (2 ^ 64 - 1))

theorem unixNow_toNat (epoch : Int) (now : Nat) :
    (unixNow epoch now).toNat = min ((epoch + now).toNat / 10 ^ 9) (2 ^ 64 - 1) := by
  have small : min ((epoch + now).toNat / 10 ^ 9) (2 ^ 64 - 1) < 2 ^ 64 :=
    Nat.lt_of_le_of_lt (Nat.min_le_right _ _) (by decide)
  rw [unixNow, UInt64.toNat_ofNat', Nat.mod_eq_of_lt small]

theorem unixNow_mono (epoch : Int) {earlier later : Nat} (ordered : earlier ≤ later) :
    unixNow epoch earlier ≤ unixNow epoch later := by
  have inOrder : (epoch + earlier).toNat ≤ (epoch + later).toNat := by omega
  have inSeconds : (epoch + earlier).toNat / 10 ^ 9 ≤ (epoch + later).toNat / 10 ^ 9 :=
    Nat.div_le_div_right inOrder
  rw [UInt64.le_iff_toNat_le, unixNow_toNat, unixNow_toNat]
  exact Nat.le_min.mpr ⟨(Nat.min_le_left _ _).trans inSeconds, Nat.min_le_right _ _⟩

/-! ## The receive limiter -/

/-- `ReceiveLimiter`. -/
structure ReceiveLimiter where
  windowStart : Nat
  inWindow : Nat
  lastFrom : HashMap Bytes32 Nat
  order : List Bytes32

namespace ReceiveLimiter

/-- `ReceiveLimiter::new`. -/
def new (now : Nat) : ReceiveLimiter := ⟨now, 0, ∅, []⟩

/-- `ReceiveLimiter::admit_packet`. -/
def admitPacket (limiter : ReceiveLimiter) (now : Nat) : ReceiveLimiter × Bool :=
  let limiter :=
    if 10 ^ 9 ≤ now - limiter.windowStart then { limiter with windowStart := now, inWindow := 0 }
    else limiter
  if announcePacketsPerSecond ≤ limiter.inWindow then (limiter, false)
  else ({ limiter with inWindow := limiter.inWindow + 1 }, true)

/-- Set the time of a key that was let through; a key not held before joins the queue and
may push the oldest out. -/
def record (limiter : ReceiveLimiter) (key : Bytes32) (now : Nat) : ReceiveLimiter :=
  let lastFrom := limiter.lastFrom.put key now
  match limiter.lastFrom.lookup key with
  | some _ => { limiter with lastFrom := lastFrom }
  | none =>
    let kept := Fifo.evict dedupeKeysRemembered (limiter.order ++ [key]) lastFrom
    { limiter with lastFrom := kept.2, order := kept.1 }

/-- The key was let through less than a gap ago. -/
def tooSoon (limiter : ReceiveLimiter) (key : Bytes32) (now : Nat) : Bool :=
  match limiter.lastFrom.lookup key with
  | some last => now - last < announcePerKeyGap
  | none => false

/-- `ReceiveLimiter::admit_key`. -/
def admitKey (limiter : ReceiveLimiter) (key : Bytes32) (now : Nat) : ReceiveLimiter × Bool :=
  if limiter.tooSoon key now then (limiter, false) else (limiter.record key now, true)

end ReceiveLimiter

/-! ## Discovery -/

/-- `DiscoveryCounters`: one counter for the accepted and one for each reason to drop. -/
structure DiscoveryCounters where
  accepted : Nat
  dropped : AnnounceError → Nat

/-- `u64::saturating_add(1)`. -/
def saturatingSucc (count : Nat) : Nat := min (count + 1) (2 ^ 64 - 1)

/-- `Reply`. -/
inductive Reply where
  | none
  | unicast (target : SocketAddr)
deriving DecidableEq

/-- `Heard`, with the fields of `Discovered`. -/
inductive Heard where
  | discovered (key : Bytes32) (addr : SocketAddr) (reply : Reply)
  | dropped (reason : AnnounceError)
deriving DecidableEq

/-- `Discovery`, as far as `on_datagram` reads and writes it. -/
structure Discovery where
  community : Bytes32
  ownKey : Bytes32
  limiter : ReceiveLimiter
  replay : ReplayGuard
  cache : AddressCache
  counters : DiscoveryCounters
  allowLoopbackSource : Bool

namespace Discovery

/-- `Discovery::new`. -/
def new (community ownKey : Bytes32) (now : Nat) : Discovery where
  community := community
  ownKey := ownKey
  limiter := .new now
  replay := .new
  cache := .new
  counters := ⟨0, fun _ => 0⟩
  allowLoopbackSource := false

/-- `Discovery::drop_with`. -/
def dropWith (discovery : Discovery) (reason : AnnounceError) : Discovery × Heard :=
  let counters := discovery.counters
  let dropped := fun other =>
    if other = reason then saturatingSucc (counters.dropped other) else counters.dropped other
  ({ discovery with counters := { counters with dropped := dropped } }, .dropped reason)

/-- `Discovery::source_is_local`. -/
def sourceIsLocal (discovery : Discovery) (ip : IpAddr) : Bool :=
  if ip.isLoopback then discovery.allowLoopbackSource
  else
    match ip with
    | .v4 octets => IpAddr.isPrivateV4 octets || IpAddr.isLinkLocalV4 octets
    | .v6 octets =>
      let linkLocal := octets.get 0 == 0xfe && (octets.get 1 &&& 0xc0) == 0x80
      let uniqueLocal := (octets.get 0 &&& 0xfe) == 0xfc
      linkLocal || uniqueLocal

/-- The handoff of an announce that survived every check before its source address. -/
def handOff (discovery : Discovery) (announce : Announce) (source : SocketAddr) (now : Nat) :
    Discovery × Heard :=
  let addr := unmapV4 ⟨source.ip, announce.port⟩
  if !discovery.sourceIsLocal addr.ip then discovery.dropWith .sourceNotLocal
  else
    let heldBefore := !(discovery.cache.addresses announce.key).isEmpty
    let cache := discovery.cache.remember announce.key addr .discovery now
    let counters :=
      { discovery.counters with accepted := saturatingSucc discovery.counters.accepted }
    ({ discovery with cache := cache, counters := counters },
      .discovered announce.key addr (if heldBefore then .none else .unicast source))

/-- `Discovery::on_datagram`. -/
def onDatagram (crypto : Crypto) (discovery : Discovery) (bytes : Bytes) (source : SocketAddr)
    (now : Nat) (nowUnix : UInt64) (isFriend : Bytes32 → Bool) : Discovery × Heard :=
  let packet := discovery.limiter.admitPacket now
  let discovery := { discovery with limiter := packet.1 }
  if !packet.2 then discovery.dropWith .rateLimited
  else
    let known := fun key => key == discovery.ownKey || isFriend key
    match Announce.parseUnverified bytes discovery.community known with
    | .error reason => discovery.dropWith reason
    | .ok announce =>
      if announce.key = discovery.ownKey then discovery.dropWith .ourselves
      else
        match announce.verifySignature crypto bytes with
        | .error reason => discovery.dropWith reason
        | .ok () =>
          let quiet := discovery.limiter.admitKey announce.key now
          let discovery := { discovery with limiter := quiet.1 }
          if !quiet.2 then discovery.dropWith .rateLimited
          else
            let admitted := discovery.replay.admitAnnounce announce nowUnix
            let discovery := { discovery with replay := admitted.1 }
            match admitted.2 with
            | .error reason => discovery.dropWith reason
            | .ok () => discovery.handOff announce source now

/-- `Discovery::discovered`. -/
def discovered (discovery : Discovery) (peer : Bytes32) : List SocketAddr :=
  discovery.cache.discovered peer

/-- `Discovery::expire`. -/
def expire (discovery : Discovery) (now : Nat) : Discovery × Nat :=
  let expired := discovery.cache.expire now
  ({ discovery with cache := expired.1 }, expired.2)

end Discovery

/-- The ranges a house on the same network may hold an address in. -/
def IpAddr.IsLocal (ip : IpAddr) : Prop :=
  ip.isLoopback = false ∧
    match ip with
    | .v4 octets => IpAddr.isPrivateV4 octets = true ∨ IpAddr.isLinkLocalV4 octets = true
    | .v6 octets =>
      octets.get 0 = 0xfe ∧ octets.get 1 &&& 0xc0 = 0x80 ∨ octets.get 0 &&& 0xfe = 0xfc

end Mosschat.Net
