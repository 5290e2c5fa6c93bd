import Mathlib.Data.List.Induction
import Mosschat.Library.Log
import Mosschat.Net.Discovery.Replay

/-!
Owns what a discovered address rests on: over every order of datagrams and expiries, the
announce it was accepted by, the range it lies in and its age.

Does not own what an attempt does with it.
-/

namespace Mosschat.Net

open Mosschat.Core Mosschat.Library Mosschat.Library.Cbor Mosschat.Library.Machine

/-- What a house asks of its discovery. -/
inductive DiscoveryCall where
  | datagram (datagram : Datagram)
  | expire (now : Nat)

namespace Discovery

def step (crypto : Crypto) (discovery : Discovery) : DiscoveryCall → Discovery
  | .datagram datagram =>
    (discovery.onDatagram crypto datagram.bytes datagram.source datagram.now datagram.nowUnix
      datagram.isFriend).1
  | .expire now => (discovery.expire now).1

/-- The datagram announces `addr` as `peer`'s: its signature verifies under that key, over
the community, the key and the port; its sender is a friend then; and the address is the
one it came from, with the port that was signed. -/
structure Announces (crypto : Crypto) (community : Bytes32) (datagram : Datagram)
    (peer : Bytes32) (addr : SocketAddr) : Prop where
  length : datagram.bytes.length = announceLen
  community : (Announce.ofFrame datagram.bytes).community = community
  key : (Announce.ofFrame datagram.bytes).key = peer
  signed : verify crypto peer (announceSigningContext ++ datagram.bytes.take 80)
    (sliceAt datagram.bytes 80 64) = .ok ()
  friend : datagram.isFriend peer = true
  isAddr : addr = unmapV4 ⟨datagram.source.ip, (Announce.ofFrame datagram.bytes).port⟩
  isLocal : addr.ip.IsLocal

/-- An accepted datagram of the run announced the address at this time. -/
def AcceptedAt (crypto : Crypto) (start : Discovery) (calls : List DiscoveryCall) (peer : Bytes32)
    (addr : SocketAddr) (announcedAt : Nat) : Prop :=
  ∃ position datagram reply, calls[position]? = some (.datagram datagram) ∧
    datagram.now = announcedAt ∧ Announces crypto start.community datagram peer addr ∧
    ((run (step crypto) start (calls.take position)).onDatagram crypto datagram.bytes
      datagram.source datagram.now datagram.nowUnix datagram.isFriend).2 =
        .discovered peer addr reply

/-! ## The addresses -/

theorem isLocal_of_sourceIsLocal {discovery : Discovery} {ip : IpAddr}
    (noLoopback : discovery.allowLoopbackSource = false)
    (isLocal : discovery.sourceIsLocal ip = true) : ip.IsLocal := by
  unfold sourceIsLocal at isLocal
  cases loopback : ip.isLoopback with
  | true =>
      rw [loopback, if_pos rfl, noLoopback] at isLocal
      cases isLocal
  | false =>
      rw [loopback, if_neg Bool.false_ne_true] at isLocal
      refine ⟨loopback, ?_⟩
      cases ip with
      | v4 octets => simpa using isLocal
      | v6 octets => simpa using isLocal

/-! ## One call -/

/-- A call of the house leaves what the house is configured with. -/
theorem step_fixed (crypto : Crypto) (discovery : Discovery) (call : DiscoveryCall) :
    (discovery.step crypto call).community = discovery.community ∧
      (discovery.step crypto call).ownKey = discovery.ownKey ∧
      (discovery.step crypto call).allowLoopbackSource = discovery.allowLoopbackSource := by
  cases call with
  | expire now => exact ⟨rfl, rfl, rfl⟩
  | datagram datagram =>
      have handled := handled_onDatagram crypto discovery datagram
      unfold step
      simp only
      generalize discovery.onDatagram crypto datagram.bytes datagram.source datagram.now
        datagram.nowUnix datagram.isFriend = result at handled ⊢
      cases handled with
      | dropped limiter reason => exact ⟨rfl, rfl, rfl⟩
      | admitted limiter admits =>
          obtain ⟨cache, counters, after⟩ := handOff_fst
            { discovery with
              limiter,
              replay := discovery.replay.remember (Announce.ofFrame datagram.bytes).triple }
            (Announce.ofFrame datagram.bytes) datagram.source datagram.now
          rw [after]
          exact ⟨rfl, rfl, rfl⟩

/-- Every outcome of a datagram for the cache: it stays as it is, or remembers the address
the datagram announces. -/
theorem cache_cases (crypto : Crypto) (discovery : Discovery) (datagram : Datagram)
    (noLoopback : discovery.allowLoopbackSource = false) :
    (discovery.step crypto (.datagram datagram)).cache = discovery.cache ∨
      ∃ peer addr reply, Announces crypto discovery.community datagram peer addr ∧
        (discovery.onDatagram crypto datagram.bytes datagram.source datagram.now datagram.nowUnix
          datagram.isFriend).2 = .discovered peer addr reply ∧
        (discovery.step crypto (.datagram datagram)).cache =
          discovery.cache.remember peer addr .discovery datagram.now := by
  have handled := handled_onDatagram crypto discovery datagram
  unfold step
  simp only
  generalize discovery.onDatagram crypto datagram.bytes datagram.source datagram.now
    datagram.nowUnix datagram.isFriend = result at handled ⊢
  cases handled with
  | dropped limiter reason => exact Or.inl rfl
  | admitted limiter admits =>
      unfold handOff
      simp only
      split
      · exact Or.inl rfl
      · next localSource =>
          right
          have isLocal : discovery.sourceIsLocal (unmapV4
              ⟨datagram.source.ip, (Announce.ofFrame datagram.bytes).port⟩).ip = true := by
            rw [Bool.not_eq_true', Bool.not_eq_false] at localSource
            exact localSource
          refine ⟨_, _, _, ?_, rfl, rfl⟩
          have parsed := admits.parsed
          have signed := admits.signed
          unfold Announce.parseUnverified at parsed
          unfold Announce.verifySignature at signed
          split_ifs at parsed with length shape community known
          have exact : datagram.bytes.length = announceLen := not_not.mp length
          rw [if_neg length] at signed
          have friend : datagram.isFriend (Announce.ofFrame datagram.bytes).key = true := by
            simpa [admits.notOurs] using known
          constructor
          · exact exact
          · exact not_not.mp community
          · rfl
          · split at signed
            · next verified => exact verified
            · cases signed
          · exact friend
          · rfl
          · exact isLocal_of_sourceIsLocal noLoopback isLocal

/-! ## The run -/

/-- What is held for a peer rests on accepted datagrams, within the bound. -/
def Sound (crypto : Crypto) (start : Discovery) (calls : List DiscoveryCall)
    (discovery : Discovery) : Prop :=
  ∀ peer held, discovery.cache.entries.lookup peer = some held →
    AddressCache.Bounded held ∧ ∀ entry ∈ held, entry.source = .discovery ∧
      AcceptedAt crypto start calls peer entry.addr entry.lastAnswer

theorem AcceptedAt.append {crypto : Crypto} {start : Discovery} {calls : List DiscoveryCall}
    {next : DiscoveryCall} {peer : Bytes32} {addr : SocketAddr} {announcedAt : Nat}
    (accepted : AcceptedAt crypto start calls peer addr announcedAt) :
    AcceptedAt crypto start (calls ++ [next]) peer addr announcedAt := by
  obtain ⟨position, datagram, reply, found, time, announces, heard⟩ := accepted
  refine ⟨position, datagram, reply, Log.getElem?_append found, time, announces, ?_⟩
  rw [Log.take_append (Nat.le_of_lt (Log.lt_length_of_getElem? found))]
  exact heard

theorem run_fixed (crypto : Crypto) (start : Discovery) (calls : List DiscoveryCall) :
    (run (step crypto) start calls).community = start.community ∧
      (run (step crypto) start calls).allowLoopbackSource = start.allowLoopbackSource := by
  induction calls using List.reverseRecOn with
  | nil => exact ⟨rfl, rfl⟩
  | append_singleton calls next ih =>
      rw [run_concat]
      obtain ⟨community, -, loopback⟩ := step_fixed crypto (run (step crypto) start calls) next
      rw [community, loopback]
      exact ih

theorem sound_step {crypto : Crypto} {start : Discovery} {calls : List DiscoveryCall}
    (noLoopback : start.allowLoopbackSource = false)
    (sound : Sound crypto start calls (run (step crypto) start calls)) (next : DiscoveryCall) :
    Sound crypto start (calls ++ [next]) ((run (step crypto) start calls).step crypto next) := by
  have stays : Sound crypto start (calls ++ [next]) (run (step crypto) start calls) := by
    intro peer held found
    obtain ⟨bounded, entries⟩ := sound peer held found
    refine ⟨bounded, ?_⟩
    intro entry member
    exact ⟨(entries entry member).1, (entries entry member).2.append⟩
  obtain ⟨community, loopback⟩ := run_fixed crypto start calls
  cases next with
  | expire now =>
      intro peer held found
      obtain ⟨before, wasHeld, isHeld⟩ := AddressCache.lookup_expire found
      obtain ⟨bounded, entries⟩ := stays peer before wasHeld
      rw [isHeld]
      refine ⟨bounded.sublist List.filter_sublist, ?_⟩
      intro entry member
      exact entries entry (List.mem_of_mem_filter member)
  | datagram datagram =>
      rcases cache_cases crypto (run (step crypto) start calls) datagram
          (loopback.trans noLoopback) with
        same | ⟨peer, addr, reply, announces, heard, remembered⟩
      · intro peer held found
        rw [same] at found
        exact stays peer held found
      · intro other held found
        rw [remembered, AddressCache.lookup_remember] at found
        split at found
        · next isPeer =>
            subst isPeer
            have before : AddressCache.Bounded
                (((run (step crypto) start calls).cache.entries.lookup other).getD []) ∧
                  ∀ entry ∈ ((run (step crypto) start calls).cache.entries.lookup other).getD [],
                    entry.source = .discovery ∧ AcceptedAt crypto start
                      (calls ++ [.datagram datagram]) other entry.addr entry.lastAnswer := by
              cases was : (run (step crypto) start calls).cache.entries.lookup other with
              | none => exact ⟨⟨Nat.zero_le _, List.nodup_nil⟩, by simp⟩
              | some list => exact stays other list was
            rw [← Option.some.inj found]
            refine ⟨before.1.remember _ _ _, ?_⟩
            intro entry member
            rcases AddressCache.mem_rememberHeld member with old | new
            · exact before.2 entry old
            · rw [new]
              refine ⟨rfl, calls.length, datagram, reply, by simp, rfl, ?_, ?_⟩
              · rw [community] at announces
                rw [announces.isAddr, unmapV4_unmapV4, ← announces.isAddr]
                exact announces
              · rw [Log.take_append (Nat.le_refl _), List.take_length]
                have unmapped : unmapV4 addr = addr := by
                  rw [announces.isAddr, unmapV4_unmapV4]
                rw [unmapped]
                exact heard
        · exact stays other held found

theorem sound_run (crypto : Crypto) (community ownKey : Bytes32) (createdAt : Nat)
    (calls : List DiscoveryCall) :
    Sound crypto (new community ownKey createdAt) calls
      (run (step crypto) (new community ownKey createdAt) calls) := by
  induction calls using List.reverseRecOn with
  | nil =>
      intro peer held found
      cases found
  | append_singleton calls next ih =>
      rw [run_concat]
      exact sound_step rfl ih next

/-- An address is among the discovered ones exactly when its entry is held. -/
theorem mem_discovered {discovery : Discovery} {peer : Bytes32} {addr : SocketAddr}
    (member : addr ∈ discovery.discovered peer) :
    ∃ held entry, discovery.cache.entries.lookup peer = some held ∧ entry ∈ held ∧
      entry.addr = addr := by
  unfold discovered AddressCache.discovered at member
  obtain ⟨entry, inList, isAddr⟩ := List.mem_map.mp member
  have inHeld := List.mem_of_mem_filter inList
  cases found : discovery.cache.entries.lookup peer with
  | none =>
      rw [found] at inHeld
      cases inHeld
  | some held =>
      rw [found] at inHeld
      exact ⟨held, entry, rfl, inHeld, isAddr⟩

theorem discovered_bounded {discovery : Discovery} {peer : Bytes32}
    (bounded : ∀ held, discovery.cache.entries.lookup peer = some held →
      AddressCache.Bounded held) :
    (discovery.discovered peer).length ≤ cachedAddressesPerPeer ∧
      (discovery.discovered peer).Nodup := by
  unfold discovered AddressCache.discovered
  cases found : discovery.cache.entries.lookup peer with
  | none => exact ⟨Nat.zero_le _, List.nodup_nil⟩
  | some held =>
      have shorter := (bounded held found).sublist
        (List.filter_sublist (p := fun entry : CachedAddress => entry.source == .discovery))
      refine ⟨?_, shorter.distinct⟩
      rw [List.length_map]
      exact shorter.within

/-- In every run, whatever datagrams come and whoever is a friend when they do, each address
discovered for a peer is unmapped, lies in a local range and was announced by an accepted
datagram of the peer, a friend then; a peer has at most eight, all different; and right
after an expiry each was announced less than five minutes before. -/
theorem discovered_sound (crypto : Crypto) (community ownKey : Bytes32) (createdAt : Nat)
    (calls : List DiscoveryCall) (peer : Bytes32) :
    let start := new community ownKey createdAt
    let discovery := run (step crypto) start calls
    (∀ addr ∈ discovery.discovered peer, unmapV4 addr = addr ∧ addr.ip.IsLocal ∧
      ∃ announcedAt, AcceptedAt crypto start calls peer addr announcedAt) ∧
    (∀ held, discovery.cache.entries.lookup peer = some held →
      held.length ≤ cachedAddressesPerPeer ∧ (held.map CachedAddress.addr).Nodup) ∧
    (discovery.discovered peer).length ≤ cachedAddressesPerPeer ∧
    (discovery.discovered peer).Nodup ∧
    ∀ now, ∀ addr ∈ (discovery.expire now).1.discovered peer, ∃ announcedAt,
      AcceptedAt crypto start calls peer addr announcedAt ∧
        now < announcedAt + discoveredAddressTtl := by
  intro start discovery
  have sound : Sound crypto start calls discovery := sound_run crypto community ownKey createdAt calls
  have bounded : (discovery.discovered peer).length ≤ cachedAddressesPerPeer ∧
      (discovery.discovered peer).Nodup :=
    discovered_bounded fun held found => (sound peer held found).1
  refine ⟨?_, ?_, bounded.1, bounded.2, ?_⟩
  · intro addr member
    obtain ⟨held, entry, found, inHeld, isAddr⟩ := mem_discovered member
    have accepted := ((sound peer held found).2 entry inHeld).2
    rw [isAddr] at accepted
    have rests := accepted
    obtain ⟨_, _, _, _, _, announces, _⟩ := rests
    refine ⟨?_, announces.isLocal, _, accepted⟩
    rw [announces.isAddr, unmapV4_unmapV4]
  · intro held found
    exact ⟨(sound peer held found).1.within, (sound peer held found).1.distinct⟩
  · intro now addr member
    obtain ⟨held, entry, found, inHeld, isAddr⟩ := mem_discovered member
    obtain ⟨before, wasHeld, isHeld⟩ := AddressCache.lookup_expire found
    rw [isHeld] at inHeld
    obtain ⟨inBefore, isAlive⟩ := List.mem_filter.mp inHeld
    obtain ⟨isDiscovery, accepted⟩ := (sound peer before wasHeld).2 entry inBefore
    rw [isAddr] at accepted
    refine ⟨entry.lastAnswer, accepted, ?_⟩
    unfold AddressCache.alive CachedAddress.ttl at isAlive
    rw [isDiscovery] at isAlive
    have young : now - entry.lastAnswer < discoveredAddressTtl := of_decide_eq_true isAlive
    omega

end Discovery

end Mosschat.Net
