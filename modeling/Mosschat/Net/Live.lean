import Mosschat.Library.HashMap
import Mosschat.Net.Addr

/-!
Owns the address cache of `live.rs`: the addresses held for each peer, refreshed by a
second sighting, bounded to the newest eight, and expired.

Does not own what follows a failed dial, nor the liveness of a path.
-/

namespace Mosschat.Net

open Mosschat.Core Mosschat.Library

/-- `CandidateSource`. -/
inductive CandidateSource where
  | localInterface
  | gateReflected
  | peerReported
  | discovery
deriving DecidableEq

/-- `CachedAddress`. -/
structure CachedAddress where
  addr : SocketAddr
  source : CandidateSource
  lastAnswer : Nat
deriving DecidableEq

/-- `CACHED_ADDRESS_TTL`, in nanoseconds. -/
def cachedAddressTtl : Nat := 600 * 10 ^ 9

/-- `DISCOVERED_ADDRESS_TTL`, in nanoseconds. -/
def discoveredAddressTtl : Nat := 300 * 10 ^ 9

/-- `CachedAddress::ttl`. -/
def CachedAddress.ttl (entry : CachedAddress) : Nat :=
  match entry.source with
  | .discovery => discoveredAddressTtl
  | .localInterface | .gateReflected | .peerReported => cachedAddressTtl

def cachedAddressesPerPeer : Nat := 8

/-- `AddressCache`. -/
structure AddressCache where
  entries : HashMap Bytes32 (List CachedAddress)

namespace AddressCache

/-- `AddressCache::new`. -/
def new : AddressCache := ⟨∅⟩

/-- The eviction of `AddressCache::remember`: the first of the oldest sightings goes,
until the peer is within its bound. -/
def evictOldest : Nat → List CachedAddress → List CachedAddress
  | 0, held => held
  | fuel + 1, held =>
      if cachedAddressesPerPeer < held.length then
        match held.minIdxOn? CachedAddress.lastAnswer with
        | some index => evictOldest fuel (held.eraseIdx index)
        | none => held
      else held

/-- The list of one peer after `AddressCache::remember`. Every round of the eviction
drops one address, so the length is fuel enough. -/
def rememberHeld (held : List CachedAddress) (addr : SocketAddr) (source : CandidateSource)
    (now : Nat) : List CachedAddress :=
  match held.findIdx? fun entry => entry.addr == addr with
  | some index => held.modify index fun entry => { entry with lastAnswer := now, source := source }
  | none => evictOldest (held.length + 1) (held ++ [⟨addr, source, now⟩])

/-- `AddressCache::remember`. -/
def remember (cache : AddressCache) (peer : Bytes32) (addr : SocketAddr)
    (source : CandidateSource) (now : Nat) : AddressCache :=
  let held := (cache.entries.lookup peer).getD []
  ⟨cache.entries.put peer (rememberHeld held (unmapV4 addr) source now)⟩

/-- `AddressCache::addresses`. -/
def addresses (cache : AddressCache) (peer : Bytes32) : List SocketAddr :=
  ((cache.entries.lookup peer).getD []).map CachedAddress.addr

/-- `AddressCache::discovered`. -/
def discovered (cache : AddressCache) (peer : Bytes32) : List SocketAddr :=
  (((cache.entries.lookup peer).getD []).filter fun entry => entry.source == .discovery).map
    CachedAddress.addr

/-- An entry of `AddressCache::expire` that stays. -/
def alive (now : Nat) (entry : CachedAddress) : Bool := now - entry.lastAnswer < entry.ttl

/-- `AddressCache::expire`, with how many went. -/
def expire (cache : AddressCache) (now : Nat) : AddressCache × Nat :=
  let kept := cache.entries.mapValues fun held => held.filter (alive now)
  (⟨kept.retain fun _ held => !held.isEmpty⟩,
    (cache.entries.values.map fun held => held.countP fun entry => !alive now entry).sum)

/-! ## What one operation leaves of a peer's list -/

theorem evictOldest_sublist (fuel : Nat) (held : List CachedAddress) :
    (evictOldest fuel held).Sublist held := by
  induction fuel generalizing held with
  | zero => exact List.Sublist.refl held
  | succ fuel ih =>
      rw [evictOldest]
      split
      · split
        · next index _ =>
            exact (ih (held.eraseIdx index)).trans (List.eraseIdx_sublist held index)
        · exact List.Sublist.refl held
      · exact List.Sublist.refl held

/-- With a round for every address the eviction reaches the bound. -/
theorem evictOldest_length {fuel : Nat} {held : List CachedAddress} (enough : held.length ≤ fuel) :
    (evictOldest fuel held).length ≤ cachedAddressesPerPeer := by
  induction fuel generalizing held with
  | zero =>
      have empty : held = [] := List.length_eq_zero_iff.mp (Nat.le_zero.mp enough)
      rw [empty]
      exact Nat.zero_le _
  | succ fuel ih =>
      rw [evictOldest]
      split
      · next tooMany =>
          split
          · next index oldest =>
              have inside := List.lt_length_of_minIdxOn?_eq_some oldest
              apply ih
              rw [List.length_eraseIdx_of_lt inside]
              omega
          · next none =>
              have some : (held.minIdxOn? CachedAddress.lastAnswer).isSome := by
                apply List.isSome_minIdxOn?_iff.mpr
                intro empty
                rw [empty] at tooMany
                cases tooMany
              rw [none] at some
              cases some
      · next fits => exact Nat.le_of_not_lt fits

/-- The list after a sighting: the one entry is refreshed, or a new one joins and some go. -/
theorem rememberHeld_cases (held : List CachedAddress) (addr : SocketAddr)
    (source : CandidateSource) (now : Nat) :
    (∃ index, ∃ inside : index < held.length, held[index].addr = addr ∧
        rememberHeld held addr source now =
          held.modify index fun entry => { entry with lastAnswer := now, source := source }) ∨
      (∀ entry ∈ held, entry.addr ≠ addr) ∧
        rememberHeld held addr source now =
          evictOldest (held.length + 1) (held ++ [⟨addr, source, now⟩]) := by
  unfold rememberHeld
  cases found : held.findIdx? fun entry => entry.addr == addr with
  | none =>
      right
      rw [List.findIdx?_eq_none_iff] at found
      refine ⟨?_, rfl⟩
      intro entry member same
      have differs := found entry member
      rw [beq_eq_false_iff_ne] at differs
      exact differs same
  | some index =>
      left
      obtain ⟨inside, same, -⟩ := List.findIdx?_eq_some_iff_getElem.mp found
      exact ⟨index, inside, beq_iff_eq.mp same, rfl⟩

/-- Every address held after a sighting was held before, or is the one sighted. -/
theorem mem_rememberHeld {held : List CachedAddress} {addr : SocketAddr}
    {source : CandidateSource} {now : Nat} {entry : CachedAddress}
    (member : entry ∈ rememberHeld held addr source now) :
    entry ∈ held ∨ entry = ⟨addr, source, now⟩ := by
  rcases rememberHeld_cases held addr source now with
    ⟨index, inside, same, refreshed⟩ | ⟨-, joined⟩
  · rw [refreshed] at member
    obtain ⟨place, isPlace⟩ := List.getElem?_of_mem member
    rw [List.getElem?_modify] at isPlace
    split at isPlace
    · next isIndex =>
        subst isIndex
        rw [List.getElem?_eq_getElem inside, Option.map_eq_map, Option.map_some] at isPlace
        right
        rw [← Option.some.inj isPlace, same]
    · left
      rw [id_map'] at isPlace
      exact List.mem_of_getElem? isPlace
  · rw [joined] at member
    rcases List.mem_append.mp ((evictOldest_sublist _ _).subset member) with old | new
    · exact Or.inl old
    · exact Or.inr (List.mem_singleton.mp new)

/-- A peer's list is within its bound and names no address twice. -/
structure Bounded (held : List CachedAddress) : Prop where
  within : held.length ≤ cachedAddressesPerPeer
  distinct : (held.map CachedAddress.addr).Nodup

theorem Bounded.sublist {held other : List CachedAddress} (bounded : Bounded held)
    (shorter : other.Sublist held) : Bounded other where
  within := shorter.length_le.trans bounded.within
  distinct := bounded.distinct.sublist (shorter.map _)

theorem Bounded.remember {held : List CachedAddress} (bounded : Bounded held) (addr : SocketAddr)
    (source : CandidateSource) (now : Nat) : Bounded (rememberHeld held addr source now) := by
  rcases rememberHeld_cases held addr source now with
    ⟨index, inside, same, refreshed⟩ | ⟨fresh, joined⟩
  · rw [refreshed]
    have sameAddrs : (held.modify index fun entry =>
        { entry with lastAnswer := now, source := source }).map CachedAddress.addr =
        held.map CachedAddress.addr := by
      apply List.ext_getElem?
      intro place
      rw [List.getElem?_map, List.getElem?_map, List.getElem?_modify]
      split
      · rw [Option.map_eq_map, Option.map_map]
        rfl
      · rw [id_map']
    constructor
    · rw [List.length_modify]
      exact bounded.within
    · rw [sameAddrs]
      exact bounded.distinct
  · rw [joined]
    constructor
    · apply evictOldest_length
      rw [List.length_append, List.length_singleton]
    · apply List.Nodup.sublist ((evictOldest_sublist _ _).map _)
      rw [List.map_append, List.nodup_append]
      refine ⟨bounded.distinct, List.nodup_singleton _, ?_⟩
      intro other known new isNew
      rw [List.mem_map] at known
      obtain ⟨entry, member, isAddr⟩ := known
      rw [List.mem_singleton.mp isNew, ← isAddr]
      exact fresh entry member

theorem lookup_remember (cache : AddressCache) (peer other : Bytes32) (addr : SocketAddr)
    (source : CandidateSource) (now : Nat) :
    (cache.remember peer addr source now).entries.lookup other =
      if other = peer then
        some (rememberHeld ((cache.entries.lookup peer).getD []) (unmapV4 addr) source now)
      else cache.entries.lookup other := by
  show (cache.entries.put peer _).lookup other = _
  rw [HashMap.lookup_put]

/-- What expiry leaves is what was held and is still alive. -/
theorem lookup_expire {cache : AddressCache} {now : Nat} {peer : Bytes32}
    {held : List CachedAddress} (found : (cache.expire now).1.entries.lookup peer = some held) :
    ∃ before, cache.entries.lookup peer = some before ∧ held = before.filter (alive now) := by
  have inKept := (HashMap.lookup_retain_eq_some.mp found).1
  rw [HashMap.lookup_mapValues] at inKept
  cases before : cache.entries.lookup peer with
  | none =>
      rw [before] at inKept
      cases inKept
  | some list =>
      rw [before] at inKept
      exact ⟨list, rfl, (Option.some.inj inKept).symm⟩

end AddressCache

end Mosschat.Net
