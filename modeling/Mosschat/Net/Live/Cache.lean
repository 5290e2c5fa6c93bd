import Mathlib.Data.List.TakeWhile
import Mosschat.Library.Machine
import Mosschat.Net.Diag.Recorder
import Mosschat.Net.Live

/-!
Owns the rest of the address cache of `live.rs`, what an answer and a failed dial change in it,
and what holds of it after any calls at times that do not go back: its bounds, the address that
goes when it is full, what expires, and when it lists the newest sighting last.

Does not own the dial, nor what rediscovers an address.
-/

namespace Mosschat.Net

open Mosschat.Core Mosschat.Library Mosschat.Library.Machine Mosschat.Net.Diag

/-- `AfterDialFailure`. -/
inductive AfterDialFailure where
  | rediscover
deriving DecidableEq

/-- A call of the cache. A failed dial is recorded, if there is a recorder, at a time of its
own. -/
inductive CacheCall where
  | remember (peer : Bytes32) (addr : SocketAddr) (source : CandidateSource) (now : Nat)
  | answered (peer : Bytes32) (addr : SocketAddr) (now : Nat)
  | expire (now : Nat)
  | onDialFailed (peer : Bytes32) (addr : SocketAddr) (recorder : Option Recorder) (atMs : UInt64)

/-- The time a call is made at, if it has one. -/
def CacheCall.time : CacheCall → List Nat
  | .remember _ _ _ now | .answered _ _ now | .expire now => [now]
  | .onDialFailed _ _ _ _ => []

namespace AddressCache

/-- The list of a peer, empty if it has none. -/
def held (cache : AddressCache) (peer : Bytes32) : List CachedAddress :=
  (cache.entries.lookup peer).getD []

/-- The list of one peer after `AddressCache::answered`. -/
def answeredHeld (held : List CachedAddress) (addr : SocketAddr) (now : Nat) :
    List CachedAddress :=
  match held.findIdx? fun entry => entry.addr == addr with
  | some index => held.modify index fun entry => { entry with lastAnswer := now }
  | none => held

/-- `AddressCache::answered`. -/
def answered (cache : AddressCache) (peer : Bytes32) (addr : SocketAddr) (now : Nat) :
    AddressCache :=
  match cache.entries.lookup peer with
  | some held => ⟨cache.entries.put peer (answeredHeld held (unmapV4 addr) now)⟩
  | none => cache

/-- `AddressCache::holds`. -/
def holds (cache : AddressCache) (peer : Bytes32) (addr : SocketAddr) : Bool :=
  (cache.held peer).any fun entry => entry.addr == unmapV4 addr

/-- `AddressCache::on_dial_failed_recorded`, with what it leaves in the recorder. -/
def onDialFailedRecorded (cache : AddressCache) (peer : Bytes32) (addr : SocketAddr)
    (recorder : Option Recorder) (atMs : UInt64) :
    AddressCache × Option Recorder × AfterDialFailure :=
  let addr := unmapV4 addr
  let detail := "dial to the cached address " ++ String.ofList (showSocketAddr addr) ++
    " failed, rediscovering"
  let entries :=
    match cache.entries.lookup peer with
    | some held =>
      let kept := held.filter fun entry => entry.addr != addr
      if kept.isEmpty then cache.entries.erase peer else cache.entries.put peer kept
    | none => cache.entries
  (⟨entries⟩, record recorder .pathLost .fail detail atMs, .rediscover)

/-- `AddressCache::on_dial_failed`. -/
def onDialFailed (cache : AddressCache) (peer : Bytes32) (addr : SocketAddr) :
    AddressCache × AfterDialFailure :=
  let (cache, _, after) := cache.onDialFailedRecorded peer addr none 0
  (cache, after)

def step (cache : AddressCache) : CacheCall → AddressCache
  | .remember peer addr source now => cache.remember peer addr source now
  | .answered peer addr now => cache.answered peer addr now
  | .expire now => (cache.expire now).1
  | .onDialFailed peer addr recorder atMs => (cache.onDialFailedRecorded peer addr recorder atMs).1

/-! ## What the cache is for -/

/-- What a sighting of an address leaves of a list: the address was held and is refreshed in its
place, or it joins at the end, where the list is full in place of one with the oldest
sighting. -/
inductive Sighted (sighting : CachedAddress) : List CachedAddress → List CachedAddress → Prop
  | refreshed (front : List CachedAddress) (entry : CachedAddress) (back : List CachedAddress)
      (same : entry.addr = sighting.addr) :
      Sighted sighting (front ++ entry :: back) (front ++ sighting :: back)
  | joined (before : List CachedAddress) (fresh : ∀ entry ∈ before, entry.addr ≠ sighting.addr)
      (room : before.length < cachedAddressesPerPeer) :
      Sighted sighting before (before ++ [sighting])
  | evicted (front : List CachedAddress) (oldest : CachedAddress) (back : List CachedAddress)
      (fresh : ∀ entry ∈ front ++ oldest :: back, entry.addr ≠ sighting.addr)
      (full : (front ++ oldest :: back).length = cachedAddressesPerPeer)
      (isOldest : ∀ entry ∈ front ++ oldest :: back, oldest.lastAnswer ≤ entry.lastAnswer) :
      Sighted sighting (front ++ oldest :: back) (front ++ back ++ [sighting])

/-- The list names the newest sighting last. -/
def NewestLast (held : List CachedAddress) : Prop :=
  held.Pairwise fun earlier later => earlier.lastAnswer ≤ later.lastAnswer

instance (held : List CachedAddress) : Decidable (NewestLast held) :=
  inferInstanceAs (Decidable (held.Pairwise fun earlier later =>
    earlier.lastAnswer ≤ later.lastAnswer))

/-- What the cache is to be after some calls: its lists are bounded, distinct and unmapped, none
is empty, they name the newest sighting last, and the next call does what it should. -/
structure CacheKept (calls : List CacheCall) : Prop where
  bounded : ∀ peer, Bounded ((run step new calls).held peer)
  unmapped : ∀ peer, ∀ entry ∈ (run step new calls).held peer, unmapV4 entry.addr = entry.addr
  occupied : ∀ peer, (run step new calls).entries.lookup peer ≠ some []
  sighted : ∀ peer addr source now, (∀ time ∈ calls.flatMap CacheCall.time, time ≤ now) →
    Sighted ⟨unmapV4 addr, source, now⟩ ((run step new calls).held peer)
      ((run step new (calls ++ [.remember peer addr source now])).held peer)
  expired : ∀ now peer, (run step new (calls ++ [.expire now])).held peer =
    ((run step new calls).held peer).filter fun entry => now < entry.lastAnswer + entry.ttl
  failed : ∀ peer addr recorder atMs,
    (run step new (calls ++ [.onDialFailed peer addr recorder atMs])).held peer =
      ((run step new calls).held peer).filter fun entry => entry.addr ≠ unmapV4 addr
  listed : ∀ peer, ∃ entries : List CachedAddress, NewestLast entries ∧
    (run step new calls).held peer = entries ∧
    (run step new calls).addresses peer = entries.map CachedAddress.addr

/-- The entries a list has behind the one of the address. -/
def behind (held : List CachedAddress) (addr : SocketAddr) : List CachedAddress :=
  (held.dropWhile fun entry => entry.addr != addr).tail

/-- A sighting of an address that is held finds it listed last, or ahead only of sightings that
are as new. -/
def InTurn (cache : AddressCache) : CacheCall → Prop
  | .remember peer addr _ now | .answered peer addr now =>
    ∀ entry ∈ behind (cache.held peer) (unmapV4 addr), now ≤ entry.lastAnswer
  | .expire _ | .onDialFailed _ _ _ _ => True

/-! ## One list -/

theorem behind_of_fresh {held : List CachedAddress} {addr : SocketAddr}
    (fresh : ∀ entry ∈ held, entry.addr ≠ addr) : behind held addr = [] := by
  have all : held.dropWhile (fun entry => entry.addr != addr) = [] := by
    rw [List.dropWhile_eq_nil_iff]
    intro entry member
    exact bne_iff_ne.mpr (fresh entry member)
  rw [behind, all]
  rfl

theorem behind_append {front : List CachedAddress} {entry : CachedAddress}
    {back : List CachedAddress} {addr : SocketAddr} (same : entry.addr = addr)
    (fresh : ∀ other ∈ front, other.addr ≠ addr) :
    behind (front ++ entry :: back) addr = back := by
  have skips : (front ++ entry :: back).dropWhile (fun entry => entry.addr != addr) =
      entry :: back := by
    rw [List.dropWhile_append_of_pos]
    · rw [List.dropWhile_cons_of_neg]
      rw [same, bne_self_eq_false]
      exact Bool.false_ne_true
    · intro other member
      exact bne_iff_ne.mpr (fresh other member)
  rw [behind, skips]
  rfl

/-- No address is in front of itself. -/
theorem Bounded.fresh {front : List CachedAddress} {entry : CachedAddress}
    {back : List CachedAddress} (bounded : Bounded (front ++ entry :: back)) :
    ∀ other ∈ front, other.addr ≠ entry.addr := by
  have distinct := bounded.distinct
  rw [List.map_append, List.map_cons, List.nodup_append] at distinct
  intro other member
  exact distinct.2.2 _ (List.mem_map_of_mem member) _ List.mem_cons_self

theorem evictOldest_of_fits {fuel : Nat} {held : List CachedAddress}
    (fits : held.length ≤ cachedAddressesPerPeer) : evictOldest fuel held = held := by
  cases fuel with
  | zero => rfl
  | succ fuel => rw [evictOldest, if_neg (Nat.not_lt.mpr fits)]

/-- The first of the oldest sightings. -/
theorem oldest_of_minIdxOn? {held : List CachedAddress} {index : Nat}
    (isLeast : held.minIdxOn? CachedAddress.lastAnswer = some index) :
    ∃ inside : index < held.length,
      (∀ entry ∈ held, held[index].lastAnswer ≤ entry.lastAnswer) ∧
        ∀ place, ∀ earlier : place < index,
          held[index].lastAnswer < held[place].lastAnswer := by
  have some : held ≠ [] := List.ne_nil_of_minIdxOn?_eq_some isLeast
  have isIndex := List.minIdxOn_eq_of_minIdxOn?_eq_some isLeast
  obtain ⟨inside, least, first⟩ := (List.minIdxOn_eq_iff some).mp isIndex
  refine ⟨inside, ?_, fun place earlier => first place earlier⟩
  intro entry member
  obtain ⟨place, within, isEntry⟩ := List.getElem_of_mem member
  rw [← isEntry]
  exact least place within

/-- A list that is full makes room for an address that joins it. -/
theorem evictOldest_concat {held : List CachedAddress} (sighting : CachedAddress)
    (full : held.length = cachedAddressesPerPeer)
    (past : ∀ entry ∈ held, entry.lastAnswer ≤ sighting.lastAnswer) :
    ∃ front oldest back, held = front ++ oldest :: back ∧
      (∀ entry ∈ held, oldest.lastAnswer ≤ entry.lastAnswer) ∧
        evictOldest (held.length + 1) (held ++ [sighting]) = front ++ back ++ [sighting] := by
  have isEight : cachedAddressesPerPeer = 8 := rfl
  have length : (held ++ [sighting]).length = held.length + 1 := by
    rw [List.length_append, List.length_singleton]
  have tooMany : cachedAddressesPerPeer < (held ++ [sighting]).length := by omega
  have some : ((held ++ [sighting]).minIdxOn? CachedAddress.lastAnswer).isSome :=
    List.isSome_minIdxOn?_iff.mpr (List.concat_ne_nil _ _)
  obtain ⟨index, isLeast⟩ := Option.isSome_iff_exists.mp some
  obtain ⟨inside, least, first⟩ := oldest_of_minIdxOn? isLeast
  -- The new sighting is last, and none before it is newer.
  have early : index < held.length := by
    by_contra late
    have isLast : index = held.length := by omega
    have nonempty : 0 < held.length := by omega
    have newer := first 0 (by omega)
    have isNew : (held ++ [sighting])[index] = sighting := by
      subst isLast
      exact List.getElem_concat_length rfl _
    rw [isNew, List.getElem_append_left nonempty] at newer
    have older := past held[0] (List.getElem_mem nonempty)
    omega
  have isHeld : (held ++ [sighting])[index] = held[index] := List.getElem_append_left early
  refine ⟨held.take index, held[index], held.drop (index + 1), ?_, ?_, ?_⟩
  · rw [List.getElem_cons_drop, List.take_append_drop]
  · intro entry member
    rw [← isHeld]
    exact least entry (List.mem_append_left _ member)
  · have erased : (held ++ [sighting]).eraseIdx index =
        held.take index ++ held.drop (index + 1) ++ [sighting] := by
      rw [List.eraseIdx_append_of_lt_length early, List.eraseIdx_eq_take_drop_succ]
    have fits : ((held ++ [sighting]).eraseIdx index).length ≤ cachedAddressesPerPeer := by
      rw [List.length_eraseIdx_of_lt inside]
      omega
    rw [evictOldest, if_pos tooMany, isLeast]
    show evictOldest held.length ((held ++ [sighting]).eraseIdx index) = _
    rw [evictOldest_of_fits fits, erased]

theorem sighted_rememberHeld {held : List CachedAddress} (bounded : Bounded held)
    (addr : SocketAddr) (source : CandidateSource) {now : Nat}
    (past : ∀ entry ∈ held, entry.lastAnswer ≤ now) :
    Sighted ⟨addr, source, now⟩ held (rememberHeld held addr source now) := by
  rcases rememberHeld_cases held addr source now with
    ⟨index, inside, same, refreshed⟩ | ⟨fresh, joined⟩
  · have isHeld : held = held.take index ++ held[index] :: held.drop (index + 1) := by
      rw [List.getElem_cons_drop, List.take_append_drop]
    have isAfter : rememberHeld held addr source now =
        held.take index ++ CachedAddress.mk addr source now :: held.drop (index + 1) := by
      rw [refreshed, List.modify_eq_take_cons_drop inside, same]
    have sighted : Sighted ⟨addr, source, now⟩
        (held.take index ++ held[index] :: held.drop (index + 1))
        (held.take index ++ CachedAddress.mk addr source now :: held.drop (index + 1)) :=
      Sighted.refreshed _ _ _ same
    rw [← isHeld, ← isAfter] at sighted
    exact sighted
  · rcases Nat.lt_or_ge held.length cachedAddressesPerPeer with room | full
    · have fits : (held ++ [CachedAddress.mk addr source now]).length ≤ cachedAddressesPerPeer := by
        rw [List.length_append, List.length_singleton]
        exact room
      rw [joined, evictOldest_of_fits fits]
      exact Sighted.joined held fresh room
    · have isFull := Nat.le_antisymm bounded.within full
      obtain ⟨front, oldest, back, isHeld, isOldest, isAfter⟩ :=
        evictOldest_concat ⟨addr, source, now⟩ isFull past
      rw [joined, isAfter]
      subst isHeld
      exact Sighted.evicted front oldest back fresh isFull isOldest

/-- The list of an answered address: nothing was held of it, or it is refreshed. -/
theorem answeredHeld_cases (held : List CachedAddress) (addr : SocketAddr) (now : Nat) :
    (∀ entry ∈ held, entry.addr ≠ addr) ∧ answeredHeld held addr now = held ∨
      ∃ source, Sighted ⟨addr, source, now⟩ held (answeredHeld held addr now) := by
  unfold answeredHeld
  cases found : held.findIdx? fun entry => entry.addr == addr with
  | none =>
      left
      rw [List.findIdx?_eq_none_iff] at found
      refine ⟨?_, rfl⟩
      intro entry member
      exact beq_eq_false_iff_ne.mp (found entry member)
  | some index =>
      right
      obtain ⟨inside, same, -⟩ := List.findIdx?_eq_some_iff_getElem.mp found
      have isAddr : held[index].addr = addr := beq_iff_eq.mp same
      have isHeld : held = held.take index ++ held[index] :: held.drop (index + 1) := by
        rw [List.getElem_cons_drop, List.take_append_drop]
      have sighted : Sighted ⟨addr, held[index].source, now⟩
          (held.take index ++ held[index] :: held.drop (index + 1))
          (held.take index ++ CachedAddress.mk addr held[index].source now ::
            held.drop (index + 1)) := Sighted.refreshed _ _ _ isAddr
      refine ⟨held[index].source, ?_⟩
      simp only
      rw [List.modify_eq_take_cons_drop inside, isAddr]
      rw [← isHeld] at sighted
      exact sighted

namespace Sighted

variable {sighting : CachedAddress} {before after : List CachedAddress}

theorem mem (sighted : Sighted sighting before after) {entry : CachedAddress}
    (member : entry ∈ after) : entry ∈ before ∨ entry = sighting := by
  cases sighted with
  | refreshed front old back same =>
      rcases List.mem_append.mp member with inFront | inRest
      · exact Or.inl (List.mem_append_left _ inFront)
      · rcases List.mem_cons.mp inRest with isSighting | inBack
        · exact Or.inr isSighting
        · exact Or.inl (List.mem_append_right _ (List.mem_cons_of_mem _ inBack))
  | joined _ fresh room =>
      exact (List.mem_append.mp member).imp id List.mem_singleton.mp
  | evicted front oldest back fresh full isOldest =>
      rcases List.mem_append.mp member with inRest | isSighting
      · left
        rcases List.mem_append.mp inRest with inFront | inBack
        · exact List.mem_append_left _ inFront
        · exact List.mem_append_right _ (List.mem_cons_of_mem _ inBack)
      · exact Or.inr (List.mem_singleton.mp isSighting)

theorem ne_nil (sighted : Sighted sighting before after) : after ≠ [] := by
  cases sighted with
  | refreshed front old back same =>
      exact List.append_ne_nil_of_right_ne_nil _ (List.cons_ne_nil _ _)
  | joined _ fresh room => exact List.concat_ne_nil _ _
  | evicted front oldest back fresh full isOldest => exact List.concat_ne_nil _ _

theorem nodup_concat {held : List CachedAddress} (distinct : (held.map CachedAddress.addr).Nodup)
    (fresh : ∀ entry ∈ held, entry.addr ≠ sighting.addr) :
    ((held ++ [sighting]).map CachedAddress.addr).Nodup := by
  rw [List.map_append, List.nodup_append]
  refine ⟨distinct, List.nodup_singleton _, ?_⟩
  intro addr known other isOther
  obtain ⟨entry, member, isAddr⟩ := List.mem_map.mp known
  rw [List.mem_singleton.mp isOther, ← isAddr]
  exact fresh entry member

theorem bounded (sighted : Sighted sighting before after) (bounded : Bounded before) :
    Bounded after := by
  cases sighted with
  | refreshed front old back same =>
      constructor
      · have within := bounded.within
        rw [List.length_append, List.length_cons] at within ⊢
        exact within
      · have distinct := bounded.distinct
        rw [List.map_append, List.map_cons] at distinct ⊢
        rw [← same]
        exact distinct
  | joined _ fresh room =>
      constructor
      · rw [List.length_append, List.length_singleton]
        exact room
      · exact nodup_concat bounded.distinct fresh
  | evicted front oldest back fresh full isOldest =>
      have fewer : (front ++ back).Sublist (front ++ oldest :: back) :=
        (List.Sublist.refl front).append (List.sublist_cons_self oldest back)
      constructor
      · rw [List.length_append, List.length_cons] at full
        rw [List.length_append, List.length_append, List.length_singleton]
        omega
      · apply nodup_concat (bounded.sublist fewer).distinct
        intro entry member
        exact fresh entry (fewer.subset member)

/-- A sighting keeps the newest last exactly when it finds its address in turn. -/
theorem newestLast_iff (sighted : Sighted sighting before after) (bounded : Bounded before)
    (ordered : NewestLast before)
    (past : ∀ entry ∈ before, entry.lastAnswer ≤ sighting.lastAnswer) :
    NewestLast after ↔
      ∀ entry ∈ behind before sighting.addr, sighting.lastAnswer ≤ entry.lastAnswer := by
  have concat : ∀ held : List CachedAddress, held.Sublist before →
      NewestLast (held ++ [sighting]) := by
    intro held fewer
    refine List.pairwise_append.mpr ⟨ordered.sublist fewer, List.pairwise_singleton _ _, ?_⟩
    intro entry member other isOther
    rw [List.mem_singleton.mp isOther]
    exact past entry (fewer.subset member)
  cases sighted with
  | refreshed front old back same =>
      obtain ⟨inFront, inRest, across⟩ := List.pairwise_append.mp ordered
      have isBehind : behind (front ++ old :: back) sighting.addr = back := by
        apply behind_append same
        rw [← same]
        exact bounded.fresh
      rw [isBehind]
      unfold NewestLast
      rw [List.pairwise_append, List.pairwise_cons]
      constructor
      · exact fun after => after.2.1.1
      · intro inTurn
        refine ⟨inFront, ⟨inTurn, (List.pairwise_cons.mp inRest).2⟩, ?_⟩
        intro entry member other isLater
        rcases List.mem_cons.mp isLater with isSighting | inBack
        · rw [isSighting]
          exact past entry (List.mem_append_left _ member)
        · exact across entry member other (List.mem_cons_of_mem _ inBack)
  | joined _ fresh room =>
      rw [behind_of_fresh fresh]
      exact iff_of_true (concat _ (List.Sublist.refl _)) (List.forall_mem_nil _)
  | evicted front oldest back fresh full isOldest =>
      rw [behind_of_fresh fresh]
      have fewer : (front ++ back).Sublist (front ++ oldest :: back) :=
        (List.Sublist.refl front).append (List.sublist_cons_self oldest back)
      exact iff_of_true (concat _ fewer) (List.forall_mem_nil _)

end Sighted

/-! ## What each call leaves of a list -/

theorem held_remember (cache : AddressCache) (peer other : Bytes32) (addr : SocketAddr)
    (source : CandidateSource) (now : Nat) :
    (cache.remember peer addr source now).held other =
      if other = peer then rememberHeld (cache.held peer) (unmapV4 addr) source now
      else cache.held other := by
  unfold held
  rw [lookup_remember]
  split
  · rfl
  · rfl

theorem held_answered (cache : AddressCache) (peer other : Bytes32) (addr : SocketAddr)
    (now : Nat) :
    (cache.answered peer addr now).held other =
      if other = peer then answeredHeld (cache.held peer) (unmapV4 addr) now
      else cache.held other := by
  unfold answered held
  cases found : cache.entries.lookup peer with
  | none =>
      simp only
      split
      · next isPeer =>
          rw [isPeer, found]
          rfl
      · rfl
  | some list =>
      simp only
      rw [HashMap.lookup_put]
      split
      · rfl
      · rfl

theorem held_expire (cache : AddressCache) (now : Nat) (peer : Bytes32) :
    (cache.expire now).1.held peer = (cache.held peer).filter (alive now) := by
  unfold held expire
  rw [HashMap.lookup_retain, HashMap.lookup_mapValues]
  cases cache.entries.lookup peer with
  | none => rfl
  | some list =>
      show ((some (list.filter (alive now))).filter fun held => !held.isEmpty).getD [] =
        list.filter (alive now)
      cases list.filter (alive now) with
      | nil => rfl
      | cons entry rest => rfl

theorem lookup_onDialFailedRecorded (cache : AddressCache) (peer other : Bytes32)
    (addr : SocketAddr) (recorder : Option Recorder) (atMs : UInt64) :
    (cache.onDialFailedRecorded peer addr recorder atMs).1.entries.lookup other =
      if other = peer then
        ((cache.entries.lookup peer).map fun held =>
          held.filter fun entry => entry.addr != unmapV4 addr).filter fun kept => !kept.isEmpty
      else cache.entries.lookup other := by
  unfold onDialFailedRecorded
  cases found : cache.entries.lookup peer with
  | none =>
      simp only
      split
      · next isPeer =>
          rw [isPeer, found]
          rfl
      · rfl
  | some list =>
      simp only [Option.map_some]
      cases kept : list.filter fun entry => entry.addr != unmapV4 addr with
      | nil =>
          show (cache.entries.erase peer).lookup other = _
          rw [HashMap.lookup_erase]
          rfl
      | cons entry rest =>
          show (cache.entries.put peer (entry :: rest)).lookup other = _
          rw [HashMap.lookup_put]
          rfl

theorem held_onDialFailedRecorded (cache : AddressCache) (peer other : Bytes32)
    (addr : SocketAddr) (recorder : Option Recorder) (atMs : UInt64) :
    (cache.onDialFailedRecorded peer addr recorder atMs).1.held other =
      if other = peer then (cache.held peer).filter fun entry => entry.addr != unmapV4 addr
      else cache.held other := by
  unfold held
  rw [lookup_onDialFailedRecorded]
  split
  · cases cache.entries.lookup peer with
    | none => rfl
    | some list =>
        simp only [Option.map_some, Option.getD_some]
        cases list.filter fun entry => entry.addr != unmapV4 addr with
        | nil => rfl
        | cons entry rest => rfl
  · rfl

/-! ## What every run keeps -/

/-- What the lists are after calls at these times. -/
structure Kept (times : List Nat) (cache : AddressCache) : Prop where
  occupied : ∀ peer, cache.entries.lookup peer ≠ some []
  bounded : ∀ peer, Bounded (cache.held peer)
  unmapped : ∀ peer, ∀ entry ∈ cache.held peer, unmapV4 entry.addr = entry.addr
  timed : ∀ peer, ∀ entry ∈ cache.held peer, entry.lastAnswer ∈ times

namespace Kept

variable {times : List Nat} {cache : AddressCache}

/-- Every list is one there was, less some entries, or it has taken a sighting. -/
theorem next (kept : Kept times cache) {after : AddressCache} {more : List Nat}
    (occupied : ∀ peer, after.entries.lookup peer ≠ some [])
    (moves : ∀ peer, (after.held peer).Sublist (cache.held peer) ∨
      ∃ sighting : CachedAddress, unmapV4 sighting.addr = sighting.addr ∧
        sighting.lastAnswer ∈ more ∧ Sighted sighting (cache.held peer) (after.held peer)) :
    Kept (times ++ more) after where
  occupied := occupied
  bounded peer := by
    rcases moves peer with fewer | ⟨sighting, -, -, sighted⟩
    · exact (kept.bounded peer).sublist fewer
    · exact sighted.bounded (kept.bounded peer)
  unmapped peer entry member := by
    rcases moves peer with fewer | ⟨sighting, unmapped, -, sighted⟩
    · exact kept.unmapped peer entry (fewer.subset member)
    · rcases sighted.mem member with old | isSighting
      · exact kept.unmapped peer entry old
      · rw [isSighting]
        exact unmapped
  timed peer entry member := by
    rcases moves peer with fewer | ⟨sighting, -, timed, sighted⟩
    · exact List.mem_append_left _ (kept.timed peer entry (fewer.subset member))
    · rcases sighted.mem member with old | isSighting
      · exact List.mem_append_left _ (kept.timed peer entry old)
      · rw [isSighting]
        exact List.mem_append_right _ timed

theorem past (kept : Kept times cache) {now : Nat} (later : ∀ time ∈ times, time ≤ now)
    (peer : Bytes32) : ∀ entry ∈ cache.held peer, entry.lastAnswer ≤ now :=
  fun entry member => later _ (kept.timed peer entry member)

theorem remember (kept : Kept times cache) (peer : Bytes32) (addr : SocketAddr)
    (source : CandidateSource) {now : Nat} (later : ∀ time ∈ times, time ≤ now) :
    Kept (times ++ [now]) (cache.remember peer addr source now) := by
  have sighted := sighted_rememberHeld (kept.bounded peer) (unmapV4 addr) source
    (kept.past later peer)
  apply kept.next
  · intro other isEmpty
    rw [lookup_remember] at isEmpty
    split at isEmpty
    · exact sighted.ne_nil (Option.some.inj isEmpty)
    · exact kept.occupied other isEmpty
  · intro other
    rw [held_remember]
    split
    · next isPeer =>
        rw [isPeer]
        exact Or.inr ⟨_, unmapV4_unmapV4 addr, List.mem_singleton.mpr rfl, sighted⟩
    · exact Or.inl (List.Sublist.refl _)

theorem answered (kept : Kept times cache) (peer : Bytes32) (addr : SocketAddr) (now : Nat) :
    Kept (times ++ [now]) (cache.answered peer addr now) := by
  apply kept.next
  · intro other isEmpty
    unfold AddressCache.answered at isEmpty
    cases found : cache.entries.lookup peer with
    | none =>
        rw [found] at isEmpty
        exact kept.occupied other isEmpty
    | some list =>
        rw [found] at isEmpty
        simp only [HashMap.lookup_put] at isEmpty
        split at isEmpty
        · rcases answeredHeld_cases list (unmapV4 addr) now with ⟨-, same⟩ | ⟨source, sighted⟩
          · rw [same] at isEmpty
            exact kept.occupied peer (found.trans isEmpty)
          · exact sighted.ne_nil (Option.some.inj isEmpty)
        · exact kept.occupied other isEmpty
  · intro other
    rw [held_answered]
    split
    · next isPeer =>
        rw [isPeer]
        rcases answeredHeld_cases (cache.held peer) (unmapV4 addr) now with
          ⟨-, same⟩ | ⟨source, sighted⟩
        · rw [same]
          exact Or.inl (List.Sublist.refl _)
        · exact Or.inr ⟨_, unmapV4_unmapV4 addr, List.mem_singleton.mpr rfl, sighted⟩
    · exact Or.inl (List.Sublist.refl _)

theorem expire (kept : Kept times cache) (now : Nat) :
    Kept (times ++ [now]) (cache.expire now).1 := by
  apply kept.next
  · intro peer isEmpty
    have some := (HashMap.lookup_retain_eq_some.mp isEmpty).2
    cases some
  · intro peer
    rw [held_expire]
    exact Or.inl List.filter_sublist

theorem onDialFailed (kept : Kept times cache) (peer : Bytes32) (addr : SocketAddr)
    (recorder : Option Recorder) (atMs : UInt64) :
    Kept (times ++ []) (cache.onDialFailedRecorded peer addr recorder atMs).1 := by
  apply kept.next
  · intro other isEmpty
    rw [lookup_onDialFailedRecorded] at isEmpty
    split at isEmpty
    · have some := (Option.filter_eq_some_iff.mp isEmpty).2
      cases some
    · exact kept.occupied other isEmpty
  · intro other
    rw [held_onDialFailedRecorded]
    split
    · next isPeer =>
        rw [isPeer]
        exact Or.inl List.filter_sublist
    · exact Or.inl (List.Sublist.refl _)

theorem step (kept : Kept times cache) (call : CacheCall)
    (later : ∀ time ∈ times, ∀ now ∈ call.time, time ≤ now) :
    Kept (times ++ call.time) (cache.step call) := by
  cases call with
  | remember peer addr source now =>
      apply kept.remember
      exact fun time member => later time member now (List.mem_singleton.mpr rfl)
  | answered peer addr now => exact kept.answered peer addr now
  | expire now => exact kept.expire now
  | onDialFailed peer addr recorder atMs => exact kept.onDialFailed peer addr recorder atMs

/-- Every list still names the newest sighting last exactly when the call finds its address in
turn. -/
theorem newestLast_step_iff (kept : Kept times cache)
    (ordered : ∀ peer, NewestLast (cache.held peer)) (call : CacheCall)
    (later : ∀ time ∈ times, ∀ now ∈ call.time, time ≤ now) :
    (∀ peer, NewestLast ((cache.step call).held peer)) ↔ cache.InTurn call := by
  -- The lists of the other peers stay.
  have atPeer : ∀ (after : AddressCache) (peer : Bytes32),
      (∀ other, other ≠ peer → after.held other = cache.held other) →
      ((∀ other, NewestLast (after.held other)) ↔ NewestLast (after.held peer)) := by
    intro after peer others
    constructor
    · exact fun all => all peer
    · intro here other
      by_cases isPeer : other = peer
      · rw [isPeer]
        exact here
      · rw [others other isPeer]
        exact ordered other
  cases call with
  | remember peer addr source now =>
      have past := kept.past (fun time member =>
        later time member now (List.mem_singleton.mpr rfl)) peer
      have sighted := sighted_rememberHeld (kept.bounded peer) (unmapV4 addr) source past
      show (∀ other, NewestLast ((cache.remember peer addr source now).held other)) ↔ _
      rw [atPeer _ peer (fun other differs => by rw [held_remember, if_neg differs]),
        held_remember, if_pos rfl]
      exact sighted.newestLast_iff (kept.bounded peer) (ordered peer) past
  | answered peer addr now =>
      have past := kept.past (fun time member =>
        later time member now (List.mem_singleton.mpr rfl)) peer
      show (∀ other, NewestLast ((cache.answered peer addr now).held other)) ↔ _
      rw [atPeer _ peer (fun other differs => by rw [held_answered, if_neg differs]),
        held_answered, if_pos rfl]
      rcases answeredHeld_cases (cache.held peer) (unmapV4 addr) now with
        ⟨fresh, same⟩ | ⟨source, sighted⟩
      · rw [same]
        apply iff_of_true (ordered peer)
        show ∀ entry ∈ behind (cache.held peer) (unmapV4 addr), now ≤ entry.lastAnswer
        rw [behind_of_fresh fresh]
        exact List.forall_mem_nil _
      · exact sighted.newestLast_iff (kept.bounded peer) (ordered peer) past
  | expire now =>
      apply iff_of_true _ trivial
      intro peer
      show NewestLast ((cache.expire now).1.held peer)
      rw [held_expire]
      exact (ordered peer).sublist List.filter_sublist
  | onDialFailed peer addr recorder atMs =>
      apply iff_of_true _ trivial
      intro other
      show NewestLast ((cache.onDialFailedRecorded peer addr recorder atMs).1.held other)
      rw [held_onDialFailedRecorded]
      split
      · exact (ordered peer).sublist List.filter_sublist
      · exact ordered other

end Kept

/-- The times of a run do not go back. -/
def InOrder (calls : List CacheCall) : Prop := (calls.flatMap CacheCall.time).Pairwise (· ≤ ·)

instance (calls : List CacheCall) : Decidable (InOrder calls) :=
  inferInstanceAs (Decidable ((calls.flatMap CacheCall.time).Pairwise (· ≤ ·)))

theorem inOrder_concat {calls : List CacheCall} {call : CacheCall}
    (inOrder : InOrder (calls ++ [call])) :
    InOrder calls ∧ ∀ time ∈ calls.flatMap CacheCall.time, ∀ now ∈ call.time, time ≤ now := by
  unfold InOrder at inOrder
  rw [List.flatMap_append, List.flatMap_singleton, List.pairwise_append] at inOrder
  exact ⟨inOrder.1, inOrder.2.2⟩

theorem kept_run {calls : List CacheCall} (inOrder : InOrder calls) :
    Kept (calls.flatMap CacheCall.time) (run step new calls) := by
  induction calls using List.reverseRecOn with
  | nil =>
      refine ⟨?_, ?_, ?_, ?_⟩
      · intro peer found
        cases found
      · exact fun _ => ⟨Nat.zero_le _, List.nodup_nil⟩
      · exact fun _ => List.forall_mem_nil _
      · exact fun _ => List.forall_mem_nil _
  | append_singleton calls call ih =>
      obtain ⟨earlier, later⟩ := inOrder_concat inOrder
      rw [run_concat, List.flatMap_append, List.flatMap_singleton]
      exact (ih earlier).step call later

theorem alive_iff (now : Nat) (entry : CachedAddress) :
    alive now entry = decide (now < entry.lastAnswer + entry.ttl) := by
  have positive : 0 < entry.ttl := by
    unfold CachedAddress.ttl
    cases entry.source with
    | discovery => decide
    | _ => decide
  rw [alive, decide_eq_decide]
  omega

/-- The cache is kept exactly when its lists name the newest sighting last. -/
theorem cacheKept_iff {calls : List CacheCall} (inOrder : InOrder calls) :
    CacheKept calls ↔ ∀ peer, NewestLast ((run step new calls).held peer) := by
  have kept := kept_run inOrder
  constructor
  · intro isKept peer
    obtain ⟨entries, ordered, same, -⟩ := isKept.listed peer
    rw [same]
    exact ordered
  · intro ordered
    refine ⟨kept.bounded, kept.unmapped, kept.occupied, ?_, ?_, ?_, ?_⟩
    · intro peer addr source now later
      rw [run_concat]
      show Sighted _ _ (((run step new calls).remember peer addr source now).held peer)
      rw [held_remember, if_pos rfl]
      exact sighted_rememberHeld (kept.bounded peer) _ source (kept.past later peer)
    · intro now peer
      rw [run_concat]
      show ((run step new calls).expire now).1.held peer = _
      rw [held_expire]
      apply List.filter_congr
      exact fun entry _ => alive_iff now entry
    · intro peer addr recorder atMs
      rw [run_concat]
      show ((run step new calls).onDialFailedRecorded peer addr recorder atMs).1.held peer = _
      rw [held_onDialFailedRecorded, if_pos rfl]
      apply List.filter_congr
      intro entry _
      rw [Bool.eq_iff_iff, bne_iff_ne, decide_eq_true_iff]
    · exact fun peer => ⟨_, ordered peer, rfl, rfl⟩

/-- The cache is kept throughout a run, at times that do not go back, exactly when every sighting
of an address it holds finds that address listed last, or ahead only of sightings as new. -/
theorem kept_iff_inTurn {calls : List CacheCall} (inOrder : InOrder calls) :
    (∀ front, front <+: calls → CacheKept front) ↔ Guarded step InTurn new calls := by
  induction calls using List.reverseRecOn with
  | nil =>
      apply iff_of_true _ trivial
      intro front inside
      rw [List.prefix_nil.mp inside, cacheKept_iff inOrder]
      exact fun _ => List.Pairwise.nil
  | append_singleton calls call ih =>
      obtain ⟨earlier, later⟩ := inOrder_concat inOrder
      have isNext : run step new (calls ++ [call]) = (run step new calls).step call :=
        run_concat _ _ _
      have here := cacheKept_iff inOrder
      rw [isNext] at here
      have stepExact := (kept_run earlier).newestLast_step_iff
      rw [guarded_append, ← ih earlier]
      constructor
      · intro always
        have before : ∀ front, front <+: calls → CacheKept front := fun front inside =>
          always front (inside.trans (List.prefix_append _ _))
        refine ⟨before, ?_, trivial⟩
        have ordered := (cacheKept_iff earlier).mp (before calls (List.prefix_refl _))
        apply (stepExact ordered call later).mp
        exact here.mp (always _ (List.prefix_refl _))
      · rintro ⟨before, inTurn, -⟩ front inside
        rcases List.prefix_concat_iff.mp inside with isAll | shorter
        · rw [isAll, here]
          have ordered := (cacheKept_iff earlier).mp (before calls (List.prefix_refl _))
          exact (stepExact ordered call later).mpr inTurn
        · exact before front shorter

def sightedPeer : Bytes32 := List.Vector.replicate 32 11

def sightedAddr (port : UInt16) : SocketAddr := ⟨.v4 (List.Vector.replicate 4 7), port⟩

/-- Two addresses are sighted one after the other, and then the first one again. -/
def sightedAgain : List CacheCall :=
  [.remember sightedPeer (sightedAddr 1) .peerReported 0,
    .remember sightedPeer (sightedAddr 2) .peerReported 1,
    .remember sightedPeer (sightedAddr 1) .peerReported 2]

/-- The newest sighting is listed first. -/
theorem sighted_again_first : ¬CacheKept sightedAgain := by
  intro kept
  obtain ⟨entries, ordered, same, -⟩ := kept.listed sightedPeer
  have isFirst : entries =
      [⟨sightedAddr 1, .peerReported, 2⟩, ⟨sightedAddr 2, .peerReported, 1⟩] := by
    rw [← same]
    decide
  rw [isFirst] at ordered
  revert ordered
  decide

/-- Two addresses are sighted, and the last one answers. -/
def sightedLast : List CacheCall :=
  [.remember sightedPeer (sightedAddr 1) .peerReported 0,
    .remember sightedPeer (sightedAddr 2) .discovery 1,
    .answered sightedPeer (sightedAddr 2) 2]

theorem kept_sightedLast :
    (∀ front, front <+: sightedLast → CacheKept front) ↔ Guarded step InTurn new sightedLast :=
  kept_iff_inTurn (by decide)

end AddressCache

end Mosschat.Net
