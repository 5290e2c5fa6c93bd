import Mosschat.Library.Leases
import Mosschat.Net.Callers
import Mosschat.Net.Doorbell.Upgrade

/-!
Owns what the porch socket shows quinn of a packet by the address it came from: the addresses
the house dialled itself, each under a lease, the direct addresses of its peers, and the rule
that drops the rest.

Does not own a packet, nor how an attempt comes to a winner.
-/

namespace Mosschat.Net

open Mosschat.Core Mosschat.Library Mosschat.Library.Machine Mosschat.Net.Gate

/-- `AllowedSources`. -/
abbrev AllowedSources := Leases Nat SocketAddr

/-- Under any calls, an address is allowed exactly while some lease that was given it has not
been forgotten since, and with every lease forgotten both maps are empty. -/
theorem allowed_sources_exact (calls : List (Leases.Call Nat SocketAddr)) :
    let sources : AllowedSources := run Leases.step .empty calls
    (∀ addr, sources.contains addr = true ↔ ∃ lease, Leases.Outstanding calls lease addr) ∧
      ((∀ lease addr, ¬Leases.Outstanding calls lease addr) →
        sources.byLease = ∅ ∧ sources.refcounts = ∅) := by
  intro sources
  have recounts := Leases.recounts_run calls
  refine ⟨recounts.contains_iff, ?_⟩
  intro forgotten
  have nothing : sources = .empty := recounts.eq_empty forgotten
  rw [nothing]
  exact ⟨rfl, rfl⟩

/-- `SourceVerdict`. -/
inductive SourceVerdict where
  | keep
  | rewrite (synthetic : SocketAddr)
  | drop
deriving DecidableEq

namespace PathTable

/-- `PathEntry::direct_addr` of the entry at a place. -/
def directAddr (table : PathTable) (place : Nat) : Option SocketAddr :=
  table.entries[place]?.bind PathEntry.directAddr

/-- `PathTable::synthetic_for_direct`. -/
def syntheticForDirect (table : PathTable) (direct : SocketAddr) : Option SocketAddr :=
  table.bySynthetic.findKey fun place => table.directAddr place == some direct

/-- The entry at a place becomes `change` of it. -/
def changeAt (table : PathTable) (place : Nat) (change : PathEntry → PathEntry) : PathTable :=
  { table with entries := table.entries.modify place change }

/-- The direct address of the peer with this synthetic address. -/
def directAt (table : PathTable) (synthetic : SocketAddr) : Option SocketAddr :=
  (table.bySynthetic.lookup synthetic).bind table.directAddr

end PathTable

/-- A call of `run_doorbell`: the path it found for its peer, and its attempt. -/
structure Ringing where
  path : Option Nat
  attempt : Attempt

/-- What one porch socket judges a source by. -/
structure PorchSources where
  allowedSources : AllowedSources
  nextSourceLease : Nat
  armed : Bool
  paths : PathTable
  doorbells : HashMap Nat Ringing
  /-- The leases that were not given back, each with the address it was taken for. -/
  live : HashMap Nat SocketAddr

/-- What changes how a source is judged. -/
inductive SourceAction where
  | allowSource (addr : SocketAddr)
  | forgetSource (lease : Nat)
  | arm
  /-- `register_relay_session`, of which the path table sees the synthetic address. -/
  | registerRelaySession (syntheticPeer : SocketAddr)
  | insertRelayPath (peer : Bytes32) (synthetic : SocketAddr)
  /-- `run_doorbell` finds its path and makes an attempt, or makes another one. -/
  | begins (doorbell : Nat) (peer : Bytes32) (attempt : Bytes16)
      (gateReflectedPeer : Option SocketAddr)
  /-- A call on the attempt. Where it returns a winner, the path is upgraded to it. -/
  | calls (doorbell : Nat) (call : AttemptCall)
  | fallsBack (doorbell : Nat)

namespace PorchSources

/-- `PorchSocket::new`. -/
def new : PorchSources where
  allowedSources := .empty
  nextSourceLease := 0
  armed := false
  paths := .new
  doorbells := ∅
  live := ∅

/-- `allow_source`. -/
def allowSource (world : PorchSources) (addr : SocketAddr) : PorchSources :=
  let lease := world.nextSourceLease
  { world with
    allowedSources := world.allowedSources.allow lease (unmapV4 addr)
    nextSourceLease := lease + 1
    live := world.live.put lease addr }

/-- `forget_source`. -/
def forgetSource (world : PorchSources) (lease : Nat) : PorchSources :=
  { world with
    allowedSources := world.allowedSources.forget lease
    live := world.live.erase lease }

/-- `upgrade_to` and `record_rtt`, of the path the doorbell found. -/
def upgrade (paths : PathTable) (path : Option Nat) (winner : Winner) : PathTable :=
  match path with
  | none => paths
  | some place =>
    paths.changeAt place fun entry => (entry.upgradeTo winner.addr).1.recordRtt winner.rtt

/-- One action. What names a doorbell that was never rung changes nothing. -/
def step (world : PorchSources) : SourceAction → PorchSources
  | .allowSource addr => world.allowSource addr
  | .forgetSource lease => world.forgetSource lease
  | .arm => { world with armed := true }
  | .registerRelaySession syntheticPeer =>
    { world with paths := (world.paths.ensureBySynthetic syntheticPeer).1 }
  | .insertRelayPath peer synthetic =>
    { world with paths := (world.paths.insertRelay peer synthetic).1 }
  | .begins doorbell peer attempt gateReflectedPeer =>
    let path := match world.doorbells.lookup doorbell with
      | none => world.paths.byPeer.lookup peer
      | some ringing => ringing.path
    { world with doorbells := world.doorbells.put doorbell ⟨path, .new attempt gateReflectedPeer⟩ }
  | .calls doorbell call =>
    match world.doorbells.lookup doorbell with
    | none => world
    | some ringing =>
      { world with
        paths := (ringing.attempt.wins call).foldl (fun paths winner =>
          upgrade paths ringing.path winner) world.paths
        doorbells := world.doorbells.put doorbell
          { ringing with attempt := ringing.attempt.step call } }
  | .fallsBack doorbell =>
    match (world.doorbells.lookup doorbell).bind Ringing.path with
    | none => world
    | some place =>
      { world with paths := world.paths.changeAt place fun entry => entry.fallBackToRelay.1 }

/-- `classify_source`. -/
def classifySource (world : PorchSources) (addr : SocketAddr) : SourceVerdict :=
  let addr := unmapV4 addr
  if world.allowedSources.contains addr then .keep
  else
    match world.paths.syntheticForDirect addr with
    | some synthetic => .rewrite synthetic
    | none => if !world.armed then .keep else .drop

/-! ## The source rule -/

/-- Some lease that was not given back is for the address, in either spelling. -/
def Leased (world : PorchSources) (addr : SocketAddr) : Prop :=
  ∃ lease dialled, world.live.lookup lease = some dialled ∧ unmapV4 dialled = unmapV4 addr

/-- The peer with this synthetic address has the address as its direct one, in either
spelling. -/
def At (world : PorchSources) (synthetic addr : SocketAddr) : Prop :=
  ∃ direct, world.paths.directAt synthetic = some direct ∧ unmapV4 direct = unmapV4 addr

/-- The verdict says who the address belongs to. -/
structure Judges (world : PorchSources) (addr : SocketAddr) (verdict : SourceVerdict) : Prop where
  keep : verdict = .keep ↔ world.Leased addr
  rewrite : ∀ synthetic, verdict = .rewrite synthetic ↔
    ¬world.Leased addr ∧ world.At synthetic addr
  drop : verdict = .drop ↔ ¬world.Leased addr ∧ ∀ synthetic, ¬world.At synthetic addr

/-- The same socket, with its path table walked in another order. -/
def inOrder (world : PorchSources) (order : HashMap SocketAddr Nat) : PorchSources :=
  { world with paths := { world.paths with bySynthetic := order } }

/-- The rule of an armed socket, in whatever order the path table is walked, and that no
direct address is that of two peers. -/
structure SourceRule (world : PorchSources) : Prop where
  judges : world.armed = true → ∀ order, order.Reordered world.paths.bySynthetic →
    ∀ addr, world.Judges addr ((world.inOrder order).classifySource addr)
  spelled : ∀ addr other, unmapV4 addr = unmapV4 other →
    world.classifySource addr = world.classifySource other
  apart : ∀ synthetic other addr, world.At synthetic addr → world.At other addr →
    synthetic = other

/-- A doorbell upgrades its peer only to an address no other peer is at. -/
def UpgradesAlone (world : PorchSources) : SourceAction → Prop
  | .calls doorbell call => ∀ ringing place winner,
      world.doorbells.lookup doorbell = some ringing → ringing.path = some place →
        winner ∈ ringing.attempt.wins call →
          ∀ synthetic, world.At synthetic winner.addr →
            world.paths.bySynthetic.lookup synthetic = some place
  | _ => True

end PorchSources

/-! ## The path table's answers -/

namespace PathTable

theorem directAt_eq_some {table : PathTable} {synthetic direct : SocketAddr} :
    table.directAt synthetic = some direct ↔
      ∃ place, table.bySynthetic.lookup synthetic = some place ∧
        table.directAddr place = some direct :=
  Option.bind_eq_some_iff

theorem syntheticForDirect_eq_some {table : PathTable} {direct synthetic : SocketAddr}
    (found : table.syntheticForDirect direct = some synthetic) :
    table.directAt synthetic = some direct := by
  obtain ⟨place, isPlace, isDirect⟩ := HashMap.lookup_of_findKey found
  exact directAt_eq_some.mpr ⟨place, isPlace, eq_of_beq isDirect⟩

theorem syntheticForDirect_eq_none {table : PathTable} {direct : SocketAddr}
    (absent : table.syntheticForDirect direct = none) (synthetic : SocketAddr) :
    table.directAt synthetic ≠ some direct := by
  intro found
  obtain ⟨place, isPlace, isDirect⟩ := directAt_eq_some.mp found
  have differs := HashMap.findKey_eq_none.mp absent synthetic place isPlace
  rw [isDirect, beq_self_eq_true] at differs
  cases differs

/-- An entry that is new is a relayed one. -/
theorem directAt_ensureBySynthetic {table : PathTable} (indexed : table.Indexed)
    (synthetic other : SocketAddr) :
    (table.ensureBySynthetic synthetic).1.directAt other = table.directAt other := by
  unfold ensureBySynthetic
  split
  · rfl
  · next none =>
      simp only [directAt, directAddr]
      rw [HashMap.lookup_put]
      split
      · next same =>
          rw [same, none]
          show ((table.entries ++ [PathEntry.newRelay])[table.entries.length]?).bind _ = _
          rw [List.getElem?_concat_length]
          rfl
      · cases found : table.bySynthetic.lookup other with
        | none => rfl
        | some place =>
            show ((table.entries ++ [PathEntry.newRelay])[place]?).bind _ = _
            rw [List.getElem?_append_left (indexed.placed other place found)]
            rfl

theorem directAt_insertRelay {table : PathTable} (indexed : table.Indexed) (peer : Bytes32)
    (synthetic other : SocketAddr) :
    (table.insertRelay peer synthetic).1.directAt other = table.directAt other := by
  rw [← directAt_ensureBySynthetic indexed synthetic other]
  unfold directAt directAddr
  rw [bySynthetic_insertRelay, entries_insertRelay]

theorem directAddr_changeAt (table : PathTable) (place other : Nat)
    (change : PathEntry → PathEntry) :
    (table.changeAt place change).directAddr other =
      if other = place then (table.entries[place]?.map change).bind PathEntry.directAddr
      else table.directAddr other := by
  unfold directAddr changeAt
  rw [List.getElem?_modify]
  by_cases same : other = place
  · rw [if_pos same, same]
    simp only [if_true]
    rfl
  · simp only [if_neg same, if_neg (Ne.symm same)]
    rw [id_map']

theorem indexed_changeAt {table : PathTable} (indexed : table.Indexed) (place : Nat)
    (change : PathEntry → PathEntry) : (table.changeAt place change).Indexed where
  placed := by
    intro synthetic held found
    show held < (table.entries.modify place change).length
    rw [List.length_modify]
    exact indexed.placed synthetic held found
  distinct := indexed.distinct

end PathTable

/-! ## Candidates and winners -/

namespace Attempt

/-- Every candidate is spelled in the plain form. -/
def Plain (attempt : Attempt) : Prop := ∀ addr ∈ attempt.addrs, unmapV4 addr = addr

theorem plain_new (id : Bytes16) (gateReflectedPeer : Option SocketAddr) :
    Plain (new id gateReflectedPeer) := nofun

theorem Plain.step {attempt : Attempt} (plain : Plain attempt) (call : AttemptCall) :
    Plain (attempt.step call) := by
  obtain ⟨more, joined, -⟩ := joined_step attempt call
  intro addr member
  rw [addrs_eq, joined.table, List.map_append, ← addrs_eq] at member
  rcases List.mem_append.mp member with old | new
  · exact plain addr old
  · obtain ⟨entry, isEntry, rfl⟩ := List.mem_map.mp new
    exact (joined.fit entry isEntry).1

/-- Only a call of `decide` returns a winner, which is a candidate. -/
theorem mem_wins {attempt : Attempt} {call : AttemptCall} {winner : Winner}
    (won : winner ∈ attempt.wins call) :
    winner.addr ∈ attempt.addrs ∧ attempt.wins call = [winner] := by
  cases call with
  | decide =>
      have isWinner : attempt.decide.2 = some winner := Option.mem_toList.mp won
      obtain ⟨_, isLeast, _⟩ := decide_eq_some isWinner
      obtain ⟨contends, _⟩ := minBy_eq_some compares_comesAfter isLeast
      obtain ⟨candidate, member, _, _, isAddr⟩ := mem_contenders.mp contends
      refine ⟨?_, ?_⟩
      · rw [show winner.addr = candidate.addr from isAddr.symm]
        exact List.mem_map_of_mem member
      · show attempt.decide.2.toList = [winner]
        rw [isWinner]
        rfl
  | _ => cases won

end Attempt

namespace PorchSources

/-! ## What every action keeps -/

/-- What holds of the socket in every run. -/
structure Kept (world : PorchSources) : Prop where
  counted : world.allowedSources.Counted
  leased : ∀ lease, world.allowedSources.byLease.lookup lease =
    (world.live.lookup lease).map fun addr => [unmapV4 addr]
  numbered : ∀ lease, lease ∈ world.live → lease < world.nextSourceLease
  indexed : world.paths.Indexed
  keyed : ∀ peer place, world.paths.byPeer.lookup peer = some place →
    ∃ synthetic, world.paths.bySynthetic.lookup synthetic = some place
  rung : ∀ doorbell ringing, world.doorbells.lookup doorbell = some ringing →
    ringing.attempt.Plain ∧ ∀ place, ringing.path = some place →
      ∃ synthetic, world.paths.bySynthetic.lookup synthetic = some place
  plain : ∀ synthetic direct, world.paths.directAt synthetic = some direct →
    unmapV4 direct = direct

theorem kept_new : Kept new where
  counted := Leases.counted_empty
  leased := fun _ => rfl
  numbered := nofun
  indexed := PathTable.indexed_new
  keyed := nofun
  rung := nofun
  plain := nofun

section Steps

variable {world : PorchSources}

/-- The paths may change as long as every place keeps an address and every direct address is
in the plain form. -/
theorem Kept.withPaths (kept : Kept world) {paths : PathTable} (indexed : paths.Indexed)
    (placed : ∀ synthetic place, world.paths.bySynthetic.lookup synthetic = some place →
      paths.bySynthetic.lookup synthetic = some place)
    (keyed : ∀ peer place, paths.byPeer.lookup peer = some place →
      ∃ synthetic, paths.bySynthetic.lookup synthetic = some place)
    (plain : ∀ synthetic direct, paths.directAt synthetic = some direct →
      unmapV4 direct = direct) : Kept { world with paths := paths } where
  counted := kept.counted
  leased := kept.leased
  numbered := kept.numbered
  indexed := indexed
  keyed := keyed
  rung := by
    intro doorbell ringing isThere
    have rung := kept.rung doorbell ringing isThere
    refine ⟨rung.1, ?_⟩
    intro place isPath
    obtain ⟨synthetic, isPlace⟩ := rung.2 place isPath
    exact ⟨synthetic, placed synthetic place isPlace⟩
  plain := plain

theorem Kept.withDoorbell (kept : Kept world) (doorbell : Nat) {ringing : Ringing}
    (plain : ringing.attempt.Plain)
    (placed : ∀ place, ringing.path = some place →
      ∃ synthetic, world.paths.bySynthetic.lookup synthetic = some place) :
    Kept { world with doorbells := world.doorbells.put doorbell ringing } where
  counted := kept.counted
  leased := kept.leased
  numbered := kept.numbered
  indexed := kept.indexed
  keyed := kept.keyed
  rung := by
    intro other found isThere
    rw [HashMap.lookup_put] at isThere
    split at isThere
    · rw [← Option.some.inj isThere]
      exact ⟨plain, placed⟩
    · exact kept.rung other found isThere
  plain := kept.plain

theorem Kept.allowSource (kept : Kept world) (addr : SocketAddr) :
    Kept (world.allowSource addr) where
  counted := kept.counted.allow _ _
  leased := by
    intro lease
    have fresh : world.allowedSources.byLease.lookup world.nextSourceLease = none := by
      rw [kept.leased, Option.map_eq_none_iff, AList.lookup_eq_none]
      intro isLive
      exact Nat.lt_irrefl _ (kept.numbered _ isLive)
    show (world.allowedSources.allow _ _).byLease.lookup lease =
      ((world.live.put _ _).lookup lease).map _
    rw [Leases.lookup_allow, HashMap.lookup_put, fresh]
    split
    · rfl
    · exact kept.leased lease
  numbered := by
    intro lease isLive
    rcases (HashMap.mem_put _ _ _ _).mp isLive with isFresh | old
    · rw [isFresh]
      exact Nat.lt_succ_self _
    · exact Nat.lt_succ_of_lt (kept.numbered lease old)
  indexed := kept.indexed
  keyed := kept.keyed
  rung := kept.rung
  plain := kept.plain

theorem Kept.forgetSource (kept : Kept world) (lease : Nat) : Kept (world.forgetSource lease) where
  counted := kept.counted.forget lease
  leased := by
    intro other
    show (world.allowedSources.forget lease).byLease.lookup other =
      ((world.live.erase lease).lookup other).map _
    rw [Leases.lookup_forget, HashMap.lookup_erase]
    split
    · rfl
    · exact kept.leased other
  numbered := by
    intro other isLive
    exact kept.numbered other (AList.mem_erase.mp isLive).2
  indexed := kept.indexed
  keyed := kept.keyed
  rung := kept.rung
  plain := kept.plain

theorem Kept.registerRelaySession (kept : Kept world) (synthetic : SocketAddr) :
    Kept (world.step (.registerRelaySession synthetic)) := by
  have grows := PathTable.grows_ensureBySynthetic world.paths synthetic
  apply kept.withPaths
  · exact PathTable.indexed_ensureBySynthetic kept.indexed synthetic
  · exact grows.bySynthetic
  · intro peer place found
    rw [PathTable.byPeer_ensureBySynthetic] at found
    obtain ⟨at_, isPlace⟩ := kept.keyed peer place found
    exact ⟨at_, grows.bySynthetic at_ place isPlace⟩
  · intro other direct found
    rw [PathTable.directAt_ensureBySynthetic kept.indexed] at found
    exact kept.plain other direct found

theorem Kept.insertRelayPath (kept : Kept world) (peer : Bytes32) (synthetic : SocketAddr) :
    Kept (world.step (.insertRelayPath peer synthetic)) := by
  have grows := PathTable.grows_insertRelay world.paths peer synthetic
  apply kept.withPaths
  · exact PathTable.indexed_insertRelay kept.indexed peer synthetic
  · exact grows.bySynthetic
  · intro other place found
    rw [PathTable.byPeer_insertRelay] at found
    split at found
    · exact ⟨synthetic, found⟩
    · obtain ⟨at_, isPlace⟩ := kept.keyed other place found
      exact ⟨at_, grows.bySynthetic at_ place isPlace⟩
  · intro other direct found
    rw [PathTable.directAt_insertRelay kept.indexed] at found
    exact kept.plain other direct found

theorem Kept.changeAt (kept : Kept world) (place : Nat) {change : PathEntry → PathEntry}
    (plain : ∀ entry direct, (change entry).directAddr = some direct → unmapV4 direct = direct) :
    Kept { world with paths := world.paths.changeAt place change } := by
  apply kept.withPaths
  · exact PathTable.indexed_changeAt kept.indexed place change
  · exact fun _ _ found => found
  · exact kept.keyed
  · intro synthetic direct found
    obtain ⟨held, isPlace, isDirect⟩ := PathTable.directAt_eq_some.mp found
    rw [PathTable.directAddr_changeAt] at isDirect
    split at isDirect
    · obtain ⟨changed, isChanged, isAddr⟩ := Option.bind_eq_some_iff.mp isDirect
      obtain ⟨entry, _, rfl⟩ := Option.map_eq_some_iff.mp isChanged
      exact plain entry direct isAddr
    · exact kept.plain synthetic direct (PathTable.directAt_eq_some.mpr ⟨held, isPlace, isDirect⟩)

theorem directAddr_upgraded (entry : PathEntry) (winner : Winner) :
    ((entry.upgradeTo winner.addr).1.recordRtt winner.rtt).directAddr = some winner.addr := by
  unfold PathEntry.directAddr
  rw [PathEntry.kind_recordRtt, PathEntry.kind_upgradeTo]

theorem directAddr_fallenBack (entry : PathEntry) :
    entry.fallBackToRelay.1.directAddr = none := by
  unfold PathEntry.directAddr
  rw [PathEntry.kind_fallBackToRelay]

/-- What the winners of a call do to the paths. -/
theorem upgrades_eq (attempt : Attempt) (call : AttemptCall) (paths : PathTable)
    (path : Option Nat) :
    ((attempt.wins call = [] ∨ path = none) ∧
        (attempt.wins call).foldl (fun paths winner => upgrade paths path winner) paths = paths) ∨
      ∃ winner place, attempt.wins call = [winner] ∧ winner.addr ∈ attempt.addrs ∧
        path = some place ∧
        (attempt.wins call).foldl (fun paths winner => upgrade paths path winner) paths =
          paths.changeAt place fun entry =>
            (entry.upgradeTo winner.addr).1.recordRtt winner.rtt := by
  cases isWon : attempt.wins call with
  | nil => exact Or.inl ⟨Or.inl rfl, rfl⟩
  | cons winner rest =>
      have won : winner ∈ attempt.wins call := by
        rw [isWon]
        exact List.mem_cons_self
      obtain ⟨isCandidate, only⟩ := Attempt.mem_wins won
      rw [isWon] at only
      rw [only]
      cases path with
      | none => exact Or.inl ⟨Or.inr rfl, rfl⟩
      | some place => exact Or.inr ⟨winner, place, rfl, isCandidate, rfl, rfl⟩

theorem Kept.calls (kept : Kept world) {doorbell : Nat} {ringing : Ringing}
    (isThere : world.doorbells.lookup doorbell = some ringing) (call : AttemptCall) :
    Kept (world.step (.calls doorbell call)) := by
  have rung := kept.rung doorbell ringing isThere
  simp only [step]
  rw [isThere]
  rcases upgrades_eq ringing.attempt call world.paths ringing.path with
    ⟨_, same⟩ | ⟨winner, place, _, isCandidate, isPath, upgraded⟩
  · simp only [same]
    exact kept.withDoorbell doorbell (rung.1.step call) rung.2
  · simp only [upgraded]
    have changed : Kept { world with
        paths := world.paths.changeAt place fun entry =>
          (entry.upgradeTo winner.addr).1.recordRtt winner.rtt } := by
      apply kept.changeAt
      intro entry direct isDirect
      rw [directAddr_upgraded] at isDirect
      rw [← Option.some.inj isDirect]
      exact rung.1 _ isCandidate
    exact changed.withDoorbell doorbell (rung.1.step call) rung.2

/-- Every action keeps it. -/
theorem kept_step (kept : Kept world) (action : SourceAction) : Kept (world.step action) := by
  cases action with
  | allowSource addr => exact kept.allowSource addr
  | forgetSource lease => exact kept.forgetSource lease
  | arm =>
      exact ⟨kept.counted, kept.leased, kept.numbered, kept.indexed, kept.keyed, kept.rung,
        kept.plain⟩
  | registerRelaySession synthetic => exact kept.registerRelaySession synthetic
  | insertRelayPath peer synthetic => exact kept.insertRelayPath peer synthetic
  | begins doorbell peer attempt gateReflectedPeer =>
      apply kept.withDoorbell
      · exact Attempt.plain_new attempt gateReflectedPeer
      · intro place isPath
        cases isThere : world.doorbells.lookup doorbell with
        | none =>
            rw [isThere] at isPath
            exact kept.keyed peer place isPath
        | some ringing =>
            rw [isThere] at isPath
            exact (kept.rung doorbell ringing isThere).2 place isPath
  | calls doorbell call =>
      cases isThere : world.doorbells.lookup doorbell with
      | none =>
          simp only [step]
          rw [isThere]
          exact kept
      | some ringing => exact kept.calls isThere call
  | fallsBack doorbell =>
      simp only [step]
      split
      · exact kept
      · next place _ =>
          apply kept.changeAt
          intro entry direct isDirect
          rw [directAddr_fallenBack] at isDirect
          cases isDirect

/-! ## The verdicts -/

theorem Kept.contains_iff (kept : Kept world) (addr : SocketAddr) :
    world.allowedSources.contains (unmapV4 addr) = true ↔ world.Leased addr := by
  rw [kept.counted.contains_iff]
  constructor
  · rintro ⟨lease, values, found, member⟩
    rw [kept.leased] at found
    obtain ⟨dialled, isLive, rfl⟩ := Option.map_eq_some_iff.mp found
    exact ⟨lease, dialled, isLive, (List.mem_singleton.mp member).symm⟩
  · rintro ⟨lease, dialled, isLive, same⟩
    refine ⟨lease, [unmapV4 dialled], ?_, List.mem_singleton.mpr same.symm⟩
    rw [kept.leased, isLive]
    rfl

theorem Kept.at_iff (kept : Kept world) (synthetic addr : SocketAddr) :
    world.At synthetic addr ↔ world.paths.directAt synthetic = some (unmapV4 addr) := by
  constructor
  · rintro ⟨direct, found, same⟩
    rw [found, ← same, kept.plain synthetic direct found]
  · intro found
    exact ⟨unmapV4 addr, found, unmapV4_unmapV4 addr⟩

/-- No direct address is that of two peers. -/
def Unique (world : PorchSources) : Prop :=
  ∀ synthetic other addr, world.At synthetic addr → world.At other addr → synthetic = other

/-- In whatever order the table is walked, an address is kept for its lease, rewritten to a peer
that is at it, or unknown. -/
theorem Kept.classifySource_cases (kept : Kept world) {order : HashMap SocketAddr Nat}
    (reordered : order.Reordered world.paths.bySynthetic) (addr : SocketAddr) :
    world.Leased addr ∧ (world.inOrder order).classifySource addr = .keep ∨
      ¬world.Leased addr ∧ (∃ synthetic, world.At synthetic addr ∧
        (world.inOrder order).classifySource addr = .rewrite synthetic) ∨
      ¬world.Leased addr ∧ (∀ synthetic, ¬world.At synthetic addr) ∧
        (world.inOrder order).classifySource addr = if !world.armed then .keep else .drop := by
  have same : ∀ synthetic, (world.inOrder order).paths.directAt synthetic =
      world.paths.directAt synthetic := by
    intro synthetic
    show (order.lookup synthetic).bind _ = _
    rw [reordered.lookup_eq]
    rfl
  cases isLeased : world.allowedSources.contains (unmapV4 addr) with
  | true =>
      refine Or.inl ⟨(kept.contains_iff addr).mp isLeased, ?_⟩
      exact if_pos isLeased
  | false =>
      have unleased : ¬world.Leased addr := by
        rw [← kept.contains_iff, isLeased]
        exact Bool.false_ne_true
      have onward : (world.inOrder order).classifySource addr =
          match (world.inOrder order).paths.syntheticForDirect (unmapV4 addr) with
          | some synthetic => .rewrite synthetic
          | none => if !world.armed then .keep else .drop := by
        apply if_neg
        show ¬world.allowedSources.contains (unmapV4 addr) = true
        rw [isLeased]
        exact Bool.false_ne_true
      rw [onward]
      cases found : (world.inOrder order).paths.syntheticForDirect (unmapV4 addr) with
      | some synthetic =>
          have isAt := PathTable.syntheticForDirect_eq_some found
          rw [same] at isAt
          exact Or.inr (Or.inl ⟨unleased, synthetic, (kept.at_iff synthetic addr).mpr isAt, rfl⟩)
      | none =>
          refine Or.inr (Or.inr ⟨unleased, ?_, rfl⟩)
          intro synthetic isAt
          apply PathTable.syntheticForDirect_eq_none found synthetic
          rw [same]
          exact (kept.at_iff synthetic addr).mp isAt

theorem Kept.judges (kept : Kept world) (unique : Unique world) (armed : world.armed = true)
    {order : HashMap SocketAddr Nat} (reordered : order.Reordered world.paths.bySynthetic)
    (addr : SocketAddr) :
    world.Judges addr ((world.inOrder order).classifySource addr) := by
  rcases kept.classifySource_cases reordered addr with
    ⟨leased, isKeep⟩ | ⟨unleased, at_, isAt, isRewrite⟩ | ⟨unleased, nowhere, isLast⟩
  · rw [isKeep]
    constructor
    · exact iff_of_true rfl leased
    · exact fun synthetic => iff_of_false nofun fun both => both.1 leased
    · exact iff_of_false nofun fun both => both.1 leased
  · rw [isRewrite]
    constructor
    · exact iff_of_false nofun unleased
    · intro synthetic
      constructor
      · intro same
        rw [← SourceVerdict.rewrite.inj same]
        exact ⟨unleased, isAt⟩
      · intro both
        rw [unique at_ synthetic addr isAt both.2]
    · exact iff_of_false nofun fun both => both.2 at_ isAt
  · rw [isLast, armed]
    constructor
    · exact iff_of_false nofun unleased
    · exact fun synthetic => iff_of_false nofun fun both => nowhere synthetic both.2
    · exact iff_of_true rfl ⟨unleased, nowhere⟩

/-- The rule holds exactly while no direct address is that of two peers. -/
theorem Kept.sourceRule_iff (kept : Kept world) : SourceRule world ↔ Unique world := by
  constructor
  · exact SourceRule.apart
  · intro unique
    refine ⟨?_, ?_, unique⟩
    · intro armed order reordered addr
      exact kept.judges unique armed reordered addr
    · intro addr other same
      unfold classifySource
      rw [same]

/-! ## Who is at an address -/

/-- Where nobody is at a new address, nobody comes to share one. -/
theorem Unique.mono {next : PorchSources} (unique : Unique world)
    (fewer : ∀ synthetic direct, next.paths.directAt synthetic = some direct →
      world.paths.directAt synthetic = some direct) : Unique next := by
  intro synthetic other addr isAt alsoAt
  obtain ⟨direct, found, same⟩ := isAt
  obtain ⟨otherDirect, otherFound, otherSame⟩ := alsoAt
  exact unique synthetic other addr ⟨direct, fewer _ _ found, same⟩
    ⟨otherDirect, fewer _ _ otherFound, otherSame⟩

theorem Kept.directAt_upgraded (kept : Kept world) {place : Nat} (winner : Winner)
    (synthetic : SocketAddr) :
    (world.paths.changeAt place fun entry =>
        (entry.upgradeTo winner.addr).1.recordRtt winner.rtt).directAt synthetic =
      if world.paths.bySynthetic.lookup synthetic = some place then some winner.addr
      else world.paths.directAt synthetic := by
  show (world.paths.bySynthetic.lookup synthetic).bind _ = _
  cases found : world.paths.bySynthetic.lookup synthetic with
  | none =>
      rw [if_neg nofun, PathTable.directAt, found]
      rfl
  | some held =>
      rw [Option.bind_some, PathTable.directAddr_changeAt]
      by_cases same : held = place
      · rw [if_pos same, if_pos (congrArg some same)]
        have within := kept.indexed.placed synthetic held found
        rw [same] at within
        rw [List.getElem?_eq_getElem within]
        exact directAddr_upgraded _ winner
      · rw [if_neg same, if_neg fun both => same (Option.some.inj both), PathTable.directAt, found]
        rfl

/-- An upgrade leaves the direct addresses apart exactly where nobody else is at the address. -/
theorem Kept.unique_upgraded_iff (kept : Kept world) (unique : Unique world) {place : Nat}
    {own : SocketAddr} (isOwn : world.paths.bySynthetic.lookup own = some place)
    (winner : Winner) {next : PorchSources}
    (upgraded : next.paths = world.paths.changeAt place fun entry =>
      (entry.upgradeTo winner.addr).1.recordRtt winner.rtt) :
    Unique next ↔ ∀ synthetic, world.At synthetic winner.addr →
      world.paths.bySynthetic.lookup synthetic = some place := by
  have directAt : ∀ synthetic, next.paths.directAt synthetic =
      if world.paths.bySynthetic.lookup synthetic = some place then some winner.addr
      else world.paths.directAt synthetic := by
    intro synthetic
    rw [upgraded]
    exact kept.directAt_upgraded winner synthetic
  have own_ : ∀ synthetic, world.paths.bySynthetic.lookup synthetic = some place →
      synthetic = own := by
    intro synthetic isPlace
    exact kept.indexed.distinct synthetic own place isPlace isOwn
  constructor
  · intro after synthetic isAt
    by_contra elsewhere
    obtain ⟨direct, found, same⟩ := isAt
    have still : next.At synthetic winner.addr := by
      refine ⟨direct, ?_, same⟩
      rw [directAt, if_neg elsewhere, found]
    have arrived : next.At own winner.addr := by
      refine ⟨winner.addr, ?_, rfl⟩
      rw [directAt, if_pos isOwn]
    rw [after synthetic own winner.addr still arrived] at elsewhere
    exact elsewhere isOwn
  · intro alone
    -- whoever is at an address now was at it before, or is the one that was upgraded to it
    have before : ∀ synthetic addr, next.At synthetic addr →
        world.paths.bySynthetic.lookup synthetic ≠ some place → world.At synthetic addr := by
      intro synthetic addr isAt elsewhere
      obtain ⟨direct, found, same⟩ := isAt
      rw [directAt, if_neg elsewhere] at found
      exact ⟨direct, found, same⟩
    have atWinner : ∀ synthetic addr, next.At synthetic addr →
        world.paths.bySynthetic.lookup synthetic = some place →
          unmapV4 winner.addr = unmapV4 addr := by
      intro synthetic addr isAt isPlace
      obtain ⟨direct, found, same⟩ := isAt
      rw [directAt, if_pos isPlace] at found
      rw [Option.some.inj found]
      exact same
    have collides : ∀ synthetic other addr, next.At synthetic addr → next.At other addr →
        world.paths.bySynthetic.lookup synthetic = some place →
          world.paths.bySynthetic.lookup other = some place := by
      intro synthetic other addr isAt alsoAt isPlace
      by_contra elsewhere
      have winnerAt := atWinner synthetic addr isAt isPlace
      obtain ⟨direct, found, same⟩ := before other addr alsoAt elsewhere
      exact elsewhere (alone other ⟨direct, found, same.trans winnerAt.symm⟩)
    intro synthetic other addr isAt alsoAt
    by_cases isPlace : world.paths.bySynthetic.lookup synthetic = some place
    · rw [own_ synthetic isPlace, own_ other (collides synthetic other addr isAt alsoAt isPlace)]
    · have otherPlace : world.paths.bySynthetic.lookup other ≠ some place := fun isOther =>
        isPlace (collides other synthetic addr alsoAt isAt isOther)
      exact unique synthetic other addr (before synthetic addr isAt isPlace)
        (before other addr alsoAt otherPlace)

theorem Kept.unique_calls_iff (kept : Kept world) (unique : Unique world) {doorbell : Nat}
    {ringing : Ringing} (isThere : world.doorbells.lookup doorbell = some ringing)
    (call : AttemptCall) :
    Unique (world.step (.calls doorbell call)) ↔ world.UpgradesAlone (.calls doorbell call) := by
  have stepped : (world.step (.calls doorbell call)).paths =
      (ringing.attempt.wins call).foldl (fun paths winner =>
        upgrade paths ringing.path winner) world.paths := by
    simp only [step]
    rw [isThere]
  rcases upgrades_eq ringing.attempt call world.paths ringing.path with
    ⟨nothing, same⟩ | ⟨winner, place, isWon, _, isPath, upgraded⟩
  · apply iff_of_true
    · apply unique.mono
      intro synthetic direct found
      rw [stepped, same] at found
      exact found
    · intro found place winner isFound isPath won
      rw [isThere] at isFound
      rw [← Option.some.inj isFound] at isPath won
      rcases nothing with noWinner | noPath
      · rw [noWinner] at won
        cases won
      · rw [noPath] at isPath
        cases isPath
  · obtain ⟨own, isOwn⟩ := (kept.rung doorbell ringing isThere).2 place isPath
    rw [kept.unique_upgraded_iff unique isOwn winner (stepped.trans upgraded)]
    constructor
    · intro alone found place' winner' isFound isPath' won
      rw [isThere] at isFound
      rw [← Option.some.inj isFound] at isPath' won
      rw [isWon, List.mem_singleton] at won
      rw [isPath] at isPath'
      rw [won, ← Option.some.inj isPath']
      exact alone
    · intro alone
      apply alone ringing place winner isThere isPath
      rw [isWon]
      exact List.mem_singleton_self winner

/-- An action keeps the direct addresses apart exactly where it upgrades nobody to an address
that another peer is at. -/
theorem Kept.unique_step_iff (kept : Kept world) (unique : Unique world) (action : SourceAction) :
    Unique (world.step action) ↔ world.UpgradesAlone action := by
  cases action with
  | allowSource addr => exact iff_of_true (unique.mono fun _ _ found => found) trivial
  | forgetSource lease => exact iff_of_true (unique.mono fun _ _ found => found) trivial
  | arm => exact iff_of_true (unique.mono fun _ _ found => found) trivial
  | registerRelaySession syntheticPeer =>
      apply iff_of_true _ trivial
      apply unique.mono
      intro synthetic direct found
      rw [← PathTable.directAt_ensureBySynthetic kept.indexed syntheticPeer]
      exact found
  | insertRelayPath peer syntheticPeer =>
      apply iff_of_true _ trivial
      apply unique.mono
      intro synthetic direct found
      rw [← PathTable.directAt_insertRelay kept.indexed peer syntheticPeer]
      exact found
  | begins doorbell peer attempt gateReflectedPeer =>
      exact iff_of_true (unique.mono fun _ _ found => found) trivial
  | calls doorbell call =>
      cases isThere : world.doorbells.lookup doorbell with
      | none =>
          have same : world.step (.calls doorbell call) = world := by
            simp only [step]
            rw [isThere]
          rw [same]
          apply iff_of_true unique
          intro ringing place winner isFound
          rw [isThere] at isFound
          cases isFound
      | some ringing => exact kept.unique_calls_iff unique isThere call
  | fallsBack doorbell =>
      apply iff_of_true _ trivial
      simp only [step]
      split
      · exact unique
      · next place _ =>
          apply unique.mono
          intro synthetic direct found
          obtain ⟨held, isPlace, isDirect⟩ := PathTable.directAt_eq_some.mp found
          rw [PathTable.directAddr_changeAt] at isDirect
          split at isDirect
          · obtain ⟨changed, isChanged, isAddr⟩ := Option.bind_eq_some_iff.mp isDirect
            obtain ⟨entry, _, rfl⟩ := Option.map_eq_some_iff.mp isChanged
            rw [directAddr_fallenBack] at isAddr
            cases isAddr
          · exact PathTable.directAt_eq_some.mpr ⟨held, isPlace, isDirect⟩

end Steps

/-! ## Every run -/

/-- The rule holds throughout a run exactly when no doorbell of it upgrades its peer to an
address that another peer is at. -/
theorem source_rule_iff (actions : List SourceAction) :
    Throughout step SourceRule new actions ↔ Guarded step UpgradesAlone new actions := by
  have preserved : ∀ (world : PorchSources) action, Kept world → Kept (world.step action) :=
    fun _ action kept => kept_step kept action
  have kept : Throughout step Kept new actions :=
    fun front _ => run_always preserved kept_new front
  have stepExact : ∀ (world : PorchSources) action, Kept world ∧ Unique world →
      (Kept (world.step action) ∧ Unique (world.step action) ↔ world.UpgradesAlone action) := by
    intro world action both
    have unique := both.1.unique_step_iff both.2 action
    exact ⟨fun next => unique.mp next.2, fun alone => ⟨kept_step both.1 action, unique.mpr alone⟩⟩
  rw [← throughout_iff_guarded stepExact ⟨kept_new, nofun⟩]
  constructor
  · intro rule front inside
    exact ⟨kept front inside, (kept front inside).sourceRule_iff.mp (rule front inside)⟩
  · intro both front inside
    exact (both front inside).1.sourceRule_iff.mpr (both front inside).2

/-! ### One socket, two keys -/

/-- A house that has two keys, and one socket for both. -/
def sharedAddr : SocketAddr := ⟨.newV4 203 0 113 9, 5000⟩

def twoKeys (which : UInt8) : Bytes32 := List.Vector.replicate 32 which

def twoRoutes (which : UInt8) : SocketAddr := ⟨.v6 (List.Vector.replicate 16 which), 1⟩

/-- One attempt: the peer names the address, and answers three probes from it. -/
def provesShared (which : UInt8) : List SourceAction :=
  let attempt : Bytes16 := List.Vector.replicate 16 which
  let tx (number : UInt8) : TxId := ⟨[number, which, 0, 0, 0, 0, 0, 0], rfl⟩
  let pong (number : UInt8) : Probe := ⟨probePong, attempt, tx number, Addr.unset⟩
  [.registerRelaySession (twoRoutes which), .insertRelayPath (twoKeys which) (twoRoutes which),
    .begins which.toNat (twoKeys which) attempt none] ++
  [.addCandidate sharedAddr .peerReported, .startSignalReceived 0,
    .dueProbes (fromMillis 200) fun _ => tx 1, .onPong sharedAddr (pong 1) (fromMillis 210),
    .dueProbes (fromMillis 300) fun _ => tx 2, .onPong sharedAddr (pong 2) (fromMillis 310),
    .dueProbes (fromMillis 400) fun _ => tx 3, .onPong sharedAddr (pong 3) (fromMillis 410),
    .decide].map (SourceAction.calls which.toNat)

/-- Both are upgraded to the one address, and what comes from it is the first one's. -/
theorem shared_address :
    let world := run step new (.arm :: provesShared 1 ++ provesShared 2)
    world.paths.directAt (twoRoutes 1) = some sharedAddr ∧
      world.paths.directAt (twoRoutes 2) = some sharedAddr ∧ world.armed = true ∧
      (∃ which, world.classifySource sharedAddr = .rewrite which) ∧ ¬SourceRule world := by
  intro world
  have first : world.paths.directAt (twoRoutes 1) = some sharedAddr := by decide
  have second : world.paths.directAt (twoRoutes 2) = some sharedAddr := by decide
  have judged : world.classifySource sharedAddr = .rewrite (twoRoutes 2) := by decide
  refine ⟨first, second, rfl, ⟨_, judged⟩, ?_⟩
  intro rule
  have same := rule.apart (twoRoutes 1) (twoRoutes 2) sharedAddr ⟨_, first, rfl⟩ ⟨_, second, rfl⟩
  exact absurd same (by decide)

end PorchSources

end Mosschat.Net
