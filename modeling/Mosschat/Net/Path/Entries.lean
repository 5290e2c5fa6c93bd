import Mosschat.Net.Porch.Sources

/-!
Owns the runs of one path table and of the handles it gave out: that both indexes lead to one
entry for good, and when an entry's epoch and smoothed round trip change.

Does not own the queue of an entry, nor who makes the calls.
-/

namespace Mosschat.Net

open Mosschat.Core Mosschat.Library Mosschat.Library.Machine

/-- A call on the table, or on an entry by one of its handles. A peer is always put under its
own synthetic address. -/
inductive PathCall where
  | ensureBySynthetic (synthetic : SocketAddr)
  | insertRelay (peer : Bytes32)
  | upgradeTo (handle : Nat) (addr : SocketAddr)
  | fallBackToRelay (handle : Nat)
  | recordRtt (handle : Nat) (sample : Nat)

/-- The handle the call is made on. -/
def PathCall.handle : PathCall → Option Nat
  | .ensureBySynthetic _ | .insertRelay _ => none
  | .upgradeTo handle _ | .fallBackToRelay handle | .recordRtt handle _ => some handle

/-- What `upgrade_to` answers, and whether `fall_back_to_relay` answers an address. -/
def PathCall.switches : PathCall → PathEntry → Bool
  | .upgradeTo _ addr, entry => (entry.upgradeTo addr).2
  | .fallBackToRelay _, entry => entry.fallBackToRelay.2.isSome
  | _, _ => false

/-- What the call makes of the entry behind its handle. -/
def PathCall.applied : PathCall → PathEntry → PathEntry
  | .upgradeTo _ addr, entry => (entry.upgradeTo addr).1
  | .fallBackToRelay _, entry => entry.fallBackToRelay.1
  | .recordRtt _ sample, entry => entry.recordRtt sample
  | _, entry => entry

/-- The round trips recorded at a place, with the one this call records there. -/
def PathCall.recorded (next : PathCall) (place : Nat) (samples : List Nat) : List Nat :=
  match next with
  | .recordRtt handle sample => if handle = place then samples ++ [sample] else samples
  | _ => samples

/-- The average of round trips, seven eighths of it the average so far, from the first one
on. -/
def smoothed : List Nat → Option Nat
  | [] => none
  | first :: rest => some (rest.foldl (fun average sample => (average * 7 + sample) / 8) first)

namespace PathTable

variable (address : Bytes32 → SocketAddr)

def call (table : PathTable) : PathCall → PathTable
  | .ensureBySynthetic synthetic => (table.ensureBySynthetic synthetic).1
  | .insertRelay peer => (table.insertRelay peer (address peer)).1
  | .upgradeTo handle addr => table.changeAt handle fun entry => (entry.upgradeTo addr).1
  | .fallBackToRelay handle => table.changeAt handle fun entry => entry.fallBackToRelay.1
  | .recordRtt handle sample => table.changeAt handle fun entry => entry.recordRtt sample

/-- The call on the entry at a place says that it switched the path. -/
def reports (table : PathTable) (next : PathCall) (place : Nat) : Bool :=
  decide (next.handle = some place) && table.entries[place]?.any next.switches

/-- Where the traffic of the entry at a place leaves to. -/
def kindAt (table : PathTable) (place : Nat) : Option PathKind :=
  table.entries[place]?.map PathEntry.kind

end PathTable

/-- A table, and for each place the round trips recorded there since its kind last changed. -/
structure PathRun where
  table : PathTable
  samples : Nat → List Nat

namespace PathRun

/-- `PathTable::new`. -/
def new : PathRun := ⟨.new, fun _ => []⟩

variable (address : Bytes32 → SocketAddr)

def step (paths : PathRun) (next : PathCall) : PathRun where
  table := paths.table.call address next
  samples place :=
    if paths.table.kindAt place = none ∨
        (paths.table.call address next).kindAt place ≠ paths.table.kindAt place then []
    else next.recorded place (paths.samples place)

end PathRun

/-! ## What a call does to an entry -/

/-- The entry becomes `change` of itself, of which the call reports `reported`. -/
structure PathEntry.Changed (before after : PathEntry) (reported : Bool) : Prop where
  switched : after.kind ≠ before.kind ↔ reported = true
  epoch : after.epoch = if after.kind = before.kind then before.epoch else before.epoch + 1
  reset : after.kind ≠ before.kind → after.srtt = none

namespace PathEntry

theorem Changed.refl (entry : PathEntry) : Changed entry entry false where
  switched := by simp
  epoch := (if_pos rfl).symm
  reset := fun differs => absurd rfl differs

theorem changed_applied (next : PathCall) (entry : PathEntry) :
    Changed entry (next.applied entry) (next.switches entry) := by
  cases next with
  | ensureBySynthetic synthetic => exact Changed.refl entry
  | insertRelay peer => exact Changed.refl entry
  | upgradeTo handle addr =>
      show Changed entry (entry.upgradeTo addr).1 (entry.upgradeTo addr).2
      unfold upgradeTo
      split
      · exact Changed.refl entry
      · next differs =>
          have switches : PathKind.direct addr ≠ entry.kind := fun same => differs same.symm
          exact ⟨by simp [switches], (if_neg switches).symm, fun _ => rfl⟩
  | fallBackToRelay handle =>
      show Changed entry entry.fallBackToRelay.1 entry.fallBackToRelay.2.isSome
      unfold fallBackToRelay
      split
      · exact Changed.refl entry
      · next addr isDirect =>
          have switches : PathKind.relay ≠ entry.kind := by
            rw [isDirect]
            exact PathKind.noConfusion
          exact ⟨by simp [switches], (if_neg switches).symm, fun _ => rfl⟩
  | recordRtt handle sample =>
      exact ⟨by simp [PathCall.applied, PathCall.switches, recordRtt], (if_pos rfl).symm,
        fun differs => absurd rfl differs⟩

/-- A call that does not switch the path leaves the average, unless it records a sample. -/
theorem srtt_applied (next : PathCall) (entry : PathEntry)
    (same : (next.applied entry).kind = entry.kind) :
    (next.applied entry).srtt =
      match next with
      | .recordRtt _ sample => (entry.recordRtt sample).srtt
      | _ => entry.srtt := by
  cases next with
  | ensureBySynthetic synthetic => rfl
  | insertRelay peer => rfl
  | recordRtt handle sample => rfl
  | upgradeTo handle addr =>
      change (entry.upgradeTo addr).1.kind = entry.kind at same
      show (entry.upgradeTo addr).1.srtt = entry.srtt
      rw [kind_upgradeTo] at same
      rw [upgradeTo, if_pos same.symm]
  | fallBackToRelay handle =>
      change entry.fallBackToRelay.1.kind = entry.kind at same
      show entry.fallBackToRelay.1.srtt = entry.srtt
      rw [kind_fallBackToRelay] at same
      rw [fallBackToRelay, ← same]

end PathEntry

theorem smoothed_concat (samples : List Nat) (sample : Nat) :
    smoothed (samples ++ [sample]) =
      some (match smoothed samples with
        | none => sample
        | some previous => (previous * 7 + sample) / 8) := by
  cases samples with
  | nil => rfl
  | cons first rest =>
      show some ((rest ++ [sample]).foldl _ first) = _
      rw [List.foldl_append]
      rfl

namespace PathTable

theorem getElem?_changeAt (table : PathTable) (handle place : Nat)
    (change : PathEntry → PathEntry) :
    (table.changeAt handle change).entries[place]? =
      if handle = place then table.entries[place]?.map change else table.entries[place]? := by
  show (table.entries.modify handle change)[place]? = _
  rw [List.getElem?_modify]
  by_cases same : handle = place
  · simp only [if_pos same]
    rfl
  · simp only [if_neg same]
    exact id_map' _

theorem getElem?_ensureBySynthetic (table : PathTable) (synthetic : SocketAddr) {place : Nat}
    {entry : PathEntry} (found : table.entries[place]? = some entry) :
    (table.ensureBySynthetic synthetic).1.entries[place]? = some entry := by
  unfold ensureBySynthetic
  split
  · exact found
  · exact (List.getElem?_append_left (List.getElem?_eq_some_iff.mp found).1).trans found

variable (address : Bytes32 → SocketAddr)

/-- Every call leaves an entry where it was, changed by what was called on it. -/
theorem entry_call (table : PathTable) (next : PathCall) {place : Nat} {entry : PathEntry}
    (found : table.entries[place]? = some entry) :
    (table.call address next).entries[place]? =
      some (if next.handle = some place then next.applied entry else entry) := by
  cases next with
  | ensureBySynthetic synthetic =>
      exact table.getElem?_ensureBySynthetic synthetic found
  | insertRelay peer =>
      show (table.insertRelay peer (address peer)).1.entries[place]? = some entry
      rw [entries_insertRelay]
      exact table.getElem?_ensureBySynthetic (address peer) found
  | upgradeTo handle addr =>
      simp only [call, getElem?_changeAt, found, PathCall.handle, Option.some.injEq]
      split <;> rfl
  | fallBackToRelay handle =>
      simp only [call, getElem?_changeAt, found, PathCall.handle, Option.some.injEq]
      split <;> rfl
  | recordRtt handle sample =>
      simp only [call, getElem?_changeAt, found, PathCall.handle, Option.some.injEq]
      split <;> rfl

theorem getElem?_fresh (entries : List PathEntry) {place : Nat} {entry : PathEntry}
    (vacant : entries[place]? = none)
    (found : (entries ++ [PathEntry.newRelay])[place]? = some entry) : entry = .newRelay := by
  have past : entries.length ≤ place := List.getElem?_eq_none_iff.mp vacant
  rw [List.getElem?_append_right past] at found
  exact (List.mem_singleton.mp (List.mem_of_getElem? found))

/-- An entry that a call made is on the relay and has no average. -/
theorem fresh_call (table : PathTable) (next : PathCall) {place : Nat} {entry : PathEntry}
    (vacant : table.entries[place]? = none)
    (found : (table.call address next).entries[place]? = some entry) : entry = .newRelay := by
  have ensured : ∀ synthetic,
      (table.ensureBySynthetic synthetic).1.entries[place]? = some entry → entry = .newRelay := by
    intro synthetic made
    unfold ensureBySynthetic at made
    split at made
    · rw [vacant] at made
      cases made
    · exact getElem?_fresh table.entries vacant made
  have changed : ∀ handle change, (table.changeAt handle change).entries[place]? ≠ some entry := by
    intro handle change
    rw [getElem?_changeAt, vacant]
    split <;> exact Option.some_ne_none entry |>.symm
  cases next with
  | ensureBySynthetic synthetic => exact ensured synthetic found
  | insertRelay peer =>
      change (table.insertRelay peer (address peer)).1.entries[place]? = some entry at found
      rw [entries_insertRelay] at found
      exact ensured (address peer) found
  | upgradeTo handle addr => exact absurd found (changed handle _)
  | fallBackToRelay handle => exact absurd found (changed handle _)
  | recordRtt handle sample => exact absurd found (changed handle _)

/-- The entry at a place after a call, and what the call says of it. -/
theorem changed_call (table : PathTable) (next : PathCall) {place : Nat} {before : PathEntry}
    (found : table.entries[place]? = some before) :
    ∃ after, (table.call address next).entries[place]? = some after ∧
      before.Changed after (table.reports next place) := by
  refine ⟨_, table.entry_call address next found, ?_⟩
  unfold reports
  rw [found]
  by_cases onIt : next.handle = some place
  · rw [if_pos onIt, decide_eq_true onIt]
    exact before.changed_applied next
  · rw [if_neg onIt, decide_eq_false onIt]
    exact PathEntry.Changed.refl before

/-! ## What the indexes lead to -/

/-- What is under a key is under the synthetic address of its peer, and is an entry. -/
structure Paired (table : PathTable) : Prop where
  indexed : table.Indexed
  paired : ∀ peer place, table.byPeer.lookup peer = some place →
    table.bySynthetic.lookup (address peer) = some place

/-- Whatever one of the indexes led to, it leads to in `later`. -/
structure Keeps (table later : PathTable) : Prop where
  bySynthetic : ∀ synthetic place, table.bySynthetic.lookup synthetic = some place →
    later.bySynthetic.lookup synthetic = some place
  byPeer : ∀ peer place, table.byPeer.lookup peer = some place →
    later.byPeer.lookup peer = some place

variable {address}

theorem Keeps.refl (table : PathTable) : table.Keeps table :=
  ⟨fun _ _ found => found, fun _ _ found => found⟩

theorem Keeps.trans {first second third : PathTable} (before : first.Keeps second)
    (later : second.Keeps third) : first.Keeps third where
  bySynthetic synthetic place found :=
    later.bySynthetic synthetic place (before.bySynthetic synthetic place found)
  byPeer peer place found := later.byPeer peer place (before.byPeer peer place found)

theorem Paired.keeps {table : PathTable} (paired : table.Paired address) (next : PathCall) :
    table.Keeps (table.call address next) := by
  cases next with
  | upgradeTo handle addr => exact ⟨fun _ _ found => found, fun _ _ found => found⟩
  | fallBackToRelay handle => exact ⟨fun _ _ found => found, fun _ _ found => found⟩
  | recordRtt handle sample => exact ⟨fun _ _ found => found, fun _ _ found => found⟩
  | ensureBySynthetic synthetic =>
      have grows := grows_ensureBySynthetic table synthetic
      refine ⟨grows.bySynthetic, ?_⟩
      intro peer place found
      show (table.ensureBySynthetic synthetic).1.byPeer.lookup peer = some place
      rw [byPeer_ensureBySynthetic]
      exact found
  | insertRelay peer =>
      have grows := grows_insertRelay table peer (address peer)
      refine ⟨grows.bySynthetic, ?_⟩
      intro other place found
      show (table.insertRelay peer (address peer)).1.byPeer.lookup other = some place
      rw [byPeer_insertRelay]
      split
      · next same =>
          rw [same] at found
          exact grows.bySynthetic (address peer) place (paired.paired peer place found)
      · exact found

theorem Paired.call {table : PathTable} (paired : table.Paired address) (next : PathCall) :
    (table.call address next).Paired address := by
  have keeps := paired.keeps next
  cases next with
  | upgradeTo handle addr => exact ⟨indexed_changeAt paired.indexed handle _, paired.paired⟩
  | fallBackToRelay handle => exact ⟨indexed_changeAt paired.indexed handle _, paired.paired⟩
  | recordRtt handle sample => exact ⟨indexed_changeAt paired.indexed handle _, paired.paired⟩
  | ensureBySynthetic synthetic =>
      refine ⟨indexed_ensureBySynthetic paired.indexed synthetic, ?_⟩
      intro peer place found
      change (table.ensureBySynthetic synthetic).1.byPeer.lookup peer = some place at found
      rw [byPeer_ensureBySynthetic] at found
      exact keeps.bySynthetic (address peer) place (paired.paired peer place found)
  | insertRelay peer =>
      refine ⟨indexed_insertRelay paired.indexed peer (address peer), ?_⟩
      intro other place found
      change (table.insertRelay peer (address peer)).1.byPeer.lookup other = some place at found
      rw [byPeer_insertRelay] at found
      split at found
      · next same =>
          rw [same]
          exact found
      · exact keeps.bySynthetic (address other) place (paired.paired other place found)

/-- The handle a call hands out is the one both indexes lead to from then on. -/
theorem lookup_handed (table : PathTable) (peer : Bytes32) (synthetic : SocketAddr) :
    (table.ensureBySynthetic synthetic).1.bySynthetic.lookup synthetic =
        some (table.ensureBySynthetic synthetic).2 ∧
      (table.insertRelay peer synthetic).1.byPeer.lookup peer =
        some (table.insertRelay peer synthetic).2 := by
  constructor
  · rw [lookup_ensureBySynthetic, if_pos rfl]
    unfold ensureBySynthetic
    cases table.bySynthetic.lookup synthetic with
    | none => rfl
    | some place => rfl
  · rw [byPeer_insertRelay, if_pos rfl, bySynthetic_insertRelay, lookup_ensureBySynthetic,
      if_pos rfl]
    unfold insertRelay
    cases table.bySynthetic.lookup synthetic with
    | none => rfl
    | some place => rfl

end PathTable

/-! ## Runs -/

namespace PathRun

variable (address : Bytes32 → SocketAddr)

/-- Both indexes agree, and every entry averages the round trips since its last switch. -/
structure Exact (paths : PathRun) : Prop where
  paired : paths.table.Paired address
  averaged : ∀ place entry, paths.table.entries[place]? = some entry →
    entry.srtt = smoothed (paths.samples place)

theorem exact_new : Exact address new where
  paired := by
    refine ⟨PathTable.indexed_new, ?_⟩
    intro peer place found
    cases found
  averaged := by
    intro place entry found
    cases found

variable {address}

theorem Exact.averaged_step {paths : PathRun} (isExact : Exact address paths) (next : PathCall)
    {place : Nat} {entry : PathEntry}
    (found : (paths.step address next).table.entries[place]? = some entry) :
    entry.srtt = smoothed ((paths.step address next).samples place) := by
  change (paths.table.call address next).entries[place]? = some entry at found
  have kindAfter : (paths.table.call address next).kindAt place = some entry.kind := by
    rw [PathTable.kindAt, found]
    rfl
  cases isBefore : paths.table.entries[place]? with
  | none =>
      have fresh := paths.table.fresh_call address next isBefore found
      have kind : paths.table.kindAt place = none := by
        rw [PathTable.kindAt, isBefore]
        rfl
      have samples : (paths.step address next).samples place = [] := by
        exact if_pos (Or.inl kind)
      rw [samples, fresh]
      rfl
  | some before =>
      have kind : paths.table.kindAt place = some before.kind := by
        rw [PathTable.kindAt, isBefore]
        rfl
      have average := isExact.averaged place before isBefore
      have after := paths.table.entry_call address next isBefore
      rw [found] at after
      have isEntry := Option.some.inj after
      by_cases switched : entry.kind = before.kind
      · -- The path stays, so the average goes on.
        have samples : (paths.step address next).samples place =
            next.recorded place (paths.samples place) := by
          refine if_neg ?_
          rw [kind, kindAfter, switched]
          simp
        rw [samples]
        by_cases onIt : next.handle = some place
        · rw [if_pos onIt] at isEntry
          have srtt := before.srtt_applied next (by rw [← isEntry]; exact switched)
          rw [isEntry, srtt]
          cases next with
          | recordRtt handle sample =>
              have recorded : (PathCall.recordRtt handle sample).recorded place
                  (paths.samples place) = paths.samples place ++ [sample] :=
                if_pos (Option.some.inj onIt)
              rw [recorded, smoothed_concat, ← average]
              rfl
          | ensureBySynthetic | insertRelay | upgradeTo | fallBackToRelay => exact average
        · rw [if_neg onIt] at isEntry
          rw [isEntry]
          cases next with
          | recordRtt handle sample =>
              have elsewhere : (PathCall.recordRtt handle sample).recorded place
                  (paths.samples place) = paths.samples place :=
                if_neg fun same => onIt (congrArg some same)
              rw [elsewhere]
              exact average
          | ensureBySynthetic | insertRelay | upgradeTo | fallBackToRelay => exact average
      · have samples : (paths.step address next).samples place = [] := by
          refine if_pos (Or.inr ?_)
          rw [kind, kindAfter]
          exact fun same => switched (Option.some.inj same)
        obtain ⟨changed, isChanged, effect⟩ := paths.table.changed_call address next isBefore
        rw [found] at isChanged
        cases isChanged
        rw [samples, effect.reset switched]
        rfl

theorem Exact.step {paths : PathRun} (isExact : Exact address paths) (next : PathCall) :
    Exact address (paths.step address next) where
  paired := isExact.paired.call next
  averaged _ _ := isExact.averaged_step next

theorem exact_run (calls : List PathCall) : Exact address (run (step address) new calls) :=
  run_always (fun _ next isExact => isExact.step next) (exact_new address) calls

theorem keeps_run {paths : PathRun} (isExact : Exact address paths) (calls : List PathCall) :
    paths.table.Keeps (run (step address) paths calls).table := by
  induction calls generalizing paths with
  | nil => exact PathTable.Keeps.refl paths.table
  | cons next rest ih =>
      exact (isExact.paired.keeps next).trans (ih (isExact.step next))

end PathRun

/-- Under any calls: the two indexes lead to one entry, and lead to it for good; a call
switches an entry's path exactly where it reports so, which counts its epoch up by one and
clears its average; and the average is the one of the round trips since. -/
theorem path_table_exact (address : Bytes32 → SocketAddr) (calls : List PathCall) :
    let paths := run (PathRun.step address) PathRun.new calls
    (∀ peer place, paths.table.byPeer.lookup peer = some place →
      paths.table.bySynthetic.lookup (address peer) = some place ∧
        place < paths.table.entries.length) ∧
    (∀ peer synthetic,
      (paths.table.ensureBySynthetic synthetic).1.bySynthetic.lookup synthetic =
          some (paths.table.ensureBySynthetic synthetic).2 ∧
        (paths.table.insertRelay peer (address peer)).1.byPeer.lookup peer =
          some (paths.table.insertRelay peer (address peer)).2) ∧
    (∀ later, paths.table.Keeps (run (PathRun.step address) paths later).table) ∧
    (∀ place entry, paths.table.entries[place]? = some entry →
      entry.srtt = smoothed (paths.samples place)) ∧
    ∀ next place before, paths.table.entries[place]? = some before →
      ∃ after, (paths.table.call address next).entries[place]? = some after ∧
        (after.kind ≠ before.kind ↔ paths.table.reports next place = true) ∧
        after.epoch = (if after.kind = before.kind then before.epoch else before.epoch + 1) ∧
        (after.kind ≠ before.kind → after.srtt = none) := by
  intro paths
  have isExact : PathRun.Exact address paths := PathRun.exact_run calls
  refine ⟨?_, ?_, ?_, isExact.averaged, ?_⟩
  · intro peer place found
    have paired := isExact.paired.paired peer place found
    exact ⟨paired, isExact.paired.indexed.placed (address peer) place paired⟩
  · intro peer synthetic
    have ensured := paths.table.lookup_handed peer synthetic
    have inserted := paths.table.lookup_handed peer (address peer)
    exact ⟨ensured.1, inserted.2⟩
  · exact PathRun.keeps_run isExact
  · intro next place before found
    obtain ⟨after, isAfter, changed⟩ := paths.table.changed_call address next found
    exact ⟨after, isAfter, changed.switched, changed.epoch, changed.reset⟩

end Mosschat.Net
