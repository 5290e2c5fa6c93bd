import Mosschat.Library.HashMap
import Mosschat.Library.Machine
import Mosschat.Net.Doorbell

/-!
Owns the path table of `path.rs` by both of its indexes, and the two ways `gate/client.rs`
opens a connection to a peer over it: `accept_peer`, which learns the peer's key from the
handshake, and `dial_peer`, which asks for one.

Does not own the handshake, of which it takes the key that was proved, nor what the visit
over a connection does with its path entry.
-/

namespace Mosschat.Net

open Mosschat.Core Mosschat.Library Mosschat.Library.Machine

/-! ## The path table -/

/-- `PathEntry::new_relay`. -/
def PathEntry.newRelay : PathEntry := ⟨.relay, none, 0⟩

/-- `PathTable`: both indexes hold an entry by its place, so that two clones of an entry are
the same place. -/
structure PathTable where
  entries : List PathEntry
  byPeer : HashMap Bytes32 Nat
  bySynthetic : HashMap SocketAddr Nat

namespace PathTable

/-- `PathTable::new`. -/
def new : PathTable := ⟨[], ∅, ∅⟩

/-- `PathTable::ensure_by_synthetic`. -/
def ensureBySynthetic (table : PathTable) (synthetic : SocketAddr) : PathTable × Nat :=
  match table.bySynthetic.lookup synthetic with
  | some place => (table, place)
  | none =>
    ({ table with
        entries := table.entries ++ [.newRelay]
        bySynthetic := table.bySynthetic.put synthetic table.entries.length },
      table.entries.length)

/-- `PathTable::insert_relay`. -/
def insertRelay (table : PathTable) (peer : Bytes32) (synthetic : SocketAddr) :
    PathTable × Nat :=
  match table.bySynthetic.lookup synthetic with
  | some place =>
    ({ table with
        byPeer := table.byPeer.put peer place
        bySynthetic := table.bySynthetic.put synthetic place }, place)
  | none =>
    ({ entries := table.entries ++ [.newRelay]
       byPeer := table.byPeer.put peer table.entries.length
       bySynthetic := table.bySynthetic.put synthetic table.entries.length },
      table.entries.length)

/-- An address has an entry of its own, and what is under a key is under its address. -/
structure Indexed (table : PathTable) : Prop where
  placed : ∀ synthetic place, table.bySynthetic.lookup synthetic = some place →
    place < table.entries.length
  distinct : ∀ synthetic other place, table.bySynthetic.lookup synthetic = some place →
    table.bySynthetic.lookup other = some place → synthetic = other

/-- Both indexes of `later` hold what they held in `table`. -/
structure Grows (table later : PathTable) : Prop where
  bySynthetic : ∀ synthetic place, table.bySynthetic.lookup synthetic = some place →
    later.bySynthetic.lookup synthetic = some place
  byPeer : ∀ peer, peer ∈ table.byPeer → peer ∈ later.byPeer

theorem indexed_new : Indexed new where
  placed := by
    intro synthetic place found
    cases found
  distinct := by
    intro synthetic other place found
    cases found

theorem byPeer_ensureBySynthetic (table : PathTable) (synthetic : SocketAddr) :
    (table.ensureBySynthetic synthetic).1.byPeer = table.byPeer := by
  unfold ensureBySynthetic
  split <;> rfl

/-- An address that had an entry keeps it, and the one asked for gets a new one. -/
theorem lookup_ensureBySynthetic (table : PathTable) (synthetic other : SocketAddr) :
    (table.ensureBySynthetic synthetic).1.bySynthetic.lookup other =
      if other = synthetic then
        some ((table.bySynthetic.lookup synthetic).getD table.entries.length)
      else table.bySynthetic.lookup other := by
  unfold ensureBySynthetic
  split
  · next place found =>
      split
      · next same => rw [same, found, Option.getD_some]
      · rfl
  · next none =>
      rw [none, Option.getD_none]
      exact HashMap.lookup_put _ _ _ _

theorem entries_ensureBySynthetic (table : PathTable) (synthetic : SocketAddr) :
    table.entries.length ≤ (table.ensureBySynthetic synthetic).1.entries.length ∧
      (table.bySynthetic.lookup synthetic = none →
        table.entries.length < (table.ensureBySynthetic synthetic).1.entries.length) := by
  unfold ensureBySynthetic
  split
  · next place found =>
      refine ⟨Nat.le_refl _, ?_⟩
      intro none
      rw [found] at none
      cases none
  · show _ ≤ (table.entries ++ [_]).length ∧ (_ → _ < (table.entries ++ [_]).length)
    rw [List.length_append, List.length_singleton]
    omega

/-- `insert_relay` finds the entry `ensure_by_synthetic` finds, and puts it under the key. -/
theorem bySynthetic_insertRelay (table : PathTable) (peer : Bytes32) (synthetic other : SocketAddr) :
    (table.insertRelay peer synthetic).1.bySynthetic.lookup other =
      (table.ensureBySynthetic synthetic).1.bySynthetic.lookup other := by
  rw [lookup_ensureBySynthetic]
  unfold insertRelay
  split
  · next place found =>
      rw [found, Option.getD_some]
      exact HashMap.lookup_put _ _ _ _
  · next none =>
      rw [none, Option.getD_none]
      exact HashMap.lookup_put _ _ _ _

theorem entries_insertRelay (table : PathTable) (peer : Bytes32) (synthetic : SocketAddr) :
    (table.insertRelay peer synthetic).1.entries =
      (table.ensureBySynthetic synthetic).1.entries := by
  unfold insertRelay ensureBySynthetic
  cases table.bySynthetic.lookup synthetic with
  | none => rfl
  | some place => rfl

theorem byPeer_insertRelay (table : PathTable) (peer other : Bytes32) (synthetic : SocketAddr) :
    (table.insertRelay peer synthetic).1.byPeer.lookup other =
      if other = peer then (table.insertRelay peer synthetic).1.bySynthetic.lookup synthetic
      else table.byPeer.lookup other := by
  rw [bySynthetic_insertRelay, lookup_ensureBySynthetic, if_pos rfl]
  unfold insertRelay
  split
  · next place found =>
      rw [found, Option.getD_some]
      exact HashMap.lookup_put _ _ _ _
  · next none =>
      rw [none, Option.getD_none]
      exact HashMap.lookup_put _ _ _ _

theorem indexed_ensureBySynthetic {table : PathTable} (indexed : table.Indexed)
    (synthetic : SocketAddr) : (table.ensureBySynthetic synthetic).1.Indexed where
  placed := by
    intro other place found
    have entries := entries_ensureBySynthetic table synthetic
    rw [lookup_ensureBySynthetic] at found
    split at found
    · cases isPlace : table.bySynthetic.lookup synthetic with
      | none =>
          rw [isPlace] at found
          rw [← Option.some.inj found]
          exact entries.2 isPlace
      | some held =>
          rw [isPlace] at found
          rw [← Option.some.inj found]
          exact Nat.lt_of_lt_of_le (indexed.placed synthetic held isPlace) entries.1
    · exact Nat.lt_of_lt_of_le (indexed.placed other place found) entries.1
  distinct := by
    -- an address that is new has a place past every other
    have apart : ∀ other place, other ≠ synthetic → table.bySynthetic.lookup other = some place →
        (table.bySynthetic.lookup synthetic).getD table.entries.length ≠ place := by
      intro other place differs found same
      cases isPlace : table.bySynthetic.lookup synthetic with
      | none =>
          rw [isPlace, Option.getD_none] at same
          have within := indexed.placed other place found
          omega
      | some held =>
          rw [isPlace, Option.getD_some] at same
          rw [same] at isPlace
          exact differs (indexed.distinct other synthetic place found isPlace)
    intro first second place foundFirst foundSecond
    rw [lookup_ensureBySynthetic] at foundFirst foundSecond
    split at foundFirst
    · next isFirst =>
        split at foundSecond
        · next isSecond => rw [isFirst, isSecond]
        · next isOther =>
            exact absurd (Option.some.inj foundFirst) (apart second place isOther foundSecond)
    · next isOther =>
        split at foundSecond
        · exact absurd (Option.some.inj foundSecond) (apart first place isOther foundFirst)
        · exact indexed.distinct first second place foundFirst foundSecond

theorem grows_ensureBySynthetic (table : PathTable) (synthetic : SocketAddr) :
    table.Grows (table.ensureBySynthetic synthetic).1 where
  bySynthetic := by
    intro other place found
    rw [lookup_ensureBySynthetic]
    split
    · next same =>
        rw [same] at found
        rw [found, Option.getD_some]
    · exact found
  byPeer := by
    intro peer held
    rw [byPeer_ensureBySynthetic]
    exact held

theorem indexed_insertRelay {table : PathTable} (indexed : table.Indexed) (peer : Bytes32)
    (synthetic : SocketAddr) : (table.insertRelay peer synthetic).1.Indexed where
  placed := by
    intro other place found
    rw [bySynthetic_insertRelay] at found
    rw [entries_insertRelay]
    exact (indexed_ensureBySynthetic indexed synthetic).placed other place found
  distinct := by
    intro first second place foundFirst foundSecond
    rw [bySynthetic_insertRelay] at foundFirst foundSecond
    exact (indexed_ensureBySynthetic indexed synthetic).distinct first second place foundFirst
      foundSecond

theorem grows_insertRelay (table : PathTable) (peer : Bytes32) (synthetic : SocketAddr) :
    table.Grows (table.insertRelay peer synthetic).1 where
  bySynthetic := by
    intro other place found
    rw [bySynthetic_insertRelay]
    exact (grows_ensureBySynthetic table synthetic).bySynthetic other place found
  byPeer := by
    intro other held
    apply AList.lookup_isSome.mp
    rw [byPeer_insertRelay]
    split
    · rw [bySynthetic_insertRelay, lookup_ensureBySynthetic, if_pos rfl]
      rfl
    · exact AList.lookup_isSome.mpr held

end PathTable

/-! ## The client -/

/-- `GateError`, of the two calls. -/
inductive PeerError where
  | protocol (detail : String)
  /-- `GateError::Connect` and `GateError::Connection`. -/
  | connection
  | invalidIdentity (detail : String)
deriving DecidableEq

/-- A `quinn::Connection` to a peer: the address it is at, and the entry whose epoch its
congestion controller reads. -/
structure PeerConnection where
  remoteAddress : SocketAddr
  epoch : Nat
deriving DecidableEq

/-- What `GateClient` holds for its peers, and what its two calls came to. -/
structure PeerClient where
  table : PathTable
  /-- `RelayRoutes::by_synthetic`. -/
  routes : HashMap SocketAddr UInt32
  /-- The sessions that were introduced, each with the peer it is to, the last one first. -/
  introduced : List (UInt32 × Bytes32)
  /-- The calls of `accept_peer` that wait for a handshake. -/
  accepting : HashMap Nat PeerConnection
  /-- The calls of `dial_peer` that wait for a handshake, each with the key it asked for. -/
  dialling : HashMap Nat (Bytes32 × PeerConnection)
  accepted : List (Except PeerError (Bytes32 × PeerConnection))
  dialled : List (Bytes32 × Except PeerError PeerConnection)

/-- What happens to a client. A call is two actions, before the handshake and after it. -/
inductive PeerAction where
  | registerRelaySession (session : UInt32) (peerKey : Bytes32)
  | insertRelayPath (peerKey : Bytes32)
  | upgradeTo (peerKey : Bytes32) (addr : SocketAddr)
  | fallBackToRelay (peerKey : Bytes32)
  | incoming (call : Nat) (remoteAddress : SocketAddr)
  | acceptPeer (call : Nat) (handshake : Except PeerError Bytes32)
  | connectWith (call : Nat) (peerKey : Bytes32)
  | dialPeer (call : Nat) (handshake : Except PeerError Bytes32)

namespace PeerClient

/-- A client that has heard of nobody. -/
def new : PeerClient := ⟨.new, ∅, [], ∅, ∅, [], []⟩

/-- The entry of `peerKey` becomes `change` of it. -/
def changeEntry (client : PeerClient) (peerKey : Bytes32) (change : PathEntry → PathEntry) :
    PeerClient :=
  match client.table.byPeer.lookup peerKey with
  | none => client
  | some place =>
    { client with
      table := { client.table with entries := client.table.entries.modify place change } }

/-- The rest of `accept_peer`, once its handshake came to something. -/
def finishAccept (table : PathTable) (connection : PeerConnection) :
    Except PeerError Bytes32 → Except PeerError (Bytes32 × PeerConnection)
  | .error error => .error error
  | .ok peerKey =>
    if peerKey ∈ table.byPeer then .ok (peerKey, connection)
    else .error (.invalidIdentity "the dialling peer's key has no relay path in this house")

/-- The rest of `dial_peer`, once its handshake came to something. -/
def finishDial (peerKey : Bytes32) (connection : PeerConnection) :
    Except PeerError Bytes32 → Except PeerError PeerConnection
  | .error error => .error error
  | .ok proved =>
    if proved ≠ peerKey then
      .error (.invalidIdentity "peer key does not match the key this attempt asked for")
    else .ok connection

local instance lawfulKey : LawfulBEq Bytes32 := inferInstance

/-- One action. What names nothing that is there changes nothing. -/
def step (crypto : Crypto) (processSalt : List.Vector UInt8 5) (client : PeerClient) :
    PeerAction → PeerClient
  | .registerRelaySession session peerKey =>
    let synthetic := syntheticAddr crypto processSalt peerKey
    { client with
      table := (client.table.ensureBySynthetic synthetic).1
      routes := client.routes.put synthetic session
      introduced := (session, peerKey) :: client.introduced }
  | .insertRelayPath peerKey =>
    -- both callers have registered a session to the peer just before
    if peerKey ∈ client.introduced.map Prod.snd then
      { client with
        table := (client.table.insertRelay peerKey (syntheticAddr crypto processSalt peerKey)).1 }
    else client
  | .upgradeTo peerKey addr => client.changeEntry peerKey fun entry => (entry.upgradeTo addr).1
  | .fallBackToRelay peerKey => client.changeEntry peerKey fun entry => entry.fallBackToRelay.1
  | .incoming call remoteAddress =>
    if call ∈ client.accepting then client
    else
      match client.table.bySynthetic.lookup remoteAddress with
      | none =>
        { client with
          accepted := client.accepted ++
            [.error (.protocol "a peer dialled an address no session was introduced to")] }
      | some place =>
        { client with accepting := client.accepting.put call ⟨remoteAddress, place⟩ }
  | .acceptPeer call handshake =>
    match client.accepting.lookup call with
    | none => client
    | some connection =>
      { client with
        accepting := client.accepting.erase call
        accepted := client.accepted ++ [finishAccept client.table connection handshake] }
  | .connectWith call peerKey =>
    if call ∈ client.dialling then client
    else
      match client.table.byPeer.lookup peerKey with
      | none =>
        { client with
          dialled := client.dialled ++ [(peerKey,
            .error (.protocol "no relay path for this peer: nothing has introduced it"))] }
      | some place =>
        { client with
          dialling := client.dialling.put call
            (peerKey, ⟨syntheticAddr crypto processSalt peerKey, place⟩) }
  | .dialPeer call handshake =>
    match client.dialling.lookup call with
    | none => client
    | some (peerKey, connection) =>
      { client with
        dialling := client.dialling.erase call
        dialled := client.dialled ++ [(peerKey, finishDial peerKey connection handshake)] }

/-! ## Whose a connection is -/

/-- The connection is at the address of this key, that address and this key have one entry
in the table, its congestion controller reads the epoch of that entry, and what it relays
goes over a session to that address. -/
structure Own (crypto : Crypto) (processSalt : List.Vector UInt8 5) (client : PeerClient)
    (peerKey : Bytes32) (connection : PeerConnection) : Prop where
  address : connection.remoteAddress = syntheticAddr crypto processSalt peerKey
  peer : client.table.byPeer.lookup peerKey = some connection.epoch
  synthetic : client.table.bySynthetic.lookup connection.remoteAddress = some connection.epoch
  session : ∃ session other, client.routes.lookup connection.remoteAddress = some session ∧
    (session, other) ∈ client.introduced ∧
      syntheticAddr crypto processSalt other = syntheticAddr crypto processSalt peerKey

/-- A handshake over the route of one peer proves the key of another that has an entry too. -/
def Crosses (crypto : Crypto) (processSalt : List.Vector UInt8 5) (client : PeerClient) :
    PeerAction → Prop
  | .acceptPeer call (.ok peerKey) =>
    peerKey ∈ client.table.byPeer ∧ ∃ connection, client.accepting.lookup call = some connection ∧
      connection.remoteAddress ≠ syntheticAddr crypto processSalt peerKey
  | _ => False

/-! ## What every run keeps -/

section Runs

variable {crypto : Crypto} {processSalt : List.Vector UInt8 5}

/-- What the table and the routes hold is of peers a session was introduced to. -/
structure Sound (crypto : Crypto) (processSalt : List.Vector UInt8 5) (client : PeerClient) :
    Prop where
  indexed : client.table.Indexed
  keyed : ∀ peerKey place, client.table.byPeer.lookup peerKey = some place →
    client.table.bySynthetic.lookup (syntheticAddr crypto processSalt peerKey) = some place
  named : ∀ synthetic place, client.table.bySynthetic.lookup synthetic = some place →
    ∃ session peerKey, (session, peerKey) ∈ client.introduced ∧
      synthetic = syntheticAddr crypto processSalt peerKey
  routed : ∀ peerKey, peerKey ∈ client.table.byPeer →
    ∃ session, client.routes.lookup (syntheticAddr crypto processSalt peerKey) = some session
  registered : ∀ session peerKey, (session, peerKey) ∈ client.introduced →
    ∃ latest, client.routes.lookup (syntheticAddr crypto processSalt peerKey) = some latest
  sessions : ∀ synthetic session, client.routes.lookup synthetic = some session →
    ∃ peerKey, (session, peerKey) ∈ client.introduced ∧
      syntheticAddr crypto processSalt peerKey = synthetic

/-- The connection is under its address in the table. -/
def Carried (table : PathTable) (connection : PeerConnection) : Prop :=
  table.bySynthetic.lookup connection.remoteAddress = some connection.epoch

/-- What the calls that wait and the calls that ended have in hand. -/
structure Handled (crypto : Crypto) (processSalt : List.Vector UInt8 5) (client : PeerClient) :
    Prop where
  accepting : ∀ call connection, client.accepting.lookup call = some connection →
    Carried client.table connection
  dialling : ∀ call peerKey connection,
    client.dialling.lookup call = some (peerKey, connection) →
      Carried client.table connection ∧ peerKey ∈ client.table.byPeer ∧
        connection.remoteAddress = syntheticAddr crypto processSalt peerKey
  accepted : ∀ peerKey connection, .ok (peerKey, connection) ∈ client.accepted →
    Carried client.table connection ∧ peerKey ∈ client.table.byPeer
  dialled : ∀ peerKey connection, (peerKey, .ok connection) ∈ client.dialled →
    Carried client.table connection ∧ peerKey ∈ client.table.byPeer ∧
      connection.remoteAddress = syntheticAddr crypto processSalt peerKey

theorem sound_new : Sound crypto processSalt new where
  indexed := PathTable.indexed_new
  keyed := by
    intro peerKey place found
    cases found
  named := by
    intro synthetic place found
    cases found
  routed := by
    intro peerKey held
    exact absurd held (AList.notMem_empty peerKey)
  registered := by
    intro session peerKey inside
    cases inside
  sessions := by
    intro synthetic session found
    cases found

theorem handled_new : Handled crypto processSalt new where
  accepting := by
    intro call connection found
    cases found
  dialling := by
    intro call peerKey connection found
    cases found
  accepted := by
    intro peerKey connection inside
    cases inside
  dialled := by
    intro peerKey connection inside
    cases inside

/-- A connection under its address is a key's own when it is at the address of the key. -/
theorem Sound.own_iff {client : PeerClient} (sound : Sound crypto processSalt client)
    {peerKey : Bytes32} {connection : PeerConnection} (carried : Carried client.table connection)
    (held : peerKey ∈ client.table.byPeer) :
    Own crypto processSalt client peerKey connection ↔
      connection.remoteAddress = syntheticAddr crypto processSalt peerKey := by
  constructor
  · exact Own.address
  · intro atKey
    obtain ⟨place, isPlace⟩ := Option.isSome_iff_exists.mp (AList.lookup_isSome.mpr held)
    have under := sound.keyed peerKey place isPlace
    have same : some place = some connection.epoch := by
      rw [← under, ← atKey]
      exact carried
    obtain ⟨session, isSession⟩ := sound.routed peerKey held
    obtain ⟨other, inside, shares⟩ := sound.sessions _ session isSession
    refine ⟨atKey, isPlace.trans same, carried, session, other, ?_, inside, shares⟩
    rw [atKey]
    exact isSession

/-- A connection that is not its key's own is at the address of another peer a session was
introduced to, and has that peer's entry. -/
theorem Sound.of_not_own {client : PeerClient} (sound : Sound crypto processSalt client)
    {peerKey : Bytes32} {connection : PeerConnection} (carried : Carried client.table connection)
    (held : peerKey ∈ client.table.byPeer)
    (notOwn : ¬Own crypto processSalt client peerKey connection) :
    ∃ session other, (session, other) ∈ client.introduced ∧ other ≠ peerKey ∧
      connection.remoteAddress = syntheticAddr crypto processSalt other ∧
        client.table.byPeer.lookup peerKey ≠ some connection.epoch := by
  rw [sound.own_iff carried held] at notOwn
  obtain ⟨session, other, inside, atOther⟩ := sound.named _ _ carried
  refine ⟨session, other, inside, ?_, atOther, ?_⟩
  · intro same
    rw [same] at atOther
    exact notOwn atOther
  · intro isPlace
    have under := sound.keyed peerKey connection.epoch isPlace
    exact notOwn (sound.indexed.distinct _ _ _ carried under)

/-! ### One action -/

theorem Sound.of_same {client later : PeerClient} (sound : Sound crypto processSalt client)
    (indexed : later.table.Indexed) (byPeer : later.table.byPeer = client.table.byPeer)
    (bySynthetic : later.table.bySynthetic = client.table.bySynthetic)
    (routes : later.routes = client.routes) (introduced : later.introduced = client.introduced) :
    Sound crypto processSalt later where
  indexed := indexed
  keyed := by
    rw [byPeer, bySynthetic]
    exact sound.keyed
  named := by
    rw [bySynthetic, introduced]
    exact sound.named
  routed := by
    rw [byPeer, routes]
    exact sound.routed
  registered := by
    rw [introduced, routes]
    exact sound.registered
  sessions := by
    rw [introduced, routes]
    exact sound.sessions

theorem Handled.of_grows {client later : PeerClient} (handled : Handled crypto processSalt client)
    (grows : client.table.Grows later.table) (accepting : later.accepting = client.accepting)
    (dialling : later.dialling = client.dialling) (accepted : later.accepted = client.accepted)
    (dialled : later.dialled = client.dialled) : Handled crypto processSalt later where
  accepting := by
    rw [accepting]
    intro call connection found
    exact grows.bySynthetic _ _ (handled.accepting call connection found)
  dialling := by
    rw [dialling]
    intro call peerKey connection found
    obtain ⟨carried, held, atKey⟩ := handled.dialling call peerKey connection found
    exact ⟨grows.bySynthetic _ _ carried, grows.byPeer _ held, atKey⟩
  accepted := by
    rw [accepted]
    intro peerKey connection inside
    obtain ⟨carried, held⟩ := handled.accepted peerKey connection inside
    exact ⟨grows.bySynthetic _ _ carried, grows.byPeer _ held⟩
  dialled := by
    rw [dialled]
    intro peerKey connection inside
    obtain ⟨carried, held, atKey⟩ := handled.dialled peerKey connection inside
    exact ⟨grows.bySynthetic _ _ carried, grows.byPeer _ held, atKey⟩

/-- A path that switches leaves both indexes. -/
theorem changeEntry_cases (client : PeerClient) (peerKey : Bytes32)
    (change : PathEntry → PathEntry) :
    ∃ entries, entries.length = client.table.entries.length ∧
      client.changeEntry peerKey change =
        { client with table := { client.table with entries := entries } } := by
  unfold changeEntry
  split
  · exact ⟨client.table.entries, rfl, rfl⟩
  · next place _ => exact ⟨client.table.entries.modify place change, List.length_modify _ _ _, rfl⟩

theorem sound_changeEntry {client : PeerClient} (sound : Sound crypto processSalt client)
    (peerKey : Bytes32) (change : PathEntry → PathEntry) :
    Sound crypto processSalt (client.changeEntry peerKey change) := by
  obtain ⟨entries, sameLength, changed⟩ := client.changeEntry_cases peerKey change
  rw [changed]
  refine sound.of_same ⟨?_, sound.indexed.distinct⟩ rfl rfl rfl rfl
  intro synthetic place found
  show place < entries.length
  rw [sameLength]
  exact sound.indexed.placed synthetic place found

theorem handled_changeEntry {client : PeerClient} (handled : Handled crypto processSalt client)
    (peerKey : Bytes32) (change : PathEntry → PathEntry) :
    Handled crypto processSalt (client.changeEntry peerKey change) := by
  obtain ⟨entries, _, changed⟩ := client.changeEntry_cases peerKey change
  rw [changed]
  exact handled.of_grows ⟨fun _ _ found => found, fun _ => id⟩ rfl rfl rfl rfl

theorem sound_registerRelaySession {client : PeerClient}
    (sound : Sound crypto processSalt client) (session : UInt32) (peerKey : Bytes32) :
    Sound crypto processSalt
      (client.step crypto processSalt (.registerRelaySession session peerKey)) where
  indexed := PathTable.indexed_ensureBySynthetic sound.indexed _
  keyed := by
    intro other place found
    simp only [step] at found ⊢
    rw [PathTable.byPeer_ensureBySynthetic] at found
    exact (PathTable.grows_ensureBySynthetic client.table _).bySynthetic _ place
      (sound.keyed other place found)
  named := by
    intro synthetic place found
    simp only [step] at found ⊢
    rw [PathTable.lookup_ensureBySynthetic] at found
    split at found
    · next same => exact ⟨session, peerKey, List.mem_cons_self, same⟩
    · obtain ⟨earlier, other, inside, isOther⟩ := sound.named synthetic place found
      exact ⟨earlier, other, List.mem_cons_of_mem _ inside, isOther⟩
  routed := by
    intro other held
    simp only [step] at held ⊢
    rw [PathTable.byPeer_ensureBySynthetic] at held
    rw [HashMap.lookup_put]
    split
    · exact ⟨session, rfl⟩
    · exact sound.routed other held
  registered := by
    intro earlier other inside
    simp only [step] at inside ⊢
    rw [HashMap.lookup_put]
    split
    · exact ⟨session, rfl⟩
    · next differs =>
        rcases List.mem_cons.mp inside with same | known
        · cases same
          exact absurd rfl differs
        · exact sound.registered earlier other known
  sessions := by
    intro synthetic latest found
    simp only [step] at found ⊢
    rw [HashMap.lookup_put] at found
    split at found
    · next same =>
        rw [← Option.some.inj found, same]
        exact ⟨peerKey, List.mem_cons_self, rfl⟩
    · obtain ⟨other, inside, isOther⟩ := sound.sessions synthetic latest found
      exact ⟨other, List.mem_cons_of_mem _ inside, isOther⟩

theorem sound_insertRelay {client : PeerClient} (sound : Sound crypto processSalt client)
    {session : UInt32} {peerKey : Bytes32} (introduced : (session, peerKey) ∈ client.introduced) :
    Sound crypto processSalt
      { client with
        table := (client.table.insertRelay peerKey
          (syntheticAddr crypto processSalt peerKey)).1 } where
  indexed := PathTable.indexed_insertRelay sound.indexed _ _
  keyed := by
    intro other place found
    rw [PathTable.byPeer_insertRelay] at found
    split at found
    · next same =>
        rw [same]
        exact found
    · exact (PathTable.grows_insertRelay client.table _ _).bySynthetic _ place
        (sound.keyed other place found)
  named := by
    intro synthetic place found
    rw [PathTable.bySynthetic_insertRelay, PathTable.lookup_ensureBySynthetic] at found
    split at found
    · next same => exact ⟨session, peerKey, introduced, same⟩
    · exact sound.named synthetic place found
  routed := by
    intro other held
    have found := AList.lookup_isSome.mpr held
    rw [PathTable.byPeer_insertRelay] at found
    split at found
    · next same =>
        rw [same]
        exact sound.registered session peerKey introduced
    · exact sound.routed other (AList.lookup_isSome.mp found)
  registered := sound.registered
  sessions := sound.sessions

theorem sound_step {client : PeerClient} (sound : Sound crypto processSalt client)
    (action : PeerAction) : Sound crypto processSalt (client.step crypto processSalt action) := by
  cases action with
  | registerRelaySession session peerKey => exact sound_registerRelaySession sound session peerKey
  | insertRelayPath peerKey =>
      simp only [step]
      split
      · next known =>
          obtain ⟨⟨session, _⟩, inside, rfl⟩ := List.mem_map.mp known
          exact sound_insertRelay sound inside
      · exact sound
  | upgradeTo peerKey addr => exact sound_changeEntry sound peerKey _
  | fallBackToRelay peerKey => exact sound_changeEntry sound peerKey _
  | incoming call remoteAddress =>
      simp only [step]
      split
      · exact sound
      · split
        · exact sound.of_same sound.indexed rfl rfl rfl rfl
        · exact sound.of_same sound.indexed rfl rfl rfl rfl
  | acceptPeer call handshake =>
      simp only [step]
      split
      · exact sound
      · exact sound.of_same sound.indexed rfl rfl rfl rfl
  | connectWith call peerKey =>
      simp only [step]
      split
      · exact sound
      · split
        · exact sound.of_same sound.indexed rfl rfl rfl rfl
        · exact sound.of_same sound.indexed rfl rfl rfl rfl
  | dialPeer call handshake =>
      simp only [step]
      split
      · exact sound
      · exact sound.of_same sound.indexed rfl rfl rfl rfl

/-- What `accept_peer` returns is the connection it waited for, with a key in the table. -/
theorem finishAccept_eq_ok {table : PathTable} {connection returned : PeerConnection}
    {handshake : Except PeerError Bytes32} {peerKey : Bytes32} :
    finishAccept table connection handshake = .ok (peerKey, returned) ↔
      handshake = .ok peerKey ∧ peerKey ∈ table.byPeer ∧ returned = connection := by
  cases handshake with
  | error error => simp [finishAccept]
  | ok proved =>
      unfold finishAccept
      simp only
      split
      · next held =>
          constructor
          · intro answered
            cases answered
            exact ⟨rfl, held, rfl⟩
          · intro answered
            obtain ⟨isKey, _, rfl⟩ := answered
            cases isKey
            rfl
      · next missing =>
          constructor
          · intro answered
            cases answered
          · intro answered
            obtain ⟨isKey, held, _⟩ := answered
            cases isKey
            exact absurd held missing

theorem finishDial_eq_ok {peerKey : Bytes32} {connection returned : PeerConnection}
    {handshake : Except PeerError Bytes32}
    (answered : finishDial peerKey connection handshake = .ok returned) :
    returned = connection := by
  cases handshake with
  | error error => cases answered
  | ok proved =>
      unfold finishDial at answered
      simp only at answered
      split at answered
      · cases answered
      · cases answered
        rfl

theorem handled_step {client : PeerClient} (sound : Sound crypto processSalt client)
    (handled : Handled crypto processSalt client) (action : PeerAction) :
    Handled crypto processSalt (client.step crypto processSalt action) := by
  cases action with
  | registerRelaySession session peerKey =>
      exact handled.of_grows (PathTable.grows_ensureBySynthetic _ _) rfl rfl rfl rfl
  | insertRelayPath peerKey =>
      simp only [step]
      split
      · exact handled.of_grows (PathTable.grows_insertRelay _ _ _) rfl rfl rfl rfl
      · exact handled
  | upgradeTo peerKey addr => exact handled_changeEntry handled peerKey _
  | fallBackToRelay peerKey => exact handled_changeEntry handled peerKey _
  | incoming call remoteAddress =>
      simp only [step]
      split
      · exact handled
      · split
        · refine ⟨handled.accepting, handled.dialling, ?_, handled.dialled⟩
          intro peerKey connection inside
          apply handled.accepted peerKey connection
          exact (List.mem_append.mp inside).resolve_right (by simp)
        · next place found =>
            refine ⟨?_, handled.dialling, handled.accepted, handled.dialled⟩
            intro other connection waits
            rw [HashMap.lookup_put] at waits
            split at waits
            · cases waits
              exact found
            · exact handled.accepting other connection waits
  | acceptPeer call handshake =>
      simp only [step]
      split
      · exact handled
      · next connection waits =>
          refine ⟨?_, handled.dialling, ?_, handled.dialled⟩
          · intro other pending found
            rw [HashMap.lookup_erase] at found
            split at found
            · cases found
            · exact handled.accepting other pending found
          · intro peerKey returned inside
            rcases List.mem_append.mp inside with earlier | now
            · exact handled.accepted peerKey returned earlier
            · have answered := (List.mem_singleton.mp now).symm
              obtain ⟨_, held, isConnection⟩ := finishAccept_eq_ok.mp answered
              rw [isConnection]
              exact ⟨handled.accepting call connection waits, held⟩
  | connectWith call peerKey =>
      simp only [step]
      split
      · exact handled
      · split
        · refine ⟨handled.accepting, handled.dialling, handled.accepted, ?_⟩
          intro other connection inside
          apply handled.dialled other connection
          exact (List.mem_append.mp inside).resolve_right (by simp)
        · next place found =>
            refine ⟨handled.accepting, ?_, handled.accepted, handled.dialled⟩
            intro other asked connection waits
            rw [HashMap.lookup_put] at waits
            split at waits
            · cases waits
              refine ⟨sound.keyed peerKey place found, ?_, rfl⟩
              apply AList.lookup_isSome.mp
              rw [found]
              rfl
            · exact handled.dialling other asked connection waits
  | dialPeer call handshake =>
      simp only [step]
      split
      · exact handled
      · next peerKey connection waits =>
          refine ⟨handled.accepting, ?_, handled.accepted, ?_⟩
          · intro other asked pending found
            rw [HashMap.lookup_erase] at found
            split at found
            · cases found
            · exact handled.dialling other asked pending found
          · intro asked returned inside
            rcases List.mem_append.mp inside with earlier | now
            · exact handled.dialled asked returned earlier
            · have pair := List.mem_singleton.mp now
              injection pair with isAsked answered
              rw [finishDial_eq_ok answered.symm, isAsked]
              exact handled.dialling call peerKey connection waits

/-- Every connection `accept_peer` returned is at the address of the key it was returned
with. -/
def AtKeys (crypto : Crypto) (processSalt : List.Vector UInt8 5) (client : PeerClient) : Prop :=
  ∀ peerKey connection, .ok (peerKey, connection) ∈ client.accepted →
    connection.remoteAddress = syntheticAddr crypto processSalt peerKey

/-- A connection is returned by the second half of `accept_peer` and by nothing else. -/
theorem mem_accepted_step {client : PeerClient} {action : PeerAction} {peerKey : Bytes32}
    {connection : PeerConnection} :
    .ok (peerKey, connection) ∈ (client.step crypto processSalt action).accepted ↔
      .ok (peerKey, connection) ∈ client.accepted ∨
        ∃ call, action = .acceptPeer call (.ok peerKey) ∧
          client.accepting.lookup call = some connection ∧ peerKey ∈ client.table.byPeer := by
  have other : ∀ later : PeerClient, later.accepted = client.accepted →
      (∀ call handshake, action ≠ .acceptPeer call handshake) →
      (.ok (peerKey, connection) ∈ later.accepted ↔ .ok (peerKey, connection) ∈ client.accepted ∨
        ∃ call, action = .acceptPeer call (.ok peerKey) ∧
          client.accepting.lookup call = some connection ∧ peerKey ∈ client.table.byPeer) := by
    intro later same differs
    rw [same]
    refine ⟨Or.inl, ?_⟩
    intro answered
    refine answered.resolve_right ?_
    intro now
    obtain ⟨call, isAction, _⟩ := now
    exact differs call _ isAction
  have changed : ∀ (key : Bytes32) change,
      (client.changeEntry key change).accepted = client.accepted := by
    intro key change
    obtain ⟨_, _, changed⟩ := client.changeEntry_cases key change
    rw [changed]
  cases action with
  | registerRelaySession session key => exact other _ rfl (by intros; simp)
  | insertRelayPath key =>
      simp only [step]
      split
      · exact other _ rfl (by intros; simp)
      · exact other _ rfl (by intros; simp)
  | upgradeTo key addr => exact other _ (changed key _) (by intros; simp)
  | fallBackToRelay key => exact other _ (changed key _) (by intros; simp)
  | incoming call remoteAddress =>
      simp only [step]
      split
      · exact other _ rfl (by intros; simp)
      · split
        · show .ok (peerKey, connection) ∈ client.accepted ++ [_] ↔ _
          rw [List.mem_append, List.mem_singleton]
          simp
        · exact other _ rfl (by intros; simp)
  | connectWith call key =>
      simp only [step]
      split
      · exact other _ rfl (by intros; simp)
      · split
        · exact other _ rfl (by intros; simp)
        · exact other _ rfl (by intros; simp)
  | dialPeer call handshake =>
      simp only [step]
      split
      · exact other _ rfl (by intros; simp)
      · exact other _ rfl (by intros; simp)
  | acceptPeer call handshake =>
      simp only [step]
      split
      · next none =>
          refine ⟨Or.inl, ?_⟩
          intro answered
          refine answered.resolve_right ?_
          intro now
          obtain ⟨_, isAction, waits, _⟩ := now
          cases isAction
          rw [none] at waits
          cases waits
      · next pending waits =>
          show .ok (peerKey, connection) ∈ client.accepted ++ [_] ↔ _
          rw [List.mem_append, List.mem_singleton, eq_comm (b := finishAccept _ _ _),
            finishAccept_eq_ok]
          apply or_congr Iff.rfl
          constructor
          · intro answered
            obtain ⟨isKey, held, isPending⟩ := answered
            exact ⟨call, by rw [isKey], by rw [waits, isPending], held⟩
          · intro answered
            obtain ⟨_, isAction, found, held⟩ := answered
            cases isAction
            rw [waits] at found
            exact ⟨rfl, held, (Option.some.inj found).symm⟩

/-- An action keeps every returned connection at the address of its key exactly when no
handshake crosses. -/
theorem atKeys_step (client : PeerClient) (action : PeerAction) :
    AtKeys crypto processSalt (client.step crypto processSalt action) ↔
      AtKeys crypto processSalt client ∧ ¬Crosses crypto processSalt client action := by
  constructor
  · intro after
    constructor
    · intro peerKey connection earlier
      exact after peerKey connection (mem_accepted_step.mpr (Or.inl earlier))
    · intro crosses
      unfold Crosses at crosses
      split at crosses
      · next call peerKey =>
          obtain ⟨held, connection, waits, elsewhere⟩ := crosses
          exact elsewhere (after peerKey connection
            (mem_accepted_step.mpr (Or.inr ⟨call, rfl, waits, held⟩)))
      · exact crosses
  · intro before peerKey connection returned
    rcases mem_accepted_step.mp returned with earlier | now
    · exact before.1 peerKey connection earlier
    · obtain ⟨call, rfl, waits, held⟩ := now
      by_contra elsewhere
      exact before.2 ⟨held, connection, waits, elsewhere⟩

/-! ## The identity of a caller -/

theorem kept_run (actions : List PeerAction) :
    Sound crypto processSalt (run (step crypto processSalt) new actions) ∧
      Handled crypto processSalt (run (step crypto processSalt) new actions) := by
  have kept : ∀ client action,
      Sound crypto processSalt client ∧ Handled crypto processSalt client →
        Sound crypto processSalt (client.step crypto processSalt action) ∧
          Handled crypto processSalt (client.step crypto processSalt action) := by
    intro client action both
    exact ⟨sound_step both.1 action, handled_step both.1 both.2 action⟩
  exact run_always kept ⟨sound_new, handled_new⟩ actions

theorem atKeys_run (actions : List PeerAction) :
    AtKeys crypto processSalt (run (step crypto processSalt) new actions) ↔
      Guarded (step crypto processSalt)
        (fun client action => ¬Crosses crypto processSalt client action) new actions := by
  have start : AtKeys crypto processSalt new := by
    intro peerKey connection inside
    cases inside
  have stepExact : ∀ (client : PeerClient) (action : PeerAction), True → True →
      (AtKeys crypto processSalt (client.step crypto processSalt action) ↔
        AtKeys crypto processSalt client ∧ ¬Crosses crypto processSalt client action) :=
    fun client action _ _ => atKeys_step client action
  have everywhere : Guarded (step crypto processSalt) (fun _ _ => True) new actions :=
    guarded_mono (fun _ _ _ => trivial) (guarded_mem new actions)
  rw [@holds_run_iff_guarded _ _ _ _ (fun _ => True) _ _ (fun _ _ _ _ => trivial) stepExact _ _
    trivial everywhere]
  exact and_iff_right start

end Runs

/-- Whatever was introduced and dialled in whatever order, every connection `accept_peer`
returned is the own one of the key it was returned with exactly when no handshake over the
route of one peer proved the key of another; and where one did, the key was returned with a
connection of that other peer's route and entry. Every connection `dial_peer` returned is the
own one of the key it was asked for. -/
theorem accept_peer_own_iff (crypto : Crypto) (processSalt : List.Vector UInt8 5)
    (actions : List PeerAction) :
    ((∀ peerKey connection,
        .ok (peerKey, connection) ∈ (run (step crypto processSalt) new actions).accepted →
          Own crypto processSalt (run (step crypto processSalt) new actions) peerKey connection) ↔
      Guarded (step crypto processSalt)
        (fun client action => ¬Crosses crypto processSalt client action) new actions) ∧
    (∀ peerKey connection,
      .ok (peerKey, connection) ∈ (run (step crypto processSalt) new actions).accepted →
        ¬Own crypto processSalt (run (step crypto processSalt) new actions) peerKey connection →
          ∃ session other,
            (session, other) ∈ (run (step crypto processSalt) new actions).introduced ∧
              other ≠ peerKey ∧
              connection.remoteAddress = syntheticAddr crypto processSalt other ∧
              (run (step crypto processSalt) new actions).table.byPeer.lookup peerKey ≠
                some connection.epoch) ∧
    ∀ peerKey connection,
      (peerKey, .ok connection) ∈ (run (step crypto processSalt) new actions).dialled →
        Own crypto processSalt (run (step crypto processSalt) new actions) peerKey connection := by
  have kept : Sound crypto processSalt _ ∧ Handled crypto processSalt _ := kept_run actions
  obtain ⟨sound, handled⟩ := kept
  refine ⟨?_, ?_, ?_⟩
  · rw [← atKeys_run]
    constructor
    · intro own peerKey connection returned
      exact (own peerKey connection returned).address
    · intro atKeys peerKey connection returned
      obtain ⟨carried, held⟩ := handled.accepted peerKey connection returned
      exact (sound.own_iff carried held).mpr (atKeys peerKey connection returned)
  · intro peerKey connection returned notOwn
    obtain ⟨carried, held⟩ := handled.accepted peerKey connection returned
    exact sound.of_not_own carried held notOwn
  · intro peerKey connection returned
    obtain ⟨carried, held, atKey⟩ := handled.dialled peerKey connection returned
    exact (sound.own_iff carried held).mpr atKey

/-! ### Two peers and one route -/

theorem length_front (input : List UInt8) :
    ((input ++ List.replicate 32 0).take 32).length = 32 := by
  simp

/-- Primitives under which a digest is the first 32 bytes. -/
def frontCrypto : Crypto where
  blake3 input := ⟨(input ++ List.replicate 32 0).take 32, length_front input⟩
  verifyingKey _ := true
  verifyStrict _ _ _ := true

def firstPeer : Bytes32 := List.Vector.replicate 32 1

def secondPeer : Bytes32 := List.Vector.replicate 32 2

def firstRoute : SocketAddr := syntheticAddr frontCrypto (List.Vector.replicate 5 0) firstPeer

/-- Both peers are introduced, and a dial over the route of the first proves the key of the
second. -/
def crossed : List PeerAction :=
  [.registerRelaySession 1 firstPeer, .insertRelayPath firstPeer,
    .registerRelaySession 2 secondPeer, .insertRelayPath secondPeer,
    .incoming 0 firstRoute, .acceptPeer 0 (.ok secondPeer)]

/-- The second peer is returned with the route and the entry of the first. -/
theorem crossed_accepted :
    let client := run (step frontCrypto (List.Vector.replicate 5 0)) new crossed
    .ok (secondPeer, ⟨firstRoute, 0⟩) ∈ client.accepted ∧
      client.table.byPeer.lookup firstPeer = some 0 ∧
      client.table.byPeer.lookup secondPeer = some 1 ∧
      ¬Own frontCrypto (List.Vector.replicate 5 0) client secondPeer ⟨firstRoute, 0⟩ := by
  have returned : .ok (secondPeer, ⟨firstRoute, 0⟩) ∈
      (run (step frontCrypto (List.Vector.replicate 5 0)) new crossed).accepted := by
    decide
  have elsewhere : firstRoute ≠ syntheticAddr frontCrypto (List.Vector.replicate 5 0) secondPeer := by
    decide
  refine ⟨returned, by decide, by decide, ?_⟩
  intro own
  exact elsewhere own.address

end PeerClient

end Mosschat.Net
