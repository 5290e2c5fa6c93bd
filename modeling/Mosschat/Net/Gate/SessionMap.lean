import Mathlib.Data.List.MinMax
import Mosschat.Library.Machine
import Mosschat.Library.Oneshot
import Mosschat.Net.Gate.Wire

/-!
Owns the two maps a client keeps of its sessions at the gate, from `gate/client.rs`: the
entries of `remember_session` and the `Start` slots, and what the sweep and the eviction
leave of the first.

Does not own the introductions a session comes from.
-/

namespace Mosschat.Net.Gate

open Mosschat.Library Mosschat.Library.Machine Mosschat.Library.Oneshot

/-! ## The client's two maps -/

/-- `SessionEntry`. -/
structure SessionEntry where
  peerObserved : SocketAddr
  openedAt : Nat
  finished : Bool
deriving DecidableEq

/-- `StartSignal`. -/
structure StartSignal where
  session : UInt32
  fireInMs : UInt16
  gateMs : UInt64
  receivedAt : Nat
  /-- Which of the gate's `Start` frames this is. No code reads it. -/
  frame : Nat
deriving DecidableEq

/-- The name of one call of `await_start`. -/
abbrev CallId := Nat

/-- `StartSlot`, its sender by the call that waits on the receiver. -/
structure StartSlot where
  received : Option StartSignal
  waiter : Option CallId
deriving DecidableEq

/-- `StartSlot::default`. -/
def StartSlot.empty : StartSlot := ⟨none, none⟩

abbrev SessionMap := HashMap UInt32 SessionEntry

abbrev StartMap := HashMap UInt32 StartSlot

namespace SessionMap

/-- The sweep of `remember_session`. -/
def sweep (sessions : SessionMap) (now : Nat) : SessionMap :=
  sessions.retain fun _ entry => now - entry.openedAt < limits.registrationTtl

/-- `iter().min_by_key(|(_, entry)| entry.opened_at)`. -/
def oldest (entries : List (Σ _ : UInt32, SessionEntry)) : Option (Σ _ : UInt32, SessionEntry) :=
  entries.argmin fun entry => entry.2.openedAt

/-- The victim of `remember_session`: the oldest finished, or else the oldest outright. -/
def victim (sessions : SessionMap) : Option UInt32 :=
  ((oldest (sessions.entries.filter fun entry => entry.2.finished)).or
    (oldest sessions.entries)).map Sigma.fst

/-- The eviction loop of `remember_session`, which runs at most once for each entry. -/
def evict : Nat → SessionMap → SessionMap
  | 0, sessions => sessions
  | passes + 1, sessions =>
      if sessions.entries.length < limits.maxSessionsPerRegistration then sessions
      else
        match victim sessions with
        | none => sessions
        | some id => evict passes (sessions.erase id)

/-- `Inner::remember_session`. -/
def rememberSession (sessions : SessionMap) (session : UInt32) (peerObserved : Option SocketAddr)
    (now : Nat) : SessionMap :=
  match peerObserved with
  | none => sessions
  | some peerObserved =>
    let swept := sweep sessions now
    let room := if session ∈ swept then swept else evict swept.entries.length swept
    room.put session ⟨peerObserved, now, false⟩

/-- `GateClient::peer_observed_for`. -/
def peerObservedFor (sessions : SessionMap) (session : UInt32) : Option SocketAddr :=
  (sessions.lookup session).map SessionEntry.peerObserved

/-- The first lock of `GateClient::attempt_finished`. -/
def markFinished (sessions : SessionMap) (session : UInt32) : SessionMap :=
  match sessions.lookup session with
  | none => sessions
  | some entry => sessions.put session { entry with finished := true }

/-! ### What the sweep and the eviction leave -/

/-- The entry goes before the other whatever order the map is walked in. -/
def goesBefore (first second : SessionEntry) : Bool :=
  (first.finished && !second.finished) ||
    (first.finished == second.finished && decide (first.openedAt < second.openedAt))

/-- The entry of `kept` is young, and `session` has its place already, or there is room for
it, or another entry that is young goes before that of `kept`. -/
def spares (sessions : SessionMap) (kept session : UInt32) (now : Nat) : Bool :=
  let swept := sweep sessions now
  match swept.lookup kept with
  | none => false
  | some entry =>
    decide (session ∈ swept) ||
      decide (swept.entries.length < limits.maxSessionsPerRegistration) ||
      swept.values.any fun other => goesBefore other entry

theorem oldest_mem {entries : List (Σ _ : UInt32, SessionEntry)} {entry : Σ _ : UInt32, SessionEntry}
    (isOldest : oldest entries = some entry) : entry ∈ entries :=
  List.argmin_mem isOldest

theorem oldest_le {entries : List (Σ _ : UInt32, SessionEntry)}
    {entry other : Σ _ : UInt32, SessionEntry} (isOldest : oldest entries = some entry)
    (member : other ∈ entries) : entry.2.openedAt ≤ other.2.openedAt :=
  List.le_of_mem_argmin (f := fun entry : Σ _ : UInt32, SessionEntry => entry.2.openedAt) member
    isOldest

theorem oldest_eq_none {entries : List (Σ _ : UInt32, SessionEntry)} :
    oldest entries = none ↔ entries = [] := List.argmin_eq_none

/-- The entry of the victim: among the finished where there are any, and the oldest. -/
theorem victim_spec {sessions : SessionMap} {id : UInt32} (isVictim : victim sessions = some id) :
    ∃ entry, sessions.lookup id = some entry ∧
      ∀ other found, sessions.lookup other = some found → goesBefore found entry = false := by
  unfold victim at isVictim
  obtain ⟨⟨key, entry⟩, isFirst, isKey⟩ := Option.map_eq_some_iff.mp isVictim
  have sameKey : key = id := isKey
  subst sameKey
  cases finished : oldest (sessions.entries.filter fun entry => entry.2.finished) with
  | some first =>
      rw [finished, Option.some_or] at isFirst
      cases isFirst
      have inFilter := List.mem_filter.mp (oldest_mem finished)
      refine ⟨entry, AList.mem_lookup_iff.mpr inFilter.1, ?_⟩
      intro other found isFound
      have isFinished : entry.finished = true := inFilter.2
      unfold goesBefore
      cases foundFinished : found.finished with
      | false => simp [isFinished]
      | true =>
          have member : (⟨other, found⟩ : Σ _ : UInt32, SessionEntry) ∈
              sessions.entries.filter fun entry => entry.2.finished :=
            List.mem_filter.mpr ⟨AList.mem_lookup_iff.mp isFound, foundFinished⟩
          have ordered : entry.openedAt ≤ found.openedAt := oldest_le finished member
          simp [isFinished, ordered]
  | none =>
      rw [finished, Option.none_or] at isFirst
      have noneFinished := oldest_eq_none.mp finished
      have isNotFinished : ∀ other found, sessions.lookup other = some found →
          found.finished = false := by
        intro other found isFound
        have absent := List.filter_eq_nil_iff.mp noneFinished _ (AList.mem_lookup_iff.mp isFound)
        exact Bool.eq_false_of_not_eq_true absent
      have member := oldest_mem isFirst
      have isThere : sessions.lookup key = some entry := AList.mem_lookup_iff.mpr member
      refine ⟨entry, isThere, ?_⟩
      intro other found isFound
      have ordered : entry.openedAt ≤ found.openedAt :=
        oldest_le isFirst (AList.mem_lookup_iff.mp isFound)
      unfold goesBefore
      rw [isNotFinished other found isFound, isNotFinished key entry isThere]
      simp [ordered]

/-- A map that is no larger than the cap loses its victim at most. -/
theorem lookup_evict {sessions : SessionMap} (passes : Nat)
    (sized : sessions.entries.length ≤ limits.maxSessionsPerRegistration) {key : UInt32}
    (kept : sessions.entries.length < limits.maxSessionsPerRegistration ∨
      victim sessions ≠ some key) :
    (evict passes sessions).lookup key = sessions.lookup key := by
  cases passes with
  | zero => rfl
  | succ passes =>
      unfold evict
      split
      · rfl
      · next full =>
          have isNotVictim : victim sessions ≠ some key := kept.resolve_left full
          split
          · rfl
          · next id isVictim =>
              obtain ⟨entry, isThere, _⟩ := victim_spec isVictim
              have occupied : id ∈ sessions :=
                AList.lookup_isSome.mp (Option.isSome_of_mem isThere)
              have shorter := HashMap.length_erase_of_mem occupied
              have roomy : (sessions.erase id).entries.length <
                  limits.maxSessionsPerRegistration := by omega
              have stays : evict passes (sessions.erase id) = sessions.erase id := by
                cases passes with
                | zero => rfl
                | succ passes => rw [evict, if_pos roomy]
              have apart : key ≠ id := by
                intro same
                rw [same] at isNotVictim
                exact isNotVictim isVictim
              rw [stays, HashMap.lookup_erase, if_neg apart]

/-- Enough passes make room. -/
theorem length_evict (passes : Nat) (sessions : SessionMap)
    (enough : sessions.entries.length ≤ passes) :
    (evict passes sessions).entries.length < limits.maxSessionsPerRegistration := by
  induction passes generalizing sessions with
  | zero =>
      have nothing : sessions.entries.length = 0 := Nat.le_zero.mp enough
      show sessions.entries.length < limits.maxSessionsPerRegistration
      rw [nothing]
      decide
  | succ passes ih =>
      unfold evict
      split
      · next roomy => exact roomy
      · next full =>
          cases isVictim : victim sessions with
          | none =>
              have atLeast : 8 ≤ sessions.entries.length := Nat.le_of_not_lt full
              unfold victim at isVictim
              rw [Option.map_eq_none_iff, Option.or_eq_none_iff, oldest_eq_none,
                oldest_eq_none] at isVictim
              rw [isVictim.2] at atLeast
              exact absurd atLeast (by decide)
          | some id =>
              obtain ⟨entry, isThere, _⟩ := victim_spec isVictim
              have occupied : id ∈ sessions :=
                AList.lookup_isSome.mp (Option.isSome_of_mem isThere)
              have shorter := HashMap.length_erase_of_mem occupied
              exact ih (sessions.erase id) (by omega)

theorem length_rememberSession {sessions : SessionMap} (session : UInt32)
    (peerObserved : Option SocketAddr) (now : Nat)
    (sized : sessions.entries.length ≤ limits.maxSessionsPerRegistration) :
    (rememberSession sessions session peerObserved now).entries.length ≤
      limits.maxSessionsPerRegistration := by
  unfold rememberSession
  cases peerObserved with
  | none => exact sized
  | some peerObserved =>
      have swept : (sweep sessions now).entries.length ≤ limits.maxSessionsPerRegistration :=
        (HashMap.length_retain_le sessions _).trans sized
      by_cases held : session ∈ sweep sessions now
      · show (HashMap.put (if _ then _ else _) _ _).entries.length ≤ _
        rw [if_pos held, HashMap.length_put, if_pos held]
        exact swept
      · show (HashMap.put (if _ then _ else _) _ _).entries.length ≤ _
        have room := length_evict _ (sweep sessions now) (Nat.le_refl _)
        rw [if_neg held, HashMap.length_put]
        split
        · exact Nat.le_of_lt room
        · exact room

/-- An entry that is spared is there afterwards. -/
theorem lookup_rememberSession {sessions : SessionMap} {kept session : UInt32}
    {peerObserved : SocketAddr} {now : Nat}
    (sized : sessions.entries.length ≤ limits.maxSessionsPerRegistration) (apart : kept ≠ session)
    (spared : spares sessions kept session now = true) :
    (rememberSession sessions session (some peerObserved) now).lookup kept =
      sessions.lookup kept := by
  have sweptSized : (sweep sessions now).entries.length ≤ limits.maxSessionsPerRegistration :=
    (HashMap.length_retain_le sessions _).trans sized
  unfold spares at spared
  simp only at spared
  split at spared
  · cases spared
  · next entry isKept =>
      have before : sessions.lookup kept = some entry :=
        (HashMap.lookup_retain_eq_some.mp isKept).1
      unfold rememberSession
      simp only
      rw [HashMap.lookup_put, if_neg apart, before]
      split
      · exact isKept
      · next isNew =>
          rw [lookup_evict _ sweptSized, isKept]
          rw [Bool.or_eq_true, Bool.or_eq_true, decide_eq_true_iff, decide_eq_true_iff] at spared
          rcases spared with (held | roomy) | another
          · exact absurd held isNew
          · exact Or.inl roomy
          · right
            intro isVictim
            obtain ⟨found, isFound, first⟩ := victim_spec isVictim
            rw [isKept] at isFound
            cases isFound
            rw [List.any_eq_true] at another
            obtain ⟨other, member, goesFirst⟩ := another
            obtain ⟨key, isThere⟩ := (HashMap.mem_values _ _).mp member
            rw [first key other isThere] at goesFirst
            cases goesFirst

theorem lookup_rememberSession_self (sessions : SessionMap) (session : UInt32)
    (peerObserved : SocketAddr) (now : Nat) :
    (rememberSession sessions session (some peerObserved) now).lookup session =
      some ⟨peerObserved, now, false⟩ := by
  unfold rememberSession
  rw [HashMap.lookup_put, if_pos rfl]

theorem mem_markFinished (sessions : SessionMap) (session key : UInt32) :
    key ∈ markFinished sessions session ↔ key ∈ sessions := by
  unfold markFinished
  split
  · exact Iff.rfl
  · next entry isThere =>
      have occupied : session ∈ sessions :=
        AList.lookup_isSome.mp (Option.isSome_of_mem isThere)
      rw [HashMap.mem_put]
      constructor
      · intro either
        rcases either with same | inside
        · rw [same]
          exact occupied
        · exact inside
      · exact Or.inr

theorem length_markFinished (sessions : SessionMap) (session : UInt32) :
    (markFinished sessions session).entries.length = sessions.entries.length := by
  unfold markFinished
  split
  · rfl
  · next entry isThere =>
      have occupied : session ∈ sessions :=
        AList.lookup_isSome.mp (Option.isSome_of_mem isThere)
      rw [HashMap.length_put, if_pos occupied]

end SessionMap

end Mosschat.Net.Gate
