import Mosschat.Net.Gate.Buckets
import Mosschat.Net.Gate.Relay
import Mosschat.Net.Gate.Sends
import Mosschat.Net.Gate.TableRuns

/-!
Owns how much the hourly buckets of the gate let through in an hour: the `Introduce`s of
one registration and the datagrams of one direction of a session, for any pattern in
which they arrive, and that every run of the gate charges them by such a pattern.

Does not own the frame rate or the shaper, which only hold back more.
-/

namespace Mosschat.Net.Gate.Server

open Mosschat.Core Mosschat.Library Mosschat.Library.Cbor Mosschat.Library.Machine

/-! ## The `Introduce`s of one registration -/

/-- The `Introduce` buckets of a registration made at an instant. -/
def introduceBuckets (born : Nat) : RateLimiter ℚ × RateLimiter ℚ :=
  ((RegistrationCells.new born).introduceMin, (RegistrationCells.new born).introduceHour)

/-- The buckets after an `Introduce`. -/
def chargeBoth (buckets : RateLimiter ℚ × RateLimiter ℚ) (now : Nat) :
    RateLimiter ℚ × RateLimiter ℚ :=
  (takeBoth buckets.1 buckets.2 now).1

/-- The `Introduce`, where both buckets let it through. -/
def passes (buckets : RateLimiter ℚ × RateLimiter ℚ) (now : Nat) : List Nat :=
  if (takeBoth buckets.1 buckets.2 now).2 then [now] else []

/-- The `Introduce`, where the bucket of the minute lets it through to that of the hour. -/
def passesMinute (buckets : RateLimiter ℚ × RateLimiter ℚ) (now : Nat) : List Nat :=
  if (buckets.1.tryTake now).2 then [now] else []

/-- The `Introduce`s the gate forwards of those that arrive, as far as their targets are
registered. -/
def forwarded (buckets : RateLimiter ℚ × RateLimiter ℚ) (instants : List Nat) : List Nat :=
  outputs chargeBoth passes buckets instants

/-- The `Introduce`s that are charged to the bucket of the hour. -/
def hourly (buckets : RateLimiter ℚ × RateLimiter ℚ) (instants : List Nat) : List Nat :=
  outputs chargeBoth passesMinute buckets instants

/-- An `Introduce` as a call to its bucket. -/
def introduceCall (now : Nat) : Call := ⟨F64.ofNat 1, now, Nat.cast_nonneg 1⟩

/-- Those of some instants that are in the hour that opens at `start`, its end included. -/
def inHour (start : Nat) (instants : List Nat) : List Nat :=
  instants.filter fun now => decide (start ≤ now ∧ now ≤ start + fromSecs 3600)

theorem secs_hour : secs (fromSecs 3600) = 3600 := by
  rw [secs_eq, fromSecs]
  norm_num

/-- Whenever a call comes that a count of the last hour would refuse, the count has let through,
from one of its calls on and with this one, more than the cap and what an hourly cap brings since:
it is out of reach for a bucket of the cap. -/
def SpentAhead (cap : Nat) (calls : List Call) : Prop :=
  TokenBucket.Outspent (cap : ℚ) ((cap : ℚ) / ((3600 : Nat) : ℚ)) (secs (fromSecs 3600))
    (calls.map Call.demand)

/-- A bucket that regains its capacity within the hour. -/
theorem hour_refills (cap : Nat) :
    (cap : ℚ) ≤ (cap : ℚ) / ((3600 : Nat) : ℚ) * secs (fromSecs 3600) := by
  rw [secs_hour]
  push_cast
  linarith

section Introduces

variable {buckets : RateLimiter ℚ × RateLimiter ℚ}

/-- `minute.try_take()` and `hour.try_take()`, by what the first gives. -/
theorem takeBoth_of_minute {minute hour : RateLimiter ℚ} {now : Nat}
    (allowed : (minute.tryTake now).2 = true) :
    takeBoth minute hour now =
      (((minute.tryTake now).1, (hour.tryTake now).1), (hour.tryTake now).2) := by
  unfold takeBoth
  dsimp only
  rw [if_pos allowed]

theorem takeBoth_of_not_minute {minute hour : RateLimiter ℚ} {now : Nat}
    (refused : (minute.tryTake now).2 = false) :
    takeBoth minute hour now = (((minute.tryTake now).1, hour), false) := by
  unfold takeBoth
  dsimp only
  rw [if_neg (Bool.eq_false_iff.mp refused)]

/-- The bucket of the hour is called for what the minute's lets through, and lets through
what is forwarded. -/
theorem forwarded_eq_taken (instants : List Nat) :
    (forwarded buckets instants).map introduceCall =
      buckets.2.taken ((hourly buckets instants).map introduceCall) := by
  induction instants generalizing buckets with
  | nil => rfl
  | cons now rest ih =>
      unfold forwarded hourly at ih ⊢
      rw [outputs, outputs, List.map_append, List.map_append, ih]
      unfold passes passesMinute chargeBoth
      cases allowed : (buckets.1.tryTake now).2 with
      | false =>
          rw [takeBoth_of_not_minute allowed]
          rfl
      | true =>
          rw [takeBoth_of_minute allowed, if_pos rfl]
          show _ = buckets.2.lets (introduceCall now) ++ _
          congr 1
          unfold RateLimiter.lets
          show ((if (buckets.2.tryTake now).2 = true then [now] else []).map introduceCall) =
            if (buckets.2.tryTake now).2 = true then [introduceCall now] else []
          split <;> rfl

theorem hourly_sublist (instants : List Nat) : (hourly buckets instants).Sublist instants := by
  induction instants generalizing buckets with
  | nil => exact List.Sublist.slnil
  | cons now rest ih =>
      have later : (hourly (chargeBoth buckets now) rest).Sublist rest := ih
      unfold hourly at later ⊢
      rw [outputs]
      unfold passesMinute
      split
      · exact later.cons_cons now
      · exact later.cons now

/-- What a bucket lets through of `Introduce`s, counted. -/
theorem takenWithin_introduces {limiter : RateLimiter ℚ} {calls kept : List Nat}
    (taken : limiter.taken (calls.map introduceCall) = kept.map introduceCall)
    (start span : Nat) :
    limiter.takenWithin (calls.map introduceCall) start (start + span) =
      ((kept.filter fun now => decide (start ≤ now ∧ now ≤ start + span)).length : ℚ) := by
  have ones : ∀ some : List Nat, ((some.map introduceCall).map Call.amount).sum = some.length := by
    intro some
    induction some with
    | nil => rfl
    | cons now rest ih =>
        have one : (introduceCall now).amount = 1 := Nat.cast_one
        rw [List.map_cons, List.map_cons, List.sum_cons, ih, one,
          List.length_cons, Nat.cast_succ, add_comm]
  unfold RateLimiter.takenWithin
  rw [taken, List.filter_map, ones]
  rfl

/-- What is charged to the bucket of the hour comes in order. -/
theorem ordered_hourly {born : Nat} {instants : List Nat}
    (ordered : (born :: instants).Pairwise (· ≤ ·)) :
    (born :: ((hourly buckets instants).map introduceCall).map Call.now).Pairwise (· ≤ ·) := by
  have sameInstants : ((hourly buckets instants).map introduceCall).map Call.now =
      hourly buckets instants := by
    rw [List.map_map]
    exact List.map_id _
  rw [sameInstants]
  exact ordered.sublist ((hourly_sublist instants).cons_cons born)

/-- In no hour more than 60 `Introduce`s of a registration are forwarded exactly where all
that a count of every hour refuses is out of reach for its hourly bucket. -/
theorem forwarded_capped_iff (born : Nat) {instants : List Nat}
    (ordered : (born :: instants).Pairwise (· ≤ ·)) :
    (∀ start, (inHour start (forwarded (introduceBuckets born) instants)).length ≤
        limits.introducePerHour) ↔
      SpentAhead limits.introducePerHour
        ((hourly (introduceBuckets born) instants).map introduceCall) := by
  have made : (introduceBuckets born).2.Made := .perHour 60 60 born
  have orderedCalls : ((introduceBuckets born).2.last ::
      ((hourly (introduceBuckets born) instants).map introduceCall).map Call.now).Pairwise
        (· ≤ ·) := ordered_hourly ordered
  refine Iff.trans ?_ (RateLimiter.takenWithin_le_capacity_iff made orderedCalls
    (hour_refills limits.introducePerHour))
  apply forall_congr'
  intro start
  rw [takenWithin_introduces (forwarded_eq_taken instants).symm start (fromSecs 3600)]
  show _ ↔ _ ≤ ((60 : Nat) : ℚ)
  rw [Nat.cast_le]
  rfl

end Introduces

/-! ## The datagrams of one direction of a session -/

/-- A `Relay` datagram of a party, as `forward_relay` charges it. -/
structure Datagram where
  payload : Bytes
  now : Nat

/-- The directions of a session. -/
inductive Direction where
  | aToB
  | bToA
deriving DecidableEq

/-- The charge to the direction's budget. -/
def Direction.charge {F : Type} [F64 F] (session : SessionState F) (payload : Bytes) (now : Nat) :
    Direction → SessionState F × Bool
  | .aToB => session.chargeAToB payload now
  | .bToA => session.chargeBToA payload now

/-- The direction's budget. -/
def Direction.bytes {F : Type} (session : SessionState F) : Direction → RateLimiter F
  | .aToB => session.aToB.bytes
  | .bToA => session.bToA.bytes

/-- The session after a datagram. -/
def chargeDirection (direction : Direction) (session : SessionState ℚ) (datagram : Datagram) :
    SessionState ℚ :=
  (direction.charge session datagram.payload datagram.now).1

/-- The datagram, where its direction has budget for it. -/
def passesDirection (direction : Direction) (session : SessionState ℚ) (datagram : Datagram) :
    List Datagram :=
  if (direction.charge session datagram.payload datagram.now).2 then [datagram] else []

/-- The datagrams the gate relays of those that arrive, as far as the queue has room. -/
def relayed (direction : Direction) (session : SessionState ℚ) (datagrams : List Datagram) :
    List Datagram :=
  outputs (chargeDirection direction) (passesDirection direction) session datagrams

/-- A datagram as a call to its budget. -/
def Datagram.call (datagram : Datagram) : Call :=
  ⟨F64.ofNat datagram.payload.length, datagram.now, Nat.cast_nonneg _⟩

/-- The bytes among some datagrams in the hour that opens at `start`, its end included. -/
def bytesInHour (start : Nat) (datagrams : List Datagram) : Nat :=
  ((datagrams.filter fun datagram =>
    decide (start ≤ datagram.now ∧ datagram.now ≤ start + fromSecs 3600)).map fun datagram =>
      datagram.payload.length).sum

section Relays

variable {direction : Direction} {session : SessionState ℚ}

/-- A charge is a call to the direction's budget. -/
theorem bytes_chargeDirection (direction : Direction) (session : SessionState ℚ)
    (datagram : Datagram) :
    direction.bytes (chargeDirection direction session datagram) =
        (direction.bytes session).call datagram.call ∧
      (passesDirection direction session datagram).map Datagram.call =
        (direction.bytes session).lets datagram.call := by
  cases direction with
  | aToB =>
      refine ⟨rfl, ?_⟩
      show ((if (session.aToB.bytes.tryTakeN datagram.call.amount datagram.now).2 = true then
        [datagram] else []).map Datagram.call) =
          if (session.aToB.bytes.tryTakeN datagram.call.amount datagram.now).2 = true then
            [datagram.call] else []
      split <;> rfl
  | bToA =>
      refine ⟨rfl, ?_⟩
      show ((if (session.bToA.bytes.tryTakeN datagram.call.amount datagram.now).2 = true then
        [datagram] else []).map Datagram.call) =
          if (session.bToA.bytes.tryTakeN datagram.call.amount datagram.now).2 = true then
            [datagram.call] else []
      split <;> rfl

theorem relayed_eq_taken (datagrams : List Datagram) :
    (relayed direction session datagrams).map Datagram.call =
      (direction.bytes session).taken (datagrams.map Datagram.call) := by
  induction datagrams generalizing session with
  | nil => rfl
  | cons datagram rest ih =>
      have charged := bytes_chargeDirection direction session datagram
      show (passesDirection direction session datagram ++
        relayed direction (chargeDirection direction session datagram) rest).map Datagram.call = _
      rw [List.map_append, ih, charged.1, charged.2]
      rfl

/-- What a budget lets through of datagrams, in bytes. -/
theorem takenWithin_relays {limiter : RateLimiter ℚ} {datagrams kept : List Datagram}
    (taken : limiter.taken (datagrams.map Datagram.call) = kept.map Datagram.call) (start : Nat) :
    limiter.takenWithin (datagrams.map Datagram.call) start (start + fromSecs 3600) =
      (bytesInHour start kept : ℚ) := by
  have sizes : ∀ some : List Datagram, ((some.map Datagram.call).map Call.amount).sum =
      ((some.map fun datagram => datagram.payload.length).sum : Nat) := by
    intro some
    induction some with
    | nil => rfl
    | cons datagram rest ih =>
        rw [List.map_cons, List.map_cons, List.sum_cons, ih, List.map_cons,
          List.sum_cons, Nat.cast_add]
        rfl
  unfold RateLimiter.takenWithin bytesInHour
  rw [taken, List.filter_map, sizes]
  rfl

/-- In no hour more than 2 GiB of a direction are relayed exactly where all that a count of
every hour refuses is out of reach for its budget. -/
theorem relayed_capped_iff (born : Nat) (fresh : direction.bytes session =
      (RelayLimiter.new born).bytes) {datagrams : List Datagram}
    (ordered : (born :: datagrams.map Datagram.now).Pairwise (· ≤ ·)) :
    (∀ start, bytesInHour start (relayed direction session datagrams) ≤ limits.relayBytesPerHour) ↔
      SpentAhead limits.relayBytesPerHour (datagrams.map Datagram.call) := by
  have made : (direction.bytes session).Made := by
    rw [fresh]
    exact .capacityPerHour _ born (Nat.cast_nonneg limits.relayBytesPerHour)
  have orderedCalls : ((direction.bytes session).last ::
      (datagrams.map Datagram.call).map Call.now).Pairwise (· ≤ ·) := by
    rw [fresh, List.map_map]
    exact ordered
  have refills : (direction.bytes session).capacity ≤
      (direction.bytes session).refillPerS * secs (fromSecs 3600) := by
    rw [fresh]
    exact hour_refills limits.relayBytesPerHour
  have exact := RateLimiter.takenWithin_le_capacity_iff made orderedCalls refills
  have isBucket : (direction.bytes session).capacity = (limits.relayBytesPerHour : ℚ) ∧
      (direction.bytes session).refillPerS =
        (limits.relayBytesPerHour : ℚ) / ((3600 : Nat) : ℚ) := by
    rw [fresh]
    exact ⟨rfl, rfl⟩
  rw [isBucket.1, isBucket.2] at exact
  refine Iff.trans ?_ exact
  apply forall_congr'
  intro start
  rw [takenWithin_relays (relayed_eq_taken datagrams).symm start, Nat.cast_le]

end Relays

/-! ## Every run charges by such patterns -/

section Runs

variable {crypto : Crypto} {world : World ℚ} {id : Nat}

/-- The instant at which the section charges the buckets of the registration. -/
def Task.asks (id now : Nat) : Task → List Nat
  | .introduce registration _ _ _ => if registration.id = id then [now] else []
  | _ => []

/-- The `Introduce` of the registration that the action charges. -/
def World.asks (id : Nat) (world : World ℚ) : Action → List Nat
  | .resume handler ambient =>
    match world.tasks.lookup handler with
    | none => []
    | some task => task.asks id ambient.now
  | .connect .. => []

/-- The `Introduce` buckets of a registration. -/
def World.buckets (world : World ℚ) (id : Nat) : RateLimiter ℚ × RateLimiter ℚ :=
  ((world.gate.cells id).introduceMin, (world.gate.cells id).introduceHour)

/-- What a section leaves of the `Introduce` buckets of a registration. -/
theorem buckets_run (crypto : Crypto) (state : ServerState ℚ) (handler : Handler)
    (ambient : Ambient) {task : Task} (free : ¬task.charges id) :
    ((task.run crypto state handler ambient).state.cells id).introduceMin =
        (state.cells id).introduceMin ∧
      ((task.run crypto state handler ambient).state.cells id).introduceHour =
        (state.cells id).introduceHour := by
  have kept : ∀ (cells : RegistrationCells ℚ) (registration : Registration),
      cells.introduceMin = (state.cells registration.id).introduceMin →
      cells.introduceHour = (state.cells registration.id).introduceHour →
      (Function.update state.cells registration.id cells id).introduceMin =
          (state.cells id).introduceMin ∧
        (Function.update state.cells registration.id cells id).introduceHour =
          (state.cells id).introduceHour := by
    intro cells registration minute hour
    by_cases same : id = registration.id
    · rw [same, Function.update_self]
      exact ⟨minute, hour⟩
    · rw [Function.update_of_ne same]
      exact ⟨rfl, rfl⟩
  cases isWriter : task.writes with
  | true =>
      cases task with
      | register registration =>
          show ((register state registration ambient).state.cells id).introduceMin = _ ∧ _
          unfold Task.run register
          dsimp only
          split
          · exact ⟨rfl, rfl⟩
          · exact kept _ registration rfl rfl
      | writer registration =>
          unfold Task.run writer
          dsimp only
          split
          · exact kept _ registration rfl rfl
          · exact kept _ registration rfl rfl
      | _ => cases isWriter
  | false =>
      obtain ⟨cells, rewrote, isPosted⟩ := posts_run crypto state handler ambient isWriter
      have before := rewrote.buckets id free
      have after := buckets_posted cells (task.sends state ambient) id
      rw [isPosted]
      exact ⟨after.1.trans before.1, after.2.trans before.2⟩

theorem Task.asks_eq_nil {task : Task} {now : Nat} (free : ¬task.charges id) :
    task.asks id now = [] := by
  cases task with
  | introduce registration tag ttlS sealedBytes => exact if_neg free
  | _ => rfl

/-- `handle_introduce` leaves the buckets as `minute.try_take()` and `hour.try_take()` do. -/
theorem buckets_introduce (state : ServerState ℚ) (registration : Registration) (tag : Bytes32)
    (ttlS : UInt16) (sealedBytes : Bytes) (now : Nat) :
    (((introduce state registration tag ttlS sealedBytes now).state.cells
        registration.id).introduceMin,
      ((introduce state registration tag ttlS sealedBytes now).state.cells
        registration.id).introduceHour) =
      chargeBoth ((state.cells registration.id).introduceMin,
        (state.cells registration.id).introduceHour) now := by
  unfold introduce
  dsimp only
  split
  · show ((Function.update state.cells registration.id _ registration.id).introduceMin,
      (Function.update state.cells registration.id _ registration.id).introduceHour) = _
    rw [Function.update_self]
    rfl
  · rw [cells_sendFrame]
    have kept := buckets_posted (Function.update state.cells registration.id
      { state.cells registration.id with
          introduceMin := (chargeBoth ((state.cells registration.id).introduceMin,
            (state.cells registration.id).introduceHour) now).1
          introduceHour := (chargeBoth ((state.cells registration.id).introduceMin,
            (state.cells registration.id).introduceHour) now).2 })
      [(registration, .error 1 errorRateLimited "introduce rate limit exceeded")] registration.id
    rw [Function.update_self] at kept
    exact congrArg₂ Prod.mk kept.1 kept.2

/-- An action charges the buckets of a registration with its own `Introduce` alone. -/
theorem buckets_step (crypto : Crypto) (action : Action) (made : id < world.gate.allocated) :
    (world.step crypto action).buckets id =
      run chargeBoth (world.buckets id) (world.asks id action) := by
  unfold World.step World.asks
  cases action with
  | connect key observed now =>
      dsimp only
      split
      · rfl
      · show (((world.connect key observed now).gate.cells id).introduceMin,
          ((world.connect key observed now).gate.cells id).introduceHour) = world.buckets id
        rw [cells_connect]
        show ((Function.update world.gate.cells world.gate.allocated _ id).introduceMin,
          (Function.update world.gate.cells world.gate.allocated _ id).introduceHour) = _
        rw [Function.update_of_ne (Nat.ne_of_lt made)]
        rfl
  | resume handler ambient =>
      dsimp only
      cases isAt : world.tasks.lookup handler with
      | none => rfl
      | some task =>
          dsimp only
          by_cases charged : task.charges id
          · cases task with
            | introduce registration tag ttlS sealedBytes =>
                have same : registration.id = id := charged
                subst same
                rw [Task.asks, if_pos rfl]
                exact buckets_introduce world.gate registration tag ttlS sealedBytes ambient.now
            | _ => cases charged
          · rw [Task.asks_eq_nil charged]
            split
            · rfl
            · have kept := buckets_run crypto world.gate handler ambient charged
              exact congrArg₂ Prod.mk kept.1 kept.2

/-- What has been handed out stays handed out. -/
theorem made_step (crypto : Crypto) (action : Action) (made : id < world.gate.allocated) :
    id < (world.step crypto action).gate.allocated := by
  unfold World.step
  split
  · next key observed now =>
      split
      · exact made
      · obtain ⟨_, _, _, connected⟩ := connect_gate world key observed now
        rw [connected]
        exact Nat.lt_succ_of_lt made
  · split
    · exact made
    · split
      · exact made
      · exact made.trans_le (allocated_run crypto world.gate _ _ _)

/-- In every run the buckets of a registration are those of the pattern in which its
`Introduce`s arrive. -/
theorem buckets_run_actions (crypto : Crypto) (actions : List Action)
    (made : id < world.gate.allocated) :
    (run (World.step crypto) world actions).buckets id =
      run chargeBoth (world.buckets id)
        (outputs (World.step crypto) (World.asks id) world actions) := by
  induction actions generalizing world with
  | nil => rfl
  | cons action rest ih =>
      have stillMade : id < (world.step crypto action).gate.allocated :=
        made_step crypto action made
      rw [run_cons, ih stillMade, buckets_step crypto action made, outputs,
        run_append]

/-- A new registration's buckets are full. -/
theorem buckets_connect (world : World ℚ) (key : Bytes32) (observed : SocketAddr) (now : Nat) :
    (world.connect key observed now).buckets world.gate.allocated = introduceBuckets now := by
  show (((world.connect key observed now).gate.cells world.gate.allocated).introduceMin,
    ((world.connect key observed now).gate.cells world.gate.allocated).introduceHour) = _
  rw [cells_connect]
  show ((Function.update world.gate.cells world.gate.allocated _ world.gate.allocated).introduceMin,
    (Function.update world.gate.cells world.gate.allocated _ world.gate.allocated).introduceHour) = _
  rw [Function.update_self]
  rfl

/-- The shaper of the direction, which tells one session from another of the same id. -/
def Direction.shaper (found : SessionState ℚ) : Direction → Nat
  | .aToB => found.aToBShaper
  | .bToA => found.bToAShaper

/-- A datagram of the key goes in the direction. -/
def Direction.takes (found : SessionState ℚ) (key : Bytes32) : Direction → Prop
  | .aToB => found.keyA = key
  | .bToA => found.keyA ≠ key ∧ found.keyB = key

instance (found : SessionState ℚ) (key : Bytes32) (direction : Direction) :
    Decidable (direction.takes found key) :=
  match direction with
  | .aToB => inferInstanceAs (Decidable (found.keyA = key))
  | .bToA => inferInstanceAs (Decidable (found.keyA ≠ key ∧ found.keyB = key))

/-- The datagram the section charges to the direction of the session. -/
def Task.relaysOver (direction : Direction) (session : UInt32) (shaper : Nat)
    (state : ServerState ℚ) (now : Nat) : Task → List Datagram
  | .forward registration other payload =>
    match state.sessions.lookup session with
    | none => []
    | some found =>
      if other = session ∧ direction.shaper found = shaper ∧
          direction.takes found registration.key then [⟨payload, now⟩]
      else []
  | _ => []

/-- The datagram the action charges to the direction of the session. -/
def World.relaysOver (direction : Direction) (session : UInt32) (shaper : Nat) (world : World ℚ) :
    Action → List Datagram
  | .resume handler ambient =>
    match world.tasks.lookup handler with
    | none => []
    | some task => task.relaysOver direction session shaper world.gate ambient.now
  | .connect .. => []

/-- As long as the session is in the table, its direction's budget is this one. -/
structure Budgeted (direction : Direction) (session : UInt32) (shaper : Nat)
    (state : ServerState ℚ) (limiter : RateLimiter ℚ) : Prop where
  known : shaper < state.allocated
  bytes : ∀ found, state.sessions.lookup session = some found → direction.shaper found = shaper →
    direction.bytes found = limiter

section Budgets

variable {direction : Direction} {session : UInt32} {shaper : Nat} {limiter : RateLimiter ℚ}

/-- A state of the session in which the direction was not charged. -/
def Direction.Uncharged (direction : Direction) (found current : SessionState ℚ) : Prop :=
  direction.shaper current = direction.shaper found ∧ direction.bytes current = direction.bytes found

theorem uncharged_of_unspent {found current : SessionState ℚ} (unspent : found.Unspent current) :
    direction.Uncharged found current := by
  cases direction with
  | aToB => exact ⟨unspent.same.aToBShaper, congrArg RelayLimiter.bytes unspent.aToB⟩
  | bToA => exact ⟨unspent.same.bToAShaper, congrArg RelayLimiter.bytes unspent.bToA⟩

/-- A direction keeps its budget where it is not charged. -/
theorem Budgeted.of_uncharged {state : ServerState ℚ}
    (budgeted : Budgeted direction session shaper state limiter) {found current : SessionState ℚ}
    (isFound : state.sessions.lookup session = some found)
    (uncharged : direction.Uncharged found current)
    (isShaper : direction.shaper current = shaper) : direction.bytes current = limiter := by
  have same : direction.shaper found = shaper := uncharged.1.symm.trans isShaper
  exact uncharged.2.trans (budgeted.bytes found isFound same)

theorem relaysOver_eq_nil {state : ServerState ℚ} {registration : Registration} {other : UInt32}
    {payload : Bytes} {now : Nat}
    (apart : other = session → ∀ found, state.sessions.lookup session = some found →
      ¬direction.takes found registration.key) :
    Task.relaysOver direction session shaper state now (.forward registration other payload) =
      [] := by
  unfold Task.relaysOver
  dsimp only
  split
  · rfl
  · next found isFound => exact if_neg fun charged => apart charged.1 found isFound charged.2.2

/-- `forward_relay` charges the direction its sender sends in, and no other. -/
theorem Budgeted.forwarding {state : ServerState ℚ}
    (budgeted : Budgeted direction session shaper state limiter) (registration : Registration)
    (other : UInt32) (payload : Bytes) (now : Nat) {current : SessionState ℚ}
    (isCurrent : (Server.forward state registration other payload now).state.sessions.lookup
      session = some current) (isShaper : direction.shaper current = shaper) :
    direction.bytes current =
      limiter.after ((Task.relaysOver direction session shaper state now
        (.forward registration other payload)).map Datagram.call) := by
  have forwarded := forwarded_forward state registration other payload now
  generalize Server.forward state registration other payload now = outcome at forwarded isCurrent
  -- A direction that is not charged keeps its budget.
  have uncharged : ∀ found, state.sessions.lookup session = some found →
      direction.Uncharged found current →
      (other = session → ¬direction.takes found registration.key) →
      direction.bytes current = limiter.after ((Task.relaysOver direction session shaper state now
        (.forward registration other payload)).map Datagram.call) := by
    intro found isFound same apart
    rw [relaysOver_eq_nil fun isSession again isAgain => by
      rw [isFound] at isAgain
      cases isAgain
      exact apart isSession]
    exact budgeted.of_uncharged isFound same isShaper
  have charged : ∀ found, other = session → state.sessions.lookup session = some found →
      direction.shaper found = shaper → direction.takes found registration.key →
      direction.bytes current = (direction.bytes found).call (Datagram.call ⟨payload, now⟩) →
      direction.bytes current = limiter.after ((Task.relaysOver direction session shaper state now
        (.forward registration other payload)).map Datagram.call) := by
    intro found same isFound sameShaper takes isCharged
    unfold Task.relaysOver
    dsimp only
    rw [isFound]
    dsimp only
    rw [if_pos ⟨same, sameShaper, takes⟩, isCharged, budgeted.bytes found isFound sameShaper]
    rfl
  cases forwarded with
  | refused stranger =>
      change state.sessions.lookup session = some current at isCurrent
      apply uncharged current isCurrent ⟨rfl, rfl⟩
      intro same takes
      have apart := stranger current (same ▸ isCurrent)
      cases direction with
      | aToB => exact apart.1 takes
      | bToA => exact apart.2 takes.2
  | aToB found isFound sender =>
      rw [(kept_afterCharge _ registration other payload _ _).sessions, HashMap.lookup_put]
        at isCurrent
      split at isCurrent
      · next same =>
          subst same
          cases isCurrent
          cases direction with
          | aToB => exact charged found rfl isFound isShaper sender rfl
          | bToA =>
              apply uncharged found isFound ⟨rfl, rfl⟩
              exact fun _ takes => takes.1 sender
      · next apart =>
          exact uncharged current isCurrent ⟨rfl, rfl⟩ fun same => absurd same.symm apart
  | bToA found isFound notA sender =>
      rw [(kept_afterCharge _ registration other payload _ _).sessions, HashMap.lookup_put]
        at isCurrent
      split at isCurrent
      · next same =>
          subst same
          cases isCurrent
          cases direction with
          | aToB =>
              apply uncharged found isFound ⟨rfl, rfl⟩
              exact fun _ takes => notA takes
          | bToA => exact charged found rfl isFound isShaper ⟨notA, sender⟩ rfl
      · next apart =>
          exact uncharged current isCurrent ⟨rfl, rfl⟩ fun same => absurd same.symm apart

theorem budgeted_run (crypto : Crypto) (state : ServerState ℚ) (handler : Handler)
    (ambient : Ambient) (task : Task)
    (budgeted : Budgeted direction session shaper state limiter) :
    Budgeted direction session shaper (task.run crypto state handler ambient).state
      (limiter.after
        ((task.relaysOver direction session shaper state ambient.now).map Datagram.call)) := by
  refine ⟨Nat.lt_of_lt_of_le budgeted.known (allocated_run crypto state handler ambient task), ?_⟩
  intro current isCurrent isShaper
  by_cases forwards : ∃ registration other payload, task = .forward registration other payload
  · obtain ⟨registration, other, payload, rfl⟩ := forwards
    exact budgeted.forwarding registration other payload ambient.now isCurrent isShaper
  · have silent : task.relaysOver direction session shaper state ambient.now = [] := by
      cases task with
      | forward registration other payload => exact absurd ⟨registration, other, payload, rfl⟩ forwards
      | _ => rfl
    rw [silent]
    show direction.bytes current = limiter
    have ofFound : ∀ found, state.sessions.lookup session = some found →
        direction.bytes current = limiter := by
      intro found isFound
      rcases spent_run crypto state handler ambient task isFound isCurrent with unspent | spent
      · exact budgeted.of_uncharged isFound (uncharged_of_unspent unspent) isShaper
      · obtain ⟨registration, payload, isForward, _⟩ := spent
        exact absurd ⟨registration, session, payload, isForward⟩ forwards
    by_cases opens : ∃ registration tag knock answeredAt,
        task = .answerOpen registration tag knock answeredAt
    · obtain ⟨registration, tag, knock, answeredAt, rfl⟩ := opens
      have opened := answerOpened_answerOpen state handler registration tag knock answeredAt ambient
      change (answerOpen state handler registration tag knock answeredAt
        ambient).state.sessions.lookup session = some current at isCurrent
      generalize answerOpen state handler registration tag knock answeredAt ambient = outcome
        at opened isCurrent
      cases opened with
      | ended => exact ofFound current isCurrent
      | drawing => exact ofFound current isCurrent
      | created fresh requester target isFree =>
          change (state.sessions.put fresh _).lookup session = some current at isCurrent
          rw [HashMap.lookup_put] at isCurrent
          split at isCurrent
          · cases isCurrent
            -- The shapers of a new session were not there before.
            have known := budgeted.known
            cases direction with
            | aToB =>
                change state.allocated = shaper at isShaper
                omega
            | bToA =>
                change state.allocated + 1 = shaper at isShaper
                omega
          · exact ofFound current isCurrent
    · obtain ⟨found, isFound, _⟩ := sessionsWithin_run crypto state handler ambient
        (fun registration tag knock answeredAt same =>
          opens ⟨registration, tag, knock, answeredAt, same⟩) session current isCurrent
      exact ofFound found isFound

theorem budgeted_step (crypto : Crypto) (world : World ℚ) (action : Action)
    (budgeted : Budgeted direction session shaper world.gate limiter) :
    Budgeted direction session shaper (world.step crypto action).gate
      (limiter.after ((world.relaysOver direction session shaper action).map Datagram.call)) := by
  unfold World.step World.relaysOver
  cases action with
  | connect key observed now =>
      dsimp only
      split
      · exact budgeted
      · obtain ⟨registrations, counters, cells, gate⟩ := connect_gate world key observed now
        rw [gate]
        exact ⟨Nat.lt_succ_of_lt budgeted.known, budgeted.bytes⟩
  | resume handler ambient =>
      dsimp only
      cases isAt : world.tasks.lookup handler with
      | none => exact budgeted
      | some task =>
          dsimp only
          split
          · next held =>
              have silent : task.relaysOver direction session shaper world.gate ambient.now = [] := by
                cases task with
                | forward => cases held
                | _ => rfl
              rw [silent]
              exact budgeted
          · exact budgeted_run crypto world.gate handler ambient task budgeted

/-- In every run the budget of a direction is that of the pattern in which its datagrams
arrive, for as long as the session lives. -/
theorem budgeted_run_actions (crypto : Crypto) (actions : List Action)
    (budgeted : Budgeted direction session shaper world.gate limiter) :
    Budgeted direction session shaper (run (World.step crypto) world actions).gate
      (limiter.after ((outputs (World.step crypto) (World.relaysOver direction session shaper) world
        actions).map Datagram.call)) := by
  induction actions generalizing world limiter with
  | nil => exact budgeted
  | cons action rest ih =>
      have later := ih (budgeted_step crypto world action budgeted)
      unfold RateLimiter.after at later ⊢
      rw [outputs, List.map_append, run_append]
      exact later

/-- A new session's budgets are full. -/
theorem budgeted_openSession (state : ServerState ℚ) (handler : Handler)
    (registration : Registration) (tag : Bytes32) (knock : KnockState) (answeredAt : Nat)
    (session : UInt32) (requester target : Registration) (now : Nat) :
    Budgeted .aToB session state.allocated
        (openSession state handler registration tag knock answeredAt session requester target
          now).state (RelayLimiter.new now).bytes ∧
      Budgeted .bToA session (state.allocated + 1)
        (openSession state handler registration tag knock answeredAt session requester target
          now).state (RelayLimiter.new now).bytes := by
  have present : (openSession state handler registration tag knock answeredAt session requester
      target now).state.sessions.lookup session = some
        { keyA := knock.requester, keyB := knock.target, startRequests := 0, openedAt := now,
          aToB := .new now, bToA := .new now, aToBShaper := state.allocated,
          bToAShaper := state.allocated + 1 } := by
    show (state.sessions.put session _).lookup session = _
    rw [HashMap.lookup_put, if_pos rfl]
  constructor
  · refine ⟨Nat.lt_add_of_pos_right (by decide), ?_⟩
    intro found isFound _
    rw [present] at isFound
    cases isFound
    rfl
  · refine ⟨Nat.lt_succ_self _, ?_⟩
    intro found isFound _
    rw [present] at isFound
    cases isFound
    rfl

end Budgets

end Runs

/-! ## The hourly caps -/

/-- A full bucket and an hour's refill are all that an hour can take. -/
theorem hourly_caps_double :
    (∀ (born : Nat) (instants : List Nat), (born :: instants).Pairwise (· ≤ ·) → ∀ start,
      (inHour start (forwarded (introduceBuckets born) instants)).length ≤
        2 * limits.introducePerHour) ∧
    ∀ (direction : Direction) (session : SessionState ℚ) (born : Nat) (datagrams : List Datagram),
      direction.bytes session = (RelayLimiter.new born).bytes →
      (born :: datagrams.map Datagram.now).Pairwise (· ≤ ·) → ∀ start,
      bytesInHour start (relayed direction session datagrams) ≤ 2 * limits.relayBytesPerHour := by
  constructor
  · intro born instants ordered start
    have made : (introduceBuckets born).2.Made := .perHour 60 60 born
    have orderedCalls : ((introduceBuckets born).2.last ::
        ((hourly (introduceBuckets born) instants).map introduceCall).map Call.now).Pairwise
          (· ≤ ·) := ordered_hourly ordered
    have bound := RateLimiter.takenWithin_le made orderedCalls start (fromSecs 3600)
    have whole : (introduceBuckets born).2.capacity +
        (introduceBuckets born).2.refillPerS * secs (fromSecs 3600) =
          ((2 * limits.introducePerHour : Nat) : ℚ) := by
      rw [secs_hour]
      show ((60 : Nat) : ℚ) + ((60 : Nat) : ℚ) / ((3600 : Nat) : ℚ) * 3600 = ((120 : Nat) : ℚ)
      norm_num
    rw [whole, takenWithin_introduces (forwarded_eq_taken instants).symm] at bound
    exact_mod_cast bound
  · intro direction session born datagrams fresh ordered start
    have made : (direction.bytes session).Made := by
      rw [fresh]
      exact .capacityPerHour _ born (Nat.cast_nonneg limits.relayBytesPerHour)
    have orderedCalls : ((direction.bytes session).last ::
        (datagrams.map Datagram.call).map Call.now).Pairwise (· ≤ ·) := by
      rw [fresh, List.map_map]
      exact ordered
    have bound := RateLimiter.takenWithin_le made orderedCalls start (fromSecs 3600)
    have whole : (direction.bytes session).capacity +
        (direction.bytes session).refillPerS * secs (fromSecs 3600) =
          ((2 * limits.relayBytesPerHour : Nat) : ℚ) := by
      rw [fresh, secs_hour]
      show ((limits.relayBytesPerHour : Nat) : ℚ) +
        ((limits.relayBytesPerHour : Nat) : ℚ) / ((3600 : Nat) : ℚ) * 3600 = _
      push_cast
      ring
    rw [whole, takenWithin_relays (relayed_eq_taken datagrams).symm] at bound
    exact_mod_cast bound

/-- Over any pattern of arrivals, in no hour more than 60 `Introduce`s of a registration
are forwarded and more than 2 GiB of a direction relayed exactly where all that a count of every
hour refuses is out of reach for the bucket. -/
theorem hourly_caps_iff (registered : Nat) (instants : List Nat) (direction : Direction)
    (session : SessionState ℚ) (opened : Nat) (datagrams : List Datagram)
    (asksOrdered : (registered :: instants).Pairwise (· ≤ ·))
    (fresh : direction.bytes session = (RelayLimiter.new opened).bytes)
    (datagramsOrdered : (opened :: datagrams.map Datagram.now).Pairwise (· ≤ ·)) :
    ((∀ start, (inHour start (forwarded (introduceBuckets registered) instants)).length ≤
        limits.introducePerHour) ↔
      SpentAhead limits.introducePerHour
        ((hourly (introduceBuckets registered) instants).map introduceCall)) ∧
    ((∀ start, bytesInHour start (relayed direction session datagrams) ≤
        limits.relayBytesPerHour) ↔
      SpentAhead limits.relayBytesPerHour (datagrams.map Datagram.call)) := by
  constructor
  · exact forwarded_capped_iff registered asksOrdered
  · exact relayed_capped_iff opened fresh datagramsOrdered

/-- A session that was opened when the clock started. -/
def openedAtZero : SessionState ℚ where
  keyA := zero32
  keyB := zero32
  startRequests := 0
  openedAt := 0
  aToB := .new 0
  bToA := .new 0
  aToBShaper := 0
  bToAShaper := 1

/-- An `Introduce` every eleven seconds. -/
def asksEvery (count : Nat) : List Nat := (List.range count).map fun round => fromSecs (11 * round)

/-- Three datagrams, the last of them more than an hour after the first. -/
def threeDatagrams : List Datagram :=
  [⟨[104, 105], 0⟩, ⟨[104], fromSecs 5⟩, ⟨[105], fromSecs 3601⟩]

/-- Sixty `Introduce`s and three datagrams keep within the caps. -/
theorem hourly_caps_iff_sixty :
    (∀ start, (inHour start (forwarded (introduceBuckets 0) (asksEvery 60))).length ≤
        limits.introducePerHour) ∧
      ∀ start, bytesInHour start (relayed .aToB openedAtZero threeDatagrams) ≤
        limits.relayBytesPerHour := by
  have caps := hourly_caps_iff 0 (asksEvery 60) .aToB openedAtZero 0 threeDatagrams
    (by decide +kernel) rfl (by decide)
  constructor
  · apply caps.1.mpr
    apply TokenBucket.outspent_of_total_le
    have inside : (hourly (introduceBuckets 0) (asksEvery 60)).Sublist (asksEvery 60) :=
      hourly_sublist _
    have fewer := TokenBucket.total_le_of_sublist ((inside.map introduceCall).map Call.demand)
    refine fewer.trans ?_
    decide +kernel
  · apply caps.2.mpr
    apply TokenBucket.outspent_of_total_le
    decide +kernel

/-- All 61 are forwarded, within eleven minutes. -/
theorem hourly_cap_exceeded :
    (0 :: asksEvery 61).Pairwise (· ≤ ·) ∧ limits.introducePerHour <
      (inHour 0 (forwarded (introduceBuckets 0) (asksEvery 61))).length := by
  decide +kernel

end Mosschat.Net.Gate.Server
