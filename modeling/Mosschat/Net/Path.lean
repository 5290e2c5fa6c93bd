import Mosschat.Net.Gate

/-!
Owns the relay shaper of `path.rs`: one direction's queue, filled by the datagrams of a
session and emptied at a rate.

Does not own the wakers and the delay statistics of a shaper, nor the path table.
-/

namespace Mosschat.Net

open Mosschat.Library.Cbor Mosschat.Net.Gate

def houseRelayQueueDepth : Nat := 100
def gateRelayQueueDepth : Nat := 24
def houseDrainBurst : Nat := 8
def houseTokenCap : Nat := 16

/-- `GATE_RELAY_RATE_HEADROOM`, in tenths. -/
def gateRelayRateHeadroomTenths : Nat := 11

/-- `u64::saturating_add`. -/
def saturatingAddU64 (left right : UInt64) : UInt64 :=
  UInt64.ofNat (min (left.toNat + right.toNat) (2 ^ 64 - 1))

/-- `Enqueued`. -/
inductive Enqueued where
  | accepted
  | full
  | closed
deriving DecidableEq

/-- `RelayShaper`: its numbers, its queue and its counters. -/
structure RelayShaper (F : Type) where
  depth : Nat
  perSecond : F
  tokenCap : F
  burst : Nat
  /-- The queued datagrams and when each was queued, the next to leave first. -/
  items : List (Nat × Bytes)
  tokens : F
  lastRefill : Nat
  closed : Bool
  queued : UInt64
  bytes : UInt64
  droppedAtFull : UInt64
  backpressure : UInt64

namespace RelayShaper

variable {F : Type} [F64 F]

/-- `RelayShaper::new`. -/
def new (depth : Nat) (perSecond : F) (burst : Nat) (tokenCap : F) (now : Nat) :
    RelayShaper F where
  depth := depth
  perSecond := perSecond
  tokenCap := tokenCap
  burst := burst
  items := []
  tokens := F64.ofNat 0
  lastRefill := now
  closed := false
  queued := 0
  bytes := 0
  droppedAtFull := 0
  backpressure := 0

/-- `RelayShaper::house`. -/
def house (now : Nat) : RelayShaper F :=
  new houseRelayQueueDepth (F64.ofNat limits.relayDatagramsPerSecond) houseDrainBurst
    (F64.ofNat houseTokenCap) now

/-- `RelayShaper::gate`. -/
def gate (now : Nat) : RelayShaper F where
  depth := gateRelayQueueDepth
  perSecond := F64.mul (F64.ofNat limits.relayDatagramsPerSecond)
    (F64.div (F64.ofNat gateRelayRateHeadroomTenths) (F64.ofNat 10))
  tokenCap := F64.ofNat gateRelayQueueDepth
  burst := gateRelayQueueDepth
  items := []
  tokens := F64.ofNat 0
  lastRefill := now
  closed := false
  queued := 0
  bytes := 0
  droppedAtFull := 0
  backpressure := 0

/-- The bytes of one transmit, counted with `u64::saturating_add`. -/
def transmitBytes (payloads : List Bytes) : UInt64 :=
  payloads.foldl (fun bytes payload => saturatingAddU64 bytes (UInt64.ofNat payload.length)) 0

/-- `RelayShaper::try_enqueue_all`. -/
def tryEnqueueAll (shaper : RelayShaper F) (payloads : List Bytes) (now : Nat) :
    RelayShaper F × Enqueued :=
  if payloads.isEmpty then (shaper, .accepted)
  else if shaper.closed then (shaper, .closed)
  else if shaper.depth < shaper.items.length + payloads.length then
    ({ shaper with backpressure := shaper.backpressure + 1 }, .full)
  else
    ({ shaper with
        items := shaper.items ++ payloads.map fun payload => (now, payload)
        queued := shaper.queued + UInt64.ofNat payloads.length
        bytes := shaper.bytes + transmitBytes payloads }, .accepted)

/-- `RelayShaper::enqueue_or_drop`. -/
def enqueueOrDrop (shaper : RelayShaper F) (payload : Bytes) (now : Nat) :
    RelayShaper F × Enqueued :=
  if shaper.closed then (shaper, .closed)
  else if shaper.depth ≤ shaper.items.length then
    ({ shaper with droppedAtFull := shaper.droppedAtFull + 1 }, .full)
  else
    ({ shaper with
        items := shaper.items ++ [(now, payload)]
        queued := shaper.queued + 1
        bytes := shaper.bytes + UInt64.ofNat payload.length }, .accepted)

/-- `RelayShaper::close`. -/
def close (shaper : RelayShaper F) : RelayShaper F := { shaper with closed := true, items := [] }

/-- `Next`: what one pass of `RelayShaper::drain` finds. -/
inductive Next where
  | ready (payloads : List Bytes)
  | sleep
  | idle
  | closed

/-- `RelayShaper::refill`. -/
def refill (shaper : RelayShaper F) (now : Nat) : RelayShaper F :=
  let elapsed := F64.asSecs (now - shaper.lastRefill)
  let tokens := F64.min (F64.add shaper.tokens (F64.mul elapsed shaper.perSecond)) shaper.tokenCap
  { shaper with lastRefill := now, tokens := tokens }

/-- One pass of `RelayShaper::drain` under its lock. -/
def drainPass (shaper : RelayShaper F) (now : Nat) : RelayShaper F × Next :=
  if shaper.closed then (shaper, .closed)
  else
    let shaper := shaper.refill now
    if shaper.items.isEmpty then (shaper, .idle)
    else if F64.ge shaper.tokens (F64.ofNat 1) then
      let budget := F64.floor shaper.tokens
      let take := max (min (min budget shaper.items.length) shaper.burst) 1
      ({ shaper with
          tokens := F64.sub shaper.tokens (F64.ofNat take)
          items := shaper.items.drop take }, .ready ((shaper.items.take take).map Prod.snd))
    else (shaper, .sleep)

/-! ## What each operation does to the queue -/

omit [F64 F] in
theorem enqueueOrDrop_closed (shaper : RelayShaper F) (payload : Bytes) (now : Nat) :
    (shaper.enqueueOrDrop payload now).1.closed = shaper.closed := by
  unfold enqueueOrDrop
  split
  · rfl
  · split <;> rfl

omit [F64 F] in
/-- A datagram joins the end of an open queue, or the queue stays as it is. -/
theorem enqueueOrDrop_items (shaper : RelayShaper F) (payload : Bytes) (now : Nat) :
    (shaper.enqueueOrDrop payload now).1.items = shaper.items ∨
      shaper.closed = false ∧
        (shaper.enqueueOrDrop payload now).1.items = shaper.items ++ [(now, payload)] := by
  unfold enqueueOrDrop
  split
  · exact Or.inl rfl
  · next isOpen =>
      split
      · exact Or.inl rfl
      · exact Or.inr ⟨Bool.eq_false_of_not_eq_true isOpen, rfl⟩

theorem drainPass_closed (shaper : RelayShaper F) (now : Nat) :
    (shaper.drainPass now).1.closed = shaper.closed := by
  unfold drainPass
  split
  · rfl
  · simp only
    split
    · rfl
    · split <;> rfl

/-- A pass takes from the front. -/
theorem drainPass_items (shaper : RelayShaper F) (now : Nat) :
    (shaper.drainPass now).1.items <:+ shaper.items := by
  unfold drainPass
  split
  · exact List.suffix_refl shaper.items
  · simp only
    split
    · exact List.suffix_refl shaper.items
    · split
      · exact List.drop_suffix _ shaper.items
      · exact List.suffix_refl shaper.items

/-- What a pass hands out was queued. -/
theorem mem_items_of_drainPass {shaper : RelayShaper F} {now : Nat} {payloads : List Bytes}
    (ready : (shaper.drainPass now).2 = .ready payloads) {payload : Bytes}
    (member : payload ∈ payloads) : ∃ queuedAt, (queuedAt, payload) ∈ shaper.items := by
  unfold drainPass at ready
  split at ready
  · cases ready
  · simp only at ready
    split at ready
    · cases ready
    · split at ready
      · cases ready
        obtain ⟨⟨queuedAt, _⟩, inside, rfl⟩ := List.mem_map.mp member
        exact ⟨queuedAt, List.mem_of_mem_take inside⟩
      · cases ready

end RelayShaper

end Mosschat.Net
