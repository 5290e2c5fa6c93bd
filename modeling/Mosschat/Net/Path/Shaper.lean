import Mathlib.Data.List.Induction
import Mosschat.Library.Machine
import Mosschat.Net.Path

/-!
Owns the runs of one relay shaper: what it accepted leaves in the order it came, is still
queued or was discarded by the close, and its counters count it.

Does not own the rate, nor who waits for room.
-/

namespace Mosschat.Net

open Mosschat.Library Mosschat.Library.Cbor Mosschat.Library.Machine Mosschat.Net.Gate

/-- The segments of one transmit, which are in memory together. -/
structure Transmit where
  segments : List Bytes
  fits : (segments.map List.length).sum < 2 ^ 64

/-- A call on a shaper. `RelayShaper::drain` loops over its passes until one is ready or
finds the queue closed; each pass is a call here, so that other calls may come between. -/
inductive ShaperCall where
  | tryEnqueueAll (transmit : Transmit) (now : Nat)
  | enqueueOrDrop (payload : Bytes) (now : Nat)
  | drain (now : Nat)
  | close

namespace RelayShaper

variable {F : Type} [F64 F]

def step (shaper : RelayShaper F) : ShaperCall → RelayShaper F
  | .tryEnqueueAll transmit now => (shaper.tryEnqueueAll transmit.segments now).1
  | .enqueueOrDrop payload now => (shaper.enqueueOrDrop payload now).1
  | .drain now => (shaper.drainPass now).1
  | .close => shaper.close

/-- What a call is answered, where it offers datagrams. -/
def answer (shaper : RelayShaper F) : ShaperCall → Option Enqueued
  | .tryEnqueueAll transmit now => some (shaper.tryEnqueueAll transmit.segments now).2
  | .enqueueOrDrop payload now => some (shaper.enqueueOrDrop payload now).2
  | .drain _ | .close => none

end RelayShaper

/-- The datagrams a call offers. -/
def ShaperCall.offered : ShaperCall → List Bytes
  | .tryEnqueueAll transmit _ => transmit.segments
  | .enqueueOrDrop payload _ => [payload]
  | .drain _ | .close => []

namespace RelayShaper

variable {F : Type} [F64 F]

/-! ## What a run gives out -/

/-- The datagrams a call has accepted. -/
def accepts (shaper : RelayShaper F) (call : ShaperCall) : List Bytes :=
  if shaper.answer call = some .accepted then call.offered else []

/-- The datagrams a call hands out. -/
def hands (shaper : RelayShaper F) : ShaperCall → List Bytes
  | .drain now =>
    match (shaper.drainPass now).2 with
    | .ready payloads => payloads
    | _ => []
  | _ => []

/-- The datagrams a call discards. -/
def discards (shaper : RelayShaper F) : ShaperCall → List Bytes
  | .close => shaper.items.map Prod.snd
  | _ => []

/-- The call's one datagram found the queue full. -/
def drops (shaper : RelayShaper F) : ShaperCall → List Unit
  | .enqueueOrDrop payload now =>
    if (shaper.enqueueOrDrop payload now).2 = .full then [()] else []
  | _ => []

/-- The call's transmit found no room. -/
def refuses (shaper : RelayShaper F) : ShaperCall → List Unit
  | .tryEnqueueAll transmit now =>
    if (shaper.tryEnqueueAll transmit.segments now).2 = .full then [()] else []
  | _ => []

/-! ## One call -/

omit [F64 F] in
/-- Every outcome of a transmit. -/
theorem tryEnqueueAll_cases (shaper : RelayShaper F) (payloads : List Bytes) (now : Nat) :
    payloads = [] ∧ shaper.tryEnqueueAll payloads now = (shaper, .accepted) ∨
      payloads ≠ [] ∧ shaper.closed = true ∧
        shaper.tryEnqueueAll payloads now = (shaper, .closed) ∨
      payloads ≠ [] ∧ shaper.closed = false ∧
        shaper.tryEnqueueAll payloads now =
          ({ shaper with backpressure := shaper.backpressure + 1 }, .full) ∨
      payloads ≠ [] ∧ shaper.closed = false ∧
        shaper.items.length + payloads.length ≤ shaper.depth ∧
        shaper.tryEnqueueAll payloads now =
          ({ shaper with
              items := shaper.items ++ payloads.map fun payload => (now, payload)
              queued := shaper.queued + UInt64.ofNat payloads.length
              bytes := shaper.bytes + transmitBytes payloads }, .accepted) := by
  cases payloads with
  | nil => exact Or.inl ⟨rfl, rfl⟩
  | cons payload rest =>
      right
      have offered : (payload :: rest) ≠ [] := List.cons_ne_nil _ _
      have notEmpty : ¬(payload :: rest).isEmpty = true := Bool.false_ne_true
      unfold tryEnqueueAll
      rw [if_neg notEmpty]
      cases isClosed : shaper.closed with
      | true => exact Or.inl ⟨offered, rfl, rfl⟩
      | false =>
          right
          rw [if_neg Bool.false_ne_true]
          by_cases full : shaper.depth < shaper.items.length + (payload :: rest).length
          · rw [if_pos full]
            exact Or.inl ⟨offered, rfl, rfl⟩
          · rw [if_neg full]
            exact Or.inr ⟨offered, rfl, Nat.le_of_not_lt full, rfl⟩

omit [F64 F] in
/-- Every outcome of one datagram. -/
theorem enqueueOrDrop_cases (shaper : RelayShaper F) (payload : Bytes) (now : Nat) :
    shaper.closed = true ∧ shaper.enqueueOrDrop payload now = (shaper, .closed) ∨
      shaper.closed = false ∧
        shaper.enqueueOrDrop payload now =
          ({ shaper with droppedAtFull := shaper.droppedAtFull + 1 }, .full) ∨
      shaper.closed = false ∧ shaper.items.length < shaper.depth ∧
        shaper.enqueueOrDrop payload now =
          ({ shaper with
              items := shaper.items ++ [(now, payload)]
              queued := shaper.queued + 1
              bytes := shaper.bytes + UInt64.ofNat payload.length }, .accepted) := by
  unfold enqueueOrDrop
  cases isClosed : shaper.closed with
  | true => exact Or.inl ⟨rfl, rfl⟩
  | false =>
      right
      rw [if_neg Bool.false_ne_true]
      by_cases full : shaper.depth ≤ shaper.items.length
      · rw [if_pos full]
        exact Or.inl ⟨rfl, rfl⟩
      · rw [if_neg full]
        exact Or.inr ⟨rfl, Nat.lt_of_not_le full, rfl⟩

/-- What a call that queues does to the queue. -/
structure Queues (shaper : RelayShaper F) (call : ShaperCall) : Prop where
  closed : (shaper.step call).closed = shaper.closed
  depth : (shaper.step call).depth = shaper.depth
  front : shaper.items <+: (shaper.step call).items
  refused : shaper.accepts call = [] → (shaper.step call).items = shaper.items
  afterClose : shaper.closed = true → (shaper.step call).items = shaper.items

theorem queues_of_same {shaper : RelayShaper F} {call : ShaperCall}
    (closed : (shaper.step call).closed = shaper.closed)
    (depth : (shaper.step call).depth = shaper.depth)
    (items : (shaper.step call).items = shaper.items) : Queues shaper call where
  closed := closed
  depth := depth
  front := by simp only [items, List.prefix_refl]
  refused _ := items
  afterClose _ := items

theorem queues_tryEnqueueAll (shaper : RelayShaper F) (transmit : Transmit) (now : Nat) :
    Queues shaper (.tryEnqueueAll transmit now) := by
  have isStep : shaper.step (.tryEnqueueAll transmit now) =
      (shaper.tryEnqueueAll transmit.segments now).1 := rfl
  rcases shaper.tryEnqueueAll_cases transmit.segments now with
    ⟨_, is⟩ | ⟨_, _, is⟩ | ⟨_, _, is⟩ | ⟨offered, isOpen, _, is⟩
  · apply queues_of_same <;> rw [isStep, is]
  · apply queues_of_same <;> rw [isStep, is]
  · apply queues_of_same <;> rw [isStep, is]
  · refine ⟨?_, ?_, ?_, ?_, ?_⟩
    · rw [isStep, is]
    · rw [isStep, is]
    · rw [isStep, is]
      exact List.prefix_append _ _
    · intro nothing
      have accepted : shaper.accepts (.tryEnqueueAll transmit now) = transmit.segments :=
        if_pos (congrArg some (congrArg Prod.snd is))
      exact absurd (accepted.symm.trans nothing) offered
    · intro isClosed
      rw [isOpen] at isClosed
      cases isClosed

theorem queues_enqueueOrDrop (shaper : RelayShaper F) (payload : Bytes) (now : Nat) :
    Queues shaper (.enqueueOrDrop payload now) := by
  have isStep : shaper.step (.enqueueOrDrop payload now) =
      (shaper.enqueueOrDrop payload now).1 := rfl
  rcases shaper.enqueueOrDrop_cases payload now with ⟨_, is⟩ | ⟨_, is⟩ | ⟨isOpen, _, is⟩
  · apply queues_of_same <;> rw [isStep, is]
  · apply queues_of_same <;> rw [isStep, is]
  · refine ⟨?_, ?_, ?_, ?_, ?_⟩
    · rw [isStep, is]
    · rw [isStep, is]
    · rw [isStep, is]
      exact List.prefix_append _ _
    · intro nothing
      have accepted : shaper.accepts (.enqueueOrDrop payload now) = [payload] :=
        if_pos (congrArg some (congrArg Prod.snd is))
      exact absurd (accepted.symm.trans nothing) (List.cons_ne_nil _ _)
    · intro isClosed
      rw [isOpen] at isClosed
      cases isClosed

/-- Every outcome of a pass: the queue stays as it is, or loses some of its front. -/
theorem drainPass_cases (shaper : RelayShaper F) (now : Nat) :
    shaper.closed = true ∧ shaper.drainPass now = (shaper, .closed) ∨
      shaper.closed = false ∧
        (shaper.drainPass now = (shaper.refill now, .idle) ∨
          shaper.drainPass now = (shaper.refill now, .sleep) ∨
          ∃ take tokens, shaper.drainPass now =
            ({ shaper.refill now with tokens := tokens, items := shaper.items.drop take },
              .ready ((shaper.items.take take).map Prod.snd))) := by
  unfold drainPass
  cases isClosed : shaper.closed with
  | true => exact Or.inl ⟨rfl, rfl⟩
  | false =>
      right
      rw [if_neg Bool.false_ne_true]
      by_cases empty : (shaper.refill now).items.isEmpty = true
      · exact ⟨rfl, Or.inl (if_pos empty)⟩
      · by_cases enough : F64.ge (shaper.refill now).tokens (F64.ofNat 1) = true
        · refine ⟨rfl, Or.inr (Or.inr ?_)⟩
          simp only
          rw [if_neg empty, if_pos enough]
          exact ⟨_, _, rfl⟩
        · refine ⟨rfl, Or.inr (Or.inl ?_)⟩
          simp only
          rw [if_neg empty, if_neg enough]

/-! ## The law of a run -/

section Law

variable (start : RelayShaper F) (calls : List ShaperCall)

/-- Everything the run has accepted, in the order of its acceptance. -/
def accepted : List Bytes := outputs step accepts start calls

/-- The batches the run has drained, one after the other. -/
def drained : List Bytes := outputs step hands start calls

/-- What the close of the run has discarded. -/
def discarded : List Bytes := outputs step discards start calls

/-- What a shaper that has taken `calls` holds and has counted. -/
structure Accounts (shaper : RelayShaper F) : Prop where
  within : shaper.items.length ≤ shaper.depth
  conserved : accepted start calls =
    drained start calls ++ (shaper.items.map Prod.snd ++ discarded start calls)
  keeps : shaper.closed = false → discarded start calls = []
  empty : shaper.closed = true → shaper.items = []
  isClosed : shaper.closed = true ↔ .close ∈ calls
  queued : shaper.queued = UInt64.ofNat (accepted start calls).length
  bytes : shaper.bytes = UInt64.ofNat ((accepted start calls).map List.length).sum
  droppedAtFull : shaper.droppedAtFull = UInt64.ofNat (outputs step drops start calls).length
  backpressure : shaper.backpressure = UInt64.ofNat (outputs step refuses start calls).length

end Law

/-- The saturating count of a transmit that is in memory is exact. -/
theorem transmitBytes_eq (transmit : Transmit) :
    transmitBytes transmit.segments =
      UInt64.ofNat (transmit.segments.map List.length).sum := by
  have general : ∀ (payloads : List Bytes) (initial : Nat),
      initial + (payloads.map List.length).sum < 2 ^ 64 →
        payloads.foldl (fun bytes payload => saturatingAddU64 bytes (UInt64.ofNat payload.length))
          (UInt64.ofNat initial) = UInt64.ofNat (initial + (payloads.map List.length).sum) := by
    intro payloads
    induction payloads with
    | nil =>
        intro initial _
        rfl
    | cons payload rest ih =>
        intro initial fits
        rw [List.map_cons, List.sum_cons] at fits ⊢
        have added : saturatingAddU64 (UInt64.ofNat initial) (UInt64.ofNat payload.length) =
            UInt64.ofNat (initial + payload.length) := by
          unfold saturatingAddU64
          rw [UInt64.toNat_ofNat', UInt64.toNat_ofNat', Nat.mod_eq_of_lt (by omega),
            Nat.mod_eq_of_lt (by omega), Nat.min_eq_left (by omega)]
        rw [List.foldl_cons, added, ih _ (by omega), Nat.add_assoc]
  have fits := transmit.fits
  have counted := general transmit.segments 0 (by omega)
  rw [Nat.zero_add] at counted
  exact counted

/-- A call that queues and hands out nothing and counts nothing leaves the account as it
was. -/
theorem Accounts.quiet {start shaper after : RelayShaper F} {calls : List ShaperCall}
    {next : ShaperCall} (isShaper : run step start calls = shaper)
    (accounts : Accounts start calls shaper)
    (notClose : next ≠ .close) (accepts : shaper.accepts next = []) (hands : shaper.hands next = [])
    (discards : shaper.discards next = [])
    (items : after.items = shaper.items) (depth : after.depth = shaper.depth)
    (closed : after.closed = shaper.closed) (queued : after.queued = shaper.queued)
    (bytes : after.bytes = shaper.bytes)
    (droppedAtFull : after.droppedAtFull =
      shaper.droppedAtFull + UInt64.ofNat (shaper.drops next).length)
    (backpressure : after.backpressure =
      shaper.backpressure + UInt64.ofNat (shaper.refuses next).length) :
    Accounts start (calls ++ [next]) after where
  within := by
    rw [items, depth]
    exact accounts.within
  conserved := by
    unfold accepted drained discarded
    rw [outputs_concat, outputs_concat, outputs_concat, isShaper, accepts, hands, discards, items,
      List.append_nil, List.append_nil, List.append_nil]
    exact accounts.conserved
  keeps := by
    intro isOpen
    unfold discarded
    rw [outputs_concat, isShaper, discards, List.append_nil]
    exact accounts.keeps (closed ▸ isOpen)
  empty := by
    intro isClosed
    rw [items]
    exact accounts.empty (closed ▸ isClosed)
  isClosed := by
    rw [closed, accounts.isClosed]
    simp [notClose.symm]
  queued := by
    unfold accepted
    rw [outputs_concat, isShaper, accepts, List.append_nil, queued]
    exact accounts.queued
  bytes := by
    unfold accepted
    rw [outputs_concat, isShaper, accepts, List.append_nil, bytes]
    exact accounts.bytes
  droppedAtFull := by
    rw [outputs_concat, isShaper, List.length_append, UInt64.ofNat_add, droppedAtFull,
      accounts.droppedAtFull]
  backpressure := by
    rw [outputs_concat, isShaper, List.length_append, UInt64.ofNat_add, backpressure,
      accounts.backpressure]

/-- What is accepted joins the end of the queue and is counted. -/
theorem Accounts.accept {start shaper after : RelayShaper F} {calls : List ShaperCall}
    {next : ShaperCall} (now : Nat) (isShaper : run step start calls = shaper)
    (accounts : Accounts start calls shaper) (isOpen : shaper.closed = false)
    (notClose : next ≠ .close) (accepts : shaper.accepts next = next.offered)
    (hands : shaper.hands next = []) (drops : shaper.drops next = [])
    (refuses : shaper.refuses next = [])
    (items : after.items = shaper.items ++ next.offered.map fun payload => (now, payload))
    (within : after.items.length ≤ after.depth)
    (closed : after.closed = shaper.closed)
    (queued : after.queued = shaper.queued + UInt64.ofNat next.offered.length)
    (bytes : after.bytes = shaper.bytes + UInt64.ofNat (next.offered.map List.length).sum)
    (droppedAtFull : after.droppedAtFull = shaper.droppedAtFull)
    (backpressure : after.backpressure = shaper.backpressure) :
    Accounts start (calls ++ [next]) after where
  within := within
  conserved := by
    have discards : shaper.discards next = [] := by
      cases next with
      | close => exact absurd rfl notClose
      | tryEnqueueAll | enqueueOrDrop | drain => rfl
    have payloads : after.items.map Prod.snd = shaper.items.map Prod.snd ++ next.offered := by
      rw [items, List.map_append, List.map_map]
      congr 1
      exact List.map_id _
    have nothing := accounts.keeps isOpen
    have conserved := accounts.conserved
    rw [nothing] at conserved
    unfold accepted drained discarded at *
    rw [outputs_concat, outputs_concat, outputs_concat, isShaper, accepts, hands, discards,
      payloads, conserved, nothing]
    simp only [List.append_nil, List.append_assoc]
  keeps := by
    intro stillOpen
    have nothing := accounts.keeps isOpen
    unfold discarded at nothing ⊢
    rw [outputs_concat, nothing, isShaper]
    cases next with
    | close => exact absurd rfl notClose
    | tryEnqueueAll | enqueueOrDrop | drain => rfl
  empty := by
    intro isClosed
    rw [closed, isOpen] at isClosed
    cases isClosed
  isClosed := by
    rw [closed, accounts.isClosed]
    simp [notClose.symm]
  queued := by
    unfold accepted
    rw [outputs_concat, isShaper, accepts, List.length_append, UInt64.ofNat_add, queued,
      accounts.queued]
    rfl
  bytes := by
    unfold accepted
    rw [outputs_concat, isShaper, accepts, List.map_append, List.sum_append, UInt64.ofNat_add,
      bytes, accounts.bytes]
    rfl
  droppedAtFull := by
    rw [outputs_concat, isShaper, drops, List.append_nil, droppedAtFull]
    exact accounts.droppedAtFull
  backpressure := by
    rw [outputs_concat, isShaper, refuses, List.append_nil, backpressure]
    exact accounts.backpressure

/-- A batch leaves from the front of the queue. -/
theorem Accounts.drain {start shaper after : RelayShaper F} {calls : List ShaperCall}
    {now take : Nat} (isShaper : run step start calls = shaper)
    (accounts : Accounts start calls shaper)
    (hands : shaper.hands (.drain now) = (shaper.items.take take).map Prod.snd)
    (items : after.items = shaper.items.drop take) (depth : after.depth = shaper.depth)
    (closed : after.closed = shaper.closed) (queued : after.queued = shaper.queued)
    (bytes : after.bytes = shaper.bytes) (droppedAtFull : after.droppedAtFull = shaper.droppedAtFull)
    (backpressure : after.backpressure = shaper.backpressure) :
    Accounts start (calls ++ [.drain now]) after := by
  have accepts : shaper.accepts (.drain now) = [] := if_neg (by simp [answer])
  constructor
  · have within := accounts.within
    rw [items, depth, List.length_drop]
    omega
  · have conserved := accounts.conserved
    have pieces : shaper.items.map Prod.snd =
        (shaper.items.take take).map Prod.snd ++ (shaper.items.drop take).map Prod.snd := by
      rw [← List.map_append, List.take_append_drop]
    unfold accepted drained discarded at conserved ⊢
    rw [outputs_concat, outputs_concat, outputs_concat, isShaper, accepts, hands, items, conserved,
      pieces]
    simp only [discards, List.append_nil, List.append_assoc]
  · intro isOpen
    have nothing := accounts.keeps (closed ▸ isOpen)
    unfold discarded at nothing ⊢
    rw [outputs_concat, nothing, isShaper]
    rfl
  · intro isClosed
    rw [items, accounts.empty (closed ▸ isClosed), List.drop_nil]
  · rw [closed, accounts.isClosed]
    simp
  · unfold accepted
    rw [outputs_concat, isShaper, accepts, List.append_nil, queued]
    exact accounts.queued
  · unfold accepted
    rw [outputs_concat, isShaper, accepts, List.append_nil, bytes]
    exact accounts.bytes
  · rw [outputs_concat, isShaper, droppedAtFull]
    simp only [drops, List.append_nil]
    exact accounts.droppedAtFull
  · rw [outputs_concat, isShaper, backpressure]
    simp only [refuses, List.append_nil]
    exact accounts.backpressure

/-- The close discards what is queued. -/
theorem Accounts.close {start shaper : RelayShaper F} {calls : List ShaperCall}
    (isShaper : run step start calls = shaper) (accounts : Accounts start calls shaper) :
    Accounts start (calls ++ [.close]) shaper.close := by
  have accepts : shaper.accepts .close = [] := if_neg (by simp [answer])
  constructor
  · exact Nat.zero_le _
  · have conserved := accounts.conserved
    have settled : shaper.items.map Prod.snd ++ discarded start calls =
        discarded start calls ++ shaper.items.map Prod.snd := by
      cases isClosed : shaper.closed with
      | true =>
          rw [accounts.empty isClosed]
          simp
      | false =>
          rw [accounts.keeps isClosed]
          simp
    rw [settled] at conserved
    unfold accepted drained discarded at conserved ⊢
    rw [outputs_concat, outputs_concat, outputs_concat, isShaper, accepts, conserved]
    simp only [hands, discards, RelayShaper.close, List.append_nil, List.map_nil, List.nil_append]
  · intro isOpen
    cases isOpen
  · intro _
    rfl
  · simp [RelayShaper.close]
  · unfold accepted
    rw [outputs_concat, isShaper, accepts, List.append_nil]
    exact accounts.queued
  · unfold accepted
    rw [outputs_concat, isShaper, accepts, List.append_nil]
    exact accounts.bytes
  · rw [outputs_concat, isShaper]
    simp only [drops, List.append_nil]
    exact accounts.droppedAtFull
  · rw [outputs_concat, isShaper]
    simp only [refuses, List.append_nil]
    exact accounts.backpressure

theorem accounts_step {start shaper : RelayShaper F} {calls : List ShaperCall}
    (isShaper : run step start calls = shaper) (accounts : Accounts start calls shaper)
    (next : ShaperCall) : Accounts start (calls ++ [next]) (shaper.step next) := by
  cases next with
  | close => exact accounts.close isShaper
  | drain now =>
      have accepts : shaper.accepts (.drain now) = [] := if_neg (by simp [answer])
      rcases drainPass_cases shaper now with
        ⟨-, passed⟩ | ⟨-, passed | passed | ⟨take, tokens, passed⟩⟩
      · have hands : shaper.hands (.drain now) = [] := by simp only [hands, passed]
        have unmoved : shaper.step (.drain now) = shaper := congrArg Prod.fst passed
        rw [unmoved]
        apply accounts.quiet isShaper (by simp) accepts hands <;> simp [discards, drops, refuses]
      · have hands : shaper.hands (.drain now) = [] := by simp only [hands, passed]
        have refilled : shaper.step (.drain now) = shaper.refill now := congrArg Prod.fst passed
        rw [refilled]
        apply accounts.quiet isShaper (by simp) accepts hands <;>
          simp [discards, drops, refuses, refill]
      · have hands : shaper.hands (.drain now) = [] := by simp only [hands, passed]
        have refilled : shaper.step (.drain now) = shaper.refill now := congrArg Prod.fst passed
        rw [refilled]
        apply accounts.quiet isShaper (by simp) accepts hands <;>
          simp [discards, drops, refuses, refill]
      · have hands : shaper.hands (.drain now) = (shaper.items.take take).map Prod.snd := by
          simp only [hands, passed]
        have left : shaper.step (.drain now) =
            { shaper.refill now with tokens := tokens, items := shaper.items.drop take } :=
          congrArg Prod.fst passed
        rw [left]
        exact accounts.drain isShaper hands rfl rfl rfl rfl rfl rfl rfl
  | enqueueOrDrop payload now =>
      rcases enqueueOrDrop_cases shaper payload now with
        ⟨-, offered⟩ | ⟨-, offered⟩ | ⟨isOpen, room, offered⟩
      · have accepts : shaper.accepts (.enqueueOrDrop payload now) = [] := by
          simp [accepts, answer, offered]
        have unmoved : shaper.step (.enqueueOrDrop payload now) = shaper := congrArg Prod.fst offered
        rw [unmoved]
        apply accounts.quiet isShaper (by simp) accepts rfl <;>
          simp [discards, drops, refuses, offered]
      · have accepts : shaper.accepts (.enqueueOrDrop payload now) = [] := by
          simp [accepts, answer, offered]
        have counted : shaper.step (.enqueueOrDrop payload now) =
            { shaper with droppedAtFull := shaper.droppedAtFull + 1 } := congrArg Prod.fst offered
        rw [counted]
        apply accounts.quiet isShaper (by simp) accepts rfl <;>
          simp [discards, drops, refuses, offered]
      · have accepts : shaper.accepts (.enqueueOrDrop payload now) =
            (ShaperCall.enqueueOrDrop payload now).offered := by simp [accepts, answer, offered]
        have joined : shaper.step (.enqueueOrDrop payload now) =
            { shaper with
              items := shaper.items ++ [(now, payload)]
              queued := shaper.queued + 1
              bytes := shaper.bytes + UInt64.ofNat payload.length } := congrArg Prod.fst offered
        rw [joined]
        refine accounts.accept now isShaper isOpen (by simp) accepts rfl ?_ rfl rfl ?_ rfl
          ?_ ?_ rfl rfl
        · simp [drops, offered]
        · rw [List.length_append, List.length_singleton]
          exact room
        · simp [ShaperCall.offered]
        · simp [ShaperCall.offered]
  | tryEnqueueAll transmit now =>
      rcases tryEnqueueAll_cases shaper transmit.segments now with
        ⟨empty, offered⟩ | ⟨-, -, offered⟩ | ⟨-, -, offered⟩ | ⟨-, isOpen, room, offered⟩
      · have accepts : shaper.accepts (.tryEnqueueAll transmit now) = [] := by
          simp [accepts, answer, ShaperCall.offered, empty]
        have unmoved : shaper.step (.tryEnqueueAll transmit now) = shaper :=
          congrArg Prod.fst offered
        rw [unmoved]
        apply accounts.quiet isShaper (by simp) accepts rfl <;>
          simp [discards, drops, refuses, offered]
      · have accepts : shaper.accepts (.tryEnqueueAll transmit now) = [] := by
          simp [accepts, answer, offered]
        have unmoved : shaper.step (.tryEnqueueAll transmit now) = shaper :=
          congrArg Prod.fst offered
        rw [unmoved]
        apply accounts.quiet isShaper (by simp) accepts rfl <;>
          simp [discards, drops, refuses, offered]
      · have accepts : shaper.accepts (.tryEnqueueAll transmit now) = [] := by
          simp [accepts, answer, offered]
        have counted : shaper.step (.tryEnqueueAll transmit now) =
            { shaper with backpressure := shaper.backpressure + 1 } := congrArg Prod.fst offered
        rw [counted]
        apply accounts.quiet isShaper (by simp) accepts rfl <;>
          simp [discards, drops, refuses, offered]
      · have accepts : shaper.accepts (.tryEnqueueAll transmit now) =
            (ShaperCall.tryEnqueueAll transmit now).offered := by simp [accepts, answer, offered]
        have joined : shaper.step (.tryEnqueueAll transmit now) =
            { shaper with
              items := shaper.items ++ transmit.segments.map fun payload => (now, payload)
              queued := shaper.queued + UInt64.ofNat transmit.segments.length
              bytes := shaper.bytes + transmitBytes transmit.segments } := congrArg Prod.fst offered
        rw [joined]
        refine accounts.accept now isShaper isOpen (by simp) accepts rfl rfl ?_ rfl ?_ rfl
          rfl ?_ rfl rfl
        · simp [refuses, offered]
        · rw [List.length_append, List.length_map]
          exact room
        · rw [transmitBytes_eq]
          rfl

theorem accounts_run (depth : Nat) (perSecond : F) (burst : Nat) (tokenCap : F) (now : Nat)
    (calls : List ShaperCall) :
    Accounts (new depth perSecond burst tokenCap now) calls
      (run step (new depth perSecond burst tokenCap now) calls) := by
  induction calls using List.reverseRecOn with
  | nil =>
      constructor
      · exact Nat.zero_le _
      · rfl
      · intro _
        rfl
      · intro _
        rfl
      · simp [new]
      · rfl
      · rfl
      · rfl
      · rfl
  | append_singleton calls next ih =>
      rw [run_concat]
      exact accounts_step rfl ih next

omit [F64 F] in
/-- A transmit that is not accepted queues none of its segments. -/
theorem items_of_refused {shaper : RelayShaper F} {payloads : List Bytes} {now : Nat}
    (refused : (shaper.tryEnqueueAll payloads now).2 ≠ .accepted) :
    (shaper.tryEnqueueAll payloads now).1.items = shaper.items := by
  rcases tryEnqueueAll_cases shaper payloads now with
    ⟨-, offered⟩ | ⟨-, -, offered⟩ | ⟨-, -, offered⟩ | ⟨-, -, -, offered⟩
  · rw [offered]
  · rw [offered]
  · rw [offered]
  · rw [offered] at refused
    exact absurd rfl refused

/-- Every run of a shaper, whatever is offered and when, obeys the law: the queue is within
its depth; what was accepted is what was drained, in order, then what is queued or was
discarded by the close; the counters count; a refused transmit queues nothing; and after a
close nothing is accepted or drained any more. -/
theorem shaper_law (depth : Nat) (perSecond : F) (burst : Nat) (tokenCap : F) (createdAt : Nat)
    (calls : List ShaperCall) :
    let start := new depth perSecond burst tokenCap createdAt
    let shaper := run step start calls
    Accounts start calls shaper ∧
      (∀ payloads now, (shaper.tryEnqueueAll payloads now).2 ≠ .accepted →
        (shaper.tryEnqueueAll payloads now).1.items = shaper.items) ∧
      (.close ∈ calls →
        (∀ payloads now, payloads ≠ [] → (shaper.tryEnqueueAll payloads now).2 = .closed) ∧
          (∀ payload now, (shaper.enqueueOrDrop payload now).2 = .closed) ∧
          ∀ now, (shaper.drainPass now).2 = .closed) := by
  intro start shaper
  have accounts : Accounts start calls shaper :=
    accounts_run depth perSecond burst tokenCap createdAt calls
  refine ⟨accounts, fun payloads now refused => items_of_refused refused, ?_⟩
  intro member
  have isClosed := accounts.isClosed.mpr member
  refine ⟨?_, ?_, ?_⟩
  · intro payloads now offered
    rcases tryEnqueueAll_cases shaper payloads now with
      ⟨empty, -⟩ | ⟨-, -, answered⟩ | ⟨-, isOpen, -⟩ | ⟨-, isOpen, -⟩
    · exact absurd empty offered
    · rw [answered]
    · rw [isClosed] at isOpen
      cases isOpen
    · rw [isClosed] at isOpen
      cases isOpen
  · intro payload now
    rw [enqueueOrDrop, if_pos isClosed]
  · intro now
    rw [drainPass, if_pos isClosed]

/-- A transmit of no segments is accepted after a close too. -/
theorem empty_transmit_accepted :
    ¬ ∀ (calls : List ShaperCall) (payloads : List Bytes) (now : Nat), .close ∈ calls →
      ((run step (house 0 : RelayShaper Nat) calls).tryEnqueueAll payloads now).2 = .closed := by
  intro refuses
  have refused := refuses [.close] [] 0 (List.mem_singleton.mpr rfl)
  cases refused

end RelayShaper

end Mosschat.Net
