import Mathlib.Data.List.Count

/-!
Owns a counter that clients take slots of by compare-exchange: what one turn of a client does,
that no interleaving of turns lets in more than the cap, and what a client that is turned away
has read.

Does not own what a slot is for.
-/

namespace Mosschat.Library

/-- Where a client stands. -/
inductive SlotPhase where
  | outside
  /-- It has read the counter, and will exchange what it read. -/
  | attempting (read : Nat)
  | holding
deriving DecidableEq

/-- One atomic turn of a client, from the counter and its phase to those after it. -/
inductive SlotTurn (cap : Nat) : Nat → SlotPhase → Nat → SlotPhase → Prop where
  | idles (count : Nat) (phase : SlotPhase) : SlotTurn cap count phase count phase
  | loads (count : Nat) : SlotTurn cap count .outside count (.attempting count)
  | refused {count read : Nat} (full : cap ≤ read) :
      SlotTurn cap count (.attempting read) count .outside
  | takes {count : Nat} (room : count < cap) :
      SlotTurn cap count (.attempting count) (count + 1) .holding
  /-- The exchange failed, as a weak one may on the value it expects. -/
  | retries (count read : Nat) : SlotTurn cap count (.attempting read) count (.attempting count)
  | gives (count : Nat) : SlotTurn cap (count + 1) .holding count .outside

/-- What a client has read, it had read before its turn, or the counter is. -/
theorem SlotTurn.attempting {cap count later read : Nat} {before : SlotPhase}
    (turn : SlotTurn cap count before later (.attempting read)) :
    before = .attempting read ∨ count = read := by
  cases turn with
  | idles => exact Or.inl rfl
  | loads => exact Or.inr rfl
  | retries => exact Or.inr rfl

/-- The counter, and its clients. -/
structure Semaphore where
  count : Nat
  clients : List SlotPhase
deriving DecidableEq

namespace Semaphore

/-- How many slots are held. -/
def held (semaphore : Semaphore) : Nat := semaphore.clients.count .holding

/-- The counter counts the slots that are held, which are no more than there are. -/
structure Sound (cap : Nat) (semaphore : Semaphore) : Prop where
  counts : semaphore.count = semaphore.held
  within : semaphore.count ≤ cap

variable {cap : Nat} {semaphore : Semaphore}

theorem sound_empty : Sound cap ⟨0, []⟩ := ⟨rfl, Nat.zero_le cap⟩

/-- A client that joins holds nothing. -/
theorem Sound.joins (sound : semaphore.Sound cap) :
    Sound cap ⟨semaphore.count, semaphore.clients ++ [.outside]⟩ where
  counts := by
    have counts := sound.counts
    show semaphore.count = (semaphore.clients ++ [SlotPhase.outside]).count SlotPhase.holding
    rw [List.count_append]
    exact counts
  within := sound.within

/-- A client that is found in a phase is one of those that are held where that is. -/
theorem held_pos {client : Nat} (found : semaphore.clients[client]? = some .holding) :
    0 < semaphore.held :=
  List.count_pos_iff.mpr (List.mem_of_getElem? found)

/-- A client that moves between two phases gives back the slot it held, and takes the one it
holds. -/
theorem held_set {client : Nat} {before : SlotPhase} (after : SlotPhase)
    (found : semaphore.clients[client]? = some before) :
    (semaphore.clients.set client after).count .holding + (if before = .holding then 1 else 0) =
      semaphore.held + (if after = .holding then 1 else 0) := by
  obtain ⟨inside, isBefore⟩ := List.getElem?_eq_some_iff.mp found
  have moved : (semaphore.clients.set client after).count .holding =
      semaphore.held - (if before = .holding then 1 else 0) +
        (if after = .holding then 1 else 0) := by
    rw [List.count_set inside, isBefore]
    simp only [beq_iff_eq]
    rfl
  rw [moved]
  by_cases gives : before = .holding
  · rw [gives] at found
    have present := held_pos found
    rw [if_pos gives]
    omega
  · rw [if_neg gives]
    omega

/-- Whatever turn a client takes, the counter counts on. -/
theorem Sound.turns (sound : semaphore.Sound cap) {client later : Nat} {before after : SlotPhase}
    (found : semaphore.clients[client]? = some before)
    (turn : SlotTurn cap semaphore.count before later after) :
    Sound cap ⟨later, semaphore.clients.set client after⟩ := by
  have counts := sound.counts
  have within := sound.within
  have moved := held_set after found
  generalize isCount : semaphore.count = counter at turn counts within
  cases turn with
  | idles =>
      refine ⟨?_, within⟩
      show later = (semaphore.clients.set client before).count .holding
      omega
  | loads =>
      refine ⟨?_, within⟩
      show later = (semaphore.clients.set client _).count .holding
      simp only [reduceCtorEq, if_false] at moved
      omega
  | refused full =>
      refine ⟨?_, within⟩
      show later = (semaphore.clients.set client _).count .holding
      simp only [reduceCtorEq, if_false] at moved
      omega
  | takes room =>
      refine ⟨?_, room⟩
      show counter + 1 = (semaphore.clients.set client _).count .holding
      simp only [reduceCtorEq, if_false, if_true] at moved
      omega
  | retries =>
      refine ⟨?_, within⟩
      show later = (semaphore.clients.set client _).count .holding
      simp only [reduceCtorEq, if_false] at moved
      omega
  | gives =>
      refine ⟨?_, Nat.le_of_succ_le within⟩
      show later = (semaphore.clients.set client _).count .holding
      simp only [reduceCtorEq, if_false, if_true] at moved
      omega

end Semaphore

end Mosschat.Library
