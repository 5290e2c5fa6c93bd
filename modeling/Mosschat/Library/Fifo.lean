import Mosschat.Library.HashMap

/-!
Owns the bounded memory of a map and a queue: the queue holds the keys in the order
they came, and the oldest are forgotten until no more than a cap are left.

Does not own what is remembered.
-/

namespace Mosschat.Library.Fifo

universe u v

variable {κ : Type u} {ν : Type v} [DecidableEq κ]

/-- Pop the front of the queue and remove it from the map, while more than `cap` keys
are queued. -/
def evict (cap : Nat) : List κ → HashMap κ ν → List κ × HashMap κ ν
  | [], map => ([], map)
  | oldest :: rest, map =>
      if cap < rest.length + 1 then evict cap rest (map.erase oldest) else (oldest :: rest, map)

theorem evict_cons (cap : Nat) (oldest : κ) (rest : List κ) (map : HashMap κ ν) :
    evict cap (oldest :: rest) map =
      if cap < rest.length + 1 then evict cap rest (map.erase oldest) else (oldest :: rest, map) :=
  rfl

theorem evict_of_le {cap : Nat} {order : List κ} (map : HashMap κ ν)
    (within : order.length ≤ cap) : evict cap order map = (order, map) := by
  cases order with
  | nil => rfl
  | cons oldest rest =>
      have fits : ¬cap < rest.length + 1 := Nat.not_lt.mpr within
      rw [evict_cons, if_neg fits]

/-- One key over the cap costs the oldest one. -/
theorem evict_of_length_eq {cap : Nat} {oldest : κ} {rest : List κ} (map : HashMap κ ν)
    (full : rest.length = cap) :
    evict cap (oldest :: rest) map = (rest, map.erase oldest) := by
  have tooMany : cap < rest.length + 1 := by omega
  rw [evict_cons, if_pos tooMany]
  exact evict_of_le _ (Nat.le_of_eq full)

/-- A key that is not among those over the cap is kept. -/
theorem lookup_evict {cap : Nat} {order : List κ} {map : HashMap κ ν} {key : κ}
    (kept : key ∉ order.take (order.length - cap)) :
    (evict cap order map).2.lookup key = map.lookup key := by
  induction order generalizing map with
  | nil => rfl
  | cons oldest rest ih =>
      rw [evict_cons]
      split_ifs with tooMany
      · have width : (oldest :: rest).length - cap = rest.length - cap + 1 := by
          rw [List.length_cons]
          omega
        rw [width, List.take_succ_cons, List.mem_cons, not_or] at kept
        rw [ih kept.2, HashMap.lookup_erase, if_neg kept.1]
      · rfl

/-- Nothing comes to be held by forgetting. -/
theorem lookup_of_evict {cap : Nat} {order : List κ} {map : HashMap κ ν} {key : κ} {value : ν}
    (found : (evict cap order map).2.lookup key = some value) : map.lookup key = some value := by
  induction order generalizing map with
  | nil => exact found
  | cons oldest rest ih =>
      rw [evict_cons] at found
      split_ifs at found
      · have before := ih found
        rw [HashMap.lookup_erase] at before
        split_ifs at before
        exact before
      · exact found

/-- A key among those over the cap is forgotten. -/
theorem lookup_evict_of_mem {cap : Nat} {order : List κ} {map : HashMap κ ν} {key : κ}
    (pushed : key ∈ order.take (order.length - cap)) :
    (evict cap order map).2.lookup key = none := by
  induction order generalizing map with
  | nil =>
      rw [List.take_nil] at pushed
      cases pushed
  | cons oldest rest ih =>
      rw [evict_cons]
      split_ifs with tooMany
      · have width : (oldest :: rest).length - cap = rest.length - cap + 1 := by
          rw [List.length_cons]
          omega
        rw [width, List.take_succ_cons, List.mem_cons] at pushed
        by_cases inRest : key ∈ rest.take (rest.length - cap)
        · exact ih inRest
        · have isOldest := pushed.resolve_right inRest
          rw [lookup_evict inRest, HashMap.lookup_erase, if_pos isOldest]
      · have width : (oldest :: rest).length - cap = 0 := by
          rw [List.length_cons]
          omega
        rw [width] at pushed
        cases pushed

theorem length_evict_le (cap : Nat) (order : List κ) (map : HashMap κ ν) :
    (evict cap order map).1.length ≤ order.length := by
  induction order generalizing map with
  | nil => exact Nat.le_refl _
  | cons oldest rest ih =>
      rw [evict_cons]
      split_ifs
      · exact Nat.le_succ_of_le (ih (map.erase oldest))
      · exact Nat.le_refl _

/-! ## The queue and the map agree -/

/-- The queue holds every key of the map once, and no other. -/
structure Queued (order : List κ) (map : HashMap κ ν) : Prop where
  nodup : order.Nodup
  held : ∀ key, key ∈ order ↔ (map.lookup key).isSome

theorem queued_empty : Queued ([] : List κ) (∅ : HashMap κ ν) := by
  constructor
  · exact List.nodup_nil
  · intro key
    rw [AList.lookup_empty]
    simp

theorem Queued.not_mem {order : List κ} {map : HashMap κ ν} {key : κ} (queued : Queued order map)
    (vacant : map.lookup key = none) : key ∉ order := by
  rw [queued.held, vacant]
  exact Bool.false_ne_true

/-- A key that is held is refreshed in place. -/
theorem Queued.refresh {order : List κ} {map : HashMap κ ν} {key : κ} {before : ν}
    (queued : Queued order map) (found : map.lookup key = some before) (value : ν) :
    Queued order (map.put key value) := by
  constructor
  · exact queued.nodup
  · intro other
    rw [queued.held, HashMap.lookup_put]
    split_ifs with isKey
    · rw [isKey, found]
      rfl
    · rfl

/-- A new key joins at the back. -/
theorem Queued.push {order : List κ} {map : HashMap κ ν} {key : κ} (queued : Queued order map)
    (vacant : map.lookup key = none) (value : ν) :
    Queued (order ++ [key]) (map.put key value) := by
  constructor
  · rw [List.nodup_append]
    refine ⟨queued.nodup, List.nodup_singleton key, ?_⟩
    intro other inside single isSingle same
    rw [List.mem_singleton] at isSingle
    exact queued.not_mem vacant (isSingle ▸ same ▸ inside)
  · intro other
    rw [List.mem_append, List.mem_singleton, queued.held, HashMap.lookup_put]
    split_ifs with isKey
    · simp [isKey]
    · simp [isKey]

/-- Forgetting the oldest keeps the two in agreement. -/
theorem Queued.evict {cap : Nat} {order : List κ} {map : HashMap κ ν}
    (queued : Queued order map) : Queued (evict cap order map).1 (evict cap order map).2 := by
  induction order generalizing map with
  | nil => exact queued
  | cons oldest rest ih =>
      rw [evict_cons]
      split_ifs
      · apply ih
        obtain ⟨fresh, nodup⟩ := List.nodup_cons.mp queued.nodup
        refine ⟨nodup, ?_⟩
        intro key
        have held := queued.held key
        rw [List.mem_cons] at held
        rw [HashMap.lookup_erase]
        split_ifs with isOldest
        · rw [isOldest]
          simpa using fresh
        · rw [← held]
          simp [isOldest]
      · exact queued

end Mosschat.Library.Fifo
