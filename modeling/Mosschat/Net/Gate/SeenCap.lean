import Mathlib.Algebra.Group.Action.Defs
import Mathlib.Data.List.Dedup
import Mathlib.Data.List.Induction
import Mosschat.Net.Gate.HourlyCaps
import Mosschat.Net.Gate.Knocks

/-!
Owns when a house's seen set refuses a knock for being full: what the set holds after
any arrivals, and what the gate's limits let arrive in one window.

Does not own the accept decision that comes before the seen set.
-/

namespace Mosschat.Net.Gate

open Mosschat.Core Mosschat.Library Mosschat.Library.Cbor Mosschat.Library.Machine
open Mosschat.Net.Gate.Server (introduceBuckets chargeBoth introduceCall)

/-- A knock whose body was verified, as it comes to the seen set. The sweep and the
insertion read the clock each on its own. -/
structure Arrival where
  /-- The registration whose `Introduce` the gate forwarded. -/
  registration : Nat
  sealedBytes : Bytes
  sweptAt : Nat
  insertedAt : Nat
  inOrder : sweptAt ≤ insertedAt

namespace SeenSet

/-! ## Arrivals -/

/-- The set after an arrival. -/
def arrive (crypto : Crypto) (seen : SeenSet) (arrival : Arrival) : SeenSet :=
  (seen.accept crypto arrival.sealedBytes arrival.sweptAt arrival.insertedAt).1

/-- The arrival, where the set records it. -/
def records (crypto : Crypto) (seen : SeenSet) (arrival : Arrival) : List Arrival :=
  if (seen.accept crypto arrival.sealedBytes arrival.sweptAt arrival.insertedAt).2 then [arrival]
  else []

/-- The arrivals the set recorded. -/
def recorded (crypto : Crypto) (arrivals : List Arrival) : List Arrival :=
  outputs (arrive crypto) (records crypto) new arrivals

/-- Of some arrivals, those that were recorded less than a window before `now`. -/
def recent (now : Nat) (arrivals : List Arrival) : List Arrival :=
  arrivals.filter fun arrival => decide (now - arrival.insertedAt < limits.seenWindow)

/-- The clock never goes back from one arrival to the next. -/
def InOrder (arrivals : List Arrival) : Prop :=
  arrivals.Pairwise fun first second => first.insertedAt ≤ second.sweptAt

section Contents

variable {crypto : Crypto} {seen : SeenSet} {arrival : Arrival}

/-- `accept`, by what the swept set holds. -/
theorem accept_cases (crypto : Crypto) (seen : SeenSet) (arrival : Arrival) :
    (seen.accept crypto arrival.sealedBytes arrival.sweptAt arrival.insertedAt =
        (seen.sweep arrival.sweptAt, false) ∧
      ((seen.sweep arrival.sweptAt).entries.lookup (hash crypto arrival.sealedBytes) = none →
        limits.seenSetCap ≤ (seen.sweep arrival.sweptAt).entries.entries.length)) ∨
    (seen.accept crypto arrival.sealedBytes arrival.sweptAt arrival.insertedAt =
        (⟨(seen.sweep arrival.sweptAt).entries.put (hash crypto arrival.sealedBytes)
          arrival.insertedAt⟩, true) ∧
      (seen.sweep arrival.sweptAt).entries.lookup (hash crypto arrival.sealedBytes) = none ∧
      (seen.sweep arrival.sweptAt).entries.entries.length < limits.seenSetCap) := by
  unfold accept
  dsimp only
  split
  · next held =>
      refine Or.inl ⟨rfl, ?_⟩
      intro absent
      rw [absent] at held
      exact absurd held Bool.noConfusion
  · next absent =>
      have free := Option.not_isSome_iff_eq_none.mp absent
      split
      · next full => exact Or.inl ⟨rfl, fun _ => full⟩
      · next room => exact Or.inr ⟨rfl, free, not_le.mp room⟩

/-- What an arrival leaves as an entry. -/
def entry (crypto : Crypto) (arrival : Arrival) : Σ _ : Bytes16, Nat :=
  ⟨hash crypto arrival.sealedBytes, arrival.insertedAt⟩

theorem entries_sweep (seen : SeenSet) (now : Nat) :
    (seen.sweep now).entries.entries =
      seen.entries.entries.filter fun held => decide (now - held.2 < limits.seenWindow) := rfl

/-- Sweeping in between changes nothing. -/
theorem entries_sweep_sweep (seen : SeenSet) {earlier now : Nat} (order : earlier ≤ now) :
    ((seen.sweep earlier).sweep now).entries.entries = (seen.sweep now).entries.entries := by
  rw [entries_sweep, entries_sweep, entries_sweep, List.filter_filter]
  apply List.filter_congr
  intro held _
  rw [← Bool.decide_and]
  apply decide_eq_decide.mpr
  constructor
  · exact And.left
  · intro young
    exact ⟨young, by omega⟩

theorem entries_put_of_absent {map : HashMap Bytes16 Nat} {digest : Bytes16} {instant : Nat}
    (absent : map.lookup digest = none) :
    (map.put digest instant).entries = ⟨digest, instant⟩ :: map.entries := by
  have free : digest ∉ map := AList.lookup_eq_none.mp absent
  rw [HashMap.put, if_neg free, AList.entries_insert_of_notMem free]

/-- At any later instant the set holds what was recorded and is still recent. -/
def Mirrors (crypto : Crypto) (seen : SeenSet) (accepted : List Arrival) (last : Nat) : Prop :=
  ∀ now, last ≤ now →
    (seen.sweep now).entries.entries.Perm ((recent now accepted).map (entry crypto))

theorem Mirrors.arrive {accepted : List Arrival} {last : Nat}
    (mirrors : Mirrors crypto seen accepted last) (order : last ≤ arrival.sweptAt) :
    Mirrors crypto (arrive crypto seen arrival) (accepted ++ records crypto seen arrival)
      arrival.insertedAt := by
  intro now after
  have sweptBefore : arrival.sweptAt ≤ now := arrival.inOrder.trans after
  have before := mirrors now (order.trans sweptBefore)
  unfold SeenSet.arrive records
  rcases accept_cases crypto seen arrival with ⟨refused, _⟩ | ⟨isAccepted, absent, _⟩
  · rw [refused, if_neg Bool.noConfusion, List.append_nil, entries_sweep_sweep seen sweptBefore]
    exact before
  · rw [isAccepted, if_pos rfl]
    rw [← entries_sweep_sweep seen sweptBefore] at before
    unfold recent at before ⊢
    rw [List.filter_append, List.map_append]
    show (((seen.sweep arrival.sweptAt).entries.put _ arrival.insertedAt).entries.filter _).Perm _
    rw [entries_put_of_absent absent]
    refine List.Perm.trans ?_ List.perm_append_comm
    by_cases young : now - arrival.insertedAt < limits.seenWindow
    · rw [List.filter_cons_of_pos (by exact decide_eq_true young),
        List.filter_cons_of_pos (by exact decide_eq_true young)]
      exact before.cons _
    · have old : ¬decide (now - arrival.insertedAt < limits.seenWindow) = true :=
        fun isYoung => young (of_decide_eq_true isYoung)
      rw [List.filter_cons_of_neg (by exact old), List.filter_cons_of_neg (by exact old)]
      exact before

end Contents

section Runs

variable {crypto : Crypto}

end Runs

/-! ## What the gate lets arrive -/

/-- The instant is in the window that opens at `start`, or at its end. -/
def inWindow (start now : Nat) : Bool := decide (start ≤ now ∧ now ≤ start + limits.seenWindow)

section Deluge

/-- Bodies apart in their first two bytes. -/
def numberedBody (number : Nat) : Bytes := [UInt8.ofNat (number / 256), UInt8.ofNat number]

/-- So many connections take turns: six rounds at once, then one each eleven seconds. -/
def turnArrival (width number : Nat) : Arrival where
  registration := number % width
  sealedBytes := numberedBody number
  sweptAt := fromSecs (11 * (number / width - 5))
  insertedAt := fromSecs (11 * (number / width - 5))
  inOrder := le_refl _

/-- Nine rounds. -/
@[irreducible] def turns (width : Nat) : List Arrival :=
  (List.range (width * 9)).map (turnArrival width)

end Deluge

end SeenSet

end Mosschat.Net.Gate
