import Mathlib.Data.List.Basic

/-!
Owns a log that only grows, and the latest of its entries that meet a mark.

Does not own what is logged.
-/

namespace Mosschat.Library.Log

universe u

variable {ε : Type u} {mark : ε → Prop} {log : List ε} {position : Nat} {entry other : ε}

/-- The entry is at this position, meets the mark, and no later one does. -/
structure Latest (mark : ε → Prop) (log : List ε) (position : Nat) (entry : ε) : Prop where
  recorded : log[position]? = some entry
  marked : mark entry
  last : ∀ later other, position < later → log[later]? = some other → ¬mark other

theorem lt_length_of_getElem? (found : log[position]? = some entry) : position < log.length :=
  (List.getElem?_eq_some_iff.mp found).1

/-- What has been logged stays where it is. -/
theorem getElem?_append {more : List ε} (found : log[position]? = some entry) :
    (log ++ more)[position]? = some entry := by
  rw [List.getElem?_append_left (lt_length_of_getElem? found)]
  exact found

/-- An entry of the longer log is an old one in its place, or one of the new ones. -/
theorem getElem?_append_cases {more : List ε} (found : (log ++ more)[position]? = some entry) :
    log[position]? = some entry ∨ entry ∈ more := by
  rw [List.getElem?_append] at found
  split at found
  · exact Or.inl found
  · exact Or.inr (List.mem_of_getElem? found)

/-- What is found in a front of the log is at that place of the log. -/
theorem getElem?_of_take {width : Nat} (found : (log.take width)[position]? = some entry) :
    log[position]? = some entry := by
  rw [List.getElem?_take] at found
  split at found
  · exact found
  · cases found

namespace Latest

theorem lt_length (latest : Latest mark log position entry) : position < log.length :=
  lt_length_of_getElem? latest.recorded

/-- A marked entry is the latest when it is logged. -/
theorem concat_self (marked : mark entry) : Latest mark (log ++ [entry]) log.length entry where
  recorded := by simp
  marked := marked
  last := by
    intro later other after found
    have inside := lt_length_of_getElem? found
    rw [List.length_append, List.length_singleton] at inside
    omega

/-- Entries without the mark change nothing. -/
theorem append {more : List ε} (latest : Latest mark log position entry)
    (unmarked : ∀ other ∈ more, ¬mark other) : Latest mark (log ++ more) position entry where
  recorded := getElem?_append latest.recorded
  marked := latest.marked
  last := by
    intro later other after found
    rcases getElem?_append_cases found with before | new
    · exact latest.last later other after before
    · exact unmarked other new

end Latest

/-- The log before a position is the same in every longer log. -/
theorem take_append {more : List ε} (inside : position ≤ log.length) :
    (log ++ more).take position = log.take position := by
  rw [List.take_append_of_le_length inside]

/-- Two places before which the same entry is the latest are in order, if the first of
them is marked as well. -/
theorem Latest.le_of_marked {first second : Nat} {place : ε}
    (before : Latest mark (log.take first) position entry)
    (alsoBefore : Latest mark (log.take second) position other)
    (here : log[first]? = some place) (marked : mark place) : second ≤ first := by
  apply Nat.le_of_not_lt
  intro after
  have found : (log.take second)[first]? = some place := by
    rw [List.getElem?_take_of_lt after]
    exact here
  have past : position < first := by
    have inside := before.lt_length
    rw [List.length_take] at inside
    omega
  exact alsoBefore.last first place past found marked

end Mosschat.Library.Log
