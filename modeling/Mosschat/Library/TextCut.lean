import Mathlib.Algebra.GroupWithZero.Nat
import Mathlib.Data.List.Basic

/-!
Owns the bytes of a text in UTF-8 as far as lengths go: how many a text takes, where its
characters begin, its front of so many bytes, and the last place at or before a byte where it
can be cut.

Does not own the bytes themselves.
-/

namespace Mosschat.Library.TextCut

/-- `str::len`. -/
def byteLength (text : List Char) : Nat := (text.map Char.utf8Size).sum

/-- `str::get(..length)`: the front of so many bytes, where a character ends there. -/
def front (length : Nat) : List Char → Option (List Char)
  | [] => if length = 0 then some [] else none
  | char :: rest =>
    if length = 0 then some []
    else if char.utf8Size ≤ length then (front (length - char.utf8Size) rest).map (char :: ·)
    else none

/-- `str::is_char_boundary`. -/
def isCharBoundary (text : List Char) (length : Nat) : Bool := (front length text).isSome

/-- The last boundary at or before `length`, or the beginning of the text. -/
def lastBoundary (text : List Char) : Nat → Nat
  | 0 => 0
  | length + 1 => if isCharBoundary text (length + 1) then length + 1 else lastBoundary text length

theorem byteLength_nil : byteLength [] = 0 := rfl

theorem byteLength_cons (char : Char) (rest : List Char) :
    byteLength (char :: rest) = char.utf8Size + byteLength rest := rfl

theorem byteLength_append (first second : List Char) :
    byteLength (first ++ second) = byteLength first + byteLength second := by
  rw [byteLength, List.map_append, List.sum_append]
  rfl

theorem front_zero (text : List Char) : front 0 text = some [] := by
  cases text with
  | nil => rfl
  | cons char rest => rfl

/-- A text has its own beginnings as fronts. -/
theorem front_append (first second : List Char) :
    front (byteLength first) (first ++ second) = some first := by
  induction first with
  | nil => exact front_zero second
  | cons char rest ih =>
      have positive := char.utf8Size_pos
      have left : char.utf8Size + byteLength rest - char.utf8Size = byteLength rest := by omega
      show front (char.utf8Size + byteLength rest) (char :: (rest ++ second)) = _
      rw [front, if_neg (by omega), if_pos (by omega), left, ih]
      rfl

theorem front_eq_some {length : Nat} {text first : List Char}
    (isFront : front length text = some first) :
    ∃ second, text = first ++ second ∧ byteLength first = length := by
  induction text generalizing length first with
  | nil =>
      unfold front at isFront
      split_ifs at isFront with none
      rw [← Option.some.inj isFront]
      exact ⟨[], rfl, none.symm⟩
  | cons char rest ih =>
      unfold front at isFront
      split_ifs at isFront with none fits
      · rw [← Option.some.inj isFront]
        exact ⟨char :: rest, rfl, none.symm⟩
      · obtain ⟨tail, isTail, isCons⟩ := Option.map_eq_some_iff.mp isFront
        obtain ⟨second, isRest, length⟩ := ih isTail
        refine ⟨second, ?_, ?_⟩
        · rw [isRest, ← isCons]
          rfl
        · rw [← isCons, byteLength_cons]
          omega

theorem lastBoundary_le (text : List Char) (length : Nat) : lastBoundary text length ≤ length := by
  induction length with
  | zero => exact Nat.le_refl 0
  | succ length ih =>
      rw [lastBoundary]
      split
      · exact Nat.le_refl _
      · omega

theorem isCharBoundary_lastBoundary (text : List Char) (length : Nat) :
    isCharBoundary text (lastBoundary text length) = true := by
  induction length with
  | zero =>
      show (front 0 text).isSome = true
      rw [front_zero]
      rfl
  | succ length ih =>
      rw [lastBoundary]
      split
      · next isBoundary => exact isBoundary
      · exact ih

theorem lastBoundary_of_boundary {text : List Char} {length : Nat}
    (isBoundary : isCharBoundary text length = true) : lastBoundary text length = length := by
  cases length with
  | zero => rfl
  | succ length => exact if_pos isBoundary

/-- No boundary before a place is after the last one. -/
theorem le_lastBoundary {text : List Char} {length boundary : Nat} (before : boundary ≤ length)
    (isBoundary : isCharBoundary text boundary = true) : boundary ≤ lastBoundary text length := by
  induction length with
  | zero => exact before
  | succ length ih =>
      rw [lastBoundary]
      split
      · exact before
      · next noBoundary =>
          have other : boundary ≠ length + 1 := fun same => noBoundary (same ▸ isBoundary)
          exact ih (by omega)

/-- A text is cut at most three bytes before the place asked for, as no character takes more
than four. -/
theorem exists_boundary_near {text : List Char} {length : Nat} (long : length ≤ byteLength text) :
    ∃ boundary, isCharBoundary text boundary = true ∧ boundary ≤ length ∧ length ≤ boundary + 3 := by
  induction text generalizing length with
  | nil =>
      rw [byteLength_nil] at long
      exact ⟨0, rfl, by omega, by omega⟩
  | cons char rest ih =>
      have positive := char.utf8Size_pos
      have atMost := char.utf8Size_le_four
      rw [byteLength_cons] at long
      by_cases fits : char.utf8Size ≤ length
      · obtain ⟨boundary, isBoundary, before, near⟩ :=
          @ih (length - char.utf8Size) (by omega)
        refine ⟨char.utf8Size + boundary, ?_, by omega, by omega⟩
        have left : char.utf8Size + boundary - char.utf8Size = boundary := by omega
        show (front (char.utf8Size + boundary) (char :: rest)).isSome = true
        rw [front, if_neg (by omega), if_pos (by omega), left, Option.isSome_map]
        exact isBoundary
      · refine ⟨0, ?_, by omega, by omega⟩
        show (front 0 (char :: rest)).isSome = true
        rw [front_zero]
        rfl

end Mosschat.Library.TextCut
