import Mathlib.Data.List.Basic

/-!
Owns how a list is cut into pieces of one length, of which the last may be shorter: the pieces
join to the list, and any of them, joined again, are cut into themselves.

Does not own what is in a piece.
-/

namespace Mosschat.Library.Strides

universe u

variable {α : Type u}

/-- The pieces at every stride. At stride zero the list is one piece. -/
def cut (stride : Nat) (items : List α) : List (List α) :=
  if items = [] then []
  else if stride = 0 then [items]
  else items.take stride :: cut stride (items.drop stride)
termination_by items.length
decreasing_by
  have some : 0 < items.length := List.length_pos_iff.mpr ‹_›
  rw [List.length_drop]
  omega

/-- What the pieces of a list are: none is empty, and each but the last is a stride long. -/
structure Strided (stride : Nat) (pieces : List (List α)) : Prop where
  short : ∀ piece ∈ pieces, piece ≠ [] ∧ piece.length ≤ stride
  full : pieces.Pairwise fun earlier _ => earlier.length = stride

@[simp] theorem cut_nil (stride : Nat) : cut stride ([] : List α) = [] := by
  rw [cut, if_pos rfl]

theorem cut_zero {items : List α} (some : items ≠ []) : cut 0 items = [items] := by
  rw [cut, if_neg some, if_pos rfl]

theorem cut_step {stride : Nat} (positive : 0 < stride) {items : List α} (some : items ≠ []) :
    cut stride items = items.take stride :: cut stride (items.drop stride) := by
  rw [cut, if_neg some, if_neg (Nat.ne_of_gt positive)]

/-- A list no longer than the stride is one piece. -/
theorem cut_of_length_le {stride : Nat} {items : List α} (some : items ≠ [])
    (short : items.length ≤ stride) : cut stride items = [items] := by
  have positive : 0 < stride := Nat.lt_of_lt_of_le (List.length_pos_iff.mpr some) short
  rw [cut_step positive some, List.take_of_length_le short, List.drop_of_length_le short, cut_nil]

theorem ne_nil_of_mem_cut {stride : Nat} {items piece : List α}
    (member : piece ∈ cut stride items) : piece ≠ [] := by
  induction items using cut.induct stride with
  | case1 =>
      rw [cut_nil] at member
      cases member
  | case2 items some isZero =>
      rw [isZero, cut_zero some, List.mem_singleton] at member
      rw [member]
      exact some
  | case3 items some positive ih =>
      rw [cut_step (Nat.pos_of_ne_zero positive) some, List.mem_cons] at member
      rcases member with isFirst | later
      · rw [isFirst, ← List.length_pos_iff, List.length_take]
        have length := List.length_pos_iff.mpr some
        omega
      · exact ih later

theorem strided_cut {stride : Nat} (positive : 0 < stride) (items : List α) :
    Strided stride (cut stride items) := by
  constructor
  · intro piece member
    refine ⟨ne_nil_of_mem_cut member, ?_⟩
    induction items using cut.induct stride with
    | case1 =>
        rw [cut_nil] at member
        cases member
    | case2 items some isZero => omega
    | case3 items some _ ih =>
        rw [cut_step positive some, List.mem_cons] at member
        rcases member with isFirst | later
        · rw [isFirst]
          exact List.length_take_le _ _
        · exact ih later
  · induction items using cut.induct stride with
    | case1 =>
        rw [cut_nil]
        exact List.Pairwise.nil
    | case2 items some isZero => omega
    | case3 items some _ ih =>
        rw [cut_step positive some]
        refine List.Pairwise.cons ?_ ih
        intro later member
        -- There is a later piece, so the first one is not the tail.
        by_cases long : stride ≤ items.length
        · rw [List.length_take]
          omega
        · rw [List.drop_of_length_le (by omega), cut_nil] at member
          cases member

/-- Some of the pieces are pieces too. -/
theorem Strided.sublist {stride : Nat} {pieces some : List (List α)}
    (strided : Strided stride pieces) (isSublist : some.Sublist pieces) : Strided stride some where
  short piece member := strided.short piece (isSublist.subset member)
  full := strided.full.sublist isSublist

/-- Pieces that are joined are cut where they were joined. -/
theorem Strided.cut_flatten {stride : Nat} (positive : 0 < stride) {pieces : List (List α)}
    (strided : Strided stride pieces) : cut stride pieces.flatten = pieces := by
  induction pieces with
  | nil => exact cut_nil stride
  | cons first rest ih =>
      have later := ih (strided.sublist (List.sublist_cons_self first rest))
      have short := strided.short first List.mem_cons_self
      rw [List.flatten_cons]
      cases rest with
      | nil =>
          rw [List.flatten_nil, List.append_nil]
          exact cut_of_length_le short.1 short.2
      | cons second others =>
          have full : first.length = stride :=
            (List.pairwise_cons.mp strided.full).1 second List.mem_cons_self
          have some : first ++ (second :: others).flatten ≠ [] := by
            intro nothing
            exact short.1 (List.append_eq_nil_iff.mp nothing).1
          rw [cut_step positive some, List.take_left' full, List.drop_left' full, later]

/-- Any of the pieces of a list, joined, are cut into themselves. -/
theorem cut_flatten_of_sublist {stride : Nat} {items : List α} {some : List (List α)}
    (isSublist : some.Sublist (cut stride items)) : cut stride some.flatten = some := by
  by_cases isZero : stride = 0
  · rw [isZero] at isSublist ⊢
    by_cases empty : items = []
    · rw [empty, cut_nil, List.sublist_nil] at isSublist
      rw [isSublist]
      exact cut_nil 0
    · rw [cut_zero empty, List.sublist_singleton] at isSublist
      rcases isSublist with none | all
      · rw [none]
        exact cut_nil 0
      · rw [all, List.flatten_singleton]
        exact cut_zero empty
  · have positive := Nat.pos_of_ne_zero isZero
    exact ((strided_cut positive items).sublist isSublist).cut_flatten positive

end Mosschat.Library.Strides
