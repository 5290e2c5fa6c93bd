import Mosschat.Library.HashMap
import Mathlib.Data.List.Sort

/-!
Owns tables whose primary key is a group and a column: the rows of one group in
the order of that column, and what an appended row adds to them.

Does not own what a row holds.
-/

namespace Mosschat.Library.Table

universe u v w

variable {γ : Type u} {κ : Type v} {ν : Type w} [DecidableEq γ]

/-- The rows of one group, with their columns, as the table holds them. -/
def group (table : HashMap (γ × κ) ν) (id : γ) : List (κ × ν) :=
  table.entries.filterMap fun entry =>
    if entry.1.1 = id then some (entry.1.2, entry.2) else none

variable (below : κ → κ → Prop) [DecidableRel below]

/-- The rows of one group in ascending order of their columns. -/
def scan (table : HashMap (γ × κ) ν) (id : γ) : List (κ × ν) :=
  (group table id).insertionSort fun first second => below first.1 second.1

section Rules

variable {below} {table : HashMap (γ × κ) ν} {id : γ} {column : κ} {value : ν}

theorem pairwise_scan [Std.Total below] [IsTrans κ below] :
    (scan below table id).Pairwise fun first second => below first.1 second.1 := by
  have total : Std.Total fun first second : κ × ν => below first.1 second.1 :=
    ⟨fun first second => Std.Total.total first.1 second.1⟩
  have trans : IsTrans (κ × ν) fun first second => below first.1 second.1 :=
    ⟨fun _ _ _ lower upper => IsTrans.trans _ _ _ lower upper⟩
  exact List.pairwise_insertionSort _ _

/-- What belongs below none of the rows goes last. -/
theorem orderedInsert_last {α : Type u} {order : α → α → Prop} [DecidableRel order] {last : α}
    {rows : List α} (above : ∀ row ∈ rows, ¬order last row) :
    rows.orderedInsert order last = rows ++ [last] := by
  induction rows with
  | nil => rfl
  | cons row rest ih =>
      rw [List.forall_mem_cons] at above
      rw [List.orderedInsert_of_not_le order _ above.1, ih above.2]
      rfl

variable [DecidableEq κ]

theorem mem_group : (column, value) ∈ group table id ↔ table.lookup (id, column) = some value := by
  unfold group
  rw [List.mem_filterMap]
  constructor
  · rintro ⟨⟨⟨owner, key⟩, row⟩, member, selected⟩
    split_ifs at selected with same
    cases selected
    cases same
    exact AList.mem_lookup_iff.mpr member
  · intro found
    exact ⟨⟨(id, column), value⟩, AList.mem_lookup_iff.mp found, if_pos rfl⟩

theorem mem_scan : (column, value) ∈ scan below table id ↔
    table.lookup (id, column) = some value := by
  rw [scan, List.mem_insertionSort, mem_group]

/-- A row whose column is above all of its group is appended to the group. -/
theorem scan_put_last (above : ∀ other held, table.lookup (id, other) = some held →
      ¬below column other) (vacant : (id, column) ∉ table) :
    scan below (table.put (id, column) value) id = scan below table id ++ [(column, value)] := by
  have appended : group (table.put (id, column) value) id = (column, value) :: group table id := by
    unfold group HashMap.put
    rw [if_neg vacant, AList.entries_insert_of_notMem vacant]
    simp
  unfold scan
  rw [appended, List.insertionSort_cons]
  apply orderedInsert_last
  rintro ⟨other, held⟩ member
  rw [List.mem_insertionSort, mem_group] at member
  exact above other held member

end Rules

end Mosschat.Library.Table
