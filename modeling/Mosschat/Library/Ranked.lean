import Mathlib.Data.List.Dedup
import Mathlib.Data.List.Sort

/-!
Owns the ascending list of what occurs in a list, and its oldest part: all but the
greatest few.

Does not own what is ranked.
-/

namespace Mosschat.Library.Ranked

variable {α : Type*} [LinearOrder α]

/-- What occurs, once each and in order: a `BTreeSet`. -/
def ranked (items : List α) : List α := items.dedup.insertionSort (· ≤ ·)

/-- All but the greatest `cap`. -/
def oldest (cap : Nat) (items : List α) : List α :=
  (ranked items).take ((ranked items).length - cap)

theorem mem_ranked {items : List α} {item : α} : item ∈ ranked items ↔ item ∈ items := by
  rw [ranked, List.mem_insertionSort, List.mem_dedup]

theorem nodup_ranked (items : List α) : (ranked items).Nodup :=
  (List.perm_insertionSort (· ≤ ·) items.dedup).nodup_iff.mpr (List.nodup_dedup items)

theorem ascending_ranked (items : List α) : (ranked items).Pairwise (· < ·) := by
  have sorted : (ranked items).Pairwise (· ≤ ·) := List.pairwise_insertionSort (· ≤ ·) _
  have distinct : (ranked items).Pairwise (· ≠ ·) := nodup_ranked items
  exact (sorted.and distinct).imp fun both => lt_of_le_of_ne both.1 both.2

/-- An item of an ascending list is before its last `cap` exactly if as many are greater. -/
theorem mem_take_iff {cap : Nat} {items : List α} (ascending : items.Pairwise (· < ·)) {item : α}
    (member : item ∈ items) :
    item ∈ items.take (items.length - cap) ↔ cap ≤ (items.filter (item < ·)).length := by
  obtain ⟨front, back, isList⟩ := List.append_of_mem member
  subst isList
  rw [List.pairwise_append] at ascending
  obtain ⟨-, backAscending, across⟩ := ascending
  rw [List.pairwise_cons] at backAscending
  have noneInFront : front.filter (item < ·) = [] := by
    rw [List.filter_eq_nil_iff]
    intro other inside
    have below : other < item := across other inside item List.mem_cons_self
    simpa using below.le
  have allInBack : back.filter (item < ·) = back := by
    rw [List.filter_eq_self]
    intro other inside
    simpa using backAscending.1 other inside
  rw [List.filter_append, noneInFront, List.nil_append, List.filter_cons_of_neg (by simp),
    allInBack]
  have notInFront : item ∉ front := by
    intro inside
    exact lt_irrefl item (across item inside item List.mem_cons_self)
  have length : (front ++ item :: back).length = front.length + 1 + back.length := by
    rw [List.length_append, List.length_cons]
    omega
  rw [length]
  constructor
  · intro inside
    by_contra few
    rw [List.take_append_of_le_length (by omega)] at inside
    exact notInFront (List.mem_of_mem_take inside)
  · intro many
    obtain ⟨more, isMore⟩ : ∃ more, front.length + 1 + back.length - cap - front.length = more + 1 :=
      ⟨front.length + 1 + back.length - cap - front.length - 1, by omega⟩
    rw [List.take_append, isMore, List.take_succ_cons]
    exact List.mem_append_right _ List.mem_cons_self

/-- What is greater, once each and in order. -/
def newer (item : α) (items : List α) : List α := (ranked items).filter (item < ·)

theorem mem_newer_iff {item other : α} {items : List α} :
    other ∈ newer item items ↔ other ∈ items ∧ item < other := by
  rw [newer, List.mem_filter, mem_ranked, decide_eq_true_iff]

theorem nodup_newer (item : α) (items : List α) : (newer item items).Nodup :=
  (nodup_ranked items).sublist List.filter_sublist

theorem length_newer_cons_self (item : α) (items : List α) :
    (newer item (item :: items)).length = (newer item items).length := by
  have same : (newer item (item :: items)).Perm (newer item items) := by
    rw [List.perm_ext_iff_of_nodup (nodup_newer _ _) (nodup_newer _ _)]
    intro other
    rw [mem_newer_iff, mem_newer_iff, List.mem_cons]
    constructor
    · intro both
      refine ⟨both.1.resolve_left ?_, both.2⟩
      exact fun isItem => lt_irrefl item (isItem ▸ both.2)
    · intro both
      exact ⟨Or.inr both.1, both.2⟩
  exact same.length_eq

/-- An item is one of the oldest exactly if `cap` are greater. -/
theorem mem_oldest_iff {cap : Nat} {items : List α} {item : α} :
    item ∈ oldest cap items ↔ item ∈ items ∧ cap ≤ (newer item items).length := by
  constructor
  · intro isOld
    have member : item ∈ ranked items := List.mem_of_mem_take isOld
    exact ⟨mem_ranked.mp member, (mem_take_iff (ascending_ranked items) member).mp isOld⟩
  · intro both
    have member : item ∈ ranked items := mem_ranked.mpr both.1
    exact (mem_take_iff (ascending_ranked items) member).mpr both.2

/-- What is oldest is below everything that is not. -/
theorem lt_of_mem_oldest {cap : Nat} {items : List α} {old other : α}
    (isOld : old ∈ oldest cap items) (member : other ∈ items) (notOld : other ∉ oldest cap items) :
    old < other := by
  have split := List.take_append_drop ((ranked items).length - cap) (ranked items)
  have ascending := ascending_ranked items
  have inside : other ∈ ranked items := mem_ranked.mpr member
  rw [← split] at ascending inside
  rw [List.pairwise_append] at ascending
  exact ascending.2.2 old isOld other ((List.mem_append.mp inside).resolve_left notOld)

/-- What is not oldest, as a list without repeats. -/
def newest (cap : Nat) (items : List α) : List α :=
  (ranked items).drop ((ranked items).length - cap)

theorem length_newest_le (cap : Nat) (items : List α) : (newest cap items).length ≤ cap := by
  rw [newest, List.length_drop]
  omega

theorem length_newest_of_mem_oldest {cap : Nat} {items : List α} {item : α}
    (isOld : item ∈ oldest cap items) : (newest cap items).length = cap := by
  have some : 0 < (oldest cap items).length := List.length_pos_of_mem isOld
  rw [oldest, List.length_take] at some
  rw [newest, List.length_drop]
  omega

theorem nodup_newest (cap : Nat) (items : List α) : (newest cap items).Nodup :=
  (nodup_ranked items).sublist (List.drop_sublist _ _)

theorem mem_newest_iff {cap : Nat} {items : List α} {item : α} :
    item ∈ newest cap items ↔ item ∈ items ∧ item ∉ oldest cap items := by
  have split := List.take_append_drop ((ranked items).length - cap) (ranked items)
  have nodup := nodup_ranked items
  rw [← split, List.nodup_append] at nodup
  constructor
  · intro isNew
    refine ⟨mem_ranked.mp (List.mem_of_mem_drop isNew), ?_⟩
    intro isOld
    exact nodup.2.2 item isOld item isNew rfl
  · intro both
    have inside : item ∈ ranked items := mem_ranked.mpr both.1
    rw [← split] at inside
    exact (List.mem_append.mp inside).resolve_left both.2

end Mosschat.Library.Ranked
