import Mathlib.Data.List.Count
import Mathlib.Data.List.Induction
import Mosschat.Library.HashMap
import Mosschat.Library.Machine

/-!
Owns a set that several holders add to, each under a lease of its own: a value is in the set
while some lease that was not given back holds it.

Does not own what a lease stands for.
-/

namespace Mosschat.Library

universe u v

/-- What each lease holds, and how many times each value is held. -/
structure Leases (κ : Type u) (α : Type v) where
  byLease : HashMap κ (List α)
  refcounts : HashMap α Nat

namespace Leases

variable {κ : Type u} {α : Type v} [DecidableEq κ] [DecidableEq α]

/-- Nothing is held. -/
def empty : Leases κ α := ⟨∅, ∅⟩

/-- Add a value to what a lease holds. -/
def allow (leases : Leases κ α) (lease : κ) (value : α) : Leases κ α where
  byLease := leases.byLease.put lease ((leases.byLease.lookup lease).getD [] ++ [value])
  refcounts := leases.refcounts.put value ((leases.refcounts.lookup value).getD 0 + 1)

/-- One holder of the value less. -/
def release (refcounts : HashMap α Nat) (value : α) : HashMap α Nat :=
  match refcounts.lookup value with
  | none => refcounts
  | some count => if count - 1 = 0 then refcounts.erase value else refcounts.put value (count - 1)

/-- Give a lease back, with all it holds. -/
def forget (leases : Leases κ α) (lease : κ) : Leases κ α :=
  match leases.byLease.lookup lease with
  | none => leases
  | some values =>
    { byLease := leases.byLease.erase lease, refcounts := values.foldl release leases.refcounts }

/-- Some lease holds the value. -/
def contains (leases : Leases κ α) (value : α) : Bool := decide (value ∈ leases.refcounts)

/-- What the leases hold, as often as they do. -/
def held (leases : Leases κ α) : List α := leases.byLease.values.flatten

/-- The counts are those of the list, and none of them is zero. -/
def Counts (refcounts : HashMap α Nat) (values : List α) : Prop :=
  ∀ value, refcounts.lookup value =
    if values.count value = 0 then none else some (values.count value)

/-- The set counts what its leases hold. -/
def Counted (leases : Leases κ α) : Prop := Counts leases.refcounts leases.held

omit [DecidableEq κ] in
theorem counted_empty : Counted (empty : Leases κ α) := fun _ => rfl

theorem Counts.perm {refcounts : HashMap α Nat} {values others : List α}
    (counts : Counts refcounts values) (perm : values.Perm others) : Counts refcounts others := by
  intro value
  rw [counts value, perm.count_eq]

theorem Counts.allow {refcounts : HashMap α Nat} {values : List α}
    (counts : Counts refcounts values) (value : α) :
    Counts (refcounts.put value ((refcounts.lookup value).getD 0 + 1)) (value :: values) := by
  intro other
  rw [HashMap.lookup_put, counts value]
  by_cases same : other = value
  · rw [if_pos same, same, List.count_cons_self, if_neg (Nat.succ_ne_zero _)]
    split
    · next none => rw [none]; rfl
    · rfl
  · rw [if_neg same, counts other, List.count_cons_of_ne (Ne.symm same)]

theorem Counts.release {refcounts : HashMap α Nat} {value : α} {values : List α}
    (counts : Counts refcounts (value :: values)) : Counts (release refcounts value) values := by
  intro other
  have count := counts value
  rw [List.count_cons_self, if_neg (Nat.succ_ne_zero _)] at count
  unfold Leases.release
  rw [count]
  simp only [Nat.add_sub_cancel]
  by_cases same : other = value
  · split
    · next none => rw [HashMap.lookup_erase, if_pos same, same, if_pos none]
    · next some => rw [HashMap.lookup_put, if_pos same, same, if_neg some]
  · have others := counts other
    rw [List.count_cons_of_ne (Ne.symm same)] at others
    split
    · rw [HashMap.lookup_erase, if_neg same, others]
    · rw [HashMap.lookup_put, if_neg same, others]

/-- Releasing values one by one takes each from the counts once. -/
theorem Counts.foldl_release {freed values : List α} {refcounts : HashMap α Nat}
    (counts : Counts refcounts (freed ++ values)) :
    Counts (freed.foldl Leases.release refcounts) values := by
  induction freed generalizing refcounts with
  | nil => exact counts
  | cons value rest ih =>
      apply ih
      exact Counts.release counts

omit [DecidableEq α] in
/-- What is held is what one lease holds and what the others do. -/
theorem held_perm (leases : Leases κ α) (lease : κ) :
    leases.held.Perm ((leases.byLease.lookup lease).getD [] ++
      (HashMap.values (leases.byLease.erase lease)).flatten) := by
  cases found : leases.byLease.lookup lease with
  | none =>
      have vacant : lease ∉ leases.byLease := AList.lookup_eq_none.mp found
      have same : leases.byLease.erase lease = leases.byLease :=
        AList.ext (List.kerase_of_notMem_keys vacant)
      rw [same]
      exact List.Perm.refl _
  | some values => exact (HashMap.values_perm found).flatten

theorem held_allow (leases : Leases κ α) (lease : κ) (value : α) :
    (value :: leases.held).Perm (leases.allow lease value).held := by
  have put := (HashMap.values_put_perm leases.byLease lease
    ((leases.byLease.lookup lease).getD [] ++ [value])).flatten
  rw [List.flatten_cons, List.append_assoc] at put
  have before := (leases.held_perm lease).cons value
  exact (before.trans List.perm_middle.symm).trans put.symm

theorem Counted.allow {leases : Leases κ α} (counted : Counted leases) (lease : κ) (value : α) :
    Counted (leases.allow lease value) :=
  (Counts.allow counted value).perm (leases.held_allow lease value)

theorem Counted.forget {leases : Leases κ α} (counted : Counted leases) (lease : κ) :
    Counted (leases.forget lease) := by
  unfold Leases.forget
  split
  · exact counted
  · next values found =>
      apply Counts.foldl_release
      have perm := leases.held_perm lease
      rw [found] at perm
      exact Counts.perm counted perm

/-- A value is in the set exactly while some lease holds it. -/
theorem Counted.contains_iff {leases : Leases κ α} (counted : Counted leases) (value : α) :
    leases.contains value = true ↔
      ∃ lease values, leases.byLease.lookup lease = some values ∧ value ∈ values := by
  rw [contains, decide_eq_true_iff, ← AList.lookup_isSome, counted value]
  have positive : (if leases.held.count value = 0 then none
      else some (leases.held.count value)).isSome = true ↔ value ∈ leases.held := by
    rw [← List.count_pos_iff]
    split
    · next none => simp [none]
    · next some => simp [Nat.pos_of_ne_zero some]
  rw [positive, held, List.mem_flatten]
  constructor
  · rintro ⟨values, isHeld, member⟩
    obtain ⟨lease, found⟩ := (HashMap.mem_values _ _).mp isHeld
    exact ⟨lease, values, found, member⟩
  · rintro ⟨lease, values, found, member⟩
    exact ⟨values, (HashMap.mem_values _ _).mpr ⟨lease, found⟩, member⟩

@[simp] theorem lookup_allow (leases : Leases κ α) (lease other : κ) (value : α) :
    (leases.allow lease value).byLease.lookup other =
      if other = lease then some ((leases.byLease.lookup lease).getD [] ++ [value])
      else leases.byLease.lookup other :=
  HashMap.lookup_put _ _ _ _

@[simp] theorem lookup_forget (leases : Leases κ α) (lease other : κ) :
    (leases.forget lease).byLease.lookup other =
      if other = lease then none else leases.byLease.lookup other := by
  unfold forget
  split
  · next absent =>
      split
      · next same => rw [same, absent]
      · rfl
  · exact HashMap.lookup_erase _ _ _

/-! ## Runs -/

/-- A call on the set. -/
inductive Call (κ : Type u) (α : Type v) where
  | allow (lease : κ) (value : α)
  | forget (lease : κ)

def step (leases : Leases κ α) : Call κ α → Leases κ α
  | .allow lease value => leases.allow lease value
  | .forget lease => leases.forget lease

/-- The lease was given the value and has not been forgotten since. -/
def Outstanding (calls : List (Call κ α)) (lease : κ) (value : α) : Prop :=
  ∃ front back, calls = front ++ .allow lease value :: back ∧ .forget lease ∉ back

omit [DecidableEq κ] [DecidableEq α] in
theorem not_outstanding_nil (lease : κ) (value : α) : ¬Outstanding [] lease value := by
  rintro ⟨front, back, isCalls, _⟩
  exact List.append_ne_nil_of_right_ne_nil front (List.cons_ne_nil _ back) isCalls.symm

omit [DecidableEq κ] [DecidableEq α] in
/-- One call more, and what was outstanding before it. -/
theorem outstanding_concat {calls : List (Call κ α)} {next : Call κ α} {lease : κ} {value : α} :
    Outstanding (calls ++ [next]) lease value ↔
      Outstanding calls lease value ∧ next ≠ .forget lease ∨ next = .allow lease value := by
  constructor
  · rintro ⟨front, back, isCalls, kept⟩
    cases List.eq_nil_or_concat back with
    | inl isNil =>
        rw [isNil] at isCalls
        exact Or.inr (List.append_inj' isCalls rfl |>.2 |> List.singleton_inj.mp)
    | inr isConcat =>
        obtain ⟨others, last, rfl⟩ := isConcat
        rw [List.concat_eq_append, List.mem_append, not_or] at kept
        rw [List.concat_eq_append, ← List.cons_append, ← List.append_assoc] at isCalls
        obtain ⟨rfl, same⟩ := List.append_inj' isCalls rfl
        have isLast : next = last := List.singleton_inj.mp same
        refine Or.inl ⟨⟨front, others, rfl, kept.1⟩, ?_⟩
        rintro rfl
        exact kept.2 (List.mem_singleton.mpr isLast)
  · rintro (⟨⟨front, back, rfl, kept⟩, spared⟩ | rfl)
    · refine ⟨front, back ++ [next], by simp, ?_⟩
      rw [List.mem_append, List.mem_singleton, not_or]
      exact ⟨kept, fun same => spared same.symm⟩
    · exact ⟨calls, [], rfl, List.not_mem_nil⟩

/-- What the set holds after the calls. -/
structure Recounts (leases : Leases κ α) (calls : List (Call κ α)) : Prop where
  counted : Counted leases
  inhabited : ∀ lease, leases.byLease.lookup lease ≠ some []
  outstanding : ∀ lease value,
    value ∈ (leases.byLease.lookup lease).getD [] ↔ Outstanding calls lease value

theorem recounts_empty : Recounts (empty : Leases κ α) [] where
  counted := counted_empty
  inhabited := by
    intro lease held
    cases held
  outstanding := by
    intro lease value
    have nothing := not_outstanding_nil lease value
    exact ⟨fun member => absurd member List.not_mem_nil, fun given => absurd given nothing⟩

theorem Recounts.step {leases : Leases κ α} {calls : List (Call κ α)}
    (recounts : Recounts leases calls) (next : Call κ α) :
    Recounts (leases.step next) (calls ++ [next]) := by
  cases next with
  | allow given added =>
      refine ⟨recounts.counted.allow given added, ?_, ?_⟩
      · intro lease
        show (leases.allow given added).byLease.lookup lease ≠ some []
        rw [lookup_allow]
        split
        · simp
        · exact recounts.inhabited lease
      · intro lease value
        show value ∈ ((leases.allow given added).byLease.lookup lease).getD [] ↔ _
        rw [lookup_allow, outstanding_concat, ← recounts.outstanding lease value]
        by_cases same : lease = given
        · rw [if_pos same, same]
          simp [eq_comm]
        · have other : given ≠ lease := Ne.symm same
          rw [if_neg same]
          simp [other]
  | forget given =>
      refine ⟨recounts.counted.forget given, ?_, ?_⟩
      · intro lease
        show (leases.forget given).byLease.lookup lease ≠ some []
        rw [lookup_forget]
        split
        · exact Option.some_ne_none _ |>.symm
        · exact recounts.inhabited lease
      · intro lease value
        show value ∈ ((leases.forget given).byLease.lookup lease).getD [] ↔ _
        rw [lookup_forget, outstanding_concat, ← recounts.outstanding lease value]
        by_cases same : lease = given
        · rw [if_pos same, same]
          simp
        · have other : given ≠ lease := Ne.symm same
          rw [if_neg same]
          simp [other]

theorem recounts_run (calls : List (Call κ α)) :
    Recounts (Machine.run step (empty : Leases κ α) calls) calls := by
  induction calls using List.reverseRecOn with
  | nil => exact recounts_empty
  | append_singleton calls next ih =>
      rw [Machine.run_concat]
      exact ih.step next

/-- The set holds what some lease holds. -/
theorem Recounts.contains_iff {leases : Leases κ α} {calls : List (Call κ α)}
    (recounts : Recounts leases calls) (value : α) :
    leases.contains value = true ↔ ∃ lease, Outstanding calls lease value := by
  rw [recounts.counted.contains_iff]
  constructor
  · rintro ⟨lease, values, found, member⟩
    refine ⟨lease, (recounts.outstanding lease value).mp ?_⟩
    rw [found]
    exact member
  · rintro ⟨lease, outstanding⟩
    have member := (recounts.outstanding lease value).mpr outstanding
    cases found : leases.byLease.lookup lease with
    | none =>
        rw [found] at member
        cases member
    | some values =>
        rw [found] at member
        exact ⟨lease, values, found, member⟩

/-- With every lease forgotten, nothing is left in either map. -/
theorem Recounts.eq_empty {leases : Leases κ α} {calls : List (Call κ α)}
    (recounts : Recounts leases calls)
    (forgotten : ∀ lease value, ¬Outstanding calls lease value) : leases = empty := by
  have unleased : ∀ lease, leases.byLease.lookup lease = none := by
    intro lease
    cases found : leases.byLease.lookup lease with
    | none => rfl
    | some values =>
        cases values with
        | nil => exact absurd found (recounts.inhabited lease)
        | cons value rest =>
            have outstanding := (recounts.outstanding lease value).mp (by simp [found])
            exact absurd outstanding (forgotten lease value)
  have byLease : leases.byLease = ∅ := HashMap.eq_empty_of_lookup unleased
  have refcounts : leases.refcounts = ∅ := by
    apply HashMap.eq_empty_of_lookup
    intro value
    rw [recounts.counted value, held, byLease]
    rfl
  cases leases
  cases byLease
  cases refcounts
  rfl

end Leases

end Mosschat.Library
