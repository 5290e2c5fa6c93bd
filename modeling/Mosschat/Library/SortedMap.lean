import Mathlib.Data.List.Induction
import Mathlib.Data.List.Sort

/-!
Owns maps kept in ascending order of their keys, the grouping of items into such a
map, and the pages of it: one for each key that occurs, in the order of the keys,
each with its items in the order of their ranks. What the pages hold depends on
which items there are, not on the order they come in.

Does not own what a key or a rank is.
-/

namespace Mosschat.Library

universe u v w

variable {κ : Type u} {ν : Type v}

/-- A map as its entries in strictly ascending order of their keys. -/
structure SortedMap (κ : Type u) (ν : Type v) (below : κ → κ → Prop) where
  entries : List (κ × ν)
  ascending : entries.Pairwise fun earlier later => ¬below later.1 earlier.1

namespace SortedMap

variable {below : κ → κ → Prop} [DecidableRel below] [DecidableEq κ]

def empty : SortedMap κ ν below := ⟨[], List.Pairwise.nil⟩

/-- Set the value under `key` to what `update` makes of the one there. -/
def upsertEntries (below : κ → κ → Prop) [DecidableRel below] (key : κ)
    (update : Option ν → ν) : List (κ × ν) → List (κ × ν)
  | [] => [(key, update none)]
  | entry :: rest =>
    if entry.1 = key then (key, update (some entry.2)) :: rest
    else if below key entry.1 then (key, update none) :: entry :: rest
    else entry :: upsertEntries below key update rest

theorem mem_upsertEntries_key {key : κ} {update : Option ν → ν} {entries : List (κ × ν)}
    {entry : κ × ν} (member : entry ∈ upsertEntries below key update entries) :
    entry.1 = key ∨ entry ∈ entries := by
  induction entries with
  | nil =>
    rw [upsertEntries, List.mem_singleton] at member
    exact Or.inl (congrArg Prod.fst member)
  | cons head rest ih =>
    rw [upsertEntries] at member
    split_ifs at member
    · rcases List.mem_cons.mp member with isNew | isOld
      · exact Or.inl (congrArg Prod.fst isNew)
      · exact Or.inr (List.mem_cons_of_mem head isOld)
    · rcases List.mem_cons.mp member with isNew | isOld
      · exact Or.inl (congrArg Prod.fst isNew)
      · exact Or.inr isOld
    · rcases List.mem_cons.mp member with isHead | isLater
      · exact Or.inr (List.mem_cons.mpr (Or.inl isHead))
      · exact (ih isLater).imp_right (List.mem_cons_of_mem head)

theorem find?_upsertEntries {key other : κ} {update : Option ν → ν}
    {entries : List (κ × ν)}
    (ascending : entries.Pairwise fun earlier later => ¬below later.1 earlier.1) :
    ((upsertEntries below key update entries).find? fun entry => entry.1 = other).map Prod.snd =
      if other = key then
        some (update ((entries.find? fun entry => entry.1 = key).map Prod.snd))
      else (entries.find? fun entry => entry.1 = other).map Prod.snd := by
  induction entries with
  | nil =>
    by_cases isKey : other = key
    · simp [upsertEntries, isKey]
    · simp [upsertEntries, isKey, Ne.symm isKey]
  | cons head rest ih =>
    obtain ⟨aboveHead, ascendingRest⟩ := List.pairwise_cons.mp ascending
    by_cases isHead : head.1 = key
    · rw [upsertEntries, if_pos isHead]
      by_cases isKey : other = key
      · simp [isHead, isKey]
      · simp [isHead, isKey, Ne.symm isKey]
    · by_cases first : below key head.1
      · -- The key sorts before every entry there is.
        have vacant : ((head :: rest).find? fun entry => entry.1 = key) = none := by
          rw [List.find?_eq_none]
          intro entry member
          rw [decide_eq_true_iff]
          rintro rfl
          rcases List.mem_cons.mp member with rfl | later
          · exact isHead rfl
          · exact aboveHead entry later first
        rw [upsertEntries, if_neg isHead, if_pos first, vacant]
        by_cases isKey : other = key
        · simp [isKey]
        · rw [List.find?_cons_of_neg (by simpa using Ne.symm isKey), if_neg isKey]
      · have step := ih ascendingRest
        rw [upsertEntries, if_neg isHead, if_neg first]
        by_cases atHead : head.1 = other
        · have otherKey : other ≠ key := fun isKey => isHead (atHead.trans isKey)
          simp [atHead, otherKey]
        · rw [List.find?_cons_of_neg (by simpa using atHead), step,
            List.find?_cons_of_neg (by simpa using isHead),
            List.find?_cons_of_neg (by simpa using atHead)]

variable [IsTrans κ below] [Std.Antisymm below]

theorem ascending_upsertEntries {key : κ} {update : Option ν → ν} {entries : List (κ × ν)}
    (ascending : entries.Pairwise fun earlier later => ¬below later.1 earlier.1) :
    (upsertEntries below key update entries).Pairwise fun earlier later =>
      ¬below later.1 earlier.1 := by
  induction entries with
  | nil => exact List.pairwise_singleton _ _
  | cons head rest ih =>
    obtain ⟨aboveHead, ascendingRest⟩ := List.pairwise_cons.mp ascending
    rw [upsertEntries]
    split_ifs with isHead first
    · subst isHead
      exact List.pairwise_cons.mpr ⟨aboveHead, ascendingRest⟩
    · refine List.pairwise_cons.mpr ⟨?_, ascending⟩
      intro entry member lower
      rcases List.mem_cons.mp member with rfl | later
      · exact isHead (Std.Antisymm.antisymm _ _ lower first)
      · exact aboveHead entry later (IsTrans.trans _ _ _ lower first)
    · refine List.pairwise_cons.mpr ⟨?_, ih ascendingRest⟩
      intro entry member lower
      rcases mem_upsertEntries_key member with isKey | later
      · rw [isKey] at lower
        exact first lower
      · exact aboveHead entry later lower

/-- `entry(key)` followed by a write through it. -/
def upsert (map : SortedMap κ ν below) (key : κ) (update : Option ν → ν) :
    SortedMap κ ν below where
  entries := upsertEntries below key update map.entries
  ascending := ascending_upsertEntries map.ascending

def get? (map : SortedMap κ ν below) (key : κ) : Option ν :=
  (map.entries.find? fun entry => entry.1 = key).map Prod.snd

section Rules

variable {map left right : SortedMap κ ν below} {key other : κ} {value : ν}
  {update : Option ν → ν}

theorem get?_upsert : (map.upsert key update).get? other =
    if other = key then some (update (map.get? key)) else map.get? other :=
  find?_upsertEntries map.ascending

omit [DecidableRel below] [IsTrans κ below] [Std.Antisymm below] in
theorem mem_entries [Std.Refl below] : (key, value) ∈ map.entries ↔ map.get? key = some value := by
  obtain ⟨entries, ascending⟩ := map
  show (key, value) ∈ entries ↔ (entries.find? fun entry => entry.1 = key).map Prod.snd = some value
  induction entries with
  | nil => simp
  | cons head rest ih =>
    obtain ⟨aboveHead, ascendingRest⟩ := List.pairwise_cons.mp ascending
    by_cases isHead : head.1 = key
    · have onlyHead : (key, value) ∉ rest := by
        intro later
        apply aboveHead _ later
        rw [isHead]
        exact Std.Refl.refl key
      rw [List.mem_cons, or_iff_left onlyHead, List.find?_cons_of_pos (by simpa using isHead)]
      simp [Prod.ext_iff, isHead, eq_comm]
    · have notHead : (key, value) ≠ head := fun same => isHead (congrArg Prod.fst same).symm
      rw [List.mem_cons, or_iff_right notHead, ih ascendingRest,
        List.find?_cons_of_neg (by simpa using isHead)]

end Rules

end SortedMap

/-! ## Pages -/

section Pages

variable {α : Type w} (below : κ → κ → Prop) [DecidableRel below] [DecidableEq κ]
  [IsTrans κ below] [Std.Antisymm below] (key : α → κ) (rank : α → α → Prop) [DecidableRel rank]

/-- The items under each key that occurs, in the order they come in. -/
def groupBy (items : List α) : SortedMap κ (List α) below :=
  items.foldl (fun groups item => groups.upsert (key item) fun held => held.getD [] ++ [item])
    .empty

/-- The groups, each sorted by rank. -/
def pages (items : List α) : List (κ × List α) :=
  (groupBy below key items).entries.map fun group => (group.1, group.2.insertionSort rank)

variable {below key rank} {items others : List α} {page : κ × List α}

theorem get?_groupBy (wanted : κ) : (groupBy below key items).get? wanted =
    if items.filter (fun item => key item = wanted) = [] then none
    else some (items.filter fun item => key item = wanted) := by
  induction items using List.reverseRecOn with
  | nil => rfl
  | append_singleton items last ih =>
    have step : groupBy below key (items ++ [last]) =
        (groupBy below key items).upsert (key last) fun held => held.getD [] ++ [last] :=
      List.foldl_append
    rw [step, SortedMap.get?_upsert, List.filter_append]
    by_cases isKey : wanted = key last
    · subst isKey
      rw [if_pos rfl, ih]
      split_ifs with vacant <;> simp_all
    · rw [if_neg isKey, ih]
      simp [Ne.symm isKey]

/-- There is one page for each key that occurs, with the items under it. -/
theorem mem_pages [Std.Refl below] : page ∈ pages below key rank items ↔
    (∃ item ∈ items, key item = page.1) ∧
      page.2 = (items.filter fun item => key item = page.1).insertionSort rank := by
  have occurs : (∃ item ∈ items, key item = page.1) ↔
      items.filter (fun item => key item = page.1) ≠ [] := by
    constructor
    · rintro ⟨item, member, isKey⟩
      exact List.ne_nil_of_mem (List.mem_filter.mpr ⟨member, decide_eq_true isKey⟩)
    · intro nonempty
      obtain ⟨item, member⟩ := List.exists_mem_of_ne_nil _ nonempty
      obtain ⟨isItem, isKey⟩ := List.mem_filter.mp member
      exact ⟨item, isItem, of_decide_eq_true isKey⟩
  have held : ∀ members, (page.1, members) ∈ (groupBy below key items).entries ↔
      items.filter (fun item => key item = page.1) ≠ [] ∧
        members = items.filter fun item => key item = page.1 := by
    intro members
    rw [SortedMap.mem_entries, get?_groupBy]
    split_ifs with vacant
    · exact ⟨nofun, fun both => absurd vacant both.1⟩
    · rw [Option.some_inj]
      exact ⟨fun same => ⟨vacant, same.symm⟩, fun both => both.2.symm⟩
  rw [occurs, pages, List.mem_map]
  constructor
  · rintro ⟨⟨wanted, members⟩, member, rfl⟩
    obtain ⟨nonempty, isFilter⟩ := (held members).mp member
    exact ⟨nonempty, congrArg _ isFilter⟩
  · rintro ⟨nonempty, isSorted⟩
    refine ⟨(page.1, _), (held _).mpr ⟨nonempty, rfl⟩, ?_⟩
    rw [← isSorted]

theorem ascending_pages : (pages below key rank items).Pairwise fun earlier later =>
    ¬below later.1 earlier.1 :=
  List.pairwise_map.mpr (groupBy below key items).ascending

omit [DecidableRel below] [DecidableEq κ] [IsTrans κ below] [Std.Antisymm below] in
/-- Pages that hold the same are the same: the keys leave only one order for them. -/
theorem pages_ext [Std.Total below] {left right : List (κ × List α)}
    (ascendingLeft : left.Pairwise fun earlier later => ¬below later.1 earlier.1)
    (ascendingRight : right.Pairwise fun earlier later => ¬below later.1 earlier.1)
    (same : ∀ page, page ∈ left ↔ page ∈ right) : left = right := by
  have irrefl : Std.Irrefl fun earlier later : κ × List α => ¬below later.1 earlier.1 :=
    ⟨fun page refused => refused ((Std.Total.total page.1 page.1).elim id id)⟩
  have antisymm : Std.Antisymm fun earlier later : κ × List α => ¬below later.1 earlier.1 :=
    ⟨fun first second lower upper =>
      ((Std.Total.total first.1 second.1).elim (absurd · upper) (absurd · lower))⟩
  exact List.Pairwise.eq_of_mem_iff ascendingLeft ascendingRight same

variable [Std.Total rank] [IsTrans α rank]

/-- Items in different orders sort to one list when no two of them rank alike. -/
theorem insertionSort_eq_of_perm (perm : items.Perm others)
    (apart : ∀ first ∈ items, ∀ second ∈ items, rank first second → rank second first →
      first = second) : items.insertionSort rank = others.insertionSort rank := by
  have sameMembers : (items.insertionSort rank).Perm (others.insertionSort rank) :=
    (List.perm_insertionSort rank items).trans
      (perm.trans (List.perm_insertionSort rank others).symm)
  refine sameMembers.eq_of_pairwise ?_ (List.pairwise_insertionSort rank items)
    (List.pairwise_insertionSort rank others)
  intro first second isFirst isSecond lower upper
  have secondOfItems : second ∈ items :=
    perm.mem_iff.mpr ((List.mem_insertionSort rank).mp isSecond)
  exact apart first ((List.mem_insertionSort rank).mp isFirst) second secondOfItems lower upper

theorem pages_eq_of_perm [Std.Total below] (perm : items.Perm others)
    (apart : ∀ first ∈ items, ∀ second ∈ items, rank first second → rank second first →
      first = second) : pages below key rank items = pages below key rank others := by
  have refl : Std.Refl below := ⟨fun held => (Std.Total.total held held).elim id id⟩
  apply pages_ext ascending_pages ascending_pages
  intro page
  have sameSort : (items.filter fun item => key item = page.1).insertionSort rank =
      (others.filter fun item => key item = page.1).insertionSort rank := by
    apply insertionSort_eq_of_perm (perm.filter _)
    intro first isFirst second isSecond
    exact apart first (List.mem_of_mem_filter isFirst) second (List.mem_of_mem_filter isSecond)
  rw [mem_pages, mem_pages, sameSort]
  simp only [perm.mem_iff]

omit [Std.Total rank] [IsTrans α rank] in
/-- Items changed in nothing a page is made by stay where they are on their pages. -/
theorem pages_map [Std.Total below] {change : α → α} (sameKey : ∀ item, key (change item) = key item)
    (sameRank : ∀ first second, rank first second ↔ rank (change first) (change second)) :
    pages below key rank (items.map change) =
      (pages below key rank items).map fun page => (page.1, page.2.map change) := by
  have refl : Std.Refl below := ⟨fun held => (Std.Total.total held held).elim id id⟩
  have sorted : ∀ wanted, ((items.map change).filter fun item => key item = wanted).insertionSort rank =
      ((items.filter fun item => key item = wanted).insertionSort rank).map change := by
    intro wanted
    rw [List.filter_map, List.map_insertionSort rank rank change _
      fun first _ second _ => sameRank first second]
    simp only [Function.comp_def, sameKey]
  have ascending : ((pages below key rank items).map fun page => (page.1, page.2.map change)).Pairwise
      fun earlier later => ¬below later.1 earlier.1 :=
    List.pairwise_map.mpr ascending_pages
  apply pages_ext ascending_pages ascending
  rintro ⟨wanted, page⟩
  rw [mem_pages, List.mem_map]
  constructor
  · rintro ⟨⟨_, isItem, isKey⟩, isPage⟩
    obtain ⟨item, member, rfl⟩ := List.mem_map.mp isItem
    let members := (items.filter fun item => key item = wanted).insertionSort rank
    have occurs : ∃ item ∈ items, key item = wanted :=
      ⟨item, member, (sameKey item).symm.trans isKey⟩
    refine ⟨(wanted, members), mem_pages.mpr ⟨occurs, rfl⟩, ?_⟩
    rw [Prod.mk.injEq]
    exact ⟨rfl, (sorted wanted).symm.trans isPage.symm⟩
  · rintro ⟨⟨held, members⟩, isPage, same⟩
    obtain ⟨⟨item, member, isKey⟩, isSorted⟩ := mem_pages.mp isPage
    obtain ⟨rfl, rfl⟩ := Prod.mk.inj same
    refine ⟨⟨change item, List.mem_map_of_mem member, (sameKey item).trans isKey⟩, ?_⟩
    rw [sorted]
    exact congrArg _ isSorted

end Pages

end Mosschat.Library
