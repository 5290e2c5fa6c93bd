import Mathlib.Data.List.Dedup
import Mathlib.Data.List.Induction
import Mathlib.Data.List.Nodup
import Mathlib.Data.List.Perm.Subperm

/-!
Owns the collection of a list's items up to a cap, in their order: each that fits, and whose
key no item taken before it has.

Does not own what fits, nor the keys.
-/

namespace Mosschat.Library.Collect

universe u v

variable {α : Type u} {κ : Type v} [DecidableEq κ]

/-- Take the items of a list that fit and are new, until there are `cap` of them. -/
def collect (key : α → κ) (fits : α → Bool) (cap : Nat) (taken : List α) : List α → List α
  | [] => taken
  | item :: rest =>
    if cap ≤ taken.length then taken
    else if !fits item then collect key fits cap taken rest
    else if taken.any fun earlier => key earlier == key item then collect key fits cap taken rest
    else collect key fits cap (taken ++ [item]) rest

section Rules

variable {key : α → κ} {fits : α → Bool} {cap : Nat}

theorem collect_full {taken : List α} (isFull : cap ≤ taken.length) (items : List α) :
    collect key fits cap taken items = taken := by
  cases items with
  | nil => rfl
  | cons item rest => rw [collect, if_pos isFull]

theorem mem_keys_of_any {taken : List α} {item : α}
    (known : (taken.any fun earlier => key earlier == key item) = true) :
    key item ∈ taken.map key := by
  obtain ⟨earlier, member, same⟩ := List.any_eq_true.mp known
  rw [← beq_iff_eq.mp same]
  exact List.mem_map_of_mem member

theorem not_mem_keys_of_any {taken : List α} {item : α}
    (unknown : ¬(taken.any fun earlier => key earlier == key item) = true) :
    key item ∉ taken.map key := by
  intro member
  obtain ⟨earlier, inside, same⟩ := List.mem_map.mp member
  apply unknown
  rw [List.any_eq_true]
  exact ⟨earlier, inside, beq_iff_eq.mpr same⟩

/-- One item: all is taken already, or the item is passed over, or it is taken. -/
theorem collect_cons_cases (key : α → κ) (fits : α → Bool) (cap : Nat) (taken : List α)
    (item : α) :
    cap ≤ taken.length ∧ (∀ rest, collect key fits cap taken (item :: rest) = taken) ∨
      taken.length < cap ∧ (fits item = true → key item ∈ taken.map key) ∧
        (∀ rest, collect key fits cap taken (item :: rest) = collect key fits cap taken rest) ∨
      taken.length < cap ∧ fits item = true ∧ key item ∉ taken.map key ∧
        ∀ rest, collect key fits cap taken (item :: rest) =
          collect key fits cap (taken ++ [item]) rest := by
  by_cases isFull : cap ≤ taken.length
  · exact Or.inl ⟨isFull, fun rest => collect_full isFull (item :: rest)⟩
  · right
    have room : taken.length < cap := Nat.lt_of_not_le isFull
    by_cases isFit : fits item = true
    · by_cases known : (taken.any fun earlier => key earlier == key item) = true
      · left
        refine ⟨room, fun _ => mem_keys_of_any known, ?_⟩
        intro rest
        simp only [collect, if_neg isFull, isFit, Bool.not_true, Bool.false_eq_true, if_false,
          known, if_true]
      · right
        refine ⟨room, isFit, not_mem_keys_of_any known, ?_⟩
        intro rest
        simp only [collect, if_neg isFull, isFit, Bool.not_true, Bool.false_eq_true, if_false,
          known]
    · left
      refine ⟨room, fun fit => absurd fit isFit, ?_⟩
      intro rest
      simp only [collect, if_neg isFull, isFit, Bool.not_false, if_true]

theorem collect_append (taken front rest : List α) :
    collect key fits cap taken (front ++ rest) =
      collect key fits cap (collect key fits cap taken front) rest := by
  induction front generalizing taken with
  | nil => rfl
  | cons item front ih =>
      rw [List.cons_append]
      rcases collect_cons_cases key fits cap taken item with
        ⟨isFull, same⟩ | ⟨_, _, passed⟩ | ⟨_, _, _, pushed⟩
      · rw [same, same, collect_full isFull]
      · rw [passed, passed, ih]
      · rw [pushed, pushed, ih]

/-- What is taken stays taken, at the front. -/
theorem prefix_collect (taken items : List α) : taken <+: collect key fits cap taken items := by
  induction items generalizing taken with
  | nil => exact List.prefix_refl taken
  | cons item rest ih =>
      rcases collect_cons_cases key fits cap taken item with
        ⟨_, same⟩ | ⟨_, _, passed⟩ | ⟨_, _, _, pushed⟩
      · simp only [same, List.prefix_refl]
      · rw [passed]
        exact ih taken
      · rw [pushed]
        exact (List.prefix_append taken [item]).trans (ih _)

theorem length_collect_le {taken : List α} (within : taken.length ≤ cap) (items : List α) :
    (collect key fits cap taken items).length ≤ cap := by
  induction items generalizing taken with
  | nil => exact within
  | cons item rest ih =>
      rcases collect_cons_cases key fits cap taken item with
        ⟨_, same⟩ | ⟨_, _, passed⟩ | ⟨room, _, _, pushed⟩
      · rw [same]
        exact within
      · rw [passed]
        exact ih within
      · rw [pushed]
        apply ih
        rw [List.length_append]
        exact room

variable (key fits cap) in
/-- The items are taken in their order. -/
theorem collect_sublist (taken items : List α) :
    ∃ more, collect key fits cap taken items = taken ++ more ∧ more.Sublist items := by
  induction items generalizing taken with
  | nil => exact ⟨[], (List.append_nil taken).symm, List.Sublist.refl []⟩
  | cons item rest ih =>
      rcases collect_cons_cases key fits cap taken item with
        ⟨_, same⟩ | ⟨_, _, passed⟩ | ⟨_, _, _, pushed⟩
      · exact ⟨[], by rw [same, List.append_nil], List.nil_sublist _⟩
      · obtain ⟨more, isMore, inside⟩ := ih taken
        exact ⟨more, by rw [passed, isMore], inside.cons item⟩
      · obtain ⟨more, isMore, inside⟩ := ih (taken ++ [item])
        refine ⟨item :: more, ?_, inside.cons_cons item⟩
        rw [pushed, isMore, List.append_assoc]
        rfl

/-- What holds of an item and all that was taken before it holds of all that is taken. -/
theorem pairwise_collect {related : α → α → Prop} {items : List α}
    (apart : ∀ front item rest, items = front ++ item :: rest → fits item = true →
      (collect key fits cap [] front).length < cap →
      key item ∉ (collect key fits cap [] front).map key →
        ∀ earlier ∈ collect key fits cap [] front, related earlier item) :
    (collect key fits cap [] items).Pairwise related := by
  induction items using List.reverseRecOn with
  | nil => exact List.Pairwise.nil
  | append_singleton items last ih =>
      have before : (collect key fits cap [] items).Pairwise related := by
        apply ih
        intro front item rest isSplit
        apply apart front item (rest ++ [last])
        rw [isSplit, List.append_assoc, List.cons_append]
      rw [collect_append]
      rcases collect_cons_cases key fits cap (collect key fits cap [] items) last with
        ⟨_, same⟩ | ⟨_, _, passed⟩ | ⟨room, isFit, isNew, pushed⟩
      · rw [same]
        exact before
      · rw [passed]
        exact before
      · rw [pushed]
        apply List.pairwise_append.mpr
        refine ⟨before, List.pairwise_singleton _ _, ?_⟩
        intro earlier member other isLast
        rw [List.mem_singleton.mp isLast]
        exact apart items last [] rfl isFit room isNew earlier member

variable (key fits cap) in
/-- No two items of one key are taken. -/
theorem nodup_keys_collect (items : List α) : ((collect key fits cap [] items).map key).Nodup := by
  apply List.pairwise_map.mpr
  apply pairwise_collect
  intro front item rest _ _ _ isNew earlier member same
  apply isNew
  rw [← same]
  exact List.mem_map_of_mem member

/-! ## What is taken when -/

variable (key fits cap) in
/-- Before an item that fits, so many were taken that it is left out, or one of its key
was, or it is the next that is taken. -/
theorem collect_reaches (front rest : List α) {item : α} (isFit : fits item = true) :
    let before := collect key fits cap [] front
    let out := collect key fits cap [] (front ++ item :: rest)
    before <+: out ∧ before.Sublist front ∧
      (before.length = cap ∨ (before.length < cap ∧ key item ∈ before.map key) ∨
        (before.length < cap ∧ key item ∉ before.map key ∧ before ++ [item] <+: out)) := by
  intro before out
  have isOut : out = collect key fits cap before (item :: rest) := collect_append [] front _
  have ahead : before <+: out := by
    rw [isOut]
    exact prefix_collect before _
  obtain ⟨more, isMore, inside⟩ := collect_sublist key fits cap [] front
  have ordered : before.Sublist front := by
    show (collect key fits cap [] front).Sublist front
    rw [isMore]
    exact inside
  refine ⟨ahead, ordered, ?_⟩
  have bounded : before.length ≤ cap := length_collect_le (Nat.zero_le _) front
  rcases collect_cons_cases key fits cap before item with
    ⟨isFull, _⟩ | ⟨room, known, _⟩ | ⟨room, _, isNew, pushed⟩
  · exact Or.inl (Nat.le_antisymm bounded isFull)
  · exact Or.inr (Or.inl ⟨room, known isFit⟩)
  · right
    right
    refine ⟨room, isNew, ?_⟩
    rw [isOut, pushed]
    exact prefix_collect _ rest

/-- What was taken stood where it fitted, was new, and there was room. -/
theorem mem_collect {items : List α} {item : α} (member : item ∈ collect key fits cap [] items) :
    ∃ front rest, items = front ++ item :: rest ∧ fits item = true ∧
      (collect key fits cap [] front).length < cap ∧
      key item ∉ (collect key fits cap [] front).map key := by
  induction items using List.reverseRecOn with
  | nil => cases member
  | append_singleton items last ih =>
      have earlier : item ∈ collect key fits cap [] items →
          ∃ front rest, items ++ [last] = front ++ item :: rest ∧ fits item = true ∧
            (collect key fits cap [] front).length < cap ∧
            key item ∉ (collect key fits cap [] front).map key := by
        intro inside
        obtain ⟨front, rest, isSplit, there⟩ := ih inside
        exact ⟨front, rest ++ [last], by rw [isSplit, List.append_assoc, List.cons_append], there⟩
      rw [collect_append] at member
      rcases collect_cons_cases key fits cap (collect key fits cap [] items) last with
        ⟨_, same⟩ | ⟨_, _, passed⟩ | ⟨room, isFit, isNew, pushed⟩
      · rw [same] at member
        exact earlier member
      · rw [passed] at member
        exact earlier member
      · rw [pushed] at member
        rcases List.mem_append.mp member with inside | isLast
        · exact earlier inside
        · have isItem : item = last := List.mem_singleton.mp isLast
          rw [isItem]
          exact ⟨items, [], rfl, isFit, room, isNew⟩

/-- While there is room, every key of an item that fits is taken. -/
theorem keys_of_room {items : List α} (room : (collect key fits cap [] items).length < cap)
    {item : α} (member : item ∈ items) (isFit : fits item = true) :
    key item ∈ (collect key fits cap [] items).map key := by
  obtain ⟨front, rest, rfl⟩ := List.append_of_mem member
  obtain ⟨ahead, _, reached⟩ := collect_reaches key fits cap front rest isFit
  have keysAhead := ahead.map key
  rcases reached with isFull | ⟨_, known⟩ | ⟨_, _, next⟩
  · have longer := ahead.length_le
    omega
  · exact keysAhead.subset known
  · apply (next.map key).subset
    rw [List.map_append]
    exact List.mem_append_right _ (List.mem_singleton_self _)

/-- The keys of the items that fit, each once. -/
def keysOf (key : α → κ) (fits : α → Bool) (items : List α) : List κ :=
  ((items.filter fits).map key).dedup

theorem mem_keysOf {items : List α} {value : κ} :
    value ∈ keysOf key fits items ↔ ∃ item ∈ items, fits item = true ∧ key item = value := by
  unfold keysOf
  rw [List.mem_dedup, List.mem_map]
  simp only [List.mem_filter, and_assoc]

/-- There is room for more exactly while fewer keys than the cap were seen. -/
theorem length_collect_lt_iff (items : List α) :
    (collect key fits cap [] items).length < cap ↔ (keysOf key fits items).length < cap := by
  have distinct := nodup_keys_collect key fits cap items
  have seen : (collect key fits cap [] items).map key ⊆ keysOf key fits items := by
    intro value member
    obtain ⟨item, inside, isKey⟩ := List.mem_map.mp member
    obtain ⟨front, rest, isSplit, isFit, _⟩ := mem_collect inside
    apply mem_keysOf.mpr
    refine ⟨item, ?_, isFit, isKey⟩
    rw [isSplit]
    exact List.mem_append_right _ List.mem_cons_self
  have fewer : (collect key fits cap [] items).length ≤ (keysOf key fits items).length := by
    have counted := (List.subperm_of_subset distinct seen).length_le
    rw [List.length_map] at counted
    exact counted
  constructor
  · intro room
    have all : keysOf key fits items ⊆ (collect key fits cap [] items).map key := by
      intro value member
      obtain ⟨item, inside, isFit, isKey⟩ := mem_keysOf.mp member
      rw [← isKey]
      exact keys_of_room room inside isFit
    have counted := (List.subperm_of_subset (List.nodup_dedup _) all).length_le
    rw [List.length_map] at counted
    exact Nat.lt_of_le_of_lt counted room
  · intro few
    exact Nat.lt_of_le_of_lt fewer few

end Rules

end Mosschat.Library.Collect
