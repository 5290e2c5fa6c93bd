import Mathlib.Data.List.AList

/-!
Owns the hash map the program's collections are modelled by: Mathlib's
association lists, with an insertion that keeps an occupied key's place. The
order of the entries stands for the iteration order of one map.

Does not own that an answer read off a walk over the entries is the same for every
iteration order; a caller that walks them proves it of `Reordered` maps.
-/

namespace Mosschat.Library

universe u v

/-- A finite map together with one iteration order. -/
abbrev HashMap (κ : Type u) (ν : Type v) := AList (fun _ : κ => ν)

namespace HashMap

variable {κ : Type u} {ν : Type v} [DecidableEq κ]

/-- Set `key` to `value`. An occupied key keeps its place in the iteration. -/
def put (map : HashMap κ ν) (key : κ) (value : ν) : HashMap κ ν :=
  if key ∈ map then map.replace key value else map.insert key value

/-- Set `key` to `value` unless it is occupied. -/
def orInsert (map : HashMap κ ν) (key : κ) (value : ν) : HashMap κ ν :=
  if key ∈ map then map else map.insert key value

/-- The values in iteration order. -/
def values (map : HashMap κ ν) : List ν := map.entries.map Sigma.snd

/-- The key of the first entry whose value meets `wanted`. -/
def findKey (map : HashMap κ ν) (wanted : ν → Bool) : Option κ :=
  (map.entries.find? fun entry => wanted entry.2).map Sigma.fst

/-- Keep the entries that meet `keep`, in their order. -/
def retain (map : HashMap κ ν) (keep : κ → ν → Bool) : HashMap κ ν where
  entries := map.entries.filter fun entry => keep entry.1 entry.2
  nodupKeys := map.nodupKeys.sublist List.filter_sublist

private theorem kreplace_cons_self (key : κ) (old value : ν) (rest : List (Σ _ : κ, ν)) :
    List.kreplace key value (⟨key, old⟩ :: rest) = ⟨key, value⟩ :: rest := by
  simp only [List.kreplace]
  exact List.lookmap_cons_some _ _ (by simp)

private theorem kreplace_cons_ne {key head : κ} (differs : key ≠ head) (old value : ν)
    (rest : List (Σ _ : κ, ν)) :
    List.kreplace key value (⟨head, old⟩ :: rest) =
      ⟨head, old⟩ :: List.kreplace key value rest := by
  simp only [List.kreplace]
  exact List.lookmap_cons_none _ _ (by simp [differs])

private theorem dlookup_kreplace (key other : κ) (value : ν) :
    ∀ entries : List (Σ _ : κ, ν),
      (entries.kreplace key value).dlookup other =
        if other = key then (entries.dlookup key).map fun _ => value
        else entries.dlookup other
  | [] => by simp [List.kreplace, List.lookmap, List.lookmap.go]
  | ⟨head, old⟩ :: rest => by
      have step := dlookup_kreplace key other value rest
      by_cases hit : key = head
      · subst hit
        rw [kreplace_cons_self]
        by_cases isKey : other = key
        · subst isKey
          simp
        · simp [isKey, List.dlookup_cons_ne rest ⟨key, value⟩ isKey]
      · rw [kreplace_cons_ne hit]
        by_cases isHead : other = head
        · subst isHead
          simp [Ne.symm hit]
        · rw [List.dlookup_cons_ne _ _ isHead, step, List.dlookup_cons_ne (a := key) _ _ hit,
            List.dlookup_cons_ne (a := other) _ _ isHead]

@[simp] theorem lookup_put (map : HashMap κ ν) (key other : κ) (value : ν) :
    (map.put key value).lookup other = if other = key then some value else map.lookup other := by
  unfold put
  split
  · next occupied =>
      obtain ⟨old, found⟩ := Option.isSome_iff_exists.mp (AList.lookup_isSome.mpr occupied)
      have replaced := dlookup_kreplace key other value map.entries
      change AList.lookup other (map.replace key value) = _ at replaced
      rw [replaced]
      change (if other = key then (AList.lookup key map).map _ else AList.lookup other map) = _
      rw [found]
      rfl
  · by_cases isKey : other = key
    · subst isKey
      simp
    · simp [isKey, AList.lookup_insert_ne]

@[simp] theorem mem_put (map : HashMap κ ν) (key other : κ) (value : ν) :
    other ∈ map.put key value ↔ other = key ∨ other ∈ map := by
  rw [← AList.lookup_isSome, ← AList.lookup_isSome, lookup_put]
  by_cases isKey : other = key <;> simp [isKey]

@[simp] theorem lookup_orInsert (map : HashMap κ ν) (key other : κ) (value : ν) :
    (map.orInsert key value).lookup other =
      if other = key then some ((map.lookup key).getD value) else map.lookup other := by
  unfold orInsert
  split
  · next occupied =>
      obtain ⟨old, found⟩ := Option.isSome_iff_exists.mp (AList.lookup_isSome.mpr occupied)
      by_cases isKey : other = key
      · subst isKey
        simp [found]
      · simp [isKey]
  · next vacant =>
      have none : map.lookup key = none := AList.lookup_eq_none.mpr vacant
      by_cases isKey : other = key
      · subst isKey
        simp [none]
      · simp [isKey, AList.lookup_insert_ne]

theorem mem_orInsert (map : HashMap κ ν) (key other : κ) (value : ν) :
    other ∈ map.orInsert key value ↔ other = key ∨ other ∈ map := by
  rw [← AList.lookup_isSome, ← AList.lookup_isSome, lookup_orInsert]
  by_cases isKey : other = key <;> simp [isKey]

@[simp] theorem lookup_erase (map : HashMap κ ν) (key other : κ) :
    (map.erase key).lookup other = if other = key then none else map.lookup other := by
  by_cases isKey : other = key
  · subst isKey
    simp
  · simp [isKey, AList.lookup_erase_ne]

theorem lookup_retain_eq_some {map : HashMap κ ν} {keep : κ → ν → Bool} {key : κ} {value : ν} :
    (map.retain keep).lookup key = some value ↔
      map.lookup key = some value ∧ keep key value = true := by
  show value ∈ (map.retain keep).lookup key ↔ value ∈ map.lookup key ∧ _
  rw [AList.mem_lookup_iff, AList.mem_lookup_iff]
  exact List.mem_filter

@[simp] theorem lookup_retain (map : HashMap κ ν) (keep : κ → ν → Bool) (key : κ) :
    (map.retain keep).lookup key = (map.lookup key).filter (keep key) := by
  ext value
  rw [lookup_retain_eq_some, Option.filter_eq_some_iff]

/-- Where every entry is kept, nothing changes. -/
theorem retain_eq_self {map : HashMap κ ν} {keep : κ → ν → Bool}
    (kept : ∀ key value, map.lookup key = some value → keep key value = true) :
    map.retain keep = map := by
  apply AList.ext
  show map.entries.filter _ = map.entries
  rw [List.filter_eq_self]
  intro entry member
  exact kept entry.1 entry.2 (AList.mem_lookup_iff.mpr member)

/-- Many keys set to one value, the occupied ones kept. -/
theorem lookup_foldl_orInsert (map : HashMap κ ν) (keys : List κ) (other : κ) (value : ν) :
    (keys.foldl (fun map key => map.orInsert key value) map).lookup other =
      if other ∈ keys then some ((map.lookup other).getD value) else map.lookup other := by
  induction keys generalizing map with
  | nil => simp
  | cons key rest ih =>
      rw [List.foldl_cons, ih, lookup_orInsert]
      by_cases isKey : other = key
      · subst isKey
        simp
      · simp [isKey]

/-- What is found after many entries were set is one of them, or was there. -/
theorem lookup_foldl_put {map : HashMap κ ν} {entries : List (κ × ν)} {key : κ} {value : ν}
    (found : (entries.foldl (fun map entry => map.put entry.1 entry.2) map).lookup key =
      some value) : (key, value) ∈ entries ∨ map.lookup key = some value := by
  induction entries generalizing map with
  | nil => exact Or.inr found
  | cons entry rest ih =>
      rcases ih found with later | before
      · exact Or.inl (List.mem_cons_of_mem entry later)
      · rw [lookup_put] at before
        split at before
        · next isKey =>
            cases before
            rw [isKey]
            exact Or.inl List.mem_cons_self
        · exact Or.inr before

/-- What no later entry was set over is still found. -/
theorem lookup_foldl_put_of_not_mem {map : HashMap κ ν} {entries : List (κ × ν)} {key : κ}
    (elsewhere : ∀ entry ∈ entries, entry.1 ≠ key) :
    (entries.foldl (fun map entry => map.put entry.1 entry.2) map).lookup key =
      map.lookup key := by
  induction entries generalizing map with
  | nil => rfl
  | cons entry rest ih =>
      have apart : key ≠ entry.1 := (elsewhere entry List.mem_cons_self).symm
      rw [List.foldl_cons,
        ih fun later member => elsewhere later (List.mem_cons_of_mem entry member),
        lookup_put, if_neg apart]

/-- Setting a key makes room for it where it was not there. -/
theorem length_put (map : HashMap κ ν) (key : κ) (value : ν) :
    (map.put key value).entries.length =
      if key ∈ map then map.entries.length else map.entries.length + 1 := by
  unfold put
  split
  · have sameKeys : (map.entries.kreplace key value).keys = map.entries.keys :=
      List.keys_kreplace key value map.entries
    have sameLength : (map.entries.kreplace key value).length = map.entries.length := by
      simpa only [List.keys, List.length_map] using congrArg List.length sameKeys
    exact sameLength
  · next vacant =>
      have unchanged : map.entries.kerase key = map.entries := List.kerase_of_notMem_keys vacant
      show (⟨key, value⟩ :: map.entries.kerase key).length = _
      rw [unchanged, List.length_cons]

theorem length_erase_le (map : HashMap κ ν) (key : κ) :
    (map.erase key).entries.length ≤ map.entries.length := by
  exact (List.kerase_sublist key map.entries).length_le

theorem length_erase_of_mem {map : HashMap κ ν} {key : κ} (occupied : key ∈ map) :
    (map.erase key).entries.length + 1 = map.entries.length := by
  have isKey : key ∈ map.entries.keys := occupied
  have shorter : (map.entries.keys.erase key).length = map.entries.keys.length - 1 :=
    List.length_erase_of_mem isKey
  have sameKeys : (map.entries.kerase key).keys = map.entries.keys.erase key := List.keys_kerase
  have positive : 0 < map.entries.keys.length := List.length_pos_of_mem isKey
  have lengths : (map.entries.kerase key).length = (map.entries.kerase key).keys.length :=
    (List.length_map _).symm
  have before : map.entries.length = map.entries.keys.length := (List.length_map _).symm
  show (map.entries.kerase key).length + 1 = map.entries.length
  rw [sameKeys] at lengths
  omega

omit [DecidableEq κ] in
theorem length_retain_le (map : HashMap κ ν) (keep : κ → ν → Bool) :
    (map.retain keep).entries.length ≤ map.entries.length :=
  List.length_filter_le _ map.entries

/-- A map that answers no key has no entry. -/
theorem eq_empty_of_lookup {map : HashMap κ ν} (vacant : ∀ key, map.lookup key = none) :
    map = ∅ := by
  apply AList.ext
  cases isEntries : map.entries with
  | nil => rfl
  | cons entry rest =>
      have inside : entry ∈ map.entries := by
        rw [isEntries]
        exact List.mem_cons_self
      have found : map.lookup entry.1 = some entry.2 := AList.mem_lookup_iff.mpr inside
      rw [vacant] at found
      cases found

theorem mem_values (map : HashMap κ ν) (value : ν) :
    value ∈ map.values ↔ ∃ key, map.lookup key = some value := by
  simp only [values, List.mem_map]
  constructor
  · rintro ⟨⟨key, _⟩, member, rfl⟩
    exact ⟨key, AList.mem_lookup_iff.mpr member⟩
  · rintro ⟨key, found⟩
    exact ⟨⟨key, value⟩, AList.mem_lookup_iff.mp found, rfl⟩

theorem lookup_of_findKey {map : HashMap κ ν} {wanted : ν → Bool} {key : κ}
    (found : map.findKey wanted = some key) :
    ∃ value, map.lookup key = some value ∧ wanted value = true := by
  obtain ⟨⟨_, value⟩, isFirst, rfl⟩ := Option.map_eq_some_iff.mp found
  have member := List.mem_of_find?_eq_some isFirst
  have meets := List.find?_some isFirst
  exact ⟨value, AList.mem_lookup_iff.mpr member, meets⟩

theorem findKey_eq_none {map : HashMap κ ν} {wanted : ν → Bool} :
    map.findKey wanted = none ↔
      ∀ key value, map.lookup key = some value → wanted value = false := by
  rw [findKey, Option.map_eq_none_iff, List.find?_eq_none]
  constructor
  · intro absent key value found
    simpa using absent ⟨key, value⟩ (AList.mem_lookup_iff.mp found)
  · rintro absent ⟨key, value⟩ member
    simpa using absent key value (AList.mem_lookup_iff.mpr member)

/-- Setting a key to the value it has changes nothing. -/
theorem put_of_lookup {map : HashMap κ ν} {key : κ} {value : ν}
    (found : map.lookup key = some value) : map.put key value = map := by
  have occupied : key ∈ map := AList.lookup_isSome.mp (by simp [found])
  rw [put, if_pos occupied]
  apply AList.ext
  exact List.kreplace_self map.nodupKeys (AList.mem_lookup_iff.mp found)

private theorem kreplace_kreplace (key : κ) (first second : ν) (entries : List (Σ _ : κ, ν)) :
    (entries.kreplace key first).kreplace key second = entries.kreplace key second := by
  induction entries with
  | nil => rfl
  | cons entry rest ih =>
      obtain ⟨head, old⟩ := entry
      by_cases hit : key = head
      · subst hit
        rw [kreplace_cons_self, kreplace_cons_self, kreplace_cons_self]
      · rw [kreplace_cons_ne hit, kreplace_cons_ne hit, kreplace_cons_ne hit, ih]

/-- Of two values set at one key, in turn, the second stays. -/
theorem put_put (map : HashMap κ ν) (key : κ) (first second : ν) :
    (map.put key first).put key second = map.put key second := by
  have occupied : key ∈ map.put key first := (mem_put map key key first).mpr (Or.inl rfl)
  rw [put, if_pos occupied]
  apply AList.ext
  show List.kreplace key second (map.put key first).entries = (map.put key second).entries
  unfold put
  split
  · exact kreplace_kreplace key first second map.entries
  · exact kreplace_cons_self key first second (map.entries.kerase key)

theorem put_orInsert (map : HashMap κ ν) (key : κ) (first second : ν) :
    (map.orInsert key first).put key second = map.put key second := by
  unfold orInsert
  split
  · rfl
  · next vacant =>
      have set : map.insert key first = map.put key first := by rw [put, if_neg vacant]
      rw [set, put_put]

/-! ### Iteration orders -/

/-- The same entries in another iteration order. -/
def Reordered (left right : HashMap κ ν) : Prop := left.entries.Perm right.entries

section Reordered

variable {left right : HashMap κ ν}

theorem Reordered.lookup_eq (reordered : Reordered left right) (key : κ) :
    left.lookup key = right.lookup key :=
  AList.perm_lookup reordered

omit [DecidableEq κ] in
theorem Reordered.keys_perm (reordered : Reordered left right) : left.keys.Perm right.keys :=
  List.Perm.map Sigma.fst reordered

theorem Reordered.mem_iff (reordered : Reordered left right) (key : κ) :
    key ∈ left ↔ key ∈ right := by
  rw [← AList.lookup_isSome, ← AList.lookup_isSome, reordered.lookup_eq]

theorem reordered_of_lookup (same : ∀ key, left.lookup key = right.lookup key) :
    Reordered left right := by
  apply List.lookup_ext left.nodupKeys right.nodupKeys
  intro key value
  exact iff_of_eq (congrArg (value ∈ ·) (same key))

/-- The values in another order, that of one key first. -/
theorem values_perm {map : HashMap κ ν} {key : κ} {value : ν}
    (found : map.lookup key = some value) :
    map.values.Perm (value :: values (map.erase key)) := by
  have vacant : key ∉ map.erase key := fun occupied => (AList.mem_erase.mp occupied).1 rfl
  have rebuilt : Reordered map ((map.erase key).insert key value) := by
    apply reordered_of_lookup
    intro other
    by_cases same : other = key
    · rw [same, found, AList.lookup_insert]
    · rw [AList.lookup_insert_ne same, AList.lookup_erase_ne same]
  have entries := AList.entries_insert_of_notMem (b := value) vacant
  unfold Reordered at rebuilt
  rw [entries] at rebuilt
  exact rebuilt.map Sigma.snd

/-- Setting a key leaves the values of the others. -/
theorem values_put_perm (map : HashMap κ ν) (key : κ) (value : ν) :
    (map.put key value).values.Perm (value :: values (map.erase key)) := by
  have isSet : (map.put key value).lookup key = some value := by
    rw [lookup_put, if_pos rfl]
  have others : Reordered ((map.put key value).erase key) (map.erase key) := by
    apply reordered_of_lookup
    intro other
    rw [lookup_erase, lookup_erase, lookup_put]
    split
    · rfl
    · rfl
  have values_others : (values ((map.put key value).erase key)).Perm (values (map.erase key)) := by
    unfold values
    exact List.Perm.map _ others
  exact (values_perm isSet).trans (values_others.cons value)

end Reordered

/-! ### Reading every value through one function -/

section MapValues

variable {μ : Type*} (read : ν → μ)

/-- The map with every value read through `read`, in the same order. -/
def mapValues (map : HashMap κ ν) : HashMap κ μ where
  entries := map.entries.map fun entry => ⟨entry.1, read entry.2⟩
  nodupKeys := by
    have sameKeys : (map.entries.map fun entry => (⟨entry.1, read entry.2⟩ : Σ _ : κ, μ)).keys =
        map.entries.keys := by
      simp [List.keys, Function.comp_def]
    rw [List.NodupKeys, sameKeys]
    exact map.nodupKeys

@[simp] theorem lookup_mapValues (map : HashMap κ ν) (key : κ) :
    (map.mapValues read).lookup key = (map.lookup key).map read :=
  List.dlookup_map₂ (f := fun _ => read) key

@[simp] theorem mem_mapValues (map : HashMap κ ν) (key : κ) :
    key ∈ map.mapValues read ↔ key ∈ map := by
  rw [← AList.lookup_isSome, ← AList.lookup_isSome, lookup_mapValues, Option.isSome_map]

omit [DecidableEq κ] in
theorem findKey_mapValues (map : HashMap κ ν) (wanted : μ → Bool) :
    (map.mapValues read).findKey wanted = map.findKey (wanted ∘ read) := by
  simp only [findKey, mapValues, List.find?_map, Option.map_map]
  rfl

private theorem map_kreplace (key : κ) (value : ν) :
    ∀ entries : List (Σ _ : κ, ν),
      (entries.kreplace key value).map (fun entry => (⟨entry.1, read entry.2⟩ : Σ _ : κ, μ)) =
        (entries.map fun entry => (⟨entry.1, read entry.2⟩ : Σ _ : κ, μ)).kreplace key (read value)
  | [] => rfl
  | ⟨head, old⟩ :: rest => by
      have step := map_kreplace key value rest
      by_cases hit : key = head
      · subst hit
        rw [kreplace_cons_self, List.map_cons, List.map_cons, kreplace_cons_self]
      · rw [kreplace_cons_ne hit, List.map_cons, List.map_cons, kreplace_cons_ne hit, step]

theorem mapValues_put (map : HashMap κ ν) (key : κ) (value : ν) :
    (map.put key value).mapValues read = (map.mapValues read).put key (read value) := by
  unfold put
  simp only [mem_mapValues]
  split
  · exact AList.ext (map_kreplace read key value map.entries)
  · next vacant =>
      apply AList.ext
      rw [AList.entries_insert_of_notMem (by simpa using vacant)]
      simp only [mapValues, AList.entries_insert_of_notMem vacant, List.map_cons]

end MapValues

end HashMap

end Mosschat.Library
