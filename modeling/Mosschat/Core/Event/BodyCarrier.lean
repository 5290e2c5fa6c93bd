import Mosschat.Core.Event.BodyCaps
import Mosschat.Library.Cbor.WellFormed

/-!
Owns what the carrier of an unknown body type holds. `from_cbor` keeps the bytes
of such a body after it has read three heads: the map's, the first key's and the
type's. What they announce need not follow.
-/

namespace Mosschat.Core

open Mosschat.Library.Cbor

/-- `input` is one well-formed definite-length map and nothing else, and its first
entry takes key 0 to the type. -/
def TypedMap (input : Bytes) (typeValue : UInt64) : Prop :=
  ∃ key value others, IsMap ((key, value) :: others) input ∧
    Head majorUnsigned key 0 ∧ Head majorUnsigned value typeValue.toNat

/-- The carrier of an unknown type holds a body, and what is no body is refused. -/
def Body.CarriesBodies (input : Bytes) : Prop :=
  (∀ typeValue raw, Body.fromCbor input = .ok (.unknown typeValue raw) →
      raw = input ∧ TypedMap input typeValue) ∧
    ∀ typeValue rest, decodeTypeValue input = .ok (typeValue, rest) →
      decodeKnown typeValue = none → ¬TypedMap input typeValue →
        ∃ reason, Body.fromCbor input = .error reason

/-- The three heads that `from_cbor` reads: the entries the map counts, and the type. -/
def decodeHeads : Decoder (Nat × UInt64) := do
  match ← map with
  | none => throw (malformed "body must be a definite-length CBOR map")
  | some entries =>
      let key0 ← u64
      if key0 ≠ 0 then throw (malformed "body map's first key must be 0 (the type)")
      else do
        let typeValue ← u64
        pure (entries, typeValue)

/-- The check that an unknown type is carried without: the map has a first entry,
and what follows the type is the other entries and no more. -/
def Body.tailChecked (input : Bytes) : Bool :=
  match decodeHeads input with
  | .error _ => true
  | .ok ((entries, typeValue), rest) =>
    (decodeKnown typeValue).isSome || (decide (0 < entries) && checkEntries (entries - 1) rest)

/-! ## The three heads -/

section Heads

variable {input rest : Bytes} {typeValue : UInt64} {entries : Nat}

theorem decodeTypeValue_eq : decodeTypeValue = Prod.snd <$> decodeHeads := by
  unfold decodeTypeValue decodeHeads
  rw [map_bind]
  congr 1
  funext length
  cases length with
  | none => rfl
  | some entries =>
    simp only [map_bind]
    congr 1
    funext key0
    split_ifs with other
    · rfl
    · simp only [map_bind, map_pure, bind_pure]

theorem decodeTypeValue_eq_ok : decodeTypeValue input = .ok (typeValue, rest) ↔
    ∃ entries, decodeHeads input = .ok ((entries, typeValue), rest) := by
  rw [decodeTypeValue_eq, map_eq_ok]
  constructor
  · rintro ⟨⟨entries, _⟩, isRead, rfl⟩
    exact ⟨entries, isRead⟩
  · rintro ⟨entries, isRead⟩
    exact ⟨(entries, typeValue), isRead, rfl⟩

/-- The heads of a typed map are read, whatever stands behind them. -/
theorem reads_decodeHeads {header key value : Bytes} (counted : Head majorMap header entries)
    (isKey : Head majorUnsigned key 0) (isValue : Head majorUnsigned value typeValue.toNat) :
    Reads decodeHeads (header ++ (key ++ value)) (entries, typeValue) := by
  have readsKey : Reads u64 key 0 := isKey.reads_u64
  have readsValue : Reads u64 value typeValue := isValue.reads_u64
  refine counted.reads_lengthHead.bind ?_
  refine readsKey.bind ?_
  exact (readsValue.bind_pure (Reads.pure (entries, typeValue))).refuse (by decide)

/-- What is read as three heads is three heads. -/
theorem consumes_decodeHeads : Consumes decodeHeads fun front heads =>
    ∃ header key value, front = header ++ (key ++ value) ∧ Head majorMap header heads.1 ∧
      Head majorUnsigned key 0 ∧ Head majorUnsigned value heads.2.toNat := by
  refine consumes_map.bind fun header length isLength => ?_
  cases length with
  | none => exact Consumes.throw
  | some entries =>
    refine consumes_u64.bind fun key key0 isKey => ?_
    refine Consumes.ite (fun _ => Consumes.throw) fun isZero => ?_
    refine consumes_u64.bind fun value typeValue isValue => Consumes.pure ?_
    rw [not_not.mp isZero] at isKey
    refine ⟨header, key, value, ?_, isLength entries rfl, isKey, isValue⟩
    rw [List.append_nil]

theorem decodeHeads_of_isMap {key value : Bytes} {others : List (Bytes × Bytes)}
    (isMap : IsMap ((key, value) :: others) input) (isKey : Head majorUnsigned key 0)
    (isValue : Head majorUnsigned value typeValue.toNat) :
    decodeHeads input = .ok ((others.length + 1, typeValue), others.flatMap entryBytes) := by
  obtain ⟨header, counted, rfl⟩ := isMap.counted
  have reads := reads_decodeHeads counted isKey isValue (others.flatMap entryBytes)
  rwa [List.append_assoc] at reads

/-- A typed map is its three heads and the rest of its entries. -/
theorem typedMap_iff (isRead : decodeHeads input = .ok ((entries, typeValue), rest)) :
    TypedMap input typeValue ↔ 0 < entries ∧ Entries (entries - 1) rest := by
  constructor
  · rintro ⟨key, value, others, isMap, isKey, isValue⟩
    have keys := (List.forall_mem_cons.mp isMap.keys).2
    have values := (List.forall_mem_cons.mp isMap.values).2
    have heads := decodeHeads_of_isMap isMap isKey isValue
    rw [isRead] at heads
    cases heads
    exact ⟨Nat.succ_pos _, others, rfl, keys, values, rfl⟩
  · rintro ⟨positive, others, length, keys, values, flat⟩
    obtain ⟨front, isInput, header, key, value, isFront, counted, isKey, isValue⟩ :=
      consumes_decodeHeads input _ rest isRead
    have count : ((key, value) :: others).length = entries := by
      rw [List.length_cons, length]
      omega
    refine ⟨key, value, others, ⟨⟨header, ?_, ?_⟩, ?_, ?_⟩, isKey, isValue⟩
    · rw [count]
      exact counted
    · rw [isInput, isFront, List.flatMap_cons, flat, List.append_assoc]
      rfl
    · exact List.forall_mem_cons.mpr ⟨.number (Or.inl rfl) isKey, keys⟩
    · exact List.forall_mem_cons.mpr ⟨.number (Or.inl rfl) isValue, values⟩

end Heads

/-! ## The carrier -/

section Carrier

variable {input : Bytes}

theorem fromCbor_of_unknown {rest : Bytes} {typeValue : UInt64}
    (announced : decodeTypeValue input = .ok (typeValue, rest))
    (unknown : decodeKnown typeValue = none) :
    Body.fromCbor input = .ok (.unknown typeValue input) := by
  rw [Body.fromCbor, announced]
  simp only
  rw [unknown]

theorem announced_of_fromCbor {raw : Bytes} {typeValue : UInt64}
    (carried : Body.fromCbor input = .ok (.unknown typeValue raw)) :
    raw = input ∧ ∃ rest, decodeTypeValue input = .ok (typeValue, rest) ∧
      decodeKnown typeValue = none := by
  unfold Body.fromCbor at carried
  split at carried
  · cases carried
  · next announced rest read =>
    split at carried
    · next unknown =>
      cases carried
      exact ⟨rfl, rest, read, unknown⟩
    · next decoder known =>
      split at carried
      · cases carried
      · next body after decoded =>
        have admissible := Body.yields_decodeKnown known input body after decoded
        split_ifs at carried
        cases carried
        exact admissible.elim

theorem tailChecked_of_carriesBodies (carries : Body.CarriesBodies input) :
    Body.tailChecked input = true := by
  unfold Body.tailChecked
  split
  · rfl
  · next entries typeValue rest isRead =>
    cases unknown : decodeKnown typeValue with
    | some decoder => rfl
    | none =>
      have announced := decodeTypeValue_eq_ok.mpr ⟨entries, isRead⟩
      have carried := fromCbor_of_unknown announced unknown
      have typed := (carries.1 typeValue input carried).2
      obtain ⟨positive, others⟩ := (typedMap_iff isRead).mp typed
      simp [positive, checkEntries_iff.mpr others]

theorem carriesBodies_of_tailChecked (checked : Body.tailChecked input = true) :
    Body.CarriesBodies input := by
  have typed : ∀ typeValue rest, decodeTypeValue input = .ok (typeValue, rest) →
      decodeKnown typeValue = none → TypedMap input typeValue := by
    intro typeValue rest announced unknown
    obtain ⟨entries, isRead⟩ := decodeTypeValue_eq_ok.mp announced
    rw [Body.tailChecked, isRead] at checked
    simp only [unknown, Option.isSome_none, Bool.false_or, Bool.and_eq_true,
      decide_eq_true_eq] at checked
    exact (typedMap_iff isRead).mpr ⟨checked.1, checkEntries_iff.mp checked.2⟩
  constructor
  · intro typeValue raw carried
    obtain ⟨isInput, rest, announced, unknown⟩ := announced_of_fromCbor carried
    exact ⟨isInput, typed typeValue rest announced unknown⟩
  · intro typeValue rest announced unknown untyped
    exact absurd (typed typeValue rest announced unknown) untyped

/-- The carrier holds a body exactly where the check it does not make would pass. -/
theorem carriesBodies_iff_tailChecked (input : Bytes) :
    Body.CarriesBodies input ↔ Body.tailChecked input = true :=
  ⟨tailChecked_of_carriesBodies, carriesBodies_of_tailChecked⟩

/-- A map that counts no entry, and behind it a key 0 and the type 9. -/
theorem not_carriesBodies_emptyMap : ¬Body.CarriesBodies [0xa0, 0x00, 0x09] := by
  intro carries
  have checked := tailChecked_of_carriesBodies carries
  revert checked
  decide

example : Body.fromCbor [0xa0, 0x00, 0x09] = .ok (.unknown 9 [0xa0, 0x00, 0x09]) := by decide

end Carrier

end Mosschat.Core
