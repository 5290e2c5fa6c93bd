import Mathlib.Algebra.Ring.Nat
import Mathlib.Tactic.SplitIfs

/-!
Owns CBOR at the level of RFC 8949 section 3: initial bytes, their arguments,
byte and text strings, definite and indefinite lengths, booleans, and the
skipping of one well-formed data item; the shortest-form encoder of a head; the
composition rules for what a decoder can answer, and for decoders that read back
what an encoder wrote.

Does not own any document type, nor the deterministic profile as a whole: the
decoders accept every length form of an argument, as the RFC does.
-/

namespace Mosschat.Library.Cbor

/-- A byte string. -/
abbrev Bytes := List UInt8

/-- Why a decoder stopped. -/
inductive DecodeError where
  | endOfInput
  | typeMismatch
  | overflow
  | utf8
  | message (text : String)
deriving DecidableEq, Repr

/-- A decoder consumes a prefix of its input and returns the rest. -/
abbrev Decoder (α : Type) := StateT Bytes (Except DecodeError) α

/-! ## Big-endian numbers -/

/-- The number a big-endian byte string stands for. -/
def beValue : Bytes → Nat
  | [] => 0
  | byte :: rest => byte.toNat * 256 ^ rest.length + beValue rest

/-- The last `count` base-256 digits of `value`, most significant first. -/
def beBytes : Nat → Nat → Bytes
  | 0, _ => []
  | count + 1, value => UInt8.ofNat (value / 256 ^ count) :: beBytes count value

@[simp] theorem beBytes_length (count value : Nat) : (beBytes count value).length = count := by
  induction count with
  | zero => rfl
  | succ count ih => simp [beBytes, ih]

theorem beValue_beBytes (count value : Nat) :
    beValue (beBytes count value) = value % 256 ^ count := by
  induction count with
  | zero => simp [beBytes, beValue, Nat.mod_one]
  | succ count ih =>
      simp only [beBytes, beValue, beBytes_length, ih, UInt8.toNat_ofNat']
      rw [Nat.pow_succ (m := count), Nat.mod_mul, Nat.mul_comm, Nat.add_comm]

theorem beValue_lt (slice : Bytes) : beValue slice < 256 ^ slice.length := by
  induction slice with
  | nil => exact Nat.one_pos
  | cons byte rest ih =>
      have digit : byte.toNat + 1 ≤ 256 := byte.toNat_lt
      have scaled := Nat.mul_le_mul_right (256 ^ rest.length) digit
      rw [beValue, List.length_cons, Nat.pow_succ]
      rw [Nat.add_mul, Nat.one_mul] at scaled
      omega

/-- The digits below a place do not see what stands at it or above. -/
theorem beBytes_add_mul (value high : Nat) {count place : Nat} (below : count ≤ place) :
    beBytes count (high * 256 ^ place + value) = beBytes count value := by
  induction count with
  | zero => rfl
  | succ count ih =>
      obtain ⟨gap, rfl⟩ : ∃ gap, place = count + 1 + gap := ⟨place - (count + 1), by omega⟩
      have shift : high * 256 ^ (count + 1 + gap) = 256 ^ count * (high * 256 ^ gap * 256) := by
        rw [Nat.pow_add, Nat.pow_succ]
        simp only [Nat.mul_comm, Nat.mul_left_comm, Nat.mul_assoc]
      have positive : 0 < 256 ^ count := Nat.pow_pos (by decide)
      have digit : UInt8.ofNat ((high * 256 ^ (count + 1 + gap) + value) / 256 ^ count) =
          UInt8.ofNat (value / 256 ^ count) := by
        apply UInt8.toNat_inj.mp
        rw [shift, Nat.mul_add_div positive, UInt8.toNat_ofNat', UInt8.toNat_ofNat']
        exact Nat.mul_add_mod' _ _ _
      rw [beBytes, beBytes, digit, ih (by omega)]

/-- A byte string is the digits of its number. -/
theorem beBytes_beValue (slice : Bytes) : beBytes slice.length (beValue slice) = slice := by
  induction slice with
  | nil => rfl
  | cons byte rest ih =>
      have low := beValue_lt rest
      have positive : 0 < 256 ^ rest.length := Nat.pow_pos (by decide)
      have digit : (byte.toNat * 256 ^ rest.length + beValue rest) / 256 ^ rest.length =
          byte.toNat := by
        rw [Nat.mul_comm, Nat.mul_add_div positive, Nat.div_eq_of_lt low, Nat.add_zero]
      rw [List.length_cons, beBytes, beValue, digit, UInt8.ofNat_toNat,
        beBytes_add_mul _ _ (Nat.le_refl _), ih]

/-! ## Reading -/

/-- The next byte. -/
def read : Decoder UInt8 := fun input =>
  match input with
  | [] => .error .endOfInput
  | byte :: rest => .ok (byte, rest)

/-- The next `count` bytes, checked against the input before any is taken. -/
def readSlice (count : Nat) : Decoder Bytes := fun input =>
  if count ≤ input.length then .ok (input.take count, input.drop count) else .error .endOfInput

/-- The major type of an initial byte. -/
def majorOf (byte : UInt8) : Nat := byte.toNat / 32

/-- The additional information of an initial byte. -/
def infoOf (byte : UInt8) : Nat := byte.toNat % 32

/-- The additional information that marks an indefinite length. -/
def indefiniteInfo : Nat := 31

/-- The argument that follows an initial byte with additional information `info`. -/
def argument (info : Nat) : Decoder Nat :=
  if info ≤ 23 then pure info
  else if info = 24 then beValue <$> readSlice 1
  else if info = 25 then beValue <$> readSlice 2
  else if info = 26 then beValue <$> readSlice 4
  else if info = 27 then beValue <$> readSlice 8
  else throw .typeMismatch

def majorUnsigned : Nat := 0
def majorNegative : Nat := 1
def majorBytes : Nat := 2
def majorText : Nat := 3
def majorArray : Nat := 4
def majorMap : Nat := 5
def majorTag : Nat := 6
def majorSimple : Nat := 7

/-- A head of the given major type, with its argument. -/
def head (major : Nat) : Decoder Nat := do
  let byte ← read
  if majorOf byte = major then argument (infoOf byte) else throw .typeMismatch

/-- A length head of the given major type; `none` is an indefinite length. -/
def lengthHead (major : Nat) : Decoder (Option Nat) := do
  let byte ← read
  if majorOf byte = major then
    if infoOf byte = indefiniteInfo then pure none else some <$> argument (infoOf byte)
  else throw .typeMismatch

/-- An array head. -/
def array : Decoder (Option Nat) := lengthHead majorArray

/-- A map head. -/
def map : Decoder (Option Nat) := lengthHead majorMap

/-- An unsigned integer that fits in 8 bits. -/
def u8 : Decoder UInt8 := do
  let value ← head majorUnsigned
  if value < 2 ^ 8 then pure (UInt8.ofNat value) else throw .overflow

/-- An unsigned integer that fits in 16 bits. -/
def u16 : Decoder UInt16 := do
  let value ← head majorUnsigned
  if value < 2 ^ 16 then pure (UInt16.ofNat value) else throw .overflow

/-- An unsigned integer that fits in 32 bits. -/
def u32 : Decoder UInt32 := do
  let value ← head majorUnsigned
  if value < 2 ^ 32 then pure (UInt32.ofNat value) else throw .overflow

/-- An unsigned integer. -/
def u64 : Decoder UInt64 := do
  let value ← head majorUnsigned
  pure (UInt64.ofNat value)

/-- A definite-length byte string. -/
def bytes : Decoder Bytes := do
  let length ← head majorBytes
  readSlice length

/-- The string a UTF-8 byte string stands for. -/
def textOf (slice : Bytes) : Decoder String :=
  match String.fromUTF8? slice.toByteArray with
  | some text => pure text
  | none => throw .utf8

/-- A definite-length text string. -/
def str : Decoder String := do
  let length ← head majorText
  let slice ← readSlice length
  textOf slice

/-- A boolean. -/
def bool : Decoder Bool := do
  let byte ← read
  if byte = 0xf4 then pure false
  else if byte = 0xf5 then pure true
  else throw .typeMismatch

/-! ## Skipping one data item -/

/-- The chunks of an indefinite-length string, up to the break. -/
def skipChunks (chunk : Decoder Unit) : Nat → Decoder Unit
  | 0 => throw .endOfInput
  | fuel + 1 => fun input =>
      match input with
      | 0xff :: rest => .ok ((), rest)
      | _ => (do chunk; skipChunks chunk fuel) input

/-- Skip the head of one item and what belongs to it alone. The result is the
number of items it contains; `none` means items up to a break. -/
def skipHead (fuel : Nat) : Decoder (Option Nat) := do
  let byte ← read
  let info := infoOf byte
  let rewound {α : Type} (decoder : Decoder α) : Decoder α := fun input => decoder (byte :: input)
  if majorOf byte = majorBytes then
    if info = indefiniteInfo then do skipChunks (do let _ ← bytes) fuel; pure (some 0)
    else do let _ ← rewound bytes; pure (some 0)
  else if majorOf byte = majorText then
    if info = indefiniteInfo then do skipChunks (do let _ ← str) fuel; pure (some 0)
    else do let _ ← rewound str; pure (some 0)
  else if majorOf byte = majorArray then
    if info = indefiniteInfo then pure none else some <$> argument info
  else if majorOf byte = majorMap then
    if info = indefiniteInfo then pure none else (fun pairs => some (2 * pairs)) <$> argument info
  else if majorOf byte = majorTag then do let _ ← argument info; pure (some 1)
  else do let _ ← argument info; pure (some 0)

/-- Skip the items still owed at each nesting level, innermost first. -/
def skipLevels : Nat → List (Option Nat) → Decoder Unit
  | _, [] => pure ()
  | 0, _ => throw .endOfInput
  | fuel + 1, some 0 :: levels => skipLevels fuel levels
  | fuel + 1, some (owed + 1) :: levels => do
      let inner ← skipHead fuel
      skipLevels fuel (inner :: some owed :: levels)
  | fuel + 1, none :: levels => fun input =>
      match input with
      | 0xff :: rest => skipLevels fuel levels rest
      | _ => (do
          let inner ← skipHead fuel
          skipLevels fuel (inner :: none :: levels)) input

/-- Skip one well-formed data item. Every round reads a byte or closes a level
an earlier byte opened, so twice the input is fuel enough. -/
def skip : Decoder Unit := fun input => skipLevels (2 * input.length + 2) [some 1] input

/-! ## Writing -/

/-- A head in its shortest form. -/
def encodeHead (major value : Nat) : Bytes :=
  if value ≤ 23 then [UInt8.ofNat (major * 32 + value)]
  else if value < 2 ^ 8 then UInt8.ofNat (major * 32 + 24) :: beBytes 1 value
  else if value < 2 ^ 16 then UInt8.ofNat (major * 32 + 25) :: beBytes 2 value
  else if value < 2 ^ 32 then UInt8.ofNat (major * 32 + 26) :: beBytes 4 value
  else UInt8.ofNat (major * 32 + 27) :: beBytes 8 value

/-- An unsigned integer. -/
def encodeUnsigned (value : Nat) : Bytes := encodeHead majorUnsigned value

/-- A byte string. -/
def encodeBytes (slice : Bytes) : Bytes := encodeHead majorBytes slice.length ++ slice

/-- A text string. -/
def encodeStr (text : String) : Bytes :=
  encodeHead majorText text.toUTF8.toList.length ++ text.toUTF8.toList

/-- A boolean. -/
def encodeBool (value : Bool) : Bytes := if value then [0xf5] else [0xf4]

/-- The length of a head by the width of its argument. -/
def headLength (value : Nat) : Nat :=
  if value ≤ 23 then 1 else if value < 2 ^ 8 then 2 else if value < 2 ^ 16 then 3
  else if value < 2 ^ 32 then 5 else 9

theorem encodeHead_length (major value : Nat) :
    (encodeHead major value).length = headLength value := by
  unfold encodeHead headLength
  split_ifs <;> simp

theorem headLength_le (value : Nat) : headLength value ≤ 9 := by
  unfold headLength
  split_ifs <;> omega

/-- A greater argument has no shorter head. -/
theorem headLength_mono {value bound : Nat} (within : value ≤ bound) :
    headLength value ≤ headLength bound := by
  unfold headLength
  split_ifs <;> omega

theorem headLength_le_of_lt {value : Nat} (small : value < 2 ^ 32) : headLength value ≤ 5 := by
  unfold headLength
  split_ifs <;> omega

/-! ## Texts and their bytes -/

private theorem toList_loop (array : ByteArray) (start : Nat) (seen : Bytes) :
    ByteArray.toList.loop array start seen = seen.reverse ++ array.data.toList.drop start := by
  rw [ByteArray.toList.loop]
  split
  · next inside =>
    have insideList : start < array.data.toList.length := by simpa using inside
    rw [toList_loop, List.reverse_cons, List.append_assoc, List.drop_eq_getElem_cons insideList]
    have here : array.get! start = array.data.toList[start] := by
      simp only [ByteArray.get!, Array.getElem_toList]
      exact getElem!_pos array.data start inside
    rw [here]
    rfl
  · next outside =>
    have past : array.data.toList.length ≤ start := by simpa using outside
    rw [List.drop_eq_nil_of_le past, List.append_nil]
termination_by array.size - start

theorem toList_eq_data (array : ByteArray) : array.toList = array.data.toList := by
  rw [ByteArray.toList, toList_loop]
  rfl

theorem toByteArray_toList (array : ByteArray) : array.toList.toByteArray = array := by
  rw [toList_eq_data]
  apply ByteArray.ext
  simp

theorem toUTF8_length (text : String) : text.toUTF8.toList.length = text.utf8ByteSize := by
  rw [toList_eq_data]
  rfl

/-- The bytes of a text are read back as that text. -/
theorem textOf_toUTF8 (text : String) : textOf text.toUTF8.toList = pure text := by
  have valid : text.toUTF8.IsValidUTF8 := text.isValidUTF8
  unfold textOf
  rw [toByteArray_toList, String.fromUTF8?, dif_pos valid]
  rfl

/-! ## Inversion -/

section Inversion

variable {α β : Type}

theorem bind_eq_ok {first : Decoder α} {next : α → Decoder β} {input rest : Bytes} {result : β} :
    (first >>= next) input = .ok (result, rest) ↔
      ∃ value middle, first input = .ok (value, middle) ∧
        next value middle = .ok (result, rest) := by
  change Except.bind (first input) (fun pair => next pair.1 pair.2) = _ ↔ _
  cases first input with
  | error reason => simp [Except.bind]
  | ok pair =>
      constructor
      · exact fun continues => ⟨pair.1, pair.2, rfl, continues⟩
      · rintro ⟨value, middle, equal, continues⟩
        cases equal
        exact continues

theorem pure_eq_ok {value result : α} {input rest : Bytes} :
    (pure value : Decoder α) input = .ok (result, rest) ↔ value = result ∧ input = rest := by
  change Except.ok (value, input) = _ ↔ _
  simp

theorem throw_ne_ok {reason : DecodeError} {result : α} {input rest : Bytes} :
    (throw reason : Decoder α) input ≠ .ok (result, rest) := by
  intro equal
  cases equal

theorem map_eq_ok {decoder : Decoder α} {function : α → β} {input rest : Bytes} {result : β} :
    (function <$> decoder) input = .ok (result, rest) ↔
      ∃ value, decoder input = .ok (value, rest) ∧ function value = result := by
  change Except.map (fun pair : α × Bytes => (function pair.1, pair.2)) (decoder input) = _ ↔ _
  cases decoder input with
  | error reason => simp [Except.map]
  | ok pair =>
      simp only [Except.map, Except.ok.injEq, Prod.mk.injEq]
      constructor
      · rintro ⟨equal, same⟩
        exact ⟨pair.1, by rw [← same], equal⟩
      · rintro ⟨value, rfl, equal⟩
        exact ⟨equal, rfl⟩

end Inversion

/-! ## What a decoder can answer -/

/-- Whatever `decoder` answers has the property. -/
def Yields {α : Type} (decoder : Decoder α) (property : α → Prop) : Prop :=
  ∀ input value rest, decoder input = .ok (value, rest) → property value

section Yields

variable {α β : Type} {property : α → Prop} {next : Decoder α}

theorem Yields.any (decoder : Decoder α) : Yields decoder fun _ => True :=
  fun _ _ _ _ => trivial

theorem Yields.pure {value : α} (holds : property value) : Yields (pure value) property := by
  intro input answered rest read
  obtain ⟨rfl, _⟩ := pure_eq_ok.mp read
  exact holds

theorem Yields.throw {reason : DecodeError} : Yields (throw reason) property :=
  fun _ _ _ read => absurd read throw_ne_ok

theorem Yields.bind {first : Decoder β} {next : β → Decoder α} {middle : β → Prop}
    (yieldsFirst : Yields first middle) (yieldsNext : ∀ value, middle value →
      Yields (next value) property) : Yields (first >>= next) property := by
  intro input answered rest read
  obtain ⟨value, afterFirst, readFirst, read⟩ := bind_eq_ok.mp read
  exact yieldsNext value (yieldsFirst input value afterFirst readFirst) afterFirst answered rest read

/-- What the last step yields is yielded, whatever the steps before it read. -/
theorem Yields.after {first : Decoder β} {next : β → Decoder α}
    (yields : ∀ value, Yields (next value) property) : Yields (first >>= next) property :=
  (Yields.any first).bind fun value _ => yields value

theorem Yields.map {decoder : Decoder β} {function : β → α}
    (yields : Yields decoder fun value => property (function value)) :
    Yields (function <$> decoder) property := by
  intro input answered rest read
  obtain ⟨value, readValue, rfl⟩ := map_eq_ok.mp read
  exact yields input value rest readValue

theorem Yields.ite {condition : Prop} [Decidable condition] {other : Decoder α}
    (whenTrue : condition → Yields next property) (whenFalse : ¬condition → Yields other property) :
    Yields (if condition then next else other) property := by
  by_cases holds : condition
  · rw [if_pos holds]
    exact whenTrue holds
  · rw [if_neg holds]
    exact whenFalse holds

theorem Yields.refuse {condition : Prop} [Decidable condition] {reason : DecodeError}
    (goesOn : ¬condition → Yields next property) :
    Yields (if condition then MonadExcept.throw reason else next) property :=
  Yields.ite (fun _ => Yields.throw) goesOn

end Yields

/-! ## Reading back -/

/-- `decoder` reads exactly `encoding` off any input that starts with it, and
answers `value`. -/
def Reads {α : Type} (decoder : Decoder α) (encoding : Bytes) (value : α) : Prop :=
  ∀ rest : Bytes, decoder (encoding ++ rest) = .ok (value, rest)

section Reads

variable {α β : Type}

theorem Reads.pure (value : α) : Reads (pure value) [] value := fun _ => rfl

/-- What follows a decoder goes on from the rest of the input. -/
theorem Reads.bind_apply {first : Decoder α} {next : α → Decoder β} {encoding : Bytes} {value : α}
    (reads : Reads first encoding value) (rest : Bytes) :
    (first >>= next) (encoding ++ rest) = next value rest := by
  change Except.bind (first (encoding ++ rest)) _ = _
  rw [reads]
  rfl

/-- Decoders in sequence read encodings in sequence. -/
theorem Reads.bind {first : Decoder α} {next : α → Decoder β} {front back : Bytes}
    {value : α} {result : β} (readsFront : Reads first front value)
    (readsBack : Reads (next value) back result) :
    Reads (first >>= next) (front ++ back) result := by
  intro rest
  rw [List.append_assoc, readsFront.bind_apply]
  exact readsBack rest

theorem Reads.map {decoder : Decoder α} {encoding : Bytes} {value : α} (function : α → β)
    (reads : Reads decoder encoding value) :
    Reads (function <$> decoder) encoding (function value) := by
  intro rest
  change Except.bind (decoder (encoding ++ rest)) _ = _
  rw [reads]
  rfl

/-- A decoder that ends by putting together what it has read. -/
theorem Reads.bind_pure {first : Decoder α} {next : α → Decoder β} {encoding : Bytes} {value : α}
    {result : β} (readsFirst : Reads first encoding value) (ends : Reads (next value) [] result) :
    Reads (first >>= next) encoding result := by
  have both := readsFirst.bind ends
  rwa [List.append_nil] at both

theorem Reads.refuse {condition : Prop} [Decidable condition] {reason : DecodeError}
    {next : Decoder α} {encoding : Bytes} {value : α} (passes : ¬condition)
    (reads : Reads next encoding value) :
    Reads (if condition then throw reason else next) encoding value := by
  rwa [if_neg passes]

theorem Reads.read_bind {byte : UInt8} {next : UInt8 → Decoder β} {back : Bytes} {result : β}
    (readsBack : Reads (next byte) back result) : Reads (read >>= next) (byte :: back) result :=
  readsBack

theorem reads_readSlice (slice : Bytes) : Reads (readSlice slice.length) slice slice := by
  intro rest
  simp [readSlice]

private theorem reads_beBytes (count value : Nat) (small : value < 256 ^ count) :
    Reads (beValue <$> readSlice count) (beBytes count value) value := by
  have slice := (reads_readSlice (beBytes count value)).map beValue
  rwa [beBytes_length, beValue_beBytes, Nat.mod_eq_of_lt small] at slice

private theorem initialByte {major info : Nat} (majorLt : major < 8) (infoLt : info < 32) :
    majorOf (UInt8.ofNat (major * 32 + info)) = major ∧
      infoOf (UInt8.ofNat (major * 32 + info)) = info := by
  have small : major * 32 + info < 256 := by omega
  simp only [majorOf, infoOf, UInt8.toNat_ofNat', Nat.mod_eq_of_lt small]
  omega

private theorem reads_head_of_argument {major info value : Nat} {tail : Bytes}
    (majorLt : major < 8) (infoLt : info < 32) (reads : Reads (argument info) tail value) :
    Reads (head major) (UInt8.ofNat (major * 32 + info) :: tail) value := by
  obtain ⟨majorEq, infoEq⟩ := initialByte majorLt infoLt
  apply Reads.read_bind
  rw [majorEq, if_pos rfl, infoEq]
  exact reads

private theorem encodeHead_info (major value : Nat) (small : value < 2 ^ 64) :
    ∃ info tail, info < 28 ∧ encodeHead major value = UInt8.ofNat (major * 32 + info) :: tail ∧
      Reads (argument info) tail value := by
  unfold encodeHead
  split_ifs with direct one two four
  · exact ⟨value, [], by omega, rfl, by rw [argument, if_pos direct]; exact Reads.pure value⟩
  · exact ⟨24, _, by omega, rfl, reads_beBytes 1 value (by omega)⟩
  · exact ⟨25, _, by omega, rfl, reads_beBytes 2 value (by omega)⟩
  · exact ⟨26, _, by omega, rfl, reads_beBytes 4 value (by omega)⟩
  · exact ⟨27, _, by omega, rfl, reads_beBytes 8 value (by omega)⟩

theorem reads_head {major value : Nat} (majorLt : major < 8) (small : value < 2 ^ 64) :
    Reads (head major) (encodeHead major value) value := by
  obtain ⟨info, tail, infoLt, shape, reads⟩ := encodeHead_info major value small
  rw [shape]
  exact reads_head_of_argument majorLt (by omega) reads

theorem reads_lengthHead {major value : Nat} (majorLt : major < 8) (small : value < 2 ^ 64) :
    Reads (lengthHead major) (encodeHead major value) (some value) := by
  obtain ⟨info, tail, infoLt, shape, reads⟩ := encodeHead_info major value small
  obtain ⟨majorEq, infoEq⟩ := initialByte majorLt (show info < 32 by omega)
  rw [shape]
  apply Reads.read_bind
  rw [majorEq, if_pos rfl, infoEq, if_neg (by unfold indefiniteInfo; omega)]
  exact reads.map some

theorem reads_unsigned {value : Nat} (small : value < 2 ^ 64) :
    Reads (head majorUnsigned) (encodeUnsigned value) value :=
  reads_head (by decide) small

theorem reads_u8 (value : UInt8) : Reads u8 (encodeUnsigned value.toNat) value := by
  have small : value.toNat < 2 ^ 8 := value.toNat_lt
  have headReads := reads_unsigned (show value.toNat < 2 ^ 64 by omega)
  rw [← List.append_nil (encodeUnsigned _)]
  refine headReads.bind ?_
  rw [if_pos small, UInt8.ofNat_toNat]
  exact Reads.pure value

theorem reads_u16 (value : UInt16) : Reads u16 (encodeUnsigned value.toNat) value := by
  have small : value.toNat < 2 ^ 16 := value.toNat_lt
  have headReads := reads_unsigned (show value.toNat < 2 ^ 64 by omega)
  rw [← List.append_nil (encodeUnsigned _)]
  refine headReads.bind ?_
  rw [if_pos small, UInt16.ofNat_toNat]
  exact Reads.pure value

theorem reads_u32 (value : UInt32) : Reads u32 (encodeUnsigned value.toNat) value := by
  have small : value.toNat < 2 ^ 32 := value.toNat_lt
  have headReads := reads_unsigned (show value.toNat < 2 ^ 64 by omega)
  rw [← List.append_nil (encodeUnsigned _)]
  refine headReads.bind ?_
  rw [if_pos small, UInt32.ofNat_toNat]
  exact Reads.pure value

theorem reads_u64 (value : UInt64) : Reads u64 (encodeUnsigned value.toNat) value := by
  have headReads := reads_unsigned value.toNat_lt
  rw [← List.append_nil (encodeUnsigned _)]
  refine headReads.bind ?_
  rw [UInt64.ofNat_toNat]
  exact Reads.pure value

theorem reads_bytes {slice : Bytes} (small : slice.length < 2 ^ 64) :
    Reads bytes (encodeBytes slice) slice :=
  (reads_head (by decide) small).bind (reads_readSlice slice)

private theorem reads_skipHead_unsigned (fuel : Nat) {value : Nat} (small : value < 2 ^ 64) :
    Reads (skipHead fuel) (encodeUnsigned value) (some 0) := by
  obtain ⟨info, tail, infoLt, shape, reads⟩ := encodeHead_info majorUnsigned value small
  obtain ⟨majorEq, infoEq⟩ :=
    initialByte (show majorUnsigned < 8 by decide) (show info < 32 by omega)
  rw [encodeUnsigned, shape]
  apply Reads.read_bind
  dsimp only
  rw [majorEq, infoEq, if_neg (by decide), if_neg (by decide), if_neg (by decide),
    if_neg (by decide), if_neg (by decide)]
  exact reads.bind_pure (Reads.pure (some 0))

/-- An unsigned integer is one item. -/
theorem reads_skip_unsigned {value : Nat} (small : value < 2 ^ 64) :
    Reads skip (encodeUnsigned value) () := by
  intro rest
  have enough : ∃ fuel, 2 * (encodeUnsigned value ++ rest).length + 2 = fuel + 2 + 1 := by
    have nonempty : 0 < (encodeUnsigned value).length := by
      rw [encodeUnsigned, encodeHead_length, headLength]
      split_ifs <;> decide
    rw [List.length_append]
    exact ⟨2 * ((encodeUnsigned value).length + rest.length) - 1, by omega⟩
  obtain ⟨fuel, enough⟩ := enough
  show skipLevels (2 * (encodeUnsigned value ++ rest).length + 2) [some 1] _ = _
  rw [enough, skipLevels, (reads_skipHead_unsigned (fuel + 2) small).bind_apply,
    skipLevels, skipLevels, skipLevels]
  rfl

theorem reads_str {text : String} (small : text.utf8ByteSize < 2 ^ 64) :
    Reads str (encodeStr text) text := by
  rw [← toUTF8_length] at small
  refine (reads_head (by decide) small).bind ?_
  refine (reads_readSlice _).bind_pure ?_
  rw [textOf_toUTF8]
  exact Reads.pure text

theorem reads_bool (value : Bool) : Reads bool (encodeBool value) value := by
  cases value with
  | false => exact Reads.read_bind (Reads.pure false)
  | true => exact Reads.read_bind (Reads.pure true)

end Reads

/-! ## Locality -/

/-- Whatever `decoder` answers, it has read off a front of its input, and reads off every
input with that front. -/
def Local {α : Type} (decoder : Decoder α) : Prop :=
  ∀ input value rest, decoder input = .ok (value, rest) →
    ∃ front, input = front ++ rest ∧ Reads decoder front value

section Local

variable {α β : Type}

theorem Local.pure (value : α) : Local (pure value : Decoder α) := by
  intro input answered rest read
  obtain ⟨rfl, rfl⟩ := pure_eq_ok.mp read
  exact ⟨[], rfl, Reads.pure value⟩

theorem Local.throw (reason : DecodeError) : Local (throw reason : Decoder α) :=
  fun _ _ _ read => absurd read throw_ne_ok

theorem Local.bind {first : Decoder α} {next : α → Decoder β} (localFirst : Local first)
    (localNext : ∀ value, Local (next value)) : Local (first >>= next) := by
  intro input result rest read
  obtain ⟨value, middle, readFirst, readNext⟩ := bind_eq_ok.mp read
  obtain ⟨front, isInput, readsFirst⟩ := localFirst input value middle readFirst
  obtain ⟨back, isMiddle, readsNext⟩ := localNext value middle result rest readNext
  refine ⟨front ++ back, ?_, readsFirst.bind readsNext⟩
  rw [isInput, isMiddle, List.append_assoc]

theorem Local.map {decoder : Decoder α} (function : α → β) (isLocal : Local decoder) :
    Local (function <$> decoder) := by
  intro input result rest read
  obtain ⟨value, readValue, rfl⟩ := map_eq_ok.mp read
  obtain ⟨front, isInput, reads⟩ := isLocal input value rest readValue
  exact ⟨front, isInput, reads.map function⟩

theorem Local.ite {condition : Prop} [Decidable condition] {first second : Decoder α}
    (localFirst : Local first) (localSecond : Local second) :
    Local (if condition then first else second) := by
  split
  · exact localFirst
  · exact localSecond

theorem local_read : Local read := by
  intro input byte rest isRead
  cases input with
  | nil => cases isRead
  | cons head tail =>
      cases isRead
      exact ⟨[byte], rfl, fun _ => rfl⟩

theorem local_readSlice (count : Nat) : Local (readSlice count) := by
  intro input slice rest isRead
  unfold readSlice at isRead
  split at isRead
  · next enough =>
      cases isRead
      refine ⟨input.take count, (List.take_append_drop count input).symm, ?_⟩
      have width : (input.take count).length = count := List.length_take_of_le enough
      have reads := reads_readSlice (input.take count)
      rw [width] at reads
      exact reads
  · cases isRead

theorem local_argument (info : Nat) : Local (argument info) := by
  unfold argument
  repeat' apply Local.ite
  · exact Local.pure info
  · exact (local_readSlice 1).map beValue
  · exact (local_readSlice 2).map beValue
  · exact (local_readSlice 4).map beValue
  · exact (local_readSlice 8).map beValue
  · exact Local.throw _

theorem local_head (major : Nat) : Local (head major) :=
  local_read.bind fun _ => Local.ite (local_argument _) (Local.throw _)

theorem local_array : Local array :=
  local_read.bind fun _ =>
    Local.ite (Local.ite (Local.pure none) ((local_argument _).map some)) (Local.throw _)

theorem local_u8 : Local u8 :=
  (local_head majorUnsigned).bind fun _ => Local.ite (Local.pure _) (Local.throw _)

theorem local_u16 : Local u16 :=
  (local_head majorUnsigned).bind fun _ => Local.ite (Local.pure _) (Local.throw _)

theorem local_u32 : Local u32 :=
  (local_head majorUnsigned).bind fun _ => Local.ite (Local.pure _) (Local.throw _)

theorem local_u64 : Local u64 := (local_head majorUnsigned).bind fun _ => Local.pure _

theorem local_bytes : Local bytes := (local_head majorBytes).bind local_readSlice

theorem local_str : Local str := by
  refine (local_head majorText).bind fun length => (local_readSlice length).bind fun slice => ?_
  unfold textOf
  split
  · exact Local.pure _
  · exact Local.throw _

theorem local_bool : Local bool :=
  local_read.bind fun _ => Local.ite (Local.pure _) (Local.ite (Local.pure _) (Local.throw _))

/-- A local decoder that has read all of its input reads no more of a longer one. -/
theorem Local.rest_eq {decoder : Decoder α} (isLocal : Local decoder) {input more : Bytes}
    {value : α} (read : decoder input = .ok (value, [])) :
    decoder (input ++ more) = .ok (value, more) := by
  obtain ⟨front, isInput, reads⟩ := isLocal input value [] read
  rw [List.append_nil] at isInput
  rw [isInput]
  exact reads more

end Local

end Mosschat.Library.Cbor
