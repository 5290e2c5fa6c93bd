import Mosschat.Net.Diag

/-!
Owns what the reader of a diagnostics line makes of a line that was written: names, hexadecimal
texts, times, addresses and the texts that are cut, one by one, and the record they make. It is
the record written, its texts cut, except for an IPv4 address with something behind its four
octets, which is lost; and the line it is written as is the same, except where a cut text is cut
again.

Does not own `serde_json` and `time`, which are taken to read back what they write.
-/

namespace Mosschat.Net.Diag

open Mosschat.Library
open Mosschat.Library.Numeral
open Mosschat.Library.TextCut
open Mosschat.Net.Gate

/-! ## Names -/

theorem Step.parseStr_asStr (step : Step) : Step.parseStr step.asStr = .ok step := by
  cases step <;> rfl

theorem StepOutcome.parseStr_asStr (outcome : StepOutcome) :
    StepOutcome.parseStr outcome.asStr = .ok outcome := by
  cases outcome <;> rfl

theorem Reason.parseStr_asStr (reason : Reason) : Reason.parseStr reason.asStr = .ok reason := by
  cases reason <;> rfl

theorem Mapping.parseStr_asStr (mapping : Mapping) :
    Mapping.parseStr mapping.asStr = .ok mapping := by
  cases mapping <;> rfl

theorem VisitEventKind.parseStr_asStr (kind : VisitEventKind) :
    VisitEventKind.parseStr kind.asStr = .ok kind := by
  cases kind <;> rfl

theorem RttSource.parseStr_asStr (source : RttSource) :
    RttSource.parseStr source.asStr = .ok source := by
  cases source <;> rfl

/-! ## Hexadecimal texts -/

/-- The two digits of a byte. -/
def hexPair (byte : UInt8) : List Char :=
  [Nat.digitChar (byte.toNat / 16), Nat.digitChar (byte.toNat % 16)]

theorem toList_hexEncode (bytes : List UInt8) :
    (hexEncode bytes).toList = bytes.flatMap hexPair := String.toList_ofList

theorem byteLength_hexPair (byte : UInt8) : byteLength (hexPair byte) = 2 := by
  have all : ∀ digit < 16, (Nat.digitChar digit).utf8Size = 1 := by decide
  have small := byte.toNat_lt
  rw [hexPair, byteLength_cons, byteLength_cons, byteLength_nil, all _ (by omega), all _ (by omega)]

theorem byteLength_flatMap_hexPair (bytes : List UInt8) :
    byteLength (bytes.flatMap hexPair) = 2 * bytes.length := by
  induction bytes with
  | nil => rfl
  | cons byte rest ih =>
      rw [List.flatMap_cons, byteLength_append, byteLength_hexPair, ih,
        List.length_cons]
      omega

/-- The two halves of a byte make it up again. -/
theorem shiftLeft_or_halves (byte : UInt8) :
    UInt8.ofNat ((byte.toNat / 16) <<< 4 ||| byte.toNat % 16) = byte := by
  have lowSmall : byte.toNat % 16 < 2 ^ 4 := Nat.mod_lt _ (by decide)
  have isByte : (byte.toNat / 16) <<< 4 ||| byte.toNat % 16 = byte.toNat := by
    rw [← Nat.shiftLeft_add_eq_or_of_lt lowSmall, Nat.shiftLeft_eq]
    omega
  rw [isByte, UInt8.ofNat_toNat]

theorem hexPairs_flatMap (s : String) (bytes : List UInt8) :
    hexPairs s (bytes.flatMap hexPair) = .ok bytes := by
  induction bytes with
  | nil => rfl
  | cons byte rest ih =>
      have small := byte.toNat_lt
      have high : toDigit 16 (Nat.digitChar (byte.toNat / 16)) = some (byte.toNat / 16) :=
        toDigit_digitChar (by decide) (by omega)
      have low : toDigit 16 (Nat.digitChar (byte.toNat % 16)) = some (byte.toNat % 16) :=
        toDigit_digitChar (by decide) (by omega)
      show hexPairs s (Nat.digitChar (byte.toNat / 16) :: Nat.digitChar (byte.toNat % 16) ::
        rest.flatMap hexPair) = _
      rw [hexPairs, high, low, ih]
      show Except.ok (UInt8.ofNat ((byte.toNat / 16) <<< 4 ||| byte.toNat % 16) :: rest) = _
      rw [shiftLeft_or_halves]

theorem hexDecode_hexEncode (bytes : List UInt8) : hexDecode (hexEncode bytes) = .ok bytes := by
  have even : byteLength (hexEncode bytes).toList % 2 = 0 := by
    rw [toList_hexEncode, byteLength_flatMap_hexPair]
    omega
  rw [hexDecode, if_pos even, toList_hexEncode, hexPairs_flatMap]

theorem toArray_toList {count : Nat} (error : DiagError) (bytes : List.Vector UInt8 count) :
    toArray count error bytes.toList = .ok bytes := by
  rw [toArray, dif_pos bytes.toList_length]
  rfl

theorem PeerFingerprint.fromHex_asHex (peer : PeerFingerprint) :
    PeerFingerprint.fromHex peer.asHex = .ok peer := by
  rw [fromHex, asHex, hexDecode_hexEncode]
  show (do
    let array ← toArray 4 _ peer.bytes.toList
    pure (PeerFingerprint.mk array)) = _
  rw [toArray_toList]
  rfl

/-! ## Times -/

namespace Rfc3339

/-- The time is in the range the formatter supports, and is read back. -/
def Supports (time : TimeCrate) (epochMs : UInt64) : Prop :=
  ∃ text, time.format (epochMs.toNat * 1000000) = some text ∧
    time.parse text = .ok (epochMs.toNat * 1000000)

theorem parse_format {time : TimeCrate} {epochMs : UInt64} (supports : Supports time epochMs) :
    parse time (format time epochMs) = .ok epochMs := by
  obtain ⟨text, isText, parsed⟩ := supports
  have small := epochMs.toNat_lt
  have isFormat : format time epochMs = text := by
    rw [format, isText]
    rfl
  have positive : ¬(epochMs.toNat * 1000000 : Int) < 0 := by omega
  have isMs : (epochMs.toNat * 1000000 : Int) / 1000000 = epochMs.toNat := by omega
  have inRange : (epochMs.toNat : Int) < 2 ^ 64 := by omega
  rw [isFormat, parse, parsed]
  simp only
  rw [if_neg positive, isMs, if_pos inRange, Int.toNat_natCast, UInt64.ofNat_toNat]

end Rfc3339

/-! ## Addresses -/

/-- What is read back of an address. -/
def settled (addr : Addr) : Addr :=
  match addr.toSocketAddr with
  | some socketAddr => .fromSocketAddr socketAddr
  | none => addr

/-- Nothing stands behind the octets of an IPv4 address. -/
def Whole (addr : Addr) : Prop :=
  addr.family = 4 → addr.bytes.toList.drop 4 = List.replicate 12 0

theorem settled_v4 (bytes : Bytes16) (port : UInt16) :
    settled ⟨4, bytes, port⟩ = ⟨4, bytes, port⟩ ↔ Whole ⟨4, bytes, port⟩ := by
  have isSettled : (settled ⟨4, bytes, port⟩).bytes.toList =
      bytes.toList.take 4 ++ List.replicate 12 0 := rfl
  have width : (bytes.toList.take 4).length = 4 := by
    rw [List.length_take, bytes.toList_length]
    rfl
  constructor
  · intro same _
    have isBytes : bytes.toList = bytes.toList.take 4 ++ List.replicate 12 0 := by
      rw [← isSettled, same]
    show bytes.toList.drop 4 = _
    rw [isBytes]
    exact List.drop_left' width
  · intro whole
    have isTail : bytes.toList.drop 4 = List.replicate 12 0 := whole rfl
    have isBytes : (settled ⟨4, bytes, port⟩).bytes = bytes := by
      apply List.Vector.eq
      rw [isSettled, ← isTail]
      exact List.take_append_drop 4 bytes.toList
    show Addr.mk 4 (settled ⟨4, bytes, port⟩).bytes port = _
    rw [isBytes]

theorem settled_eq_iff (addr : Addr) : settled addr = addr ↔ Whole addr := by
  obtain ⟨family, bytes, port⟩ := addr
  by_cases four : family = 4
  · rw [four]
    exact settled_v4 bytes port
  · have whole : Whole ⟨family, bytes, port⟩ := fun isFour => absurd isFour four
    have kept : settled ⟨family, bytes, port⟩ = ⟨family, bytes, port⟩ := by
      by_cases six : family = 6
      · rw [six]
        rfl
      · have none : (Addr.mk family bytes port).toSocketAddr = none := by
          unfold Addr.toSocketAddr
          split
          · next isFour => exact absurd isFour four
          · next isSix => exact absurd isSix six
          · rfl
        rw [settled, none]
    exact ⟨fun _ => whole, fun _ => kept⟩

theorem parseUnsigned_toDigits {bound number : Nat} (below : number < bound) :
    parseUnsigned bound (Nat.toDigits 10 number) = some number := by
  have noPlus : '+' ∉ Nat.toDigits 10 number :=
    not_mem_toDigits (by decide) (by decide) (by decide) number
  have read : readNumber 10 none true bound (Nat.toDigits 10 number ++ []) = some (number, []) :=
    readNumber_toDigits (by decide) (by decide) below nofun nofun
  rw [List.append_nil] at read
  unfold parseUnsigned
  split
  · next rest isPlus =>
      rw [isPlus] at noPlus
      exact absurd List.mem_cons_self noPlus
  · simp only
    rw [read]

section Dump

variable (addr : Addr)

theorem not_space_of_toDigits (number : Nat) : ' ' ∉ Nat.toDigits 10 number :=
  not_mem_toDigits (by decide) (by decide) (by decide) number

theorem not_space_of_hexEncode (bytes : List UInt8) : ' ' ∉ (hexEncode bytes).toList := by
  have all : ∀ digit < 16, Nat.digitChar digit ≠ ' ' := by decide
  rw [toList_hexEncode, List.mem_flatMap]
  intro found
  obtain ⟨byte, _, inside⟩ := found
  have small := byte.toNat_lt
  rcases List.mem_cons.mp inside with isHigh | later
  · exact all _ (by omega) isHigh.symm
  · exact all _ (by omega) (List.mem_singleton.mp later).symm

/-- The three parts of the form, each behind its name. -/
theorem dumpAddr_eq : dumpAddr addr =
    "family=".toList ++ (Nat.toDigits 10 addr.family.toNat ++ ' ' :: ("bytes=".toList ++
      ((hexEncode addr.bytes.toList).toList ++ ' ' :: ("port=".toList ++
        Nat.toDigits 10 addr.port.toNat)))) := by
  have bytesName : " bytes=".toList = ' ' :: "bytes=".toList := rfl
  have portName : " port=".toList = ' ' :: "port=".toList := rfl
  unfold dumpAddr
  rw [bytesName, portName]
  simp only [List.append_assoc, List.cons_append]

theorem family_dumpAddr : (stripPrefix "family=".toList (dumpAddr addr)).map (splitFirst [' ']) =
    some (Nat.toDigits 10 addr.family.toNat) := by
  have begins : "family=".toList.isPrefixOf (dumpAddr addr) = true := by
    rw [List.isPrefixOf_iff_prefix, dumpAddr_eq]
    exact List.prefix_append _ _
  have rest : stripPrefix "family=".toList (dumpAddr addr) = some _ := if_pos begins
  rw [rest, dumpAddr_eq, List.drop_left]
  exact congrArg some (splitFirst_append [] (not_space_of_toDigits _))

theorem not_space_of_front : ' ' ∉ "family=".toList ++ Nat.toDigits 10 addr.family.toNat := by
  intro found
  rcases List.mem_append.mp found with inName | inDigits
  · exact absurd inName (by decide)
  · exact not_space_of_toDigits _ inDigits

/-- The last part has no space of its own. -/
theorem splitOnce_port (pattern : List Char) (apart : pattern.head? ≠ some 'p')
    (nonempty : pattern ≠ []) :
    splitOnce (' ' :: pattern)
      (' ' :: ("port=".toList ++ Nat.toDigits 10 addr.port.toNat)) = none := by
  have notHere : ¬(' ' :: pattern).isPrefixOf
      (' ' :: ("port=".toList ++ Nat.toDigits 10 addr.port.toNat)) = true := by
    cases pattern with
    | nil => exact absurd rfl nonempty
    | cons char rest =>
        intro begins
        rw [List.isPrefixOf_iff_prefix, List.cons_prefix_cons] at begins
        have isP : char = 'p' := (List.cons_prefix_cons.mp begins.2).1
        exact apart (congrArg some isP)
  have noSpace : ' ' ∉ "port=".toList ++ Nat.toDigits 10 addr.port.toNat := by
    intro found
    rcases List.mem_append.mp found with inName | inDigits
    · exact absurd inName (by decide)
    · exact not_space_of_toDigits _ inDigits
  rw [splitOnce, if_neg notHere, splitOnce_of_not_mem noSpace]
  rfl

theorem bytes_dumpAddr : (splitSecond " bytes=".toList (dumpAddr addr)).map (splitFirst [' ']) =
    some (hexEncode addr.bytes.toList).toList := by
  have isPattern : " bytes=".toList = ' ' :: "bytes=".toList := rfl
  have cut : splitFirst (' ' :: "bytes=".toList) ((hexEncode addr.bytes.toList).toList ++
      ' ' :: ("port=".toList ++ Nat.toDigits 10 addr.port.toNat)) =
        (hexEncode addr.bytes.toList).toList ++
          ' ' :: ("port=".toList ++ Nat.toDigits 10 addr.port.toNat) := by
    rw [splitFirst, splitOnce_append _ (not_space_of_hexEncode _),
      splitOnce_port addr "bytes=".toList (by decide) (by decide)]
    rfl
  rw [dumpAddr_eq, ← List.append_assoc, isPattern, splitSecond,
    splitOnce_append _ (not_space_of_front addr), splitOnce_here]
  simp only [Option.map_some]
  rw [cut]
  exact congrArg some (splitFirst_append [] (not_space_of_hexEncode _))

theorem port_dumpAddr : splitSecond " port=".toList (dumpAddr addr) =
    some (Nat.toDigits 10 addr.port.toNat) := by
  have isPattern : " port=".toList = ' ' :: "port=".toList := rfl
  have notHere : ¬(' ' :: "port=".toList).isPrefixOf (' ' :: ("bytes=".toList ++
      ((hexEncode addr.bytes.toList).toList ++ ' ' :: ("port=".toList ++
        Nat.toDigits 10 addr.port.toNat)))) = true := Bool.false_ne_true
  have regroup : ("bytes=".toList ++ ((hexEncode addr.bytes.toList).toList ++
      ' ' :: ("port=".toList ++ Nat.toDigits 10 addr.port.toNat))) =
        ("bytes=".toList ++ (hexEncode addr.bytes.toList).toList) ++
          ' ' :: ("port=".toList ++ Nat.toDigits 10 addr.port.toNat) :=
    (List.append_assoc _ _ _).symm
  have noSpace : ' ' ∉ "bytes=".toList ++ (hexEncode addr.bytes.toList).toList := by
    intro found
    rcases List.mem_append.mp found with inName | inDigits
    · exact absurd inName (by decide)
    · exact not_space_of_hexEncode _ inDigits
  rw [dumpAddr_eq, ← List.append_assoc, isPattern, splitSecond,
    splitOnce_append _ (not_space_of_front addr), splitOnce, if_neg notHere, regroup,
    splitOnce_append _ noSpace, splitOnce_here]
  simp only [Option.map_some]
  rw [splitFirst_of_not_mem (not_space_of_toDigits _)]

end Dump

theorem addrFromJsonString_dumpAddr (addr : Addr) :
    addrFromJsonString (String.ofList (dumpAddr addr)) = .ok addr := by
  have noSocketAddr : parseSocketAddr (dumpAddr addr) = none :=
    parseSocketAddr_eq_none (by decide) (by decide)
  have family : parseUnsigned (2 ^ 8) (Nat.toDigits 10 addr.family.toNat) =
      some addr.family.toNat := parseUnsigned_toDigits addr.family.toNat_lt
  have port : parseUnsigned (2 ^ 16) (Nat.toDigits 10 addr.port.toNat) = some addr.port.toNat :=
    parseUnsigned_toDigits addr.port.toNat_lt
  unfold addrFromJsonString
  simp only [String.toList_ofList]
  rw [noSocketAddr, family_dumpAddr, bytes_dumpAddr, port_dumpAddr]
  simp only [okOr, bind, Except.bind, String.ofList_toList]
  rw [hexDecode_hexEncode]
  simp only
  rw [toArray_toList]
  simp only
  rw [family, port]
  simp only [UInt8.ofNat_toNat, UInt16.ofNat_toNat]
  rfl

/-- An address that is written is read back, up to what stands behind an IPv4 one. -/
theorem addrFromJsonString_addrToJsonString (addr : Addr) :
    addrFromJsonString (addrToJsonString addr) = .ok (settled addr) := by
  cases found : addr.toSocketAddr with
  | some socketAddr =>
      rw [addrToJsonString, settled, found]
      simp only [addrFromJsonString, String.toList_ofList]
      rw [parseSocketAddr_showSocketAddr]
  | none =>
      rw [addrToJsonString, settled, found]
      exact addrFromJsonString_dumpAddr addr

/-! ## Texts -/

/-- The text is not cut, or cut where a character ends. -/
def CutsClean (text : String) : Prop :=
  byteLength text.toList ≤ maxFreeTextLen ∨ isCharBoundary text.toList maxFreeTextLen = true

/-- A text that is too long keeps a front of at most as many bytes as the cap, and three less at
the least. -/
theorem capChars_long {text : List Char} (long : maxFreeTextLen < byteLength text) :
    ∃ kept, capChars text = kept ++ cutMark ∧
      byteLength kept = lastBoundary text maxFreeTextLen ∧
        maxFreeTextLen ≤ byteLength kept + 3 := by
  obtain ⟨kept, isKept⟩ :=
    Option.isSome_iff_exists.mp (isCharBoundary_lastBoundary text maxFreeTextLen)
  obtain ⟨_, _, isLength⟩ := front_eq_some isKept
  obtain ⟨boundary, isBoundary, before, near⟩ := exists_boundary_near (Nat.le_of_lt long)
  have last := le_lastBoundary before isBoundary
  refine ⟨kept, ?_, isLength, by omega⟩
  rw [capChars, if_neg (Nat.not_le.mpr long), isKept]
  rfl

theorem capChars_short {text : List Char} (short : byteLength text ≤ maxFreeTextLen) :
    capChars text = text := if_pos short

/-- A cut text is cut again, in the mark, unless it was cut at the cap itself. -/
theorem capChars_cut {kept : List Char} (near : maxFreeTextLen ≤ byteLength kept + 3)
    (within : byteLength kept ≤ maxFreeTextLen) :
    capChars (kept ++ cutMark) = kept ++ cutMark ↔ byteLength kept = maxFreeTextLen := by
  have markLength : byteLength cutMark = 14 := rfl
  have length : byteLength (kept ++ cutMark) = byteLength kept + 14 := by
    rw [byteLength_append, markLength]
  have long : maxFreeTextLen < byteLength (kept ++ cutMark) := by omega
  obtain ⟨again, isAgain, againLength, _⟩ := capChars_long long
  constructor
  · intro same
    by_contra short
    -- The first character of the mark ends before the cap.
    have further : isCharBoundary (kept ++ cutMark) (byteLength kept + 1) = true := by
      have longer : byteLength (kept ++ ['.']) = byteLength kept + 1 := byteLength_append kept ['.']
      have regroup : kept ++ cutMark = (kept ++ ['.']) ++ "..[truncated]".toList := by
        rw [List.append_assoc]
        rfl
      show (front (byteLength kept + 1) (kept ++ cutMark)).isSome = true
      rw [← longer, regroup, front_append]
      rfl
    have later := le_lastBoundary (show byteLength kept + 1 ≤ maxFreeTextLen by omega) further
    have lengths : byteLength (again ++ cutMark) = byteLength (kept ++ cutMark) := by
      rw [← isAgain, same]
    rw [byteLength_append, byteLength_append] at lengths
    omega
  · intro atCap
    have isFront : front maxFreeTextLen (kept ++ cutMark) = some kept := by
      rw [← atCap]
      exact front_append kept cutMark
    have isLast : lastBoundary (kept ++ cutMark) maxFreeTextLen = maxFreeTextLen := by
      apply lastBoundary_of_boundary
      rw [isCharBoundary, isFront]
      rfl
    rw [capChars, if_neg (Nat.not_le.mpr long), isLast, isFront]
    rfl

theorem capChars_capChars_iff (text : List Char) :
    capChars (capChars text) = capChars text ↔
      byteLength text ≤ maxFreeTextLen ∨ isCharBoundary text maxFreeTextLen = true := by
  by_cases short : byteLength text ≤ maxFreeTextLen
  · rw [capChars_short short]
    exact ⟨fun _ => Or.inl short, fun _ => capChars_short short⟩
  · obtain ⟨kept, isKept, isLength, near⟩ := capChars_long (Nat.lt_of_not_le short)
    have within : byteLength kept ≤ maxFreeTextLen := by
      rw [isLength]
      exact lastBoundary_le text maxFreeTextLen
    have atCap : byteLength kept = maxFreeTextLen ↔ isCharBoundary text maxFreeTextLen = true := by
      rw [isLength]
      constructor
      · intro isLast
        rw [← isLast]
        exact isCharBoundary_lastBoundary text maxFreeTextLen
      · exact lastBoundary_of_boundary
    rw [isKept, capChars_cut near within, atCap, or_iff_right short]

theorem capText_capText_iff (text : String) :
    capText (capText text) = capText text ↔ CutsClean text := by
  rw [CutsClean, ← capChars_capChars_iff]
  constructor
  · intro same
    have lists := congrArg String.toList same
    rw [capText, capText, String.toList_ofList, String.toList_ofList] at lists
    exact lists
  · intro same
    rw [capText, capText, String.toList_ofList, same]

example : ¬CutsClean (String.ofList (List.replicate 255 'a' ++ ['é'])) := by
  rw [CutsClean, String.toList_ofList]
  decide +kernel

/-! ## Fields -/

theorem fieldAs_ofFields {α : Type} {what key : String} {read : Json → Option α}
    {fields : List (String × Json)} {json : Json} {value : α}
    (found : fields.reverse.lookup key = some json) (kind : read json = some value) :
    fieldAs what read (.ofFields fields) key = .ok value := by
  rw [fieldAs, field, Json.get_ofFields, found]
  show okOr (read json) _ = _
  rw [kind]
  rfl

theorem optionalFieldU64_ofFields {key : String} {fields : List (String × Json)} {value : UInt64}
    (found : fields.reverse.lookup key = some (.number value)) :
    optionalFieldU64 (.ofFields fields) key = .ok value := by
  rw [optionalFieldU64, Json.get_ofFields, found]
  rfl

theorem toU32_toUInt64 (error : DiagError) (value : UInt32) :
    toU32 error value.toUInt64 = .ok value := by
  have small : value.toUInt64.toNat < 2 ^ 32 := by
    rw [UInt32.toNat_toUInt64]
    exact value.toNat_lt
  rw [toU32, if_pos small, UInt32.toUInt32_toUInt64]

theorem optionalFieldU32_ofFields {key : String} {fields : List (String × Json)} {value : UInt32}
    (found : fields.reverse.lookup key = some (.number value.toUInt64)) :
    optionalFieldU32 (.ofFields fields) key = .ok value := by
  rw [optionalFieldU32, optionalFieldU64_ofFields found]
  exact toU32_toUInt64 _ value

/-- A list is read back item by item. -/
theorem mapM_map {α β : Type} {write : α → Json} {read : Json → Except DiagError β} {back : α → β}
    (item : ∀ one, read (write one) = .ok (back one)) (items : List α) :
    (items.map write).mapM read = .ok (items.map back) := by
  induction items with
  | nil => rfl
  | cons first rest ih =>
      rw [List.map_cons, List.mapM_cons, item, ih]
      rfl

/-! ## The record -/

/-- The step, its text cut. -/
def StepRecord.cut (step : StepRecord) : StepRecord := { step with detail := capText step.detail }

/-- The visit event, its text cut. -/
def VisitEvent.cut (event : VisitEvent) : VisitEvent :=
  { event with detail := capText event.detail }

theorem StepRecord.fromValue_toValue (step : StepRecord) : fromValue step.toValue = .ok step.cut := by
  have name : fieldStr step.toValue "step" = .ok step.step.asStr := fieldAs_ofFields rfl rfl
  have atMs : fieldU64 step.toValue "at_ms" = .ok step.atMs := fieldAs_ofFields rfl rfl
  have outcome : fieldStr step.toValue "outcome" = .ok step.outcome.asStr :=
    fieldAs_ofFields rfl rfl
  have detail : fieldStr step.toValue "detail" = .ok (capText step.detail) :=
    fieldAs_ofFields rfl rfl
  simp only [fromValue, name, Step.parseStr_asStr, atMs, outcome, StepOutcome.parseStr_asStr,
    detail, bind, Except.bind]
  rfl

theorem VisitEvent.fromValue_toValue (event : VisitEvent) :
    fromValue event.toValue = .ok event.cut := by
  have name : fieldStr event.toValue "event" = .ok event.event.asStr := fieldAs_ofFields rfl rfl
  have atMs : fieldU64 event.toValue "at_ms" = .ok event.atMs := fieldAs_ofFields rfl rfl
  have detail : fieldStr event.toValue "detail" = .ok (capText event.detail) :=
    fieldAs_ofFields rfl rfl
  simp only [fromValue, name, VisitEventKind.parseStr_asStr, atMs, detail, bind, Except.bind]
  rfl

theorem StepRecord.toValue_cut_iff (step : StepRecord) :
    step.cut.toValue = step.toValue ↔ CutsClean step.detail := by
  rw [← capText_capText_iff]
  constructor
  · intro same
    have details : Json.get "detail" step.cut.toValue = Json.get "detail" step.toValue := by
      rw [same]
    simp only [toValue, Json.get_ofFields] at details
    exact Json.string.inj (Option.some.inj details)
  · intro same
    rw [toValue, toValue]
    show Json.ofFields [_, _, _, ("detail", .string (capText (capText step.detail)))] = _
    rw [same]
    rfl

theorem VisitEvent.toValue_cut_iff (event : VisitEvent) :
    event.cut.toValue = event.toValue ↔ CutsClean event.detail := by
  rw [← capText_capText_iff]
  constructor
  · intro same
    have details : Json.get "detail" event.cut.toValue = Json.get "detail" event.toValue := by
      rw [same]
    simp only [toValue, Json.get_ofFields] at details
    exact Json.string.inj (Option.some.inj details)
  · intro same
    rw [toValue, toValue]
    show Json.ofFields [_, _, ("detail", .string (capText (capText event.detail)))] = _
    rw [same]
    rfl

/-- The path, its address changed. -/
def PathChoice.mapAddr (change : Addr → Addr) : PathChoice → PathChoice
  | .relay addr => .relay (change addr)
  | .direct addr => .direct (change addr)

namespace DiagRecord

/-- The record, its texts cut. -/
def cut (record : DiagRecord) : DiagRecord :=
  { record with
    steps := record.steps.map StepRecord.cut
    events := record.events.map VisitEvent.cut
    version := capText record.version
    platform := capText record.platform }

/-- What is read back of a record. -/
def readBack (record : DiagRecord) : DiagRecord :=
  { record.cut with
    localObserved := (settled record.localObserved.1, settled record.localObserved.2)
    peerObserved := settled record.peerObserved
    path := record.path.mapAddr settled }

section Fields

variable (time : TimeCrate) (record : DiagRecord)

theorem readEvents_toValue :
    readEvents (record.toValue time) = .ok (record.events.map VisitEvent.cut) := by
  have found : (record.toValue time).get "events" =
      some (.array (record.events.map VisitEvent.toValue)) := Json.get_ofFields _ _
  rw [readEvents, found]
  exact mapM_map VisitEvent.fromValue_toValue record.events

theorem readFailedStep_toValue : readFailedStep (record.toValue time) = .ok record.failedStep := by
  have found : field (record.toValue time) "failed_step" =
      .ok (nameOrNull (record.failedStep.map Step.asStr)) := by
    rw [field, toValue, Json.get_ofFields]
    rfl
  rw [readFailedStep, found]
  cases record.failedStep with
  | none => rfl
  | some step =>
      show (do
        let step ← Step.parseStr step.asStr
        pure (some step)) = _
      rw [Step.parseStr_asStr]
      rfl

theorem readLocalObserved_toValue : readLocalObserved (record.toValue time) =
    .ok (settled record.localObserved.1, settled record.localObserved.2) := by
  have found : fieldArray (record.toValue time) "local_observed" =
      .ok [.string (addrToJsonString record.localObserved.1),
        .string (addrToJsonString record.localObserved.2)] := fieldAs_ofFields rfl rfl
  simp only [readLocalObserved, found, bind, Except.bind, asStr, Json.asStr, okOr,
    addrFromJsonString_addrToJsonString]
  rfl

theorem readPath_toValue :
    readPath (record.toValue time) = .ok (record.path.mapAddr settled) := by
  have kind : fieldStr (record.toValue time) "path" = .ok record.path.kindStr :=
    fieldAs_ofFields rfl rfl
  have addr : fieldStr (record.toValue time) "path_addr" =
      .ok (addrToJsonString record.path.addr) := fieldAs_ofFields rfl rfl
  simp only [readPath, kind, addr, bind, Except.bind, addrFromJsonString_addrToJsonString]
  cases record.path with
  | relay addr => rfl
  | direct addr => rfl

theorem readRttSource_toValue : readRttSource (record.toValue time) = .ok record.rttSource := by
  have found : (record.toValue time).get "rtt_source" = some (.string record.rttSource.asStr) :=
    Json.get_ofFields _ _
  rw [readRttSource, found]
  exact RttSource.parseStr_asStr record.rttSource

/-- The value a record is written as is read back. -/
theorem fromValue_toValue (started : Rfc3339.Supports time record.startedAtMs)
    (ended : Rfc3339.Supports time record.endedAtMs) :
    fromValue time (record.toValue time) = .ok record.readBack := by
  let value := record.toValue time
  have attempt : fieldStr value "attempt" = .ok (hexEncode record.attempt.toList) :=
    fieldAs_ofFields rfl rfl
  have session : fieldU64 value "session" = .ok record.session.toUInt64 := fieldAs_ofFields rfl rfl
  have gateMs : fieldU64 value "gate_ms" = .ok record.gateMs := fieldAs_ofFields rfl rfl
  have peer : fieldStr value "peer" = .ok record.peer.asHex := fieldAs_ofFields rfl rfl
  have startedAt : fieldStr value "started_at" = .ok (Rfc3339.format time record.startedAtMs) :=
    fieldAs_ofFields rfl rfl
  have endedAt : fieldStr value "ended_at" = .ok (Rfc3339.format time record.endedAtMs) :=
    fieldAs_ofFields rfl rfl
  have steps : fieldArray value "steps" = .ok (record.steps.map StepRecord.toValue) :=
    fieldAs_ofFields rfl rfl
  have peerObserved : fieldStr value "peer_observed" =
      .ok (addrToJsonString record.peerObserved) := fieldAs_ofFields rfl rfl
  have mapping : fieldStr value "mapping" = .ok record.mapping.asStr := fieldAs_ofFields rfl rfl
  have carried : fieldBool value "gate_carried_traffic" = .ok record.gateCarriedTraffic :=
    fieldAs_ofFields rfl rfl
  have gateBytes : fieldU64 value "gate_bytes" = .ok record.gateBytes := fieldAs_ofFields rfl rfl
  have queued : optionalFieldU64 value "relay_queued" = .ok record.relayQueued :=
    optionalFieldU64_ofFields rfl
  have delayP50 : optionalFieldU64 value "relay_shaped_delay_p50_us" =
      .ok record.relayShapedDelayP50Us := optionalFieldU64_ofFields rfl
  have delayMax : optionalFieldU64 value "relay_shaped_delay_max_us" =
      .ok record.relayShapedDelayMaxUs := optionalFieldU64_ofFields rfl
  have dropped : optionalFieldU64 value "relay_dropped_at_full" = .ok record.relayDroppedAtFull :=
    optionalFieldU64_ofFields rfl
  have pathRtt : fieldU64 value "path_rtt_us" = .ok record.pathRttUs.toUInt64 :=
    fieldAs_ofFields rfl rfl
  have median : optionalFieldU32 value "rtt_median_us" = .ok record.rttMedianUs :=
    optionalFieldU32_ofFields rfl
  have p95 : optionalFieldU32 value "rtt_p95_us" = .ok record.rttP95Us :=
    optionalFieldU32_ofFields rfl
  have samples : optionalFieldU32 value "rtt_samples" = .ok record.rttSamples :=
    optionalFieldU32_ofFields rfl
  have reason : fieldStr value "reason" = .ok record.reason.asStr := fieldAs_ofFields rfl rfl
  have version : fieldStr value "version" = .ok (capText record.version) :=
    fieldAs_ofFields rfl rfl
  have platform : fieldStr value "platform" = .ok (capText record.platform) :=
    fieldAs_ofFields rfl rfl
  show fromValue time value = _
  simp only [fromValue, attempt, hexDecode_hexEncode, toArray_toList, session, toU32_toUInt64,
    gateMs, peer, PeerFingerprint.fromHex_asHex, startedAt, Rfc3339.parse_format started, endedAt,
    Rfc3339.parse_format ended, steps, mapM_map StepRecord.fromValue_toValue,
    readEvents_toValue time record, readFailedStep_toValue time record,
    readLocalObserved_toValue time record, peerObserved, addrFromJsonString_addrToJsonString,
    mapping, Mapping.parseStr_asStr, carried, gateBytes, queued, delayP50, delayMax, dropped,
    readPath_toValue time record, pathRtt, median, p95, samples,
    readRttSource_toValue time record, reason, Reason.parseStr_asStr, version, platform, bind,
    Except.bind, value]
  rfl

end Fields

/-! ### What is kept -/

/-- The addresses of a record. -/
def addrs (record : DiagRecord) : List Addr :=
  [record.localObserved.1, record.localObserved.2, record.peerObserved, record.path.addr]

/-- The texts of a record that are cut when they are written. -/
def texts (record : DiagRecord) : List String :=
  record.steps.map StepRecord.detail ++ record.events.map VisitEvent.detail ++
    [record.version, record.platform]

theorem readBack_eq_cut_iff (record : DiagRecord) :
    record.readBack = record.cut ↔ ∀ addr ∈ record.addrs, Whole addr := by
  constructor
  · intro same addr inside
    have first := congrArg (fun record => record.localObserved.1) same
    have second := congrArg (fun record => record.localObserved.2) same
    have peer := congrArg DiagRecord.peerObserved same
    have path : settled record.path.addr = record.path.addr := by
      have isPath := congrArg (fun record => record.path.addr) same
      rw [← show (record.path.mapAddr settled).addr = settled record.path.addr by
        cases record.path <;> rfl]
      exact isPath
    rw [← settled_eq_iff]
    rcases List.mem_cons.mp inside with isFirst | inside
    · rw [isFirst]
      exact first
    rcases List.mem_cons.mp inside with isSecond | inside
    · rw [isSecond]
      exact second
    rcases List.mem_cons.mp inside with isPeer | inside
    · rw [isPeer]
      exact peer
    · rw [List.mem_singleton.mp inside]
      exact path
  · intro whole
    have kept : ∀ addr ∈ record.addrs, settled addr = addr :=
      fun addr inside => (settled_eq_iff addr).mpr (whole addr inside)
    have first := kept record.localObserved.1 List.mem_cons_self
    have second := kept record.localObserved.2 (List.mem_cons_of_mem _ List.mem_cons_self)
    have peer := kept record.peerObserved (by simp [addrs])
    have path : record.path.mapAddr settled = record.path := by
      have isAddr := kept record.path.addr (by simp [addrs])
      cases isPath : record.path with
      | relay addr =>
          rw [isPath] at isAddr
          exact congrArg PathChoice.relay isAddr
      | direct addr =>
          rw [isPath] at isAddr
          exact congrArg PathChoice.direct isAddr
    rw [readBack, first, second, peer, path]
    rfl

/-- A record is written the same once its texts are cut exactly where they are cut clean. -/
theorem toValue_cut_iff (time : TimeCrate) (record : DiagRecord) :
    record.cut.toValue time = record.toValue time ↔ ∀ text ∈ record.texts, CutsClean text := by
  have parts : (∀ text ∈ record.texts, CutsClean text) ↔
      (∀ step ∈ record.steps, CutsClean step.detail) ∧
        (∀ event ∈ record.events, CutsClean event.detail) ∧
          CutsClean record.version ∧ CutsClean record.platform := by
    simp [texts, or_imp, forall_and]
  have stepsIff : (record.steps.map StepRecord.cut).map StepRecord.toValue =
      record.steps.map StepRecord.toValue ↔ ∀ step ∈ record.steps, CutsClean step.detail := by
    rw [List.map_map, List.map_inj_left]
    exact forall₂_congr fun step _ => step.toValue_cut_iff
  have eventsIff : (record.events.map VisitEvent.cut).map VisitEvent.toValue =
      record.events.map VisitEvent.toValue ↔ ∀ event ∈ record.events, CutsClean event.detail := by
    rw [List.map_map, List.map_inj_left]
    exact forall₂_congr fun event _ => event.toValue_cut_iff
  rw [parts, ← stepsIff, ← eventsIff, ← capText_capText_iff, ← capText_capText_iff]
  constructor
  · intro same
    have got : ∀ key, (record.cut.fields time).reverse.lookup key =
        (record.fields time).reverse.lookup key := by
      intro key
      rw [← Json.get_ofFields, ← Json.get_ofFields]
      exact congrArg (Json.get key) same
    refine ⟨?_, ?_, ?_, ?_⟩
    · exact Json.array.inj (Option.some.inj (got "steps"))
    · exact Json.array.inj (Option.some.inj (got "events"))
    · exact Json.string.inj (Option.some.inj (got "version"))
    · exact Json.string.inj (Option.some.inj (got "platform"))
  · intro clean
    obtain ⟨steps, events, version, platform⟩ := clean
    have fields : record.cut.fields time = record.fields time := by
      show [_, _, _, _, _, _,
        ("steps", Json.array ((record.steps.map StepRecord.cut).map StepRecord.toValue)), _,
        ("events", Json.array ((record.events.map VisitEvent.cut).map VisitEvent.toValue)),
        _, _, _, _, _, _, _, _, _, _, _, _, _, _, _, _, _,
        ("version", Json.string (capText (capText record.version))),
        ("platform", Json.string (capText (capText record.platform)))] = _
      rw [steps, events, version, platform]
      rfl
    rw [toValue, toValue, fields]

end DiagRecord

/-! ## The line -/

/-- The value is written as a text from which it is read. -/
def SerdeJson.Keeps (serde : SerdeJson) (value : Json) : Prop :=
  ∃ line, serde.toString value = .ok line ∧ serde.fromStr line = .ok value

namespace DiagRecord

section Line

variable {serde : SerdeJson} {time : TimeCrate} {record : DiagRecord}

theorem toJsonLine_eq {line : String} (written : serde.toString (record.toValue time) = .ok line) :
    record.toJsonLine serde time = line := by
  rw [toJsonLine, written]

/-- The line of a record is never refused. -/
theorem fromJsonLine_toJsonLine (started : Rfc3339.Supports time record.startedAtMs)
    (ended : Rfc3339.Supports time record.endedAtMs) (kept : serde.Keeps (record.toValue time)) :
    fromJsonLine serde time (record.toJsonLine serde time) = .ok record.readBack := by
  obtain ⟨line, written, read⟩ := kept
  rw [toJsonLine_eq written, fromJsonLine, read]
  exact fromValue_toValue time record started ended

/-- The cut record has the same line exactly where it has the same value. -/
theorem toJsonLine_cut_iff (kept : serde.Keeps (record.toValue time))
    (keptAgain : serde.Keeps (record.cut.toValue time)) :
    record.cut.toJsonLine serde time = record.toJsonLine serde time ↔
      record.cut.toValue time = record.toValue time := by
  constructor
  · intro same
    obtain ⟨line, written, read⟩ := kept
    obtain ⟨again, writtenAgain, readAgain⟩ := keptAgain
    rw [toJsonLine_eq written, toJsonLine_eq writtenAgain] at same
    rw [same, read] at readAgain
    exact (Except.ok.inj readAgain).symm
  · intro same
    rw [toJsonLine, toJsonLine, same]

end Line

/-- A record, its texts cut, is what its line is read as, and is written as that line again,
exactly where nothing stands behind the octets of an IPv4 address and no text that is too long
has a character across the cap. -/
theorem record_round_trip_iff (serde : SerdeJson) (time : TimeCrate) (record : DiagRecord)
    (started : Rfc3339.Supports time record.startedAtMs)
    (ended : Rfc3339.Supports time record.endedAtMs)
    (kept : serde.Keeps (record.toValue time))
    (keptAgain : serde.Keeps (record.cut.toValue time)) :
    (∃ back, fromJsonLine serde time (record.toJsonLine serde time) = .ok back ∧
        back = record.cut ∧ back.toJsonLine serde time = record.toJsonLine serde time) ↔
      (∀ addr ∈ record.addrs, Whole addr) ∧ ∀ text ∈ record.texts, CutsClean text := by
  have read := fromJsonLine_toJsonLine started ended kept
  rw [← readBack_eq_cut_iff, ← toValue_cut_iff time, ← toJsonLine_cut_iff kept keptAgain]
  constructor
  · intro found
    obtain ⟨back, isRead, isCut, sameLine⟩ := found
    rw [read] at isRead
    rw [isCut] at sameLine
    exact ⟨(Except.ok.inj isRead).trans isCut, sameLine⟩
  · intro both
    obtain ⟨isCut, sameLine⟩ := both
    refine ⟨record.cut, ?_, rfl, sameLine⟩
    rw [read, isCut]

/-! ### A record and its line -/

/-- An address that was not observed. -/
def unobserved : Addr := ⟨0, List.Vector.replicate 16 0, 0⟩

/-- An attempt that got no further than the gate. -/
def gateOnly : DiagRecord where
  attempt := List.Vector.replicate 16 0
  session := 7
  gateMs := 0
  peer := ⟨List.Vector.replicate 4 0⟩
  startedAtMs := 0
  endedAtMs := 0
  steps := [⟨.gateDial, 5, .ok, "dialled"⟩]
  events := []
  failedStep := some .introduce
  localObserved := (⟨4, ⟨[10, 0, 0, 1, 0, 0, 0, 0, 0, 0, 0, 0, 0, 0, 0, 0], rfl⟩, 443⟩, unobserved)
  peerObserved := unobserved
  mapping := .unknown
  gateCarriedTraffic := false
  gateBytes := 0
  relayQueued := 0
  relayShapedDelayP50Us := 0
  relayShapedDelayMaxUs := 0
  relayDroppedAtFull := 0
  path := .relay unobserved
  pathRttUs := 0
  rttMedianUs := 0
  rttP95Us := 0
  rttSamples := 0
  rttSource := .notSampled
  reason := .introduceTimeout
  version := "0.1.0"
  platform := "linux"

/-- Its line. -/
def gateOnlyLine : String :=
  let unobserved := "\"family=0 bytes=00000000000000000000000000000000 port=0\""
  "\x7b\"attempt\":\"00000000000000000000000000000000\"," ++
  "\"ended_at\":\"1970-01-01T00:00:00Z\",\"events\":[],\"failed_step\":\"introduce\"," ++
  "\"gate_bytes\":0,\"gate_carried_traffic\":false,\"gate_ms\":0," ++
  "\"local_observed\":[\"10.0.0.1:443\"," ++ unobserved ++ "],\"mapping\":\"unknown\"," ++
  "\"path\":\"relay\",\"path_addr\":" ++ unobserved ++ ",\"path_rtt_us\":0," ++
  "\"peer\":\"00000000\",\"peer_observed\":" ++ unobserved ++ ",\"platform\":\"linux\"," ++
  "\"reason\":\"introduce_timeout\",\"relay_dropped_at_full\":0,\"relay_queued\":0," ++
  "\"relay_shaped_delay_max_us\":0,\"relay_shaped_delay_p50_us\":0,\"rtt_median_us\":0," ++
  "\"rtt_p95_us\":0,\"rtt_samples\":0,\"rtt_source\":\"not_sampled\",\"session\":7," ++
  "\"started_at\":\"1970-01-01T00:00:00Z\",\"steps\":[\x7b\"at_ms\":5," ++
  "\"detail\":\"dialled\",\"outcome\":\"ok\",\"step\":\"gate_dial\"\x7d]," ++
  "\"version\":\"0.1.0\"\x7d"

/-- `time`, at the epoch. -/
def epochTime : TimeCrate where
  format _ := some Rfc3339.epochFallback
  parse _ := .ok 0

/-- `serde_json`, at that record. -/
def gateOnlySerde : SerdeJson where
  toString _ := .ok gateOnlyLine
  fromStr _ := .ok (gateOnly.toValue epochTime)

theorem record_round_trip_iff_gateOnly :
    (∃ back, fromJsonLine gateOnlySerde epochTime (gateOnly.toJsonLine gateOnlySerde epochTime) =
        .ok back ∧ back = gateOnly.cut ∧
          back.toJsonLine gateOnlySerde epochTime = gateOnly.toJsonLine gateOnlySerde epochTime) ↔
      (∀ addr ∈ gateOnly.addrs, Whole addr) ∧ ∀ text ∈ gateOnly.texts, CutsClean text :=
  record_round_trip_iff gateOnlySerde epochTime gateOnly ⟨_, rfl, rfl⟩ ⟨_, rfl, rfl⟩
    ⟨_, rfl, rfl⟩ ⟨_, rfl, rfl⟩

/-- The same attempt, with a byte behind the octets of the first reflection. -/
def tailed : DiagRecord :=
  { gateOnly with
    localObserved :=
      (⟨4, ⟨[10, 0, 0, 1, 9, 0, 0, 0, 0, 0, 0, 0, 0, 0, 0, 0], rfl⟩, 443⟩, unobserved) }

/-- The wire has such an address, it is written as the line of another, and the byte is lost. -/
theorem tailed_lost :
    Library.Cbor.Reads (Addr.fromRaw tailed.localObserved.1.toRaw) [] tailed.localObserved.1 ∧
      tailed.toValue epochTime = gateOnly.toValue epochTime ∧
        ¬∃ back, fromJsonLine gateOnlySerde epochTime
            (tailed.toJsonLine gateOnlySerde epochTime) = .ok back ∧ back = tailed.cut ∧
              back.toJsonLine gateOnlySerde epochTime =
                tailed.toJsonLine gateOnlySerde epochTime := by
  refine ⟨Addr.reads_fromRaw _, rfl, ?_⟩
  intro found
  obtain ⟨back, isRead, isCut, _⟩ := found
  have read : fromJsonLine gateOnlySerde epochTime (tailed.toJsonLine gateOnlySerde epochTime) =
      .ok tailed.readBack :=
    fromJsonLine_toJsonLine ⟨_, rfl, rfl⟩ ⟨_, rfl, rfl⟩ ⟨_, rfl, rfl⟩
  rw [read, isCut] at isRead
  have whole := (readBack_eq_cut_iff tailed).mp (Except.ok.inj isRead)
  have isZero := whole tailed.localObserved.1 List.mem_cons_self rfl
  exact absurd isZero (by decide)

end DiagRecord

end Mosschat.Net.Diag
