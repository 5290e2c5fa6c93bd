import Mosschat.Library.Cbor

/-!
Owns the well-formed data items of RFC 8949 as a grammar on byte strings, the
check of appendix C that reads one item, and that the check reads off exactly the
items of the grammar.

A text string is well formed whatever its bytes: that they are UTF-8 is validity.
-/

namespace Mosschat.Library.Cbor

/-! ## The grammar -/

/-- `tail` follows an initial byte with additional information `info`, and gives
the argument `value`. -/
inductive Argument : Nat → Bytes → Nat → Prop where
  | direct {info : Nat} (small : info ≤ 23) : Argument info [] info
  | one {tail : Bytes} (width : tail.length = 1) : Argument 24 tail (beValue tail)
  | two {tail : Bytes} (width : tail.length = 2) : Argument 25 tail (beValue tail)
  | four {tail : Bytes} (width : tail.length = 4) : Argument 26 tail (beValue tail)
  | eight {tail : Bytes} (width : tail.length = 8) : Argument 27 tail (beValue tail)

theorem Argument.info_of_singleton {info value : Nat} {code : UInt8}
    (argument : Argument info [code] value) : info = 24 := by
  cases argument with
  | one width => rfl
  | two width => simp at width
  | four width => simp at width
  | eight width => simp at width

/-- An initial byte of the given major type and its argument, of any width. -/
inductive Head (major : Nat) : Bytes → Nat → Prop where
  | mk {byte : UInt8} {tail : Bytes} {value : Nat} (isMajor : majorOf byte = major)
      (argument : Argument (infoOf byte) tail value) : Head major (byte :: tail) value

/-- The initial byte of an item of indefinite length. -/
def Opens (major : Nat) (byte : UInt8) : Prop :=
  majorOf byte = major ∧ infoOf byte = indefiniteInfo

/-- The byte that ends an item of indefinite length. -/
def breakByte : UInt8 := 0xff

/-- A definite-length string of the given major type. -/
inductive Chunk (major : Nat) : Bytes → Prop where
  | mk {header content : Bytes} (head : Head major header content.length) :
      Chunk major (header ++ content)

/-- A key and its value. -/
def entryBytes (entry : Bytes × Bytes) : Bytes := entry.1 ++ entry.2

/-- One well-formed data item. -/
inductive Item : Bytes → Prop where
  | number {major value : Nat} {header : Bytes}
      (isNumber : major = majorUnsigned ∨ major = majorNegative)
      (head : Head major header value) : Item header
  | string {major : Nat} {chunk : Bytes} (isString : major = majorBytes ∨ major = majorText)
      (chunks : Chunk major chunk) : Item chunk
  | openString {major : Nat} {byte : UInt8} {chunks : List Bytes}
      (isString : major = majorBytes ∨ major = majorText) (opens : Opens major byte)
      (each : ∀ chunk ∈ chunks, Chunk major chunk) :
      Item (byte :: (chunks.flatten ++ [breakByte]))
  | array {header : Bytes} {items : List Bytes} (head : Head majorArray header items.length)
      (each : ∀ item ∈ items, Item item) : Item (header ++ items.flatten)
  | openArray {byte : UInt8} {items : List Bytes} (opens : Opens majorArray byte)
      (each : ∀ item ∈ items, Item item) : Item (byte :: (items.flatten ++ [breakByte]))
  | map {header : Bytes} {entries : List (Bytes × Bytes)}
      (head : Head majorMap header entries.length) (keys : ∀ entry ∈ entries, Item entry.1)
      (values : ∀ entry ∈ entries, Item entry.2) : Item (header ++ entries.flatMap entryBytes)
  | openMap {byte : UInt8} {entries : List (Bytes × Bytes)} (opens : Opens majorMap byte)
      (keys : ∀ entry ∈ entries, Item entry.1) (values : ∀ entry ∈ entries, Item entry.2) :
      Item (byte :: (entries.flatMap entryBytes ++ [breakByte]))
  | tag {number : Nat} {header content : Bytes} (head : Head majorTag header number)
      (tagged : Item content) : Item (header ++ content)
  | simple {value : Nat} {header : Bytes} (head : Head majorSimple header value)
      (assigned : ∀ byte code, header = [byte, code] → 32 ≤ code) : Item header

/-- `bytes` is one definite-length map with the given entries, and nothing else. -/
structure IsMap (entries : List (Bytes × Bytes)) (bytes : Bytes) : Prop where
  counted : ∃ header, Head majorMap header entries.length ∧
    bytes = header ++ entries.flatMap entryBytes
  keys : ∀ entry ∈ entries, Item entry.1
  values : ∀ entry ∈ entries, Item entry.2

theorem Argument.lt {info value : Nat} {tail : Bytes} (argument : Argument info tail value) :
    value < 2 ^ 64 := by
  have bound := beValue_lt tail
  cases argument with
  | direct small => omega
  | one width => rw [width] at bound; omega
  | two width => rw [width] at bound; omega
  | four width => rw [width] at bound; omega
  | eight width => rw [width] at bound; omega

theorem Head.lt {major value : Nat} {header : Bytes} (isHead : Head major header value) :
    value < 2 ^ 64 := by
  obtain ⟨_, argument⟩ := isHead
  exact argument.lt

/-! ## The check -/

/-- `count` items in sequence. -/
def checkTimes (check : Decoder Unit) : Nat → Decoder Unit
  | 0 => pure ()
  | count + 1 => do
      check
      checkTimes check count

/-- A key and its value. -/
def checkEntry (check : Decoder Unit) : Decoder Unit := do
  check
  check

/-- A definite-length string of the given major type. -/
def checkChunk (major : Nat) : Decoder Unit := do
  let length ← head major
  let _ ← readSlice length
  pure ()

/-- One well-formed item, nested no deeper than the fuel. -/
def checkItem : Nat → Decoder Unit
  | 0 => throw .endOfInput
  | fuel + 1 => do
      let byte ← read
      let info := infoOf byte
      if majorOf byte = majorUnsigned ∨ majorOf byte = majorNegative then do
        let _ ← argument info
        pure ()
      else if majorOf byte = majorBytes ∨ majorOf byte = majorText then
        if info = indefiniteInfo then skipChunks (checkChunk (majorOf byte)) fuel
        else do
          let length ← argument info
          let _ ← readSlice length
          pure ()
      else if majorOf byte = majorArray then
        if info = indefiniteInfo then skipChunks (checkItem fuel) fuel
        else do
          let count ← argument info
          checkTimes (checkItem fuel) count
      else if majorOf byte = majorMap then
        if info = indefiniteInfo then skipChunks (checkEntry (checkItem fuel)) fuel
        else do
          let count ← argument info
          checkTimes (checkEntry (checkItem fuel)) count
      else if majorOf byte = majorTag then do
        let _ ← argument info
        checkItem fuel
      else if info = 24 then do
        let code ← read
        if code < 32 then throw .typeMismatch else pure ()
      else do
        let _ ← argument info
        pure ()

/-! ## What the check reads -/

/-- Whatever `decoder` answers, it has read off a front of its input with the property. -/
def Consumes {α : Type} (decoder : Decoder α) (property : Bytes → α → Prop) : Prop :=
  ∀ input value rest, decoder input = .ok (value, rest) →
    ∃ front, input = front ++ rest ∧ property front value

section Consumes

variable {α β : Type} {property : Bytes → α → Prop} {next : Decoder α}

theorem Consumes.pure {value : α} (holds : property [] value) :
    Consumes (pure value) property := by
  intro input answered rest isRead
  obtain ⟨rfl, rfl⟩ := pure_eq_ok.mp isRead
  exact ⟨[], rfl, holds⟩

theorem Consumes.throw {reason : DecodeError} : Consumes (throw reason) property :=
  fun _ _ _ isRead => absurd isRead throw_ne_ok

theorem Consumes.bind {first : Decoder β} {next : β → Decoder α} {middle : Bytes → β → Prop}
    (consumesFirst : Consumes first middle) (consumesNext : ∀ front value, middle front value →
      Consumes (next value) fun back answer => property (front ++ back) answer) :
    Consumes (first >>= next) property := by
  intro input answer rest isRead
  obtain ⟨value, afterFirst, readFirst, readNext⟩ := bind_eq_ok.mp isRead
  obtain ⟨front, isInput, held⟩ := consumesFirst input value afterFirst readFirst
  obtain ⟨back, isAfter, holds⟩ := consumesNext front value held afterFirst answer rest readNext
  refine ⟨front ++ back, ?_, holds⟩
  rw [isInput, isAfter, List.append_assoc]

theorem Consumes.ite {condition : Prop} [Decidable condition] {other : Decoder α}
    (whenTrue : condition → Consumes next property)
    (whenFalse : ¬condition → Consumes other property) :
    Consumes (if condition then next else other) property := by
  by_cases holds : condition
  · rw [if_pos holds]
    exact whenTrue holds
  · rw [if_neg holds]
    exact whenFalse holds

theorem Consumes.mono {stronger : Bytes → α → Prop} (consumes : Consumes next stronger)
    (weaken : ∀ front value, stronger front value → property front value) :
    Consumes next property := by
  intro input value rest isRead
  obtain ⟨front, isInput, held⟩ := consumes input value rest isRead
  exact ⟨front, isInput, weaken front value held⟩

theorem consumes_read : Consumes read fun front byte => front = [byte] := by
  intro input byte rest isRead
  cases input with
  | nil => cases isRead
  | cons head tail =>
      cases isRead
      exact ⟨[byte], rfl, rfl⟩

theorem consumes_readSlice (count : Nat) :
    Consumes (readSlice count) fun front slice => front = slice ∧ slice.length = count := by
  intro input slice rest isRead
  unfold readSlice at isRead
  split at isRead
  · next enough =>
      cases isRead
      exact ⟨input.take count, (List.take_append_drop count input).symm, rfl,
        List.length_take_of_le enough⟩
  · cases isRead

theorem consumes_argument (info : Nat) : Consumes (argument info) (Argument info) := by
  have wide : ∀ count, (∀ slice : Bytes, slice.length = count →
      Argument info slice (beValue slice)) →
      Consumes (beValue <$> readSlice count) (Argument info) := by
    intro count makes input value rest isRead
    obtain ⟨slice, readSlice, rfl⟩ := map_eq_ok.mp isRead
    obtain ⟨front, isInput, rfl, width⟩ := consumes_readSlice count input slice rest readSlice
    exact ⟨front, isInput, makes front width⟩
  unfold argument
  refine Consumes.ite (fun small => Consumes.pure (.direct small)) fun _ => ?_
  refine Consumes.ite (fun one => ?_) fun _ => ?_
  · subst one
    exact wide 1 fun _ => .one
  refine Consumes.ite (fun two => ?_) fun _ => ?_
  · subst two
    exact wide 2 fun _ => .two
  refine Consumes.ite (fun four => ?_) fun _ => ?_
  · subst four
    exact wide 4 fun _ => .four
  refine Consumes.ite (fun eight => ?_) fun _ => Consumes.throw
  · subst eight
    exact wide 8 fun _ => .eight

theorem consumes_head (major : Nat) : Consumes (head major) (Head major) := by
  refine consumes_read.bind fun front byte isByte => ?_
  subst isByte
  refine Consumes.ite (fun isMajor => ?_) fun _ => Consumes.throw
  exact (consumes_argument _).mono fun tail value argument => .mk isMajor argument

theorem consumes_u64 :
    Consumes u64 fun front value => Head majorUnsigned front value.toNat := by
  refine (consumes_head majorUnsigned).bind fun header value isHead => Consumes.pure ?_
  rw [List.append_nil, UInt64.toNat_ofNat_of_lt' isHead.lt]
  exact isHead

theorem consumes_map : Consumes map fun front length =>
    ∀ count, length = some count → Head majorMap front count := by
  refine consumes_read.bind fun front byte isByte => ?_
  subst isByte
  refine Consumes.ite (fun isMajor => ?_) fun _ => Consumes.throw
  refine Consumes.ite (fun isOpen => Consumes.pure nofun) fun _ => ?_
  intro input length rest isRead
  obtain ⟨value, readArgument, rfl⟩ := map_eq_ok.mp isRead
  obtain ⟨tail, isInput, argument⟩ := consumes_argument _ input value rest readArgument
  refine ⟨tail, isInput, ?_⟩
  rintro count ⟨⟩
  exact .mk isMajor argument

theorem consumes_checkChunk (major : Nat) :
    Consumes (checkChunk major) fun front _ => Chunk major front := by
  refine (consumes_head major).bind fun header length isHead => ?_
  refine (consumes_readSlice length).bind fun content slice isSlice => ?_
  obtain ⟨rfl, rfl⟩ := isSlice
  refine Consumes.pure ?_
  rw [List.append_nil]
  exact .mk isHead

variable {check : Decoder Unit} {one : Bytes → Prop}

theorem consumes_checkTimes (consumes : Consumes check fun front _ => one front) (count : Nat) :
    Consumes (checkTimes check count) fun front _ =>
      ∃ items : List Bytes, items.length = count ∧ (∀ item ∈ items, one item) ∧
        front = items.flatten := by
  induction count with
  | zero => exact Consumes.pure ⟨[], rfl, by simp, rfl⟩
  | succ count ih =>
      refine consumes.bind fun item _ isItem => ?_
      refine ih.mono fun back _ others => ?_
      obtain ⟨items, length, each, rfl⟩ := others
      refine ⟨item :: items, by rw [List.length_cons, length], ?_, rfl⟩
      exact List.forall_mem_cons.mpr ⟨isItem, each⟩

theorem consumes_skipChunks (consumes : Consumes check fun front _ => one front) (fuel : Nat) :
    Consumes (skipChunks check fuel) fun front _ =>
      ∃ items : List Bytes, (∀ item ∈ items, one item) ∧
        front = items.flatten ++ [breakByte] := by
  induction fuel with
  | zero => exact Consumes.throw
  | succ fuel ih =>
      intro input value rest isRead
      simp only [skipChunks] at isRead
      split at isRead
      · cases isRead
        exact ⟨[breakByte], rfl, [], by simp, rfl⟩
      · have goesOn : Consumes (do check; skipChunks check fuel) fun front _ =>
            ∃ items : List Bytes, (∀ item ∈ items, one item) ∧
              front = items.flatten ++ [breakByte] := by
          refine consumes.bind fun item _ isItem => ?_
          refine ih.mono fun back _ others => ?_
          obtain ⟨items, each, rfl⟩ := others
          refine ⟨item :: items, List.forall_mem_cons.mpr ⟨isItem, each⟩, ?_⟩
          rw [List.flatten_cons, List.append_assoc]
        exact goesOn input value rest isRead

/-- A list of encoded entries is the encodings of a list of entries. -/
theorem exists_entries (encoded : List Bytes)
    (each : ∀ bytes ∈ encoded, ∃ key value, Item key ∧ Item value ∧ bytes = key ++ value) :
    ∃ entries : List (Bytes × Bytes), entries.length = encoded.length ∧
      (∀ entry ∈ entries, Item entry.1) ∧ (∀ entry ∈ entries, Item entry.2) ∧
      entries.flatMap entryBytes = encoded.flatten := by
  induction encoded with
  | nil => exact ⟨[], rfl, by simp, by simp, rfl⟩
  | cons bytes rest ih =>
      rw [List.forall_mem_cons] at each
      obtain ⟨⟨key, value, isKey, isValue, rfl⟩, others⟩ := each
      obtain ⟨entries, length, keys, values, flat⟩ := ih others
      refine ⟨(key, value) :: entries, by rw [List.length_cons, List.length_cons, length],
        List.forall_mem_cons.mpr ⟨isKey, keys⟩, List.forall_mem_cons.mpr ⟨isValue, values⟩, ?_⟩
      rw [List.flatMap_cons, List.flatten_cons, flat]
      rfl

theorem consumes_checkEntry (consumes : Consumes check fun front _ => Item front) :
    Consumes (checkEntry check) fun front _ =>
      ∃ key value, Item key ∧ Item value ∧ front = key ++ value :=
  consumes.bind fun key _ isKey => consumes.mono fun value _ isValue =>
    ⟨key, value, isKey, isValue, rfl⟩

/-- What the check reads is an item. -/
theorem consumes_checkItem (fuel : Nat) : Consumes (checkItem fuel) fun front _ => Item front := by
  induction fuel with
  | zero => exact Consumes.throw
  | succ fuel ih =>
      refine consumes_read.bind fun front byte isByte => ?_
      subst isByte
      refine Consumes.ite (fun isNumber => ?_) fun _ => ?_
      · refine (consumes_argument _).bind fun tail value argument => Consumes.pure ?_
        rw [List.append_nil]
        exact .number isNumber (.mk rfl argument)
      refine Consumes.ite (fun isString => ?_) fun _ => ?_
      · refine Consumes.ite (fun isOpen => ?_) fun _ => ?_
        · refine (consumes_skipChunks (consumes_checkChunk _) fuel).mono fun back _ read => ?_
          obtain ⟨chunks, each, rfl⟩ := read
          exact .openString isString ⟨rfl, isOpen⟩ each
        · refine (consumes_argument _).bind fun tail length argument => ?_
          refine (consumes_readSlice length).bind fun content slice isSlice => Consumes.pure ?_
          obtain ⟨rfl, rfl⟩ := isSlice
          rw [List.append_nil]
          show Item ((byte :: tail) ++ content)
          exact .string isString (.mk (.mk rfl argument))
      refine Consumes.ite (fun isArray => ?_) fun _ => ?_
      · refine Consumes.ite (fun isOpen => ?_) fun _ => ?_
        · refine (consumes_skipChunks ih fuel).mono fun back _ read => ?_
          obtain ⟨items, each, rfl⟩ := read
          exact .openArray ⟨isArray, isOpen⟩ each
        · refine (consumes_argument _).bind fun tail count argument => ?_
          refine (consumes_checkTimes ih count).mono fun back _ read => ?_
          obtain ⟨items, rfl, each, rfl⟩ := read
          exact .array (.mk isArray argument) each
      refine Consumes.ite (fun isMap => ?_) fun _ => ?_
      · have entry := consumes_checkEntry ih
        refine Consumes.ite (fun isOpen => ?_) fun _ => ?_
        · refine (consumes_skipChunks entry fuel).mono fun back _ read => ?_
          obtain ⟨encoded, each, rfl⟩ := read
          obtain ⟨entries, _, keys, values, flat⟩ := exists_entries encoded each
          rw [← flat]
          exact .openMap ⟨isMap, isOpen⟩ keys values
        · refine (consumes_argument _).bind fun tail count argument => ?_
          refine (consumes_checkTimes entry count).mono fun back _ read => ?_
          obtain ⟨encoded, rfl, each, rfl⟩ := read
          obtain ⟨entries, length, keys, values, flat⟩ := exists_entries encoded each
          rw [← flat]
          rw [← length] at argument
          exact .map (.mk isMap argument) keys values
      refine Consumes.ite (fun isTag => ?_) fun _ => ?_
      · refine (consumes_argument _).bind fun tail number argument => ?_
        refine ih.mono fun content _ tagged => ?_
        show Item ((byte :: tail) ++ content)
        exact .tag (.mk isTag argument) tagged
      have isSimple : majorOf byte = majorSimple := by
        have below : majorOf byte < 8 := by
          have := byte.toNat_lt
          unfold majorOf
          omega
        simp only [majorUnsigned, majorNegative, majorBytes, majorText, majorArray, majorMap,
          majorTag, majorSimple] at *
        omega
      refine Consumes.ite (fun isLong => ?_) fun notLong => ?_
      · refine consumes_read.bind fun front code isCode => ?_
        subst isCode
        refine Consumes.ite (fun _ => Consumes.throw) fun assigned => Consumes.pure ?_
        have argument : Argument (infoOf byte) [code] (beValue [code]) := by
          rw [isLong]
          exact .one rfl
        refine .simple (.mk isSimple argument) ?_
        intro first second same
        cases same
        exact UInt8.not_lt.mp assigned
      · refine (consumes_argument _).bind fun tail value argument => Consumes.pure ?_
        rw [List.append_nil]
        refine .simple (.mk isSimple argument) ?_
        intro first second same
        cases same
        exact absurd argument.info_of_singleton notLong

end Consumes

/-! ## What is read by the check -/

section Reading

variable {check : Decoder Unit} {major value : Nat} {header : Bytes}

theorem reads_argument {info : Nat} {tail : Bytes} (argument : Argument info tail value) :
    Reads (Cbor.argument info) tail value := by
  have wide : ∀ slice : Bytes, Reads (beValue <$> readSlice slice.length) slice (beValue slice) :=
    fun slice => (reads_readSlice slice).map beValue
  cases argument with
  | direct small =>
    rw [Cbor.argument, if_pos small]
    exact Reads.pure _
  | one width => simpa [Cbor.argument, width] using wide tail
  | two width => simpa [Cbor.argument, width] using wide tail
  | four width => simpa [Cbor.argument, width] using wide tail
  | eight width => simpa [Cbor.argument, width] using wide tail

theorem Argument.info_ne_indefinite {info : Nat} {tail : Bytes}
    (argument : Argument info tail value) : info ≠ indefiniteInfo := by
  unfold indefiniteInfo
  cases argument <;> omega

theorem Head.reads (isHead : Head major header value) : Reads (head major) header value := by
  obtain ⟨isMajor, argument⟩ := isHead
  apply Reads.read_bind
  rw [if_pos isMajor]
  exact reads_argument argument

theorem Head.reads_lengthHead (isHead : Head major header value) :
    Reads (lengthHead major) header (some value) := by
  obtain ⟨isMajor, argument⟩ := isHead
  apply Reads.read_bind
  rw [if_pos isMajor, if_neg argument.info_ne_indefinite]
  exact (reads_argument argument).map some

theorem Head.reads_u64 {value : UInt64} (isHead : Head majorUnsigned header value.toNat) :
    Reads u64 header value := by
  have answers : Reads (pure (UInt64.ofNat value.toNat) : Decoder UInt64) [] value := by
    rw [UInt64.ofNat_toNat]
    exact Reads.pure value
  exact isHead.reads.bind_pure answers

/-- The bytes begin an item: there are some, and the first is not a break. -/
def Begins (bytes : Bytes) : Prop := ∃ byte tail, bytes = byte :: tail ∧ byte ≠ breakByte

theorem Begins.append {front : Bytes} (begins : Begins front) (back : Bytes) :
    Begins (front ++ back) := by
  obtain ⟨byte, tail, rfl, notBreak⟩ := begins
  exact ⟨byte, tail ++ back, rfl, notBreak⟩

theorem Begins.length_pos {bytes : Bytes} (begins : Begins bytes) : 1 ≤ bytes.length := by
  obtain ⟨byte, tail, rfl, _⟩ := begins
  exact Nat.succ_pos tail.length

theorem Head.begins (isHead : Head major header value) : Begins header := by
  obtain ⟨_, argument⟩ := isHead
  refine ⟨_, _, rfl, ?_⟩
  intro isBreak
  subst isBreak
  exact argument.info_ne_indefinite rfl

theorem Chunk.begins {chunk : Bytes} (isChunk : Chunk major chunk) : Begins chunk := by
  obtain ⟨head⟩ := isChunk
  exact head.begins.append _

theorem Opens.begins {byte : UInt8} (opens : Opens major byte) (notSimple : major ≠ majorSimple)
    (tail : Bytes) : Begins (byte :: tail) := by
  refine ⟨byte, tail, rfl, ?_⟩
  intro isBreak
  subst isBreak
  exact notSimple opens.1.symm

theorem isString_ne_simple (isString : major = majorBytes ∨ major = majorText) :
    major ≠ majorSimple := by
  rcases isString with rfl | rfl <;> decide

theorem Item.begins {item : Bytes} (isItem : Item item) : Begins item := by
  cases isItem with
  | number _ head => exact head.begins
  | string _ chunk => exact chunk.begins
  | openString isString opens _ => exact opens.begins (isString_ne_simple isString) _
  | array head _ => exact head.begins.append _
  | openArray opens _ => exact opens.begins (by decide) _
  | map head _ _ => exact head.begins.append _
  | openMap opens _ _ => exact opens.begins (by decide) _
  | tag head _ => exact head.begins.append _
  | simple head _ => exact head.begins

theorem Chunk.reads {chunk : Bytes} (isChunk : Chunk major chunk) :
    Reads (checkChunk major) chunk () := by
  obtain ⟨head⟩ := isChunk
  exact head.reads.bind ((reads_readSlice _).bind_pure (Reads.pure ()))

theorem reads_checkTimes {items : List Bytes} (each : ∀ item ∈ items, Reads check item ()) :
    Reads (checkTimes check items.length) items.flatten () := by
  induction items with
  | nil => exact Reads.pure ()
  | cons item rest ih =>
      rw [List.forall_mem_cons] at each
      exact each.1.bind (ih each.2)

theorem reads_skipChunks {items : List Bytes} {fuel : Nat} (enough : items.length < fuel)
    (begin : ∀ item ∈ items, Begins item) (each : ∀ item ∈ items, Reads check item ()) :
    Reads (skipChunks check fuel) (items.flatten ++ [breakByte]) () := by
  induction items generalizing fuel with
  | nil =>
      obtain ⟨fuel, rfl⟩ : ∃ less, fuel = less + 1 := ⟨fuel - 1, by simp at enough; omega⟩
      exact fun rest => rfl
  | cons item rest ih =>
      rw [List.forall_mem_cons] at begin each
      rw [List.length_cons] at enough
      obtain ⟨fuel, rfl⟩ : ∃ less, fuel = less + 1 := ⟨fuel - 1, by omega⟩
      have both : Reads (do check; skipChunks check fuel)
          (item ++ (rest.flatten ++ [breakByte])) () :=
        each.1.bind (ih (by omega) begin.2 each.2)
      obtain ⟨byte, tail, rfl, notBreak⟩ := begin.1
      rw [List.flatten_cons, List.append_assoc]
      intro after
      simp only [skipChunks]
      split
      · next same =>
        cases same
        exact absurd rfl notBreak
      · exact both after

theorem length_le_flatten {items : List Bytes} (begin : ∀ item ∈ items, Begins item) :
    items.length ≤ items.flatten.length := by
  induction items with
  | nil => exact Nat.le_refl 0
  | cons item rest ih =>
      rw [List.forall_mem_cons] at begin
      have first := begin.1.length_pos
      have others := ih begin.2
      rw [List.length_cons, List.flatten_cons, List.length_append]
      omega

theorem length_le_of_mem {items : List Bytes} {item : Bytes} (member : item ∈ items) :
    item.length ≤ items.flatten.length :=
  (List.sublist_flatten_of_mem member).length_le

/-! The check of one item of each kind, given that of the items in it. -/

variable {fuel : Nat} {items : List Bytes} {entries : List (Bytes × Bytes)} {byte : UInt8}

theorem reads_number (isNumber : major = majorUnsigned ∨ major = majorNegative)
    (isHead : Head major header value) : Reads (checkItem (fuel + 1)) header () := by
  obtain ⟨isMajor, argument⟩ := isHead
  apply Reads.read_bind
  rw [isMajor, if_pos isNumber]
  exact (reads_argument argument).bind_pure (Reads.pure ())

theorem reads_string {chunk : Bytes} (isString : major = majorBytes ∨ major = majorText)
    (isChunk : Chunk major chunk) : Reads (checkItem (fuel + 1)) chunk () := by
  have notNumber : ¬(major = majorUnsigned ∨ major = majorNegative) := by
    rcases isString with rfl | rfl <;> decide
  obtain ⟨⟨isMajor, argument⟩⟩ := isChunk
  apply Reads.read_bind
  dsimp only
  rw [isMajor, if_neg notNumber, if_pos isString, if_neg argument.info_ne_indefinite]
  exact (reads_argument argument).bind ((reads_readSlice _).bind_pure (Reads.pure ()))

theorem reads_openString {chunks : List Bytes}
    (isString : major = majorBytes ∨ major = majorText) (opens : Opens major byte)
    (each : ∀ chunk ∈ chunks, Chunk major chunk) (enough : chunks.length < fuel) :
    Reads (checkItem (fuel + 1)) (byte :: (chunks.flatten ++ [breakByte])) () := by
  have notNumber : ¬(major = majorUnsigned ∨ major = majorNegative) := by
    rcases isString with rfl | rfl <;> decide
  obtain ⟨isMajor, isOpen⟩ := opens
  apply Reads.read_bind
  dsimp only
  rw [isMajor, if_neg notNumber, if_pos isString, if_pos isOpen]
  exact reads_skipChunks enough (fun chunk member => (each chunk member).begins)
    fun chunk member => (each chunk member).reads

theorem reads_array (isHead : Head majorArray header items.length)
    (each : ∀ item ∈ items, Reads (checkItem fuel) item ()) :
    Reads (checkItem (fuel + 1)) (header ++ items.flatten) () := by
  obtain ⟨isMajor, argument⟩ := isHead
  apply Reads.read_bind
  dsimp only
  rw [isMajor, if_neg (by decide), if_neg (by decide), if_pos rfl,
    if_neg argument.info_ne_indefinite]
  exact (reads_argument argument).bind (reads_checkTimes each)

theorem reads_openArray (opens : Opens majorArray byte) (begin : ∀ item ∈ items, Begins item)
    (each : ∀ item ∈ items, Reads (checkItem fuel) item ()) (enough : items.length < fuel) :
    Reads (checkItem (fuel + 1)) (byte :: (items.flatten ++ [breakByte])) () := by
  obtain ⟨isMajor, isOpen⟩ := opens
  apply Reads.read_bind
  dsimp only
  rw [isMajor, if_neg (by decide), if_neg (by decide), if_pos rfl, if_pos isOpen]
  exact reads_skipChunks enough begin each

/-- The encoded entries are read one by one. -/
theorem reads_entries {check : Decoder Unit}
    (keys : ∀ entry ∈ entries, Reads check entry.1 ())
    (values : ∀ entry ∈ entries, Reads check entry.2 ()) :
    ∀ bytes ∈ entries.map entryBytes, Reads (checkEntry check) bytes () := by
  rw [List.forall_mem_map]
  exact fun entry member => (keys entry member).bind (values entry member)

theorem reads_map (isHead : Head majorMap header entries.length)
    (keys : ∀ entry ∈ entries, Reads (checkItem fuel) entry.1 ())
    (values : ∀ entry ∈ entries, Reads (checkItem fuel) entry.2 ()) :
    Reads (checkItem (fuel + 1)) (header ++ entries.flatMap entryBytes) () := by
  obtain ⟨isMajor, argument⟩ := isHead
  have all := reads_checkTimes (reads_entries keys values)
  rw [List.length_map, ← List.flatMap_def] at all
  apply Reads.read_bind
  dsimp only
  rw [isMajor, if_neg (by decide), if_neg (by decide), if_neg (by decide), if_pos rfl,
    if_neg argument.info_ne_indefinite]
  exact (reads_argument argument).bind all

theorem reads_openMap (opens : Opens majorMap byte) (begin : ∀ entry ∈ entries, Begins entry.1)
    (keys : ∀ entry ∈ entries, Reads (checkItem fuel) entry.1 ())
    (values : ∀ entry ∈ entries, Reads (checkItem fuel) entry.2 ())
    (enough : entries.length < fuel) :
    Reads (checkItem (fuel + 1)) (byte :: (entries.flatMap entryBytes ++ [breakByte])) () := by
  obtain ⟨isMajor, isOpen⟩ := opens
  have begins : ∀ bytes ∈ entries.map entryBytes, Begins bytes := by
    rw [List.forall_mem_map]
    exact fun entry member => (begin entry member).append entry.2
  apply Reads.read_bind
  dsimp only
  rw [isMajor, if_neg (by decide), if_neg (by decide), if_neg (by decide), if_pos rfl,
    if_pos isOpen, List.flatMap_def]
  exact reads_skipChunks (by rwa [List.length_map]) begins (reads_entries keys values)

theorem reads_tag {content : Bytes} (isHead : Head majorTag header value)
    (tagged : Reads (checkItem fuel) content ()) :
    Reads (checkItem (fuel + 1)) (header ++ content) () := by
  obtain ⟨isMajor, argument⟩ := isHead
  apply Reads.read_bind
  dsimp only
  rw [isMajor, if_neg (by decide), if_neg (by decide), if_neg (by decide), if_neg (by decide),
    if_pos rfl]
  exact (reads_argument argument).bind tagged

theorem reads_simple (isHead : Head majorSimple header value)
    (assigned : ∀ byte code, header = [byte, code] → 32 ≤ code) :
    Reads (checkItem (fuel + 1)) header () := by
  obtain @⟨byte, tail, value, isMajor, argument⟩ := isHead
  apply Reads.read_bind
  dsimp only
  rw [isMajor, if_neg (by decide), if_neg (by decide), if_neg (by decide), if_neg (by decide),
    if_neg (by decide)]
  by_cases isLong : infoOf byte = 24
  · rw [isLong] at argument
    cases argument with
    | direct small => omega
    | one width =>
      obtain ⟨code, rfl⟩ := List.length_eq_one_iff.mp width
      have notReserved : ¬code < 32 := UInt8.not_lt.mpr (assigned byte code rfl)
      rw [if_pos isLong]
      apply Reads.read_bind
      rw [if_neg notReserved]
      exact Reads.pure ()
  · rw [if_neg isLong]
    exact (reads_argument argument).bind_pure (Reads.pure ())

/-! ## The check and the grammar -/

/-- An initial byte takes one unit of fuel. -/
theorem exists_fuel {item : Bytes} (begins : Begins item) (enough : item.length ≤ fuel) :
    ∃ less, fuel = less + 1 := by
  have positive := begins.length_pos
  exact ⟨fuel - 1, by omega⟩

theorem length_le_of_entry {entry : Bytes × Bytes} (member : entry ∈ entries) :
    entry.1.length + entry.2.length ≤ (entries.flatMap entryBytes).length := by
  have mapped : entryBytes entry ∈ entries.map entryBytes := List.mem_map_of_mem member
  have within := length_le_of_mem mapped
  rwa [← List.flatMap_def, entryBytes, List.length_append] at within

theorem length_le_flatMap (begin : ∀ entry ∈ entries, Begins entry.1) :
    entries.length ≤ (entries.flatMap entryBytes).length := by
  have begins : ∀ bytes ∈ entries.map entryBytes, Begins bytes := by
    rw [List.forall_mem_map]
    exact fun entry member => (begin entry member).append entry.2
  have count := length_le_flatten begins
  rwa [List.length_map, ← List.flatMap_def] at count

/-- Every item is read by the check, given as much fuel as it has bytes. -/
theorem reads_checkItem {item : Bytes} (isItem : Item item) :
    ∀ fuel, item.length ≤ fuel → Reads (checkItem fuel) item () := by
  induction isItem with
  | number isNumber head =>
    intro fuel enough
    obtain ⟨fuel, rfl⟩ := exists_fuel head.begins enough
    exact reads_number isNumber head
  | string isString chunk =>
    intro fuel enough
    obtain ⟨fuel, rfl⟩ := exists_fuel chunk.begins enough
    exact reads_string isString chunk
  | openString isString opens each =>
    intro fuel enough
    obtain ⟨fuel, rfl⟩ := exists_fuel (opens.begins (isString_ne_simple isString) _) enough
    have within := length_le_flatten fun chunk member => (each chunk member).begins
    simp only [List.length_cons, List.length_append, List.length_nil] at enough
    exact reads_openString isString opens each (by omega)
  | array head each ih =>
    intro fuel enough
    obtain ⟨fuel, rfl⟩ := exists_fuel (head.begins.append _) enough
    have positive := head.begins.length_pos
    rw [List.length_append] at enough
    refine reads_array head fun item member => ih item member fuel ?_
    have within := length_le_of_mem member
    omega
  | openArray opens each ih =>
    intro fuel enough
    obtain ⟨fuel, rfl⟩ := exists_fuel (opens.begins (by decide) _) enough
    have begin := fun item member => (each item member).begins
    have count := length_le_flatten begin
    simp only [List.length_cons, List.length_append, List.length_nil] at enough
    refine reads_openArray opens begin (fun item member => ?_) (by omega)
    have within := length_le_of_mem member
    exact ih item member fuel (by omega)
  | map head keys values keysRead valuesRead =>
    intro fuel enough
    obtain ⟨fuel, rfl⟩ := exists_fuel (head.begins.append _) enough
    have positive := head.begins.length_pos
    rw [List.length_append] at enough
    refine reads_map head (fun entry member => ?_) fun entry member => ?_
    · have within := length_le_of_entry member
      exact keysRead entry member fuel (by omega)
    · have within := length_le_of_entry member
      exact valuesRead entry member fuel (by omega)
  | openMap opens keys values keysRead valuesRead =>
    intro fuel enough
    obtain ⟨fuel, rfl⟩ := exists_fuel (opens.begins (by decide) _) enough
    have begin := fun entry member => (keys entry member).begins
    have count := length_le_flatMap begin
    simp only [List.length_cons, List.length_append, List.length_nil] at enough
    refine reads_openMap opens begin (fun entry member => ?_) (fun entry member => ?_) (by omega)
    · have within := length_le_of_entry member
      exact keysRead entry member fuel (by omega)
    · have within := length_le_of_entry member
      exact valuesRead entry member fuel (by omega)
  | tag head tagged ih =>
    intro fuel enough
    obtain ⟨fuel, rfl⟩ := exists_fuel (head.begins.append _) enough
    have positive := head.begins.length_pos
    rw [List.length_append] at enough
    exact reads_tag head (ih fuel (by omega))
  | simple head assigned =>
    intro fuel enough
    obtain ⟨fuel, rfl⟩ := exists_fuel head.begins enough
    exact reads_simple head assigned

/-- A byte string is the given number of entries. -/
def Entries (count : Nat) (bytes : Bytes) : Prop :=
  ∃ entries : List (Bytes × Bytes), entries.length = count ∧
    (∀ entry ∈ entries, Item entry.1) ∧ (∀ entry ∈ entries, Item entry.2) ∧
    entries.flatMap entryBytes = bytes

/-- The check of a byte string for exactly `count` entries. -/
def checkEntries (count : Nat) (bytes : Bytes) : Bool :=
  match checkTimes (checkEntry (checkItem bytes.length)) count bytes with
  | .ok ((), []) => true
  | _ => false

/-- The check passes exactly the byte strings that are as many entries. -/
theorem checkEntries_iff {count : Nat} {bytes : Bytes} :
    checkEntries count bytes = true ↔ Entries count bytes := by
  have passes : checkEntries count bytes = true ↔
      checkTimes (checkEntry (checkItem bytes.length)) count bytes = .ok ((), []) := by
    unfold checkEntries
    split <;> simp_all
  rw [passes]
  constructor
  · intro isRead
    have consumes := consumes_checkEntry (consumes_checkItem bytes.length)
    obtain ⟨front, isInput, encoded, length, each, rfl⟩ :=
      consumes_checkTimes consumes count bytes () [] isRead
    obtain ⟨entries, sameLength, keys, values, flat⟩ := exists_entries encoded each
    refine ⟨entries, sameLength.trans length, keys, values, ?_⟩
    rw [flat, isInput, List.append_nil]
  · rintro ⟨entries, rfl, keys, values, rfl⟩
    have readKeys : ∀ entry ∈ entries,
        Reads (checkItem (entries.flatMap entryBytes).length) entry.1 () := by
      intro entry member
      have within := length_le_of_entry member
      exact reads_checkItem (keys entry member) _ (by omega)
    have readValues : ∀ entry ∈ entries,
        Reads (checkItem (entries.flatMap entryBytes).length) entry.2 () := by
      intro entry member
      have within := length_le_of_entry member
      exact reads_checkItem (values entry member) _ (by omega)
    have all := reads_checkTimes (reads_entries readKeys readValues)
    rw [List.length_map, ← List.flatMap_def] at all
    have whole := all []
    rwa [List.append_nil] at whole

end Reading

end Mosschat.Library.Cbor
