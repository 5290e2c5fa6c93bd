import Mosschat.Core.Event.BodyCaps

/-!
Owns the exactness of the codec of known bodies: the reading back of every body
that meets the caps and rules of its type, and the converse, that nothing else is
decoded and nothing but its encoding decodes to it. Owns also what becomes of
entries above the keys a decoder knows.

Does not own the unknown types, whose bytes are carried as they came.
-/

namespace Mosschat.Core

open Mosschat.Library.Cbor

/-! ## The map of a body -/

namespace Body

/-- The number of entries in the map of a known body. -/
def entryCount : Body → Nat
  | .message body => 2 + body.replyTo.isSome.toNat
  | .reaction body => 3 + body.remove.toNat
  | .attachment body => 4 + body.mediaType.isSome.toNat
  | .join body => 3 + body.name.isSome.toNat
  | .leave _ => 3
  | .deviceAdd body => 4 + body.label.isSome.toNat
  | .deviceRevoke _ => 3
  | .dropRequest body => 2 + body.targets.isSome.toNat + body.note.isSome.toNat
  | .unknown _ _ => 0

/-- The entries themselves, after a map head of one byte. -/
def entries (body : Body) : Bytes := body.toCbor.tail

/-- The highest key the decoder of the body's type knows. -/
def highestKey : Body → UInt64
  | .message _ => 2
  | .reaction _ => 3
  | .attachment _ => 4
  | .join _ => 3
  | .leave _ => 2
  | .deviceAdd _ => 4
  | .deviceRevoke _ => 2
  | .dropRequest _ => 3
  | .unknown _ _ => 0

/-- The body's encoding with further entries after its own, and its head adjusted. -/
def extended (body : Body) (further : List (UInt64 × Bytes)) : Bytes :=
  encodeHead majorMap (body.entryCount + further.length) ++
    (body.entries ++ further.flatMap fun entry => encodeEntry entry.1.toNat entry.2)

/-- Entries a later version may put after the body's own: with keys the type does
not know, in ascending order, and no more than a map head can count. -/
structure Further (body : Body) (further : List (UInt64 × Bytes)) : Prop where
  above : ∀ entry ∈ further, body.highestKey < entry.1
  ascending : further.Pairwise fun earlier later => earlier.1 < later.1
  counted : body.entryCount + further.length < 2 ^ 64

theorem entryCount_le (body : Body) : body.entryCount ≤ 5 := by
  have most : ∀ present : Bool, present.toNat ≤ 1 := Bool.toNat_le
  cases body with
  | message body => exact Nat.le_trans (Nat.add_le_add_left (most _) 2) (by decide)
  | reaction body => exact Nat.le_trans (Nat.add_le_add_left (most _) 3) (by decide)
  | attachment body => exact Nat.add_le_add_left (most _) 4
  | join body => exact Nat.le_trans (Nat.add_le_add_left (most _) 3) (by decide)
  | leave body => exact (by decide : 3 ≤ 5)
  | deviceAdd body => exact Nat.add_le_add_left (most _) 4
  | deviceRevoke body => exact (by decide : 3 ≤ 5)
  | dropRequest body =>
    have first := most body.targets.isSome
    have second := most body.note.isSome
    change 2 + body.targets.isSome.toNat + body.note.isSome.toNat ≤ 5
    omega
  | unknown typeValue raw => exact Nat.zero_le 5

theorem extended_nil {body : Body} (known : body.Known) : body.extended [] = body.toCbor := by
  have splits : body.toCbor = encodeHead majorMap body.entryCount ++ body.entries := by
    cases body with
    | message body =>
      cases given : body.replyTo <;> simp [toCbor, entryCount, entries, encodeHead, given]
    | reaction body =>
      cases given : body.remove <;> simp [toCbor, entryCount, entries, encodeHead, given]
    | attachment body =>
      cases given : body.mediaType <;> simp [toCbor, entryCount, entries, encodeHead, given]
    | join body => cases given : body.name <;> simp [toCbor, entryCount, entries, encodeHead, given]
    | leave body => simp [toCbor, entryCount, entries, encodeHead]
    | deviceAdd body =>
      cases given : body.label <;> simp [toCbor, entryCount, entries, encodeHead, given]
    | deviceRevoke body => simp [toCbor, entryCount, entries, encodeHead]
    | dropRequest body =>
      cases targets : body.targets <;> cases note : body.note <;>
        simp [toCbor, entryCount, entries, encodeHead, targets, note]
    | unknown typeValue raw => exact known.elim
  rw [splits]
  simp [extended]

end Body

/-! ## Reading back one map -/

/-- The loop reads `encoding` as `entries` entries, after which it stands at
`after`: the last key and what the fields come to. -/
def Advances {σ : Type} (field : UInt64 → σ → Decoder σ) (entries : Nat)
    (before : Option UInt64 × σ) (encoding : Bytes) (after : Option UInt64 × σ) : Prop :=
  ∀ more rest, decodeEntries field (entries + more) before.1 before.2 (encoding ++ rest) =
    decodeEntries field more after.1 after.2 rest

section ReadingBack

variable {σ α : Type} {field : UInt64 → σ → Decoder σ} {lastKey : Option UInt64} {fields next : σ}

theorem Advances.trans {first second : Nat} {front back : Bytes}
    {before middle after : Option UInt64 × σ}
    (left : Advances field first before front middle)
    (right : Advances field second middle back after) :
    Advances field (first + second) before (front ++ back) after := by
  intro more rest
  rw [Nat.add_assoc, List.append_assoc, left, right]

theorem reads_nextKey (key : UInt64) (above : ∀ last, lastKey = some last → last < key) :
    Reads (nextKey lastKey) (encodeUnsigned key.toNat) key := by
  refine (reads_u64 key).bind_pure ?_
  cases lastKey with
  | none => exact Reads.pure key
  | some last => exact (Reads.pure key).refuse (UInt64.not_le.mpr (above last rfl))

/-- An entry with a key above the last is read. -/
theorem advances_entry (key : UInt64) {number : Nat} {value : Bytes}
    (isKey : key.toNat = number) (above : ∀ last, lastKey = some last → last < key)
    (readsValue : Reads (field key fields) value next) :
    Advances field 1 (lastKey, fields) (encodeEntry number value) (some key, next) := by
  intro more rest
  have readsKey : Reads (nextKey lastKey) (encodeUnsigned number) key := by
    rw [← isKey]
    exact reads_nextKey key above
  change decodeEntries field (1 + more) lastKey fields (encodeEntry number value ++ rest) = _
  rw [Nat.add_comm, decodeEntries, encodeEntry, List.append_assoc, readsKey.bind_apply,
    readsValue.bind_apply]

theorem lastBelow {last key : UInt64} (below : last < key) :
    ∀ other, some last = some other → other < key := by
  intro other isLast
  cases isLast
  exact below

theorem advances_none (before : Option UInt64 × σ) : Advances field 0 before [] before := by
  intro more rest
  rw [Nat.zero_add, List.nil_append]

/-- An entry that may have been left out; `put` is what the fields come to with it. -/
theorem advances_optional {β : Type} (put : Option β → σ) (key : UInt64) {number : Nat}
    {encode : β → Bytes} {option : Option β} (isKey : key.toNat = number)
    (above : ∀ last, lastKey = some last → last < key)
    (readsValue : ∀ given, option = some given →
      Reads (field key (put none)) (encode given) (put (some given))) :
    Advances field option.isSome.toNat (lastKey, put none) (encodeOptional number encode option)
      (if option.isSome then some key else lastKey, put option) := by
  cases option with
  | none => exact advances_none _
  | some given => exact advances_entry key isKey above (readsValue given rfl)

theorem reads_required {typeValue key : UInt64} (value : α) :
    Reads (required typeValue key (some value)) [] value :=
  Reads.pure value

theorem reads_decodeType {expected : UInt64} {refusal : String} :
    Reads (decodeType expected refusal) (encodeUnsigned expected.toNat) () := by
  refine (reads_u64 expected).bind_pure ?_
  rw [if_pos rfl]
  exact Reads.pure ()

/-- The first entry, which repeats the type and leaves the fields empty. -/
theorem advances_type {expected : UInt64} {refusal : String} {empty : σ}
    (isType : field 0 empty = do decodeType expected refusal; pure empty) :
    Advances field 1 (none, empty) (encodeType expected) (some 0, empty) := by
  have readsType : Reads (field 0 empty) (encodeUnsigned expected.toNat) empty := by
    rw [isType]
    exact reads_decodeType.bind_pure (Reads.pure empty)
  exact advances_entry 0 rfl (by simp) readsType

theorem reads_cappedStr {least most : Nat} {refusal text : String} (small : most < 2 ^ 64)
    (length : least ≤ utf8Len text ∧ utf8Len text ≤ most) :
    Reads (cappedStr least most refusal) (encodeStr text) text := by
  have fits : text.utf8ByteSize < 2 ^ 64 := Nat.lt_of_le_of_lt length.2 small
  refine (reads_str fits).bind_pure ((Reads.pure text).refuse ?_)
  omega

theorem reads_read32s (values : List Bytes32) :
    Reads (read32s values.length) (values.flatMap encodeKey) values := by
  induction values with
  | nil => exact Reads.pure []
  | cons first others ih =>
    refine (Envelope.reads_read32 first).bind ?_
    exact ih.bind_pure (Reads.pure _)

theorem reads_keyArray {most : Nat} {indefinite wrongCount : String} {values : List Bytes32}
    (small : most < 2 ^ 64) (count : 1 ≤ values.length ∧ values.length ≤ most) :
    Reads (keyArray most indefinite wrongCount) (encodeKeys values) values := by
  have fits : values.length < 2 ^ 64 := Nat.lt_of_le_of_lt count.2 small
  refine (reads_lengthHead (by decide) fits).bind ?_
  exact (reads_read32s values).refuse (by omega)

/-- A decoder steps over the entries past the keys it knows, where their values are
well-formed items. -/
theorem advances_further (fields : σ) {highest : UInt64} {further : List (UInt64 × Bytes)}
    (skips : ∀ key, highest < key → ∀ fields, field key fields = skipField fields)
    (below : ∀ last, lastKey = some last → ∀ entry ∈ further, last < entry.1)
    (above : ∀ entry ∈ further, highest < entry.1)
    (ascending : further.Pairwise fun earlier later => earlier.1 < later.1)
    (items : ∀ entry ∈ further, Reads skip entry.2 ()) :
    ∃ last, Advances field further.length (lastKey, fields)
      (further.flatMap fun entry => encodeEntry entry.1.toNat entry.2) (last, fields) := by
  induction further generalizing lastKey with
  | nil => exact ⟨lastKey, advances_none _⟩
  | cons entry others ih =>
    have ascends := List.pairwise_cons.mp ascending
    have pastKnown : highest < entry.1 := above entry List.mem_cons_self
    have readsValue : Reads (field entry.1 fields) entry.2 fields := by
      rw [skips entry.1 pastKnown]
      exact (items entry List.mem_cons_self).bind_pure (Reads.pure fields)
    have first : Advances field 1 (lastKey, fields) (encodeEntry entry.1.toNat entry.2)
        (some entry.1, fields) := by
      apply advances_entry entry.1 rfl
      · intro last isLast
        exact below last isLast entry List.mem_cons_self
      · exact readsValue
    have belowOthers : ∀ last, some entry.1 = some last → ∀ other ∈ others, last < other.1 := by
      intro last isLast other isOther
      cases isLast
      exact ascends.1 other isOther
    obtain ⟨last, remaining⟩ := ih belowOthers
      (fun other isOther => above other (List.mem_cons_of_mem entry isOther)) ascends.2
      (fun other isOther => items other (List.mem_cons_of_mem entry isOther))
    refine ⟨last, ?_⟩
    rw [List.length_cons, Nat.add_comm, List.flatMap_cons]
    exact first.trans remaining

/-- Past the keys it knows, a decoder skips values and keeps its fields. -/
theorem decodeEntries_skips {highest last : UInt64} {entries : Nat}
    (skips : ∀ key, highest < key → ∀ fields, field key fields = skipField fields)
    (past : highest < last) :
    Yields (decodeEntries field entries (some last) fields) (fun after => after = fields) := by
  induction entries generalizing last with
  | zero => exact Yields.pure rfl
  | succ entries ih =>
    have ascends : Yields (nextKey (some last)) (last < ·) := by
      refine (Yields.any u64).bind fun key _ => Yields.refuse fun notAbove => ?_
      exact Yields.pure (UInt64.not_le.mp notAbove)
    refine ascends.bind fun key above => ?_
    have pastKey : highest < key := UInt64.lt_trans past above
    have keeps : Yields (field key fields) (fun after => after = fields) := by
      rw [skips key pastKey]
      exact (Yields.any skip).bind fun _ _ => Yields.pure rfl
    refine keeps.bind fun after same => ?_
    subst same
    exact ih pastKey

/-- Entries whose first key is past those a decoder knows leave its fields as they are. -/
theorem decodeEntries_further {highest : UInt64} {further : List (UInt64 × Bytes)}
    {after : σ} {rest : Bytes}
    (skips : ∀ key, highest < key → ∀ fields, field key fields = skipField fields)
    (below : ∀ last, lastKey = some last → last ≤ highest)
    (above : ∀ entry ∈ further, highest < entry.1)
    (read : decodeEntries field further.length lastKey fields
      (further.flatMap fun entry => encodeEntry entry.1.toNat entry.2) = .ok (after, rest)) :
    after = fields := by
  cases further with
  | nil => exact (pure_eq_ok.mp read).1.symm
  | cons entry others =>
    have pastKnown : highest < entry.1 := above entry List.mem_cons_self
    have readsKey : Reads (nextKey lastKey) (encodeUnsigned entry.1.toNat) entry.1 := by
      apply reads_nextKey
      intro last isLast
      exact UInt64.lt_of_le_of_lt (below last isLast) pastKnown
    rw [List.flatMap_cons, encodeEntry, List.append_assoc, List.length_cons, decodeEntries,
      readsKey.bind_apply, skips entry.1 pastKnown] at read
    obtain ⟨kept, afterValue, skipped, read⟩ := bind_eq_ok.mp read
    obtain ⟨_, _, _, skipped⟩ := bind_eq_ok.mp skipped
    obtain ⟨rfl, _⟩ := pure_eq_ok.mp skipped
    exact decodeEntries_skips skips pastKnown afterValue after rest read

end ReadingBack

/-- What the decoder of a type makes of one body of it: with further entries above
the keys it knows it reads the body where their values are items, and answers with
nothing but the body whatever they are. -/
structure DecodesTo (decoder : Decoder Body) (body : Body) : Prop where
  reads : ∀ further, body.Further further → (∀ entry ∈ further, Reads skip entry.2 ()) →
    Reads decoder (body.extended further) body
  ignores : ∀ further, body.Further further → ∀ read rest,
    decoder (body.extended further) = .ok (read, rest) → read = body

/-- A type whose loop advances over a body's entries decodes to the body. -/
theorem decodesTo_of_advances {σ α : Type} {indefinite : String} {empty fields : σ}
    {field : UInt64 → σ → Decoder σ} {finish : σ → Decoder α} {construct : α → Body} {value : α}
    {lastKey : Option UInt64} (highest : UInt64)
    (isHighest : (construct value).highestKey = highest)
    (advances : Advances field (construct value).entryCount (none, empty)
      (construct value).entries (lastKey, fields))
    (below : ∀ last, lastKey = some last → last ≤ highest)
    (skips : ∀ key, highest < key → ∀ fields, field key fields = skipField fields)
    (ends : Reads (finish fields) [] value) :
    DecodesTo (construct <$> decodeBody indefinite empty field finish) (construct value) := by
  subst isHighest
  have readsHead : ∀ further, (construct value).Further further →
      Reads map (encodeHead majorMap ((construct value).entryCount + further.length))
        (some ((construct value).entryCount + further.length)) :=
    fun further isFurther => reads_lengthHead (by decide) isFurther.counted
  refine ⟨?_, ?_⟩
  · intro further isFurther items
    have belowFurther : ∀ last, lastKey = some last → ∀ entry ∈ further, last < entry.1 := by
      intro last isLast entry isEntry
      exact UInt64.lt_of_le_of_lt (below last isLast) (isFurther.above entry isEntry)
    obtain ⟨last, overFurther⟩ := advances_further fields skips belowFurther isFurther.above
      isFurther.ascending items
    refine Reads.map construct ((readsHead further isFurther).bind ?_)
    have advancesBoth := advances.trans overFurther
    have readsEntries := fun rest => advancesBoth 0 rest
    exact Reads.bind_pure readsEntries ends
  · intro further isFurther read rest decoded
    obtain ⟨answered, readMap, rfl⟩ := map_eq_ok.mp decoded
    rw [Body.extended, decodeBody, (readsHead further isFurther).bind_apply] at readMap
    obtain ⟨after, middle, readEntries, finished⟩ := bind_eq_ok.mp readMap
    rw [advances] at readEntries
    have kept : after = fields := decodeEntries_further skips below isFurther.above readEntries
    subst kept
    have ended := ends middle
    rw [List.nil_append, finished] at ended
    cases ended
    rfl

/-! ## Reading back each type -/

theorem tail_encodeHead {major count : Nat} (small : count ≤ 23) (encoding : Bytes) :
    (encodeHead major count ++ encoding).tail = encoding := by
  rw [encodeHead, if_pos small]
  rfl

/-- The last key after an entry that may have been left out. -/
theorem optionalKey_le {present : Bool} {key before highest last : UInt64}
    (isLast : (if present then some key else some before) = some last)
    (keyBelow : key ≤ highest) (beforeBelow : before ≤ highest) : last ≤ highest := by
  cases present with
  | false =>
    cases isLast
    exact beforeBelow
  | true =>
    cases isLast
    exact keyBelow

theorem ne_of_past {highest key known : UInt64} (past : highest < key) (below : known ≤ highest) :
    key ≠ known := by
  rintro rfl
  exact UInt64.not_lt.mpr below past

theorem Message.decodesTo {message : Message} (admissible : message.Admissible) :
    DecodesTo (Body.message <$> decodeMessage) (.message message) := by
  obtain ⟨text, replyTo⟩ := message
  have readsText : ∀ fields, Reads (messageField 1 fields) (encodeStr text)
      { fields with text := some text } := by
    intro fields
    rw [messageField, if_neg (by decide), if_pos rfl]
    exact (reads_cappedStr (by decide) admissible.text).bind_pure (Reads.pure _)
  have readsReply : ∀ given fields, Reads (messageField 2 fields) (encodeKey given)
      { fields with replyTo := some given } := by
    intro given fields
    rw [messageField, if_neg (by decide), if_neg (by decide), if_pos rfl]
    exact (Envelope.reads_read32 given).bind_pure (Reads.pure _)
  have typeEntry : Advances messageField 1 (none, ⟨none, none⟩) (encodeType TypeValue.message)
      (some 0, ⟨none, none⟩) :=
    advances_type (if_pos rfl)
  have textEntry : Advances messageField 1 (some 0, ⟨none, none⟩)
      (encodeEntry 1 (encodeStr text)) (some 1, ⟨some text, none⟩) :=
    advances_entry 1 rfl (lastBelow (by decide)) (readsText _)
  have replyEntry : Advances messageField replyTo.isSome.toNat (some 1, ⟨some text, none⟩)
      (encodeOptional 2 encodeKey replyTo)
      (if replyTo.isSome then some 2 else some 1, ⟨some text, replyTo⟩) :=
    advances_optional (MessageFields.mk (some text)) 2 rfl (lastBelow (by decide))
      fun given _ => readsReply given _
  have advances := typeEntry.trans (textEntry.trans replyEntry)
  have encoding : (Body.message ⟨text, replyTo⟩).entries = _ :=
    tail_encodeHead (by split <;> decide) _
  rw [← encoding, ← Nat.add_assoc] at advances
  refine decodesTo_of_advances 2 rfl advances ?_ ?_ (Reads.pure _)
  · intro last isLast
    exact optionalKey_le isLast (by decide) (by decide)
  · intro key past fields
    rw [messageField, if_neg (ne_of_past past (by decide)), if_neg (ne_of_past past (by decide)),
      if_neg (ne_of_past past (by decide))]

theorem Reaction.decodesTo {reaction : Reaction} (admissible : reaction.Admissible) :
    DecodesTo (Body.reaction <$> decodeReaction) (.reaction reaction) := by
  obtain ⟨target, symbol, remove⟩ := reaction
  have readsTarget : ∀ fields, Reads (reactionField 1 fields) (encodeKey target)
      { fields with target := some target } := by
    intro fields
    rw [reactionField, if_neg (by decide), if_pos rfl]
    exact (Envelope.reads_read32 target).bind_pure (Reads.pure _)
  have readsSymbol : ∀ fields, Reads (reactionField 2 fields) (encodeStr symbol)
      { fields with symbol := some symbol } := by
    intro fields
    rw [reactionField, if_neg (by decide), if_neg (by decide), if_pos rfl]
    exact (reads_cappedStr (by decide) admissible.symbol).bind_pure (Reads.pure _)
  have readsRemove : ∀ fields, Reads (reactionField 3 fields) (encodeBool true)
      { fields with remove := true } := by
    intro fields
    rw [reactionField, if_neg (by decide), if_neg (by decide), if_neg (by decide), if_pos rfl]
    exact (reads_bool true).bind_pure (Reads.pure _)
  have typeEntry : Advances reactionField 1 (none, ⟨none, none, false⟩)
      (encodeType TypeValue.reaction) (some 0, ⟨none, none, false⟩) :=
    advances_type (if_pos rfl)
  have targetEntry : Advances reactionField 1 (some 0, ⟨none, none, false⟩)
      (encodeEntry 1 (encodeKey target)) (some 1, ⟨some target, none, false⟩) :=
    advances_entry 1 rfl (lastBelow (by decide)) (readsTarget _)
  have symbolEntry : Advances reactionField 1 (some 1, ⟨some target, none, false⟩)
      (encodeEntry 2 (encodeStr symbol)) (some 2, ⟨some target, some symbol, false⟩) :=
    advances_entry 2 rfl (lastBelow (by decide)) (readsSymbol _)
  have removeEntry : Advances reactionField remove.toNat
      (some 2, ⟨some target, some symbol, false⟩)
      (if remove then encodeEntry 3 (encodeBool true) else [])
      (if remove then some 3 else some 2, ⟨some target, some symbol, remove⟩) := by
    cases remove with
    | false => exact advances_none _
    | true => exact advances_entry 3 rfl (lastBelow (by decide)) (readsRemove _)
  have advances := typeEntry.trans (targetEntry.trans (symbolEntry.trans removeEntry))
  have encoding : (Body.reaction ⟨target, symbol, remove⟩).entries = _ :=
    tail_encodeHead (by split <;> decide) _
  rw [← encoding, ← Nat.add_assoc, ← Nat.add_assoc] at advances
  refine decodesTo_of_advances 3 rfl advances ?_ ?_ (Reads.pure _)
  · intro last isLast
    exact optionalKey_le isLast (by decide) (by decide)
  · intro key past fields
    rw [reactionField, if_neg (ne_of_past past (by decide)), if_neg (ne_of_past past (by decide)),
      if_neg (ne_of_past past (by decide)), if_neg (ne_of_past past (by decide))]

theorem reads_validateAttachmentName {name : String} (admissible : AdmissibleName name) :
    Reads (validateAttachmentName name) [] () := by
  have length : ¬(utf8Len name = 0 ∨ attachmentNameMax < utf8Len name) := by
    have := admissible.length
    omega
  have characters : ¬(Char.ofNat 0 ∈ name.toList ∨ Char.ofNat 47 ∈ name.toList ∨
      Char.ofNat 92 ∈ name.toList) := by
    simp only [admissible.noNul, admissible.noSlash, admissible.noBackslash, or_self,
      not_false_eq_true]
  have directory : ¬(name = "." ∨ name = "..") := not_or.mpr admissible.noDirectory
  unfold validateAttachmentName
  exact ((Reads.pure ()).refuse directory).refuse characters |>.refuse length

theorem Attachment.decodesTo {attachment : Attachment} (admissible : attachment.Admissible) :
    DecodesTo (Body.attachment <$> decodeAttachment) (.attachment attachment) := by
  obtain ⟨hash, size, name, mediaType⟩ := attachment
  have nameFits : name.utf8ByteSize < 2 ^ 64 :=
    Nat.lt_of_le_of_lt admissible.name.length.2 (by decide)
  have readsHash : ∀ fields, Reads (attachmentField 1 fields) (encodeKey hash)
      { fields with hash := some hash } := by
    intro fields
    rw [attachmentField, if_neg (by decide), if_pos rfl]
    exact (Envelope.reads_read32 hash).bind_pure (Reads.pure _)
  have readsSize : ∀ fields, Reads (attachmentField 2 fields) (encodeUnsigned size.toNat)
      { fields with size := some size } := by
    intro fields
    rw [attachmentField, if_neg (by decide), if_neg (by decide), if_pos rfl]
    exact (reads_u64 size).bind_pure ((Reads.pure _).refuse (UInt64.not_lt.mpr admissible.size))
  have readsName : ∀ fields, Reads (attachmentField 3 fields) (encodeStr name)
      { fields with name := some name } := by
    intro fields
    rw [attachmentField, if_neg (by decide), if_neg (by decide), if_neg (by decide), if_pos rfl]
    refine (reads_str nameFits).bind_pure ?_
    exact (reads_validateAttachmentName admissible.name).bind_pure (Reads.pure _)
  have readsMediaType : ∀ given fields, mediaType = some given →
      Reads (attachmentField 4 fields) (encodeStr given)
        { fields with mediaType := some given } := by
    intro given fields isGiven
    have length := admissible.mediaType given isGiven
    rw [attachmentField, if_neg (by decide), if_neg (by decide), if_neg (by decide),
      if_neg (by decide), if_pos rfl]
    exact (reads_cappedStr (by decide) ⟨Nat.zero_le _, length⟩).bind_pure (Reads.pure _)
  have typeEntry : Advances attachmentField 1 (none, ⟨none, none, none, none⟩)
      (encodeType TypeValue.attachment) (some 0, ⟨none, none, none, none⟩) :=
    advances_type (if_pos rfl)
  have hashEntry : Advances attachmentField 1 (some 0, ⟨none, none, none, none⟩)
      (encodeEntry 1 (encodeKey hash)) (some 1, ⟨some hash, none, none, none⟩) :=
    advances_entry 1 rfl (lastBelow (by decide)) (readsHash _)
  have sizeEntry : Advances attachmentField 1 (some 1, ⟨some hash, none, none, none⟩)
      (encodeEntry 2 (encodeUnsigned size.toNat)) (some 2, ⟨some hash, some size, none, none⟩) :=
    advances_entry 2 rfl (lastBelow (by decide)) (readsSize _)
  have nameEntry : Advances attachmentField 1 (some 2, ⟨some hash, some size, none, none⟩)
      (encodeEntry 3 (encodeStr name)) (some 3, ⟨some hash, some size, some name, none⟩) :=
    advances_entry 3 rfl (lastBelow (by decide)) (readsName _)
  have mediaTypeEntry : Advances attachmentField mediaType.isSome.toNat
      (some 3, ⟨some hash, some size, some name, none⟩) (encodeOptional 4 encodeStr mediaType)
      (if mediaType.isSome then some 4 else some 3,
        ⟨some hash, some size, some name, mediaType⟩) :=
    advances_optional (AttachmentFields.mk (some hash) (some size) (some name)) 4 rfl
      (lastBelow (by decide)) fun given isGiven => readsMediaType given _ isGiven
  have advances := typeEntry.trans (hashEntry.trans (sizeEntry.trans
    (nameEntry.trans mediaTypeEntry)))
  have encoding : (Body.attachment ⟨hash, size, name, mediaType⟩).entries = _ :=
    tail_encodeHead (by split <;> decide) _
  rw [← encoding, ← Nat.add_assoc, ← Nat.add_assoc, ← Nat.add_assoc] at advances
  refine decodesTo_of_advances 4 rfl advances ?_ ?_ (Reads.pure _)
  · intro last isLast
    exact optionalKey_le isLast (by decide) (by decide)
  · intro key past fields
    rw [attachmentField, if_neg (ne_of_past past (by decide)),
      if_neg (ne_of_past past (by decide)), if_neg (ne_of_past past (by decide)),
      if_neg (ne_of_past past (by decide)), if_neg (ne_of_past past (by decide))]

theorem Join.decodesTo {join : Join} (admissible : join.Admissible) :
    DecodesTo (Body.join <$> decodeJoin) (.join join) := by
  obtain ⟨person, devices, name⟩ := join
  have readsPerson : ∀ fields, Reads (joinField 1 fields) (encodeKey person)
      { fields with person := some person } := by
    intro fields
    rw [joinField, if_neg (by decide), if_pos rfl]
    exact (Envelope.reads_read32 person).bind_pure (Reads.pure _)
  have readsDevices : ∀ fields, Reads (joinField 2 fields) (encodeKeys devices)
      { fields with devices := some devices } := by
    intro fields
    rw [joinField, if_neg (by decide), if_neg (by decide), if_pos rfl]
    exact (reads_keyArray (by decide) admissible.count).bind_pure (Reads.pure _)
  have readsName : ∀ given fields, name = some given →
      Reads (joinField 3 fields) (encodeStr given) { fields with name := some given } := by
    intro given fields isGiven
    have length := admissible.name given isGiven
    rw [joinField, if_neg (by decide), if_neg (by decide), if_neg (by decide), if_pos rfl]
    exact (reads_cappedStr (by decide) ⟨Nat.zero_le _, length⟩).bind_pure (Reads.pure _)
  have typeEntry : Advances joinField 1 (none, ⟨none, none, none⟩) (encodeType TypeValue.join)
      (some 0, ⟨none, none, none⟩) :=
    advances_type (if_pos rfl)
  have personEntry : Advances joinField 1 (some 0, ⟨none, none, none⟩)
      (encodeEntry 1 (encodeKey person)) (some 1, ⟨some person, none, none⟩) :=
    advances_entry 1 rfl (lastBelow (by decide)) (readsPerson _)
  have devicesEntry : Advances joinField 1 (some 1, ⟨some person, none, none⟩)
      (encodeEntry 2 (encodeKeys devices)) (some 2, ⟨some person, some devices, none⟩) :=
    advances_entry 2 rfl (lastBelow (by decide)) (readsDevices _)
  have nameEntry : Advances joinField name.isSome.toNat
      (some 2, ⟨some person, some devices, none⟩) (encodeOptional 3 encodeStr name)
      (if name.isSome then some 3 else some 2, ⟨some person, some devices, name⟩) :=
    advances_optional (JoinFields.mk (some person) (some devices)) 3 rfl (lastBelow (by decide))
      fun given isGiven => readsName given _ isGiven
  have advances := typeEntry.trans (personEntry.trans (devicesEntry.trans nameEntry))
  have encoding : (Body.join ⟨person, devices, name⟩).entries = _ :=
    tail_encodeHead (by split <;> decide) _
  rw [← encoding, ← Nat.add_assoc, ← Nat.add_assoc] at advances
  refine decodesTo_of_advances 3 rfl advances ?_ ?_ ?_
  · intro last isLast
    exact optionalKey_le isLast (by decide) (by decide)
  · intro key past fields
    rw [joinField, if_neg (ne_of_past past (by decide)), if_neg (ne_of_past past (by decide)),
      if_neg (ne_of_past past (by decide)), if_neg (ne_of_past past (by decide))]
  · refine (reads_required person).bind_pure ((reads_required devices).bind_pure ?_)
    exact ((Reads.pure _).refuse (not_not.mpr admissible.person)).refuse
      (not_not.mpr admissible.distinct)

theorem Leave.decodesTo {leave : Leave} (admissible : leave.Admissible) :
    DecodesTo (Body.leave <$> decodeLeave) (.leave leave) := by
  obtain ⟨person, reason⟩ := leave
  have readsPerson : ∀ fields, Reads (leaveField 1 fields) (encodeKey person)
      { fields with person := some person } := by
    intro fields
    rw [leaveField, if_neg (by decide), if_pos rfl]
    exact (Envelope.reads_read32 person).bind_pure (Reads.pure _)
  have readsReason : ∀ fields, Reads (leaveField 2 fields) (encodeUnsigned reason.toNat)
      { fields with reason := some reason } := by
    intro fields
    rw [leaveField, if_neg (by decide), if_neg (by decide), if_pos rfl]
    exact (reads_u64 reason).bind_pure
      ((Reads.pure _).refuse (UInt64.not_lt.mpr admissible.reason))
  have typeEntry : Advances leaveField 1 (none, ⟨none, none⟩) (encodeType TypeValue.leave)
      (some 0, ⟨none, none⟩) :=
    advances_type (if_pos rfl)
  have personEntry : Advances leaveField 1 (some 0, ⟨none, none⟩)
      (encodeEntry 1 (encodeKey person)) (some 1, ⟨some person, none⟩) :=
    advances_entry 1 rfl (lastBelow (by decide)) (readsPerson _)
  have reasonEntry : Advances leaveField 1 (some 1, ⟨some person, none⟩)
      (encodeEntry 2 (encodeUnsigned reason.toNat)) (some 2, ⟨some person, some reason⟩) :=
    advances_entry 2 rfl (lastBelow (by decide)) (readsReason _)
  have advances := typeEntry.trans (personEntry.trans reasonEntry)
  have encoding : (Body.leave ⟨person, reason⟩).entries = _ := tail_encodeHead (by decide) _
  rw [← encoding] at advances
  refine decodesTo_of_advances 2 rfl advances ?_ ?_ (Reads.pure _)
  · intro last isLast
    cases isLast
    exact UInt64.le_refl 2
  · intro key past fields
    rw [leaveField, if_neg (ne_of_past past (by decide)), if_neg (ne_of_past past (by decide)),
      if_neg (ne_of_past past (by decide))]

theorem DeviceAdd.decodesTo {deviceAdd : DeviceAdd} (admissible : deviceAdd.Admissible) :
    DecodesTo (Body.deviceAdd <$> decodeDeviceAdd) (.deviceAdd deviceAdd) := by
  obtain ⟨device, notBeforeMs, notAfterMs, label⟩ := deviceAdd
  have readsDevice : ∀ fields, Reads (deviceAddField 1 fields) (encodeKey device)
      { fields with device := some device } := by
    intro fields
    rw [deviceAddField, if_neg (by decide), if_pos rfl]
    exact (Envelope.reads_read32 device).bind_pure (Reads.pure _)
  have readsNotBefore : ∀ fields, Reads (deviceAddField 2 fields)
      (encodeUnsigned notBeforeMs.toNat) { fields with notBeforeMs := some notBeforeMs } := by
    intro fields
    rw [deviceAddField, if_neg (by decide), if_neg (by decide), if_pos rfl]
    exact (reads_u64 notBeforeMs).bind_pure (Reads.pure _)
  have readsNotAfter : ∀ fields, Reads (deviceAddField 3 fields)
      (encodeUnsigned notAfterMs.toNat) { fields with notAfterMs := some notAfterMs } := by
    intro fields
    rw [deviceAddField, if_neg (by decide), if_neg (by decide), if_neg (by decide), if_pos rfl]
    exact (reads_u64 notAfterMs).bind_pure (Reads.pure _)
  have readsLabel : ∀ given fields, label = some given →
      Reads (deviceAddField 4 fields) (encodeStr given) { fields with label := some given } := by
    intro given fields isGiven
    have length := admissible.label given isGiven
    rw [deviceAddField, if_neg (by decide), if_neg (by decide), if_neg (by decide),
      if_neg (by decide), if_pos rfl]
    exact (reads_cappedStr (by decide) ⟨Nat.zero_le _, length⟩).bind_pure (Reads.pure _)
  have typeEntry : Advances deviceAddField 1 (none, ⟨none, none, none, none⟩)
      (encodeType TypeValue.deviceAdd) (some 0, ⟨none, none, none, none⟩) :=
    advances_type (if_pos rfl)
  have deviceEntry : Advances deviceAddField 1 (some 0, ⟨none, none, none, none⟩)
      (encodeEntry 1 (encodeKey device)) (some 1, ⟨some device, none, none, none⟩) :=
    advances_entry 1 rfl (lastBelow (by decide)) (readsDevice _)
  have notBeforeEntry : Advances deviceAddField 1 (some 1, ⟨some device, none, none, none⟩)
      (encodeEntry 2 (encodeUnsigned notBeforeMs.toNat))
      (some 2, ⟨some device, some notBeforeMs, none, none⟩) :=
    advances_entry 2 rfl (lastBelow (by decide)) (readsNotBefore _)
  have notAfterEntry : Advances deviceAddField 1
      (some 2, ⟨some device, some notBeforeMs, none, none⟩)
      (encodeEntry 3 (encodeUnsigned notAfterMs.toNat))
      (some 3, ⟨some device, some notBeforeMs, some notAfterMs, none⟩) :=
    advances_entry 3 rfl (lastBelow (by decide)) (readsNotAfter _)
  have labelEntry : Advances deviceAddField label.isSome.toNat
      (some 3, ⟨some device, some notBeforeMs, some notAfterMs, none⟩)
      (encodeOptional 4 encodeStr label)
      (if label.isSome then some 4 else some 3,
        ⟨some device, some notBeforeMs, some notAfterMs, label⟩) :=
    advances_optional (DeviceAddFields.mk (some device) (some notBeforeMs) (some notAfterMs)) 4 rfl
      (lastBelow (by decide)) fun given isGiven => readsLabel given _ isGiven
  have advances := typeEntry.trans (deviceEntry.trans (notBeforeEntry.trans
    (notAfterEntry.trans labelEntry)))
  have encoding : (Body.deviceAdd ⟨device, notBeforeMs, notAfterMs, label⟩).entries = _ :=
    tail_encodeHead (by split <;> decide) _
  rw [← encoding, ← Nat.add_assoc, ← Nat.add_assoc, ← Nat.add_assoc] at advances
  refine decodesTo_of_advances 4 rfl advances ?_ ?_ ?_
  · intro last isLast
    exact optionalKey_le isLast (by decide) (by decide)
  · intro key past fields
    rw [deviceAddField, if_neg (ne_of_past past (by decide)),
      if_neg (ne_of_past past (by decide)), if_neg (ne_of_past past (by decide)),
      if_neg (ne_of_past past (by decide)), if_neg (ne_of_past past (by decide))]
  · refine (reads_required notBeforeMs).bind_pure ((reads_required notAfterMs).bind_pure ?_)
    refine Reads.refuse (UInt64.not_le.mpr admissible.window) ?_
    exact (reads_required device).bind_pure (Reads.pure _)

theorem DeviceRevoke.decodesTo (deviceRevoke : DeviceRevoke) :
    DecodesTo (Body.deviceRevoke <$> decodeDeviceRevoke) (.deviceRevoke deviceRevoke) := by
  obtain ⟨device, atMs⟩ := deviceRevoke
  have readsDevice : ∀ fields, Reads (deviceRevokeField 1 fields) (encodeKey device)
      { fields with device := some device } := by
    intro fields
    rw [deviceRevokeField, if_neg (by decide), if_pos rfl]
    exact (Envelope.reads_read32 device).bind_pure (Reads.pure _)
  have readsAt : ∀ fields, Reads (deviceRevokeField 2 fields) (encodeUnsigned atMs.toNat)
      { fields with atMs := some atMs } := by
    intro fields
    rw [deviceRevokeField, if_neg (by decide), if_neg (by decide), if_pos rfl]
    exact (reads_u64 atMs).bind_pure (Reads.pure _)
  have typeEntry : Advances deviceRevokeField 1 (none, ⟨none, none⟩)
      (encodeType TypeValue.deviceRevoke) (some 0, ⟨none, none⟩) :=
    advances_type (if_pos rfl)
  have deviceEntry : Advances deviceRevokeField 1 (some 0, ⟨none, none⟩)
      (encodeEntry 1 (encodeKey device)) (some 1, ⟨some device, none⟩) :=
    advances_entry 1 rfl (lastBelow (by decide)) (readsDevice _)
  have atEntry : Advances deviceRevokeField 1 (some 1, ⟨some device, none⟩)
      (encodeEntry 2 (encodeUnsigned atMs.toNat)) (some 2, ⟨some device, some atMs⟩) :=
    advances_entry 2 rfl (lastBelow (by decide)) (readsAt _)
  have advances := typeEntry.trans (deviceEntry.trans atEntry)
  have encoding : (Body.deviceRevoke ⟨device, atMs⟩).entries = _ :=
    tail_encodeHead (by decide) _
  rw [← encoding] at advances
  refine decodesTo_of_advances 2 rfl advances ?_ ?_ (Reads.pure _)
  · intro last isLast
    cases isLast
    exact UInt64.le_refl 2
  · intro key past fields
    rw [deviceRevokeField, if_neg (ne_of_past past (by decide)),
      if_neg (ne_of_past past (by decide)), if_neg (ne_of_past past (by decide))]

theorem DropRequest.decodesTo {dropRequest : DropRequest} (admissible : dropRequest.Admissible) :
    DecodesTo (Body.dropRequest <$> decodeDropRequest) (.dropRequest dropRequest) := by
  obtain ⟨scope, targets, note⟩ := dropRequest
  have readsScope : ∀ fields, Reads (dropRequestField 1 fields) (encodeUnsigned scope.toNat)
      { fields with scope := some scope } := by
    intro fields
    rw [dropRequestField, if_neg (by decide), if_pos rfl]
    exact (reads_u64 scope).bind_pure ((Reads.pure _).refuse (UInt64.not_lt.mpr admissible.scope))
  have readsTargets : ∀ given fields, targets = some given →
      Reads (dropRequestField 2 fields) (encodeKeys given)
        { fields with targets := some given } := by
    intro given fields isGiven
    have count := admissible.count given isGiven
    rw [dropRequestField, if_neg (by decide), if_neg (by decide), if_pos rfl]
    exact (reads_keyArray (by decide) count).bind_pure (Reads.pure _)
  have readsNote : ∀ given fields, note = some given →
      Reads (dropRequestField 3 fields) (encodeStr given) { fields with note := some given } := by
    intro given fields isGiven
    have length := admissible.note given isGiven
    rw [dropRequestField, if_neg (by decide), if_neg (by decide), if_neg (by decide), if_pos rfl]
    exact (reads_cappedStr (by decide) ⟨Nat.zero_le _, length⟩).bind_pure (Reads.pure _)
  have typeEntry : Advances dropRequestField 1 (none, ⟨none, none, none⟩)
      (encodeType TypeValue.dropRequest) (some 0, ⟨none, none, none⟩) :=
    advances_type (if_pos rfl)
  have scopeEntry : Advances dropRequestField 1 (some 0, ⟨none, none, none⟩)
      (encodeEntry 1 (encodeUnsigned scope.toNat)) (some 1, ⟨some scope, none, none⟩) :=
    advances_entry 1 rfl (lastBelow (by decide)) (readsScope _)
  have targetsEntry : Advances dropRequestField targets.isSome.toNat
      (some 1, ⟨some scope, none, none⟩) (encodeOptional 2 encodeKeys targets)
      (if targets.isSome then some 2 else some 1, ⟨some scope, targets, none⟩) :=
    advances_optional (fun given => DropRequestFields.mk (some scope) given none) 2 rfl
      (lastBelow (by decide)) fun given isGiven => readsTargets given _ isGiven
  have noteEntry : Advances dropRequestField note.isSome.toNat
      (if targets.isSome then some 2 else some 1, ⟨some scope, targets, none⟩)
      (encodeOptional 3 encodeStr note)
      (if note.isSome then some 3 else if targets.isSome then some 2 else some 1,
        ⟨some scope, targets, note⟩) := by
    refine advances_optional (DropRequestFields.mk (some scope) targets) 3 rfl ?_
      fun given isGiven => readsNote given _ isGiven
    intro last isLast
    exact UInt64.lt_of_le_of_lt (optionalKey_le isLast (UInt64.le_refl 2) (by decide)) (by decide)
  have advances := typeEntry.trans (scopeEntry.trans (targetsEntry.trans noteEntry))
  have few : 2 + targets.isSome.toNat + note.isSome.toNat ≤ 23 := by
    have first := Bool.toNat_le targets.isSome
    have second := Bool.toNat_le note.isSome
    omega
  have encoding : (Body.dropRequest ⟨scope, targets, note⟩).entries = _ := tail_encodeHead few _
  rw [← encoding, ← Nat.add_assoc, ← Nat.add_assoc] at advances
  refine decodesTo_of_advances 3 rfl advances ?_ ?_ ?_
  · intro last isLast
    cases noted : note.isSome with
    | true =>
      rw [noted] at isLast
      cases isLast
      exact UInt64.le_refl 3
    | false =>
      rw [noted] at isLast
      exact optionalKey_le isLast (by decide) (by decide)
  · intro key past fields
    rw [dropRequestField, if_neg (ne_of_past past (by decide)),
      if_neg (ne_of_past past (by decide)), if_neg (ne_of_past past (by decide)),
      if_neg (ne_of_past past (by decide))]
  · have targetsNamed : targets.isSome ↔ scope = 1 := admissible.targets
    refine (reads_required scope).bind_pure (Reads.refuse ?_ (Reads.refuse ?_ (Reads.pure _)))
    · rintro ⟨isOne, missing⟩
      have absent : targets = none := Option.isNone_iff_eq_none.mp missing
      have named := targetsNamed.mpr isOne
      rw [absent] at named
      cases named
    · rintro ⟨isZero, named⟩
      have isOne := targetsNamed.mp named
      rw [isZero] at isOne
      cases isOne

/-! ## Any known body -/

namespace Body

theorem decodesTo_of_admissible {body : Body} (admissible : body.Admissible) :
    ∃ decoder, decodeKnown body.typeValue = some decoder ∧ DecodesTo decoder body := by
  cases body with
  | message body => exact ⟨_, rfl, Message.decodesTo admissible⟩
  | reaction body => exact ⟨_, rfl, Reaction.decodesTo admissible⟩
  | attachment body => exact ⟨_, rfl, Attachment.decodesTo admissible⟩
  | join body => exact ⟨_, rfl, Join.decodesTo admissible⟩
  | leave body => exact ⟨_, rfl, Leave.decodesTo admissible⟩
  | deviceAdd body => exact ⟨_, rfl, DeviceAdd.decodesTo admissible⟩
  | deviceRevoke body => exact ⟨_, rfl, DeviceRevoke.decodesTo body⟩
  | dropRequest body => exact ⟨_, rfl, DropRequest.decodesTo admissible⟩
  | unknown typeValue raw => exact admissible.elim

theorem known_of_admissible {body : Body} (admissible : body.Admissible) : body.Known := by
  cases body with
  | unknown typeValue raw => exact admissible.elim
  | _ => trivial

/-- The entries of a known body start with its type. -/
theorem entries_eq {body : Body} (known : body.Known) :
    ∃ others, body.entries = encodeType body.typeValue ++ others := by
  cases body with
  | message body => exact ⟨_, tail_encodeHead (by split <;> decide) _⟩
  | reaction body => exact ⟨_, tail_encodeHead (by split <;> decide) _⟩
  | attachment body => exact ⟨_, tail_encodeHead (by split <;> decide) _⟩
  | join body => exact ⟨_, tail_encodeHead (by split <;> decide) _⟩
  | leave body => exact ⟨_, tail_encodeHead (by decide) _⟩
  | deviceAdd body => exact ⟨_, tail_encodeHead (by split <;> decide) _⟩
  | deviceRevoke body => exact ⟨_, tail_encodeHead (by decide) _⟩
  | dropRequest body =>
    have few := (Body.dropRequest body).entryCount_le
    exact ⟨_, tail_encodeHead (Nat.le_trans few (by decide)) _⟩
  | unknown typeValue raw => exact known.elim

/-- The first entry of a map tells its type, however many follow. -/
theorem decodeTypeValue_extended {body : Body} {further : List (UInt64 × Bytes)}
    (known : body.Known) (isFurther : body.Further further) :
    ∃ rest, decodeTypeValue (body.extended further) = .ok (body.typeValue, rest) := by
  obtain ⟨others, startsWithType⟩ := entries_eq known
  have readsHead : Reads map (encodeHead majorMap (body.entryCount + further.length))
      (some (body.entryCount + further.length)) :=
    reads_lengthHead (by decide) isFurther.counted
  have readsKey : Reads u64 (encodeUnsigned 0) 0 := reads_u64 0
  have afterKey : decodeTypeValue (body.extended further) =
      u64 (encodeUnsigned body.typeValue.toNat ++
        (others ++ further.flatMap fun entry => encodeEntry entry.1.toNat entry.2)) := by
    rw [extended, startsWithType, decodeTypeValue, readsHead.bind_apply, encodeType, encodeEntry]
    simp only [List.append_assoc]
    rw [readsKey.bind_apply, if_neg (not_not.mpr rfl)]
  exact ⟨_, afterKey.trans (reads_u64 body.typeValue _)⟩

/-- A decoded body is compared with its input, so nothing but its encoding decodes to it. -/
theorem toCbor_of_fromCbor {input : Bytes} {body : Body}
    (decoded : Body.fromCbor input = .ok body) : body.toCbor = input := by
  unfold Body.fromCbor at decoded
  split at decoded
  · cases decoded
  · split at decoded
    · cases decoded
      rfl
    · split at decoded
      · cases decoded
      · split_ifs at decoded with canonical
        cases decoded
        exact not_not.mp canonical

theorem further_nil (body : Body) : body.Further [] := by
  have few := body.entryCount_le
  refine ⟨nofun, List.Pairwise.nil, ?_⟩
  rw [List.length_nil]
  omega

theorem fromCbor_toCbor {body : Body} (admissible : body.Admissible) :
    Body.fromCbor body.toCbor = .ok body := by
  have known := known_of_admissible admissible
  obtain ⟨decoder, isDecoder, decodesTo⟩ := decodesTo_of_admissible admissible
  obtain ⟨rest, readsType⟩ := decodeTypeValue_extended known body.further_nil
  have read := decodesTo.reads [] body.further_nil nofun []
  rw [extended_nil known] at readsType read
  rw [List.append_nil] at read
  unfold Body.fromCbor
  rw [readsType]
  dsimp only
  rw [isDecoder]
  dsimp only
  rw [read]
  exact if_neg (not_not.mpr rfl)

/-- The decoder accepts the encodings of the known bodies that meet the caps and
rules of their types, and nothing else as a known body. -/
theorem known_codec_exact :
    (∀ body : Body, body.Admissible → Body.fromCbor body.toCbor = .ok body) ∧
      ∀ (input : Bytes) (body : Body), Body.fromCbor input = .ok body → body.Known →
        body.toCbor = input ∧ body.Admissible := by
  refine ⟨fun _ => fromCbor_toCbor, ?_⟩
  intro input body decoded known
  exact ⟨toCbor_of_fromCbor decoded, admissible_of_fromCbor decoded known⟩

/-- A short message with no reply. -/
def greeting : Body := .message ⟨"hi", none⟩

theorem greeting_admissible : greeting.Admissible := ⟨by decide⟩

theorem known_codec_exact_greeting :
    Body.fromCbor greeting.toCbor = .ok greeting ∧ greeting.toCbor = greeting.toCbor ∧
      greeting.Admissible :=
  have accepted := known_codec_exact.1 greeting greeting_admissible
  ⟨accepted, known_codec_exact.2 greeting.toCbor greeting accepted trivial⟩

/-! ## Further entries -/

/-- The head counts the entries, so a body with further ones is no body's encoding. -/
theorem extended_ne_toCbor {body : Body} {further : List (UInt64 × Bytes)} (known : body.Known)
    (isFurther : body.Further further) (nonempty : further ≠ []) :
    body.extended further ≠ body.toCbor := by
  intro same
  have readsMore : Reads map _ _ := reads_lengthHead (by decide) isFurther.counted
  have readsFew : Reads map _ _ := reads_lengthHead (by decide) body.further_nil.counted
  have more := readsMore (body.entries ++ further.flatMap fun entry =>
    encodeEntry entry.1.toNat entry.2)
  have few := readsFew (body.entries ++ [])
  change map (body.extended further) = _ at more
  change map (body.extended []) = _ at few
  rw [same] at more
  rw [extended_nil known, more] at few
  cases further with
  | nil => exact nonempty rfl
  | cons entry others =>
    injection few with pair
    injection pair with counts
    injection counts with count
    rw [List.length_cons, List.length_nil] at count
    omega

/-- Whatever its decoder makes of the map, it is refused once the answer is compared
with the input. -/
theorem fromCbor_extended_error {body : Body} {further : List (UInt64 × Bytes)}
    (admissible : body.Admissible) (isFurther : body.Further further) (nonempty : further ≠ []) :
    ∃ reason, Body.fromCbor (body.extended further) = .error reason := by
  have known := known_of_admissible admissible
  obtain ⟨decoder, isDecoder, decodesTo⟩ := decodesTo_of_admissible admissible
  obtain ⟨rest, readsType⟩ := decodeTypeValue_extended known isFurther
  unfold Body.fromCbor
  rw [readsType]
  dsimp only
  rw [isDecoder]
  dsimp only
  cases decoded : decoder (body.extended further) with
  | error reason => exact ⟨reason, rfl⟩
  | ok answer =>
    have same : answer.1 = body := decodesTo.ignores further isFurther answer.1 answer.2 decoded
    have differs : answer.1.toCbor ≠ body.extended further := by
      rw [same]
      exact (extended_ne_toCbor known isFurther nonempty).symm
    exact ⟨_, if_pos differs⟩

/-- The decoder itself steps over further items; it is the comparison with the
re-encoding that refuses them. -/
theorem fromCbor_extended_items {body : Body} {further : List (UInt64 × Bytes)}
    (admissible : body.Admissible) (isFurther : body.Further further) (nonempty : further ≠ [])
    (items : ∀ entry ∈ further, Reads skip entry.2 ()) :
    Body.fromCbor (body.extended further) = .error (malformed
      "known body type is not the canonical deterministic CBOR encoding (R-10)") := by
  have known := known_of_admissible admissible
  obtain ⟨decoder, isDecoder, decodesTo⟩ := decodesTo_of_admissible admissible
  obtain ⟨rest, readsType⟩ := decodeTypeValue_extended known isFurther
  have read := decodesTo.reads further isFurther items []
  rw [List.append_nil] at read
  unfold Body.fromCbor
  rw [readsType]
  dsimp only
  rw [isDecoder]
  dsimp only
  rw [read]
  exact if_pos (extended_ne_toCbor known isFurther nonempty).symm

/-- An accepted body is accepted with further entries after its own exactly where
there are none; and where the values are items, it is R-10 that refuses them. -/
theorem extended_accepted_iff {input : Bytes} {body : Body} {further : List (UInt64 × Bytes)}
    (decoded : Body.fromCbor input = .ok body) (known : body.Known)
    (isFurther : body.Further further) :
    (Body.fromCbor (body.extended further) = .ok body ↔ further = []) ∧
      ((∃ read, Body.fromCbor (body.extended further) = .ok read) ↔ further = []) ∧
      (further ≠ [] → (∀ entry ∈ further, Reads skip entry.2 ()) →
        Body.fromCbor (body.extended further) = .error (malformed
          "known body type is not the canonical deterministic CBOR encoding (R-10)")) := by
  have admissible := admissible_of_fromCbor decoded known
  have accepts : further = [] → Body.fromCbor (body.extended further) = .ok body := by
    intro empty
    rw [empty, extended_nil known]
    exact fromCbor_toCbor admissible
  have refuses : ∀ read, Body.fromCbor (body.extended further) = .ok read → further = [] := by
    intro read accepted
    by_contra nonempty
    obtain ⟨reason, refused⟩ := fromCbor_extended_error admissible isFurther nonempty
    rw [refused] at accepted
    cases accepted
  refine ⟨⟨refuses body, accepts⟩, ⟨?_, fun empty => ⟨body, accepts empty⟩⟩, ?_⟩
  · rintro ⟨read, accepted⟩
    exact refuses read accepted
  · exact fun nonempty items => fromCbor_extended_items admissible isFurther nonempty items

/-- One entry of a later version, the number 1 at key 9. -/
def ninthKey : List (UInt64 × Bytes) := [(9, encodeUnsigned 1)]

theorem greeting_ninthKey : greeting.Further ninthKey := by
  refine ⟨?_, List.pairwise_singleton _ _, by decide⟩
  intro entry isEntry
  rw [List.mem_singleton.mp isEntry]
  show (2 : UInt64) < 9
  decide

theorem extended_accepted_iff_ninthKey :
    ¬∃ read, Body.fromCbor (greeting.extended ninthKey) = .ok read := by
  have decoded := fromCbor_toCbor greeting_admissible
  intro accepted
  have empty := (extended_accepted_iff decoded trivial greeting_ninthKey).2.1.mp accepted
  cases empty

/-- A greeting with an unknown key is refused, though the greeting is accepted. -/
theorem not_forward_compatible :
    Body.fromCbor greeting.toCbor = .ok greeting ∧
      greeting.Further ninthKey ∧ (∀ entry ∈ ninthKey, Reads skip entry.2 ()) ∧
      Body.fromCbor (greeting.extended ninthKey) = .error (malformed
        "known body type is not the canonical deterministic CBOR encoding (R-10)") := by
  have item : Reads skip (encodeUnsigned 1) () := reads_skip_unsigned (show 1 < 2 ^ 64 by omega)
  have items : ∀ entry ∈ ninthKey, Reads skip entry.2 () := by
    intro entry isEntry
    rw [List.mem_singleton.mp isEntry]
    exact item
  refine ⟨fromCbor_toCbor greeting_admissible, greeting_ninthKey, items, ?_⟩
  exact fromCbor_extended_items greeting_admissible greeting_ninthKey nofun items

end Body

end Mosschat.Core
