import Mosschat.Core.Event.Envelope

/-!
Owns the event bodies of `event/body.rs`: the eight known types, the opaque
carrier for every other type, and their encoder and decoder.

Every known body is one definite-length map with strictly ascending keys. The
loop over its entries is `decodeEntries`, and each type contributes the function
that reads one entry and the checks made when the map has ended.
-/

namespace Mosschat.Core

open Mosschat.Library.Cbor

def messageTextMax : Nat := 65536
def reactionSymbolMax : Nat := 32
def attachmentNameMax : Nat := 128
def attachmentMediaTypeMax : Nat := 128
def attachmentSizeMax : UInt64 := (1 : UInt64) <<< 40
def joinNameMax : Nat := 128
def joinDevicesMax : Nat := 8
def deviceAddLabelMax : Nat := 128
def dropRequestTargetsMax : Nat := 64
def dropRequestNoteMax : Nat := 256

namespace TypeValue

def message : UInt64 := 1
def reaction : UInt64 := 2
def attachment : UInt64 := 3
def join : UInt64 := 4
def leave : UInt64 := 5
def deviceAdd : UInt64 := 6
def deviceRevoke : UInt64 := 7
def dropRequest : UInt64 := 8

end TypeValue

structure Message where
  text : String
  replyTo : Option Bytes32
deriving DecidableEq

structure Reaction where
  target : Bytes32
  symbol : String
  remove : Bool
deriving DecidableEq

structure Attachment where
  hash : Bytes32
  size : UInt64
  name : String
  mediaType : Option String
deriving DecidableEq

structure Join where
  person : Bytes32
  devices : List Bytes32
  name : Option String
deriving DecidableEq

structure Leave where
  person : Bytes32
  reason : UInt64
deriving DecidableEq

structure DeviceAdd where
  device : Bytes32
  notBeforeMs : UInt64
  notAfterMs : UInt64
  label : Option String
deriving DecidableEq

structure DeviceRevoke where
  device : Bytes32
  atMs : UInt64
deriving DecidableEq

structure DropRequest where
  scope : UInt64
  targets : Option (List Bytes32)
  note : Option String
deriving DecidableEq

/-- One event body: a known type, or the received bytes of an unknown one. -/
inductive Body where
  | message (message : Message)
  | reaction (reaction : Reaction)
  | attachment (attachment : Attachment)
  | join (join : Join)
  | leave (leave : Leave)
  | deviceAdd (deviceAdd : DeviceAdd)
  | deviceRevoke (deviceRevoke : DeviceRevoke)
  | dropRequest (dropRequest : DropRequest)
  | unknown (typeValue : UInt64) (raw : Bytes)
deriving DecidableEq

/-! ## Encoding -/

def encodeEntry (key : Nat) (value : Bytes) : Bytes := encodeUnsigned key ++ value

/-- Key 0, the body type. -/
def encodeType (typeValue : UInt64) : Bytes := encodeEntry 0 (encodeUnsigned typeValue.toNat)

def encodeOptional {α : Type} (key : Nat) (encode : α → Bytes) : Option α → Bytes
  | none => []
  | some value => encodeEntry key (encode value)

def encodeKey (key : Bytes32) : Bytes := encodeBytes key.toList

def encodeKeys (keys : List Bytes32) : Bytes :=
  encodeHead majorArray keys.length ++ keys.flatMap encodeKey

/-- `Body::to_cbor`, with `encode_known` in the known cases. -/
def Body.toCbor : Body → Bytes
  | .message body =>
      encodeHead majorMap (if body.replyTo.isSome then 3 else 2) ++
        (encodeType TypeValue.message ++
          (encodeEntry 1 (encodeStr body.text) ++
            encodeOptional 2 encodeKey body.replyTo))
  | .reaction body =>
      encodeHead majorMap (if body.remove then 4 else 3) ++
        (encodeType TypeValue.reaction ++
          (encodeEntry 1 (encodeKey body.target) ++
            (encodeEntry 2 (encodeStr body.symbol) ++
              if body.remove then encodeEntry 3 (encodeBool true) else [])))
  | .attachment body =>
      encodeHead majorMap (if body.mediaType.isSome then 5 else 4) ++
        (encodeType TypeValue.attachment ++
          (encodeEntry 1 (encodeKey body.hash) ++
            (encodeEntry 2 (encodeUnsigned body.size.toNat) ++
              (encodeEntry 3 (encodeStr body.name) ++
                encodeOptional 4 encodeStr body.mediaType))))
  | .join body =>
      encodeHead majorMap (if body.name.isSome then 4 else 3) ++
        (encodeType TypeValue.join ++
          (encodeEntry 1 (encodeKey body.person) ++
            (encodeEntry 2 (encodeKeys body.devices) ++
              encodeOptional 3 encodeStr body.name)))
  | .leave body =>
      encodeHead majorMap 3 ++
        (encodeType TypeValue.leave ++
          (encodeEntry 1 (encodeKey body.person) ++
            encodeEntry 2 (encodeUnsigned body.reason.toNat)))
  | .deviceAdd body =>
      encodeHead majorMap (if body.label.isSome then 5 else 4) ++
        (encodeType TypeValue.deviceAdd ++
          (encodeEntry 1 (encodeKey body.device) ++
            (encodeEntry 2 (encodeUnsigned body.notBeforeMs.toNat) ++
              (encodeEntry 3 (encodeUnsigned body.notAfterMs.toNat) ++
                encodeOptional 4 encodeStr body.label))))
  | .deviceRevoke body =>
      encodeHead majorMap 3 ++
        (encodeType TypeValue.deviceRevoke ++
          (encodeEntry 1 (encodeKey body.device) ++
            encodeEntry 2 (encodeUnsigned body.atMs.toNat)))
  | .dropRequest body =>
      encodeHead majorMap
          (2 + body.targets.isSome.toNat + body.note.isSome.toNat) ++
        (encodeType TypeValue.dropRequest ++
          (encodeEntry 1 (encodeUnsigned body.scope.toNat) ++
            (encodeOptional 2 encodeKeys body.targets ++
              encodeOptional 3 encodeStr body.note)))
  | .unknown _ raw => raw

/-- `Body::type_value`. -/
def Body.typeValue : Body → UInt64
  | .message _ => TypeValue.message
  | .reaction _ => TypeValue.reaction
  | .attachment _ => TypeValue.attachment
  | .join _ => TypeValue.join
  | .leave _ => TypeValue.leave
  | .deviceAdd _ => TypeValue.deviceAdd
  | .deviceRevoke _ => TypeValue.deviceRevoke
  | .dropRequest _ => TypeValue.dropRequest
  | .unknown typeValue _ => typeValue

/-! ## Decoding one map -/

def malformed (text : String) : DecodeError := .message text

def missingKey (typeValue key : UInt64) : DecodeError :=
  .message s!"body type {typeValue} is missing required key {key}"

/-- `next_key`: the key of one entry, strictly above the last. -/
def nextKey (lastKey : Option UInt64) : Decoder UInt64 := do
  let key ← u64
  match lastKey with
  | some last =>
      if key ≤ last then throw (malformed "body map keys must be strictly ascending (R-10)")
      else pure key
  | none => pure key

/-- The loop over the entries of a body map, one `field` read after each key. -/
def decodeEntries {σ : Type} (field : UInt64 → σ → Decoder σ) :
    Nat → Option UInt64 → σ → Decoder σ
  | 0, _, fields => pure fields
  | entries + 1, lastKey, fields => do
      let key ← nextKey lastKey
      let fields ← field key fields
      decodeEntries field entries (some key) fields

/-- A body map: its head, its entries, and the checks on what they held. -/
def decodeBody {σ α : Type} (indefinite : String) (empty : σ) (field : UInt64 → σ → Decoder σ)
    (finish : σ → Decoder α) : Decoder α := do
  match ← map with
  | none => throw (malformed indefinite)
  | some entries =>
      let fields ← decodeEntries field entries none empty
      finish fields

/-- The value of key 0, which must repeat the type. -/
def decodeType (expected : UInt64) (refusal : String) : Decoder Unit := do
  let value ← u64
  if value = expected then pure () else throw (malformed refusal)

def utf8Len (text : String) : Nat := text.utf8ByteSize

/-- A text string of `least` to `most` UTF-8 bytes. -/
def cappedStr (least most : Nat) (refusal : String) : Decoder String := do
  let text ← str
  if utf8Len text < least ∨ most < utf8Len text then throw (malformed refusal) else pure text

def read32s : Nat → Decoder (List Bytes32)
  | 0 => pure []
  | count + 1 => do
      let first ← read32
      let others ← read32s count
      pure (first :: others)

/-- A definite-length array of 1 to `most` keys. -/
def keyArray (most : Nat) (indefinite wrongCount : String) : Decoder (List Bytes32) := do
  match ← array with
  | none => throw (malformed indefinite)
  | some len =>
      if len = 0 ∨ most < len then throw (malformed wrongCount) else read32s len

def required {α : Type} (typeValue key : UInt64) : Option α → Decoder α
  | some value => pure value
  | none => throw (missingKey typeValue key)

def skipField {σ : Type} (fields : σ) : Decoder σ := do
  skip
  pure fields

/-! ## The eight known types -/

structure MessageFields where
  text : Option String
  replyTo : Option Bytes32

def messageField (key : UInt64) (fields : MessageFields) : Decoder MessageFields :=
  if key = 0 then do
    decodeType TypeValue.message "message body's key 0 must be 1"
    pure fields
  else if key = 1 then do
    let text ← cappedStr 1 messageTextMax "message.text must be 1 to 65_536 UTF-8 bytes (R-17)"
    pure { fields with text := some text }
  else if key = 2 then do
    let replyTo ← read32
    pure { fields with replyTo := some replyTo }
  else skipField fields

def decodeMessage : Decoder Message :=
  decodeBody "message body must be a definite-length map" ⟨none, none⟩ messageField
    fun fields => do
      let text ← required TypeValue.message 1 fields.text
      pure { text, replyTo := fields.replyTo }

structure ReactionFields where
  target : Option Bytes32
  symbol : Option String
  remove : Bool

def reactionField (key : UInt64) (fields : ReactionFields) : Decoder ReactionFields :=
  if key = 0 then do
    decodeType TypeValue.reaction "reaction body's key 0 must be 2"
    pure fields
  else if key = 1 then do
    let target ← read32
    pure { fields with target := some target }
  else if key = 2 then do
    let symbol ← cappedStr 1 reactionSymbolMax
      "reaction.symbol must be 1 to 32 UTF-8 bytes (R-20)"
    pure { fields with symbol := some symbol }
  else if key = 3 then do
    let remove ← bool
    if remove then pure { fields with remove := true }
    else throw (malformed "reaction.remove, when present, must be true (absent means add)")
  else skipField fields

def decodeReaction : Decoder Reaction :=
  decodeBody "reaction body must be a definite-length map" ⟨none, none, false⟩ reactionField
    fun fields => do
      let target ← required TypeValue.reaction 1 fields.target
      let symbol ← required TypeValue.reaction 2 fields.symbol
      pure { target, symbol, remove := fields.remove }

structure AttachmentFields where
  hash : Option Bytes32
  size : Option UInt64
  name : Option String
  mediaType : Option String

/-- `validate_attachment_name`; the forbidden characters are NUL, slash and backslash. -/
def validateAttachmentName (name : String) : Decoder Unit :=
  if utf8Len name = 0 ∨ attachmentNameMax < utf8Len name then
    throw (malformed "attachment.name must be 1 to 128 bytes (R-22)")
  else if Char.ofNat 0 ∈ name.toList ∨ Char.ofNat 47 ∈ name.toList ∨ Char.ofNat 92 ∈ name.toList then
    throw (malformed "attachment.name must not contain NUL, '/' or '\\' (R-22)")
  else if name = "." ∨ name = ".." then
    throw (malformed "attachment.name must not be '.' or '..' (R-22)")
  else pure ()

def attachmentField (key : UInt64) (fields : AttachmentFields) : Decoder AttachmentFields :=
  if key = 0 then do
    decodeType TypeValue.attachment "attachment body's key 0 must be 3"
    pure fields
  else if key = 1 then do
    let hash ← read32
    pure { fields with hash := some hash }
  else if key = 2 then do
    let size ← u64
    if attachmentSizeMax < size then
      throw (malformed "attachment.size must be at most 2^40")
    else pure { fields with size := some size }
  else if key = 3 then do
    let name ← str
    validateAttachmentName name
    pure { fields with name := some name }
  else if key = 4 then do
    let mediaType ← cappedStr 0 attachmentMediaTypeMax
      "attachment.media_type must be at most 128 bytes"
    pure { fields with mediaType := some mediaType }
  else skipField fields

def decodeAttachment : Decoder Attachment :=
  decodeBody "attachment body must be a definite-length map" ⟨none, none, none, none⟩
    attachmentField fun fields => do
      let hash ← required TypeValue.attachment 1 fields.hash
      let size ← required TypeValue.attachment 2 fields.size
      let name ← required TypeValue.attachment 3 fields.name
      pure { hash, size, name, mediaType := fields.mediaType }

structure JoinFields where
  person : Option Bytes32
  devices : Option (List Bytes32)
  name : Option String

def joinField (key : UInt64) (fields : JoinFields) : Decoder JoinFields :=
  if key = 0 then do
    decodeType TypeValue.join "join body's key 0 must be 4"
    pure fields
  else if key = 1 then do
    let person ← read32
    pure { fields with person := some person }
  else if key = 2 then do
    let devices ← keyArray joinDevicesMax "join.devices must be a definite-length array"
      "join.devices must have 1 to 8 entries (R-26)"
    pure { fields with devices := some devices }
  else if key = 3 then do
    let name ← cappedStr 0 joinNameMax "join.name must be at most 128 bytes"
    pure { fields with name := some name }
  else skipField fields

def decodeJoin : Decoder Join :=
  decodeBody "join body must be a definite-length map" ⟨none, none, none⟩ joinField
    fun fields => do
      let person ← required TypeValue.join 1 fields.person
      let devices ← required TypeValue.join 2 fields.devices
      if ¬devices.Nodup then throw (malformed "join.devices must hold no duplicate (R-26)")
      else if person ∉ devices then
        throw (malformed "join.devices must contain person (R-26)")
      else pure { person, devices, name := fields.name }

structure LeaveFields where
  person : Option Bytes32
  reason : Option UInt64

def leaveField (key : UInt64) (fields : LeaveFields) : Decoder LeaveFields :=
  if key = 0 then do
    decodeType TypeValue.leave "leave body's key 0 must be 5"
    pure fields
  else if key = 1 then do
    let person ← read32
    pure { fields with person := some person }
  else if key = 2 then do
    let reason ← u64
    if 3 < reason then throw (malformed "leave.reason must be 0 to 3")
    else pure { fields with reason := some reason }
  else skipField fields

def decodeLeave : Decoder Leave :=
  decodeBody "leave body must be a definite-length map" ⟨none, none⟩ leaveField
    fun fields => do
      let person ← required TypeValue.leave 1 fields.person
      let reason ← required TypeValue.leave 2 fields.reason
      pure { person, reason }

structure DeviceAddFields where
  device : Option Bytes32
  notBeforeMs : Option UInt64
  notAfterMs : Option UInt64
  label : Option String

def deviceAddField (key : UInt64) (fields : DeviceAddFields) : Decoder DeviceAddFields :=
  if key = 0 then do
    decodeType TypeValue.deviceAdd "device-add body's key 0 must be 6"
    pure fields
  else if key = 1 then do
    let device ← read32
    pure { fields with device := some device }
  else if key = 2 then do
    let notBeforeMs ← u64
    pure { fields with notBeforeMs := some notBeforeMs }
  else if key = 3 then do
    let notAfterMs ← u64
    pure { fields with notAfterMs := some notAfterMs }
  else if key = 4 then do
    let label ← cappedStr 0 deviceAddLabelMax "device-add.label must be at most 128 bytes"
    pure { fields with label := some label }
  else skipField fields

/-- The device is asked for after the window has been checked, as in the source. -/
def decodeDeviceAdd : Decoder DeviceAdd :=
  decodeBody "device-add body must be a definite-length map" ⟨none, none, none, none⟩
    deviceAddField fun fields => do
      let notBeforeMs ← required TypeValue.deviceAdd 2 fields.notBeforeMs
      let notAfterMs ← required TypeValue.deviceAdd 3 fields.notAfterMs
      if notAfterMs ≤ notBeforeMs then
        throw (malformed
          "device-add.not_before_ms must be strictly less than not_after_ms (R-31)")
      else do
        let device ← required TypeValue.deviceAdd 1 fields.device
        pure { device, notBeforeMs, notAfterMs, label := fields.label }

structure DeviceRevokeFields where
  device : Option Bytes32
  atMs : Option UInt64

def deviceRevokeField (key : UInt64) (fields : DeviceRevokeFields) :
    Decoder DeviceRevokeFields :=
  if key = 0 then do
    decodeType TypeValue.deviceRevoke "device-revoke body's key 0 must be 7"
    pure fields
  else if key = 1 then do
    let device ← read32
    pure { fields with device := some device }
  else if key = 2 then do
    let atMs ← u64
    pure { fields with atMs := some atMs }
  else skipField fields

def decodeDeviceRevoke : Decoder DeviceRevoke :=
  decodeBody "device-revoke body must be a definite-length map" ⟨none, none⟩ deviceRevokeField
    fun fields => do
      let device ← required TypeValue.deviceRevoke 1 fields.device
      let atMs ← required TypeValue.deviceRevoke 2 fields.atMs
      pure { device, atMs }

structure DropRequestFields where
  scope : Option UInt64
  targets : Option (List Bytes32)
  note : Option String

def dropRequestField (key : UInt64) (fields : DropRequestFields) : Decoder DropRequestFields :=
  if key = 0 then do
    decodeType TypeValue.dropRequest "drop-request body's key 0 must be 8"
    pure fields
  else if key = 1 then do
    let scope ← u64
    if 1 < scope then throw (malformed "drop-request.scope must be 0 or 1")
    else pure { fields with scope := some scope }
  else if key = 2 then do
    let targets ← keyArray dropRequestTargetsMax
      "drop-request.targets must be a definite-length array"
      "drop-request.targets must have 1 to 64 entries (R-39)"
    pure { fields with targets := some targets }
  else if key = 3 then do
    let note ← cappedStr 0 dropRequestNoteMax "drop-request.note must be at most 256 bytes"
    pure { fields with note := some note }
  else skipField fields

def decodeDropRequest : Decoder DropRequest :=
  decodeBody "drop-request body must be a definite-length map" ⟨none, none, none⟩
    dropRequestField fun fields => do
      let scope ← required TypeValue.dropRequest 1 fields.scope
      if scope = 1 ∧ fields.targets.isNone then
        throw (malformed "drop-request.targets is required when scope == 1 (R-39)")
      else if scope = 0 ∧ fields.targets.isSome then
        throw (malformed "drop-request.targets must be absent when scope == 0 (R-39)")
      else pure { scope, targets := fields.targets, note := fields.note }

/-! ## Any body -/

/-- The type a body map announces at its first key. -/
def decodeTypeValue : Decoder UInt64 := do
  match ← map with
  | none => throw (malformed "body must be a definite-length CBOR map")
  | some _ =>
      let key0 ← u64
      if key0 ≠ 0 then throw (malformed "body map's first key must be 0 (the type)")
      else u64

/-- The decoder of a known type. -/
def decodeKnown (typeValue : UInt64) : Option (Decoder Body) :=
  if typeValue = TypeValue.message then some (Body.message <$> decodeMessage)
  else if typeValue = TypeValue.reaction then some (Body.reaction <$> decodeReaction)
  else if typeValue = TypeValue.attachment then some (Body.attachment <$> decodeAttachment)
  else if typeValue = TypeValue.join then some (Body.join <$> decodeJoin)
  else if typeValue = TypeValue.leave then some (Body.leave <$> decodeLeave)
  else if typeValue = TypeValue.deviceAdd then some (Body.deviceAdd <$> decodeDeviceAdd)
  else if typeValue = TypeValue.deviceRevoke then
    some (Body.deviceRevoke <$> decodeDeviceRevoke)
  else if typeValue = TypeValue.dropRequest then some (Body.dropRequest <$> decodeDropRequest)
  else none

/-- `Body::from_cbor`. -/
def Body.fromCbor (input : Bytes) : Except DecodeError Body :=
  match decodeTypeValue input with
  | .error reason => .error reason
  | .ok (typeValue, _) =>
    match decodeKnown typeValue with
    | none => .ok (.unknown typeValue input)
    | some decoder =>
      match decoder input with
      | .error reason => .error reason
      | .ok (body, _) =>
        if body.toCbor ≠ input then
          .error (malformed
            "known body type is not the canonical deterministic CBOR encoding (R-10)")
        else .ok body

/-- A body of a known type was read by the decoder of a type. -/
theorem decodeKnown_of_fromCbor {input : Bytes} {body : Body}
    (decoded : Body.fromCbor input = .ok body) :
    (∃ typeValue, body = .unknown typeValue input) ∨
      ∃ typeValue decoder rest,
        decodeKnown typeValue = some decoder ∧ decoder input = .ok (body, rest) := by
  unfold Body.fromCbor at decoded
  split at decoded
  · cases decoded
  · next typeValue _ _ =>
    split at decoded
    · cases decoded
      exact Or.inl ⟨typeValue, rfl⟩
    · next decoder known =>
      split at decoded
      · cases decoded
      · next body rest read =>
        split_ifs at decoded with noncanonical
        cases decoded
        exact Or.inr ⟨typeValue, decoder, rest, known, read⟩

end Mosschat.Core
