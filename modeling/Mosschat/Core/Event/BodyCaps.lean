import Mosschat.Core.Event.Body

/-!
Owns the caps and rules of the eight known types as one condition, and that no
decoder answers with a body that breaks them.

Does not own the encodings: which bytes decode to a body is the codec's.
-/

namespace Mosschat.Core

open Mosschat.Library.Cbor

/-! ## The caps and rules of each type -/

/-- R-17. -/
structure Message.Admissible (message : Message) : Prop where
  text : 1 ≤ utf8Len message.text ∧ utf8Len message.text ≤ messageTextMax

/-- R-20. -/
structure Reaction.Admissible (reaction : Reaction) : Prop where
  symbol : 1 ≤ utf8Len reaction.symbol ∧ utf8Len reaction.symbol ≤ reactionSymbolMax

/-- R-22, of a file name: no NUL, slash or backslash, and no name of a directory. -/
structure AdmissibleName (name : String) : Prop where
  length : 1 ≤ utf8Len name ∧ utf8Len name ≤ attachmentNameMax
  noNul : Char.ofNat 0 ∉ name.toList
  noSlash : Char.ofNat 47 ∉ name.toList
  noBackslash : Char.ofNat 92 ∉ name.toList
  noDirectory : name ≠ "." ∧ name ≠ ".."

structure Attachment.Admissible (attachment : Attachment) : Prop where
  size : attachment.size ≤ attachmentSizeMax
  name : AdmissibleName attachment.name
  mediaType : ∀ mediaType, attachment.mediaType = some mediaType →
    utf8Len mediaType ≤ attachmentMediaTypeMax

/-- R-26. -/
structure Join.Admissible (join : Join) : Prop where
  count : 1 ≤ join.devices.length ∧ join.devices.length ≤ joinDevicesMax
  distinct : join.devices.Nodup
  person : join.person ∈ join.devices
  name : ∀ name, join.name = some name → utf8Len name ≤ joinNameMax

structure Leave.Admissible (leave : Leave) : Prop where
  reason : leave.reason ≤ 3

/-- R-31. -/
structure DeviceAdd.Admissible (deviceAdd : DeviceAdd) : Prop where
  window : deviceAdd.notBeforeMs < deviceAdd.notAfterMs
  label : ∀ label, deviceAdd.label = some label → utf8Len label ≤ deviceAddLabelMax

/-- R-39. -/
structure DropRequest.Admissible (dropRequest : DropRequest) : Prop where
  scope : dropRequest.scope ≤ 1
  targets : dropRequest.targets.isSome ↔ dropRequest.scope = 1
  count : ∀ targets, dropRequest.targets = some targets →
    1 ≤ targets.length ∧ targets.length ≤ dropRequestTargetsMax
  note : ∀ note, dropRequest.note = some note → utf8Len note ≤ dropRequestNoteMax

namespace Body

def Known : Body → Prop
  | .unknown _ _ => False
  | _ => True

/-- A body of a known type that meets the caps and rules of its type. A
`device-revoke` has none beyond the types of its fields. -/
def Admissible : Body → Prop
  | .message body => body.Admissible
  | .reaction body => body.Admissible
  | .attachment body => body.Admissible
  | .join body => body.Admissible
  | .leave body => body.Admissible
  | .deviceAdd body => body.Admissible
  | .deviceRevoke _ => True
  | .dropRequest body => body.Admissible
  | .unknown _ _ => False

end Body

/-! ## What each decoder can answer -/

section Answers

variable {σ α : Type} {field : UInt64 → σ → Decoder σ} {invariant : σ → Prop}

/-- What the reading of one field keeps, the loop over all of them keeps. -/
theorem yields_decodeEntries {entries : Nat} {lastKey : Option UInt64} {fields : σ}
    (keeps : ∀ key fields, invariant fields → Yields (field key fields) invariant)
    (initial : invariant fields) : Yields (decodeEntries field entries lastKey fields) invariant := by
  induction entries generalizing lastKey fields with
  | zero => exact Yields.pure initial
  | succ entries ih =>
    refine (Yields.any (nextKey lastKey)).bind fun key _ => ?_
    refine (keeps key fields initial).bind fun next kept => ?_
    exact ih kept

theorem yields_decodeBody (invariant : σ → Prop) {indefinite : String} {empty : σ} {finish : σ → Decoder α}
    {property : α → Prop} (initial : invariant empty)
    (keeps : ∀ key fields, invariant fields → Yields (field key fields) invariant)
    (ends : ∀ fields, invariant fields → Yields (finish fields) property) :
    Yields (decodeBody indefinite empty field finish) property := by
  refine (Yields.any map).bind fun head _ => ?_
  cases head with
  | none => exact Yields.throw
  | some entries => exact (yields_decodeEntries keeps initial).bind ends

theorem yields_required {typeValue key : UInt64} (option : Option α) :
    Yields (required typeValue key option) fun value => option = some value := by
  cases option with
  | none => exact Yields.throw
  | some value => exact Yields.pure rfl

theorem yields_skipField {fields : σ} (held : invariant fields) :
    Yields (skipField fields) invariant :=
  (Yields.any skip).bind fun _ _ => Yields.pure held

theorem yields_cappedStr (least most : Nat) (refusal : String) :
    Yields (cappedStr least most refusal) fun text =>
      least ≤ utf8Len text ∧ utf8Len text ≤ most := by
  refine (Yields.any str).bind fun text _ => Yields.refuse fun within => Yields.pure ?_
  omega

theorem yields_read32s (count : Nat) : Yields (read32s count) fun values => values.length = count := by
  induction count with
  | zero => exact Yields.pure rfl
  | succ count ih =>
    refine (Yields.any read32).bind fun first _ => ?_
    refine ih.bind fun others length => Yields.pure ?_
    rw [List.length_cons, length]

theorem yields_keyArray (most : Nat) (indefinite wrongCount : String) :
    Yields (keyArray most indefinite wrongCount) fun values =>
      1 ≤ values.length ∧ values.length ≤ most := by
  refine (Yields.any array).bind fun head _ => ?_
  cases head with
  | none => exact Yields.throw
  | some len =>
    refine Yields.refuse fun within values => ?_
    intro value rest read
    have length := yields_read32s len values value rest read
    omega

end Answers

/-! The condition on the fields read so far, for each type whose values are capped. -/

def MessageFields.Admissible (fields : MessageFields) : Prop :=
  ∀ text, fields.text = some text → 1 ≤ utf8Len text ∧ utf8Len text ≤ messageTextMax

theorem yields_messageField (key : UInt64) (fields : MessageFields)
    (held : fields.Admissible) : Yields (messageField key fields) MessageFields.Admissible := by
  unfold messageField
  refine Yields.ite (fun _ => ?_) fun _ => Yields.ite (fun _ => ?_) fun _ =>
    Yields.ite (fun _ => ?_) fun _ => yields_skipField held
  · exact (Yields.any _).bind fun _ _ => Yields.pure held
  · refine (yields_cappedStr _ _ _).bind fun text within => Yields.pure ?_
    rintro _ ⟨⟩
    exact within
  · exact (Yields.any _).bind fun _ _ => Yields.pure held

theorem yields_decodeMessage : Yields decodeMessage Message.Admissible := by
  refine yields_decodeBody MessageFields.Admissible nofun yields_messageField fun fields held => ?_
  refine (yields_required _).bind fun text found => Yields.pure ?_
  exact ⟨held text found⟩

def ReactionFields.Admissible (fields : ReactionFields) : Prop :=
  ∀ symbol, fields.symbol = some symbol → 1 ≤ utf8Len symbol ∧ utf8Len symbol ≤ reactionSymbolMax

theorem yields_reactionField (key : UInt64) (fields : ReactionFields)
    (held : fields.Admissible) : Yields (reactionField key fields) ReactionFields.Admissible := by
  unfold reactionField
  refine Yields.ite (fun _ => ?_) fun _ => Yields.ite (fun _ => ?_) fun _ =>
    Yields.ite (fun _ => ?_) fun _ => Yields.ite (fun _ => ?_) fun _ => yields_skipField held
  · exact (Yields.any _).bind fun _ _ => Yields.pure held
  · exact (Yields.any _).bind fun _ _ => Yields.pure held
  · refine (yields_cappedStr _ _ _).bind fun symbol within => Yields.pure ?_
    rintro _ ⟨⟩
    exact within
  · refine (Yields.any bool).bind fun remove _ => Yields.ite (fun _ => ?_) fun _ => Yields.throw
    exact Yields.pure held

theorem yields_decodeReaction : Yields decodeReaction Reaction.Admissible := by
  refine yields_decodeBody ReactionFields.Admissible nofun yields_reactionField fun fields held => ?_
  refine (Yields.any _).bind fun target _ => ?_
  refine (yields_required _).bind fun symbol found => Yields.pure ?_
  exact ⟨held symbol found⟩

structure AttachmentFields.Admissible (fields : AttachmentFields) : Prop where
  size : ∀ size, fields.size = some size → size ≤ attachmentSizeMax
  name : ∀ name, fields.name = some name → AdmissibleName name
  mediaType : ∀ mediaType, fields.mediaType = some mediaType →
    utf8Len mediaType ≤ attachmentMediaTypeMax

theorem yields_validateAttachmentName (name : String) :
    Yields (validateAttachmentName name) fun _ => AdmissibleName name := by
  refine Yields.refuse fun length => Yields.refuse fun characters => Yields.refuse fun directory =>
    Yields.pure ?_
  obtain ⟨noNul, noSlash, noBackslash⟩ : _ ∧ _ ∧ _ :=
    ⟨fun held => characters (Or.inl held), fun held => characters (Or.inr (Or.inl held)),
      fun held => characters (Or.inr (Or.inr held))⟩
  exact ⟨by omega, noNul, noSlash, noBackslash, not_or.mp directory⟩

theorem yields_attachmentField (key : UInt64) (fields : AttachmentFields)
    (held : fields.Admissible) :
    Yields (attachmentField key fields) AttachmentFields.Admissible := by
  unfold attachmentField
  refine Yields.ite (fun _ => ?_) fun _ => Yields.ite (fun _ => ?_) fun _ =>
    Yields.ite (fun _ => ?_) fun _ => Yields.ite (fun _ => ?_) fun _ =>
      Yields.ite (fun _ => ?_) fun _ => yields_skipField held
  · exact (Yields.any _).bind fun _ _ => Yields.pure held
  · exact (Yields.any _).bind fun _ _ => Yields.pure ⟨held.size, held.name, held.mediaType⟩
  · refine (Yields.any u64).bind fun size _ => Yields.refuse fun within => Yields.pure ?_
    refine ⟨?_, held.name, held.mediaType⟩
    rintro _ ⟨⟩
    exact UInt64.not_lt.mp within
  · refine (Yields.any str).bind fun name _ => ?_
    refine (yields_validateAttachmentName name).bind fun _ valid => Yields.pure ?_
    refine ⟨held.size, ?_, held.mediaType⟩
    rintro _ ⟨⟩
    exact valid
  · refine (yields_cappedStr _ _ _).bind fun mediaType within => Yields.pure ?_
    refine ⟨held.size, held.name, ?_⟩
    rintro _ ⟨⟩
    exact within.2

theorem yields_decodeAttachment : Yields decodeAttachment Attachment.Admissible := by
  refine yields_decodeBody AttachmentFields.Admissible ⟨nofun, nofun, nofun⟩ yields_attachmentField
    fun fields held => ?_
  refine (Yields.any _).bind fun hash _ => ?_
  refine (yields_required _).bind fun size foundSize => ?_
  refine (yields_required _).bind fun name foundName => Yields.pure ?_
  exact ⟨held.size size foundSize, held.name name foundName, held.mediaType⟩

structure JoinFields.Admissible (fields : JoinFields) : Prop where
  count : ∀ devices, fields.devices = some devices →
    1 ≤ devices.length ∧ devices.length ≤ joinDevicesMax
  name : ∀ name, fields.name = some name → utf8Len name ≤ joinNameMax

theorem yields_joinField (key : UInt64) (fields : JoinFields) (held : fields.Admissible) :
    Yields (joinField key fields) JoinFields.Admissible := by
  unfold joinField
  refine Yields.ite (fun _ => ?_) fun _ => Yields.ite (fun _ => ?_) fun _ =>
    Yields.ite (fun _ => ?_) fun _ => Yields.ite (fun _ => ?_) fun _ => yields_skipField held
  · exact (Yields.any _).bind fun _ _ => Yields.pure held
  · exact (Yields.any _).bind fun _ _ => Yields.pure ⟨held.count, held.name⟩
  · refine (yields_keyArray _ _ _).bind fun devices within => Yields.pure ?_
    refine ⟨?_, held.name⟩
    rintro _ ⟨⟩
    exact within
  · refine (yields_cappedStr _ _ _).bind fun name within => Yields.pure ?_
    refine ⟨held.count, ?_⟩
    rintro _ ⟨⟩
    exact within.2

theorem yields_decodeJoin : Yields decodeJoin Join.Admissible := by
  refine yields_decodeBody JoinFields.Admissible ⟨nofun, nofun⟩ yields_joinField
    fun fields held => ?_
  refine (Yields.any _).bind fun person _ => ?_
  refine (yields_required _).bind fun devices found => ?_
  refine Yields.refuse fun distinct => Yields.refuse fun listed => Yields.pure ?_
  exact ⟨held.count devices found, not_not.mp distinct, not_not.mp listed, held.name⟩

def LeaveFields.Admissible (fields : LeaveFields) : Prop :=
  ∀ reason, fields.reason = some reason → reason ≤ 3

theorem yields_leaveField (key : UInt64) (fields : LeaveFields) (held : fields.Admissible) :
    Yields (leaveField key fields) LeaveFields.Admissible := by
  unfold leaveField
  refine Yields.ite (fun _ => ?_) fun _ => Yields.ite (fun _ => ?_) fun _ =>
    Yields.ite (fun _ => ?_) fun _ => yields_skipField held
  · exact (Yields.any _).bind fun _ _ => Yields.pure held
  · exact (Yields.any _).bind fun _ _ => Yields.pure held
  · refine (Yields.any u64).bind fun reason _ => Yields.refuse fun within => Yields.pure ?_
    rintro _ ⟨⟩
    exact UInt64.not_lt.mp within

theorem yields_decodeLeave : Yields decodeLeave Leave.Admissible := by
  refine yields_decodeBody LeaveFields.Admissible nofun yields_leaveField fun fields held => ?_
  refine (Yields.any _).bind fun person _ => ?_
  refine (yields_required _).bind fun reason found => Yields.pure ?_
  exact ⟨held reason found⟩

def DeviceAddFields.Admissible (fields : DeviceAddFields) : Prop :=
  ∀ label, fields.label = some label → utf8Len label ≤ deviceAddLabelMax

theorem yields_deviceAddField (key : UInt64) (fields : DeviceAddFields)
    (held : fields.Admissible) : Yields (deviceAddField key fields) DeviceAddFields.Admissible := by
  unfold deviceAddField
  refine Yields.ite (fun _ => ?_) fun _ => Yields.ite (fun _ => ?_) fun _ =>
    Yields.ite (fun _ => ?_) fun _ => Yields.ite (fun _ => ?_) fun _ =>
      Yields.ite (fun _ => ?_) fun _ => yields_skipField held
  · exact (Yields.any _).bind fun _ _ => Yields.pure held
  · exact (Yields.any _).bind fun _ _ => Yields.pure held
  · exact (Yields.any _).bind fun _ _ => Yields.pure held
  · exact (Yields.any _).bind fun _ _ => Yields.pure held
  · refine (yields_cappedStr _ _ _).bind fun label within => Yields.pure ?_
    rintro _ ⟨⟩
    exact within.2

theorem yields_decodeDeviceAdd : Yields decodeDeviceAdd DeviceAdd.Admissible := by
  refine yields_decodeBody DeviceAddFields.Admissible nofun yields_deviceAddField
    fun fields held => ?_
  refine (Yields.any _).bind fun notBeforeMs _ => ?_
  refine (Yields.any _).bind fun notAfterMs _ => Yields.refuse fun window => ?_
  refine (Yields.any _).bind fun device _ => Yields.pure ?_
  exact ⟨UInt64.not_le.mp window, held⟩

structure DropRequestFields.Admissible (fields : DropRequestFields) : Prop where
  scope : ∀ scope, fields.scope = some scope → scope ≤ 1
  count : ∀ targets, fields.targets = some targets →
    1 ≤ targets.length ∧ targets.length ≤ dropRequestTargetsMax
  note : ∀ note, fields.note = some note → utf8Len note ≤ dropRequestNoteMax

theorem yields_dropRequestField (key : UInt64) (fields : DropRequestFields)
    (held : fields.Admissible) :
    Yields (dropRequestField key fields) DropRequestFields.Admissible := by
  unfold dropRequestField
  refine Yields.ite (fun _ => ?_) fun _ => Yields.ite (fun _ => ?_) fun _ =>
    Yields.ite (fun _ => ?_) fun _ => Yields.ite (fun _ => ?_) fun _ => yields_skipField held
  · exact (Yields.any _).bind fun _ _ => Yields.pure held
  · refine (Yields.any u64).bind fun scope _ => Yields.refuse fun within => Yields.pure ?_
    refine ⟨?_, held.count, held.note⟩
    rintro _ ⟨⟩
    exact UInt64.not_lt.mp within
  · refine (yields_keyArray _ _ _).bind fun targets within => Yields.pure ?_
    refine ⟨held.scope, ?_, held.note⟩
    rintro _ ⟨⟩
    exact within
  · refine (yields_cappedStr _ _ _).bind fun note within => Yields.pure ?_
    refine ⟨held.scope, held.count, ?_⟩
    rintro _ ⟨⟩
    exact within.2

theorem eq_zero_or_one_of_le {scope : UInt64} (atMost : scope ≤ 1) : scope = 0 ∨ scope = 1 := by
  have bound : scope.toNat ≤ 1 := atMost
  rcases Nat.le_one_iff_eq_zero_or_eq_one.mp bound with zero | one
  · exact Or.inl (UInt64.toNat_inj.mp zero)
  · exact Or.inr (UInt64.toNat_inj.mp one)

theorem yields_decodeDropRequest : Yields decodeDropRequest DropRequest.Admissible := by
  refine yields_decodeBody DropRequestFields.Admissible ⟨nofun, nofun, nofun⟩
    yields_dropRequestField fun fields held => ?_
  refine (yields_required _).bind fun scope found => ?_
  have range := held.scope scope found
  refine Yields.refuse fun missing => Yields.refuse fun surplus => Yields.pure ?_
  refine ⟨range, ?_, held.count, held.note⟩
  constructor
  · intro named
    rcases eq_zero_or_one_of_le range with zero | one
    · exact absurd ⟨zero, named⟩ surplus
    · exact one
  · intro one
    cases given : fields.targets with
    | none => exact absurd ⟨one, by rw [given]; rfl⟩ missing
    | some targets => rfl

/-! ## Any known body -/

namespace Body

/-- The decoder of a known type answers with a body of a known type that meets its rules. -/
theorem yields_decodeKnown {typeValue : UInt64} {decoder : Decoder Body}
    (isDecoder : decodeKnown typeValue = some decoder) : Yields decoder Admissible := by
  unfold decodeKnown at isDecoder
  split_ifs at isDecoder
  all_goals cases isDecoder
  · exact Yields.map yields_decodeMessage
  · exact Yields.map yields_decodeReaction
  · exact Yields.map yields_decodeAttachment
  · exact Yields.map yields_decodeJoin
  · exact Yields.map yields_decodeLeave
  · exact Yields.map yields_decodeDeviceAdd
  · exact Yields.map (Yields.any _)
  · exact Yields.map yields_decodeDropRequest

theorem admissible_of_fromCbor {input : Bytes} {body : Body}
    (decoded : Body.fromCbor input = .ok body) (known : body.Known) : body.Admissible := by
  rcases decodeKnown_of_fromCbor decoded with ⟨_, rfl⟩ | ⟨_, decoder, rest, isDecoder, read⟩
  · exact known.elim
  · exact yields_decodeKnown isDecoder input body rest read

end Body

theorem join_of_fromCbor {input : Bytes} {join : Join}
    (decoded : Body.fromCbor input = .ok (.join join)) :
    join.devices.Nodup ∧ join.person ∈ join.devices := by
  have admissible : join.Admissible := Body.admissible_of_fromCbor decoded trivial
  exact ⟨admissible.distinct, admissible.person⟩

/-- R-39: a drop-request that is not for the whole recording names a target. -/
theorem dropRequest_of_fromCbor {input : Bytes} {dropRequest : DropRequest}
    (decoded : Body.fromCbor input = .ok (.dropRequest dropRequest))
    (partly : dropRequest.scope ≠ 0) :
    ∃ targets, dropRequest.targets = some targets ∧ targets ≠ [] := by
  have admissible : dropRequest.Admissible := Body.admissible_of_fromCbor decoded trivial
  have isOne := (eq_zero_or_one_of_le admissible.scope).resolve_left partly
  obtain ⟨targets, named⟩ := Option.isSome_iff_exists.mp (admissible.targets.mpr isOne)
  have count := admissible.count targets named
  exact ⟨targets, named, List.ne_nil_of_length_pos count.1⟩

end Mosschat.Core
