import Mosschat.Net.Doorbell
import Mosschat.Net.Gate.FrameCodec

/-!
Owns the CBOR form of a porch frame, from `punch.rs`: the encoder and the decoder of each
kind, that the decoder inverts the encoder within the cap on addresses, and which byte
strings it accepts: a frame, and whatever follows it.

Does not own the length prefix a porch frame travels behind.
-/

namespace Mosschat.Net

open Mosschat.Core Mosschat.Library.Cbor Mosschat.Net.Gate

/-- `MAX_CANDIDATES`. -/
def maxCandidates : Nat := 16

def tCandidates : Nat := 16
def tPathUp : Nat := 17
def tPathDown : Nat := 18
def tPorchGoodbye : Nat := 19

/-- `read_16`. -/
def read16 : Decoder Bytes16 := do
  let slice ← bytes
  if width : slice.length = 16 then pure ⟨slice, width⟩
  else throw (.message "expected a 16 byte string")

/-- The loop that reads the addresses of a `Candidates` frame. -/
def readAddrs : Nat → Decoder (List Addr)
  | 0 => pure []
  | count + 1 => do
    let first ← Addr.decode
    let others ← readAddrs count
    pure (first :: others)

namespace PorchFrame

/-- `PorchFrame::to_cbor`. -/
def toCbor : PorchFrame → Bytes
  | .candidates v attempt addrs probeHalf noUpgrade =>
    Frame.encodeFront 6 tCandidates v
      (encodeBytes attempt.toList ++
        (encodeHead majorArray addrs.length ++
          (addrs.flatMap Addr.encode ++ (encodeBytes probeHalf.toList ++ encodeBool noUpgrade))))
  | .pathUp v attempt addr rttUs =>
    Frame.encodeFront 5 tPathUp v
      (encodeBytes attempt.toList ++ (addr.encode ++ encodeUnsigned rttUs.toNat))
  | .pathDown v attempt addr reason =>
    Frame.encodeFront 5 tPathDown v
      (encodeBytes attempt.toList ++ (addr.encode ++ encodeUnsigned reason.toNat))
  | .goodbye v reason => Frame.encodeFront 3 tPorchGoodbye v (encodeUnsigned reason.toNat)

/-- The fields of a `Candidates` frame. -/
def readCandidates : Decoder PorchFrame := do
  let v ← u8
  let attempt ← read16
  match ← array with
  | none => throw (.message "Candidates.addrs must be a definite-length array")
  | some count =>
    -- the cap is checked on the count the head declares, before any address is read
    if maxCandidates < count then throw (.message "Candidates.addrs exceeds its cap")
    else
      let addrs ← readAddrs count
      let probeHalf ← read32
      let noUpgrade ← bool
      pure (.candidates v attempt addrs probeHalf noUpgrade)

/-- The fields of a frame of this type in an array of this length. -/
def readFields (frameType length : Nat) : Decoder PorchFrame :=
  match frameType, length with
  | 16, 6 => readCandidates
  | 17, 5 => do
    let v ← u8
    let attempt ← read16
    let addr ← Addr.decode
    let rttUs ← u32
    pure (.pathUp v attempt addr rttUs)
  | 18, 5 => do
    let v ← u8
    let attempt ← read16
    let addr ← Addr.decode
    let reason ← u8
    pure (.pathDown v attempt addr reason)
  | 19, 3 => do
    let v ← u8
    let reason ← u8
    pure (.goodbye v reason)
  | _, _ => throw (.message "unknown or mis-sized porch frame")

/-- The reads of `PorchFrame::from_cbor`. -/
def readFrame : Decoder PorchFrame := do
  match ← array with
  | none => throw (.message "porch frame must be a definite-length array")
  | some length =>
    let frameType ← u8
    readFields frameType.toNat length

/-- `PorchFrame::from_cbor`: what the reads leave of the input is not looked at. -/
def fromCbor (input : Bytes) : Except DecodeError PorchFrame :=
  match readFrame input with
  | .error reason => .error reason
  | .ok (frame, _) => .ok frame

/-- The addresses a frame lists, which only a `Candidates` frame does. -/
def addrs : PorchFrame → List Addr
  | .candidates _ _ addrs _ _ => addrs
  | _ => []

/-- The frame lists no more addresses than the cap. -/
def Capped (frame : PorchFrame) : Prop :=
  frame.addrs.length ≤ maxCandidates

end PorchFrame

/-! ## The frames are read back -/

theorem reads_read16 (value : Bytes16) : Reads read16 (encodeBytes value.toList) value := by
  have width : value.toList.length = 16 := value.toList_length
  refine (reads_bytes (by omega)).bind_pure ?_
  rw [dif_pos width]
  exact Reads.pure value

theorem reads_readAddrs (addrs : List Addr) :
    Reads (readAddrs addrs.length) (addrs.flatMap Addr.encode) addrs := by
  induction addrs with
  | nil => exact Reads.pure []
  | cons first others ih =>
      show Reads (readAddrs (others.length + 1))
        (first.encode ++ others.flatMap Addr.encode) (first :: others)
      refine first.reads_decode.bind ?_
      exact ih.bind_pure (Reads.pure _)

theorem local_read16 : Local read16 := by
  refine local_bytes.bind fun slice => ?_
  split
  · exact Local.pure _
  · exact Local.throw _

theorem local_readAddrs (count : Nat) : Local (readAddrs count) := by
  induction count with
  | zero => exact Local.pure []
  | succ count ih =>
      refine Addr.local_decode.bind fun first => ?_
      exact ih.bind fun others => Local.pure _

theorem yields_readAddrs (count : Nat) :
    Yields (readAddrs count) fun addrs => addrs.length = count := by
  induction count with
  | zero => exact Yields.pure rfl
  | succ count ih =>
      refine (Yields.any Addr.decode).bind fun first _ => ?_
      refine ih.bind fun others isCount => ?_
      apply Yields.pure
      rw [List.length_cons, isCount]

namespace PorchFrame

/-- The front of a porch frame is read before its fields. -/
theorem reads_front {length frameType : Nat} {v : UInt8} {back : Bytes} {frame : PorchFrame}
    (lengthSmall : length < 2 ^ 64) (typeSmall : frameType < 2 ^ 8)
    (reads : Reads (readFields frameType length) (encodeUnsigned v.toNat ++ back) frame) :
    Reads readFrame (Frame.encodeFront length frameType v back) frame := by
  refine (reads_lengthHead (by decide) lengthSmall).bind ?_
  have isType : (UInt8.ofNat frameType).toNat = frameType := by
    rw [UInt8.toNat_ofNat', Nat.mod_eq_of_lt typeSmall]
  have readsType := reads_u8 (UInt8.ofNat frameType)
  rw [isType] at readsType
  refine readsType.bind ?_
  rw [isType]
  exact reads

/-- Every frame within the cap is read back from its encoding. -/
theorem reads_readFrame {frame : PorchFrame} (capped : frame.Capped) :
    Reads readFrame frame.toCbor frame := by
  cases frame with
  | candidates v attempt addrs probeHalf noUpgrade =>
      have within : addrs.length ≤ maxCandidates := capped
      have cap : maxCandidates = 16 := rfl
      refine reads_front (by decide) (by decide) ?_
      show Reads readCandidates _ _
      refine (reads_u8 v).bind ?_
      refine (reads_read16 attempt).bind ?_
      refine (reads_lengthHead (by decide) (by omega)).bind ?_
      refine Reads.refuse (Nat.not_lt.mpr within) ?_
      refine (reads_readAddrs addrs).bind ?_
      refine (Envelope.reads_read32 probeHalf).bind ?_
      exact (reads_bool noUpgrade).bind_pure (Reads.pure _)
  | pathUp v attempt addr rttUs =>
      refine reads_front (by decide) (by decide) ?_
      refine (reads_u8 v).bind ?_
      refine (reads_read16 attempt).bind ?_
      refine addr.reads_decode.bind ?_
      exact (reads_u32 rttUs).bind_pure (Reads.pure _)
  | pathDown v attempt addr reason =>
      refine reads_front (by decide) (by decide) ?_
      refine (reads_u8 v).bind ?_
      refine (reads_read16 attempt).bind ?_
      refine addr.reads_decode.bind ?_
      exact (reads_u8 reason).bind_pure (Reads.pure _)
  | goodbye v reason =>
      refine reads_front (by decide) (by decide) ?_
      refine (reads_u8 v).bind ?_
      exact (reads_u8 reason).bind_pure (Reads.pure _)

theorem fromCbor_toCbor {frame : PorchFrame} (capped : frame.Capped) :
    fromCbor frame.toCbor = .ok frame := by
  have reads := reads_readFrame capped []
  rw [List.append_nil] at reads
  rw [fromCbor, reads]

/-! ## What is accepted -/

theorem local_readCandidates : Local readCandidates := by
  refine local_u8.bind fun v => local_read16.bind fun attempt => local_array.bind fun count => ?_
  cases count with
  | none => exact Local.throw _
  | some count =>
      apply Local.ite
      · exact Local.throw _
      · exact (local_readAddrs count).bind fun addrs => local_read32.bind fun probeHalf =>
          local_bool.bind fun noUpgrade => Local.pure _

theorem local_readFields (frameType length : Nat) : Local (readFields frameType length) := by
  unfold readFields
  split
  · exact local_readCandidates
  · exact local_u8.bind fun _ => local_read16.bind fun _ => Addr.local_decode.bind fun _ =>
      local_u32.bind fun _ => Local.pure _
  · exact local_u8.bind fun _ => local_read16.bind fun _ => Addr.local_decode.bind fun _ =>
      local_u8.bind fun _ => Local.pure _
  · exact local_u8.bind fun _ => local_u8.bind fun _ => Local.pure _
  · exact Local.throw _

theorem local_readFrame : Local readFrame := by
  refine local_array.bind fun length => ?_
  cases length with
  | none => exact Local.throw _
  | some length => exact local_u8.bind fun frameType => local_readFields _ length

theorem yields_readCandidates : Yields readCandidates Capped := by
  refine Yields.after fun v => Yields.after fun attempt => Yields.after fun count => ?_
  cases count with
  | none => exact Yields.throw
  | some count =>
      refine Yields.refuse fun within => ?_
      refine (yields_readAddrs count).bind fun addrs isCount => ?_
      refine Yields.after fun probeHalf => Yields.after fun noUpgrade => ?_
      apply Yields.pure
      show addrs.length ≤ maxCandidates
      rw [isCount]
      exact Nat.le_of_not_lt within

theorem yields_readFields (frameType length : Nat) :
    Yields (readFields frameType length) Capped := by
  have none : ∀ {frame : PorchFrame}, frame.addrs = [] → Yields (pure frame) Capped := by
    intro frame isNone
    apply Yields.pure
    rw [Capped, isNone]
    exact Nat.zero_le _
  unfold readFields
  split
  · exact yields_readCandidates
  · exact Yields.after fun _ => Yields.after fun _ => Yields.after fun _ => Yields.after fun _ =>
      none rfl
  · exact Yields.after fun _ => Yields.after fun _ => Yields.after fun _ => Yields.after fun _ =>
      none rfl
  · exact Yields.after fun _ => Yields.after fun _ => none rfl
  · exact Yields.throw

theorem yields_readFrame : Yields readFrame Capped := by
  refine Yields.after fun length => ?_
  cases length with
  | none => exact Yields.throw
  | some length => exact Yields.after fun frameType => yields_readFields _ length

theorem readFrame_of_fromCbor {input : Bytes} {frame : PorchFrame}
    (decoded : fromCbor input = .ok frame) : ∃ rest, readFrame input = .ok (frame, rest) := by
  unfold fromCbor at decoded
  split at decoded
  · cases decoded
  · next rest read =>
      cases decoded
      exact ⟨rest, read⟩

theorem fromCbor_of_readFrame {input rest : Bytes} {frame : PorchFrame}
    (read : readFrame input = .ok (frame, rest)) : fromCbor input = .ok frame := by
  rw [fromCbor, read]

/-- An accepted byte string is a front that decodes to the same frame whatever follows it,
and that has no frame as a proper prefix. -/
theorem front_of_fromCbor {input : Bytes} {frame : PorchFrame}
    (decoded : fromCbor input = .ok frame) :
    ∃ front tail, input = front ++ tail ∧ (∀ more, fromCbor (front ++ more) = .ok frame) ∧
      ∀ shorter other, shorter <+: front → fromCbor shorter = .ok other → shorter = front := by
  obtain ⟨tail, read⟩ := readFrame_of_fromCbor decoded
  obtain ⟨front, isInput, reads⟩ := local_readFrame input frame tail read
  refine ⟨front, tail, isInput, fun more => fromCbor_of_readFrame (reads more), ?_⟩
  intro shorter other isPrefix shorterDecoded
  obtain ⟨missing, isFront⟩ := isPrefix
  obtain ⟨rest, shorterRead⟩ := readFrame_of_fromCbor shorterDecoded
  obtain ⟨begins, isShorter, beginsReads⟩ := local_readFrame shorter other rest shorterRead
  -- both read off the same input, so they leave the same of it
  have whole := reads []
  rw [List.append_nil, ← isFront, isShorter, List.append_assoc, beginsReads] at whole
  have left : rest ++ missing = [] := congrArg Prod.snd (Except.ok.inj whole)
  have noneMissing : missing = [] := (List.append_eq_nil_iff.mp left).2
  rw [← isFront, noneMissing, List.append_nil]

/-- Nothing that follows a frame is refused. -/
theorem fromCbor_append {input : Bytes} {frame : PorchFrame}
    (decoded : fromCbor input = .ok frame) (tail : Bytes) :
    fromCbor (input ++ tail) = .ok frame := by
  obtain ⟨front, rest, isInput, reads, _⟩ := front_of_fromCbor decoded
  rw [isInput, List.append_assoc]
  exact reads (rest ++ tail)

/-! ## The porch codec -/

/-- A frame within the cap is read back from its encoding, and every accepted byte string is
a frame within it. What follows a frame is refused never: an accepted byte string is a front
and a tail the decoder does not look at, and only among the fronts is none a proper prefix of
another. -/
theorem porch_codec_iff (input tail : Bytes) :
    (∀ frame : PorchFrame, frame.addrs.length ≤ maxCandidates →
      fromCbor frame.toCbor = .ok frame) ∧
    ∀ frame, fromCbor input = .ok frame →
      frame.addrs.length ≤ maxCandidates ∧
      (((∃ other, fromCbor (input ++ tail) = .ok other) → tail = []) ↔ tail = []) ∧
      ∃ front rest, input = front ++ rest ∧ (∀ more, fromCbor (front ++ more) = .ok frame) ∧
        ∀ shorter other, shorter <+: front → fromCbor shorter = .ok other → shorter = front := by
  refine ⟨fun _ capped => fromCbor_toCbor capped, ?_⟩
  intro frame decoded
  refine ⟨?_, ?_, front_of_fromCbor decoded⟩
  · obtain ⟨rest, read⟩ := readFrame_of_fromCbor decoded
    exact yields_readFrame input frame rest read
  · constructor
    · intro refused
      exact refused ⟨frame, fromCbor_append decoded tail⟩
    · intro noTail accepted
      exact noTail

/-- A goodbye with a byte after it is accepted, as the goodbye alone is. -/
theorem trailing_byte_accepted :
    ∃ input longer, fromCbor input = .ok (.goodbye 1 0) ∧ fromCbor longer = .ok (.goodbye 1 0) ∧
      input <+: longer ∧ input ≠ longer := by
  refine ⟨toCbor (.goodbye 1 0), toCbor (.goodbye 1 0) ++ [0], ?_⟩
  decide

end PorchFrame

end Mosschat.Net
