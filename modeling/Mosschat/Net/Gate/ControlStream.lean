import Mosschat.Library.Machine
import Mosschat.Net.Gate.FrameCodec
import Mosschat.Net.Gate.Seal

/-!
Owns the control stream between a house and the gate: the frames a house writes after
its registration, `wire::write_frame`, and `wire::read_frame` under the deadline of
`control_loop`, one byte at a time.

Does not own what an arm of `control_loop` does with a frame, nor the frame rate that may
set one aside.
-/

namespace Mosschat.Net.Gate

open Mosschat.Core Mosschat.Library Mosschat.Library.Cbor

/-! ## What a house writes -/

/-- What `seal::seal` makes of a body. The cipher keeps the length of what it seals and
adds its tag of 16 bytes. -/
structure Sealed where
  body : SealedBody
  ephPub : Bytes32
  ciphertext : Bytes
  length_eq : ciphertext.length = (Seal.encodeBody body).length + 16

namespace Sealed

def toBytes (sealing : Sealed) : Bytes := sealing.ephPub.toList ++ sealing.ciphertext

theorem encodeInvite_length (invite : Option InviteProof) :
    (Seal.encodeInvite invite).length ≤ 102 := by
  cases invite with
  | none => exact Nat.zero_le _
  | some invite =>
      have idLength : invite.id.toList.length ≤ 17 := by
        rw [invite.id.toList_length]
        decide
      have id : (encodeBytes invite.id.toList).length ≤ 17 + 17 :=
        (Frame.encodeBytes_length_le idLength).trans (by decide)
      have secret := Frame.encodeBytes32_length_le invite.secret
      have bind := Frame.encodeBytes32_length_le invite.bind
      rw [Seal.encodeInvite, List.length_append, List.length_append]
      omega

theorem encodeBody_length (body : SealedBody) : (Seal.encodeBody body).length ≤ 160 := by
  have elements : headLength (if body.invite.isSome then 6 else 3) ≤ 1 := by
    split <;> decide
  have version : headLength 1 = 1 := rfl
  have fromKey := Frame.encodeBytes32_length_le body.fromKey
  have sentMs : headLength body.sentMs.toNat ≤ 9 := headLength_le _
  have invite := encodeInvite_length body.invite
  simp only [Seal.encodeBody, List.length_append, encodeHead_length, Frame.encodeUnsigned_length]
  omega

theorem toBytes_length (sealing : Sealed) : sealing.toBytes.length ≤ sealedCap := by
  have sealedBody := encodeBody_length sealing.body
  have ephPub := sealing.ephPub.toList_length
  have ciphertext := sealing.length_eq
  rw [toBytes, List.length_append]
  show _ ≤ 512
  omega

end Sealed

/-- A frame that `GateClient` writes on its control stream once it is registered. -/
inductive HouseFrame where
  | keepalive
  | introduce (tag : Bytes32) (ttlS : UInt16) (sealing : Sealed)
  | knockAnswer (tag : Bytes32)
  | startRequest (session : UInt32)
  | goodbye (reason : UInt8)

namespace HouseFrame

def toFrame : HouseFrame → Frame
  | .keepalive => .keepalive 1
  | .introduce tag ttlS sealing => .introduce 1 tag ttlS sealing.toBytes
  | .knockAnswer tag => .knockAnswer 1 tag true
  | .startRequest session => .startRequest 1 session
  | .goodbye reason => .goodbye 1 reason

theorem toFrame_capped (frame : HouseFrame) : frame.toFrame.Capped := by
  cases frame with
  | introduce tag ttlS sealing => exact sealing.toBytes_length
  | keepalive => trivial
  | knockAnswer tag => trivial
  | startRequest session => trivial
  | goodbye reason => trivial

end HouseFrame

/-- `write_frame`: the length and the body. -/
def writeFrame (frame : Frame) : Bytes := beBytes 4 frame.toCbor.length ++ frame.toCbor

/-- Every byte of the frames, in the order they were written. -/
def written (frames : List Frame) : Bytes := frames.flatMap writeFrame

/-! ## The reader -/

/-- `Duration::from_secs(120)`, in milliseconds. -/
def controlReadDeadline : Nat := 120000

/-- Where `control_loop` stands in its read. -/
inductive ReadStage where
  /-- In the `read_exact` of `len_buf`. -/
  | length (lenBuf : Bytes)
  /-- In the `read_exact` of `body`. -/
  | body (lenBuf body : Bytes)
  /-- The loop returned, and these bytes belong to no frame it handled. -/
  | returned (taken : Bytes)
deriving DecidableEq

namespace ReadStage

/-- The bytes that were read of the frame at hand. -/
def taken : ReadStage → Bytes
  | .length lenBuf => lenBuf
  | .body lenBuf got => lenBuf ++ got
  | .returned taken => taken

end ReadStage

/-- The stream as the gate reads it, and the loop over it. -/
structure ControlStream where
  /-- The bytes that were written and not read. -/
  unread : Bytes
  stage : ReadStage
  /-- When the read at hand was begun. -/
  readSince : Nat
  /-- The frames `read_frame` gave the loop. -/
  handled : List Frame
deriving DecidableEq

/-- What the reader meets. -/
inductive StreamEvent where
  /-- A byte arrives. `charged` is what the frame rate says of the frame it ends. -/
  | arrives (now : Nat) (charged : Bool)
  /-- The timeout of the read is polled. -/
  | expires (now : Nat)
  /-- The stream fails. -/
  | closes

namespace ControlStream

/-- The loop at its first read. -/
def start (frames : List Frame) (now : Nat) : ControlStream where
  unread := written frames
  stage := .length []
  readSince := now
  handled := []

/-- The arm of `control_loop` that takes the frame goes on to the next read. -/
def goesOn : Frame → Bool
  | .keepalive _ | .introduce .. | .knockAnswer .. | .startRequest .. => true
  | _ => false

/-- `control_loop` from a frame it was given to its next read. A frame over the frame
rate is set aside before its arm is looked for. -/
def handle (stream : ControlStream) (frame : Frame) (now : Nat) (charged : Bool) :
    ControlStream :=
  { stream with
    stage := if charged && !goesOn frame then .returned [] else .length []
    readSince := now
    handled := stream.handled ++ [frame] }

/-- `read_frame` behind the length, with the bytes of the body that arrived. -/
def readBody (stream : ControlStream) (lenBuf body : Bytes) (now : Nat) (charged : Bool) :
    ControlStream :=
  if body.length < beValue lenBuf then { stream with stage := .body lenBuf body }
  else
    match Frame.fromCbor body with
    | .ok frame => handle stream frame now charged
    | .error _ => { stream with stage := .returned (lenBuf ++ body) }

/-- `read_frame` from its start, with the bytes of the length that arrived. -/
def readLength (stream : ControlStream) (lenBuf : Bytes) (now : Nat) (charged : Bool) :
    ControlStream :=
  if lenBuf.length < 4 then { stream with stage := .length lenBuf }
  else if controlFrameLenCap < beValue lenBuf then { stream with stage := .returned lenBuf }
  else readBody stream lenBuf [] now charged

/-- One byte off the stream. -/
def read (stream : ControlStream) (now : Nat) (charged : Bool) : ControlStream :=
  match stream.stage, stream.unread with
  | .length lenBuf, byte :: unread =>
      readLength { stream with unread } (lenBuf ++ [byte]) now charged
  | .body lenBuf body, byte :: unread =>
      readBody { stream with unread } lenBuf (body ++ [byte]) now charged
  | _, _ => stream

/-- The deadline of the read at hand has passed. -/
def due (stream : ControlStream) (now : Nat) : Bool :=
  stream.readSince + controlReadDeadline ≤ now

/-- The read is dropped, with the bytes it took, and begun anew. -/
def expire (stream : ControlStream) (now : Nat) : ControlStream :=
  match stream.stage with
  | .returned _ => stream
  | _ => if stream.due now then { stream with stage := .length [], readSince := now } else stream

def step (stream : ControlStream) : StreamEvent → ControlStream
  | .arrives now charged => stream.read now charged
  | .expires now => stream.expire now
  | .closes => { stream with stage := .returned stream.stage.taken }

/-! ## The stream in step -/

/-- The frames handled begin the frames written, and every byte written belongs to a
frame handled, to the frame at hand or to what is to come. -/
def InStep (frames : List Frame) (stream : ControlStream) : Prop :=
  stream.handled <+: frames ∧
    written stream.handled ++ (stream.stage.taken ++ stream.unread) = written frames

/-- The event drops a read that took bytes. -/
def dropsBytes (stream : ControlStream) : StreamEvent → Prop
  | .expires now => match stream.stage with
    | .returned _ => False
    | stage => stream.due now ∧ stage.taken ≠ []
  | _ => False

/-- The stage holds fewer bytes than its `read_exact` asked for. -/
def Partial : ReadStage → Prop
  | .length lenBuf => lenBuf.length < 4
  | .body lenBuf body => lenBuf.length = 4 ∧ body.length < beValue lenBuf
  | .returned _ => True

theorem partial_handle (stream : ControlStream) (frame : Frame) (now : Nat) (charged : Bool) :
    Partial (stream.handle frame now charged).stage := by
  show Partial (if charged && !goesOn frame then .returned [] else .length [])
  split
  · trivial
  · show [].length < 4
    decide

theorem partial_readBody (stream : ControlStream) {lenBuf : Bytes} (whole : lenBuf.length = 4)
    (body : Bytes) (now : Nat) (charged : Bool) :
    Partial (stream.readBody lenBuf body now charged).stage := by
  unfold readBody
  split
  · next short => exact ⟨whole, short⟩
  · split
    · exact partial_handle stream _ now charged
    · trivial

theorem partial_readLength (stream : ControlStream) {lenBuf : Bytes} (room : lenBuf.length ≤ 4)
    (now : Nat) (charged : Bool) : Partial (stream.readLength lenBuf now charged).stage := by
  unfold readLength
  split
  · next short => exact short
  · next long =>
      have whole : lenBuf.length = 4 := by omega
      split
      · trivial
      · exact partial_readBody stream whole [] now charged

theorem partial_step (stream : ControlStream) (event : StreamEvent)
    (fits : Partial stream.stage) : Partial (stream.step event).stage := by
  cases event with
  | arrives now charged =>
      show Partial (stream.read now charged).stage
      unfold read
      split
      · next lenBuf byte unread atLength _ =>
          rw [atLength] at fits
          have short : lenBuf.length < 4 := fits
          refine partial_readLength _ ?_ now charged
          rw [List.length_append, List.length_singleton]
          omega
      · next lenBuf body byte unread atBody _ =>
          rw [atBody] at fits
          exact partial_readBody _ fits.1 _ now charged
      · exact fits
  | expires now =>
      show Partial (stream.expire now).stage
      unfold expire
      split
      · exact fits
      · split
        · show [].length < 4
          decide
        · exact fits
  | closes => trivial

/-! ## What a step leaves in step -/

theorem written_append (first second : List Frame) :
    written (first ++ second) = written first ++ written second :=
  List.flatMap_append

theorem inStep_iff {frames : List Frame} {stream : ControlStream} :
    InStep frames stream ↔
      ∃ pending, frames = stream.handled ++ pending ∧
        stream.stage.taken ++ stream.unread = written pending := by
  constructor
  · intro inStep
    have begins : stream.handled <+: frames := inStep.1
    obtain ⟨pending, rfl⟩ := begins
    refine ⟨pending, rfl, ?_⟩
    have bytes := inStep.2
    rw [written_append] at bytes
    exact List.append_cancel_left bytes
  · intro split
    obtain ⟨pending, rfl, bytes⟩ := split
    refine ⟨List.prefix_append _ _, ?_⟩
    rw [bytes, written_append]

/-- The bytes begin with a whole length: it is the length of the next frame. -/
theorem next_of_written {pending : List Frame} (capped : ∀ frame ∈ pending, frame.Capped)
    {lenBuf more : Bytes} (whole : lenBuf.length = 4) (bytes : lenBuf ++ more = written pending) :
    ∃ frame rest, pending = frame :: rest ∧ frame.Capped ∧
      beValue lenBuf = frame.toCbor.length ∧ more = frame.toCbor ++ written rest := by
  cases pending with
  | nil =>
      have none : (lenBuf ++ more).length = 0 := by
        rw [bytes]
        rfl
      rw [List.length_append] at none
      omega
  | cons frame rest =>
      have frameCapped := capped frame List.mem_cons_self
      have parts : lenBuf ++ more =
          beBytes 4 frame.toCbor.length ++ (frame.toCbor ++ written rest) := by
        rw [bytes, ← List.append_assoc]
        rfl
      have widths : lenBuf.length = (beBytes 4 frame.toCbor.length).length := by
        rw [whole, beBytes_length]
      obtain ⟨length, body⟩ := List.append_inj parts widths
      have small : frame.toCbor.length < 256 ^ 4 := by
        have bound := Frame.toCbor_length_le frameCapped
        omega
      refine ⟨frame, rest, rfl, frameCapped, ?_, body⟩
      rw [length, beValue_beBytes, Nat.mod_eq_of_lt small]

section Steps

variable {frames pending : List Frame} {stream : ControlStream}

theorem inStep_handle (stream : ControlStream) {frame : Frame}
    (split : frames = stream.handled ++ frame :: pending)
    (bytes : stream.unread = written pending) (now : Nat) (charged : Bool) :
    InStep frames (stream.handle frame now charged) := by
  rw [inStep_iff]
  refine ⟨pending, ?_, ?_⟩
  · show frames = stream.handled ++ [frame] ++ pending
    rw [split, List.append_assoc, List.singleton_append]
  · have none : (stream.handle frame now charged).stage.taken = [] := by
      show ReadStage.taken (if charged && !goesOn frame then .returned [] else .length []) = []
      split <;> rfl
    rw [none, List.nil_append]
    exact bytes

theorem inStep_readBody (stream : ControlStream) (capped : ∀ frame ∈ frames, frame.Capped)
    (split : frames = stream.handled ++ pending) {lenBuf body : Bytes}
    (whole : lenBuf.length = 4) (room : body.length ≤ beValue lenBuf)
    (bytes : lenBuf ++ body ++ stream.unread = written pending) (now : Nat) (charged : Bool) :
    InStep frames (stream.readBody lenBuf body now charged) := by
  unfold readBody
  split_ifs with short
  · exact inStep_iff.mpr ⟨pending, split, bytes⟩
  · have pendingCapped : ∀ frame ∈ pending, frame.Capped := by
      intro frame inside
      refine capped frame ?_
      rw [split]
      exact List.mem_append_right _ inside
    rw [List.append_assoc] at bytes
    obtain ⟨frame, rest, rfl, frameCapped, length, more⟩ :=
      next_of_written pendingCapped whole bytes
    have bodyWhole : body.length = frame.toCbor.length := by omega
    obtain ⟨rfl, unread⟩ := List.append_inj more bodyWhole
    rw [Frame.fromCbor_toCbor frameCapped]
    exact inStep_handle stream split unread now charged

theorem inStep_readLength (stream : ControlStream) (capped : ∀ frame ∈ frames, frame.Capped)
    (split : frames = stream.handled ++ pending) {lenBuf : Bytes} (room : lenBuf.length ≤ 4)
    (bytes : lenBuf ++ stream.unread = written pending) (now : Nat) (charged : Bool) :
    InStep frames (stream.readLength lenBuf now charged) := by
  have pendingCapped : ∀ frame ∈ pending, frame.Capped := by
    intro frame inside
    refine capped frame ?_
    rw [split]
    exact List.mem_append_right _ inside
  unfold readLength
  split_ifs with short large
  · exact inStep_iff.mpr ⟨pending, split, bytes⟩
  · -- A frame of the house is far below the cap.
    have whole : lenBuf.length = 4 := by omega
    obtain ⟨frame, rest, rfl, frameCapped, length, more⟩ :=
      next_of_written pendingCapped whole bytes
    have bound := Frame.toCbor_length_le frameCapped
    have cap : controlFrameLenCap = 65536 := rfl
    omega
  · have whole : lenBuf.length = 4 := by omega
    refine inStep_readBody stream capped split whole (Nat.zero_le _) ?_ now charged
    rw [List.append_nil]
    exact bytes

/-- An event that drops no bytes keeps the stream in step. -/
theorem inStep_step (capped : ∀ frame ∈ frames, frame.Capped) (fits : Partial stream.stage)
    (inStep : InStep frames stream) {event : StreamEvent} (spared : ¬stream.dropsBytes event) :
    InStep frames (stream.step event) := by
  obtain ⟨pending, split, bytes⟩ := inStep_iff.mp inStep
  cases event with
  | arrives now charged =>
      show InStep frames (stream.read now charged)
      unfold read
      split
      · next lenBuf byte unread atLength atByte =>
          rw [atLength] at fits
          have short : lenBuf.length < 4 := fits
          rw [atLength, atByte] at bytes
          refine inStep_readLength { stream with unread } capped split ?_ ?_ now charged
          · rw [List.length_append, List.length_singleton]
            omega
          · rw [← bytes, List.append_assoc]
            rfl
      · next lenBuf body byte unread atBody atByte =>
          rw [atBody] at fits
          have short : body.length < beValue lenBuf := fits.2
          rw [atBody, atByte] at bytes
          refine inStep_readBody { stream with unread } capped split fits.1 ?_ ?_ now charged
          · rw [List.length_append, List.length_singleton]
            omega
          · rw [← bytes]
            show lenBuf ++ (body ++ [byte]) ++ unread = lenBuf ++ body ++ byte :: unread
            simp only [List.append_assoc, List.singleton_append]
      · exact inStep
  | expires now =>
      show InStep frames (stream.expire now)
      unfold expire
      split
      · exact inStep
      · next stage notReturned =>
          split_ifs with due
          · have untaken : stream.stage.taken = [] := by
              by_contra took
              refine spared ?_
              show match stream.stage with
                | .returned _ => False
                | stage => stream.due now ∧ stage.taken ≠ []
              split
              · next taken returned => exact notReturned taken returned
              · exact ⟨due, took⟩
            rw [untaken] at bytes
            exact inStep_iff.mpr ⟨pending, split, bytes⟩
          · exact inStep
  | closes => exact inStep

/-- An event that drops bytes leaves a byte that is in no frame. -/
theorem not_inStep_step (inStep : InStep frames stream) {event : StreamEvent}
    (drops : stream.dropsBytes event) : ¬InStep frames (stream.step event) := by
  intro after
  cases event with
  | arrives now charged => exact drops
  | closes => exact drops
  | expires now =>
      have before := congrArg List.length inStep.2
      have later := congrArg List.length after.2
      cases atStage : stream.stage with
      | returned taken =>
          simp only [dropsBytes, atStage] at drops
      | length lenBuf =>
          simp only [dropsBytes, atStage] at drops
          have took := List.length_pos_iff.mpr drops.2
          simp only [step, expire, atStage, drops.1, if_true, ReadStage.taken, List.length_append,
            List.length_nil] at before later took
          omega
      | body lenBuf body =>
          simp only [dropsBytes, atStage] at drops
          have took := List.length_pos_iff.mpr drops.2
          simp only [step, expire, atStage, drops.1, if_true, ReadStage.taken, List.length_append,
            List.length_nil] at before later took
          omega

end Steps

theorem inStep_start (frames : List Frame) (now : Nat) : InStep frames (start frames now) :=
  ⟨List.nil_prefix, rfl⟩

/-- The frames `control_loop` handles begin the frames the house wrote, and no byte is
skipped, exactly when no deadline passes while a read holds bytes of its frame. -/
theorem in_step_iff (frames : List HouseFrame) (now : Nat) (events : List StreamEvent) :
    Machine.Throughout step (InStep (frames.map HouseFrame.toFrame))
        (start (frames.map HouseFrame.toFrame) now) events ↔
      Machine.Guarded step (fun stream event => ¬stream.dropsBytes event)
        (start (frames.map HouseFrame.toFrame) now) events := by
  have capped : ∀ frame ∈ frames.map HouseFrame.toFrame, frame.Capped := by
    intro frame inside
    obtain ⟨house, _, rfl⟩ := List.mem_map.mp inside
    exact house.toFrame_capped
  have fits : Partial (start (frames.map HouseFrame.toFrame) now).stage := by
    show [].length < 4
    decide
  -- What the stage holds bounds what the read still asks for, in every run.
  have always : ∀ front, Partial (Machine.run step
      (start (frames.map HouseFrame.toFrame) now) front).stage :=
    Machine.run_always partial_step fits
  have both : Machine.Throughout step (InStep (frames.map HouseFrame.toFrame))
        (start (frames.map HouseFrame.toFrame) now) events ↔
      Machine.Throughout step
        (fun stream => Partial stream.stage ∧ InStep (frames.map HouseFrame.toFrame) stream)
        (start (frames.map HouseFrame.toFrame) now) events := by
    constructor
    · intro inStep front inside
      exact ⟨always front, inStep front inside⟩
    · intro inStep front inside
      exact (inStep front inside).2
  rw [both]
  refine Machine.throughout_iff_guarded ?_ ⟨fits, inStep_start _ now⟩
  intro stream event holds
  constructor
  · intro after drops
    exact not_inStep_step holds.2 drops after.2
  · intro spared
    exact ⟨partial_step stream event holds.1, inStep_step capped holds.1 holds.2 spared⟩

/-! ## A deadline inside a frame -/

/-- A tag that ends in a whole frame. -/
def framedTag : Bytes32 := ⟨List.replicate 25 0 ++ [0, 0, 0, 3, 130, 9, 1], rfl⟩

/-- The answer to a knock, of which the last bytes come after the deadline. -/
def lateAnswer : List HouseFrame := [.knockAnswer framedTag]

def lateRest : List StreamEvent :=
  List.replicate 34 (.arrives 0 true) ++
    (.expires controlReadDeadline :: List.replicate 7 (.arrives controlReadDeadline true))

/-- The gate handles a `Keepalive` that was never written. -/
theorem unwritten_handled :
    (Machine.run step (start (lateAnswer.map HouseFrame.toFrame) 0) lateRest).handled =
        [.keepalive 1] ∧
      ¬InStep (lateAnswer.map HouseFrame.toFrame)
        (Machine.run step (start (lateAnswer.map HouseFrame.toFrame) 0) lateRest) := by
  have handled : (Machine.run step (start (lateAnswer.map HouseFrame.toFrame) 0) lateRest).handled =
      [.keepalive 1] := by
    decide +kernel
  refine ⟨handled, ?_⟩
  intro inStep
  have begins := inStep.1
  rw [handled] at begins
  obtain ⟨rest, same⟩ := begins
  cases same

end ControlStream

end Mosschat.Net.Gate
