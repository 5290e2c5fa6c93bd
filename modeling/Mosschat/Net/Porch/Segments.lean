import Mosschat.Library.Strides
import Mosschat.Net.Doorbell.ProbeCodec
import Mosschat.Net.Porch.Sources

/-!
Owns the split of a received batch, by segment and not by buffer: the probes go to their
authenticator, the rest is packed at the front of its buffer, and the source rule says whether
quinn may see it.

Does not own whether a probe is authentic.
-/

namespace Mosschat.Net

open Mosschat.Library Mosschat.Library.Cbor Mosschat.Library.Strides Mosschat.Net.Gate

/-- `EcnCodepoint`. -/
inductive EcnCodepoint where
  | ect0
  | ect1
  | ce
deriving DecidableEq

/-- `RecvMeta`. -/
structure RecvMeta where
  addr : SocketAddr
  len : Nat
  stride : Nat
  ecn : Option EcnCodepoint
  dstIp : Option IpAddr
deriving DecidableEq

/-- A buffer of quinn's with its meta. Quinn hands over as many of the one as of the other. -/
structure Slot extends RecvMeta where
  buf : Bytes
deriving DecidableEq

namespace Slot

/-- What quinn reads of the slot. -/
def bytes (slot : Slot) : Bytes := slot.buf.take slot.len

/-- The datagrams of the slot, as quinn cuts them. -/
def segments (slot : Slot) : List Bytes := cut slot.stride slot.bytes

/-- The datagrams that are not probes. -/
def packets (slot : Slot) : List Bytes := slot.segments.filter fun segment => !isProbe segment

/-- The probes among the datagrams. -/
def probes (slot : Slot) : List Bytes := slot.segments.filter isProbe

end Slot

/-- `[u8; PROBE_LEN]`. -/
abbrev ProbeSegment := List.Vector UInt8 probeLen

/-- `copy_within`: the bytes from `start` to `stop` are written at `dest` too. -/
def copyWithin (buf : Bytes) (start stop dest : Nat) : Bytes :=
  buf.take dest ++ ((buf.take stop).drop start ++ buf.drop (dest + (stop - start)))

/-- What the loop of `filter_probes` works on. -/
structure Filtering where
  buf : Bytes
  read : Nat
  write : Nat
  probes : List ProbeSegment

/-- One turn of the loop of `filter_probes`. The segment is inside the buffer, since `len` is. -/
def filterStep (stride len : Nat) (state : Filtering) : Filtering :=
  let stop := min (state.read + stride) len
  let segment := (state.buf.take stop).drop state.read
  if isProbe segment then
    { state with read := stop, probes := state.probes ++ [field segment 0 probeLen] }
  else
    { state with
      buf := if state.write ≠ state.read then
          copyWithin state.buf state.read stop state.write
        else state.buf
      read := stop
      write := state.write + (stop - state.read) }

theorem read_filterStep (stride len : Nat) (state : Filtering) :
    (filterStep stride len state).read = min (state.read + stride) len := by
  unfold filterStep
  simp only
  split <;> rfl

/-- The loop of `filter_probes`. -/
def filterLoop (stride len : Nat) (positive : 0 < len → 0 < stride) (state : Filtering) :
    Filtering :=
  if state.read < len then filterLoop stride len positive (filterStep stride len state)
  else state
termination_by len - state.read
decreasing_by
  have more : state.read < len := ‹_›
  have advances := positive (Nat.zero_lt_of_lt more)
  rw [read_filterStep]
  omega

/-- `filter_probes`: the buffer, how much of it is left, and the calls of `queue_probes`. -/
def filterProbes (slot : Slot) : Bytes × Nat × List (SocketAddr × List ProbeSegment) :=
  let stride := if slot.stride = 0 then slot.len else slot.stride
  let len := min slot.len slot.buf.length
  have positive : 0 < len → 0 < stride := by
    intro some
    simp only [stride, len] at some ⊢
    split <;> omega
  let after := filterLoop stride len positive ⟨slot.buf, 0, 0, []⟩
  (after.buf, after.write,
    if after.probes = [] then [] else [(unmapV4 slot.addr, after.probes)])

/-- A batch after `demultiplex`, and what that did on the way. -/
structure Demultiplexed where
  slots : List Slot
  carrying : Nat
  /-- The sources of a call of `queue_probes` with its segments. -/
  queued : List (SocketAddr × List ProbeSegment)
  unknownSourceDropped : Nat
deriving DecidableEq

/-- One turn of the loop of `demultiplex`. -/
def demultiplexSlot (rule : PorchSources) (slot : Slot) : Demultiplexed :=
  let (buf, kept, queued) := filterProbes slot
  match (if kept = 0 then .drop else rule.classifySource slot.addr : SourceVerdict) with
  | .drop =>
    ⟨[{ slot with buf := buf, len := 0 }], 0, queued, if 0 < kept then 1 else 0⟩
  | .keep => ⟨[{ slot with buf := buf, len := kept }], 1, queued, 0⟩
  | .rewrite synthetic =>
    ⟨[{ slot with buf := buf, len := kept, addr := synthetic }], 1, queued, 0⟩

/-- `demultiplex`, with the source rule as it stands when each slot comes to its turn. -/
def demultiplex (rule : Nat → PorchSources) : Nat → List Slot → Demultiplexed
  | count + 1, slot :: rest =>
    let one := demultiplexSlot (rule 0) slot
    let others := demultiplex (fun index => rule (index + 1)) count rest
    { slots := one.slots ++ others.slots
      carrying := one.carrying + others.carrying
      queued := one.queued ++ others.queued
      unknownSourceDropped := one.unknownSourceDropped + others.unknownSourceDropped }
  | _, slots => ⟨slots, 0, [], 0⟩

/-! ## The loop -/

theorem isProbe_length {segment : Bytes} (probing : isProbe segment = true) :
    segment.length = probeLen :=
  eq_of_beq (Bool.and_eq_true_iff.mp probing).2

/-- The copy of a probe is the probe. -/
theorem field_of_isProbe {segment : Bytes} (probing : isProbe segment = true) :
    (field segment 0 probeLen).toList = segment := by
  have length := isProbe_length probing
  rw [field_toList (by omega), List.drop_zero]
  exact List.take_of_length_le (Nat.le_of_eq length)

/-- A copy to a place in front leaves what is behind it, and is joined to what was before. -/
theorem copyWithin_spec {buf : Bytes} {start stop dest : Nat} (order : start ≤ stop)
    (inside : stop ≤ buf.length) (front : dest ≤ start) :
    (copyWithin buf start stop dest).length = buf.length ∧
      (copyWithin buf start stop dest).take (dest + (stop - start)) =
        buf.take dest ++ (buf.take stop).drop start ∧
      (copyWithin buf start stop dest).drop stop = buf.drop stop := by
  have before : (buf.take dest).length = dest := by
    rw [List.length_take]
    omega
  have copied : ((buf.take stop).drop start).length = stop - start := by
    rw [List.length_drop, List.length_take]
    omega
  have both : (buf.take dest ++ (buf.take stop).drop start).length = dest + (stop - start) := by
    rw [List.length_append, before, copied]
  have split : copyWithin buf start stop dest =
      buf.take dest ++ (buf.take stop).drop start ++ buf.drop (dest + (stop - start)) :=
    (List.append_assoc _ _ _).symm
  refine ⟨?_, ?_, ?_⟩
  · rw [split, List.length_append, both, List.length_drop]
    omega
  · rw [split, List.take_left' both]
  · have past : (buf.take dest ++ (buf.take stop).drop start).length ≤ stop := by
      rw [both]
      omega
    have same : dest + (stop - start) + (stop - (dest + (stop - start))) = stop := by omega
    rw [split, List.drop_append, both, List.drop_of_length_le past, List.nil_append,
      List.drop_drop, same]

/-- The segment that is next. -/
def Filtering.segment (stride len : Nat) (state : Filtering) : Bytes :=
  (state.buf.take (min (state.read + stride) len)).drop state.read

/-- What a turn makes of a state: the segment is kept behind what was kept, or is a probe. -/
structure Turned (stride len : Nat) (before after : Filtering) : Prop where
  length : after.buf.length = before.buf.length
  write : after.write ≤ after.read
  kept : after.buf.take after.write =
    before.buf.take before.write ++
      ([before.segment stride len].filter fun segment => !isProbe segment).flatten
  probes : after.probes.map List.Vector.toList =
    before.probes.map List.Vector.toList ++ [before.segment stride len].filter isProbe
  unread : after.buf.drop after.read = before.buf.drop after.read

theorem turned_filterStep (stride : Nat) {len : Nat} {state : Filtering}
    (order : state.write ≤ state.read) (more : state.read < len) (inside : len ≤ state.buf.length) :
    Turned stride len state (filterStep stride len state) := by
  have stopAfter : state.read ≤ min (state.read + stride) len := by omega
  have stopInside : min (state.read + stride) len ≤ state.buf.length := by omega
  unfold filterStep
  simp only
  by_cases probing : isProbe (state.segment stride len) = true
  · rw [if_pos (show isProbe ((state.buf.take _).drop _) = true from probing)]
    refine ⟨rfl, Nat.le_trans order stopAfter, ?_, ?_, rfl⟩
    · rw [List.filter_cons_of_neg (by simpa using probing)]
      exact (List.append_nil _).symm
    · have copied : (field (state.segment stride len) 0 probeLen).toList =
          state.segment stride len := field_of_isProbe probing
      rw [List.filter_cons_of_pos probing, List.map_append]
      exact congrArg (fun last => state.probes.map List.Vector.toList ++ [last]) copied
  · rw [if_neg (show ¬isProbe ((state.buf.take _).drop _) = true from probing)]
    have kept : ([state.segment stride len].filter fun segment => !isProbe segment) =
        [state.segment stride len] := List.filter_cons_of_pos (by simpa using probing)
    have none : [state.segment stride len].filter isProbe = [] :=
      List.filter_cons_of_neg (by simpa using probing)
    have written : state.write + (min (state.read + stride) len - state.read) ≤
        min (state.read + stride) len := by omega
    by_cases moved : state.write ≠ state.read
    · obtain ⟨length, front, back⟩ := copyWithin_spec stopAfter stopInside order
      rw [if_pos moved]
      refine ⟨length, written, ?_, ?_, back⟩
      · rw [kept, List.flatten_singleton]
        exact front
      · rw [none]
        exact (List.append_nil _).symm
    · have same : state.write = state.read := not_not.mp moved
      rw [if_neg moved]
      refine ⟨rfl, written, ?_, ?_, rfl⟩
      · have split : (state.buf.take (min (state.read + stride) len)).take state.read ++
            state.segment stride len = state.buf.take (min (state.read + stride) len) :=
          List.take_append_drop _ _
        rw [List.take_take, Nat.min_eq_left stopAfter] at split
        show state.buf.take (state.write + (min (state.read + stride) len - state.read)) = _
        rw [kept, List.flatten_singleton, same, Nat.add_sub_cancel' stopAfter]
        exact split.symm
      · rw [none]
        exact (List.append_nil _).symm

/-- What the loop makes of a state, by what it has not read yet. -/
structure Filtered (stride len : Nat) (before after : Filtering) : Prop where
  length : after.buf.length = before.buf.length
  inside : after.write ≤ after.buf.length
  kept : after.buf.take after.write =
    before.buf.take before.write ++
      ((cut stride ((before.buf.take len).drop before.read)).filter
        fun segment => !isProbe segment).flatten
  probes : after.probes.map List.Vector.toList =
    before.probes.map List.Vector.toList ++
      (cut stride ((before.buf.take len).drop before.read)).filter isProbe

/-- The next segment is what the cut of the unread bytes begins with. -/
theorem cut_unread {stride len read : Nat} {buf : Bytes} (positive : 0 < stride) (more : read < len)
    (inside : len ≤ buf.length) :
    cut stride ((buf.take len).drop read) =
      (buf.take (min (read + stride) len)).drop read ::
        cut stride ((buf.take len).drop (min (read + stride) len)) := by
  have unread : (buf.take len).drop read ≠ [] := by
    rw [← List.length_pos_iff, List.length_drop, List.length_take]
    omega
  have segment : ((buf.take len).drop read).take stride =
      (buf.take (min (read + stride) len)).drop read := by
    rw [List.drop_take, List.take_take, List.drop_take]
    congr 1
    omega
  have rest : ((buf.take len).drop read).drop stride =
      (buf.take len).drop (min (read + stride) len) := by
    rw [List.drop_drop]
    by_cases whole : read + stride ≤ len
    · rw [Nat.min_eq_left whole]
    · have length : (buf.take len).length = len := List.length_take_of_le inside
      rw [List.drop_of_length_le (by omega), List.drop_of_length_le (by omega)]
  rw [cut_step positive unread, segment, rest]

/-- The loop packs the segments that are no probes, and copies the probes out. -/
theorem filtered_filterLoop (stride len : Nat) (positive : 0 < len → 0 < stride)
    (state : Filtering) (order : state.write ≤ state.read) (readInside : state.read ≤ len)
    (inside : len ≤ state.buf.length) :
    Filtered stride len state (filterLoop stride len positive state) := by
  induction state using filterLoop.induct stride len positive with
  | case1 state more ih =>
      have strides := positive (Nat.zero_lt_of_lt more)
      have turned := turned_filterStep stride order more inside
      have read := read_filterStep stride len state
      have next : cut stride ((state.buf.take len).drop state.read) =
          [state.segment stride len] ++
            cut stride ((state.buf.take len).drop (filterStep stride len state).read) := by
        rw [read]
        exact cut_unread strides more inside
      rw [filterLoop, if_pos more]
      generalize filterStep stride len state = after at turned read next ih ⊢
      have later := ih turned.write (by omega)
        (by rw [turned.length]; exact inside)
      have unread : (after.buf.take len).drop after.read =
          (state.buf.take len).drop after.read := by
        rw [List.drop_take, List.drop_take, turned.unread]
      rw [← unread] at next
      refine ⟨later.length.trans turned.length, later.inside, ?_, ?_⟩
      · rw [later.kept, next, turned.kept, List.filter_append, List.flatten_append,
          List.append_assoc]
      · rw [later.probes, next, turned.probes, List.filter_append, List.append_assoc]
  | case2 state done =>
      have unread : (state.buf.take len).drop state.read = [] := by
        apply List.drop_of_length_le
        rw [List.length_take]
        omega
      rw [filterLoop, if_neg done]
      refine ⟨rfl, by omega, ?_, ?_⟩
      · rw [unread, cut_nil]
        exact (List.append_nil _).symm
      · rw [unread, cut_nil]
        exact (List.append_nil _).symm

/-! ## One slot -/

/-- What `filter_probes` does to a slot. -/
structure FiltersProbes (slot : Slot)
    (after : Bytes × Nat × List (SocketAddr × List ProbeSegment)) : Prop where
  length : after.1.length = slot.buf.length
  inside : after.2.1 ≤ after.1.length
  kept : after.1.take after.2.1 = slot.packets.flatten
  queued : after.2.2.flatMap (fun call => call.2.map fun segment => (call.1, segment.toList)) =
    slot.probes.map fun probe => (unmapV4 slot.addr, probe)

theorem filterProbes_spec (slot : Slot) : FiltersProbes slot (filterProbes slot) := by
  have bytes : slot.buf.take (min slot.len slot.buf.length) = slot.bytes := by
    by_cases long : slot.buf.length ≤ slot.len
    · rw [Nat.min_eq_right long, List.take_length]
      exact (List.take_of_length_le long).symm
    · rw [Nat.min_eq_left (by omega)]
      rfl
  -- At stride zero the whole of what was received is one segment.
  have segments : cut (if slot.stride = 0 then slot.len else slot.stride) slot.bytes =
      slot.segments := by
    unfold Slot.segments
    by_cases isZero : slot.stride = 0
    · rw [if_pos isZero, isZero]
      by_cases empty : slot.bytes = []
      · rw [empty, cut_nil, cut_nil]
      · rw [cut_zero empty]
        exact cut_of_length_le empty (List.length_take_le _ _)
    · rw [if_neg isZero]
  have filtered (positive) := filtered_filterLoop
    (if slot.stride = 0 then slot.len else slot.stride) (min slot.len slot.buf.length) positive
    ⟨slot.buf, 0, 0, []⟩ (Nat.le_refl 0) (Nat.zero_le _) (Nat.min_le_right _ _)
  unfold filterProbes
  simp only
  generalize isAfter : filterLoop _ _ _ _ = after
  have filtered := filtered (by
    intro some
    split <;> omega)
  rw [isAfter] at filtered
  refine ⟨filtered.length, filtered.inside, ?_, ?_⟩
  · have kept := filtered.kept
    rw [List.drop_zero, List.take_zero, List.nil_append, bytes, segments] at kept
    exact kept
  · have probes := filtered.probes
    rw [List.drop_zero, List.map_nil, List.nil_append, bytes, segments] at probes
    show _ = (slot.segments.filter isProbe).map _
    rw [← probes, List.map_map]
    by_cases none : after.probes = []
    · rw [if_pos none, none]
      rfl
    · rw [if_neg none]
      exact List.append_nil _

/-- What a turn of `demultiplex` does to a slot, under the source rule of the moment. -/
structure Demuxes (rule : PorchSources) (before after : Slot) : Prop where
  length : after.buf.length = before.buf.length
  stride : after.stride = before.stride
  others : after.ecn = before.ecn ∧ after.dstIp = before.dstIp
  dropped : after.len = 0 ↔ before.packets = [] ∨ rule.classifySource before.addr = .drop
  kept : after.len ≠ 0 → after.segments = before.packets
  keeps : after.len ≠ 0 → rule.classifySource before.addr = .keep → after.addr = before.addr
  rewrites : ∀ synthetic, after.len ≠ 0 →
    rule.classifySource before.addr = .rewrite synthetic → after.addr = synthetic

theorem packets_flatten_eq_nil {slot : Slot} : slot.packets.flatten = [] ↔ slot.packets = [] := by
  constructor
  · intro nothing
    by_contra some
    obtain ⟨packet, isPacket⟩ := List.exists_mem_of_ne_nil _ some
    have empty := List.flatten_eq_nil_iff.mp nothing packet isPacket
    exact ne_nil_of_mem_cut (List.mem_filter.mp isPacket).1 empty
  · intro nothing
    rw [nothing]
    rfl

/-- The slot that is kept is cut into its packets. -/
theorem segments_of_kept {before after : Slot} (stride : after.stride = before.stride)
    (kept : after.bytes = before.packets.flatten) : after.segments = before.packets := by
  unfold Slot.segments
  rw [stride, kept]
  exact cut_flatten_of_sublist List.filter_sublist

theorem demultiplexSlot_spec (rule : PorchSources) (slot : Slot) :
    ∃ after, (demultiplexSlot rule slot).slots = [after] ∧ Demuxes rule slot after ∧
      (demultiplexSlot rule slot).carrying = (if after.len ≠ 0 then 1 else 0) ∧
      (demultiplexSlot rule slot).queued.flatMap
          (fun call => call.2.map fun segment => (call.1, segment.toList)) =
        slot.probes.map fun probe => (unmapV4 slot.addr, probe) := by
  have filters := filterProbes_spec slot
  unfold demultiplexSlot
  generalize filterProbes slot = filtered at filters
  obtain ⟨buf, kept, queued⟩ := filtered
  have length : buf.length = slot.buf.length := filters.length
  have inside : kept ≤ buf.length := filters.inside
  have isKept : buf.take kept = slot.packets.flatten := filters.kept
  have nothing : kept = 0 ↔ slot.packets = [] := by
    rw [← packets_flatten_eq_nil, ← isKept, ← List.length_eq_zero_iff, List.length_take]
    omega
  simp only
  by_cases none : kept = 0
  · rw [if_pos none]
    refine ⟨_, rfl, ?_, (if_neg (not_not.mpr rfl)).symm, filters.queued⟩
    have dropped : slot.packets = [] := nothing.mp none
    exact ⟨length, rfl, ⟨rfl, rfl⟩, iff_of_true rfl (Or.inl dropped), fun some => absurd rfl some,
      fun some => absurd rfl some, fun _ some => absurd rfl some⟩
  · rw [if_neg none]
    have some : slot.packets ≠ [] := fun empty => none (nothing.mpr empty)
    cases verdict : rule.classifySource slot.addr with
    | drop =>
        refine ⟨_, rfl, ?_, (if_neg (not_not.mpr rfl)).symm, filters.queued⟩
        exact ⟨length, rfl, ⟨rfl, rfl⟩, iff_of_true rfl (Or.inr verdict),
          fun some => absurd rfl some, fun some => absurd rfl some, fun _ some => absurd rfl some⟩
    | keep =>
        refine ⟨_, rfl, ?_, (if_pos none).symm, filters.queued⟩
        refine ⟨length, rfl, ⟨rfl, rfl⟩, iff_of_false none ?_, ?_, fun _ _ => rfl, ?_⟩
        · rw [verdict]
          rintro (empty | isDrop)
          · exact some empty
          · cases isDrop
        · intro _
          exact segments_of_kept rfl isKept
        · intro synthetic _ isRewrite
          rw [verdict] at isRewrite
          cases isRewrite
    | rewrite synthetic =>
        refine ⟨_, rfl, ?_, (if_pos none).symm, filters.queued⟩
        refine ⟨length, rfl, ⟨rfl, rfl⟩, iff_of_false none ?_, ?_, ?_, ?_⟩
        · rw [verdict]
          rintro (empty | isDrop)
          · exact some empty
          · cases isDrop
        · intro _
          exact segments_of_kept rfl isKept
        · intro _ isKeep
          rw [verdict] at isKeep
          cases isKeep
        · intro other _ isRewrite
          rw [verdict] at isRewrite
          cases isRewrite
          rfl

/-! ## The batch -/

/-- The batch after `demultiplex`: what became of each slot that was received, which probes went
to their authenticator with which source, and how many slots still carry bytes. -/
structure Splits (rule : Nat → PorchSources) (count : Nat) (slots : List Slot)
    (after : Demultiplexed) : Prop where
  length : after.slots.length = slots.length
  received : ∀ index slot next, index < count → slots[index]? = some slot →
    after.slots[index]? = some next → Demuxes (rule index) slot next
  rest : after.slots.drop count = slots.drop count
  authenticated : after.queued.flatMap
      (fun call => call.2.map fun segment => (call.1, segment.toList)) =
    (slots.take count).flatMap fun slot => slot.probes.map fun probe => (unmapV4 slot.addr, probe)
  carrying : after.carrying = ((after.slots.take count).filter fun slot => slot.len ≠ 0).length

/-- Every batch is split by segment: what is kept of a slot is cut again into the segments that
are no probes, the probes and no others went to their authenticator, and the count says how many
slots carry bytes. -/
theorem demultiplex_splits (rule : Nat → PorchSources) (count : Nat) (slots : List Slot) :
    Splits rule count slots (demultiplex rule count slots) := by
  induction slots generalizing rule count with
  | nil =>
      have none : demultiplex rule count [] = ⟨[], 0, [], 0⟩ := by
        cases count <;> rfl
      rw [none]
      refine ⟨rfl, ?_, rfl, ?_, ?_⟩
      · intro index slot next _ found
        cases found
      · rw [List.take_nil]
        rfl
      · rw [List.take_nil]
        rfl
  | cons slot rest ih =>
      cases count with
      | zero =>
          refine ⟨rfl, ?_, rfl, rfl, rfl⟩
          intro index slot next below
          cases below
      | succ count =>
          obtain ⟨first, isFirst, demuxes, carries, queued⟩ := demultiplexSlot_spec (rule 0) slot
          have others := ih (fun index => rule (index + 1)) count
          have slots : (demultiplex rule (count + 1) (slot :: rest)).slots =
              first :: (demultiplex (fun index => rule (index + 1)) count rest).slots := by
            show (demultiplexSlot (rule 0) slot).slots ++ _ = _
            rw [isFirst]
            rfl
          refine ⟨?_, ?_, ?_, ?_, ?_⟩
          · rw [slots, List.length_cons, List.length_cons, others.length]
          · intro index found next below isSlot isNext
            rw [slots] at isNext
            cases index with
            | zero =>
                cases isSlot
                cases isNext
                exact demuxes
            | succ index =>
                exact others.received index found next (Nat.lt_of_succ_lt_succ below) isSlot isNext
          · rw [slots, List.drop_succ_cons, List.drop_succ_cons]
            exact others.rest
          · show ((demultiplexSlot (rule 0) slot).queued ++ _).flatMap _ = _
            rw [List.flatMap_append, queued, others.authenticated, List.take_succ_cons,
              List.flatMap_cons]
          · rw [slots, List.take_succ_cons, List.filter_cons]
            show (demultiplexSlot (rule 0) slot).carrying + _ = _
            rw [carries, others.carrying]
            by_cases some : first.len ≠ 0
            · rw [if_pos some, if_pos (by simpa using some), List.length_cons, Nat.add_comm]
            · rw [if_neg some, if_neg (by simpa using some), Nat.zero_add]

end Mosschat.Net
