import Mosschat.Library.Collect
import Mosschat.Net.Doorbell.Candidates

/-!
Owns which of its own addresses a house offers: few, in the order it is surest of them, and
each once where no address comes in two spellings.

Does not own where the addresses are from.
-/

namespace Mosschat.Net

open Mosschat.Library Mosschat.Library.Collect

/-- `is_gatherable`. -/
def isGatherable (addr : SocketAddr) : Bool :=
  if addr.ip.isLoopback then false else isProbeable addr

/-- What `gather` goes through, in its order. -/
def named (locals reflections discovered : List SocketAddr) :
    List (SocketAddr × CandidateSource) :=
  (locals.map fun addr => (addr, .localInterface)) ++
    (reflections.map fun addr => (addr, .gateReflected)) ++
      (discovered.map fun addr => (addr, .discovery))

/-- `gather`. -/
def gather (locals reflections discovered : List SocketAddr) :
    List (SocketAddr × CandidateSource) :=
  collect Prod.fst (fun entry => isGatherable entry.1) maxCandidates []
    (named locals reflections discovered)

/-- `regather`, with what this machine and the gate name now. -/
def regather (original locals discovered : List SocketAddr) (reflection : SocketAddr) :
    List SocketAddr :=
  collect id (fun _ => true) maxCandidates (original.take maxCandidates)
    ((gather locals [reflection] discovered).map Prod.fst)

/-! ## What is gathered -/

/-- An address a house may offer. -/
structure Offerable (addr : SocketAddr) : Prop extends Aimable addr where
  notLoopback : addr.ip.isLoopback = false

/-- `out` is the first few of the addresses, each once, whatever they are spelled as. -/
structure Gathered (addrs out : List (SocketAddr × CandidateSource)) : Prop where
  few : out.length ≤ maxCandidates
  distinct : (out.map fun entry => unmapV4 entry.1).Nodup
  fit : ∀ entry ∈ out, Offerable (unmapV4 entry.1)
  ordered : out.Sublist addrs
  /-- What was taken before an address that may be offered has that address, or is all
  there is room for, or the address is next. -/
  complete : ∀ front entry rest, addrs = front ++ entry :: rest → Offerable (unmapV4 entry.1) →
    ∃ taken, taken <+: out ∧ taken.Sublist front ∧
      (taken.length = maxCandidates ∨
        (∃ earlier ∈ taken, unmapV4 earlier.1 = unmapV4 entry.1) ∨ taken ++ [entry] <+: out)

/-- Until there are enough of them, every address that passes may be offered in its plain
spelling too, and none comes in two spellings. -/
def OneSpelling (addrs : List (SocketAddr × CandidateSource)) : Prop :=
  ∀ front entry rest, addrs = front ++ entry :: rest → isGatherable entry.1 = true →
    (keysOf Prod.fst (fun entry => isGatherable entry.1) front).length < maxCandidates →
      isGatherable (unmapV4 entry.1) = true ∧
        ∀ earlier ∈ front, isGatherable earlier.1 = true →
          unmapV4 earlier.1 = unmapV4 entry.1 → earlier.1 = entry.1

theorem isProbeable_of_aimable {addr : SocketAddr} (aimable : Aimable addr) :
    isProbeable addr = true := by
  obtain ⟨ip, port⟩ := addr
  obtain ⟨_, reserved, specified, unicast, notBroadcast⟩ := aimable
  have notReserved : ¬(port == 0 || port == 1) = true := by
    rw [Bool.or_eq_true, beq_iff_eq, beq_iff_eq, not_or]
    exact reserved
  unfold isProbeable
  rw [if_neg notReserved]
  cases ip with
  | v4 octets =>
      dsimp only at specified unicast notBroadcast ⊢
      rw [specified, unicast, notBroadcast]
      rfl
  | v6 octets =>
      dsimp only at specified unicast ⊢
      rw [specified, unicast]
      rfl

/-- An address that passes in its plain spelling may be offered. -/
theorem isGatherable_unmapV4_iff (addr : SocketAddr) :
    isGatherable (unmapV4 addr) = true ↔ Offerable (unmapV4 addr) := by
  unfold isGatherable
  constructor
  · intro passes
    split at passes
    · cases passes
    · next notLoopback =>
        exact ⟨aimable_of_isProbeable (unmapV4_unmapV4 addr) passes,
          Bool.eq_false_of_not_eq_true notLoopback⟩
  · intro offerable
    rw [offerable.notLoopback, if_neg Bool.false_ne_true]
    exact isProbeable_of_aimable offerable.toAimable

/-- A mapped address is none that is turned away for what it is. -/
theorem head_of_mapped {octets : List.Vector UInt8 16}
    (mapped : octets.toList.take 12 = IpAddr.mappedPrefix) :
    (IpAddr.v6 octets).isLoopback = false ∧ (IpAddr.v6 octets).isUnspecified = false ∧
      (IpAddr.v6 octets).isMulticast = false := by
  refine ⟨?_, ?_, ?_⟩
  · apply Bool.eq_false_of_not_eq_true
    intro loopback
    rw [IpAddr.isLoopback, beq_iff_eq] at loopback
    rw [loopback] at mapped
    exact absurd mapped (by decide)
  · apply Bool.eq_false_of_not_eq_true
    intro unspecified
    rw [IpAddr.isUnspecified, beq_iff_eq] at unspecified
    rw [unspecified] at mapped
    exact absurd mapped (by decide)
  · obtain ⟨list, isLength⟩ := octets
    cases list with
    | nil => cases isLength
    | cons first rest =>
        have isFirst : first = 0 := (List.cons.inj mapped).1
        rw [isFirst]
        rfl

/-- An address that passes in its plain spelling passes in every. -/
theorem isGatherable_of_unmapV4 {addr : SocketAddr}
    (passes : isGatherable (unmapV4 addr) = true) : isGatherable addr = true := by
  obtain ⟨ip, port⟩ := addr
  cases ip with
  | v4 octets => exact passes
  | v6 octets =>
      by_cases mapped : octets.toList.take 12 = IpAddr.mappedPrefix
      · have offerable := (isGatherable_unmapV4_iff _).mp passes
        have plain := head_of_mapped mapped
        have isPlain : unmapV4 ⟨.v6 octets, port⟩ = ⟨.v4 (octets.drop 12), port⟩ := by
          unfold unmapV4
          dsimp only
          rw [if_pos (beq_iff_eq.mpr mapped)]
        have reserved := offerable.port
        rw [isPlain] at reserved
        have notReserved : ¬(port == 0 || port == 1) = true := by
          rw [Bool.or_eq_true, beq_iff_eq, beq_iff_eq, not_or]
          exact reserved
        unfold isGatherable isProbeable
        dsimp only
        rw [plain.1, if_neg Bool.false_ne_true, if_neg notReserved, plain.2.1, plain.2.2]
        rfl
      · have isPlain : unmapV4 ⟨.v6 octets, port⟩ = ⟨.v6 octets, port⟩ := by
          unfold unmapV4
          dsimp only
          rw [if_neg]
          rw [beq_iff_eq]
          exact mapped
        rw [isPlain] at passes
        exact passes

section Gather

variable {locals reflections discovered : List SocketAddr}

/-- What is gathered passed as it is spelled, where there was room for it. -/
theorem reached_of_mem {entry : SocketAddr × CandidateSource}
    (member : entry ∈ gather locals reflections discovered) :
    ∃ front rest, named locals reflections discovered = front ++ entry :: rest ∧
      isGatherable entry.1 = true ∧
      (keysOf Prod.fst (fun entry => isGatherable entry.1) front).length < maxCandidates := by
  obtain ⟨front, rest, isSplit, passes, room, _⟩ := mem_collect member
  exact ⟨front, rest, isSplit, passes, (length_collect_lt_iff front).mp room⟩

/-- Where there is room, an address that passes is gathered. -/
theorem mem_of_reached {front rest : List (SocketAddr × CandidateSource)}
    {entry : SocketAddr × CandidateSource}
    (isSplit : named locals reflections discovered = front ++ entry :: rest)
    (passes : isGatherable entry.1 = true)
    (room : (keysOf Prod.fst (fun entry => isGatherable entry.1) front).length < maxCandidates) :
    entry.1 ∈ (gather locals reflections discovered).map Prod.fst := by
  unfold gather
  rw [isSplit]
  have before := (length_collect_lt_iff front).mpr room
  obtain ⟨ahead, _, reached⟩ := collect_reaches Prod.fst
    (fun entry : SocketAddr × CandidateSource => isGatherable entry.1) maxCandidates front rest
    passes
  rcases reached with isFull | ⟨_, known⟩ | ⟨_, _, next⟩
  · omega
  · exact (ahead.map Prod.fst).subset known
  · apply (next.map Prod.fst).subset
    rw [List.map_append]
    exact List.mem_append_right _ (List.mem_singleton_self _)

/-- An address before one that was reached was reached itself. -/
theorem length_keysOf_le {front back : List (SocketAddr × CandidateSource)} :
    (keysOf Prod.fst (fun entry : SocketAddr × CandidateSource => isGatherable entry.1)
        front).length ≤
      (keysOf Prod.fst (fun entry => isGatherable entry.1) (front ++ back)).length := by
  apply List.Subperm.length_le
  apply List.subperm_of_subset (List.nodup_dedup _)
  intro value member
  obtain ⟨entry, inside, passes⟩ := mem_keysOf.mp member
  exact mem_keysOf.mpr ⟨entry, List.mem_append_left back inside, passes⟩

theorem oneSpelling_of_gathered
    (gathered : Gathered (named locals reflections discovered)
      (gather locals reflections discovered)) :
    OneSpelling (named locals reflections discovered) := by
  intro front entry rest isSplit passes room
  obtain ⟨taken, isTaken, isEntry⟩ := List.mem_map.mp (mem_of_reached isSplit passes room)
  constructor
  · rw [← isEntry]
    exact (isGatherable_unmapV4_iff _).mpr (gathered.fit taken isTaken)
  · intro earlier member alsoPasses same
    obtain ⟨start, middle, isFront⟩ := List.append_of_mem member
    have alsoSplit : named locals reflections discovered =
        start ++ earlier :: (middle ++ entry :: rest) := by
      rw [isSplit, isFront, List.append_assoc, List.cons_append]
    have alsoRoom : (keysOf Prod.fst (fun entry : SocketAddr × CandidateSource =>
        isGatherable entry.1) start).length < maxCandidates := by
      rw [isFront] at room
      exact Nat.lt_of_le_of_lt length_keysOf_le room
    obtain ⟨other, isOther, isEarlier⟩ :=
      List.mem_map.mp (mem_of_reached alsoSplit alsoPasses alsoRoom)
    have sameEntry : other = taken := by
      apply List.inj_on_of_nodup_map gathered.distinct isOther isTaken
      rw [isEarlier, isEntry]
      exact same
    rw [← isEarlier, ← isEntry, sameEntry]

theorem gathered_of_oneSpelling
    (oneSpelling : OneSpelling (named locals reflections discovered)) :
    Gathered (named locals reflections discovered) (gather locals reflections discovered) where
  few := length_collect_le (Nat.zero_le _) _
  distinct := by
    apply List.pairwise_map.mpr
    apply pairwise_collect
    intro front entry rest isSplit passes room isNew earlier member same
    obtain ⟨start, back, isFront, alsoPasses, _⟩ := mem_collect member
    have isBefore : earlier ∈ front := by
      rw [isFront]
      exact List.mem_append_right start List.mem_cons_self
    have plain := oneSpelling front entry rest isSplit passes ((length_collect_lt_iff front).mp room)
    apply isNew
    rw [← plain.2 earlier isBefore alsoPasses same]
    exact List.mem_map_of_mem member
  fit := by
    intro entry member
    obtain ⟨front, rest, isSplit, passes, room⟩ := reached_of_mem member
    exact (isGatherable_unmapV4_iff _).mp (oneSpelling front entry rest isSplit passes room).1
  ordered := by
    obtain ⟨more, isMore, inside⟩ := collect_sublist Prod.fst
      (fun entry : SocketAddr × CandidateSource => isGatherable entry.1) maxCandidates []
      (named locals reflections discovered)
    unfold gather
    rw [isMore]
    exact inside
  complete := by
    intro front entry rest isSplit offerable
    have passes := isGatherable_of_unmapV4 ((isGatherable_unmapV4_iff _).mpr offerable)
    obtain ⟨ahead, inside, reached⟩ := collect_reaches Prod.fst
      (fun entry : SocketAddr × CandidateSource => isGatherable entry.1) maxCandidates front rest
      passes
    rw [← isSplit] at ahead reached
    refine ⟨_, ahead, inside, ?_⟩
    rcases reached with isFull | ⟨_, known⟩ | ⟨_, _, next⟩
    · exact Or.inl isFull
    · obtain ⟨earlier, isEarlier, same⟩ := List.mem_map.mp known
      exact Or.inr (Or.inl ⟨earlier, isEarlier, congrArg unmapV4 same⟩)
    · exact Or.inr (Or.inr next)

/-- What a house gathers is what it should offer exactly where, as far as there is room, no
address comes in two spellings nor in one that hides what it is. -/
theorem gather_distinct_iff (locals reflections discovered : List SocketAddr) :
    Gathered (named locals reflections discovered) (gather locals reflections discovered) ↔
      OneSpelling (named locals reflections discovered) :=
  ⟨oneSpelling_of_gathered, gathered_of_oneSpelling⟩

end Gather

/-! ### A reflection in the mapped form -/

/-- The address of an interface, as the kernel names it. -/
def interfaceAddr : SocketAddr := ⟨.newV4 203 0 113 7, 4433⟩

/-- The same address, as a dual-stack gate saw it. -/
def reflectedAddr : SocketAddr :=
  ⟨.v6 ⟨IpAddr.mappedPrefix ++ [203, 0, 113, 7], rfl⟩, 4433⟩

/-- One address takes two of the sixteen places. -/
theorem gather_twice :
    ¬Gathered (named [interfaceAddr] [reflectedAddr] [])
      (gather [interfaceAddr] [reflectedAddr] []) := by
  intro gathered
  have twice : ¬((gather [interfaceAddr] [reflectedAddr] []).map fun entry =>
      unmapV4 entry.1).Nodup := by decide
  exact twice gathered.distinct

/-! ## Gathering again -/

/-- Gathering again keeps the first of what was offered, and adds what is new of what is
gathered now, while there is room. -/
theorem regather_keeps (original locals discovered : List SocketAddr) (reflection : SocketAddr) :
    ∃ more, regather original locals discovered reflection =
        original.take maxCandidates ++ more ∧
      more.Sublist ((gather locals [reflection] discovered).map Prod.fst) ∧
      (regather original locals discovered reflection).length ≤ maxCandidates := by
  obtain ⟨more, isMore, inside⟩ := collect_sublist id (fun _ => true) maxCandidates
    (original.take maxCandidates) ((gather locals [reflection] discovered).map Prod.fst)
  exact ⟨more, isMore, inside, length_collect_le (List.length_take_le _ _) _⟩

end Mosschat.Net
