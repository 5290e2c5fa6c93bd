import Mosschat.Library.Numeral
import Mosschat.Net.Addr

/-!
Owns the text form of a socket address, `Display` and `FromStr` of `std::net::SocketAddr`:
the decimal octets of an IPv4 address, the hexadecimal groups of an IPv6 one with its longest
run of zero groups left out or its IPv4 end written as such, the reader of both, and that it
reads back every address that is written.

Does not own the flow label and scope of an IPv6 address, of which the reader takes none.
-/

namespace Mosschat.Net

open Mosschat.Library.Numeral

/-! ## The groups of an IPv6 address -/

/-- `Ipv6Addr::segments`. -/
def segmentsOf : List UInt8 → List Nat
  | high :: low :: rest => (high.toNat * 256 + low.toNat) :: segmentsOf rest
  | _ => []

/-- The octets of the groups. -/
def octetsOf : List Nat → List UInt8
  | [] => []
  | segment :: rest =>
    UInt8.ofNat (segment / 256) :: UInt8.ofNat (segment % 256) :: octetsOf rest

/-- `Ipv6Addr::from`, of eight groups. -/
def ipv6OfSegments (segments : List Nat) : List.Vector UInt8 16 :=
  ⟨(octetsOf segments ++ List.replicate 16 0).take 16, by simp⟩

theorem octetsOf_segmentsOf_pair (high low : UInt8) (rest : List UInt8) :
    octetsOf (segmentsOf (high :: low :: rest)) = high :: low :: octetsOf (segmentsOf rest) := by
  have highSmall := high.toNat_lt
  have lowSmall := low.toNat_lt
  have isHigh : (high.toNat * 256 + low.toNat) / 256 = high.toNat := by omega
  have isLow : (high.toNat * 256 + low.toNat) % 256 = low.toNat := by omega
  rw [segmentsOf, octetsOf, isHigh, isLow, UInt8.ofNat_toNat, UInt8.ofNat_toNat]

theorem octetsOf_segmentsOf (count : Nat) (octets : List UInt8)
    (even : octets.length = 2 * count) :
    octetsOf (segmentsOf octets) = octets ∧ (segmentsOf octets).length = count ∧
      ∀ segment ∈ segmentsOf octets, segment < 2 ^ 16 := by
  induction count generalizing octets with
  | zero =>
      rw [List.length_eq_zero_iff.mp even]
      exact ⟨rfl, rfl, nofun⟩
  | succ count ih =>
      match octets, even with
      | high :: low :: rest, even =>
          rw [List.length_cons, List.length_cons] at even
          obtain ⟨back, length, small⟩ := ih rest (by omega)
          have highSmall := high.toNat_lt
          have lowSmall := low.toNat_lt
          refine ⟨?_, ?_, ?_⟩
          · rw [octetsOf_segmentsOf_pair, back]
          · rw [segmentsOf, List.length_cons, length]
          · intro segment inside
            rw [segmentsOf] at inside
            rcases List.mem_cons.mp inside with first | later
            · rw [first]
              omega
            · exact small segment later
      | [], even => cases even
      | [_], even =>
          rw [List.length_singleton] at even
          omega

theorem ipv6OfSegments_segmentsOf (octets : List.Vector UInt8 16) :
    ipv6OfSegments (segmentsOf octets.toList) = octets := by
  apply List.Vector.eq
  obtain ⟨back, _⟩ := octetsOf_segmentsOf 8 octets.toList octets.toList_length
  show (octetsOf (segmentsOf octets.toList) ++ List.replicate 16 0).take 16 = _
  rw [back]
  exact List.take_left' octets.toList_length

/-! ## Writing -/

/-- `Display` of `Ipv4Addr`. -/
def showIpv4 (first second third fourth : Nat) : List Char :=
  Nat.toDigits 10 first ++ '.' :: (Nat.toDigits 10 second ++ '.' ::
    (Nat.toDigits 10 third ++ '.' :: Nat.toDigits 10 fourth))

/-- The groups after the first, each behind a colon. -/
def showTail (segments : List Nat) : List Char :=
  segments.flatMap fun segment => ':' :: Nat.toDigits 16 segment

/-- `fmt_subslice`. -/
def showSegments : List Nat → List Char
  | [] => []
  | first :: tail => Nat.toDigits 16 first ++ showTail tail

/-- `Span`. -/
structure Span where
  start : Nat
  len : Nat

/-- The loop that finds the longest run of zero groups, the first of the longest. -/
def zeroSpan : List Nat → Nat → Span → Span → Span
  | [], _, longest, _ => longest
  | segment :: rest, index, longest, current =>
    if segment = 0 then
      let current : Span :=
        ⟨if current.len = 0 then index else current.start, current.len + 1⟩
      zeroSpan rest (index + 1) (if longest.len < current.len then current else longest) current
    else zeroSpan rest (index + 1) longest ⟨0, 0⟩

/-- `Display` of `Ipv6Addr`. -/
def showIpv6 (segments : List Nat) : List Char :=
  match segments with
  | [0, 0, 0, 0, 0, 0xffff, third, fourth] =>
    [':', ':', 'f', 'f', 'f', 'f', ':'] ++
      showIpv4 (third / 256) (third % 256) (fourth / 256) (fourth % 256)
  | _ =>
    let zeroes := zeroSpan segments 0 ⟨0, 0⟩ ⟨0, 0⟩
    if 1 < zeroes.len then
      showSegments (segments.take zeroes.start) ++ [':', ':'] ++
        showSegments (segments.drop (zeroes.start + zeroes.len))
    else showSegments segments

/-- `Display` of `SocketAddr`. -/
def showSocketAddr (addr : SocketAddr) : List Char :=
  match addr.ip with
  | .v4 octets =>
    let octets := IpAddr.octetsV4 octets
    showIpv4 octets.1.toNat octets.2.1.toNat octets.2.2.1.toNat octets.2.2.2.toNat ++
      ':' :: Nat.toDigits 10 addr.port.toNat
  | .v6 octets =>
    '[' :: (showIpv6 (segmentsOf octets.toList) ++ [']', ':'] ++ Nat.toDigits 10 addr.port.toNat)

/-! ## Reading -/

/-- `read_given_char`. -/
def readGivenChar (wanted : Char) : List Char → Option (List Char)
  | [] => none
  | char :: rest => if char = wanted then some rest else none

/-- `read_separator`: every part after the first stands behind a separator. -/
def readSeparator {α : Type} (separator : Char) (index : Nat)
    (inner : List Char → Option (α × List Char)) (text : List Char) : Option (α × List Char) :=
  if 0 < index then (readGivenChar separator text).bind inner else inner text

/-- One part of `read_ipv4_addr`. -/
def readOctet : List Char → Option (Nat × List Char) := readNumber 10 (some 3) false 256

/-- `read_ipv4_addr`. -/
def readIpv4 (text : List Char) : Option ((Nat × Nat × Nat × Nat) × List Char) := do
  let (first, text) ← readOctet text
  let text ← readGivenChar '.' text
  let (second, text) ← readOctet text
  let text ← readGivenChar '.' text
  let (third, text) ← readOctet text
  let text ← readGivenChar '.' text
  let (fourth, text) ← readOctet text
  pure ((first, second, third, fourth), text)

/-- One group of `read_ipv6_addr`. -/
def readGroup : List Char → Option (Nat × List Char) := readNumber 16 (some 4) true (2 ^ 16)

/-- `read_groups`: the groups read, whether an IPv4 address ended them, and the rest of the
text. There are `remaining` of them to read, from the one at `index` on. -/
def readGroups : Nat → Nat → List Char → List Nat × Bool × List Char
  | 0, _, text => ([], false, text)
  | remaining + 1, index, text =>
    match if 0 < remaining then readSeparator ':' index readIpv4 text else none with
    | some ((one, two, three, four), rest) => ([one * 256 + two, three * 256 + four], true, rest)
    | none =>
      match readSeparator ':' index readGroup text with
      | none => ([], false, text)
      | some (group, rest) =>
        let (groups, ipv4, rest) := readGroups remaining (index + 1) rest
        (group :: groups, ipv4, rest)

/-- `read_ipv6_addr`. -/
def readIpv6 (text : List Char) : Option (List Nat × List Char) :=
  let (head, headIpv4, text) := readGroups 8 0 text
  if head.length = 8 then some (head, text)
  else if headIpv4 then none
  else do
    let text ← readGivenChar ':' text
    let text ← readGivenChar ':' text
    let (tail, _, text) := readGroups (8 - (head.length + 1)) 0 text
    pure (head ++ List.replicate (8 - head.length - tail.length) 0 ++ tail, text)

/-- `read_port`. -/
def readPort (text : List Char) : Option (Nat × List Char) :=
  (readGivenChar ':' text).bind (readNumber 10 none true (2 ^ 16))

/-- `read_scope_id`, and no scope where there is none. -/
def skipScopeId (text : List Char) : List Char :=
  match (readGivenChar '%' text).bind (readNumber 10 none true (2 ^ 32)) with
  | some (_, rest) => rest
  | none => text

/-- `read_socket_addr_v4`. -/
def readSocketAddrV4 (text : List Char) : Option (SocketAddr × List Char) := do
  let ((first, second, third, fourth), text) ← readIpv4 text
  let (port, text) ← readPort text
  let octet (value : Nat) : UInt8 := UInt8.ofNat value
  pure (⟨.v4 ⟨[octet first, octet second, octet third, octet fourth], rfl⟩, UInt16.ofNat port⟩,
    text)

/-- `read_socket_addr_v6`. -/
def readSocketAddrV6 (text : List Char) : Option (SocketAddr × List Char) := do
  let text ← readGivenChar '[' text
  let (segments, text) ← readIpv6 text
  let text ← readGivenChar ']' (skipScopeId text)
  let (port, text) ← readPort text
  pure (⟨.v6 (ipv6OfSegments segments), UInt16.ofNat port⟩, text)

/-- `FromStr` of `SocketAddr`. -/
def parseSocketAddr (text : List Char) : Option SocketAddr :=
  match (readSocketAddrV4 text).or (readSocketAddrV6 text) with
  | some (addr, []) => some addr
  | _ => none

/-! ## What stands in the way of a read -/

/-- The text does not go on with a digit. -/
def Stops (radix : Nat) (text : List Char) : Prop :=
  ∀ char ∈ text.head?, toDigit radix char = none

theorem stops_nil (radix : Nat) : Stops radix [] := nofun

theorem stops_cons {radix : Nat} {char : Char} {rest : List Char}
    (noDigit : toDigit radix char = none) : Stops radix (char :: rest) := by
  intro other isHead
  rw [← Option.some.inj isHead]
  exact noDigit

theorem readGivenChar_self (char : Char) (rest : List Char) :
    readGivenChar char (char :: rest) = some rest := if_pos rfl

/-- A text read is a part of the text. -/
theorem takeDigits_suffix (radix : Nat) (text : List Char) : (takeDigits radix text).2 <:+ text := by
  induction text with
  | nil => exact List.suffix_refl []
  | cons char rest ih =>
      rw [takeDigits]
      split
      · exact ih.trans (List.suffix_cons char rest)
      · exact List.suffix_refl _

theorem readNumber_suffix {radix bound number : Nat} {maxDigits : Option Nat}
    {allowZeroPrefix : Bool} {text rest : List Char}
    (read : readNumber radix maxDigits allowZeroPrefix bound text = some (number, rest)) :
    rest <:+ text := by
  unfold readNumber at read
  simp only at read
  split_ifs at read
  cases read
  exact takeDigits_suffix radix text

/-- No IPv4 address is read where there is no dot. -/
theorem readIpv4_eq_none {text : List Char} (noDot : '.' ∉ text) : readIpv4 text = none := by
  unfold readIpv4
  cases read : readOctet text with
  | none => rfl
  | some pair =>
      obtain ⟨first, rest⟩ := pair
      have inside := readNumber_suffix read
      have stuck : readGivenChar '.' rest = none := by
        cases rest with
        | nil => rfl
        | cons char others =>
            apply if_neg
            intro isDot
            apply noDot
            rw [← isDot]
            exact inside.subset List.mem_cons_self
      show (readGivenChar '.' rest).bind _ = none
      rw [stuck]
      rfl

theorem not_dot_of_toDigits (number : Nat) {radix : Nat} (base : 1 < radix) (atMost : radix ≤ 16) :
    '.' ∉ Nat.toDigits radix number := not_mem_toDigits base atMost (by decide) number

theorem not_dot_of_showTail (segments : List Nat) : '.' ∉ showTail segments := by
  intro found
  obtain ⟨segment, _, inside⟩ := List.mem_flatMap.mp found
  rcases List.mem_cons.mp inside with isColon | isDigit
  · exact absurd isColon (by decide)
  · exact not_dot_of_toDigits segment (by decide) (by decide) isDigit

theorem not_dot_of_showSegments (segments : List Nat) : '.' ∉ showSegments segments := by
  cases segments with
  | nil => exact List.not_mem_nil
  | cons first tail =>
      intro found
      rcases List.mem_append.mp found with inFirst | inTail
      · exact not_dot_of_toDigits first (by decide) (by decide) inFirst
      · exact not_dot_of_showTail tail inTail

/-! ## Reading back -/

theorem readOctet_toDigits {octet : Nat} (small : octet < 256) {rest : List Char}
    (stops : Stops 10 rest) : readOctet (Nat.toDigits 10 octet ++ rest) = some (octet, rest) := by
  refine readNumber_toDigits (by decide) (by decide) small ?_ stops
  intro most isMost
  rw [← Option.some.inj isMost]
  exact (Nat.length_toDigits_le_iff (by decide) (by decide)).mpr (by omega)

theorem readGroup_toDigits {segment : Nat} (small : segment < 2 ^ 16) {rest : List Char}
    (stops : Stops 16 rest) :
    readGroup (Nat.toDigits 16 segment ++ rest) = some (segment, rest) := by
  refine readNumber_toDigits (by decide) (by decide) small ?_ stops
  intro most isMost
  rw [← Option.some.inj isMost]
  exact (Nat.length_toDigits_le_iff (by decide) (by decide)).mpr (by omega)

theorem readPort_toDigits (port : UInt16) :
    readPort (':' :: Nat.toDigits 10 port.toNat) = some (port.toNat, []) := by
  have read : readNumber 10 none true (2 ^ 16) (Nat.toDigits 10 port.toNat ++ []) =
      some (port.toNat, []) :=
    readNumber_toDigits (by decide) (by decide) port.toNat_lt nofun (stops_nil 10)
  rw [List.append_nil] at read
  exact read

theorem readIpv4_showIpv4 {first second third fourth : Nat} (firstSmall : first < 256)
    (secondSmall : second < 256) (thirdSmall : third < 256) (fourthSmall : fourth < 256)
    {rest : List Char} (stops : Stops 10 rest) :
    readIpv4 (showIpv4 first second third fourth ++ rest) =
      some ((first, second, third, fourth), rest) := by
  have dot : ∀ others, Stops 10 ('.' :: others) := fun others => stops_cons (by decide)
  unfold readIpv4 showIpv4
  simp only [List.append_assoc, List.cons_append]
  rw [readOctet_toDigits firstSmall (dot _)]
  simp only [Option.bind_eq_bind, Option.bind_some, readGivenChar_self]
  rw [readOctet_toDigits secondSmall (dot _)]
  simp only [Option.bind_some, readGivenChar_self]
  rw [readOctet_toDigits thirdSmall (dot _)]
  simp only [Option.bind_some, readGivenChar_self]
  rw [readOctet_toDigits fourthSmall stops]
  rfl

/-- Where the next group would stand there is none. -/
structure Closes (rest : List Char) : Prop where
  stops : Stops 16 rest
  noDot : '.' ∉ rest
  noGroup : ∀ others, rest = ':' :: others → Stops 16 others

theorem Closes.readSeparator_eq_none {rest : List Char} (closes : Closes rest) (index : Nat) :
    readSeparator ':' index readGroup rest = none := by
  unfold readSeparator
  split
  · cases rest with
    | nil => rfl
    | cons char others =>
        by_cases isColon : char = ':'
        · rw [isColon, readGivenChar_self]
          exact readNumber_eq_none (closes.noGroup others (by rw [isColon]))
        · have stuck : readGivenChar ':' (char :: others) = none := if_neg isColon
          rw [stuck]
          rfl
  · exact readNumber_eq_none closes.stops

theorem readSeparator_ipv4_eq_none {text : List Char} (noDot : '.' ∉ text) (index : Nat) :
    readSeparator ':' index readIpv4 text = none := by
  unfold readSeparator
  split
  · cases text with
    | nil => rfl
    | cons char others =>
        by_cases isColon : char = ':'
        · rw [isColon, readGivenChar_self]
          exact readIpv4_eq_none fun inside => noDot (List.mem_cons_of_mem char inside)
        · have stuck : readGivenChar ':' (char :: others) = none := if_neg isColon
          rw [stuck]
          rfl
  · exact readIpv4_eq_none noDot

theorem readGroups_closed {rest : List Char} (closes : Closes rest) (remaining index : Nat) :
    readGroups remaining index rest = ([], false, rest) := by
  cases remaining with
  | zero => rfl
  | succ remaining =>
      rw [readGroups, readSeparator_ipv4_eq_none closes.noDot, closes.readSeparator_eq_none, ite_self]

/-- A group with no dot after it is read as a group. -/
theorem readGroups_group {remaining index segment : Nat} {text rest : List Char}
    (noDot : '.' ∉ text) (read : readSeparator ':' index readGroup text = some (segment, rest)) :
    readGroups (remaining + 1) index text =
      (segment :: (readGroups remaining (index + 1) rest).1,
        (readGroups remaining (index + 1) rest).2) := by
  rw [readGroups, readSeparator_ipv4_eq_none noDot, read, ite_self]

theorem stops_showTail {segments : List Nat} {rest : List Char} (closes : Closes rest) :
    Stops 16 (showTail segments ++ rest) := by
  cases segments with
  | nil => exact closes.stops
  | cons segment others => exact stops_cons (by decide)

theorem readGroups_showTail {segments : List Nat} {remaining index : Nat} {rest : List Char}
    (small : ∀ segment ∈ segments, segment < 2 ^ 16) (room : segments.length ≤ remaining)
    (further : 0 < index) (closes : Closes rest) :
    readGroups remaining index (showTail segments ++ rest) = (segments, false, rest) := by
  induction segments generalizing remaining index with
  | nil => exact readGroups_closed closes remaining index
  | cons segment others ih =>
      obtain ⟨remaining, rfl⟩ : ∃ fewer, remaining = fewer + 1 := ⟨remaining - 1, by
        rw [List.length_cons] at room
        omega⟩
      have noDot : '.' ∉ showTail (segment :: others) ++ rest := by
        intro found
        exact (List.mem_append.mp found).elim (not_dot_of_showTail _) closes.noDot
      have isText : showTail (segment :: others) ++ rest =
          ':' :: (Nat.toDigits 16 segment ++ (showTail others ++ rest)) := by
        show (':' :: Nat.toDigits 16 segment ++ showTail others) ++ rest = _
        rw [List.cons_append, List.cons_append, List.append_assoc]
      have read : readSeparator ':' index readGroup (showTail (segment :: others) ++ rest) =
          some (segment, showTail others ++ rest) := by
        rw [isText, readSeparator, if_pos further, readGivenChar_self]
        exact readGroup_toDigits (small segment List.mem_cons_self) (stops_showTail closes)
      rw [List.length_cons] at room
      have tail : readGroups remaining (index + 1) (showTail others ++ rest) =
          (others, false, rest) := by
        apply ih
        · exact fun other inside => small other (List.mem_cons_of_mem segment inside)
        · omega
        · exact Nat.succ_pos index
      rw [readGroups_group noDot read, tail]

/-- Every group that is written is read back, up to where there is none. -/
theorem readGroups_showSegments {segments : List Nat} {remaining : Nat} {rest : List Char}
    (small : ∀ segment ∈ segments, segment < 2 ^ 16) (room : segments.length ≤ remaining)
    (closes : Closes rest) :
    readGroups remaining 0 (showSegments segments ++ rest) = (segments, false, rest) := by
  cases segments with
  | nil => exact readGroups_closed closes remaining 0
  | cons segment others =>
      obtain ⟨remaining, rfl⟩ : ∃ fewer, remaining = fewer + 1 := ⟨remaining - 1, by
        rw [List.length_cons] at room
        omega⟩
      have noDot : '.' ∉ showSegments (segment :: others) ++ rest := by
        intro found
        exact (List.mem_append.mp found).elim (not_dot_of_showSegments _) closes.noDot
      have read : readSeparator ':' 0 readGroup (showSegments (segment :: others) ++ rest) =
          some (segment, showTail others ++ rest) := by
        rw [readSeparator, if_neg (Nat.lt_irrefl 0), showSegments, List.append_assoc]
        exact readGroup_toDigits (small segment List.mem_cons_self) (stops_showTail closes)
      rw [List.length_cons] at room
      have tail : readGroups remaining (0 + 1) (showTail others ++ rest) =
          (others, false, rest) := by
        apply readGroups_showTail
        · exact fun other inside => small other (List.mem_cons_of_mem segment inside)
        · omega
        · exact Nat.one_pos
        · exact closes
      rw [readGroups_group noDot read, tail]

/-! ### The run of zero groups -/

/-- The span is a run of zeroes of the list. -/
def Zeroes (list : List Nat) (span : Span) : Prop :=
  ∃ before after, list = before ++ List.replicate span.len 0 ++ after ∧ before.length = span.start

theorem Zeroes.append {list : List Nat} {span : Span} (zeroes : Zeroes list span)
    (more : List Nat) : Zeroes (list ++ more) span := by
  obtain ⟨before, after, isList, isStart⟩ := zeroes
  refine ⟨before, after ++ more, ?_, isStart⟩
  rw [isList, List.append_assoc _ after]

/-- Once `front` was looked at, `current` is the run of zeroes it ends in. -/
theorem zeroes_zeroSpan (rest front : List Nat) (longest current : Span)
    (found : Zeroes front longest)
    (ends : ∃ before, front = before ++ List.replicate current.len 0 ∧
      (0 < current.len → before.length = current.start)) :
    Zeroes (front ++ rest) (zeroSpan rest front.length longest current) := by
  induction rest generalizing front longest current with
  | nil =>
      rw [List.append_nil]
      exact found
  | cons segment rest ih =>
      have regroup : front ++ segment :: rest = front ++ [segment] ++ rest := by
        rw [List.append_assoc]
        rfl
      have length : front.length + 1 = (front ++ [segment]).length := by
        rw [List.length_append, List.length_singleton]
      rw [zeroSpan, regroup, length]
      split
      · next isZero =>
          obtain ⟨before, isFront, isStart⟩ := ends
          let longer : Span :=
            ⟨if current.len = 0 then front.length else current.start, current.len + 1⟩
          have grown : front ++ [segment] = before ++ List.replicate longer.len 0 := by
            rw [isFront, isZero, List.append_assoc, List.replicate_succ']
          have starts : before.length = longer.start := by
            show before.length = if current.len = 0 then front.length else current.start
            split
            · next empty =>
                rw [isFront, empty, List.replicate_zero, List.append_nil]
            · next some => exact isStart (Nat.pos_of_ne_zero some)
          have isRun : Zeroes (front ++ [segment]) longer := by
            refine ⟨before, [], ?_, starts⟩
            rw [List.append_nil]
            exact grown
          apply ih
          · show Zeroes _ (if longest.len < longer.len then longer else longest)
            split
            · exact isRun
            · exact found.append [segment]
          · exact ⟨before, grown, fun _ => starts⟩
      · apply ih
        · exact found.append [segment]
        · exact ⟨front ++ [segment], (List.append_nil _).symm, fun none => absurd none (Nat.lt_irrefl 0)⟩

/-- The groups are those before the run, the run and those after it. -/
theorem zeroSpan_parts (segments : List Nat) :
    let span := zeroSpan segments 0 ⟨0, 0⟩ ⟨0, 0⟩
    segments.take span.start ++ List.replicate span.len 0 ++
        segments.drop (span.start + span.len) = segments ∧
      span.start + span.len ≤ segments.length := by
  intro span
  have zeroes : Zeroes segments span := by
    apply zeroes_zeroSpan segments [] ⟨0, 0⟩ ⟨0, 0⟩
    · exact ⟨[], [], rfl, rfl⟩
    · exact ⟨[], rfl, fun _ => rfl⟩
  obtain ⟨before, after, isList, isStart⟩ := zeroes
  have length : (before ++ List.replicate span.len 0).length = span.start + span.len := by
    rw [List.length_append, List.length_replicate, isStart]
  have isTake : segments.take span.start = before := by
    rw [isList, List.append_assoc]
    exact List.take_left' isStart
  have isDrop : segments.drop (span.start + span.len) = after := by
    rw [isList]
    exact List.drop_left' length
  rw [isTake, isDrop]
  refine ⟨isList.symm, ?_⟩
  rw [isList, List.length_append, length]
  exact Nat.le_add_right _ _

/-! ### A whole address -/

/-- Between the brackets and the port there is no group and no dot. -/
theorem closes_bracket (port : UInt16) : Closes (']' :: ':' :: Nat.toDigits 10 port.toNat) where
  stops := stops_cons (by decide)
  noDot := by
    intro found
    rcases List.mem_cons.mp found with isBracket | later
    · exact absurd isBracket (by decide)
    · rcases List.mem_cons.mp later with isColon | isDigit
      · exact absurd isColon (by decide)
      · exact not_dot_of_toDigits _ (by decide) (by decide) isDigit
  noGroup := by
    intro others isColon
    cases isColon

theorem closes_colons {rest : List Char} (noDot : '.' ∉ rest) : Closes (':' :: ':' :: rest) where
  stops := stops_cons (by decide)
  noDot := by
    intro found
    rcases List.mem_cons.mp found with isColon | later
    · exact absurd isColon (by decide)
    · rcases List.mem_cons.mp later with isColon | inside
      · exact absurd isColon (by decide)
      · exact noDot inside
  noGroup := by
    intro others isColon
    injection isColon with _ isOthers
    rw [← isOthers]
    exact stops_cons (by decide)

/-- An address whose end is written as an IPv4 address. -/
theorem readIpv6_mapped {third fourth : Nat} (thirdSmall : third < 2 ^ 16)
    (fourthSmall : fourth < 2 ^ 16) {rest : List Char} (stops : Stops 10 rest) :
    readIpv6 ([':', ':', 'f', 'f', 'f', 'f', ':'] ++
        showIpv4 (third / 256) (third % 256) (fourth / 256) (fourth % 256) ++ rest) =
      some ([0, 0, 0, 0, 0, 0xffff, third, fourth], rest) := by
  have thirdParts := Nat.div_add_mod' third 256
  have fourthParts := Nat.div_add_mod' fourth 256
  let address := showIpv4 (third / 256) (third % 256) (fourth / 256) (fourth % 256) ++ rest
  have isAddress : readIpv4 address =
      some ((third / 256, third % 256, fourth / 256, fourth % 256), rest) :=
    readIpv4_showIpv4 (by omega) (by omega) (by omega) (by omega) stops
  have readEnd : readGroups 6 1 (':' :: address) = ([third, fourth], true, rest) := by
    have trial : readSeparator ':' 1 readIpv4 (':' :: address) =
        some ((third / 256, third % 256, fourth / 256, fourth % 256), rest) := isAddress
    rw [readGroups, if_pos (by decide), trial]
    simp only
    rw [thirdParts, fourthParts]
  have readTail : readGroups 7 0 ('f' :: 'f' :: 'f' :: 'f' :: ':' :: address) =
      ([0xffff, third, fourth], true, rest) := by
    have noIpv4 : readSeparator ':' 0 readIpv4 ('f' :: 'f' :: 'f' :: 'f' :: ':' :: address) =
        none := by
      have noOctet : readOctet ('f' :: 'f' :: 'f' :: 'f' :: ':' :: address) = none :=
        readNumber_eq_none (stops_cons (by decide))
      rw [readSeparator, if_neg (Nat.lt_irrefl 0), readIpv4, noOctet]
      rfl
    have group : readSeparator ':' 0 readGroup ('f' :: 'f' :: 'f' :: 'f' :: ':' :: address) =
        some (0xffff, ':' :: address) := by
      have isNumeral : Nat.toDigits 16 0xffff = ['f', 'f', 'f', 'f'] := by decide
      have read : readGroup (Nat.toDigits 16 0xffff ++ ':' :: address) =
          some (0xffff, ':' :: address) :=
        readGroup_toDigits (by decide) (stops_cons (by decide))
      rw [isNumeral] at read
      exact read
    rw [readGroups, noIpv4, group, ite_self]
    simp only
    rw [readEnd]
  have readHead : readGroups 8 0 (':' :: ':' :: 'f' :: 'f' :: 'f' :: 'f' :: ':' :: address) =
      ([], false, ':' :: ':' :: 'f' :: 'f' :: 'f' :: 'f' :: ':' :: address) := by
    have noIpv4 : readSeparator ':' 0 readIpv4
        (':' :: ':' :: 'f' :: 'f' :: 'f' :: 'f' :: ':' :: address) = none := by
      have noOctet : readOctet (':' :: ':' :: 'f' :: 'f' :: 'f' :: 'f' :: ':' :: address) = none :=
        readNumber_eq_none (stops_cons (by decide))
      rw [readSeparator, if_neg (Nat.lt_irrefl 0), readIpv4, noOctet]
      rfl
    have noGroup : readSeparator ':' 0 readGroup
        (':' :: ':' :: 'f' :: 'f' :: 'f' :: 'f' :: ':' :: address) = none := by
      rw [readSeparator, if_neg (Nat.lt_irrefl 0)]
      exact readNumber_eq_none (stops_cons (by decide))
    rw [readGroups, noIpv4, noGroup, ite_self]
  have isText : [':', ':', 'f', 'f', 'f', 'f', ':'] ++
      showIpv4 (third / 256) (third % 256) (fourth / 256) (fourth % 256) ++ rest =
        ':' :: ':' :: 'f' :: 'f' :: 'f' :: 'f' :: ':' :: address := by
    rw [List.append_assoc]
    rfl
  rw [isText, readIpv6, readHead]
  simp only [List.length_nil, Nat.zero_add]
  rw [if_neg (by decide), if_neg Bool.false_ne_true, readGivenChar_self]
  simp only [Option.bind_eq_bind, Option.bind_some]
  rw [readGivenChar_self]
  simp only [Option.bind_some]
  rw [readTail]
  rfl

/-- An address that is written in groups, its run of zeroes `zeroes` left out. -/
theorem readIpv6_segments {segments : List Nat} (eight : segments.length = 8)
    (small : ∀ segment ∈ segments, segment < 2 ^ 16) {rest : List Char} (closes : Closes rest)
    {zeroes : Span} (within : zeroes.start + zeroes.len ≤ segments.length)
    (parts : segments.take zeroes.start ++ List.replicate zeroes.len 0 ++
      segments.drop (zeroes.start + zeroes.len) = segments) :
    readIpv6 ((if 1 < zeroes.len then
        showSegments (segments.take zeroes.start) ++ [':', ':'] ++
          showSegments (segments.drop (zeroes.start + zeroes.len))
      else showSegments segments) ++ rest) = some (segments, rest) := by
  rw [eight] at within
  split
  · next long =>
      have headLength : (segments.take zeroes.start).length = zeroes.start := by
        rw [List.length_take]
        omega
      have tailLength : (segments.drop (zeroes.start + zeroes.len)).length =
          8 - (zeroes.start + zeroes.len) := by
        rw [List.length_drop, eight]
      have noDot : '.' ∉ showSegments (segments.drop (zeroes.start + zeroes.len)) ++ rest := by
        intro found
        exact (List.mem_append.mp found).elim (not_dot_of_showSegments _) closes.noDot
      have isText : showSegments (segments.take zeroes.start) ++ [':', ':'] ++
          showSegments (segments.drop (zeroes.start + zeroes.len)) ++ rest =
            showSegments (segments.take zeroes.start) ++
              ':' :: ':' :: (showSegments (segments.drop (zeroes.start + zeroes.len)) ++ rest) := by
        rw [List.append_assoc, List.append_assoc]
        rfl
      have readHead := readGroups_showSegments
        (fun segment inside => small segment (List.mem_of_mem_take inside))
        (show (segments.take zeroes.start).length ≤ 8 by omega) (closes_colons noDot)
      have readTail := readGroups_showSegments
        (fun segment inside => small segment (List.mem_of_mem_drop inside))
        (show (segments.drop (zeroes.start + zeroes.len)).length ≤ 8 - (zeroes.start + 1) by omega)
        closes
      have gap : 8 - zeroes.start - (8 - (zeroes.start + zeroes.len)) = zeroes.len := by omega
      rw [isText, readIpv6, readHead]
      simp only [headLength]
      rw [if_neg (by omega), if_neg Bool.false_ne_true, readGivenChar_self]
      simp only [Option.bind_eq_bind, Option.bind_some]
      rw [readGivenChar_self]
      simp only [Option.bind_some]
      rw [readTail]
      simp only [tailLength, gap]
      rw [parts]
      rfl
  · have read := readGroups_showSegments small (Nat.le_of_eq eight) closes
    rw [readIpv6, read]
    simp only
    rw [if_pos eight]

theorem readIpv6_showIpv6 (octets : List.Vector UInt8 16) (port : UInt16) :
    readIpv6 (showIpv6 (segmentsOf octets.toList) ++ ']' :: ':' :: Nat.toDigits 10 port.toNat) =
      some (segmentsOf octets.toList, ']' :: ':' :: Nat.toDigits 10 port.toNat) := by
  obtain ⟨_, eight, small⟩ := octetsOf_segmentsOf 8 octets.toList octets.toList_length
  unfold showIpv6
  split
  · next third fourth isMapped =>
      rw [isMapped] at small ⊢
      apply readIpv6_mapped
      · exact small third (by simp)
      · exact small fourth (by simp)
      · exact stops_cons (by decide)
  · obtain ⟨parts, within⟩ := zeroSpan_parts (segmentsOf octets.toList)
    exact readIpv6_segments eight small (closes_bracket port) within parts

theorem readSocketAddrV4_showSocketAddr (octets : List.Vector UInt8 4) (port : UInt16) :
    readSocketAddrV4 (showSocketAddr ⟨.v4 octets, port⟩) = some (⟨.v4 octets, port⟩, []) := by
  have small : ∀ index, (octets.get index).toNat < 256 := fun index => (octets.get index).toNat_lt
  have isPort : Stops 10 (':' :: Nat.toDigits 10 port.toNat) := stops_cons (by decide)
  have isOctets : (⟨[octets.get 0, octets.get 1, octets.get 2, octets.get 3], rfl⟩ :
      List.Vector UInt8 4) = octets := by
    apply List.Vector.ext
    intro index
    match index with
    | 0 => rfl
    | 1 => rfl
    | 2 => rfl
    | 3 => rfl
  have isText : showSocketAddr ⟨.v4 octets, port⟩ =
      showIpv4 (octets.get 0).toNat (octets.get 1).toNat (octets.get 2).toNat
        (octets.get 3).toNat ++ ':' :: Nat.toDigits 10 port.toNat := rfl
  unfold readSocketAddrV4
  rw [isText]
  rw [readIpv4_showIpv4 (small 0) (small 1) (small 2) (small 3) isPort]
  simp only [Option.bind_eq_bind, Option.bind_some]
  rw [readPort_toDigits]
  simp only [Option.bind_some, UInt8.ofNat_toNat, UInt16.ofNat_toNat]
  rw [isOctets]
  rfl

theorem readSocketAddrV6_showSocketAddr (octets : List.Vector UInt8 16) (port : UInt16) :
    readSocketAddrV6 (showSocketAddr ⟨.v6 octets, port⟩) = some (⟨.v6 octets, port⟩, []) := by
  have isText : showSocketAddr ⟨.v6 octets, port⟩ =
      '[' :: (showIpv6 (segmentsOf octets.toList) ++ ']' :: ':' :: Nat.toDigits 10 port.toNat) := by
    show '[' :: (showIpv6 (segmentsOf octets.toList) ++ [']', ':'] ++
      Nat.toDigits 10 port.toNat) = _
    rw [List.append_assoc]
    rfl
  have noScope : skipScopeId (']' :: ':' :: Nat.toDigits 10 port.toNat) =
      ']' :: ':' :: Nat.toDigits 10 port.toNat := rfl
  unfold readSocketAddrV6
  rw [isText, readGivenChar_self]
  simp only [Option.bind_eq_bind, Option.bind_some]
  rw [readIpv6_showIpv6]
  simp only [Option.bind_some]
  rw [noScope, readGivenChar_self]
  simp only [Option.bind_some]
  rw [readPort_toDigits]
  simp only [Option.bind_some, UInt16.ofNat_toNat]
  rw [ipv6OfSegments_segmentsOf]
  rfl

/-- A text that does not begin with a digit is no IPv4 address. -/
theorem readSocketAddrV4_eq_none {text : List Char} (stops : Stops 10 text) :
    readSocketAddrV4 text = none := by
  have noOctet : readOctet text = none := readNumber_eq_none stops
  rw [readSocketAddrV4, readIpv4, noOctet]
  rfl

/-- An address that is written is read back. -/
theorem parseSocketAddr_showSocketAddr (addr : SocketAddr) :
    parseSocketAddr (showSocketAddr addr) = some addr := by
  obtain ⟨ip, port⟩ := addr
  cases ip with
  | v4 octets =>
      rw [parseSocketAddr, readSocketAddrV4_showSocketAddr]
      rfl
  | v6 octets =>
      have notV4 : readSocketAddrV4 (showSocketAddr ⟨.v6 octets, port⟩) = none :=
        readSocketAddrV4_eq_none (stops_cons (by decide))
      rw [parseSocketAddr, notV4, readSocketAddrV6_showSocketAddr]
      rfl

/-- A text that begins with neither a digit nor a bracket is no address. -/
theorem parseSocketAddr_eq_none {char : Char} {rest : List Char}
    (noDigit : toDigit 10 char = none) (noBracket : char ≠ '[') :
    parseSocketAddr (char :: rest) = none := by
  have notV6 : readSocketAddrV6 (char :: rest) = none := by
    have stuck : readGivenChar '[' (char :: rest) = none := if_neg noBracket
    rw [readSocketAddrV6, stuck]
    rfl
  rw [parseSocketAddr, readSocketAddrV4_eq_none (stops_cons noDigit), notV6]
  rfl

example : showSocketAddr ⟨.v6 ⟨[0x20, 1, 0xd, 0xb8, 0, 0, 0, 0, 0, 0, 0, 0, 0, 0, 0, 1], rfl⟩, 443⟩ =
    "[2001:db8::1]:443".toList := by decide

end Mosschat.Net
