import Mathlib.Data.List.Basic

/-!
Owns numerals: the digits a character can be, the longest run of digits a text begins with,
the reader that bounds a run by its length and its value, and that it reads back what
`Nat.toDigits` writes; and the cuts of a text at a separator.

Does not own signs and fractions.
-/

namespace Mosschat.Library.Numeral

/-! ## Digits -/

/-- The value of a letter or digit, below 36. -/
def digitValue (char : Char) : Option Nat :=
  if '0' ≤ char ∧ char ≤ '9' then some (char.toNat - '0'.toNat)
  else if 'a' ≤ char ∧ char ≤ 'z' then some (char.toNat - 'a'.toNat + 10)
  else if 'A' ≤ char ∧ char ≤ 'Z' then some (char.toNat - 'A'.toNat + 10)
  else none

/-- `char::to_digit`. -/
def toDigit (radix : Nat) (char : Char) : Option Nat :=
  (digitValue char).filter fun value => decide (value < radix)

/-- The longest run of digits a text begins with, and what is left of the text. -/
def takeDigits (radix : Nat) : List Char → List Nat × List Char
  | [] => ([], [])
  | char :: rest =>
    match toDigit radix char with
    | some digit => (digit :: (takeDigits radix rest).1, (takeDigits radix rest).2)
    | none => ([], char :: rest)

/-- What digits are worth, the most significant first. -/
def value (radix : Nat) (digits : List Nat) : Nat :=
  digits.foldl (fun total digit => total * radix + digit) 0

theorem value_concat (radix : Nat) (digits : List Nat) (digit : Nat) :
    value radix (digits ++ [digit]) = value radix digits * radix + digit := by
  rw [value, List.foldl_append]
  rfl

theorem digitValue_digitChar {digit : Nat} (small : digit < 16) :
    digitValue (Nat.digitChar digit) = some digit := by
  have all : ∀ digit < 16, digitValue (Nat.digitChar digit) = some digit := by decide
  exact all digit small

theorem toDigit_digitChar {radix digit : Nat} (atMost : radix ≤ 16) (below : digit < radix) :
    toDigit radix (Nat.digitChar digit) = some digit := by
  rw [toDigit, digitValue_digitChar (Nat.lt_of_lt_of_le below atMost)]
  simp [below]

/-- Digits that are written are taken, up to what does not go on with a digit. -/
theorem takeDigits_map {radix : Nat} (atMost : radix ≤ 16) (digits : List Nat)
    (below : ∀ digit ∈ digits, digit < radix) {rest : List Char}
    (stops : ∀ char ∈ rest.head?, toDigit radix char = none) :
    takeDigits radix (digits.map Nat.digitChar ++ rest) = (digits, rest) := by
  induction digits with
  | nil =>
      cases rest with
      | nil => rfl
      | cons char others =>
          have isNone : toDigit radix char = none := stops char rfl
          show takeDigits radix (char :: others) = _
          rw [takeDigits, isNone]
  | cons digit others ih =>
      have isDigit := toDigit_digitChar atMost (below digit List.mem_cons_self)
      have tail := ih fun other inside => below other (List.mem_cons_of_mem _ inside)
      show takeDigits radix (Nat.digitChar digit :: (others.map Nat.digitChar ++ rest)) = _
      rw [takeDigits, isDigit]
      simp only
      rw [tail]

/-- A number is written with the digits it is worth, without a zero in front. -/
theorem toDigits_eq_map {radix : Nat} (base : 1 < radix) (number : Nat) :
    ∃ digits : List Nat, Nat.toDigits radix number = digits.map Nat.digitChar ∧
      (∀ digit ∈ digits, digit < radix) ∧ value radix digits = number ∧
        (0 < number → digits.head? ≠ some 0) := by
  induction number using Nat.strongRecOn with
  | ind number ih =>
      rw [Nat.toDigits_eq_if base]
      split
      · next small =>
          refine ⟨[number], rfl, ?_, ?_, ?_⟩
          · intro digit inside
            rw [List.mem_singleton.mp inside]
            exact small
          · show 0 * radix + number = number
            omega
          · intro positive isZero
            have zero : number = 0 := Option.some.inj isZero
            omega
      · next large =>
          have positive : 0 < number / radix := Nat.div_pos (by omega) (by omega)
          have shorter : number / radix < number := Nat.div_lt_self (by omega) base
          obtain ⟨digits, isMap, below, isValue, leading⟩ := ih _ shorter
          have last : number % radix < radix := Nat.mod_lt _ (by omega)
          refine ⟨digits ++ [number % radix], ?_, ?_, ?_, ?_⟩
          · rw [isMap, List.map_append]
            rfl
          · intro digit inside
            rcases List.mem_append.mp inside with before | isLast
            · exact below digit before
            · rw [List.mem_singleton.mp isLast]
              exact last
          · rw [value_concat, isValue, Nat.mul_comm]
            exact Nat.div_add_mod number radix
          · intro _
            cases digits with
            | nil =>
                rw [← isValue] at positive
                exact absurd positive (Nat.lt_irrefl 0)
            | cons first others => exact leading positive

/-- A character that is no digit is in no number. -/
theorem not_mem_toDigits {radix : Nat} {char : Char} (base : 1 < radix) (atMost : radix ≤ 16)
    (apart : ∀ digit < 16, Nat.digitChar digit ≠ char) (number : Nat) :
    char ∉ Nat.toDigits radix number := by
  obtain ⟨digits, isMap, below, _⟩ := toDigits_eq_map base number
  rw [isMap, List.mem_map]
  intro found
  obtain ⟨digit, inside, isChar⟩ := found
  exact apart digit (Nat.lt_of_lt_of_le (below digit inside) atMost) isChar

/-! ## The reader of a numeral -/

/-- Reads the run of digits a text begins with: of at most `maxDigits`, worth less than
`bound`, and with a zero in front only where `allowZeroPrefix`. -/
def readNumber (radix : Nat) (maxDigits : Option Nat) (allowZeroPrefix : Bool) (bound : Nat)
    (text : List Char) : Option (Nat × List Char) :=
  let (digits, rest) := takeDigits radix text
  if maxDigits.any fun most => decide (most < digits.length) then none
  else if digits = [] then none
  else if !allowZeroPrefix && digits.head? == some 0 && decide (1 < digits.length) then none
  else if value radix digits < bound then some (value radix digits, rest)
  else none

/-- Nothing is read where no digit is. -/
theorem readNumber_eq_none {radix bound : Nat} {maxDigits : Option Nat} {allowZeroPrefix : Bool}
    {text : List Char} (stops : ∀ char ∈ text.head?, toDigit radix char = none) :
    readNumber radix maxDigits allowZeroPrefix bound text = none := by
  have none : takeDigits radix text = ([], text) := by
    cases text with
    | nil => rfl
    | cons char others =>
        have isNone : toDigit radix char = none := stops char rfl
        rw [takeDigits, isNone]
  unfold readNumber
  rw [none]
  simp

/-- What `Nat.toDigits` wrote is read back, up to what does not go on with a digit. -/
theorem readNumber_toDigits {radix bound number : Nat} {maxDigits : Option Nat}
    {allowZeroPrefix : Bool} {rest : List Char} (base : 1 < radix) (atMost : radix ≤ 16)
    (below : number < bound)
    (fits : ∀ most ∈ maxDigits, (Nat.toDigits radix number).length ≤ most)
    (stops : ∀ char ∈ rest.head?, toDigit radix char = none) :
    readNumber radix maxDigits allowZeroPrefix bound (Nat.toDigits radix number ++ rest) =
      some (number, rest) := by
  obtain ⟨digits, isMap, small, isValue, leading⟩ := toDigits_eq_map base number
  have lengths : digits.length = (Nat.toDigits radix number).length := by
    rw [isMap, List.length_map]
  have nonempty : digits ≠ [] := by
    intro isNil
    rw [isNil] at isMap
    exact Nat.toDigits_ne_nil isMap
  have notLong : ¬(maxDigits.any fun most => decide (most < digits.length)) = true := by
    rw [Option.any_eq_true]
    intro exceeded
    obtain ⟨most, isMost, longer⟩ := exceeded
    have within := fits most isMost
    have exceeds := of_decide_eq_true longer
    omega
  have notPadded :
      ¬(!allowZeroPrefix && digits.head? == some 0 && decide (1 < digits.length)) = true := by
    intro padded
    rw [Bool.and_eq_true, Bool.and_eq_true, beq_iff_eq] at padded
    have long : 1 < digits.length := of_decide_eq_true padded.2
    have zero : number = 0 := by
      by_contra positive
      exact leading (Nat.pos_of_ne_zero positive) padded.1.2
    rw [lengths, zero, Nat.toDigits_zero] at long
    exact absurd long (Nat.lt_irrefl 1)
  unfold readNumber
  rw [isMap, takeDigits_map atMost digits small stops]
  simp only
  rw [if_neg notLong, if_neg nonempty, if_neg notPadded, isValue, if_pos below]

/-! ## Cuts at a separator -/

/-- What stands before and after the first place where `pattern` stands. -/
def splitOnce (pattern : List Char) : List Char → Option (List Char × List Char)
  | [] => none
  | char :: rest =>
    if pattern.isPrefixOf (char :: rest) then some ([], (char :: rest).drop pattern.length)
    else (splitOnce pattern rest).map fun parts => (char :: parts.1, parts.2)

/-- The first part of `str::split`. -/
def splitFirst (pattern text : List Char) : List Char :=
  match splitOnce pattern text with
  | some (before, _) => before
  | none => text

/-- The second part of `str::split`. -/
def splitSecond (pattern text : List Char) : Option (List Char) :=
  (splitOnce pattern text).map fun parts => splitFirst pattern parts.2

/-- A front that has no first character of the pattern is before the cut. -/
theorem splitOnce_append {first : Char} {pattern : List Char} (front : List Char)
    (apart : first ∉ front) (rest : List Char) :
    splitOnce (first :: pattern) (front ++ rest) =
      (splitOnce (first :: pattern) rest).map fun parts => (front ++ parts.1, parts.2) := by
  induction front with
  | nil =>
      show splitOnce (first :: pattern) rest =
        (splitOnce (first :: pattern) rest).map fun parts => ([] ++ parts.1, parts.2)
      cases splitOnce (first :: pattern) rest with
      | none => rfl
      | some parts => rfl
  | cons char others ih =>
      have differs : first ≠ char := fun same => apart (same ▸ List.mem_cons_self)
      have tail := ih fun inside => apart (List.mem_cons_of_mem char inside)
      have notHere : ¬(first :: pattern).isPrefixOf (char :: (others ++ rest)) = true := by
        rw [List.isPrefixOf_cons_cons, Bool.and_eq_true, beq_iff_eq]
        exact fun begins => differs begins.1
      show splitOnce (first :: pattern) (char :: (others ++ rest)) = _
      rw [splitOnce, if_neg notHere, tail, Option.map_map]
      rfl

theorem splitOnce_here {first : Char} {pattern rest : List Char} :
    splitOnce (first :: pattern) (first :: (pattern ++ rest)) = some ([], rest) := by
  have here : (first :: pattern).isPrefixOf (first :: (pattern ++ rest)) = true := by
    rw [List.isPrefixOf_iff_prefix]
    exact List.prefix_append (first :: pattern) rest
  rw [splitOnce, if_pos here]
  show some ([], (pattern ++ rest).drop pattern.length) = _
  rw [List.drop_left]

theorem splitOnce_of_not_mem {first : Char} {pattern text : List Char} (apart : first ∉ text) :
    splitOnce (first :: pattern) text = none := by
  have appended : splitOnce (first :: pattern) (text ++ []) = _ := splitOnce_append text apart []
  rw [List.append_nil] at appended
  rw [appended]
  rfl

/-- A text without the first character of the pattern is not cut. -/
theorem splitFirst_of_not_mem {first : Char} {pattern text : List Char} (apart : first ∉ text) :
    splitFirst (first :: pattern) text = text := by
  rw [splitFirst, splitOnce_of_not_mem apart]

/-- A front that has no first character of the pattern ends at the pattern. -/
theorem splitFirst_append {first : Char} (pattern : List Char) {front rest : List Char}
    (apart : first ∉ front) :
    splitFirst (first :: pattern) (front ++ first :: (pattern ++ rest)) = front := by
  rw [splitFirst, splitOnce_append front apart, splitOnce_here]
  exact List.append_nil front

end Mosschat.Library.Numeral
