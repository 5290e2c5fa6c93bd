import Mathlib.Data.Char
import Mathlib.Data.List.Lex
import Mosschat.Library.HashMap
import Mosschat.Library.Ranked
import Mosschat.Library.TextFile
import Mosschat.Net.Diag.RoundTrip

/-!
Owns the files of the diagnostics log, from `diag.rs`: the date of a day, the name of a
day's file and of its overflow parts, what is read back of such a name, and the days a
directory holds.

Does not own the calendar, which is `time`'s, nor who writes the files.
-/

namespace Mosschat.Net.Diag

open Mosschat.Library Mosschat.Library.TextCut Mosschat.Library.TextFile

/-! ## Dates -/

/-- The name of a file, or a part of one. -/
abbrev Name := List Char

/-- A date that `time` gives for a time from 1970 on. -/
structure CivilDate where
  year : Nat
  month : Nat
  day : Nat
  yearFits : year < 10 ^ 4
  monthFits : month < 10 ^ 2
  dayFits : day < 10 ^ 2

/-- The crate `time`: the date of so many nanoseconds since the Unix epoch, in the range it
supports. -/
structure Calendar where
  dateOf : Int → Option CivilDate

/-- `{:0width}`. -/
def padded (width number : Nat) : List Char :=
  List.replicate (width - (Nat.toDigits 10 number).length) '0' ++ Nat.toDigits 10 number

def CivilDate.text (date : CivilDate) : Name :=
  padded 4 date.year ++ ['-'] ++ padded 2 date.month ++ ['-'] ++ padded 2 date.day

/-- `rfc3339::date_only`. -/
def dateOnly (calendar : Calendar) (epochMs : UInt64) : Name :=
  match calendar.dateOf (epochMs.toNat * 1000000) with
  | some date => date.text
  | none => "1970-01-01".toList

/-! ## Names -/

/-- `MAX_FILE_BYTES`. -/
def maxFileBytes : Nat := 5 * 1024 * 1024

/-- `MAX_FILES_KEPT`. -/
def maxFilesKept : Nat := 7

def extension : Name := ".jsonl".toList

/-- `file_name_for`. -/
def fileNameFor (date : Name) (part : Nat) : Name :=
  if part = 0 then date ++ extension
  else date ++ '.' :: (Nat.toDigits 10 part ++ extension)

/-- Whether a text has the form `YYYY-MM-DD`. -/
def isDateShaped (candidate : Name) : Bool :=
  candidate.length == 10 && candidate[4]? == some '-' && candidate[7]? == some '-' &&
    candidate.zipIdx.all fun place => place.2 == 4 || place.2 == 7 || place.1.isDigit

/-- `day_prefix`. -/
def dayPrefix (name : Name) : Option Name :=
  match front 10 name with
  | some candidate => if isDateShaped candidate then some candidate else none
  | none => none

/-- `str::strip_suffix`. -/
def stripSuffix (suffix name : Name) : Option Name :=
  if suffix.isSuffixOf name then some (name.take (name.length - suffix.length)) else none

/-- The part number in a file's name, 0 where there is none. -/
def partOf (name : Name) : Nat :=
  let part := do
    let stem ← stripSuffix extension name
    let day ← front 10 stem
    let digits ← stripPrefix ['.'] (stem.drop day.length)
    parseUnsigned (2 ^ 32) digits
  part.getD 0

/-- What `files_newest_first` orders a file by. -/
def fileKey (name : Name) : Name × Nat := ((dayPrefix name).getD [], partOf name)

/-! ### Dates have the form of a day -/

theorem length_padded {width number : Nat} (positive : 0 < width) (fits : number < 10 ^ width) :
    (padded width number).length = width := by
  have short : (Nat.toDigits 10 number).length ≤ width :=
    (Nat.length_toDigits_le_iff (by decide) positive).mpr fits
  rw [padded, List.length_append, List.length_replicate]
  omega

theorem isDigit_of_mem_padded {width number : Nat} {char : Char}
    (inside : char ∈ padded width number) : char.isDigit = true := by
  rcases List.mem_append.mp inside with isZero | isDigit
  · rw [List.eq_of_mem_replicate isZero]
    rfl
  · exact Nat.isDigit_of_mem_toDigits (by decide) (by decide) isDigit

theorem isDateShaped_append {year month day : List Char} (yearLength : year.length = 4)
    (monthLength : month.length = 2) (dayLength : day.length = 2)
    (yearDigits : ∀ char ∈ year, char.isDigit = true)
    (monthDigits : ∀ char ∈ month, char.isDigit = true)
    (dayDigits : ∀ char ∈ day, char.isDigit = true) :
    isDateShaped (year ++ ['-'] ++ month ++ ['-'] ++ day) = true := by
  obtain ⟨y1, y2, y3, y4, isYear⟩ := List.length_eq_four.mp yearLength
  obtain ⟨m1, m2, isMonth⟩ := List.length_eq_two.mp monthLength
  obtain ⟨d1, d2, isDay⟩ := List.length_eq_two.mp dayLength
  subst isYear isMonth isDay
  simp only [List.forall_mem_cons] at yearDigits monthDigits dayDigits
  simp [isDateShaped, List.zipIdx_cons, yearDigits, monthDigits, dayDigits]

theorem isDateShaped_text (date : CivilDate) : isDateShaped date.text = true :=
  isDateShaped_append (length_padded (by decide) date.yearFits)
    (length_padded (by decide) date.monthFits) (length_padded (by decide) date.dayFits)
    (fun _ => isDigit_of_mem_padded) (fun _ => isDigit_of_mem_padded)
    (fun _ => isDigit_of_mem_padded)

theorem isDateShaped_dateOnly (calendar : Calendar) (epochMs : UInt64) :
    isDateShaped (dateOnly calendar epochMs) = true := by
  unfold dateOnly
  split
  · exact isDateShaped_text _
  · decide

theorem utf8Size_of_isDigit {char : Char} (isDigit : char.isDigit = true) :
    char.utf8Size = 1 := by
  rw [Char.utf8Size_eq_one_iff, UInt32.le_iff_toNat_le]
  simp only [Char.isDigit, Bool.and_eq_true, decide_eq_true_eq, ge_iff_le,
    UInt32.le_iff_toNat_le] at isDigit
  exact isDigit.2.trans (by decide)

/-- A date is ten bytes long. -/
theorem byteLength_of_isDateShaped {date : Name} (shaped : isDateShaped date = true) :
    byteLength date = 10 := by
  simp only [isDateShaped, Bool.and_eq_true, beq_iff_eq, List.all_eq_true, Bool.or_eq_true] at shaped
  obtain ⟨⟨⟨length, fourth⟩, seventh⟩, digits⟩ := shaped
  have narrow : ∀ char ∈ date, char.utf8Size = 1 := by
    intro char inside
    obtain ⟨index, bound, isChar⟩ := List.getElem_of_mem inside
    have found : date[index]? = some char := by
      rw [List.getElem?_eq_getElem bound, isChar]
    have place := digits (char, index) (List.mem_zipIdx_iff_getElem?.mpr found)
    rcases place with (isFourth | isSeventh) | isDigit
    · have isHyphen : char = '-' := by
        rw [show index = 4 from isFourth, fourth] at found
        exact (Option.some.inj found).symm
      rw [isHyphen]
      rfl
    · have isHyphen : char = '-' := by
        rw [show index = 7 from isSeventh, seventh] at found
        exact (Option.some.inj found).symm
      rw [isHyphen]
      rfl
    · exact utf8Size_of_isDigit isDigit
  have sizes : date.map Char.utf8Size = List.replicate 10 1 := by
    rw [List.eq_replicate_iff, List.length_map]
    refine ⟨length, ?_⟩
    intro size inside
    obtain ⟨char, isIn, isSize⟩ := List.mem_map.mp inside
    rw [← isSize]
    exact narrow char isIn
  rw [byteLength, sizes]
  rfl

/-! ### What is read back of a name -/

theorem front_date {date : Name} (shaped : isDateShaped date = true) (rest : Name) :
    front 10 (date ++ rest) = some date := by
  rw [← byteLength_of_isDateShaped shaped]
  exact front_append date rest

theorem dayPrefix_append {date : Name} (shaped : isDateShaped date = true) (rest : Name) :
    dayPrefix (date ++ rest) = some date := by
  rw [dayPrefix, front_date shaped]
  exact if_pos shaped

theorem fileNameFor_eq (date : Name) (part : Nat) :
    ∃ middle, fileNameFor date part = date ++ middle ++ extension := by
  unfold fileNameFor
  split
  · exact ⟨[], by rw [List.append_nil]⟩
  · exact ⟨'.' :: Nat.toDigits 10 part, by rw [List.append_assoc, List.cons_append]⟩

theorem dayPrefix_fileNameFor {date : Name} (shaped : isDateShaped date = true) (part : Nat) :
    dayPrefix (fileNameFor date part) = some date := by
  obtain ⟨middle, isName⟩ := fileNameFor_eq date part
  rw [isName, List.append_assoc]
  exact dayPrefix_append shaped _

theorem isSuffixOf_fileNameFor (date : Name) (part : Nat) :
    extension.isSuffixOf (fileNameFor date part) = true := by
  obtain ⟨middle, isName⟩ := fileNameFor_eq date part
  rw [isName, List.isSuffixOf_iff_suffix]
  exact List.suffix_append _ _

theorem stripSuffix_append (suffix name : Name) : stripSuffix suffix (name ++ suffix) = some name := by
  have ends : suffix.isSuffixOf (name ++ suffix) = true := by
    rw [List.isSuffixOf_iff_suffix]
    exact List.suffix_append _ _
  rw [stripSuffix, if_pos ends, List.length_append, Nat.add_sub_cancel]
  exact congrArg some List.take_left

theorem partOf_fileNameFor {date : Name} {part : Nat} (shaped : isDateShaped date = true)
    (fits : part < 2 ^ 32) : partOf (fileNameFor date part) = part := by
  have dateFront := front_date shaped
  unfold partOf fileNameFor
  split
  · next isZero =>
      have noPart : front 10 date = some date := by
        have alone := dateFront []
        rw [List.append_nil] at alone
        exact alone
      simp only [stripSuffix_append, noPart, List.drop_length, Option.bind_eq_bind, Option.bind_some]
      rw [isZero]
      rfl
  · have regrouped : date ++ '.' :: (Nat.toDigits 10 part ++ extension) =
        (date ++ '.' :: Nat.toDigits 10 part) ++ extension := by
      rw [List.append_assoc, List.cons_append]
    have dotted : stripPrefix ['.'] ('.' :: Nat.toDigits 10 part) = some (Nat.toDigits 10 part) := rfl
    simp only [regrouped, stripSuffix_append, dateFront, List.drop_left, dotted,
      parseUnsigned_toDigits fits, Option.bind_eq_bind, Option.bind_some, Option.getD_some]

theorem fileKey_fileNameFor {date : Name} {part : Nat} (shaped : isDateShaped date = true)
    (fits : part < 2 ^ 32) : fileKey (fileNameFor date part) = (date, part) := by
  rw [fileKey, dayPrefix_fileNameFor shaped, partOf_fileNameFor shaped fits]
  rfl

/-! ## The days of a directory -/

/-- The files of a directory. -/
abbrev Files := HashMap Name (List UInt8)

/-- The days of the log files there are. -/
def dayNames (files : Files) : List Name :=
  (files.keys.filter extension.isSuffixOf).filterMap dayPrefix

/-- The days over the cap, the oldest first, once `today` is counted. -/
def oldDays (files : Files) (today : Name) : List Name :=
  Ranked.oldest maxFilesKept (today :: dayNames files)

/-- Whether a file is of a day over the cap. -/
def isOld (files : Files) (today name : Name) : Bool :=
  match dayPrefix name with
  | some day => (oldDays files today).contains day
  | none => false

theorem mem_dayNames_iff {files : Files} {day : Name} :
    day ∈ dayNames files ↔
      ∃ name ∈ files, extension.isSuffixOf name = true ∧ dayPrefix name = some day := by
  unfold dayNames
  rw [List.mem_filterMap]
  constructor
  · intro isDay
    obtain ⟨name, inside, isPrefix⟩ := isDay
    obtain ⟨isKey, isLog⟩ := List.mem_filter.mp inside
    exact ⟨name, AList.mem_keys.mp isKey, isLog, isPrefix⟩
  · intro isDay
    obtain ⟨name, inside, isLog, isPrefix⟩ := isDay
    exact ⟨name, List.mem_filter.mpr ⟨AList.mem_keys.mpr inside, isLog⟩, isPrefix⟩

theorem isOld_iff {files : Files} {today name : Name} :
    isOld files today name = true ↔
      ∃ day, dayPrefix name = some day ∧ day ∈ oldDays files today := by
  unfold isOld
  cases dayPrefix name with
  | none => simp
  | some day => simp

/-- A day is over the cap exactly when as many days as are kept are newer. -/
theorem mem_oldDays_iff {files : Files} {today day : Name} :
    day ∈ oldDays files today ↔
      (day = today ∨ day ∈ dayNames files) ∧
        maxFilesKept ≤ (Ranked.newer day (today :: dayNames files)).length := by
  unfold oldDays
  rw [Ranked.mem_oldest_iff, List.mem_cons]

/-- Today is over the cap exactly when as many days as are kept are newer. -/
theorem today_mem_oldDays_iff {files : Files} {today : Name} :
    today ∈ oldDays files today ↔
      maxFilesKept ≤ (Ranked.newer today (dayNames files)).length := by
  rw [mem_oldDays_iff, Ranked.length_newer_cons_self]
  exact and_iff_right (Or.inl rfl)

/-- Nothing is pruned from a directory with one day in it. -/
theorem isOld_eq_false_of_one_day {files : Files} {today : Name}
    (oneDay : ∀ day ∈ dayNames files, day = today) (name : Name) :
    isOld files today name = false := by
  have sameDay : ∀ day, day ∈ today :: dayNames files → day = today := by
    rw [List.forall_mem_cons]
    exact ⟨rfl, oneDay⟩
  rw [Bool.eq_false_iff, ne_eq, isOld_iff]
  intro isOld
  obtain ⟨day, -, inOldDays⟩ := isOld
  obtain ⟨isDay, many⟩ := mem_oldDays_iff.mp inOldDays
  have isToday : day = today := sameDay day (List.mem_cons.mpr isDay)
  have noneNewer : Ranked.newer day (today :: dayNames files) = [] := by
    rw [List.eq_nil_iff_forall_not_mem]
    intro other inside
    obtain ⟨isIn, isNewer⟩ := Ranked.mem_newer_iff.mp inside
    rw [sameDay other isIn, isToday] at isNewer
    exact lt_irrefl today isNewer
  rw [noneNewer] at many
  exact absurd many (by decide)

end Mosschat.Net.Diag
