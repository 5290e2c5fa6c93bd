import Mathlib.Data.List.Basic
import Mosschat.Library.TextCut

/-!
Owns text files: the bytes of a text in UTF-8 and the text of such bytes, the pieces of a
file that end in a mark, the lines of a text, and what the lines are of a file that is
written a line at a time and breaks off in the last one.

Does not own what a line says.
-/

namespace Mosschat.Library.TextFile

open Mosschat.Library.TextCut

/-! ## Texts and their bytes -/

/-- The bytes of a text. -/
def utf8 (text : List Char) : List UInt8 := text.flatMap String.utf8EncodeChar

/-- `String::from_utf8`. -/
def fromUtf8 (bytes : List UInt8) : Option (List Char) :=
  (String.fromUTF8? bytes.toByteArray).map String.toList

theorem utf8_cons (char : Char) (rest : List Char) :
    utf8 (char :: rest) = String.utf8EncodeChar char ++ utf8 rest := rfl

theorem utf8_append (first second : List Char) :
    utf8 (first ++ second) = utf8 first ++ utf8 second := List.flatMap_append

theorem toByteArray_utf8 (text : List Char) : (utf8 text).toByteArray = text.utf8Encode := rfl

theorem toList_toByteArray (bytes : List UInt8) : bytes.toByteArray.data.toList = bytes := by
  simp

/-- The bytes of a string are the ones it is kept as. -/
theorem utf8_toList (text : String) : utf8 text.toList = text.toByteArray.data.toList := by
  rw [← toList_toByteArray (utf8 text.toList), toByteArray_utf8, String.utf8Encode_toList]

/-- The bytes of a text are read back as that text. -/
theorem fromUtf8_utf8 (text : List Char) : fromUtf8 (utf8 text) = some text := by
  have valid : text.utf8Encode.IsValidUTF8 := ByteArray.isValidUTF8_utf8Encode
  have isText : String.fromUTF8 text.utf8Encode valid = String.ofList text := by
    apply String.toByteArray_inj.mp
    rw [String.toByteArray_ofList]
    rfl
  rw [fromUtf8, toByteArray_utf8, String.fromUTF8?, dif_pos valid, isText, Option.map_some,
    String.toList_ofList]

/-- Bytes that are a text are that text's. -/
theorem eq_utf8_of_fromUtf8 {bytes : List UInt8} {text : List Char}
    (read : fromUtf8 bytes = some text) : bytes = utf8 text := by
  obtain ⟨string, found, isText⟩ := Option.map_eq_some_iff.mp read
  unfold String.fromUTF8? at found
  split_ifs at found with valid
  have sameArray : bytes.toByteArray = (utf8 text).toByteArray := by
    rw [toByteArray_utf8, ← isText, String.utf8Encode_toList, ← Option.some.inj found]
    rfl
  rw [← toList_toByteArray bytes, sameArray, toList_toByteArray]

/-- A text whose bytes begin another's begins the other. -/
theorem prefix_of_utf8 {first text : List Char} {rest : List UInt8}
    (begins : utf8 first ++ rest = utf8 text) : first <+: text := by
  apply List.isPrefix_of_utf8Encode_append_eq_utf8Encode rest.toByteArray
  rw [← toByteArray_utf8, ← toByteArray_utf8, ← begins]
  exact List.toByteArray_append.symm

/-! ### The line feed -/

theorem ofNat_ne_newline {value : Nat} (high : 128 ≤ value) (low : value < 256) :
    10 ≠ UInt8.ofNat value := by
  intro same
  have values := congrArg UInt8.toNat same
  rw [UInt8.toNat_ofNat'] at values
  change 10 = value % 256 at values
  omega

/-- Only the line feed has its byte: every byte of a longer form is 128 or more. -/
theorem newline_mem_utf8EncodeChar {char : Char} :
    10 ∈ String.utf8EncodeChar char ↔ char = '\n' := by
  constructor
  · intro inside
    unfold String.utf8EncodeChar at inside
    simp only at inside
    split_ifs at inside with one two three
    · have values := congrArg UInt8.toNat (List.mem_singleton.mp inside)
      rw [UInt8.toNat_ofNat'] at values
      change 10 = char.val.toNat % 256 at values
      apply Char.ext
      apply UInt32.toNat_inj.mp
      show char.val.toNat = 10
      omega
    · simp only [List.mem_cons, List.not_mem_nil, or_false] at inside
      rcases inside with first | second
      · exact absurd first (ofNat_ne_newline (by omega) (by omega))
      · exact absurd second (ofNat_ne_newline (by omega) (by omega))
    · simp only [List.mem_cons, List.not_mem_nil, or_false] at inside
      rcases inside with first | second | third
      · exact absurd first (ofNat_ne_newline (by omega) (by omega))
      · exact absurd second (ofNat_ne_newline (by omega) (by omega))
      · exact absurd third (ofNat_ne_newline (by omega) (by omega))
    · simp only [List.mem_cons, List.not_mem_nil, or_false] at inside
      rcases inside with first | second | third | fourth
      · exact absurd first (ofNat_ne_newline (by omega) (by omega))
      · exact absurd second (ofNat_ne_newline (by omega) (by omega))
      · exact absurd third (ofNat_ne_newline (by omega) (by omega))
      · exact absurd fourth (ofNat_ne_newline (by omega) (by omega))
  · intro isNewline
    rw [isNewline]
    decide

theorem newline_mem_utf8 {text : List Char} : 10 ∈ utf8 text ↔ '\n' ∈ text := by
  rw [utf8, List.mem_flatMap]
  constructor
  · intro inside
    obtain ⟨char, isIn, isByte⟩ := inside
    exact newline_mem_utf8EncodeChar.mp isByte ▸ isIn
  · intro inside
    exact ⟨'\n', inside, newline_mem_utf8EncodeChar.mpr rfl⟩

theorem return_mem_utf8 {text : List Char} (inside : '\r' ∈ text) : 13 ∈ utf8 text :=
  List.mem_flatMap.mpr ⟨'\r', inside, by decide⟩

/-! ## Pieces -/

section Pieces

variable {α : Type*} [DecidableEq α] (mark : α)

/-- `split_inclusive`: the pieces of a file, each with the mark it ends in, the last perhaps
without. -/
def splitInclusive : List α → List (List α)
  | [] => []
  | item :: rest =>
    if item = mark then [item] :: splitInclusive rest
    else
      match splitInclusive rest with
      | [] => [[item]]
      | piece :: others => (item :: piece) :: others

/-- A marked piece comes off the front. -/
theorem splitInclusive_append {piece : List α} (unmarked : mark ∉ piece) (rest : List α) :
    splitInclusive mark (piece ++ mark :: rest) =
      (piece ++ [mark]) :: splitInclusive mark rest := by
  induction piece with
  | nil =>
      rw [List.nil_append, splitInclusive, if_pos rfl]
      rfl
  | cons item others ih =>
      rw [List.mem_cons, not_or] at unmarked
      have differs : ¬item = mark := fun same => unmarked.1 same.symm
      rw [List.cons_append, splitInclusive, if_neg differs, ih unmarked.2]
      rfl

/-- What has no mark is one piece, if it is anything. -/
theorem splitInclusive_of_not_mem {piece : List α} (unmarked : mark ∉ piece) :
    splitInclusive mark piece = if piece = [] then [] else [piece] := by
  induction piece with
  | nil => rfl
  | cons item others ih =>
      rw [List.mem_cons, not_or] at unmarked
      have differs : ¬item = mark := fun same => unmarked.1 same.symm
      rw [splitInclusive, if_neg differs, ih unmarked.2,
        if_neg (List.cons_ne_nil item others)]
      by_cases isEmpty : others = []
      · rw [if_pos isEmpty, isEmpty]
      · rw [if_neg isEmpty]

/-- What has no mark goes before the first piece of what follows. -/
theorem splitInclusive_front {front : List α} (unmarked : mark ∉ front) (some : front ≠ [])
    (rest : List α) :
    splitInclusive mark (front ++ rest) =
      match splitInclusive mark rest with
      | [] => [front]
      | piece :: others => (front ++ piece) :: others := by
  induction front with
  | nil => exact absurd rfl some
  | cons item others ih =>
      rw [List.mem_cons, not_or] at unmarked
      have differs : ¬item = mark := fun same => unmarked.1 same.symm
      rw [List.cons_append, splitInclusive, if_neg differs]
      by_cases isEmpty : others = []
      · rw [isEmpty, List.nil_append]
        cases splitInclusive mark rest with
        | nil => rfl
        | cons piece pieces => rfl
      · rw [ih unmarked.2 isEmpty]
        cases splitInclusive mark rest with
        | nil => rfl
        | cons piece pieces => rfl

end Pieces

/-- A text is cut into pieces where its bytes are. -/
theorem splitInclusive_utf8 (text : List Char) :
    splitInclusive 10 (utf8 text) = (splitInclusive '\n' text).map utf8 := by
  induction text with
  | nil => rfl
  | cons char rest ih =>
      rw [utf8_cons, splitInclusive]
      split_ifs with isNewline
      · rw [isNewline, List.map_cons, ← ih]
        rfl
      · have unmarked : 10 ∉ String.utf8EncodeChar char :=
          fun inside => isNewline (newline_mem_utf8EncodeChar.mp inside)
        rw [splitInclusive_front 10 unmarked String.utf8EncodeChar_ne_nil, ih]
        have alone : utf8 [char] = String.utf8EncodeChar char := List.append_nil _
        cases splitInclusive '\n' rest with
        | nil =>
            rw [List.map_cons, alone]
            rfl
        | cons piece others => rfl

/-! ## Lines -/

/-- A piece without its line ending. -/
def stripLineEnd (piece : List Char) : List Char :=
  if piece.getLast? = some '\n' then
    let line := piece.dropLast
    if line.getLast? = some '\r' then line.dropLast else line
  else piece

/-- `str::lines`. -/
def lines (text : List Char) : List (List Char) := (splitInclusive '\n' text).map stripLineEnd

/-- The property `White_Space` of Unicode. -/
def isWhitespace (char : Char) : Bool :=
  let code := char.toNat
  (0x9 ≤ code && code ≤ 0xd) || code == 0x20 || code == 0x85 || code == 0xa0 || code == 0x1680 ||
    (0x2000 ≤ code && code ≤ 0x200a) || code == 0x2028 || code == 0x2029 || code == 0x202f ||
    code == 0x205f || code == 0x3000

/-- `line.trim().is_empty()`. -/
def isBlank (line : List Char) : Bool := line.all isWhitespace

theorem stripLineEnd_newline {line : List Char} (noReturn : line.getLast? ≠ some '\r') :
    stripLineEnd (line ++ ['\n']) = line := by
  rw [stripLineEnd, List.getLast?_concat, if_pos rfl, List.dropLast_concat]
  exact if_neg noReturn

theorem stripLineEnd_of_not_mem {line : List Char} (noNewline : '\n' ∉ line) :
    stripLineEnd line = line := by
  apply if_neg
  intro isLast
  exact noNewline (List.mem_of_getLast? isLast)

/-! ## A file written a line at a time -/

/-- The rows, each with its line feed. -/
def written (rows : List (List Char)) : List Char := rows.flatMap (· ++ ['\n'])

theorem written_append (first second : List (List Char)) :
    written (first ++ second) = written first ++ written second := List.flatMap_append

theorem splitInclusive_written {rows : List (List Char)} (whole : ∀ row ∈ rows, '\n' ∉ row)
    (rest : List Char) :
    splitInclusive '\n' (written rows ++ rest) =
      rows.map (· ++ ['\n']) ++ splitInclusive '\n' rest := by
  induction rows with
  | nil => rfl
  | cons row others ih =>
      rw [List.forall_mem_cons] at whole
      have isFront : written (row :: others) ++ rest = row ++ '\n' :: (written others ++ rest) := by
        show (row ++ ['\n'] ++ written others) ++ rest = _
        rw [List.append_assoc, List.append_assoc]
        rfl
      rw [isFront, splitInclusive_append '\n' whole.1, ih whole.2]
      rfl

/-- The lines of a file that breaks off in the last one: its rows, and what is torn. -/
theorem lines_written {rows : List (List Char)} {torn : List Char}
    (whole : ∀ row ∈ rows, '\n' ∉ row) (noReturn : ∀ row ∈ rows, row.getLast? ≠ some '\r')
    (noNewline : '\n' ∉ torn) :
    lines (written rows ++ torn) = rows ++ if torn = [] then [] else [torn] := by
  have stripped : (rows.map (· ++ ['\n'])).map stripLineEnd = rows := by
    rw [List.map_map]
    conv_rhs => rw [← List.map_id rows]
    apply List.map_congr_left
    intro row inside
    exact stripLineEnd_newline (noReturn row inside)
  rw [lines, splitInclusive_written whole, List.map_append, stripped,
    splitInclusive_of_not_mem '\n' noNewline]
  split_ifs with isEmpty
  · rfl
  · rw [List.map_singleton, stripLineEnd_of_not_mem noNewline]

/-- The file ends in a line feed, if in anything. -/
def Terminated (bytes : List UInt8) : Prop := ∀ byte, bytes.getLast? = some byte → byte = 10

/-- A file that ends in a line feed has nothing torn. -/
theorem torn_eq_nil {whole torn : List Char} (noNewline : '\n' ∉ torn)
    (terminated : Terminated (utf8 (whole ++ torn))) : torn = [] := by
  rcases List.eq_nil_or_concat torn with isEmpty | ⟨front, char, isTorn⟩
  · exact isEmpty
  · rw [List.concat_eq_append] at isTorn
    obtain ⟨last, isLast⟩ : ∃ byte, (String.utf8EncodeChar char).getLast? = some byte :=
      ⟨_, List.getLast?_eq_some_getLast String.utf8EncodeChar_ne_nil⟩
    have ends : utf8 (whole ++ torn) = utf8 (whole ++ front) ++ String.utf8EncodeChar char := by
      rw [isTorn, ← List.append_assoc, utf8_append]
      exact congrArg (utf8 (whole ++ front) ++ ·) (List.append_nil _)
    have isNewline : last = 10 := by
      apply terminated
      rw [ends, List.getLast?_append, isLast]
      rfl
    have isChar : char = '\n' := by
      apply newline_mem_utf8EncodeChar.mp
      rw [← isNewline]
      exact List.mem_of_getLast? isLast
    have inside : '\n' ∈ torn := by
      rw [isTorn, isChar]
      exact List.mem_append_right front List.mem_cons_self
    exact absurd inside noNewline

end Mosschat.Library.TextFile
