import Mosschat.Net.Diag.Writer

/-!
Owns the readers of the diagnostics log, from `diag.rs`: the outcomes of a file's lines, the
files of a directory from the newest on, and the last record of a peer; and what is read of
a file that was written a record at a time.

Does not own the order a directory is listed in.
-/

namespace Mosschat.Net.Diag

open Mosschat.Library Mosschat.Library.TextFile

/-! ## Reading a file -/

/-- `ReadOutcome`. -/
inductive ReadOutcome where
  | record (record : DiagRecord)
  | malformed (lineNumber : Nat) (error : DiagError)

/-- `DiagError::Io` of `read_to_string`: the file is not UTF-8. -/
inductive ReadError where
  | invalidData

namespace Crates

variable (crates : Crates)

/-- What a line is read as; a blank one is passed over. -/
def outcomes (lineNumber : Nat) (line : List Char) : List ReadOutcome :=
  if isBlank line then []
  else
    match DiagRecord.fromJsonLine crates.serde crates.time (String.ofList line) with
    | .ok record => [.record record]
    | .error error => [.malformed lineNumber error]

/-- The outcomes of the lines, the first of which has this number. -/
def outcomesFrom : Nat → List (List Char) → List ReadOutcome
  | _, [] => []
  | lineNumber, line :: rest =>
    crates.outcomes lineNumber line ++ outcomesFrom (lineNumber + 1) rest

/-- `read_records`, of the bytes of the file. -/
def readRecords (bytes : List UInt8) : Except ReadError (List ReadOutcome) :=
  match fromUtf8 bytes with
  | none => .error .invalidData
  | some text => .ok (crates.outcomesFrom 1 (lines text))

end Crates

/-! ## Reading a directory -/

/-- One key is no newer than the other: an earlier day, or a part of the day no higher. -/
def NoNewer (key other : Name × Nat) : Prop :=
  key.1 < other.1 ∨ key.1 = other.1 ∧ key.2 ≤ other.2

instance (key other : Name × Nat) : Decidable (NoNewer key other) :=
  inferInstanceAs (Decidable (_ ∨ _))

/-- `files_newest_first`, of the names as the directory lists them. -/
def filesNewestFirst (listing : List Name) : List Name :=
  (listing.filter fun name => extension.isSuffixOf name && (dayPrefix name).isSome).insertionSort
    fun name other => NoNewer (fileKey other) (fileKey name)

/-- The record of an outcome, if it is one of the peer's. -/
def recordOf (peer : Option PeerFingerprint) : ReadOutcome → Option DiagRecord
  | .malformed _ _ => none
  | .record record =>
    match peer with
    | none => some record
    | some wanted => if wanted = record.peer then some record else none

/-- The last record of the peer among the outcomes of a file. -/
def bestOf (peer : Option PeerFingerprint) (outcomes : List ReadOutcome) : Option DiagRecord :=
  outcomes.foldl (fun best outcome => (recordOf peer outcome).or best) none

/-- The loop of `last_record` over the files. -/
def Crates.lastAmong (crates : Crates) (files : Files) (peer : Option PeerFingerprint) :
    List Name → Except ReadError (Option DiagRecord)
  | [] => .ok none
  | name :: rest => do
    let outcomes ← crates.readRecords (contents files name)
    match bestOf peer outcomes with
    | some best => pure (some best)
    | none => lastAmong crates files peer rest

/-- `last_record`. -/
def Crates.lastRecord (crates : Crates) (files : Files) (listing : List Name)
    (peer : Option PeerFingerprint) : Except ReadError (Option DiagRecord) :=
  crates.lastAmong files peer (filesNewestFirst listing)

/-! ## What is read of a record -/

/-- `time` reads what it has formatted, and formats the epoch as the text that stands in for
a time it cannot format. -/
structure TimeCrate.Reads (time : TimeCrate) (epochMs : UInt64) : Prop where
  back : (time.format (epochMs.toNat * 1000000)).isSome = true → Rfc3339.Supports time epochMs
  epoch : Rfc3339.format time 0 = Rfc3339.epochFallback
  supportsEpoch : Rfc3339.Supports time 0

/-- The time, or the epoch where `time` cannot format it. -/
def settledMs (time : TimeCrate) (epochMs : UInt64) : UInt64 :=
  if (time.format (epochMs.toNat * 1000000)).isSome then epochMs else 0

theorem TimeCrate.Reads.format_settledMs {time : TimeCrate} {epochMs : UInt64}
    (reads : time.Reads epochMs) :
    Rfc3339.format time (settledMs time epochMs) = Rfc3339.format time epochMs := by
  unfold settledMs
  split
  · rfl
  · next noText =>
      rw [reads.epoch]
      unfold Rfc3339.format
      rw [Option.not_isSome_iff_eq_none.mp noText]
      rfl

theorem TimeCrate.Reads.supports_settledMs {time : TimeCrate} {epochMs : UInt64}
    (reads : time.Reads epochMs) : Rfc3339.Supports time (settledMs time epochMs) := by
  unfold settledMs
  split
  · next isText => exact reads.back isText
  · exact reads.supportsEpoch

/-- The record with the times that are written. -/
def DiagRecord.timed (time : TimeCrate) (record : DiagRecord) : DiagRecord :=
  { record with
    startedAtMs := settledMs time record.startedAtMs
    endedAtMs := settledMs time record.endedAtMs }

theorem DiagRecord.toValue_timed {time : TimeCrate} {record : DiagRecord}
    (started : time.Reads record.startedAtMs) (ended : time.Reads record.endedAtMs) :
    (record.timed time).toValue time = record.toValue time := by
  unfold toValue fields
  rw [show (record.timed time).startedAtMs = settledMs time record.startedAtMs from rfl,
    show (record.timed time).endedAtMs = settledMs time record.endedAtMs from rfl,
    started.format_settledMs, ended.format_settledMs]
  rfl

/-- What the crates do with a record: its value is read from the text it is written as, which
is one line and not blank. -/
structure Crates.Legible (crates : Crates) (record : DiagRecord) : Prop where
  started : crates.time.Reads record.startedAtMs
  ended : crates.time.Reads record.endedAtMs
  kept : crates.serde.Keeps (record.toValue crates.time)
  oneLine : '\n' ∉ crates.line record
  noReturn : (crates.line record).getLast? ≠ some '\r'
  visible : isBlank (crates.line record) = false

/-- What is read back of a record. -/
def Crates.back (crates : Crates) (record : DiagRecord) : DiagRecord :=
  (record.timed crates.time).readBack

namespace Crates

variable {crates : Crates}

/-- A file that is a text is read line by line. -/
theorem readRecords_utf8 (crates : Crates) (text : List Char) :
    crates.readRecords (utf8 text) = .ok (crates.outcomesFrom 1 (lines text)) := by
  unfold readRecords
  rw [fromUtf8_utf8]

theorem fromJsonLine_line {record : DiagRecord} (legible : crates.Legible record) :
    DiagRecord.fromJsonLine crates.serde crates.time (String.ofList (crates.line record)) =
      .ok (crates.back record) := by
  have sameValue := DiagRecord.toValue_timed legible.started legible.ended
  have sameLine : (record.timed crates.time).toJsonLine crates.serde crates.time =
      record.toJsonLine crates.serde crates.time := by
    unfold DiagRecord.toJsonLine
    rw [sameValue]
  have read : DiagRecord.fromJsonLine crates.serde crates.time
      ((record.timed crates.time).toJsonLine crates.serde crates.time) =
        .ok (crates.back record) :=
    DiagRecord.fromJsonLine_toJsonLine legible.started.supports_settledMs
      legible.ended.supports_settledMs (sameValue.symm ▸ legible.kept)
  rw [sameLine] at read
  rw [line, String.ofList_toList]
  exact read

/-- The line of a record is read as that record. -/
theorem outcomes_line {record : DiagRecord} (legible : crates.Legible record) (lineNumber : Nat) :
    crates.outcomes lineNumber (crates.line record) = [.record (crates.back record)] := by
  rw [outcomes, legible.visible, fromJsonLine_line legible]
  rfl

theorem outcomesFrom_append {records : List DiagRecord}
    (legible : ∀ record ∈ records, crates.Legible record) (lineNumber : Nat)
    (rest : List (List Char)) :
    crates.outcomesFrom lineNumber (records.map crates.line ++ rest) =
      (records.map fun record => .record (crates.back record)) ++
        crates.outcomesFrom (lineNumber + records.length) rest := by
  induction records generalizing lineNumber with
  | nil => rfl
  | cons record others ih =>
      rw [List.forall_mem_cons] at legible
      have length : lineNumber + (record :: others).length = lineNumber + 1 + others.length := by
        rw [List.length_cons]
        omega
      rw [List.map_cons, List.cons_append, outcomesFrom, outcomes_line legible.1,
        ih legible.2, length]
      rfl

/-- A file that was written a record at a time, and breaks off in the last line, is read as
its records and what that line is read as. -/
theorem readRecords_written {records : List DiagRecord} {torn : List Char}
    (legible : ∀ record ∈ records, crates.Legible record) (noNewline : '\n' ∉ torn) :
    crates.readRecords (utf8 (written (records.map crates.line) ++ torn)) =
      .ok ((records.map fun record => .record (crates.back record)) ++
        crates.outcomes (records.length + 1) torn) := by
  have whole : ∀ row ∈ records.map crates.line, '\n' ∉ row := by
    rw [List.forall_mem_map]
    exact fun record inside => (legible record inside).oneLine
  have noReturn : ∀ row ∈ records.map crates.line, row.getLast? ≠ some '\r' := by
    rw [List.forall_mem_map]
    exact fun record inside => (legible record inside).noReturn
  rw [readRecords_utf8, lines_written whole noReturn noNewline, outcomesFrom_append legible,
    Nat.add_comm]
  by_cases isEmpty : torn = []
  · rw [if_pos isEmpty, isEmpty]
    rfl
  · rw [if_neg isEmpty, outcomesFrom, outcomesFrom, List.append_nil]

end Crates

end Mosschat.Net.Diag
