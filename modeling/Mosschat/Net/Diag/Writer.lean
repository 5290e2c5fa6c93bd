import Mosschat.Library.Machine
import Mosschat.Net.Diag.Files

/-!
Owns the writer of the diagnostics log, from `diag.rs`: the file it has open, the rotation
to another day with its pruning, the next overflow part, and an append, over a directory in
which any of these calls can fail and a process that can end in any byte of a write.

Does not own what a file says to its reader. A write that is not the process's last is taken
to be completed.
-/

namespace Mosschat.Net.Diag

open Mosschat.Library Mosschat.Library.TextFile

/-! ## State -/

/-- An open file. It is written to also when its name has been removed. -/
structure OpenFile where
  name : Name
  linked : Bool
deriving DecidableEq

/-- `DiagWriter`. -/
structure DiagWriter where
  openDate : Option Name
  openPart : Nat
  file : Option OpenFile
  bytesWritten : Nat

/-- `DiagWriter::new`. -/
def DiagWriter.new : DiagWriter := ⟨none, 0, none, 0⟩

/-- The directory, and the writer of the process. -/
structure DiagLog where
  files : Files
  writer : DiagWriter

/-- `DiagError::Io`: an error of the system, or one of the two the writer makes. -/
inductive WriteError where
  | os
  | notOpen
  | noDay
deriving DecidableEq

/-! ## What the system answers -/

/-- What becomes of `open_private_append` and of the `metadata` call after it. -/
inductive OpenCall where
  | opened
  /-- The file is opened, its length is not told. -/
  | unsized
  /-- The file is not opened. -/
  | refused
  /-- The file is opened, created if need be, but cannot be made private. -/
  | notPrivate

/-- What becomes of the calls of `prune`. -/
inductive PruneCall where
  | works
  /-- A call fails when these of the files to be removed have been. -/
  | fails (removed : Name → Bool)

/-- What the system answers during one append. -/
structure Calls where
  prune : PruneCall
  day : OpenCall
  part : OpenCall

/-- Every call works. -/
def Calls.working : Calls := ⟨.works, .opened, .opened⟩

/-! ## The writer -/

/-- The bytes of a file, none if there is none. -/
def contents (files : Files) (name : Name) : List UInt8 := (files.lookup name).getD []

namespace DiagLog

/-- The files are removed, from under the writer if need be. -/
def remove (log : DiagLog) (gone : Name → Bool) : DiagLog where
  files := log.files.retain fun name _ => !gone name
  writer :=
    { log.writer with
      file := log.writer.file.map fun file =>
        { file with linked := file.linked && !gone file.name } }

/-- The files an unsuccessful or successful `prune` removes. -/
def prunes (call : PruneCall) (today : Name) (log : DiagLog) (name : Name) : Bool :=
  match call with
  | .works => isOld log.files today name
  | .fails removed => isOld log.files today name && removed name

/-- `DiagWriter::prune`. -/
def prune (call : PruneCall) (today : Name) (log : DiagLog) : DiagLog × Except WriteError Unit :=
  let pruned := log.remove (log.prunes call today)
  match call with
  | .works => (pruned, .ok ())
  | .fails _ => (pruned, .error .os)

/-- `DiagWriter::open_part_file`. -/
def openPartFile (call : OpenCall) (date : Name) (part : Nat) (log : DiagLog) :
    DiagLog × Except WriteError Unit :=
  let name := fileNameFor date part
  let closed := { log.writer with file := none }
  let created := log.files.orInsert name []
  match call with
  | .opened =>
    (⟨created,
      { closed with file := some ⟨name, true⟩, bytesWritten := (contents created name).length }⟩,
      .ok ())
  | .unsized => (⟨created, { closed with file := some ⟨name, true⟩, bytesWritten := 0 }⟩, .ok ())
  | .refused => (⟨log.files, closed⟩, .error .os)
  | .notPrivate => (⟨created, closed⟩, .error .os)

/-- `DiagWriter::rotate_to_day`. -/
def rotateToDay (calls : Calls) (today : Name) (log : DiagLog) : DiagLog × Except WriteError Unit :=
  match log.prune calls.prune today with
  | (log, .error error) => (log, .error error)
  | (log, .ok ()) =>
    openPartFile calls.day today 0
      { log with writer := { log.writer with openDate := some today, openPart := 0 } }

/-- `u32::saturating_add(1)`. -/
def partAfter (part : Nat) : Nat := min (part + 1) (2 ^ 32 - 1)

/-- `DiagWriter::open_next_part`. -/
def openNextPart (calls : Calls) (log : DiagLog) : DiagLog × Except WriteError Unit :=
  match log.writer.openDate with
  | none => (log, .error .noDay)
  | some today =>
    let part := partAfter log.writer.openPart
    openPartFile calls.part today part { log with writer := { log.writer with openPart := part } }

/-- The day's file is open. -/
def openDay (calls : Calls) (today : Name) (log : DiagLog) : DiagLog × Except WriteError Unit :=
  if log.writer.openDate = some today then (log, .ok ()) else log.rotateToDay calls today

/-- The file the line goes to, when the day's file is open: the next part if it has no room. -/
def makeRoom (calls : Calls) (lineLen : Nat) (log : DiagLog) :
    DiagLog × Except WriteError OpenFile :=
  let roomy :=
    if maxFileBytes < log.writer.bytesWritten + lineLen then log.openNextPart calls
    else (log, .ok ())
  match roomy with
  | (log, .error error) => (log, .error error)
  | (log, .ok ()) =>
    match log.writer.file with
    | none => (log, .error .notOpen)
    | some file => (log, .ok file)

/-- `DiagWriter::append` up to the write: the file that is written to. -/
def prepare (calls : Calls) (today : Name) (lineLen : Nat) (log : DiagLog) :
    DiagLog × Except WriteError OpenFile :=
  match log.openDay calls today with
  | (log, .error error) => (log, .error error)
  | (log, .ok ()) => log.makeRoom calls lineLen

/-- The bytes go to the end of the open file. -/
def write (log : DiagLog) (file : OpenFile) (bytes : List UInt8) : DiagLog :=
  if file.linked then
    { log with files := log.files.put file.name (contents log.files file.name ++ bytes) }
  else log

end DiagLog

/-- The crates the log is written with. -/
structure Crates where
  serde : SerdeJson
  time : TimeCrate
  calendar : Calendar

/-- The line of a record, without its end. -/
def Crates.line (crates : Crates) (record : DiagRecord) : List Char :=
  (record.toJsonLine crates.serde crates.time).toList

/-- The bytes of a record's line. -/
def Crates.bytes (crates : Crates) (record : DiagRecord) : List UInt8 :=
  utf8 (crates.line record ++ ['\n'])

namespace DiagLog

/-- `DiagWriter::append`. -/
def append (crates : Crates) (calls : Calls) (record : DiagRecord) (nowMs : UInt64)
    (log : DiagLog) : DiagLog × Except WriteError Bool :=
  let line := crates.bytes record
  match log.prepare calls (dateOnly crates.calendar nowMs) line.length with
  | (log, .error error) => (log, .error error)
  | (log, .ok file) =>
    let log := log.write file line
    (⟨log.files, { log.writer with bytesWritten := log.writer.bytesWritten + line.length }⟩,
      .ok true)

/-- An append during which the process ends, when so many bytes of the line are written, and
the process that comes after it. -/
def crash (crates : Crates) (calls : Calls) (record : DiagRecord) (nowMs : UInt64) (count : Nat)
    (log : DiagLog) : DiagLog :=
  let line := crates.bytes record
  match log.prepare calls (dateOnly crates.calendar nowMs) line.length with
  | (log, .error _) => ⟨log.files, .new⟩
  | (log, .ok file) => ⟨(log.write file (line.take count)).files, .new⟩

/-- Another process opens the directory. -/
def restart (log : DiagLog) : DiagLog := ⟨log.files, .new⟩

end DiagLog

/-! ## Where an append writes to -/

def PruneCall.succeeds : PruneCall → Bool
  | .works => true
  | .fails _ => false

def OpenCall.opens : OpenCall → Bool
  | .opened => true
  | .unsized => true
  | .refused => false
  | .notPrivate => false

/-- The length the writer goes on from when it has opened a file. -/
def OpenCall.resumed (call : OpenCall) (files : Files) (name : Name) : Nat :=
  match call with
  | .unsized => 0
  | _ => (contents files name).length

namespace DiagLog

variable (calls : Calls) (today : Name) (lineLen : Nat) (log : DiagLog)

/-- The files an append goes on with when it has pruned, if it does. -/
def standing : Files :=
  if log.writer.openDate = some today then log.files
  else (log.remove (log.prunes calls.prune today)).files

/-- The next part of a day, if it is opened. -/
def nextTarget (part : Nat) : Option OpenFile :=
  if calls.part.opens then some ⟨fileNameFor today (partAfter part), true⟩ else none

/-- The file an append writes to: the open one while the line fits, another part of the day
otherwise; on another day, that day's first file or the part after it. -/
def target : Option OpenFile :=
  if log.writer.openDate = some today then
    if maxFileBytes < log.writer.bytesWritten + lineLen then
      nextTarget calls today log.writer.openPart
    else log.writer.file
  else if calls.prune.succeeds && calls.day.opens then
    let name := fileNameFor today 0
    if maxFileBytes < calls.day.resumed (log.standing calls today) name + lineLen then
      nextTarget calls today 0
    else some ⟨name, true⟩
  else none

end DiagLog

/-- Files may have been opened that were not there. -/
def Opens (before after : Files) : Prop :=
  ∀ name, after.lookup name = before.lookup name ∨
    before.lookup name = none ∧ after.lookup name = some []

theorem Opens.refl (files : Files) : Opens files files := fun _ => Or.inl rfl

theorem Opens.trans {first second third : Files} (before : Opens first second)
    (after : Opens second third) : Opens first third := by
  intro name
  rcases after name with same | ⟨vacant, isNew⟩
  · rw [same]
    exact before name
  · rcases before name with same | ⟨vacantBefore, isNewBefore⟩
    · exact Or.inr ⟨same.symm.trans vacant, isNew⟩
    · rw [isNewBefore] at vacant
      cases vacant

theorem Opens.contents_eq {before after : Files} (opens : Opens before after) (name : Name) :
    contents after name = contents before name := by
  unfold contents
  rcases opens name with same | ⟨vacant, isNew⟩
  · rw [same]
  · rw [vacant, isNew]
    rfl

theorem opens_orInsert (files : Files) (name : Name) : Opens files (files.orInsert name []) := by
  intro other
  rw [HashMap.lookup_orInsert]
  split_ifs with isName
  · rw [isName]
    cases found : files.lookup name with
    | none => exact Or.inr ⟨rfl, rfl⟩
    | some bytes => exact Or.inl rfl
  · exact Or.inl rfl

namespace DiagLog

variable {calls : Calls} {today : Name} {lineLen : Nat} {log after : DiagLog}

theorem opens_openPartFile (call : OpenCall) (date : Name) (part : Nat) (log : DiagLog) :
    Opens log.files (log.openPartFile call date part).1.files := by
  cases call with
  | opened => exact opens_orInsert _ _
  | unsized => exact opens_orInsert _ _
  | refused => exact Opens.refl _
  | notPrivate => exact opens_orInsert _ _

theorem opens_openDay (calls : Calls) (today : Name) (log : DiagLog) :
    Opens (log.standing calls today) (log.openDay calls today).1.files := by
  unfold standing openDay
  split_ifs with sameDay
  · exact Opens.refl _
  · unfold rotateToDay prune
    cases calls.prune with
    | works => exact opens_openPartFile _ _ _ _
    | fails removed => exact Opens.refl _

theorem opens_openNextPart (calls : Calls) (log : DiagLog) :
    Opens log.files (log.openNextPart calls).1.files := by
  unfold openNextPart
  cases log.writer.openDate with
  | none => exact Opens.refl _
  | some today => exact opens_openPartFile _ _ _ _

theorem opens_makeRoom (calls : Calls) (lineLen : Nat) (log : DiagLog) :
    Opens log.files (log.makeRoom calls lineLen).1.files := by
  have next := opens_openNextPart calls log
  unfold makeRoom
  by_cases full : maxFileBytes < log.writer.bytesWritten + lineLen
  · simp only [if_pos full]
    generalize log.openNextPart calls = opened at next ⊢
    obtain ⟨after, result⟩ := opened
    cases result with
    | error error => exact next
    | ok _ =>
        simp only
        split
        · exact next
        · exact next
  · simp only [if_neg full]
    split
    · exact Opens.refl _
    · exact Opens.refl _

theorem opens_prepare (calls : Calls) (today : Name) (lineLen : Nat) (log : DiagLog) :
    Opens (log.standing calls today) (log.prepare calls today lineLen).1.files := by
  have day := opens_openDay calls today log
  unfold prepare
  generalize log.openDay calls today = opened at day ⊢
  obtain ⟨after, result⟩ := opened
  cases result with
  | error error => exact day
  | ok _ => exact day.trans (opens_makeRoom calls lineLen after)

/-- What opening a file comes to. -/
theorem openPartFile_of_opens {call : OpenCall} (opens : call.opens = true) (date : Name)
    (part : Nat) (log : DiagLog) :
    log.openPartFile call date part =
      (⟨log.files.orInsert (fileNameFor date part) [],
        { log.writer with
          file := some ⟨fileNameFor date part, true⟩
          bytesWritten := call.resumed log.files (fileNameFor date part) }⟩, .ok ()) := by
  have sameLength := (opens_orInsert log.files (fileNameFor date part)).contents_eq
    (fileNameFor date part)
  cases call with
  | opened =>
      unfold openPartFile
      simp only [sameLength]
      rfl
  | unsized => rfl
  | refused => cases opens
  | notPrivate => cases opens

theorem openPartFile_of_fails {call : OpenCall} (fails : call.opens = false) (date : Name)
    (part : Nat) (log : DiagLog) :
    ∃ after, log.openPartFile call date part = (after, .error .os) ∧
      after.writer = { log.writer with file := none } := by
  cases call with
  | opened => cases fails
  | unsized => cases fails
  | refused => exact ⟨_, rfl, rfl⟩
  | notPrivate => exact ⟨_, rfl, rfl⟩

theorem openNextPart_eq (isDay : log.writer.openDate = some today) :
    log.openNextPart calls =
      openPartFile calls.part today (partAfter log.writer.openPart)
        { log with writer := { log.writer with openPart := partAfter log.writer.openPart } } := by
  unfold openNextPart
  split
  · next none =>
      rw [none] at isDay
      cases isDay
  · next day found =>
      rw [found] at isDay
      rw [Option.some.inj isDay]

/-- When the day's file is open, the line goes to it while it fits, and to the next part
otherwise. -/
theorem makeRoom_ok_iff (isDay : log.writer.openDate = some today) {file : OpenFile} :
    (log.makeRoom calls lineLen).2 = .ok file ↔
      (if maxFileBytes < log.writer.bytesWritten + lineLen then
        nextTarget calls today log.writer.openPart else log.writer.file) = some file := by
  unfold makeRoom nextTarget
  by_cases full : maxFileBytes < log.writer.bytesWritten + lineLen
  · rw [if_pos full, if_pos full, openNextPart_eq isDay]
    cases opens : calls.part.opens with
    | true =>
        rw [openPartFile_of_opens opens, if_pos rfl]
        simp
    | false =>
        obtain ⟨after, isAfter, -⟩ := openPartFile_of_fails opens today
          (partAfter log.writer.openPart)
          { log with writer := { log.writer with openPart := partAfter log.writer.openPart } }
        rw [isAfter]
        simp
  · rw [if_neg full, if_neg full]
    simp only
    cases log.writer.file with
    | none => simp
    | some here => simp

theorem rotateToDay_eq (works : calls.prune.succeeds = true) :
    log.rotateToDay calls today =
      openPartFile calls.day today 0
        { log.remove (log.prunes calls.prune today) with
          writer :=
            { (log.remove (log.prunes calls.prune today)).writer with
              openDate := some today
              openPart := 0 } } := by
  unfold rotateToDay prune
  cases isPrune : calls.prune with
  | works => rfl
  | fails removed =>
      rw [isPrune] at works
      cases works

/-- An append gets as far as its write exactly when it has a file to write to. -/
theorem prepare_ok_iff {file : OpenFile} :
    (log.prepare calls today lineLen).2 = .ok file ↔
      log.target calls today lineLen = some file := by
  unfold prepare openDay target
  by_cases sameDay : log.writer.openDate = some today
  · rw [if_pos sameDay, if_pos sameDay]
    exact makeRoom_ok_iff sameDay
  rw [if_neg sameDay, if_neg sameDay]
  cases works : calls.prune.succeeds with
  | false =>
      unfold rotateToDay prune
      cases isPrune : calls.prune with
      | works =>
          rw [isPrune] at works
          cases works
      | fails removed => simp
  | true =>
      rw [rotateToDay_eq works]
      cases opens : calls.day.opens with
      | true =>
          rw [openPartFile_of_opens opens]
          simp only [Bool.and_self, if_true]
          rw [makeRoom_ok_iff rfl]
          unfold standing
          rw [if_neg sameDay]
      | false =>
          obtain ⟨after, isAfter, -⟩ := openPartFile_of_fails opens today 0
            { log.remove (log.prunes calls.prune today) with
              writer :=
                { (log.remove (log.prunes calls.prune today)).writer with
                  openDate := some today
                  openPart := 0 } }
          rw [isAfter]
          simp

/-! ## What an append leaves in the files -/

/-- The files when so much has been written to the file an append writes to. -/
def attempt (calls : Calls) (today : Name) (lineLen : Nat) (bytes : List UInt8) (log : DiagLog) :
    Files :=
  match log.prepare calls today lineLen with
  | (log, .error _) => log.files
  | (log, .ok file) => (log.write file bytes).files

theorem files_append (crates : Crates) (calls : Calls) (record : DiagRecord) (nowMs : UInt64)
    (log : DiagLog) :
    (log.append crates calls record nowMs).1.files =
      log.attempt calls (dateOnly crates.calendar nowMs) (crates.bytes record).length
        (crates.bytes record) := by
  unfold append attempt
  simp only
  split <;> rfl

theorem files_crash (crates : Crates) (calls : Calls) (record : DiagRecord) (nowMs : UInt64)
    (count : Nat) (log : DiagLog) :
    (log.crash crates calls record nowMs count).files =
      log.attempt calls (dateOnly crates.calendar nowMs) (crates.bytes record).length
        ((crates.bytes record).take count) := by
  unfold crash attempt
  simp only
  split <;> rfl

theorem append_snd_ok_iff (crates : Crates) (calls : Calls) (record : DiagRecord) (nowMs : UInt64)
    (log : DiagLog) :
    (log.append crates calls record nowMs).2 = .ok true ↔
      ∃ file, log.target calls (dateOnly crates.calendar nowMs) (crates.bytes record).length =
        some file := by
  unfold append
  simp only [← prepare_ok_iff]
  generalize log.prepare calls (dateOnly crates.calendar nowMs) (crates.bytes record).length =
    prepared
  obtain ⟨after, result⟩ := prepared
  cases result with
  | error error => simp
  | ok file => simp

/-- A file is written to, or stays as it stood, or is new and empty. -/
theorem lookup_attempt (calls : Calls) (today : Name) (lineLen : Nat) (bytes : List UInt8)
    (log : DiagLog) (name : Name) :
    log.target calls today lineLen = some ⟨name, true⟩ ∧
        (log.attempt calls today lineLen bytes).lookup name =
          some (contents (log.standing calls today) name ++ bytes) ∨
      log.target calls today lineLen ≠ some ⟨name, true⟩ ∧
        ((log.attempt calls today lineLen bytes).lookup name =
            (log.standing calls today).lookup name ∨
          (log.standing calls today).lookup name = none ∧
            (log.attempt calls today lineLen bytes).lookup name = some []) := by
  have opens := opens_prepare calls today lineLen log
  have isTarget : ∀ file, (log.prepare calls today lineLen).2 = .ok file ↔
      log.target calls today lineLen = some file := fun file => prepare_ok_iff
  unfold attempt
  generalize log.prepare calls today lineLen = prepared at opens isTarget ⊢
  obtain ⟨after, result⟩ := prepared
  cases result with
  | error error =>
      refine Or.inr ⟨?_, opens name⟩
      intro writes
      have reached := (isTarget _).mpr writes
      cases reached
  | ok file =>
      have writes : log.target calls today lineLen = some file := (isTarget file).mp rfl
      have stood := opens.contents_eq file.name
      rw [writes]
      unfold write
      simp only
      by_cases linked : file.linked = true
      · rw [if_pos linked, HashMap.lookup_put]
        by_cases isName : name = file.name
        · rw [if_pos isName]
          refine Or.inl ⟨?_, ?_⟩
          · rw [isName, ← linked]
          · rw [isName, stood]
        · rw [if_neg isName]
          refine Or.inr ⟨?_, opens name⟩
          intro same
          exact isName (congrArg OpenFile.name (Option.some.inj same)).symm
      · rw [if_neg linked]
        refine Or.inr ⟨?_, opens name⟩
        intro same
        exact linked (congrArg OpenFile.linked (Option.some.inj same))

/-- What stood and was written to. -/
theorem contents_attempt (calls : Calls) (today : Name) (lineLen : Nat) (bytes : List UInt8)
    (log : DiagLog) (name : Name) :
    contents (log.attempt calls today lineLen bytes) name =
      contents (log.standing calls today) name ++
        if log.target calls today lineLen = some ⟨name, true⟩ then bytes else [] := by
  rcases lookup_attempt calls today lineLen bytes log name with
    ⟨writes, found⟩ | ⟨spared, same | ⟨vacant, isNew⟩⟩
  · rw [if_pos writes, contents, found]
    rfl
  · rw [if_neg spared, List.append_nil, contents, same]
    rfl
  · rw [if_neg spared, List.append_nil, contents, isNew, contents, vacant]
    rfl

/-- Whether an append prunes this file. -/
def drops (calls : Calls) (today : Name) (log : DiagLog) (name : Name) : Bool :=
  decide (log.writer.openDate ≠ some today) && log.prunes calls.prune today name

theorem lookup_standing (calls : Calls) (today : Name) (log : DiagLog) (name : Name) :
    (log.standing calls today).lookup name =
      if log.drops calls today name then none else log.files.lookup name := by
  unfold standing drops
  by_cases sameDay : log.writer.openDate = some today
  · rw [if_pos sameDay]
    simp [sameDay]
  · rw [if_neg sameDay]
    show (log.files.retain fun name _ => !log.prunes calls.prune today name).lookup name = _
    rw [HashMap.lookup_retain]
    cases found : log.files.lookup name with
    | none => simp
    | some bytes => cases log.prunes calls.prune today name <;> simp [sameDay, Option.filter]

end DiagLog

/-! ## Runs -/

/-- What happens to a log. -/
inductive LogAction where
  | append (calls : Calls) (record : DiagRecord) (nowMs : UInt64)
  | crash (calls : Calls) (record : DiagRecord) (nowMs : UInt64) (count : Nat)
  | restart

namespace DiagLog

/-- A directory without a file, and a process that has just opened it. -/
def empty : DiagLog := ⟨∅, .new⟩

def step (crates : Crates) (log : DiagLog) : LogAction → DiagLog
  | .append calls record nowMs => (log.append crates calls record nowMs).1
  | .crash calls record nowMs count => log.crash crates calls record nowMs count
  | .restart => log.restart

@[simp] theorem step_append (crates : Crates) (log : DiagLog) (calls : Calls)
    (record : DiagRecord) (nowMs : UInt64) :
    log.step crates (.append calls record nowMs) = (log.append crates calls record nowMs).1 := rfl

end DiagLog

end Mosschat.Net.Diag
