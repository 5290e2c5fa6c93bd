import Mosschat.Net.Diag.Writer

/-!
Owns where the lines of a log go while every call works: the part of a day that an append
writes to, and the file that is open behind it.

Does not own whether that part is one of the newest, nor whether it has room.
-/

namespace Mosschat.Net.Diag

open Mosschat.Library Mosschat.Library.Machine

namespace DiagLog

/-- What is open is the file of the writer's part, whose length the writer knows. -/
structure Settled (log : DiagLog) : Prop where
  file : ∀ today, log.writer.openDate = some today →
    log.writer.file = some ⟨fileNameFor today log.writer.openPart, true⟩
  present : ∀ today, log.writer.openDate = some today →
    fileNameFor today log.writer.openPart ∈ log.files
  counted : ∀ today, log.writer.openDate = some today →
    log.writer.bytesWritten = (contents log.files (fileNameFor today log.writer.openPart)).length
  fits : log.writer.openPart < 2 ^ 32

theorem settled_new (files : Files) : Settled ⟨files, .new⟩ := by
  constructor
  · intro today isDay
    cases isDay
  · intro today isDay
    cases isDay
  · intro today isDay
    cases isDay
  · show 0 < 2 ^ 32
    decide

/-- The part the writer has open, once the day's file is. -/
def partBefore (today : Name) (log : DiagLog) : Nat :=
  if log.writer.openDate = some today then log.writer.openPart else 0

/-- The part a line of this length goes to. -/
def partAt (today : Name) (lineLen : Nat) (log : DiagLog) : Nat :=
  let part := log.partBefore today
  let size := (contents (log.standing .working today) (fileNameFor today part)).length
  if maxFileBytes < size + lineLen then partAfter part else part

/-- The file a line of this length goes to. -/
def fileAt (today : Name) (lineLen : Nat) (log : DiagLog) : Name :=
  fileNameFor today (log.partAt today lineLen)

/-- The files when the day's file is open, and the part the line goes to. -/
def opened (today : Name) (lineLen : Nat) (log : DiagLog) : Files :=
  let day :=
    if log.writer.openDate = some today then log.files
    else (log.standing .working today).orInsert (fileNameFor today 0) []
  day.orInsert (log.fileAt today lineLen) []

variable {log : DiagLog} {today : Name} {lineLen : Nat}

theorem contents_opened (today : Name) (lineLen : Nat) (log : DiagLog) (name : Name) :
    contents (log.opened today lineLen) name = contents (log.standing .working today) name := by
  unfold opened standing
  rw [(opens_orInsert _ _).contents_eq]
  split_ifs
  · rfl
  · exact (opens_orInsert _ _).contents_eq _

theorem mem_opened_iff (today : Name) (lineLen : Nat) (log : DiagLog) (name : Name) :
    name ∈ log.opened today lineLen ↔
      name = log.fileAt today lineLen ∨
        log.writer.openDate ≠ some today ∧ name = fileNameFor today 0 ∨
          name ∈ log.standing .working today := by
  unfold opened
  rw [HashMap.mem_orInsert]
  by_cases sameDay : log.writer.openDate = some today
  · simp [sameDay, standing]
  · simp [sameDay, HashMap.mem_orInsert]

theorem Settled.writer_eq (settled : log.Settled) (isDay : log.writer.openDate = some today) :
    log.writer =
      ⟨some today, log.writer.openPart, some ⟨fileNameFor today log.writer.openPart, true⟩,
        (contents log.files (fileNameFor today log.writer.openPart)).length⟩ := by
  rw [← settled.file today isDay, ← settled.counted today isDay, ← isDay]

/-- The day's first file is open. -/
theorem settled_opened (files : Files) (today : Name) :
    Settled
      ⟨files.orInsert (fileNameFor today 0) [],
        ⟨some today, 0, some ⟨fileNameFor today 0, true⟩,
          (contents files (fileNameFor today 0)).length⟩⟩ := by
  constructor
  · intro day isDay
    rw [Option.some.inj isDay]
  · intro day isDay
    rw [Option.some.inj isDay]
    exact (HashMap.mem_orInsert _ _ _ _).mpr (Or.inl rfl)
  · intro day isDay
    rw [Option.some.inj isDay, (opens_orInsert _ _).contents_eq]
  · show 0 < 2 ^ 32
    decide

/-- The line goes to the open file while it fits, and to the next part otherwise. -/
theorem makeRoom_working (settled : log.Settled) (isDay : log.writer.openDate = some today)
    {part : Nat}
    (isPart : part = if maxFileBytes < log.writer.bytesWritten + lineLen then
      partAfter log.writer.openPart else log.writer.openPart) :
    log.makeRoom .working lineLen =
      (⟨log.files.orInsert (fileNameFor today part) [],
        ⟨some today, part, some ⟨fileNameFor today part, true⟩,
          (contents log.files (fileNameFor today part)).length⟩⟩,
        .ok ⟨fileNameFor today part, true⟩) := by
  unfold makeRoom
  by_cases full : maxFileBytes < log.writer.bytesWritten + lineLen
  · rw [if_pos full] at isPart
    subst isPart
    rw [if_pos full, openNextPart_eq isDay, openPartFile_of_opens rfl]
    simp only [isDay]
    rfl
  · rw [if_neg full] at isPart
    subst isPart
    have unchanged : log.files.orInsert (fileNameFor today log.writer.openPart) [] = log.files :=
      if_pos (settled.present today isDay)
    rw [if_neg full, unchanged, ← settled.writer_eq isDay]
    simp only [settled.file today isDay]

/-- What an append does before its write, when every call works. -/
theorem prepare_working (settled : log.Settled) (today : Name) (lineLen : Nat) :
    log.prepare .working today lineLen =
      (⟨log.opened today lineLen,
        ⟨some today, log.partAt today lineLen, some ⟨log.fileAt today lineLen, true⟩,
          (contents (log.standing .working today) (log.fileAt today lineLen)).length⟩⟩,
        .ok ⟨log.fileAt today lineLen, true⟩) := by
  unfold prepare openDay
  by_cases sameDay : log.writer.openDate = some today
  · have isPart : log.partAt today lineLen =
        if maxFileBytes < log.writer.bytesWritten + lineLen then partAfter log.writer.openPart
        else log.writer.openPart := by
      unfold partAt partBefore standing
      rw [if_pos sameDay, if_pos sameDay, settled.counted today sameDay]
    unfold opened standing fileAt
    rw [if_pos sameDay, if_pos sameDay, if_pos sameDay]
    exact makeRoom_working settled sameDay isPart
  · have standsOn : (log.remove (log.prunes PruneCall.works today)).files =
        log.standing .working today := (if_neg sameDay).symm
    have isOpened := settled_opened (log.standing .working today) today
    have isPart : log.partAt today lineLen =
        if maxFileBytes <
            (contents (log.standing .working today) (fileNameFor today 0)).length + lineLen then
          partAfter 0
        else 0 := by
      unfold partAt partBefore
      rw [if_neg sameDay]
    rw [if_neg sameDay, rotateToDay_eq rfl, openPartFile_of_opens rfl]
    have room := makeRoom_working isOpened rfl isPart
    rw [(opens_orInsert _ _).contents_eq] at room
    unfold opened
    rw [if_neg sameDay]
    show makeRoom .working lineLen
      ⟨(log.remove (log.prunes PruneCall.works today)).files.orInsert (fileNameFor today 0) [],
        ⟨some today, 0, some ⟨fileNameFor today 0, true⟩,
          (contents (log.remove (log.prunes PruneCall.works today)).files
            (fileNameFor today 0)).length⟩⟩ = _
    rw [standsOn]
    exact room

/-- The file an append writes to. -/
theorem target_working (settled : log.Settled) (today : Name) (lineLen : Nat) :
    log.target .working today lineLen = some ⟨log.fileAt today lineLen, true⟩ := by
  rw [← prepare_ok_iff, prepare_working settled]

/-- A line that fits into the part that is open goes to it. -/
theorem partAt_of_fits {part : Nat} (isPart : log.partBefore today = part)
    (fits : (contents (log.standing .working today) (fileNameFor today part)).length + lineLen ≤
      maxFileBytes) : log.partAt today lineLen = part := by
  unfold partAt
  simp only [isPart]
  exact if_neg (Nat.not_lt.mpr fits)

theorem partAt_of_full {part : Nat} (isPart : log.partBefore today = part)
    (full : maxFileBytes <
      (contents (log.standing .working today) (fileNameFor today part)).length + lineLen) :
    log.partAt today lineLen = partAfter part := by
  unfold partAt
  simp only [isPart]
  exact if_pos full

theorem fileAt_of_fits {part : Nat} (isPart : log.partBefore today = part)
    (fits : (contents (log.standing .working today) (fileNameFor today part)).length + lineLen ≤
      maxFileBytes) : log.fileAt today lineLen = fileNameFor today part := by
  rw [fileAt, partAt_of_fits isPart fits]

theorem partBefore_new (files : Files) (today : Name) : partBefore today ⟨files, .new⟩ = 0 := by
  unfold partBefore
  rw [if_neg]
  intro isDay
  cases isDay

theorem drops_working (log : DiagLog) (today name : Name) :
    log.drops .working today name =
      (decide (log.writer.openDate ≠ some today) && isOld log.files today name) := rfl

theorem mem_standing_iff {calls : Calls} {name : Name} :
    name ∈ log.standing calls today ↔ log.drops calls today name = false ∧ name ∈ log.files := by
  rw [← AList.lookup_isSome, ← AList.lookup_isSome, lookup_standing]
  split_ifs with gone
  · simp [gone]
  · simp [Bool.eq_false_iff.mpr gone]

/-- What stands was there before. -/
theorem contents_standing (calls : Calls) (today : Name) (log : DiagLog) (name : Name) :
    contents (log.standing calls today) name =
      if log.drops calls today name then [] else contents log.files name := by
  unfold contents
  rw [lookup_standing]
  split_ifs
  · rfl
  · rfl

theorem standing_empty (today : Name) : empty.standing .working today = ∅ := by
  have nothing : empty.standing .working today = (∅ : Files).retain
      fun name _ => !isOld ∅ today name := rfl
  rw [nothing]
  exact HashMap.retain_eq_self fun name bytes found => by cases found

/-- A directory with one day in it stays as it is. -/
theorem standing_of_one_day (oneDay : ∀ day ∈ dayNames log.files, day = today) :
    log.standing .working today = log.files := by
  unfold standing
  split_ifs
  · rfl
  · show (log.files.retain fun name _ => !isOld log.files today name) = log.files
    apply HashMap.retain_eq_self
    intro name bytes _
    show (!isOld log.files today name) = true
    rw [isOld_eq_false_of_one_day oneDay]
    rfl

/-! ## An append -/

/-- The files when the bytes are behind those of the file a line goes to. -/
def extended (today : Name) (lineLen : Nat) (bytes : List UInt8) (log : DiagLog) : Files :=
  let name := log.fileAt today lineLen
  (log.opened today lineLen).put name (contents (log.standing .working today) name ++ bytes)

theorem contents_empty (name : Name) : contents ∅ name = [] := rfl

theorem contents_put (files : Files) (name other : Name) (bytes : List UInt8) :
    contents (files.put name bytes) other = if other = name then bytes else contents files other := by
  unfold contents
  rw [HashMap.lookup_put]
  split_ifs
  · rfl
  · rfl

/-- What stood, and the bytes behind it. -/
theorem contents_extended (today : Name) (lineLen : Nat) (bytes : List UInt8) (log : DiagLog)
    (name : Name) :
    contents (log.extended today lineLen bytes) name =
      contents (log.standing .working today) name ++
        if name = log.fileAt today lineLen then bytes else [] := by
  unfold extended
  rw [contents_put, contents_opened]
  split_ifs with isName
  · rw [isName]
  · rw [List.append_nil]

/-- The files there are: what stood, the day's first file when it is opened, and the file the
line goes to. -/
theorem mem_extended_iff (today : Name) (lineLen : Nat) (bytes : List UInt8) (log : DiagLog)
    (name : Name) :
    name ∈ log.extended today lineLen bytes ↔
      name = log.fileAt today lineLen ∨
        log.writer.openDate ≠ some today ∧ name = fileNameFor today 0 ∨
          name ∈ log.standing .working today := by
  unfold extended
  rw [HashMap.mem_put, mem_opened_iff, ← or_assoc, or_self]

/-- An append whose calls all work. -/
theorem append_working (settled : log.Settled) (crates : Crates) (record : DiagRecord)
    (nowMs : UInt64) :
    log.append crates .working record nowMs =
      (let today := dateOnly crates.calendar nowMs
      let line := crates.bytes record
      let name := log.fileAt today line.length
      ⟨log.extended today line.length line,
        ⟨some today, log.partAt today line.length, some ⟨name, true⟩,
          (contents (log.standing .working today) name).length + line.length⟩⟩, .ok true) := by
  unfold append extended
  simp only [prepare_working settled, write, if_true, contents_opened]

/-- A process that ends in the line it writes, when every call works. -/
theorem crash_working (settled : log.Settled) (crates : Crates) (record : DiagRecord)
    (nowMs : UInt64) (count : Nat) :
    log.crash crates .working record nowMs count =
      ⟨log.extended (dateOnly crates.calendar nowMs) (crates.bytes record).length
        ((crates.bytes record).take count), .new⟩ := by
  unfold crash extended
  simp only [prepare_working settled, write, if_true, contents_opened]

theorem partAfter_lt (part : Nat) : partAfter part < 2 ^ 32 := by
  unfold partAfter
  omega

theorem Settled.partBefore_lt (settled : log.Settled) (today : Name) :
    log.partBefore today < 2 ^ 32 := by
  unfold partBefore
  split_ifs
  · exact settled.fits
  · decide

theorem Settled.partAt_lt (settled : log.Settled) (today : Name) (lineLen : Nat) :
    log.partAt today lineLen < 2 ^ 32 := by
  unfold partAt
  simp only
  split_ifs
  · exact partAfter_lt _
  · exact settled.partBefore_lt today

theorem Settled.append (settled : log.Settled) (crates : Crates) (record : DiagRecord)
    (nowMs : UInt64) : (log.append crates .working record nowMs).1.Settled := by
  have fits := settled.partAt_lt (dateOnly crates.calendar nowMs) (crates.bytes record).length
  rw [append_working settled]
  constructor
  · intro today isDay
    rw [← Option.some.inj isDay]
    rfl
  · intro today isDay
    rw [← Option.some.inj isDay]
    exact (mem_extended_iff _ _ _ _ _).mpr (Or.inl rfl)
  · intro today isDay
    rw [← Option.some.inj isDay]
    show _ = (contents (log.extended _ _ _) (log.fileAt _ _)).length
    rw [contents_extended, if_pos rfl, List.length_append]
  · exact fits

end DiagLog

/-- A process is not ended in an append, and no call of one fails. -/
def LogAction.Works : LogAction → Prop
  | .append calls _ _ => calls = .working
  | .crash _ _ _ _ => False
  | .restart => True

/-- Every file is one of a day, with its part. -/
def Named (files : Files) : Prop :=
  ∀ name ∈ files, ∃ day part, isDateShaped day = true ∧ part < 2 ^ 32 ∧
    name = fileNameFor day part

theorem named_empty : Named ∅ := fun name inside => absurd inside (AList.notMem_empty name)

theorem Named.append {log : DiagLog} (named : Named log.files) (settled : log.Settled)
    (crates : Crates) (record : DiagRecord) (nowMs : UInt64) :
    Named (log.append crates .working record nowMs).1.files := by
  have shaped := isDateShaped_dateOnly crates.calendar nowMs
  intro name inside
  rw [DiagLog.append_working settled] at inside
  rcases (DiagLog.mem_extended_iff _ _ _ _ _).mp inside with isFile | ⟨-, isFile⟩ | stood
  · exact ⟨_, _, shaped, settled.partAt_lt _ _, isFile⟩
  · exact ⟨_, 0, shaped, by decide, isFile⟩
  · exact named name (DiagLog.mem_standing_iff.mp stood).2

theorem DiagLog.Settled.step {log : DiagLog} (settled : log.Settled) (crates : Crates)
    {action : LogAction} (works : action.Works) : (log.step crates action).Settled := by
  cases action with
  | append calls record nowMs =>
      rw [show calls = .working from works]
      exact settled.append crates record nowMs
  | crash calls record nowMs count => exact works.elim
  | restart => exact settled_new log.files

theorem DiagLog.run_works {crates : Crates} {actions : List LogAction}
    (works : ∀ action ∈ actions, action.Works) :
    (run (DiagLog.step crates) .empty actions).Settled ∧
      Named (run (DiagLog.step crates) .empty actions).files := by
  have kept : ∀ (log : DiagLog) (action : LogAction), log.Settled ∧ Named log.files →
      action ∈ actions →
        (log.step crates action).Settled ∧ Named (log.step crates action).files := by
    intro log action both inside
    have isWorking := works action inside
    refine ⟨both.1.step crates isWorking, ?_⟩
    cases action with
    | append calls record nowMs =>
        rw [show calls = .working from isWorking]
        exact both.2.append both.1 crates record nowMs
    | crash calls record nowMs count => exact isWorking.elim
    | restart => exact both.2
  exact run_preserves kept ⟨settled_new ∅, named_empty⟩ (guarded_mem _ _)

end Mosschat.Net.Diag
