import Mosschat.Net.Diag.Durability

/-!
Owns the caps of the diagnostics log: over every order of appends and processes in one
directory, how long its files are and how many days it holds.

Does not own what the files say.
-/

namespace Mosschat.Net.Diag

open Mosschat.Library Mosschat.Library.Machine

/-- A line no longer than a file may be is appended and every call works, or a process comes
after another. -/
def LogAction.Sized (crates : Crates) : LogAction → Prop
  | .append calls record _ => calls = .working ∧ (crates.bytes record).length ≤ maxFileBytes
  | .crash _ _ _ _ => False
  | .restart => True

namespace DiagLog

/-- The day whose file the action opens, if it does. -/
def rotatesTo (crates : Crates) (log : DiagLog) : LogAction → Option Name
  | .append _ _ nowMs =>
    let today := dateOnly crates.calendar nowMs
    if log.writer.openDate = some today then none else some today
  | .crash _ _ _ _ => none
  | .restart => none

/-- After the action no file is over the cap; when it has opened a day's file, the days are
no more than are kept; and what it pruned for that is no file of the day, nor of a day newer
than one that is kept. -/
structure Capped (crates : Crates) (log : DiagLog) (action : LogAction) : Prop where
  sizes : ∀ name, (contents (log.step crates action).files name).length ≤ maxFileBytes
  days : ∀ today, log.rotatesTo crates action = some today →
    (dayNames (log.step crates action).files).dedup.length ≤ maxFilesKept
  spared : ∀ today, log.rotatesTo crates action = some today → ∀ name,
    log.unlinks crates action name = true → dayPrefix name ≠ some today
  oldest : ∀ name other day otherDay, log.unlinks crates action name = true →
    dayPrefix name = some day → other ∈ (log.step crates action).files →
      dayPrefix other = some otherDay → day ≤ otherDay

/-- Fewer days than are kept are newer than one whose file is opened, and the line has room in
the part that is open for its day or in the next one. -/
def Roomy (crates : Crates) (log : DiagLog) : LogAction → Prop
  | .append _ record nowMs =>
    let today := dateOnly crates.calendar nowMs
    let part := log.partBefore today
    let size := fun part => (contents log.files (fileNameFor today part)).length
    (log.writer.openDate ≠ some today →
        (Ranked.newer today (dayNames log.files)).length < maxFilesKept) ∧
      (size part + (crates.bytes record).length ≤ maxFileBytes ∨
        size (partAfter part) + (crates.bytes record).length ≤ maxFileBytes)
  | .crash _ _ _ _ => True
  | .restart => True

/-- The files are the log's own, and none is over the cap. -/
structure Tidy (log : DiagLog) : Prop where
  settled : log.Settled
  named : Named log.files
  sizes : ∀ name, (contents log.files name).length ≤ maxFileBytes

theorem tidy_empty : empty.Tidy :=
  ⟨settled_new ∅, named_empty, fun _ => Nat.zero_le _⟩

section Days

variable {log : DiagLog} {today : Name}

/-- A file of the day that is opened is pruned exactly when as many days as are kept are
newer. -/
theorem drops_today_iff (shaped : isDateShaped today = true)
    (rotates : log.writer.openDate ≠ some today) (part : Nat) :
    log.drops .working today (fileNameFor today part) = true ↔
      maxFilesKept ≤ (Ranked.newer today (dayNames log.files)).length := by
  rw [drops_working, decide_eq_true rotates, Bool.true_and, isOld_iff,
    dayPrefix_fileNameFor shaped, ← today_mem_oldDays_iff]
  constructor
  · intro isOld
    obtain ⟨day, isDay, inside⟩ := isOld
    exact Option.some.inj isDay ▸ inside
  · intro inside
    exact ⟨today, rfl, inside⟩

theorem drops_iff {name : Name} :
    log.drops .working today name = true ↔
      log.writer.openDate ≠ some today ∧
        ∃ day, dayPrefix name = some day ∧ day ∈ oldDays log.files today := by
  rw [drops_working, Bool.and_eq_true, decide_eq_true_iff, isOld_iff]

/-- While fewer days are newer, a file of the day stands as it was. -/
theorem contents_standing_today (shaped : isDateShaped today = true)
    (few : log.writer.openDate ≠ some today →
      (Ranked.newer today (dayNames log.files)).length < maxFilesKept) (part : Nat) :
    contents (log.standing .working today) (fileNameFor today part) =
      contents log.files (fileNameFor today part) := by
  rw [contents_standing, if_neg]
  intro gone
  by_cases rotates : log.writer.openDate = some today
  · rw [drops_working, decide_eq_false (not_not.mpr rotates)] at gone
    cases gone
  · exact absurd ((drops_today_iff shaped rotates part).mp gone) (Nat.not_le.mpr (few rotates))

/-- The days of the files that stand are the newest ones. -/
theorem mem_newest_of_standing (rotates : log.writer.openDate ≠ some today) {name day : Name}
    (stands : name ∈ log.standing .working today) (isLog : extension.isSuffixOf name = true)
    (isDay : dayPrefix name = some day) :
    day ∈ Ranked.newest maxFilesKept (today :: dayNames log.files) := by
  obtain ⟨kept, inside⟩ := mem_standing_iff.mp stands
  rw [drops_working, decide_eq_true rotates, Bool.true_and] at kept
  rw [Ranked.mem_newest_iff]
  refine ⟨List.mem_cons_of_mem _ (mem_dayNames_iff.mpr ⟨name, inside, isLog, isDay⟩), ?_⟩
  intro isOldest
  rw [isOld_iff.mpr ⟨day, isDay, isOldest⟩] at kept
  cases kept

/-- The newest days are those of files that stand, and the day itself. -/
theorem exists_standing_of_newest (rotates : log.writer.openDate ≠ some today) {day : Name}
    (isNewest : day ∈ Ranked.newest maxFilesKept (today :: dayNames log.files)) :
    day = today ∨ ∃ name ∈ log.standing .working today,
      extension.isSuffixOf name = true ∧ dayPrefix name = some day := by
  obtain ⟨inside, notOldest⟩ := Ranked.mem_newest_iff.mp isNewest
  rcases List.mem_cons.mp inside with isToday | isDay
  · exact Or.inl isToday
  · obtain ⟨name, isFile, isLog, isPrefix⟩ := mem_dayNames_iff.mp isDay
    refine Or.inr ⟨name, mem_standing_iff.mpr ⟨?_, isFile⟩, isLog, isPrefix⟩
    rw [drops_working, decide_eq_true rotates, Bool.true_and, Bool.eq_false_iff, ne_eq, isOld_iff]
    intro isOld
    obtain ⟨other, isOther, isOldest⟩ := isOld
    rw [isPrefix] at isOther
    exact notOldest (Option.some.inj isOther ▸ isOldest)

/-- The days when a day's file is open: the newest ones, and that day. -/
theorem mem_dayNames_extended_iff (shaped : isDateShaped today = true)
    (rotates : log.writer.openDate ≠ some today) (lineLen : Nat) (bytes : List UInt8)
    {day : Name} :
    day ∈ dayNames (log.extended today lineLen bytes) ↔
      day = today ∨ day ∈ Ranked.newest maxFilesKept (today :: dayNames log.files) := by
  rw [mem_dayNames_iff]
  constructor
  · intro isDay
    obtain ⟨name, inside, isLog, isPrefix⟩ := isDay
    rcases (mem_extended_iff _ _ _ _ _).mp inside with isFile | ⟨-, isFile⟩ | stands
    · rw [isFile, fileAt, dayPrefix_fileNameFor shaped] at isPrefix
      exact Or.inl (Option.some.inj isPrefix).symm
    · rw [isFile, dayPrefix_fileNameFor shaped] at isPrefix
      exact Or.inl (Option.some.inj isPrefix).symm
    · exact Or.inr (mem_newest_of_standing rotates stands isLog isPrefix)
  · intro isDay
    have here : ∃ name ∈ log.extended today lineLen bytes,
        extension.isSuffixOf name = true ∧ dayPrefix name = some today :=
      ⟨_, (mem_extended_iff _ _ _ _ _).mpr (Or.inl rfl), isSuffixOf_fileNameFor _ _,
        dayPrefix_fileNameFor shaped _⟩
    rcases isDay with isToday | isNewest
    · rw [isToday]
      exact here
    · rcases exists_standing_of_newest rotates isNewest with isToday | ⟨name, stands, isPrefix⟩
      · rw [isToday]
        exact here
      · exact ⟨name, (mem_extended_iff _ _ _ _ _).mpr (Or.inr (Or.inr stands)), isPrefix⟩

/-- While fewer days are newer, every file that is left is of one of the newest. -/
theorem newest_of_mem_extended (named : Named log.files) (shaped : isDateShaped today = true)
    (rotates : log.writer.openDate ≠ some today)
    (few : (Ranked.newer today (dayNames log.files)).length < maxFilesKept) {lineLen : Nat}
    {bytes : List UInt8} {name day : Name} (inside : name ∈ log.extended today lineLen bytes)
    (isDay : dayPrefix name = some day) :
    day ∈ today :: dayNames log.files ∧ day ∉ oldDays log.files today := by
  have isToday : today ∈ today :: dayNames log.files ∧ today ∉ oldDays log.files today := by
    refine ⟨List.mem_cons_self, ?_⟩
    intro isOldest
    exact Nat.not_lt.mpr (today_mem_oldDays_iff.mp isOldest) few
  rcases (mem_extended_iff _ _ _ _ _).mp inside with isFile | ⟨-, isFile⟩ | stands
  · rw [isFile, fileAt, dayPrefix_fileNameFor shaped] at isDay
    exact Option.some.inj isDay ▸ isToday
  · rw [isFile, dayPrefix_fileNameFor shaped] at isDay
    exact Option.some.inj isDay ▸ isToday
  · obtain ⟨_, part, _, _, isName⟩ := named name (mem_standing_iff.mp stands).2
    have isLog : extension.isSuffixOf name = true := by
      rw [isName]
      exact isSuffixOf_fileNameFor _ _
    exact Ranked.mem_newest_iff.mp (mem_newest_of_standing rotates stands isLog isDay)

/-- Opening a day's file leaves no more days than are kept exactly when fewer are newer. -/
theorem length_days_iff (shaped : isDateShaped today = true)
    (rotates : log.writer.openDate ≠ some today) (lineLen : Nat) (bytes : List UInt8) :
    (dayNames (log.extended today lineLen bytes)).dedup.length ≤ maxFilesKept ↔
      (Ranked.newer today (dayNames log.files)).length < maxFilesKept := by
  have isDay : ∀ day, day ∈ dayNames (log.extended today lineLen bytes) ↔
      day = today ∨ day ∈ Ranked.newest maxFilesKept (today :: dayNames log.files) :=
    fun _ => mem_dayNames_extended_iff shaped rotates lineLen bytes
  constructor
  · intro few
    by_contra many
    have isOldest : today ∈ Ranked.oldest maxFilesKept (today :: dayNames log.files) :=
      today_mem_oldDays_iff.mpr (Nat.not_lt.mp many)
    have distinct : (today :: Ranked.newest maxFilesKept (today :: dayNames log.files)).Nodup := by
      rw [List.nodup_cons]
      exact ⟨fun isNewest => (Ranked.mem_newest_iff.mp isNewest).2 isOldest,
        Ranked.nodup_newest _ _⟩
    have inside : today :: Ranked.newest maxFilesKept (today :: dayNames log.files) ⊆
        (dayNames (log.extended today lineLen bytes)).dedup := by
      intro day isIn
      rw [List.mem_dedup, isDay]
      exact List.mem_cons.mp isIn
    have length := (List.subperm_of_subset distinct inside).length_le
    rw [List.length_cons, Ranked.length_newest_of_mem_oldest isOldest] at length
    omega
  · intro few
    have isNewest : today ∈ Ranked.newest maxFilesKept (today :: dayNames log.files) := by
      rw [Ranked.mem_newest_iff]
      refine ⟨List.mem_cons_self, ?_⟩
      intro isOldest
      exact Nat.not_lt.mpr (today_mem_oldDays_iff.mp isOldest) few
    have inside : (dayNames (log.extended today lineLen bytes)).dedup ⊆
        Ranked.newest maxFilesKept (today :: dayNames log.files) := by
      intro day isIn
      rw [List.mem_dedup, isDay] at isIn
      rcases isIn with isToday | isIn
      · rw [isToday]
        exact isNewest
      · exact isIn
    have length := (List.subperm_of_subset (List.nodup_dedup _) inside).length_le
    exact length.trans (Ranked.length_newest_le _ _)

end Days

section Steps

variable {crates : Crates} {log : DiagLog} {record : DiagRecord} {nowMs : UInt64}

theorem files_step_working (settled : log.Settled) (crates : Crates) (record : DiagRecord)
    (nowMs : UInt64) :
    (log.step crates (.append .working record nowMs)).files =
      log.extended (dateOnly crates.calendar nowMs) (crates.bytes record).length
        (crates.bytes record) := by
  show (log.append crates .working record nowMs).1.files = _
  rw [append_working settled]

theorem rotatesTo_append {calls : Calls} {today : Name}
    (rotates : log.rotatesTo crates (.append calls record nowMs) = some today) :
    today = dateOnly crates.calendar nowMs ∧ log.writer.openDate ≠ some today := by
  unfold rotatesTo at rotates
  simp only at rotates
  split_ifs at rotates with sameDay
  rw [← Option.some.inj rotates]
  exact ⟨rfl, sameDay⟩

/-- The file the line goes to keeps within the cap exactly when the line has room in the part
that is open or in the next. -/
theorem length_fileAt_iff (few : log.writer.openDate ≠ some (dateOnly crates.calendar nowMs) →
      (Ranked.newer (dateOnly crates.calendar nowMs) (dayNames log.files)).length < maxFilesKept)
    (lineLen : Nat) :
    (contents (log.standing .working (dateOnly crates.calendar nowMs))
        (log.fileAt (dateOnly crates.calendar nowMs) lineLen)).length + lineLen ≤ maxFileBytes ↔
      (contents log.files (fileNameFor (dateOnly crates.calendar nowMs)
          (log.partBefore (dateOnly crates.calendar nowMs)))).length + lineLen ≤ maxFileBytes ∨
        (contents log.files (fileNameFor (dateOnly crates.calendar nowMs)
          (partAfter (log.partBefore (dateOnly crates.calendar nowMs))))).length + lineLen ≤
            maxFileBytes := by
  have stood := contents_standing_today (isDateShaped_dateOnly crates.calendar nowMs) few
  unfold fileAt partAt
  simp only [stood]
  by_cases full : maxFileBytes < (contents log.files (fileNameFor (dateOnly crates.calendar nowMs)
      (log.partBefore (dateOnly crates.calendar nowMs)))).length + lineLen
  · rw [if_pos full]
    exact ⟨Or.inr, fun room => room.resolve_left (Nat.not_le.mpr full)⟩
  · rw [if_neg full]
    exact ⟨Or.inl, fun _ => Nat.not_lt.mp full⟩

theorem Tidy.standing (tidy : log.Tidy) (calls : Calls) (today name : Name) :
    (contents (log.standing calls today) name).length ≤ maxFileBytes := by
  rw [contents_standing]
  split_ifs
  · exact Nat.zero_le _
  · exact tidy.sizes name

/-- No file is over the cap exactly when the one the line goes to is not. -/
theorem Tidy.sizes_iff (tidy : log.Tidy) (crates : Crates) (record : DiagRecord)
    (nowMs : UInt64) :
    (∀ name, (contents (log.step crates (.append .working record nowMs)).files name).length ≤
        maxFileBytes) ↔
      (contents (log.standing .working (dateOnly crates.calendar nowMs))
        (log.fileAt (dateOnly crates.calendar nowMs) (crates.bytes record).length)).length +
          (crates.bytes record).length ≤ maxFileBytes := by
  rw [files_step_working tidy.settled]
  simp only [contents_extended, List.length_append]
  constructor
  · intro capped
    have here := capped (log.fileAt (dateOnly crates.calendar nowMs) (crates.bytes record).length)
    rw [if_pos rfl] at here
    exact here
  · intro room name
    split_ifs with isFile
    · rw [isFile]
      exact room
    · exact tidy.standing .working _ name

/-- An append keeps the caps exactly when it has room for its line and for its day. -/
theorem Tidy.capped_append_iff (tidy : log.Tidy) (crates : Crates) (record : DiagRecord)
    (nowMs : UInt64) :
    log.Capped crates (.append .working record nowMs) ↔
      log.Roomy crates (.append .working record nowMs) := by
  have shaped := isDateShaped_dateOnly crates.calendar nowMs
  have sizes := tidy.sizes_iff crates record nowMs
  have files := files_step_working tidy.settled crates record nowMs
  constructor
  · intro capped
    have few : log.writer.openDate ≠ some (dateOnly crates.calendar nowMs) →
        (Ranked.newer (dateOnly crates.calendar nowMs) (dayNames log.files)).length <
          maxFilesKept := by
      intro rotates
      have days := capped.days _ (if_neg rotates)
      rw [files, length_days_iff shaped rotates] at days
      exact days
    exact ⟨few, (length_fileAt_iff few _).mp (sizes.mp capped.sizes)⟩
  · intro roomy
    obtain ⟨few, room⟩ := roomy
    constructor
    · exact sizes.mpr ((length_fileAt_iff few _).mpr room)
    · intro today rotates
      obtain ⟨isToday, isOther⟩ := rotatesTo_append rotates
      subst isToday
      rw [files, length_days_iff shaped isOther]
      exact few isOther
    · intro today rotates name gone isDay
      obtain ⟨isToday, isOther⟩ := rotatesTo_append rotates
      subst isToday
      obtain ⟨-, day, isPrefix, isOldest⟩ := drops_iff.mp gone
      rw [isDay] at isPrefix
      rw [← Option.some.inj isPrefix] at isOldest
      exact Nat.not_lt.mpr (today_mem_oldDays_iff.mp isOldest) (few isOther)
    · intro name other day otherDay gone isDay inside isOtherDay
      obtain ⟨isOther, old, isPrefix, isOldest⟩ := drops_iff.mp gone
      rw [isDay] at isPrefix
      rw [← Option.some.inj isPrefix] at isOldest
      rw [files] at inside
      obtain ⟨isIn, notOldest⟩ := newest_of_mem_extended tidy.named shaped isOther (few isOther)
        inside isOtherDay
      exact (Ranked.lt_of_mem_oldest isOldest isIn notOldest).le

theorem Tidy.capped_iff (tidy : log.Tidy) {action : LogAction} (sized : action.Sized crates) :
    log.Capped crates action ↔ log.Roomy crates action := by
  cases action with
  | append calls record nowMs =>
      rw [sized.1]
      exact tidy.capped_append_iff crates record nowMs
  | crash calls record nowMs count => exact sized.elim
  | restart =>
      refine ⟨fun _ => trivial, fun _ => ⟨tidy.sizes, ?_, ?_, ?_⟩⟩
      · intro today rotates
        cases rotates
      · intro today rotates
        cases rotates
      · intro name other day otherDay gone
        cases gone

theorem Tidy.step (tidy : log.Tidy) {action : LogAction} (sized : action.Sized crates)
    (roomy : log.Roomy crates action) : (log.step crates action).Tidy := by
  have capped := (tidy.capped_iff sized).mpr roomy
  cases action with
  | append calls record nowMs =>
      obtain ⟨isWorking, -⟩ := sized
      subst isWorking
      exact ⟨tidy.settled.append crates record nowMs,
        tidy.named.append tidy.settled crates record nowMs, capped.sizes⟩
  | crash calls record nowMs count => exact sized.elim
  | restart => exact ⟨settled_new _, tidy.named, tidy.sizes⟩

end Steps

end DiagLog

/-- The caps are kept by every action of a run exactly when each finds room. -/
theorem files_capped_iff {crates : Crates} {actions : List LogAction}
    (sized : ∀ action ∈ actions, action.Sized crates) :
    Guarded (DiagLog.step crates) (DiagLog.Capped crates) .empty actions ↔
      Guarded (DiagLog.step crates) (DiagLog.Roomy crates) .empty actions := by
  have inRun : ∀ guard : DiagLog → LogAction → Prop,
      Guarded (DiagLog.step crates) guard .empty actions ↔
        Guarded (DiagLog.step crates) (fun log action => guard log action ∧ action ∈ actions)
          .empty actions := by
    intro guard
    rw [guarded_and]
    exact (and_iff_left (guarded_mem _ _)).symm
  have kept : ∀ (log : DiagLog) (action : LogAction), log.Tidy →
      log.Roomy crates action ∧ action ∈ actions → (log.step crates action).Tidy := by
    intro log action tidy guard
    exact tidy.step (sized action guard.2) guard.1
  have same : ∀ (log : DiagLog) (action : LogAction), log.Tidy →
      (log.Capped crates action ∧ action ∈ actions ↔
        log.Roomy crates action ∧ action ∈ actions) := by
    intro log action tidy
    exact and_congr_left fun inside => tidy.capped_iff (sized action inside)
  rw [inRun (DiagLog.Capped crates), inRun (DiagLog.Roomy crates)]
  exact guarded_congr kept same DiagLog.tidy_empty

/-- A record so many times more. -/
def DiagLog.filledPart (record : DiagRecord) (count : Nat) : List LogAction :=
  .append .working record 0 :: List.replicate count (.append .working record 0)

theorem DiagLog.mem_filledPart {record : DiagRecord} {count : Nat} {action : LogAction}
    (inside : action ∈ filledPart record count) : action = .append .working record 0 := by
  rcases List.mem_cons.mp inside with isFirst | isOther
  · exact isFirst
  · exact List.eq_of_mem_replicate isOther

/-- A record fills a part and begins the next one, and another process appends it a day later. -/
def partAndDay : List LogAction :=
  DiagLog.filledPart DiagRecord.gateOnly 6204 ++
    [.restart, .append .working DiagRecord.gateOnly 86400000]

theorem sized_partAndDay : ∀ action ∈ partAndDay, action.Sized twoDayCrates := by
  have fits : (twoDayCrates.bytes DiagRecord.gateOnly).length ≤ maxFileBytes := by
    rw [length_twoDay_bytes]
    decide
  unfold partAndDay
  rw [List.forall_mem_append, List.forall_mem_cons, List.forall_mem_singleton]
  refine ⟨?_, trivial, rfl, fits⟩
  intro action inside
  rw [DiagLog.mem_filledPart inside]
  exact ⟨rfl, fits⟩

theorem files_capped_iff_partAndDay :
    Guarded (DiagLog.step twoDayCrates) (DiagLog.Capped twoDayCrates) .empty partAndDay ↔
      Guarded (DiagLog.step twoDayCrates) (DiagLog.Roomy twoDayCrates) .empty partAndDay :=
  files_capped_iff sized_partAndDay

/-! ## Two full parts -/

namespace DiagLog

/-- The day's part 0 or 1 is open, the two are so long, and nothing else is there. -/
structure Filling (today : Name) (log : DiagLog) (part first second : Nat) : Prop where
  settled : log.Settled
  isDay : log.writer.openDate = some today
  isPart : log.writer.openPart = part
  firstSize : (contents log.files (fileNameFor today 0)).length = first
  secondSize : (contents log.files (fileNameFor today 1)).length = second
  only : ∀ name ∈ log.files, name = fileNameFor today 0 ∨ name = fileNameFor today 1

variable {crates : Crates} {log : DiagLog} {record : DiagRecord} {nowMs : UInt64}

theorem fileNameFor_inj {today : Name} (shaped : isDateShaped today = true) {part other : Nat}
    (fits : part < 2 ^ 32) (otherFits : other < 2 ^ 32) :
    fileNameFor today part = fileNameFor today other ↔ part = other := by
  constructor
  · intro same
    rw [← partOf_fileNameFor shaped fits, same, partOf_fileNameFor shaped otherFits]
  · intro same
    rw [same]

theorem length_append (settled : log.Settled) (crates : Crates) (record : DiagRecord)
    (nowMs : UInt64) {part : Nat} (fits : part < 2 ^ 32) :
    (contents (log.append crates .working record nowMs).1.files
        (fileNameFor (dateOnly crates.calendar nowMs) part)).length =
      (contents (log.standing .working (dateOnly crates.calendar nowMs))
        (fileNameFor (dateOnly crates.calendar nowMs) part)).length +
        if part = log.partAt (dateOnly crates.calendar nowMs) (crates.bytes record).length then
          (crates.bytes record).length
        else 0 := by
  have shaped := isDateShaped_dateOnly crates.calendar nowMs
  rw [append_working settled]
  simp only [contents_extended, fileAt,
    fileNameFor_inj shaped fits (settled.partAt_lt _ _), List.length_append]
  split_ifs
  · rfl
  · rfl

/-- A line goes to the part that is open while it fits, and to part 1 from part 0. -/
theorem Filling.append {part first second size : Nat}
    (filling : Filling (dateOnly crates.calendar nowMs) log part first second)
    (length : (crates.bytes record).length = size) {next : Nat} (isPart : next = 0 ∨ next = 1)
    (isNext : log.partAt (dateOnly crates.calendar nowMs) size = next) :
    Filling (dateOnly crates.calendar nowMs) (log.append crates .working record nowMs).1 next
      (first + if 0 = next then size else 0) (second + if 1 = next then size else 0) := by
  have stands : log.standing .working (dateOnly crates.calendar nowMs) = log.files :=
    if_pos filling.isDay
  constructor
  · exact filling.settled.append crates record nowMs
  · rw [append_working filling.settled]
  · rw [append_working filling.settled, ← isNext, ← length]
  · rw [length_append filling.settled crates record nowMs (by decide), stands, filling.firstSize,
      length, isNext]
  · rw [length_append filling.settled crates record nowMs (by decide), stands, filling.secondSize,
      length, isNext]
  · intro name inside
    rw [append_working filling.settled] at inside
    rcases (mem_extended_iff _ _ _ _ _).mp inside with isFile | ⟨-, isFile⟩ | stood
    · rw [isFile, fileAt, length, isNext]
      rcases isPart with isFirst | isSecond
      · rw [isFirst]
        exact Or.inl rfl
      · rw [isSecond]
        exact Or.inr rfl
    · exact Or.inl isFile
    · exact filling.only name (stands ▸ stood)

/-- The part a line goes to, of the two. -/
theorem Filling.partAt_eq {today : Name} {part first second : Nat}
    (filling : Filling today log part first second) (isPart : part = 0 ∨ part = 1)
    (size : Nat) :
    log.partAt today size =
      if maxFileBytes < (if part = 0 then first else second) + size then part + 1 else part := by
  have stands : log.standing .working today = log.files := if_pos filling.isDay
  have before : log.partBefore today = part := by
    rw [partBefore, if_pos filling.isDay, filling.isPart]
  have length : (contents (log.standing .working today) (fileNameFor today part)).length =
      if part = 0 then first else second := by
    rw [stands]
    rcases isPart with isFirst | isSecond
    · rw [isFirst, filling.firstSize, if_pos rfl]
    · rw [isSecond, filling.secondSize, if_neg Nat.one_ne_zero]
  have after : partAfter part = part + 1 := by
    unfold partAfter
    omega
  by_cases full : maxFileBytes < (if part = 0 then first else second) + size
  · rw [if_pos full, partAt_of_full before (length ▸ full), after]
  · rw [if_neg full]
    exact partAt_of_fits before (length ▸ Nat.not_lt.mp full)

/-- Lines that fit into the part that is open go to it. -/
theorem Filling.fill {part first second size : Nat}
    (filling : Filling (dateOnly crates.calendar nowMs) log part first second)
    (isPart : part = 0 ∨ part = 1) (length : (crates.bytes record).length = size) (count : Nat)
    (fits : (if part = 0 then first else second) + count * size ≤ maxFileBytes) :
    Filling (dateOnly crates.calendar nowMs)
      (run (DiagLog.step crates) log (List.replicate count (.append .working record nowMs))) part
      (first + if 0 = part then count * size else 0)
      (second + if 1 = part then count * size else 0) := by
  induction count generalizing log first second with
  | zero => simpa using filling
  | succ count ih =>
      have sum : (count + 1) * size = size + count * size := by
        rw [Nat.add_mul, Nat.one_mul, Nat.add_comm]
      rw [sum] at fits
      have isNext : log.partAt (dateOnly crates.calendar nowMs) size = part := by
        rw [filling.partAt_eq isPart, if_neg (by omega)]
      have appended := filling.append length isPart isNext
      have fitsNext : (if part = 0 then first + (if 0 = part then size else 0)
          else second + (if 1 = part then size else 0)) + count * size ≤ maxFileBytes := by
        rcases isPart with isFirst | isSecond
        · subst isFirst
          simp only [if_true] at fits ⊢
          omega
        · subst isSecond
          simp only [Nat.one_ne_zero, if_false, if_true] at fits ⊢
          omega
      have filled := ih appended fitsNext
      rw [List.replicate_succ, run_cons, step_append, sum]
      rcases isPart with isFirst | isSecond
      · subst isFirst
        simpa [Nat.add_assoc] using filled
      · subst isSecond
        simpa [Nat.add_assoc] using filled

/-- The first line of an empty directory goes to part 0. -/
theorem partAt_empty {size : Nat} (today : Name) (fits : size ≤ maxFileBytes) :
    empty.partAt today size = 0 := by
  have isBefore : empty.partBefore today = 0 := partBefore_new ∅ _
  apply partAt_of_fits isBefore
  rw [standing_empty, contents_empty, List.length_nil, Nat.zero_add]
  exact fits

theorem only_first (crates : Crates) (record : DiagRecord) (nowMs : UInt64)
    (fits : (crates.bytes record).length ≤ maxFileBytes) :
    ∀ name ∈ (empty.append crates .working record nowMs).1.files,
      name = fileNameFor (dateOnly crates.calendar nowMs) 0 := by
  intro name inside
  have settled : empty.Settled := settled_new ∅
  rw [append_working settled] at inside
  rcases (mem_extended_iff _ _ _ _ _).mp inside with isFile | ⟨-, isFile⟩ | stood
  · rw [isFile, fileAt]
    exact congrArg _ (partAt_empty _ fits)
  · exact isFile
  · rw [standing_empty] at stood
    exact absurd stood (AList.notMem_empty name)

theorem filling_first (crates : Crates) (record : DiagRecord) (nowMs : UInt64)
    (fits : (crates.bytes record).length ≤ maxFileBytes) :
    Filling (dateOnly crates.calendar nowMs) (empty.append crates .working record nowMs).1 0
      (crates.bytes record).length 0 := by
  have settled : empty.Settled := settled_new ∅
  have isPart := partAt_empty (dateOnly crates.calendar nowMs) fits
  constructor
  · exact settled.append crates record nowMs
  · rw [append_working settled]
  · rw [append_working settled]
    exact isPart
  · rw [length_append settled crates record nowMs (by decide), standing_empty, contents_empty,
      isPart, if_pos rfl, List.length_nil, Nat.zero_add]
  · rw [length_append settled crates record nowMs (by decide), standing_empty, contents_empty,
      isPart, if_neg Nat.one_ne_zero, List.length_nil]
  · intro name inside
    exact Or.inl (only_first crates record nowMs fits name inside)

/-- Part 0, when it is filled. -/
theorem filling_filledPart {size count : Nat} (length : (crates.bytes record).length = size)
    (fits : size + count * size ≤ maxFileBytes) :
    Filling (dateOnly crates.calendar 0) (run (step crates) empty (filledPart record count)) 0
      (size + count * size) 0 := by
  have alone : (crates.bytes record).length ≤ maxFileBytes := by omega
  have first := filling_first crates record 0 alone
  rw [length] at first
  have filled := first.fill (Or.inl rfl) length count (by simpa using fits)
  simp only [Nat.one_ne_zero, if_true, if_false, Nat.add_zero] at filled
  unfold filledPart
  rw [run_cons, step_append]
  exact filled

/-- As many lines as fit into a part, and as many again. -/
def twoParts (record : DiagRecord) (count : Nat) : List LogAction :=
  filledPart record count ++ filledPart record count

theorem works_twoParts (record : DiagRecord) (count : Nat) :
    ∀ action ∈ twoParts record count, action = .append .working record 0 := by
  intro action inside
  rcases List.mem_append.mp inside with isFirst | isSecond
  · exact mem_filledPart isFirst
  · exact mem_filledPart isSecond

theorem filling_twoParts {size count : Nat} (length : (crates.bytes record).length = size)
    (fits : size + count * size ≤ maxFileBytes)
    (full : maxFileBytes < size + count * size + size) :
    Filling (dateOnly crates.calendar 0) (run (step crates) empty (twoParts record count)) 1
      (size + count * size) (size + count * size) := by
  have filled := filling_filledPart length fits
  have isNext : partAt (dateOnly crates.calendar 0) size
      (run (step crates) empty (filledPart record count)) = 1 := by
    rw [filled.partAt_eq (Or.inl rfl)]
    simp only [if_true]
    exact if_pos full
  have rolled := filled.append length (Or.inr rfl) isNext
  have again := rolled.fill (Or.inr rfl) length count (by simpa using fits)
  simp only [Nat.zero_ne_one, if_true, if_false, Nat.add_zero, Nat.zero_add] at again
  unfold twoParts
  rw [run_append]
  unfold filledPart at again ⊢
  rw [run_cons _ _ (List.replicate count _), step_append]
  exact again

/-- Two full parts, another process, and a record. -/
def twoPartsAndOne (record : DiagRecord) (count : Nat) : List LogAction :=
  twoParts record count ++ [.restart, .append .working record 0]

theorem sized_twoPartsAndOne (count : Nat)
    (sized : LogAction.Sized crates (.append .working record 0)) :
    ∀ action ∈ twoPartsAndOne record count, action.Sized crates := by
  unfold twoPartsAndOne
  rw [List.forall_mem_append, List.forall_mem_cons, List.forall_mem_singleton]
  refine ⟨?_, trivial, sized⟩
  intro action inside
  rw [works_twoParts _ _ action inside]
  exact sized

/-- The process that comes after begins with the first part, goes on to the second, and writes
there whatever it holds. -/
theorem not_capped_twoPartsAndOne {size count : Nat}
    (length : (crates.bytes record).length = size)
    (fits : size + count * size ≤ maxFileBytes)
    (full : maxFileBytes < size + count * size + size) :
    ¬Guarded (step crates) (Capped crates) .empty (twoPartsAndOne record count) := by
  intro guarded
  have works : ∀ action ∈ twoParts record count, action.Works := by
    intro action inside
    rw [works_twoParts _ _ action inside]
    rfl
  have named : Named (run (step crates) .empty (twoParts record count)).files :=
    (run_works works).2
  have filling := filling_twoParts length fits full
  obtain ⟨restarted, appended, -⟩ := ((guarded_append _ _ _).mp guarded).2
  generalize run (step crates) .empty (twoParts record count) = log
    at named filling restarted appended
  have tidy : Tidy ⟨log.files, .new⟩ := ⟨settled_new _, named, restarted.sizes⟩
  have roomy := (tidy.capped_append_iff crates record 0).mp appended
  have room := roomy.2
  have next : partAfter 0 = 1 := by decide
  simp only [partBefore_new, length, next, filling.firstSize, filling.secondSize, or_self] at room
  omega

end DiagLog

/-- A process fills two parts of a day, 6204 records each, and the next one appends another. -/
theorem twoParts_exceeded :
    (∀ action ∈ DiagLog.twoPartsAndOne DiagRecord.gateOnly 6203, action.Sized epochCrates) ∧
      ¬Guarded (DiagLog.step epochCrates) (DiagLog.Capped epochCrates) .empty
        (DiagLog.twoPartsAndOne DiagRecord.gateOnly 6203) := by
  constructor
  · apply DiagLog.sized_twoPartsAndOne
    refine ⟨rfl, ?_⟩
    rw [length_epoch_bytes]
    decide
  · exact DiagLog.not_capped_twoPartsAndOne length_epoch_bytes (by decide) (by decide)

end Mosschat.Net.Diag
