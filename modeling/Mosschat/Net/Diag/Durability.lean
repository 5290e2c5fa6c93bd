import Mosschat.Net.Diag.Parts
import Mosschat.Net.Diag.Reader

/-!
Owns the durability of the diagnostics log: over every order of appends, crashes and
restarts in one directory, what is read of the records whose append returned.

Does not own which of the records is the last one.
-/

namespace Mosschat.Net.Diag

open Mosschat.Library Mosschat.Library.TextFile Mosschat.Library.Machine

/-! ## Every line on its own -/

/-- Each piece of the file is read as the line it is, and reported as malformed where it is
no text. -/
inductive Isolated (crates : Crates) : Nat → List (List UInt8) → List ReadOutcome → Prop where
  | nil (lineNumber : Nat) : Isolated crates lineNumber [] []
  | text {lineNumber : Nat} {piece : List UInt8} {rest : List (List UInt8)}
      {outcomes : List ReadOutcome} (line : List Char) (isText : fromUtf8 piece = some line)
      (others : Isolated crates (lineNumber + 1) rest outcomes) :
      Isolated crates lineNumber (piece :: rest)
        (crates.outcomes lineNumber (stripLineEnd line) ++ outcomes)
  | bytes {lineNumber : Nat} {piece : List UInt8} {rest : List (List UInt8)}
      {outcomes : List ReadOutcome} (error : DiagError) (noText : fromUtf8 piece = none)
      (others : Isolated crates (lineNumber + 1) rest outcomes) :
      Isolated crates lineNumber (piece :: rest) (.malformed lineNumber error :: outcomes)

/-- Damage to a line of the file costs its reader no other line. -/
def Crates.Isolates (crates : Crates) (bytes : List UInt8) : Prop :=
  ∃ outcomes, crates.readRecords bytes = .ok outcomes ∧
    Isolated crates 1 (splitInclusive 10 bytes) outcomes

theorem isolated_utf8 (crates : Crates) (lineNumber : Nat) (pieces : List (List Char)) :
    Isolated crates lineNumber (pieces.map utf8)
      (crates.outcomesFrom lineNumber (pieces.map stripLineEnd)) := by
  induction pieces generalizing lineNumber with
  | nil => exact .nil lineNumber
  | cons piece rest ih =>
      exact .text piece (fromUtf8_utf8 piece) (ih (lineNumber + 1))

/-- The reader isolates the lines of a text, and reads nothing of any other file. -/
theorem isolates_iff (crates : Crates) (bytes : List UInt8) :
    crates.Isolates bytes ↔ ∃ text, bytes = utf8 text := by
  constructor
  · intro isolates
    obtain ⟨outcomes, read, -⟩ := isolates
    unfold Crates.readRecords at read
    split at read
    · cases read
    · next text found => exact ⟨text, eq_utf8_of_fromUtf8 found⟩
  · intro isText
    obtain ⟨text, isUtf8⟩ := isText
    refine ⟨crates.outcomesFrom 1 (lines text), ?_, ?_⟩
    · rw [isUtf8, Crates.readRecords_utf8]
    · rw [isUtf8, splitInclusive_utf8]
      exact isolated_utf8 crates 1 (splitInclusive '\n' text)

/-! ## What a log owes its reader -/

namespace DiagLog

/-- The record of an append that returns `Ok`, with the file it went to. -/
def acknowledges (crates : Crates) (log : DiagLog) : LogAction → List (Name × DiagRecord)
  | .append calls record nowMs =>
    let file := log.target calls (dateOnly crates.calendar nowMs) (crates.bytes record).length
    match (log.append crates calls record nowMs).2, file with
    | .ok _, some file => [(file.name, record)]
    | _, _ => []
  | .crash _ _ _ _ => []
  | .restart => []

/-- Whether the action prunes this file. -/
def unlinks (crates : Crates) (log : DiagLog) (action : LogAction) (name : Name) : Bool :=
  match action with
  | .append calls _ nowMs => log.drops calls (dateOnly crates.calendar nowMs) name
  | .crash calls _ nowMs _ => log.drops calls (dateOnly crates.calendar nowMs) name
  | .restart => false

end DiagLog

/-- A log, and the records whose append returned `Ok`, in order and with their files, less
those whose file was pruned since. -/
structure Chronicle where
  log : DiagLog
  kept : List (Name × DiagRecord)

namespace Chronicle

def empty : Chronicle := ⟨.empty, []⟩

def step (crates : Crates) (chronicle : Chronicle) (action : LogAction) : Chronicle where
  log := chronicle.log.step crates action
  kept :=
    (chronicle.kept.filter fun entry => !chronicle.log.unlinks crates action entry.1) ++
      chronicle.log.acknowledges crates action

/-- The kept records of one file. -/
def recordsIn (chronicle : Chronicle) (name : Name) : List DiagRecord :=
  (chronicle.kept.filter fun entry => entry.1 = name).map Prod.snd

/-- Every file is read line by line, and the kept records of the file are among what is read,
in their order. -/
structure Durable (crates : Crates) (chronicle : Chronicle) : Prop where
  present : ∀ name, chronicle.recordsIn name ≠ [] →
    ∃ bytes, chronicle.log.files.lookup name = some bytes
  read : ∀ name bytes, chronicle.log.files.lookup name = some bytes →
    ∃ outcomes, crates.readRecords bytes = .ok outcomes ∧
      Isolated crates 1 (splitInclusive 10 bytes) outcomes ∧
      ((chronicle.recordsIn name).map fun record => .record (crates.back record)).Sublist outcomes

/-- The file an append writes to has its name and ends in a line feed, if in anything; and a
crash in the middle of a line leaves whole characters of it. -/
def Whole (crates : Crates) (chronicle : Chronicle) : LogAction → Prop
  | .append calls record nowMs =>
    let today := dateOnly crates.calendar nowMs
    ∀ file, chronicle.log.target calls today (crates.bytes record).length = some file →
      file.linked = true ∧ Terminated (contents (chronicle.log.standing calls today) file.name)
  | .crash calls record nowMs count =>
    let today := dateOnly crates.calendar nowMs
    ∀ file, chronicle.log.target calls today (crates.bytes record).length = some file →
      file.linked = true → ∃ text, (crates.bytes record).take count = utf8 text
  | .restart => True

end Chronicle

/-- The records of a run. -/
def LogAction.records : LogAction → List DiagRecord
  | .append _ record _ => [record]
  | .crash _ record _ _ => [record]
  | .restart => []

/-! ## One file -/

/-- The file holds the records, each on a line of its own, and may break off in a last line. -/
def Holds (crates : Crates) (records : List DiagRecord) (bytes : List UInt8) : Prop :=
  ∃ rows torn, (∀ record ∈ records, crates.Legible record) ∧
    (∀ row ∈ rows, '\n' ∉ row ∧ row.getLast? ≠ some '\r') ∧
    (records.map crates.line).Sublist rows ∧ '\n' ∉ torn ∧ bytes = utf8 (written rows ++ torn)

section Holds

variable {crates : Crates} {records : List DiagRecord} {bytes : List UInt8} {record : DiagRecord}

theorem holds_nil (crates : Crates) : Holds crates [] [] :=
  ⟨[], [], List.forall_mem_nil _, List.forall_mem_nil _, List.Sublist.refl _, List.not_mem_nil, rfl⟩

theorem written_concat (rows : List (List Char)) (row : List Char) :
    written (rows ++ [row]) = written rows ++ (row ++ ['\n']) := by
  rw [written_append]
  exact congrArg (written rows ++ ·) (List.append_nil _)

/-- A line that is written behind whole lines is held. -/
theorem Holds.append (holds : Holds crates records bytes) (terminated : Terminated bytes)
    (legible : crates.Legible record) :
    Holds crates (records ++ [record]) (bytes ++ crates.bytes record) := by
  obtain ⟨rows, torn, legibleBefore, whole, among, noNewline, isFile⟩ := holds
  have nothing := torn_eq_nil noNewline (isFile ▸ terminated)
  refine ⟨rows ++ [crates.line record], [], ?_, ?_, ?_, List.not_mem_nil, ?_⟩
  · rw [List.forall_mem_append, List.forall_mem_singleton]
    exact ⟨legibleBefore, legible⟩
  · rw [List.forall_mem_append, List.forall_mem_singleton]
    exact ⟨whole, legible.oneLine, legible.noReturn⟩
  · rw [List.map_append]
    exact among.append (List.Sublist.refl _)
  · rw [List.append_nil, written_concat, utf8_append, isFile, nothing, List.append_nil]
    rfl

/-- A line that is torn off costs none of the others, also behind another that was. -/
theorem Holds.tear (holds : Holds crates records bytes) (legible : crates.Legible record)
    {count : Nat} {text : List Char} (isText : (crates.bytes record).take count = utf8 text) :
    Holds crates records (bytes ++ (crates.bytes record).take count) := by
  obtain ⟨rows, torn, legibleBefore, whole, among, noNewline, isFile⟩ := holds
  have split : utf8 text ++ (crates.bytes record).drop count =
      utf8 (crates.line record ++ ['\n']) := by
    rw [← isText]
    exact List.take_append_drop count (crates.bytes record)
  rw [isText, isFile]
  rcases List.prefix_concat_iff.mp (prefix_of_utf8 split) with isLine | isFront
  · refine ⟨rows ++ [torn ++ crates.line record], [], legibleBefore, ?_, ?_, List.not_mem_nil, ?_⟩
    · rw [List.forall_mem_append, List.forall_mem_singleton, List.mem_append, not_or]
      refine ⟨whole, ⟨noNewline, legible.oneLine⟩, ?_⟩
      have some : crates.line record ≠ [] := by
        intro isEmpty
        have visible := legible.visible
        rw [isEmpty] at visible
        cases visible
      rw [List.getLast?_append_of_ne_nil _ some]
      exact legible.noReturn
    · exact among.trans (List.sublist_append_left rows _)
    · rw [List.append_nil, written_concat, isLine, List.append_assoc torn, ← List.append_assoc,
        utf8_append (written rows ++ torn)]
  · refine ⟨rows, torn ++ text, legibleBefore, whole, among, ?_, ?_⟩
    · rw [List.mem_append, not_or]
      exact ⟨noNewline, fun inside => legible.oneLine (isFront.subset inside)⟩
    · rw [← List.append_assoc, utf8_append (written rows ++ torn)]

/-- What is read of some of the lines is among what is read of them all. -/
theorem sublist_outcomesFrom {rows : List (List Char)}
    (legible : ∀ record ∈ records, crates.Legible record)
    (among : (records.map crates.line).Sublist rows) (lineNumber : Nat) (rest : List (List Char)) :
    (records.map fun record => .record (crates.back record)).Sublist
      (crates.outcomesFrom lineNumber (rows ++ rest)) := by
  induction rows generalizing records lineNumber with
  | nil =>
      rw [List.map_eq_nil_iff.mp (List.eq_nil_of_sublist_nil among)]
      exact List.nil_sublist _
  | cons row others ih =>
      rw [List.cons_append, Crates.outcomesFrom]
      rcases List.sublist_cons_iff.mp among with elsewhere | ⟨behind, isCons, amongOthers⟩
      · exact (ih legible elsewhere (lineNumber + 1)).trans
          (List.sublist_append_right _ _)
      · obtain ⟨record, later, isRecords, isRow, isBehind⟩ := List.map_eq_cons_iff.mp isCons
        rw [isRecords, List.forall_mem_cons] at legible
        rw [← isBehind] at amongOthers
        rw [← isRow, Crates.outcomes_line legible.1, isRecords]
        exact (ih legible.2 amongOthers (lineNumber + 1)).cons_cons _

/-- A file that holds the records is read. -/
theorem Holds.read (holds : Holds crates records bytes) :
    ∃ outcomes, crates.readRecords bytes = .ok outcomes ∧
      Isolated crates 1 (splitInclusive 10 bytes) outcomes ∧
      (records.map fun record => .record (crates.back record)).Sublist outcomes := by
  obtain ⟨rows, torn, legible, whole, among, noNewline, isFile⟩ := holds
  obtain ⟨outcomes, read, isolated⟩ := (isolates_iff crates bytes).mpr ⟨_, isFile⟩
  refine ⟨outcomes, read, isolated, ?_⟩
  rw [isFile, Crates.readRecords_utf8, lines_written (fun row inside => (whole row inside).1)
    (fun row inside => (whole row inside).2) noNewline] at read
  rw [← Except.ok.inj read]
  exact sublist_outcomesFrom legible among 1 _

end Holds

/-! ## A run -/

/-- Every file of the log holds the kept records that went to it. -/
structure Chronicle.Filed (crates : Crates) (chronicle : Chronicle) : Prop where
  present : ∀ name, chronicle.recordsIn name ≠ [] →
    ∃ bytes, chronicle.log.files.lookup name = some bytes
  holds : ∀ name, Holds crates (chronicle.recordsIn name) (contents chronicle.log.files name)

namespace Chronicle

variable {crates : Crates} {chronicle : Chronicle}

theorem Filed.durable (filed : chronicle.Filed crates) : chronicle.Durable crates := by
  constructor
  · exact filed.present
  · intro name bytes found
    have holds := filed.holds name
    rw [contents, found] at holds
    exact holds.read

theorem filed_empty (crates : Crates) : empty.Filed crates := by
  constructor
  · intro name some
    exact absurd rfl some
  · intro name
    exact holds_nil crates

/-- What an action prunes is no longer kept, and what it acknowledges is. -/
theorem recordsIn_step (crates : Crates) (chronicle : Chronicle) (action : LogAction) (name : Name) :
    (chronicle.step crates action).recordsIn name =
      (if chronicle.log.unlinks crates action name then [] else chronicle.recordsIn name) ++
        ((chronicle.log.acknowledges crates action).filter fun entry => entry.1 = name).map
          Prod.snd := by
  unfold recordsIn step
  simp only
  rw [List.filter_append, List.map_append, List.filter_filter]
  congr 1
  split_ifs with gone
  · rw [List.map_eq_nil_iff, List.filter_eq_nil_iff]
    intro entry inside
    by_cases isName : entry.1 = name
    · simp [isName, gone]
    · simp [isName]
  · congr 1
    apply List.filter_congr
    intro entry inside
    by_cases isName : entry.1 = name
    · simp [isName, gone]
    · simp [isName]

/-- What an append stands on holds the records that are still kept. -/
theorem Filed.standing (filed : chronicle.Filed crates) (calls : Calls) (today name : Name) :
    Holds crates
        (if chronicle.log.drops calls today name then [] else chronicle.recordsIn name)
        (contents (chronicle.log.standing calls today) name) ∧
      ((if chronicle.log.drops calls today name then [] else chronicle.recordsIn name) ≠ [] →
        ∃ bytes, (chronicle.log.standing calls today).lookup name = some bytes) := by
  unfold contents
  rw [DiagLog.lookup_standing]
  split_ifs
  · exact ⟨holds_nil crates, fun some => absurd rfl some⟩
  · exact ⟨filed.holds name, filed.present name⟩

theorem acknowledges_append (crates : Crates) (log : DiagLog) (calls : Calls) (record : DiagRecord)
    (nowMs : UInt64) :
    log.acknowledges crates (.append calls record nowMs) =
      (log.target calls (dateOnly crates.calendar nowMs)
        (crates.bytes record).length).toList.map fun file => (file.name, record) := by
  have isOk := DiagLog.append_snd_ok_iff crates calls record nowMs log
  unfold DiagLog.acknowledges
  simp only
  cases isTarget : log.target calls (dateOnly crates.calendar nowMs) (crates.bytes record).length with
  | none =>
      split
      · next isSome =>
          cases isSome
      · rfl
  | some file =>
      rw [isOk.mpr ⟨file, isTarget⟩]
      rfl

/-- A file that is there stays, unless it is pruned. -/
theorem exists_lookup_attempt {log : DiagLog} {calls : Calls} {today name : Name} {bytes : List UInt8}
    (found : ∃ bytes, (log.standing calls today).lookup name = some bytes) (lineLen : Nat) :
    ∃ after, (log.attempt calls today lineLen bytes).lookup name = some after := by
  obtain ⟨before, isBefore⟩ := found
  rcases DiagLog.lookup_attempt calls today lineLen bytes log name with
    ⟨-, isAfter⟩ | ⟨-, same | ⟨-, isAfter⟩⟩
  · exact ⟨_, isAfter⟩
  · exact ⟨before, same.trans isBefore⟩
  · exact ⟨_, isAfter⟩

theorem Filed.append (filed : chronicle.Filed crates) {calls : Calls} {record : DiagRecord}
    {nowMs : UInt64} (legible : crates.Legible record)
    (whole : chronicle.Whole crates (.append calls record nowMs)) :
    (chronicle.step crates (.append calls record nowMs)).Filed crates := by
  have files : (chronicle.step crates (.append calls record nowMs)).log.files =
      chronicle.log.attempt calls (dateOnly crates.calendar nowMs) (crates.bytes record).length
        (crates.bytes record) := DiagLog.files_append crates calls record nowMs chronicle.log
  have perFile : ∀ name,
      Holds crates ((chronicle.step crates (.append calls record nowMs)).recordsIn name)
          (contents (chronicle.step crates (.append calls record nowMs)).log.files name) ∧
        ((chronicle.step crates (.append calls record nowMs)).recordsIn name ≠ [] →
          ∃ bytes, (chronicle.step crates (.append calls record nowMs)).log.files.lookup name =
            some bytes) := by
    intro name
    obtain ⟨holds, present⟩ := filed.standing calls (dateOnly crates.calendar nowMs) name
    rw [recordsIn_step, files, DiagLog.contents_attempt, acknowledges_append]
    by_cases writes : chronicle.log.target calls (dateOnly crates.calendar nowMs)
        (crates.bytes record).length = some ⟨name, true⟩
    · have terminated := (whole _ writes).2
      rw [if_pos writes, writes]
      have isNew : (((some (⟨name, true⟩ : OpenFile)).toList.map
          fun file => (file.name, record)).filter fun entry => entry.1 = name).map Prod.snd =
            [record] := by simp
      rw [isNew]
      refine ⟨holds.append terminated legible, ?_⟩
      intro _
      rcases DiagLog.lookup_attempt calls (dateOnly crates.calendar nowMs)
        (crates.bytes record).length (crates.bytes record) chronicle.log name with
        ⟨-, isAfter⟩ | ⟨spared, -⟩
      · exact ⟨_, isAfter⟩
      · exact absurd writes spared
    · have nothing : (((chronicle.log.target calls (dateOnly crates.calendar nowMs)
          (crates.bytes record).length).toList.map fun file => (file.name, record)).filter
            fun entry => entry.1 = name).map Prod.snd = [] := by
        cases isTarget : chronicle.log.target calls (dateOnly crates.calendar nowMs)
            (crates.bytes record).length with
        | none => rfl
        | some file =>
            have linked := (whole file isTarget).1
            have elsewhere : file.name ≠ name := by
              intro isName
              apply writes
              rw [isTarget, ← isName, ← linked]
            simp [elsewhere]
      rw [if_neg writes, nothing, List.append_nil, List.append_nil]
      exact ⟨holds, fun some => exists_lookup_attempt (present some) _⟩
  exact ⟨fun name => (perFile name).2, fun name => (perFile name).1⟩

theorem Filed.crash (filed : chronicle.Filed crates) {calls : Calls} {record : DiagRecord}
    {nowMs : UInt64} {count : Nat} (legible : crates.Legible record)
    (whole : chronicle.Whole crates (.crash calls record nowMs count)) :
    (chronicle.step crates (.crash calls record nowMs count)).Filed crates := by
  have files : (chronicle.step crates (.crash calls record nowMs count)).log.files =
      chronicle.log.attempt calls (dateOnly crates.calendar nowMs) (crates.bytes record).length
        ((crates.bytes record).take count) :=
    DiagLog.files_crash crates calls record nowMs count chronicle.log
  have kept : ∀ name, (chronicle.step crates (.crash calls record nowMs count)).recordsIn name =
      if chronicle.log.drops calls (dateOnly crates.calendar nowMs) name then []
      else chronicle.recordsIn name := by
    intro name
    rw [recordsIn_step]
    exact List.append_nil _
  constructor
  · intro name some
    obtain ⟨-, present⟩ := filed.standing calls (dateOnly crates.calendar nowMs) name
    rw [kept] at some
    rw [files]
    exact exists_lookup_attempt (present some) _
  · intro name
    obtain ⟨holds, -⟩ := filed.standing calls (dateOnly crates.calendar nowMs) name
    rw [kept, files, DiagLog.contents_attempt]
    by_cases writes : chronicle.log.target calls (dateOnly crates.calendar nowMs)
        (crates.bytes record).length = some ⟨name, true⟩
    · obtain ⟨text, isText⟩ := whole _ writes rfl
      rw [if_pos writes]
      exact holds.tear legible isText
    · rw [if_neg writes, List.append_nil]
      exact holds

theorem Filed.step (filed : chronicle.Filed crates) {action : LogAction}
    (legible : ∀ record ∈ action.records, crates.Legible record)
    (whole : chronicle.Whole crates action) : (chronicle.step crates action).Filed crates := by
  cases action with
  | append calls record nowMs => exact filed.append (legible record List.mem_cons_self) whole
  | crash calls record nowMs count => exact filed.crash (legible record List.mem_cons_self) whole
  | restart =>
      have kept : ∀ name, (chronicle.step crates .restart).recordsIn name =
          chronicle.recordsIn name := by
        intro name
        rw [recordsIn_step]
        exact List.append_nil _
      constructor
      · intro name some
        rw [kept] at some
        exact filed.present name some
      · intro name
        rw [kept]
        exact filed.holds name

end Chronicle

/-- While no record is appended behind a torn line and no character is torn, every record
whose append returned is read back from its file, in which a torn line is read apart from the
others; and the reader reads every line of a file apart from the others exactly where the
file is UTF-8. -/
theorem log_durable {crates : Crates} {actions : List LogAction}
    (legible : ∀ action ∈ actions, ∀ record ∈ action.records, crates.Legible record)
    (whole : Guarded (Chronicle.step crates) (Chronicle.Whole crates) .empty actions) :
    (run (Chronicle.step crates) .empty actions).Durable crates ∧
      ∀ bytes, crates.Isolates bytes ↔ ∃ text, bytes = utf8 text := by
  have both : Guarded (Chronicle.step crates)
      (fun chronicle action => chronicle.Whole crates action ∧ action ∈ actions) .empty actions :=
    guarded_and.mpr ⟨whole, guarded_mem _ _⟩
  have filed : (run (Chronicle.step crates) .empty actions).Filed crates := by
    refine run_preserves ?_ (Chronicle.filed_empty crates) both
    intro chronicle action filed guard
    exact filed.step (legible action guard.2) guard.1
  exact ⟨filed.durable, isolates_iff crates⟩

/-! ## While every call works -/

namespace Chronicle

variable {log : DiagLog} {kept : List (Name × DiagRecord)}

theorem files_append_working (settled : log.Settled) (crates : Crates) (record : DiagRecord)
    (nowMs : UInt64) :
    (Chronicle.step crates ⟨log, kept⟩ (.append .working record nowMs)).log.files =
      log.extended (dateOnly crates.calendar nowMs) (crates.bytes record).length
        (crates.bytes record) := by
  show (log.append crates .working record nowMs).1.files = _
  rw [DiagLog.append_working settled]

theorem kept_append_working (settled : log.Settled) (crates : Crates) (record : DiagRecord)
    (nowMs : UInt64) :
    (Chronicle.step crates ⟨log, kept⟩ (.append .working record nowMs)).kept =
      (kept.filter fun entry =>
        !log.drops .working (dateOnly crates.calendar nowMs) entry.1) ++
        [(log.fileAt (dateOnly crates.calendar nowMs) (crates.bytes record).length, record)] := by
  show kept.filter _ ++ log.acknowledges crates (.append .working record nowMs) = _
  rw [acknowledges_append, DiagLog.target_working settled]
  rfl

end Chronicle

/-! ## At the epoch -/

theorem epochYearFits : 1970 < 10 ^ 4 := by decide

theorem epochDayFits : 1 < 10 ^ 2 := by decide

/-- The first of January 1970. -/
def epochDate : CivilDate where
  year := 1970
  month := 1
  day := 1
  yearFits := epochYearFits
  monthFits := epochDayFits
  dayFits := epochDayFits

/-- `serde_json`, at one value: its line is read, and nothing else. -/
def lineSerde (line : String) (value : Json) : SerdeJson where
  toString _ := .ok line
  fromStr text :=
    if text = line then .ok value else .error "key must be a string at line 1 column 2"

theorem keeps_lineSerde (line : String) (value : Json) : (lineSerde line value).Keeps value :=
  ⟨line, rfl, if_pos rfl⟩

theorem fromStr_lineSerde_of_ne {line text : String} (differs : text ≠ line) (value : Json) :
    (lineSerde line value).fromStr text = .error "key must be a string at line 1 column 2" :=
  if_neg differs

/-- The crates at one record, on that day. -/
def epochCrates : Crates where
  serde := lineSerde DiagRecord.gateOnlyLine (DiagRecord.gateOnly.toValue DiagRecord.epochTime)
  time := DiagRecord.epochTime
  calendar := ⟨fun _ => some epochDate⟩

/-- The bytes of that record's line. -/
theorem plain_gateOnlyLine :
    (utf8 DiagRecord.gateOnlyLine.toList).length = 844 ∧
      10 ∉ utf8 DiagRecord.gateOnlyLine.toList ∧ 13 ∉ utf8 DiagRecord.gateOnlyLine.toList := by
  rw [utf8_toList]
  unfold DiagRecord.gateOnlyLine
  simp only [String.toByteArray_append, ByteArray.data_append, Array.toList_append]
  decide +kernel

/-- It begins with a brace. -/
theorem gateOnlyLine_eq :
    ∃ rest, DiagRecord.gateOnlyLine.toList = '\x7b' :: rest := by
  have begins : ∃ rest,
      ("\x7b\"attempt\":\"00000000000000000000000000000000\"," : String).toList =
        '\x7b' :: rest := by
    simp
  obtain ⟨rest, isFront⟩ := begins
  unfold DiagRecord.gateOnlyLine
  simp only [String.toList_append, isFront, List.cons_append]
  exact ⟨_, rfl⟩

theorem epochTime_reads (epochMs : UInt64) (isEpoch : epochMs = 0) :
    DiagRecord.epochTime.Reads epochMs := by
  subst isEpoch
  exact ⟨fun _ => ⟨_, rfl, rfl⟩, rfl, ⟨_, rfl, rfl⟩⟩

/-- What a line's bytes have to be for its record to be read back. -/
theorem legible_of_line {crates : Crates} {record : DiagRecord} {line : String}
    (started : crates.time.Reads record.startedAtMs) (ended : crates.time.Reads record.endedAtMs)
    (keeps : crates.serde.Keeps (record.toValue crates.time))
    (isLine : record.toJsonLine crates.serde crates.time = line)
    (noNewline : 10 ∉ utf8 line.toList) (noReturn : 13 ∉ utf8 line.toList)
    (begins : ∃ rest, line.toList = '\x7b' :: rest) : crates.Legible record := by
  obtain ⟨rest, isFront⟩ := begins
  constructor
  · exact started
  · exact ended
  · exact keeps
  · rw [Crates.line, isLine]
    exact fun inside => noNewline (newline_mem_utf8.mpr inside)
  · rw [Crates.line, isLine]
    exact fun isLast => noReturn (return_mem_utf8 (List.mem_of_getLast? isLast))
  · rw [Crates.line, isLine, isFront, isBlank, List.all_cons,
      show isWhitespace '\x7b' = false from rfl, Bool.false_and]

theorem legible_gateOnly : epochCrates.Legible DiagRecord.gateOnly := by
  obtain ⟨-, noNewline, noReturn⟩ := plain_gateOnlyLine
  exact legible_of_line (epochTime_reads _ rfl) (epochTime_reads _ rfl) (keeps_lineSerde _ _)
    (DiagRecord.toJsonLine_eq rfl) noNewline noReturn gateOnlyLine_eq

theorem bytes_epoch (record : DiagRecord) :
    epochCrates.bytes record = utf8 (DiagRecord.gateOnlyLine.toList ++ ['\n']) := rfl

theorem length_epoch_bytes : (epochCrates.bytes DiagRecord.gateOnly).length = 845 := by
  rw [bytes_epoch, utf8_append, List.length_append, plain_gateOnlyLine.1]
  rfl

/-- The day after. -/
def nextDate : CivilDate := { epochDate with day := 2, dayFits := by decide }

/-- The crates at that record, on the two days. -/
def twoDayCrates : Crates :=
  { epochCrates with
    calendar := ⟨fun nanos => some (if nanos < 86400 * 10 ^ 9 then epochDate else nextDate)⟩ }

theorem legible_gateOnly_twoDay : twoDayCrates.Legible DiagRecord.gateOnly :=
  ⟨legible_gateOnly.started, legible_gateOnly.ended, legible_gateOnly.kept,
    legible_gateOnly.oneLine, legible_gateOnly.noReturn, legible_gateOnly.visible⟩

theorem length_twoDay_bytes : (twoDayCrates.bytes DiagRecord.gateOnly).length = 845 :=
  length_epoch_bytes

/-- A record of the second day is not filed with those of the first. -/
theorem dateOnly_twoDay_ne :
    dateOnly twoDayCrates.calendar 0 ≠ dateOnly twoDayCrates.calendar 86400000 := by
  decide

/-- That day, and its file. -/
def epochDay : Name := dateOnly epochCrates.calendar 0

def epochFile : Name := fileNameFor epochDay 0

/-- A record, and a line behind it that has only its first byte. -/
def appendedThenTorn : List LogAction :=
  [.append .working DiagRecord.gateOnly 0, .crash .working DiagRecord.gateOnly 0 1]

theorem legible_appendedThenTorn :
    ∀ action ∈ appendedThenTorn, ∀ record ∈ action.records, epochCrates.Legible record := by
  unfold appendedThenTorn
  simp only [List.forall_mem_cons, LogAction.records, List.not_mem_nil, false_imp_iff,
    implies_true, and_true]
  exact ⟨legible_gateOnly, legible_gateOnly⟩

theorem take_epoch_bytes : (epochCrates.bytes DiagRecord.gateOnly).take 1 = [123] := by
  obtain ⟨rest, isLine⟩ := gateOnlyLine_eq
  rw [bytes_epoch, isLine]
  rfl

theorem whole_appendedThenTorn :
    Guarded (Chronicle.step epochCrates) (Chronicle.Whole epochCrates) .empty
      appendedThenTorn := by
  have settled : DiagLog.empty.Settled := DiagLog.settled_new ∅
  refine ⟨?_, ?_, trivial⟩
  · intro file isFile
    rw [show Chronicle.empty.log = DiagLog.empty from rfl, DiagLog.target_working settled] at isFile
    rw [← Option.some.inj isFile]
    refine ⟨rfl, ?_⟩
    intro byte isLast
    cases isLast
  · intro file _ _
    exact ⟨['\x7b'], take_epoch_bytes⟩

theorem log_durable_appendedThenTorn :
    (run (Chronicle.step epochCrates) .empty appendedThenTorn).Durable epochCrates ∧
      ∀ bytes, epochCrates.Isolates bytes ↔ ∃ text, bytes = utf8 text :=
  log_durable legible_appendedThenTorn whole_appendedThenTorn

/-- A line that has only its first byte, and a record behind it. -/
def tornThenAppended : List LogAction :=
  [.crash .working DiagRecord.gateOnly 0 1, .append .working DiagRecord.gateOnly 0]

theorem legible_tornThenAppended :
    ∀ action ∈ tornThenAppended, ∀ record ∈ action.records, epochCrates.Legible record := by
  unfold tornThenAppended
  simp only [List.forall_mem_cons, LogAction.records, List.not_mem_nil, false_imp_iff,
    implies_true, and_true]
  exact ⟨legible_gateOnly, legible_gateOnly⟩

/-- The log when the line is torn. -/
def tornLog : DiagLog := DiagLog.empty.crash epochCrates .working DiagRecord.gateOnly 0 1

theorem fileAt_empty : DiagLog.empty.fileAt epochDay 845 = epochFile := by
  apply DiagLog.fileAt_of_fits (DiagLog.partBefore_new ∅ epochDay)
  show 0 + 845 ≤ maxFileBytes
  decide

/-- The torn line is all there is. -/
theorem tornLog_eq :
    ∃ files, tornLog = ⟨files, .new⟩ ∧ contents files epochFile = [123] ∧
      ∀ day ∈ dayNames files, day = epochDay := by
  have isLog : tornLog = ⟨DiagLog.empty.extended epochDay 845 [123], .new⟩ := by
    rw [← take_epoch_bytes, ← length_epoch_bytes]
    exact DiagLog.crash_working (DiagLog.settled_new ∅) epochCrates DiagRecord.gateOnly 0 1
  refine ⟨_, isLog, ?_, ?_⟩
  · rw [DiagLog.contents_extended, fileAt_empty, if_pos rfl, DiagLog.standing_empty,
      DiagLog.contents_empty, List.nil_append]
  · intro day isDay
    obtain ⟨name, inside, -, isPrefix⟩ := mem_dayNames_iff.mp isDay
    have isEpoch : name = epochFile := by
      rw [DiagLog.mem_extended_iff, fileAt_empty, DiagLog.standing_empty] at inside
      rcases inside with isFile | ⟨-, isFile⟩ | stood
      · exact isFile
      · exact isFile
      · exact absurd stood (AList.notMem_empty name)
    have isDate : isDateShaped epochDay = true := isDateShaped_dateOnly epochCrates.calendar 0
    rw [isEpoch, epochFile, dayPrefix_fileNameFor isDate] at isPrefix
    exact (Option.some.inj isPrefix).symm

/-- A line that is no JSON is malformed. -/
theorem outcomes_of_refused {crates : Crates} {line : List Char} {error : String}
    (visible : isBlank line = false)
    (refused : crates.serde.fromStr (String.ofList line) = .error error) (lineNumber : Nat) :
    crates.outcomes lineNumber line =
      [.malformed lineNumber (.malformed [.text "invalid JSON: ", .display error])] := by
  rw [Crates.outcomes, visible, DiagRecord.fromJsonLine, refused]
  rfl

theorem ofList_cons_ne (char : Char) (text : String) :
    String.ofList (char :: text.toList) ≠ text := by
  intro same
  have sameLength := congrArg (fun text => text.toList.length) same
  simp only [String.toList_ofList, List.length_cons] at sameLength
  omega

theorem brace_append (line : List Char) :
    [123] ++ utf8 (line ++ ['\n']) = utf8 (written ['\x7b' :: line] ++ []) := by
  rw [List.append_nil]
  show _ = utf8 ('\x7b' :: line ++ ['\n'] ++ [])
  rw [List.append_nil]
  rfl

/-- The record's line behind a byte of another is no line of a record. -/
theorem read_torn_line :
    epochCrates.readRecords ([123] ++ epochCrates.bytes DiagRecord.gateOnly) =
      .ok [.malformed 1 (.malformed [.text "invalid JSON: ",
        .display "key must be a string at line 1 column 2"])] := by
  obtain ⟨-, noNewline, noReturn⟩ := plain_gateOnlyLine
  have isText := brace_append DiagRecord.gateOnlyLine.toList
  rw [← bytes_epoch DiagRecord.gateOnly] at isText
  have whole : ∀ row ∈ ['\x7b' :: DiagRecord.gateOnlyLine.toList], '\n' ∉ row := by
    rw [List.forall_mem_singleton, List.mem_cons, not_or]
    exact ⟨by decide, fun inside => noNewline (newline_mem_utf8.mpr inside)⟩
  have unreturned : ∀ row ∈ ['\x7b' :: DiagRecord.gateOnlyLine.toList],
      row.getLast? ≠ some '\r' := by
    rw [List.forall_mem_singleton]
    intro isLast
    rcases List.mem_cons.mp (List.mem_of_getLast? isLast) with isBrace | inside
    · exact absurd isBrace (by decide)
    · exact noReturn (return_mem_utf8 inside)
  have refused : epochCrates.serde.fromStr
      (String.ofList ('\x7b' :: DiagRecord.gateOnlyLine.toList)) =
        .error "key must be a string at line 1 column 2" :=
    fromStr_lineSerde_of_ne (ofList_cons_ne _ _) _
  have visible : isBlank ('\x7b' :: DiagRecord.gateOnlyLine.toList) = false := by
    rw [isBlank, List.all_cons, show isWhitespace '\x7b' = false from rfl, Bool.false_and]
  rw [isText, Crates.readRecords_utf8, lines_written whole unreturned List.not_mem_nil,
    if_pos rfl, List.append_nil, Crates.outcomesFrom, outcomes_of_refused visible refused]
  rfl

theorem run_crash_append (crates : Crates) (record : DiagRecord) :
    run (Chronicle.step crates) .empty
        [.crash .working record 0 1, .append .working record 0] =
      Chronicle.step crates ⟨DiagLog.empty.crash crates .working record 0 1, []⟩
        (.append .working record 0) := rfl

/-- The record is written behind the torn byte, on a line with it, and is read no more; and of
a file with a byte that is not UTF-8 no line is read. -/
theorem tornThenAppended_lost :
    (∀ action ∈ tornThenAppended, ∀ record ∈ action.records, epochCrates.Legible record) ∧
      (run (Chronicle.step epochCrates) .empty tornThenAppended).kept =
        [(epochFile, DiagRecord.gateOnly)] ∧
      ¬(run (Chronicle.step epochCrates) .empty tornThenAppended).Durable epochCrates ∧
      ¬epochCrates.Isolates [255, 10] := by
  obtain ⟨files, isLog, isTorn, oneDay⟩ := tornLog_eq
  have settled : tornLog.Settled := isLog ▸ DiagLog.settled_new files
  have stands : tornLog.standing .working epochDay = files := by
    rw [isLog]
    exact DiagLog.standing_of_one_day oneDay
  have isFile : tornLog.fileAt epochDay 845 = epochFile := by
    apply DiagLog.fileAt_of_fits
    · rw [isLog]
      exact DiagLog.partBefore_new files epochDay
    · rw [stands, show fileNameFor epochDay 0 = epochFile from rfl, isTorn]
      decide
  have isRun : run (Chronicle.step epochCrates) .empty tornThenAppended =
      Chronicle.step epochCrates ⟨tornLog, []⟩ (.append .working DiagRecord.gateOnly 0) :=
    run_crash_append epochCrates DiagRecord.gateOnly
  have kept : (run (Chronicle.step epochCrates) .empty tornThenAppended).kept =
      [(epochFile, DiagRecord.gateOnly)] := by
    rw [isRun, Chronicle.kept_append_working settled, length_epoch_bytes,
      show dateOnly epochCrates.calendar 0 = epochDay from rfl, isFile]
    rfl
  have written : contents (run (Chronicle.step epochCrates) .empty tornThenAppended).log.files
      epochFile = [123] ++ epochCrates.bytes DiagRecord.gateOnly := by
    rw [isRun, Chronicle.files_append_working settled, length_epoch_bytes,
      show dateOnly epochCrates.calendar 0 = epochDay from rfl, DiagLog.contents_extended, stands,
      isTorn, isFile, if_pos rfl]
  have isIn : (run (Chronicle.step epochCrates) .empty tornThenAppended).recordsIn epochFile =
      [DiagRecord.gateOnly] := by
    rw [Chronicle.recordsIn, kept]
    simp
  generalize run (Chronicle.step epochCrates) .empty tornThenAppended = chronicle at *
  refine ⟨legible_tornThenAppended, kept, ?_, ?_⟩
  · intro durable
    have some : chronicle.recordsIn epochFile ≠ [] := by
      rw [isIn]
      exact List.cons_ne_nil _ _
    obtain ⟨bytes, found⟩ := durable.present epochFile some
    obtain ⟨outcomes, read, -, among⟩ := durable.read epochFile bytes found
    have isBytes : contents chronicle.log.files epochFile = bytes := by
      rw [contents, found]
      rfl
    rw [← isBytes, written, read_torn_line] at read
    rw [isIn, ← Except.ok.inj read, List.map_singleton, List.singleton_sublist,
      List.mem_singleton] at among
    cases among
  · rw [isolates_iff]
    intro isText
    obtain ⟨text, isUtf8⟩ := isText
    have noText : fromUtf8 [255, 10] = none := by decide
    rw [isUtf8, fromUtf8_utf8] at noText
    cases noText

end Mosschat.Net.Diag
