import Mosschat.Net.Diag.Durability

/-!
Owns what becomes of a record that is appended while every call works, after appends in
which calls have failed: whether it is written, and read back from the file it went to.

Does not own processes that end in an append.
-/

namespace Mosschat.Net.Diag

open Mosschat.Library Mosschat.Library.TextFile Mosschat.Library.Machine

/-- A legible record is appended, whatever calls fail, or a process comes after another. -/
def LogAction.Intact (crates : Crates) : LogAction → Prop
  | .append _ record _ => crates.Legible record
  | .crash _ _ _ _ => False
  | .restart => True

namespace DiagLog

/-- While every call works, the record's append returns `Ok` and the record is read back from
a file, behind what was read of it before. -/
def Lands (crates : Crates) (log : DiagLog) (record : DiagRecord) (nowMs : UInt64) : Prop :=
  let after := log.append crates .working record nowMs
  after.2 = .ok true ∧ ∃ name outcomes,
    crates.readRecords
        (contents (log.standing .working (dateOnly crates.calendar nowMs)) name) = .ok outcomes ∧
      crates.readRecords (contents after.1.files name) =
        .ok (outcomes ++ [.record (crates.back record)])

/-- Another day's file is open, or the line has no room in the open one, or a file is open
and has its name. -/
def Ready (today : Name) (lineLen : Nat) (log : DiagLog) : Prop :=
  log.writer.openDate ≠ some today ∨ maxFileBytes < log.writer.bytesWritten + lineLen ∨
    ∃ file, log.writer.file = some file ∧ file.linked = true

/-- Every file is written a record at a time. -/
def Plain (crates : Crates) (files : Files) : Prop :=
  ∀ name, ∃ records : List DiagRecord, (∀ record ∈ records, crates.Legible record) ∧
    contents files name = utf8 (written (records.map crates.line))

theorem plain_empty (crates : Crates) : Plain crates ∅ :=
  fun _ => ⟨[], List.forall_mem_nil _, rfl⟩

variable {crates : Crates} {log : DiagLog} {record : DiagRecord}

theorem Plain.standing (plain : Plain crates log.files) (calls : Calls) (today : Name) :
    Plain crates (log.standing calls today) := by
  intro name
  unfold contents
  rw [lookup_standing]
  split_ifs
  · exact ⟨[], List.forall_mem_nil _, rfl⟩
  · exact plain name

theorem written_line (records : List DiagRecord) (crates : Crates) (record : DiagRecord) :
    utf8 (written ((records ++ [record]).map crates.line)) =
      utf8 (written (records.map crates.line)) ++ crates.bytes record := by
  rw [List.map_append, List.map_singleton, written_concat, utf8_append]
  rfl

theorem Plain.step (plain : Plain crates log.files) {action : LogAction}
    (intact : action.Intact crates) : Plain crates (log.step crates action).files := by
  cases action with
  | append calls record nowMs =>
      intro name
      obtain ⟨records, legible, isFile⟩ :=
        plain.standing calls (dateOnly crates.calendar nowMs) name
      show ∃ records : List DiagRecord, _ ∧ contents (log.append crates calls record nowMs).1.files name = _
      rw [files_append, contents_attempt, isFile]
      split_ifs
      · refine ⟨records ++ [record], ?_, (written_line records crates record).symm⟩
        rw [List.forall_mem_append, List.forall_mem_singleton]
        exact ⟨legible, intact⟩
      · exact ⟨records, legible, List.append_nil _⟩
  | crash calls record nowMs count => exact intact.elim
  | restart => exact plain

/-- With every call working, an append has a linked file to write to exactly when the log is
ready for its line. -/
theorem target_working_iff (today : Name) (lineLen : Nat) (log : DiagLog) :
    (∃ name, log.target .working today lineLen = some ⟨name, true⟩) ↔
      log.Ready today lineLen := by
  unfold target Ready
  by_cases sameDay : log.writer.openDate = some today
  · rw [if_pos sameDay]
    by_cases full : maxFileBytes < log.writer.bytesWritten + lineLen
    · rw [if_pos full]
      exact ⟨fun _ => Or.inr (Or.inl full), fun _ => ⟨_, rfl⟩⟩
    · rw [if_neg full]
      constructor
      · intro isFile
        obtain ⟨name, isOpen⟩ := isFile
        exact Or.inr (Or.inr ⟨_, isOpen, rfl⟩)
      · intro ready
        obtain ⟨file, isOpen, linked⟩ :=
          (ready.resolve_left (fun other => other sameDay)).resolve_left full
        refine ⟨file.name, ?_⟩
        rw [isOpen, ← linked]
  · rw [if_neg sameDay]
    refine ⟨fun _ => Or.inl sameDay, fun _ => ?_⟩
    show ∃ name, (if maxFileBytes < _ then nextTarget .working today 0 else some _) = _
    split_ifs
    · exact ⟨_, rfl⟩
    · exact ⟨_, rfl⟩

/-- A record that is written to a file with a name is read back from it. -/
theorem lands_of_target (plain : Plain crates log.files) (legible : crates.Legible record)
    (nowMs : UInt64) {name : Name}
    (isTarget : log.target .working (dateOnly crates.calendar nowMs)
      (crates.bytes record).length = some ⟨name, true⟩) : log.Lands crates record nowMs := by
  obtain ⟨records, legibleBefore, isFile⟩ :=
    plain.standing .working (dateOnly crates.calendar nowMs) name
  have legibleAfter : ∀ other ∈ records ++ [record], crates.Legible other := by
    rw [List.forall_mem_append, List.forall_mem_singleton]
    exact ⟨legibleBefore, legible⟩
  have before := Crates.readRecords_written legibleBefore List.not_mem_nil
  have after := Crates.readRecords_written legibleAfter List.not_mem_nil
  refine ⟨(append_snd_ok_iff _ _ _ _ _).mpr ⟨_, isTarget⟩, name,
    records.map fun record => .record (crates.back record), ?_, ?_⟩
  · rw [isFile]
    rw [List.append_nil] at before
    exact before.trans (congrArg Except.ok (List.append_nil _))
  · rw [files_append, contents_attempt, if_pos isTarget, isFile, ← written_line]
    rw [List.append_nil] at after
    rw [after, List.map_append]
    exact congrArg Except.ok (List.append_nil _)

/-- A record that lands has been written to a file with a name. -/
theorem target_of_lands {nowMs : UInt64} (lands : log.Lands crates record nowMs) :
    ∃ name, log.target .working (dateOnly crates.calendar nowMs) (crates.bytes record).length =
      some ⟨name, true⟩ := by
  obtain ⟨-, name, outcomes, before, after⟩ := lands
  rw [files_append, contents_attempt] at after
  refine ⟨name, ?_⟩
  by_contra elsewhere
  rw [if_neg elsewhere, List.append_nil, before] at after
  have lengths := congrArg List.length (Except.ok.inj after)
  rw [List.length_append, List.length_singleton] at lengths
  omega

end DiagLog

/-- After every order of appends, in which calls may have failed, and of processes, a record
that is appended while every call works lands exactly when the log is ready for it. -/
theorem lands_iff_ready {crates : Crates} {actions : List LogAction}
    (intact : ∀ action ∈ actions, action.Intact crates) {record : DiagRecord}
    (legible : crates.Legible record) (nowMs : UInt64) :
    (run (DiagLog.step crates) .empty actions).Lands crates record nowMs ↔
      (run (DiagLog.step crates) .empty actions).Ready (dateOnly crates.calendar nowMs)
        (crates.bytes record).length := by
  have plain : DiagLog.Plain crates (run (DiagLog.step crates) .empty actions).files := by
    have kept : ∀ (log : DiagLog) (action : LogAction), DiagLog.Plain crates log.files →
        action ∈ actions → DiagLog.Plain crates (log.step crates action).files := by
      intro log action plain inside
      exact plain.step (intact action inside)
    exact run_preserves kept (DiagLog.plain_empty crates) (guarded_mem _ _)
  rw [← DiagLog.target_working_iff]
  constructor
  · intro lands
    exact DiagLog.target_of_lands lands
  · intro isTarget
    obtain ⟨name, writes⟩ := isTarget
    exact DiagLog.lands_of_target plain legible nowMs writes

/-- The day's file cannot be opened, once. -/
def refusedOnce : List LogAction := [.append ⟨.works, .refused, .opened⟩ DiagRecord.gateOnly 0]

/-- The day counts as open, and nothing is. -/
theorem writer_refused (crates : Crates) (record : DiagRecord) (nowMs : UInt64) :
    (DiagLog.empty.append crates ⟨.works, .refused, .opened⟩ record nowMs).1.writer =
      ⟨some (dateOnly crates.calendar nowMs), 0, none, 0⟩ := by
  unfold DiagLog.append DiagLog.prepare DiagLog.openDay
  rw [if_neg (by intro isDay; cases isDay), DiagLog.rotateToDay_eq rfl]
  rfl

/-- After that no record of the day lands, and one of the next day does. -/
theorem lands_iff_ready_refusedOnce :
    ¬(run (DiagLog.step twoDayCrates) .empty refusedOnce).Lands twoDayCrates
        DiagRecord.gateOnly 0 ∧
      (run (DiagLog.step twoDayCrates) .empty refusedOnce).Lands twoDayCrates
        DiagRecord.gateOnly 86400000 := by
  have intact : ∀ action ∈ refusedOnce, action.Intact twoDayCrates := by
    unfold refusedOnce
    rw [List.forall_mem_singleton]
    exact legible_gateOnly_twoDay
  have isWriter : (run (DiagLog.step twoDayCrates) .empty refusedOnce).writer =
      ⟨some (dateOnly twoDayCrates.calendar 0), 0, none, 0⟩ :=
    writer_refused twoDayCrates DiagRecord.gateOnly 0
  constructor
  · rw [lands_iff_ready intact legible_gateOnly_twoDay 0, DiagLog.Ready, isWriter,
      length_twoDay_bytes]
    rintro (other | full | ⟨file, isOpen, -⟩)
    · exact other rfl
    · exact absurd full (by decide)
    · cases isOpen
  · apply (lands_iff_ready intact legible_gateOnly_twoDay 86400000).mpr
    left
    rw [isWriter]
    exact fun same => dateOnly_twoDay_ne (Option.some.inj same)

/-- No record of that day lands any more, with every call working. -/
theorem refusedOnce_sticks :
    (∀ action ∈ refusedOnce, action.Intact epochCrates) ∧
      epochCrates.Legible DiagRecord.gateOnly ∧
      ¬(run (DiagLog.step epochCrates) .empty refusedOnce).Lands epochCrates
        DiagRecord.gateOnly 0 := by
  refine ⟨?_, legible_gateOnly, ?_⟩
  · unfold refusedOnce
    rw [List.forall_mem_singleton]
    exact legible_gateOnly
  · intro lands
    have isWriter : (run (DiagLog.step epochCrates) .empty refusedOnce).writer =
        ⟨some (dateOnly epochCrates.calendar 0), 0, none, 0⟩ :=
      writer_refused epochCrates DiagRecord.gateOnly 0
    have ready := (DiagLog.target_working_iff _ _ _).mp (DiagLog.target_of_lands lands)
    unfold DiagLog.Ready at ready
    rw [isWriter, length_epoch_bytes] at ready
    rcases ready with other | full | ⟨file, isOpen, -⟩
    · exact other rfl
    · exact absurd full (by decide)
    · cases isOpen

end Mosschat.Net.Diag
