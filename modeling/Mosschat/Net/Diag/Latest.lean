import Mosschat.Net.Diag.Caps
import Mosschat.Net.Diag.Reopen

/-!
Owns the record that is read as the last of a peer's: over every order of appends and
processes, the files in the order of their names against the records in the order of their
appends.

Does not own files that are torn.
-/

namespace Mosschat.Net.Diag

open Mosschat.Library Mosschat.Library.TextFile Mosschat.Library.Machine

/-! ## The order of the files -/

theorem NoNewer.trans {first second third : Name × Nat} (before : NoNewer first second)
    (after : NoNewer second third) : NoNewer first third := by
  rcases before with earlier | ⟨sameDay, lower⟩
  · rcases after with later | ⟨sameLater, -⟩
    · exact Or.inl (earlier.trans later)
    · exact Or.inl (sameLater ▸ earlier)
  · rcases after with later | ⟨sameLater, higher⟩
    · exact Or.inl (sameDay ▸ later)
    · exact Or.inr ⟨sameDay.trans sameLater, lower.trans higher⟩

theorem NoNewer.refl (key : Name × Nat) : NoNewer key key := Or.inr ⟨rfl, Nat.le_refl _⟩

theorem NoNewer.total (key other : Name × Nat) : NoNewer key other ∨ NoNewer other key := by
  rcases lt_trichotomy key.1 other.1 with earlier | sameDay | later
  · exact Or.inl (Or.inl earlier)
  · rcases Nat.le_total key.2 other.2 with lower | higher
    · exact Or.inl (Or.inr ⟨sameDay, lower⟩)
    · exact Or.inr (Or.inr ⟨sameDay.symm, higher⟩)
  · exact Or.inr (Or.inl later)

theorem NoNewer.antisymm {key other : Name × Nat} (before : NoNewer key other)
    (after : NoNewer other key) : key = other := by
  rcases before with earlier | ⟨sameDay, lower⟩
  · rcases after with later | ⟨sameDay, -⟩
    · exact absurd later (lt_asymm earlier)
    · exact absurd (sameDay ▸ earlier) (lt_irrefl _)
  · rcases after with later | ⟨-, higher⟩
    · exact absurd (sameDay ▸ later) (lt_irrefl _)
    · exact Prod.ext sameDay (Nat.le_antisymm lower higher)

/-- The log's own files have different keys. -/
theorem Named.key_inj {files : Files} (named : Named files) {name other : Name}
    (inside : name ∈ files) (otherInside : other ∈ files) (same : fileKey name = fileKey other) :
    name = other := by
  obtain ⟨day, part, shaped, fits, isName⟩ := named name inside
  obtain ⟨otherDay, otherPart, otherShaped, otherFits, isOther⟩ := named other otherInside
  rw [isName, isOther, fileKey_fileNameFor shaped fits,
    fileKey_fileNameFor otherShaped otherFits] at same
  obtain ⟨sameDay, samePart⟩ := Prod.mk.inj same
  rw [isName, isOther, sameDay, samePart]

/-- A listing of the log's own files, from the newest on. -/
theorem Named.filesNewestFirst_perm {files : Files} (named : Named files) {listing : List Name}
    (isListing : listing.Perm files.keys) : (filesNewestFirst listing).Perm files.keys := by
  have all : listing.filter (fun name =>
      extension.isSuffixOf name && (dayPrefix name).isSome) = listing := by
    rw [List.filter_eq_self]
    intro name inside
    obtain ⟨day, part, shaped, -, isName⟩ :=
      named name (AList.mem_keys.mpr (isListing.mem_iff.mp inside))
    rw [isName, isSuffixOf_fileNameFor, dayPrefix_fileNameFor shaped]
    rfl
  unfold filesNewestFirst
  rw [all]
  exact (List.perm_insertionSort _ _).trans isListing

theorem pairwise_filesNewestFirst (listing : List Name) :
    (filesNewestFirst listing).Pairwise fun name other =>
      NoNewer (fileKey other) (fileKey name) := by
  have total : Std.Total fun name other => NoNewer (fileKey other) (fileKey name) :=
    ⟨fun name other => NoNewer.total _ _⟩
  have trans : IsTrans Name fun name other => NoNewer (fileKey other) (fileKey name) :=
    ⟨fun _ _ _ before after => after.trans before⟩
  exact List.pairwise_insertionSort _ _

/-! ## The last record of a peer -/

/-- The record is one of the peer's. -/
def isOf (peer : Option PeerFingerprint) (record : DiagRecord) : Bool :=
  match peer with
  | none => true
  | some wanted => wanted = record.peer

/-- The last of the records of the peer, in the order of their appends. -/
def latestOf (peer : Option PeerFingerprint) (kept : List (Name × DiagRecord)) :
    Option DiagRecord :=
  (kept.filter fun entry => isOf peer entry.2).getLast?.map Prod.snd

/-- In whatever order the directory is listed, the record that is read as the last one of a
peer, or of all, is the last that was appended of those whose file is there. -/
def Chronicle.ReadsLatest (crates : Crates) (chronicle : Chronicle) : Prop :=
  ∀ listing, listing.Perm chronicle.log.files.keys → ∀ peer,
    crates.lastRecord chronicle.log.files listing peer =
      .ok ((latestOf peer chronicle.kept).map crates.back)

/-- When a day's file is opened, no file there is of a later day, nor a later part than the
one the line goes to. -/
def Chronicle.OpensNewest (crates : Crates) (chronicle : Chronicle) : LogAction → Prop
  | .append _ record nowMs =>
    let today := dateOnly crates.calendar nowMs
    let size := (contents chronicle.log.files (fileNameFor today 0)).length
    let part := if maxFileBytes < size + (crates.bytes record).length then 1 else 0
    chronicle.log.writer.openDate ≠ some today →
      ∀ name ∈ chronicle.log.files, NoNewer (fileKey name) (today, part)
  | .crash _ _ _ _ => True
  | .restart => True

section Outcomes

variable {crates : Crates}

theorem recordOf_back (peer : Option PeerFingerprint) (record : DiagRecord) :
    recordOf peer (.record (crates.back record)) =
      if isOf peer record then some (crates.back record) else none := by
  cases peer with
  | none => rfl
  | some wanted =>
      unfold recordOf isOf
      simp only [decide_eq_true_eq]
      rfl

/-- The last record of the peer among those of a file. -/
theorem bestOf_records (peer : Option PeerFingerprint) (records : List DiagRecord) :
    bestOf peer (records.map fun record => .record (crates.back record)) =
      (records.filter (isOf peer)).getLast?.map crates.back := by
  induction records using List.reverseRecOn with
  | nil => rfl
  | append_singleton records record ih =>
      unfold bestOf at ih ⊢
      rw [List.map_append, List.map_singleton, List.foldl_append, ih,
        List.filter_append]
      show (recordOf peer (.record (crates.back record))).or _ = _
      rw [recordOf_back]
      by_cases isPeers : isOf peer record = true
      · rw [if_pos isPeers, List.filter_singleton, isPeers]
        simp
      · rw [if_neg isPeers, List.filter_singleton, Bool.eq_false_iff.mpr isPeers]
        simp

/-- The first file with a record of the peer decides. -/
theorem lastAmong_eq {files : Files} {names : List Name} {recordsIn : Name → List DiagRecord}
    (read : ∀ name ∈ names, crates.readRecords (contents files name) =
      .ok ((recordsIn name).map fun record => .record (crates.back record)))
    (peer : Option PeerFingerprint) :
    crates.lastAmong files peer names =
      .ok (names.findSome? fun name =>
        ((recordsIn name).filter (isOf peer)).getLast?.map crates.back) := by
  induction names with
  | nil => rfl
  | cons name rest ih =>
      rw [List.forall_mem_cons] at read
      rw [Crates.lastAmong, read.1, List.findSome?_cons]
      simp only [bind, Except.bind, bestOf_records, ih read.2]
      cases ((recordsIn name).filter (isOf peer)).getLast? with
      | none => rfl
      | some record => rfl

end Outcomes

/-! ## A run -/

/-- The files are the log's own, and each holds the kept records that went to it. -/
structure Chronicle.Recorded (crates : Crates) (chronicle : Chronicle) : Prop where
  settled : chronicle.log.Settled
  named : Named chronicle.log.files
  plain : ∀ name, contents chronicle.log.files name =
    utf8 (written ((chronicle.recordsIn name).map crates.line))
  legible : ∀ entry ∈ chronicle.kept, crates.Legible entry.2
  present : ∀ entry ∈ chronicle.kept, entry.1 ∈ chronicle.log.files

/-- The kept records are in the order of their files, and the part that is open is the
newest. -/
structure Chronicle.InOrder (chronicle : Chronicle) : Prop where
  ordered : chronicle.kept.Pairwise fun entry later => NoNewer (fileKey entry.1) (fileKey later.1)
  newest : ∀ today, chronicle.log.writer.openDate = some today → ∀ name ∈ chronicle.log.files,
    NoNewer (fileKey name) (today, chronicle.log.writer.openPart)

namespace Chronicle

variable {crates : Crates} {chronicle : Chronicle}

theorem recorded_empty (crates : Crates) : empty.Recorded crates := by
  constructor
  · exact DiagLog.settled_new ∅
  · exact named_empty
  · intro name
    rfl
  · exact List.forall_mem_nil _
  · exact List.forall_mem_nil _

theorem inOrder_empty : empty.InOrder := by
  constructor
  · exact List.Pairwise.nil
  · intro today isDay
    cases isDay

theorem mem_recordsIn {name : Name} {record : DiagRecord} :
    record ∈ chronicle.recordsIn name ↔ (name, record) ∈ chronicle.kept := by
  unfold recordsIn
  rw [List.mem_map]
  constructor
  · intro inside
    obtain ⟨entry, isIn, isRecord⟩ := inside
    obtain ⟨isKept, isName⟩ := List.mem_filter.mp isIn
    rw [decide_eq_true_eq] at isName
    rw [← isRecord, ← isName]
    exact isKept
  · intro isKept
    exact ⟨_, List.mem_filter.mpr ⟨isKept, decide_eq_true rfl⟩, rfl⟩

/-- The records of a peer in a file. -/
theorem recordsIn_filter (peer : Option PeerFingerprint) (name : Name) :
    (chronicle.recordsIn name).filter (isOf peer) =
      ((chronicle.kept.filter fun entry => isOf peer entry.2).filter
        fun entry => entry.1 = name).map Prod.snd := by
  unfold recordsIn
  rw [List.filter_map, List.filter_filter, List.filter_filter]
  congr 1
  apply List.filter_congr
  intro entry _
  exact Bool.and_comm _ _

/-- Every file is read as the records it holds. -/
theorem Recorded.read (recorded : chronicle.Recorded crates) (name : Name) :
    crates.readRecords (contents chronicle.log.files name) =
      .ok ((chronicle.recordsIn name).map fun record => .record (crates.back record)) := by
  have legible : ∀ record ∈ chronicle.recordsIn name, crates.Legible record := by
    intro record inside
    exact recorded.legible _ (mem_recordsIn.mp inside)
  have read := Crates.readRecords_written legible List.not_mem_nil
  rw [List.append_nil] at read
  rw [recorded.plain, read]
  exact congrArg Except.ok (List.append_nil _)

/-- The record read as a peer's last is that of the newest file that has one. -/
theorem Recorded.lastRecord_eq (recorded : chronicle.Recorded crates) (listing : List Name)
    (peer : Option PeerFingerprint) :
    crates.lastRecord chronicle.log.files listing peer =
      .ok ((filesNewestFirst listing).findSome? fun name =>
        ((chronicle.recordsIn name).filter (isOf peer)).getLast?.map crates.back) :=
  lastAmong_eq (fun name _ => recorded.read name) peer

/-- While the files are in order, what is read last was appended last. -/
theorem Recorded.readsLatest (recorded : chronicle.Recorded crates)
    (inOrder : chronicle.InOrder) : chronicle.ReadsLatest crates := by
  intro listing isListing peer
  have perm := recorded.named.filesNewestFirst_perm isListing
  have sorted := pairwise_filesNewestFirst listing
  have distinct : (filesNewestFirst listing).Nodup :=
    perm.nodup_iff.mpr (AList.keys_nodup chronicle.log.files)
  have memNames : ∀ name, name ∈ filesNewestFirst listing ↔ name ∈ chronicle.log.files := by
    intro name
    rw [perm.mem_iff, AList.mem_keys]
  rw [recorded.lastRecord_eq]
  congr 1
  unfold latestOf
  simp only [recordsIn_filter]
  have kept : (chronicle.kept.filter fun entry => isOf peer entry.2).Sublist chronicle.kept :=
    List.filter_sublist
  have ordered := inOrder.ordered.sublist kept
  rcases List.eq_nil_or_concat (chronicle.kept.filter fun entry => isOf peer entry.2) with
    nothing | ⟨front, last, isKept⟩
  · rw [nothing]
    apply List.findSome?_eq_none_iff.mpr
    intro name _
    rfl
  · rw [List.concat_eq_append] at isKept
    have lastKept : last ∈ chronicle.kept :=
      kept.subset (isKept ▸ List.mem_append_right front List.mem_cons_self)
    have lastFile := recorded.present last lastKept
    obtain ⟨newer, older, isNames⟩ := List.append_of_mem ((memNames last.1).mpr lastFile)
    rw [isNames] at sorted distinct
    rw [isKept] at ordered
    rw [isNames, isKept, List.findSome?_append, List.findSome?_cons]
    have noneNewer : newer.findSome? (fun name =>
        (((front ++ [last]).filter fun entry => entry.1 = name).map Prod.snd).getLast?.map
          crates.back) = none := by
      apply List.findSome?_eq_none_iff.mpr
      intro name inside
      have isFile : name ∈ chronicle.log.files :=
        (memNames name).mp (isNames ▸ List.mem_append_left _ inside)
      have differs : name ≠ last.1 :=
        (List.nodup_append.mp distinct).2.2 name inside last.1 List.mem_cons_self
      have above : NoNewer (fileKey last.1) (fileKey name) :=
        (List.pairwise_append.mp sorted).2.2 name inside last.1 List.mem_cons_self
      have nothing : ((front ++ [last]).filter fun entry => entry.1 = name) = [] := by
        rw [List.filter_eq_nil_iff]
        intro entry isIn isName
        rw [decide_eq_true_eq] at isName
        rcases List.mem_append.mp isIn with isFront | isLast
        · have below : NoNewer (fileKey entry.1) (fileKey last.1) :=
            (List.pairwise_append.mp ordered).2.2 entry isFront last List.mem_cons_self
          rw [isName] at below
          exact differs (recorded.named.key_inj isFile lastFile (below.antisymm above))
        · rw [List.mem_singleton.mp isLast] at isName
          exact differs isName.symm
      rw [nothing]
      rfl
    have lastIn : ((front ++ [last]).filter fun entry => entry.1 = last.1) =
        (front.filter fun entry => entry.1 = last.1) ++ [last] := by
      rw [List.filter_append, List.filter_singleton]
      simp
    rw [noneNewer, lastIn, List.map_append, List.map_singleton, List.getLast?_concat,
      List.getLast?_concat]
    rfl

/-! ### What an append leaves -/

/-- While no file is of a later day, an append's file is the newest. -/
theorem InOrder.newest_fileAt (inOrder : chronicle.InOrder) (settled : chronicle.log.Settled)
    {record : DiagRecord}
    {nowMs : UInt64} (opens : chronicle.OpensNewest crates (.append .working record nowMs)) :
    ∀ name ∈ chronicle.log.standing .working (dateOnly crates.calendar nowMs),
      NoNewer (fileKey name) (dateOnly crates.calendar nowMs,
        chronicle.log.partAt (dateOnly crates.calendar nowMs) (crates.bytes record).length) := by
  have shaped := isDateShaped_dateOnly crates.calendar nowMs
  intro name stands
  have inside := (DiagLog.mem_standing_iff.mp stands).2
  by_cases sameDay : chronicle.log.writer.openDate = some (dateOnly crates.calendar nowMs)
  · have fits := settled.fits
    have higher : chronicle.log.writer.openPart ≤
        chronicle.log.partAt (dateOnly crates.calendar nowMs) (crates.bytes record).length := by
      unfold DiagLog.partAt DiagLog.partBefore DiagLog.partAfter
      rw [if_pos sameDay]
      simp only
      split_ifs
      · omega
      · exact Nat.le_refl _
    exact (inOrder.newest _ sameDay name inside).trans (Or.inr ⟨rfl, higher⟩)
  · have before := opens sameDay
    have few : chronicle.log.writer.openDate ≠ some (dateOnly crates.calendar nowMs) →
        (Ranked.newer (dateOnly crates.calendar nowMs)
          (dayNames chronicle.log.files)).length < maxFilesKept := by
      intro _
      have noneNewer : Ranked.newer (dateOnly crates.calendar nowMs)
          (dayNames chronicle.log.files) = [] := by
        rw [List.eq_nil_iff_forall_not_mem]
        intro day isNewer
        obtain ⟨isDay, later⟩ := Ranked.mem_newer_iff.mp isNewer
        obtain ⟨other, isFile, -, isPrefix⟩ := mem_dayNames_iff.mp isDay
        have isKey : (fileKey other).1 = day := by
          rw [fileKey, isPrefix]
          rfl
        rcases before other isFile with earlier | ⟨isToday, -⟩
        · rw [isKey] at earlier
          exact lt_asymm earlier later
        · rw [isKey] at isToday
          exact lt_irrefl _ (isToday ▸ later)
      rw [noneNewer]
      decide
    have stood := DiagLog.contents_standing_today shaped few 0
    have isPart : chronicle.log.partAt (dateOnly crates.calendar nowMs)
        (crates.bytes record).length =
          if maxFileBytes < (contents chronicle.log.files
            (fileNameFor (dateOnly crates.calendar nowMs) 0)).length +
              (crates.bytes record).length then 1 else 0 := by
      unfold DiagLog.partAt DiagLog.partBefore
      rw [if_neg sameDay]
      simp only [stood]
      rfl
    rw [isPart]
    exact before name inside

/-- The records of a file, when one is appended. -/
theorem recordsIn_append_working (settled : chronicle.log.Settled) (crates : Crates)
    (record : DiagRecord) (nowMs : UInt64) (name : Name) :
    (chronicle.step crates (.append .working record nowMs)).recordsIn name =
      (if chronicle.log.drops .working (dateOnly crates.calendar nowMs) name then []
        else chronicle.recordsIn name) ++
        if name = chronicle.log.fileAt (dateOnly crates.calendar nowMs)
          (crates.bytes record).length then [record] else [] := by
  have gone : chronicle.log.unlinks crates (.append .working record nowMs) name =
      chronicle.log.drops .working (dateOnly crates.calendar nowMs) name := rfl
  rw [recordsIn_step, acknowledges_append, DiagLog.target_working settled, gone,
    Option.toList_some, List.map_singleton, List.filter_singleton]
  by_cases isName : name = chronicle.log.fileAt (dateOnly crates.calendar nowMs)
      (crates.bytes record).length
  · rw [if_pos isName, decide_eq_true isName.symm, cond_true, List.map_singleton]
  · rw [if_neg isName, decide_eq_false (fun same => isName same.symm), cond_false, List.map_nil]

theorem stands_of_kept (recorded : chronicle.Recorded crates) (today : Name) :
    ∀ entry ∈ chronicle.kept.filter fun entry => !chronicle.log.drops .working today entry.1,
      entry.1 ∈ chronicle.log.standing .working today := by
  intro entry inside
  obtain ⟨isKept, spared⟩ := List.mem_filter.mp inside
  rw [Bool.not_eq_true'] at spared
  exact DiagLog.mem_standing_iff.mpr ⟨spared, recorded.present entry isKept⟩

theorem Recorded.append (recorded : chronicle.Recorded crates) {record : DiagRecord}
    (legible : crates.Legible record) (nowMs : UInt64) :
    (chronicle.step crates (.append .working record nowMs)).Recorded crates := by
  have settled := recorded.settled
  have files : (chronicle.step crates (.append .working record nowMs)).log.files =
      chronicle.log.extended (dateOnly crates.calendar nowMs) (crates.bytes record).length
        (crates.bytes record) := files_append_working settled crates record nowMs
  have kept : (chronicle.step crates (.append .working record nowMs)).kept =
      (chronicle.kept.filter fun entry =>
        !chronicle.log.drops .working (dateOnly crates.calendar nowMs) entry.1) ++
        [(chronicle.log.fileAt (dateOnly crates.calendar nowMs) (crates.bytes record).length,
          record)] := kept_append_working settled crates record nowMs
  constructor
  · exact settled.append crates record nowMs
  · exact recorded.named.append settled crates record nowMs
  · intro name
    rw [files, DiagLog.contents_extended, DiagLog.contents_standing,
      recordsIn_append_working settled]
    by_cases gone : chronicle.log.drops .working (dateOnly crates.calendar nowMs) name = true
    · rw [if_pos gone, if_pos gone]
      split_ifs
      · exact (DiagLog.written_line [] crates record).symm
      · rfl
    · rw [if_neg gone, if_neg gone, recorded.plain]
      split_ifs
      · exact (DiagLog.written_line _ crates record).symm
      · rw [List.append_nil, List.append_nil]
  · rw [kept, List.forall_mem_append, List.forall_mem_singleton]
    exact ⟨fun entry inside => recorded.legible entry (List.mem_of_mem_filter inside), legible⟩
  · rw [kept, files, List.forall_mem_append, List.forall_mem_singleton]
    refine ⟨?_, (DiagLog.mem_extended_iff _ _ _ _ _).mpr (Or.inl rfl)⟩
    intro entry inside
    have stands := stands_of_kept recorded _ entry inside
    exact (DiagLog.mem_extended_iff _ _ _ _ _).mpr (Or.inr (Or.inr stands))

theorem InOrder.append (inOrder : chronicle.InOrder) (recorded : chronicle.Recorded crates)
    {record : DiagRecord} {nowMs : UInt64}
    (opens : chronicle.OpensNewest crates (.append .working record nowMs)) :
    (chronicle.step crates (.append .working record nowMs)).InOrder := by
  have shaped := isDateShaped_dateOnly crates.calendar nowMs
  have settled := recorded.settled
  have newest := inOrder.newest_fileAt settled opens
  have fits := settled.partAt_lt (dateOnly crates.calendar nowMs) (crates.bytes record).length
  have isKey : fileKey (chronicle.log.fileAt (dateOnly crates.calendar nowMs)
      (crates.bytes record).length) = (dateOnly crates.calendar nowMs,
        chronicle.log.partAt (dateOnly crates.calendar nowMs) (crates.bytes record).length) :=
    fileKey_fileNameFor shaped fits
  constructor
  · have kept : (chronicle.step crates (.append .working record nowMs)).kept =
        (chronicle.kept.filter fun entry =>
          !chronicle.log.drops .working (dateOnly crates.calendar nowMs) entry.1) ++
          [(chronicle.log.fileAt (dateOnly crates.calendar nowMs) (crates.bytes record).length,
            record)] := kept_append_working settled crates record nowMs
    rw [kept, List.pairwise_append]
    refine ⟨inOrder.ordered.sublist List.filter_sublist, List.pairwise_singleton _ _, ?_⟩
    intro entry inside later isLater
    rw [List.mem_singleton.mp isLater, isKey]
    exact newest entry.1 (stands_of_kept recorded _ entry inside)
  · intro today isDay name inside
    change (chronicle.log.append crates .working record nowMs).1.writer.openDate = _ at isDay
    change name ∈ (chronicle.log.append crates .working record nowMs).1.files at inside
    show NoNewer (fileKey name)
      (today, (chronicle.log.append crates .working record nowMs).1.writer.openPart)
    rw [DiagLog.append_working settled] at isDay inside ⊢
    rw [← Option.some.inj isDay]
    rcases (DiagLog.mem_extended_iff _ _ _ _ _).mp inside with isFile | ⟨-, isFile⟩ | stood
    · rw [isFile, isKey]
      exact NoNewer.refl _
    · rw [isFile, fileKey_fileNameFor shaped (by decide)]
      exact Or.inr ⟨rfl, Nat.zero_le _⟩
    · exact newest name stood

theorem kept_restart (crates : Crates) (chronicle : Chronicle) :
    (chronicle.step crates .restart).kept = chronicle.kept := by
  show (chronicle.kept.filter fun _ => !false) ++ [] = chronicle.kept
  rw [List.append_nil, List.filter_eq_self]
  exact fun _ _ => rfl

theorem recordsIn_restart (crates : Crates) (chronicle : Chronicle) (name : Name) :
    (chronicle.step crates .restart).recordsIn name = chronicle.recordsIn name := by
  rw [recordsIn, kept_restart]
  rfl

theorem Recorded.step (recorded : chronicle.Recorded crates) {action : LogAction}
    (works : action.Works) (legible : ∀ record ∈ action.records, crates.Legible record) :
    (chronicle.step crates action).Recorded crates := by
  cases action with
  | append calls record nowMs =>
      have isWorking : calls = .working := works
      subst isWorking
      exact recorded.append (legible record List.mem_cons_self) nowMs
  | crash calls record nowMs count => exact works.elim
  | restart =>
      constructor
      · exact DiagLog.settled_new _
      · exact recorded.named
      · intro name
        rw [recordsIn_restart]
        exact recorded.plain name
      · rw [kept_restart]
        exact recorded.legible
      · rw [kept_restart]
        exact recorded.present

theorem InOrder.step (inOrder : chronicle.InOrder) (recorded : chronicle.Recorded crates)
    {action : LogAction} (works : action.Works) (opens : chronicle.OpensNewest crates action) :
    (chronicle.step crates action).InOrder := by
  cases action with
  | append calls record nowMs =>
      have isWorking : calls = .working := works
      subst isWorking
      exact inOrder.append recorded opens
  | crash calls record nowMs count => exact works.elim
  | restart =>
      constructor
      · rw [kept_restart]
        exact inOrder.ordered
      · intro today isDay
        cases isDay

theorem recorded_run {actions : List LogAction} (works : ∀ action ∈ actions, action.Works)
    (legible : ∀ action ∈ actions, ∀ record ∈ action.records, crates.Legible record) :
    (run (Chronicle.step crates) .empty actions).Recorded crates := by
  have kept : ∀ (chronicle : Chronicle) (action : LogAction), chronicle.Recorded crates →
      action ∈ actions → (chronicle.step crates action).Recorded crates := by
    intro chronicle action recorded inside
    exact recorded.step (works action inside) (legible action inside)
  exact run_preserves kept (recorded_empty crates) (guarded_mem _ _)

end Chronicle

/-- While no append opens a day's file behind a later day or a later part, the record read as
a peer's last, and as the last of all, is the one appended last. -/
theorem last_record_latest {crates : Crates} {actions : List LogAction}
    (works : ∀ action ∈ actions, action.Works)
    (legible : ∀ action ∈ actions, ∀ record ∈ action.records, crates.Legible record)
    (opens : Guarded (Chronicle.step crates) (Chronicle.OpensNewest crates) .empty actions) :
    (run (Chronicle.step crates) .empty actions).ReadsLatest crates := by
  have both : Guarded (Chronicle.step crates)
      (fun chronicle action => chronicle.OpensNewest crates action ∧ action ∈ actions) .empty
      actions := guarded_and.mpr ⟨opens, guarded_mem _ _⟩
  have kept : ∀ (chronicle : Chronicle) (action : LogAction),
      chronicle.Recorded crates ∧ chronicle.InOrder →
      chronicle.OpensNewest crates action ∧ action ∈ actions →
        (chronicle.step crates action).Recorded crates ∧ (chronicle.step crates action).InOrder := by
    intro chronicle action before guard
    have isWorking := works action guard.2
    exact ⟨before.1.step isWorking (legible action guard.2),
      before.2.step before.1 isWorking guard.1⟩
  have after := run_preserves kept ⟨Chronicle.recorded_empty crates, Chronicle.inOrder_empty⟩ both
  exact after.1.readsLatest after.2

/-- A record, another process, and the record again. -/
def appendedTwice (record : DiagRecord) : List LogAction :=
  [.append .working record 0, .restart, .append .working record 0]

theorem works_appendedTwice (record : DiagRecord) :
    ∀ action ∈ appendedTwice record, action.Works := by
  unfold appendedTwice
  rw [List.forall_mem_cons, List.forall_mem_cons, List.forall_mem_singleton]
  exact ⟨rfl, trivial, rfl⟩

theorem legible_appendedTwice {crates : Crates} {record : DiagRecord}
    (legible : crates.Legible record) :
    ∀ action ∈ appendedTwice record, ∀ other ∈ action.records, crates.Legible other := by
  unfold appendedTwice
  simp only [List.forall_mem_cons, LogAction.records, List.not_mem_nil, false_imp_iff,
    implies_true, and_true]
  exact ⟨legible, trivial, legible⟩

/-- A second line that fits goes to part 0 again. -/
theorem opens_again {crates : Crates} {record : DiagRecord}
    (fits : (crates.bytes record).length + (crates.bytes record).length ≤ maxFileBytes)
    {kept : List (Name × DiagRecord)} :
    Chronicle.OpensNewest crates
      ⟨⟨(DiagLog.empty.append crates .working record 0).1.files, .new⟩, kept⟩
      (.append .working record 0) := by
  have alone : (crates.bytes record).length ≤ maxFileBytes := by omega
  have shaped := isDateShaped_dateOnly crates.calendar 0
  have filling := DiagLog.filling_first crates record 0 alone
  intro _ name inside
  rw [DiagLog.only_first crates record 0 alone name inside,
    fileKey_fileNameFor shaped (by decide), filling.firstSize, if_neg (Nat.not_lt.mpr fits)]
  exact NoNewer.refl _

theorem opens_appendedTwice {crates : Crates} {record : DiagRecord}
    (fits : (crates.bytes record).length + (crates.bytes record).length ≤ maxFileBytes) :
    Guarded (Chronicle.step crates) (Chronicle.OpensNewest crates) .empty
      (appendedTwice record) := by
  refine ⟨?_, trivial, opens_again fits, trivial⟩
  intro _ name inside
  exact absurd inside (AList.notMem_empty name)

theorem last_record_latest_appendedTwice :
    (run (Chronicle.step epochCrates) .empty (appendedTwice DiagRecord.gateOnly)).ReadsLatest
      epochCrates :=
  last_record_latest (works_appendedTwice _) (legible_appendedTwice legible_gateOnly)
    (opens_appendedTwice (by rw [length_epoch_bytes]; decide))

/-! ## A part that still has room -/

/-- A part is filled, a longer record goes to the next one, and the process after goes back. -/
def misplaced (record other : DiagRecord) (count : Nat) : List LogAction :=
  DiagLog.filledPart record count ++
    [.append .working other 0, .restart, .append .working record 0]

section Misplaced

variable {crates : Crates} {record other : DiagRecord}

theorem mem_misplaced {count : Nat} {action : LogAction}
    (inside : action ∈ misplaced record other count) :
    action = .append .working record 0 ∨ action = .append .working other 0 ∨
      action = .restart := by
  unfold misplaced at inside
  simp only [List.mem_append, List.mem_cons, List.not_mem_nil, or_false] at inside
  rcases inside with isFront | isOther | isRestart | isLast
  · exact Or.inl (DiagLog.mem_filledPart isFront)
  · exact Or.inr (Or.inl isOther)
  · exact Or.inr (Or.inr isRestart)
  · exact Or.inl isLast

theorem log_run (crates : Crates) (chronicle : Chronicle) (actions : List LogAction) :
    (run (Chronicle.step crates) chronicle actions).log =
      run (DiagLog.step crates) chronicle.log actions := by
  induction actions generalizing chronicle with
  | nil => rfl
  | cons action rest ih =>
      rw [run_cons, run_cons, ih]
      rfl

/-- A file without a byte holds no record. -/
theorem Chronicle.Recorded.recordsIn_eq_nil {chronicle : Chronicle}
    (recorded : chronicle.Recorded crates) {name : Name}
    (isEmpty : (contents chronicle.log.files name).length = 0) :
    chronicle.recordsIn name = [] := by
  rw [recorded.plain] at isEmpty
  cases isRecords : chronicle.recordsIn name with
  | nil => rfl
  | cons record others =>
      rw [isRecords, List.map_cons] at isEmpty
      have split : written (crates.line record :: others.map crates.line) =
          crates.line record ++ ['\n'] ++ written (others.map crates.line) := rfl
      rw [split, utf8_append, utf8_append, List.length_append, List.length_append,
        show (utf8 ['\n']).length = 1 from rfl] at isEmpty
      omega

/-- The record of the next part is read as the last of all. -/
theorem read_of_second {chronicle : Chronicle} (recorded : chronicle.Recorded crates)
    {today : Name} (shaped : isDateShaped today = true)
    (only : ∀ name ∈ chronicle.log.files,
      name = fileNameFor today 0 ∨ name = fileNameFor today 1)
    (isSecond : chronicle.recordsIn (fileNameFor today 1) = [other]) :
    crates.lastRecord chronicle.log.files chronicle.log.files.keys none =
      .ok (some (crates.back other)) := by
  have perm := recorded.named.filesNewestFirst_perm (List.Perm.refl chronicle.log.files.keys)
  have sorted := pairwise_filesNewestFirst chronicle.log.files.keys
  have isKept : (fileNameFor today 1, other) ∈ chronicle.kept := by
    rw [← Chronicle.mem_recordsIn, isSecond]
    exact List.mem_cons_self
  have isIn : fileNameFor today 1 ∈ filesNewestFirst chronicle.log.files.keys := by
    rw [perm.mem_iff, ← AList.mem_keys]
    exact recorded.present _ isKept
  obtain ⟨newer, older, isNames⟩ := List.append_of_mem isIn
  have noneNewer : newer = [] ∨ ∀ name ∈ newer, name = fileNameFor today 1 := by
    right
    intro name inside
    have isFile : name ∈ chronicle.log.files := by
      rw [AList.mem_keys, ← perm.mem_iff, isNames]
      exact List.mem_append_left _ inside
    rcases only name isFile with isFirst | isNext
    · rw [isNames] at sorted
      have above := (List.pairwise_append.mp sorted).2.2 name inside _ List.mem_cons_self
      rw [isFirst, fileKey_fileNameFor shaped (by decide),
        fileKey_fileNameFor shaped (by decide)] at above
      rcases above with later | ⟨-, higher⟩
      · exact absurd later (lt_irrefl _)
      · exact absurd higher (Nat.not_succ_le_zero 0)
    · exact isNext
  have here : ((chronicle.recordsIn (fileNameFor today 1)).filter (isOf none)).getLast?.map
      crates.back = some (crates.back other) := by
    rw [isSecond]
    rfl
  rw [recorded.lastRecord_eq, isNames]
  congr 1
  cases newer with
  | nil => rw [List.nil_append, List.findSome?_cons, here]
  | cons first others =>
      have isNext := (noneNewer.resolve_left (List.cons_ne_nil _ _)) first List.mem_cons_self
      rw [List.cons_append, List.findSome?_cons, isNext, here]

/-- What was appended last is kept last. -/
theorem Chronicle.latestOf_append (crates : Crates) (chronicle : Chronicle)
    (record : DiagRecord) (nowMs : UInt64) (settled : chronicle.log.Settled) :
    latestOf none (chronicle.step crates (.append .working record nowMs)).kept = some record := by
  have kept : (chronicle.step crates (.append .working record nowMs)).kept =
      (chronicle.kept.filter fun entry =>
        !chronicle.log.drops .working (dateOnly crates.calendar nowMs) entry.1) ++
        [(chronicle.log.fileAt (dateOnly crates.calendar nowMs) (crates.bytes record).length,
          record)] := kept_append_working settled crates record nowMs
  have all : ∀ entry ∈ (chronicle.step crates (.append .working record nowMs)).kept,
      isOf none entry.2 = true := fun _ _ => rfl
  rw [latestOf, List.filter_eq_self.mpr all, kept, List.getLast?_concat]
  rfl

/-- The longer record is read as the last of all when the shorter one has gone back to the
first part. -/
theorem misplaced_reads {chronicle : Chronicle} (recorded : chronicle.Recorded crates)
    (legible : crates.Legible record) (otherLegible : crates.Legible other)
    {size otherSize first : Nat} (length : (crates.bytes record).length = size)
    (otherLength : (crates.bytes other).length = otherSize)
    (filled : DiagLog.Filling (dateOnly crates.calendar 0) chronicle.log 0 first 0)
    (fits : first + size ≤ maxFileBytes) (noRoom : maxFileBytes < first + otherSize) :
    let last := ((chronicle.step crates (.append .working other 0)).step crates .restart).step
      crates (.append .working record 0)
    crates.lastRecord last.log.files last.log.files.keys none = .ok (some (crates.back other)) := by
  have shaped := isDateShaped_dateOnly crates.calendar 0
  have isNext : chronicle.log.partAt (dateOnly crates.calendar 0) otherSize = 1 := by
    rw [filled.partAt_eq (Or.inl rfl)]
    simp only [if_true]
    exact if_pos noRoom
  have rolled := filled.append otherLength (Or.inr rfl) isNext
  have sameDay : chronicle.log.drops .working (dateOnly crates.calendar 0)
      (fileNameFor (dateOnly crates.calendar 0) 1) = false := by
    rw [DiagLog.drops_working, decide_eq_false (not_not.mpr filled.isDay)]
    rfl
  have isSecond : (chronicle.step crates (.append .working other 0)).recordsIn
      (fileNameFor (dateOnly crates.calendar 0) 1) = [other] := by
    rw [Chronicle.recordsIn_append_working recorded.settled, sameDay,
      recorded.recordsIn_eq_nil filled.secondSize, otherLength, DiagLog.fileAt, isNext, if_pos rfl]
    rfl
  have recordedNext := recorded.append otherLegible 0
  have only : ∀ name ∈ (chronicle.step crates (.append .working other 0)).log.files,
      name = fileNameFor (dateOnly crates.calendar 0) 0 ∨
        name = fileNameFor (dateOnly crates.calendar 0) 1 := rolled.only
  have firstSize : (contents (chronicle.step crates (.append .working other 0)).log.files
      (fileNameFor (dateOnly crates.calendar 0) 0)).length = first := rolled.firstSize
  generalize chronicle.step crates (.append .working other 0) = next
    at isSecond recordedNext only firstSize ⊢
  have recordedAgain : (next.step crates .restart).Recorded crates :=
    recordedNext.step trivial fun _ inside => absurd inside List.not_mem_nil
  have oneDay : ∀ day ∈ dayNames next.log.files, day = dateOnly crates.calendar 0 := by
    intro day isDay
    obtain ⟨name, inside, -, isPrefix⟩ := mem_dayNames_iff.mp isDay
    rcases only name inside with isFirst | isOther
    · rw [isFirst, dayPrefix_fileNameFor shaped] at isPrefix
      exact (Option.some.inj isPrefix).symm
    · rw [isOther, dayPrefix_fileNameFor shaped] at isPrefix
      exact (Option.some.inj isPrefix).symm
  have stands : (next.step crates .restart).log.standing .working (dateOnly crates.calendar 0) =
      next.log.files := DiagLog.standing_of_one_day oneDay
  have isFile : (next.step crates .restart).log.fileAt (dateOnly crates.calendar 0) size =
      fileNameFor (dateOnly crates.calendar 0) 0 := by
    have isBefore : (next.step crates .restart).log.partBefore (dateOnly crates.calendar 0) = 0 :=
      DiagLog.partBefore_new next.log.files _
    apply DiagLog.fileAt_of_fits isBefore
    rw [stands, firstSize]
    exact fits
  have spared : (next.step crates .restart).log.drops .working (dateOnly crates.calendar 0)
      (fileNameFor (dateOnly crates.calendar 0) 1) = false := by
    rw [DiagLog.drops_working]
    exact (congrArg (_ && ·) (isOld_eq_false_of_one_day oneDay _)).trans (Bool.and_false _)
  apply read_of_second (recordedAgain.append legible 0) shaped
  · intro name inside
    rw [Chronicle.files_append_working recordedAgain.settled] at inside
    rcases (DiagLog.mem_extended_iff _ _ _ _ _).mp inside with isHere | ⟨-, isHere⟩ | stood
    · rw [length, isFile] at isHere
      exact Or.inl isHere
    · exact Or.inl isHere
    · exact only name (stands ▸ stood)
  · have differs : fileNameFor (dateOnly crates.calendar 0) 1 ≠
        fileNameFor (dateOnly crates.calendar 0) 0 := by
      rw [ne_eq, DiagLog.fileNameFor_inj shaped (by decide) (by decide)]
      exact Nat.one_ne_zero
    rw [Chronicle.recordsIn_append_working recordedAgain.settled, spared,
      Chronicle.recordsIn_restart, isSecond, length, isFile, if_neg differs]
    rfl

/-- The part of the process that comes after has room for its record, and is read behind the
part that had room for the longer one. -/
theorem not_latest_misplaced {size otherSize count : Nat} (legible : crates.Legible record)
    (otherLegible : crates.Legible other) (length : (crates.bytes record).length = size)
    (otherLength : (crates.bytes other).length = otherSize)
    (fits : size + count * size + size ≤ maxFileBytes)
    (noRoom : maxFileBytes < size + count * size + otherSize)
    (differ : crates.back other ≠ crates.back record) :
    ¬(run (Chronicle.step crates) .empty (misplaced record other count)).ReadsLatest crates := by
  have shaped := isDateShaped_dateOnly crates.calendar 0
  have partFits : size + count * size ≤ maxFileBytes := by omega
  have filled := DiagLog.filling_filledPart length partFits
  have firstLog := log_run crates .empty (DiagLog.filledPart record count)
  rw [show (Chronicle.empty).log = DiagLog.empty from rfl] at firstLog
  rw [← firstLog] at filled
  have recorded : (run (Chronicle.step crates) .empty
      (DiagLog.filledPart record count)).Recorded crates := by
    apply Chronicle.recorded_run
    · intro action inside
      rw [DiagLog.mem_filledPart inside]
      rfl
    · intro action inside another isAnother
      rw [DiagLog.mem_filledPart inside] at isAnother
      rw [List.mem_singleton.mp isAnother]
      exact legible
  unfold misplaced
  rw [run_append]
  generalize run (Chronicle.step crates) .empty (DiagLog.filledPart record count) = chronicle
    at filled recorded
  clear firstLog
  intro latest
  have after := misplaced_reads recorded legible otherLegible length otherLength filled fits noRoom
  have isLast := latest _ (List.Perm.refl _) none
  rw [run_cons, run_cons, run_cons, run_nil, Chronicle.latestOf_append crates _ record 0
    (DiagLog.settled_new _), after] at isLast
  exact differ (Option.some.inj (Except.ok.inj isLast))

end Misplaced

/-- An attempt with nine steps. -/
def nineSteps : DiagRecord :=
  { DiagRecord.gateOnly with
    session := 8
    steps := List.replicate 9 ⟨.gateDial, 5, .ok, "dialled"⟩ }

/-- Its line. -/
def nineStepsLine : String :=
  let unobserved := "\"family=0 bytes=00000000000000000000000000000000 port=0\""
  let step := "\x7b\"at_ms\":5,\"detail\":\"dialled\",\"outcome\":\"ok\",\"step\":\"gate_dial\"\x7d"
  "\x7b\"attempt\":\"00000000000000000000000000000000\"," ++
  "\"ended_at\":\"1970-01-01T00:00:00Z\",\"events\":[],\"failed_step\":\"introduce\"," ++
  "\"gate_bytes\":0,\"gate_carried_traffic\":false,\"gate_ms\":0," ++
  "\"local_observed\":[\"10.0.0.1:443\"," ++ unobserved ++ "],\"mapping\":\"unknown\"," ++
  "\"path\":\"relay\",\"path_addr\":" ++ unobserved ++ ",\"path_rtt_us\":0," ++
  "\"peer\":\"00000000\",\"peer_observed\":" ++ unobserved ++ ",\"platform\":\"linux\"," ++
  "\"reason\":\"introduce_timeout\",\"relay_dropped_at_full\":0,\"relay_queued\":0," ++
  "\"relay_shaped_delay_max_us\":0,\"relay_shaped_delay_p50_us\":0,\"rtt_median_us\":0," ++
  "\"rtt_p95_us\":0,\"rtt_samples\":0,\"rtt_source\":\"not_sampled\",\"session\":8," ++
  "\"started_at\":\"1970-01-01T00:00:00Z\",\"steps\":[" ++ step ++ "," ++ step ++ "," ++
  step ++ "," ++ step ++ "," ++ step ++ "," ++ step ++ "," ++ step ++ "," ++ step ++ "," ++
  step ++ "],\"version\":\"0.1.0\"\x7d"

theorem plain_nineStepsLine :
    (utf8 nineStepsLine.toList).length = 1364 ∧ 10 ∉ utf8 nineStepsLine.toList ∧
      13 ∉ utf8 nineStepsLine.toList := by
  rw [utf8_toList]
  unfold nineStepsLine
  simp only [String.toByteArray_append, ByteArray.data_append, Array.toList_append]
  decide +kernel

theorem nineStepsLine_eq : ∃ rest, nineStepsLine.toList = '\x7b' :: rest := by
  have begins : ∃ rest,
      ("\x7b\"attempt\":\"00000000000000000000000000000000\"," : String).toList =
        '\x7b' :: rest := by
    simp
  obtain ⟨rest, isFront⟩ := begins
  unfold nineStepsLine
  simp only [String.toList_append, isFront, List.cons_append]
  exact ⟨_, rfl⟩

/-- The value is that of a record of session 8. -/
def isEighth (value : Json) : Bool := (value.get "session").bind Json.asU64 == some 8

/-- `serde_json`, at the values of two records: their lines are read, and nothing else. -/
def twoLineSerde (line otherLine : String) (value otherValue : Json) : SerdeJson where
  toString value := .ok (if isEighth value then otherLine else line)
  fromStr text :=
    if text = line then .ok value
    else if text = otherLine then .ok otherValue
    else .error "key must be a string at line 1 column 2"

section TwoLines

variable {line otherLine : String} {value otherValue : Json}

theorem toString_line (isFirst : isEighth value = false) :
    (twoLineSerde line otherLine value otherValue).toString value = .ok line := by
  show Except.ok (if isEighth value then otherLine else line) = _
  rw [isFirst]
  rfl

theorem toString_otherLine (isOther : isEighth otherValue = true) :
    (twoLineSerde line otherLine value otherValue).toString otherValue = .ok otherLine := by
  show Except.ok (if isEighth otherValue then otherLine else line) = _
  rw [isOther]
  rfl

theorem keeps_line (isFirst : isEighth value = false) :
    (twoLineSerde line otherLine value otherValue).Keeps value :=
  ⟨line, toString_line isFirst, if_pos rfl⟩

theorem keeps_otherLine (isOther : isEighth otherValue = true) (differs : otherLine ≠ line) :
    (twoLineSerde line otherLine value otherValue).Keeps otherValue :=
  ⟨otherLine, toString_otherLine isOther, (if_neg differs).trans (if_pos rfl)⟩

end TwoLines

theorem length_bytes_of_line {crates : Crates} {record : DiagRecord} {line : String}
    (isLine : record.toJsonLine crates.serde crates.time = line) :
    (crates.bytes record).length = (utf8 line.toList).length + 1 := by
  rw [Crates.bytes, Crates.line, isLine, utf8_append, List.length_append]
  rfl

theorem isEighth_toValue (record : DiagRecord) :
    isEighth (record.toValue DiagRecord.epochTime) = (record.session.toUInt64 == 8) := by
  have found : (record.toValue DiagRecord.epochTime).get "session" =
      some (.number record.session.toUInt64) := Json.get_ofFields _ _
  unfold isEighth
  rw [found]
  rfl

theorem isEighth_gateOnly :
    isEighth (DiagRecord.gateOnly.toValue DiagRecord.epochTime) = false := by
  rw [isEighth_toValue]
  rfl

theorem isEighth_nineSteps : isEighth (nineSteps.toValue DiagRecord.epochTime) = true := by
  rw [isEighth_toValue]
  rfl

theorem nineStepsLine_ne : nineStepsLine ≠ DiagRecord.gateOnlyLine := by
  intro same
  have long := plain_nineStepsLine.1
  rw [same, plain_gateOnlyLine.1] at long
  exact absurd long (by decide)

/-- The crates at the two records. -/
def twoLineCrates : Crates where
  serde := twoLineSerde DiagRecord.gateOnlyLine nineStepsLine
    (DiagRecord.gateOnly.toValue DiagRecord.epochTime) (nineSteps.toValue DiagRecord.epochTime)
  time := DiagRecord.epochTime
  calendar := ⟨fun _ => some epochDate⟩

theorem line_gateOnly :
    DiagRecord.gateOnly.toJsonLine twoLineCrates.serde twoLineCrates.time =
      DiagRecord.gateOnlyLine := DiagRecord.toJsonLine_eq (toString_line isEighth_gateOnly)

theorem line_nineSteps :
    nineSteps.toJsonLine twoLineCrates.serde twoLineCrates.time = nineStepsLine :=
  DiagRecord.toJsonLine_eq (toString_otherLine isEighth_nineSteps)

theorem legible_gateOnly_twoLine : twoLineCrates.Legible DiagRecord.gateOnly := by
  obtain ⟨-, noNewline, noReturn⟩ := plain_gateOnlyLine
  exact legible_of_line (epochTime_reads _ rfl) (epochTime_reads _ rfl)
    (keeps_line isEighth_gateOnly) line_gateOnly noNewline noReturn gateOnlyLine_eq

theorem legible_nineSteps : twoLineCrates.Legible nineSteps := by
  obtain ⟨-, noNewline, noReturn⟩ := plain_nineStepsLine
  exact legible_of_line (epochTime_reads _ rfl) (epochTime_reads _ rfl)
    (keeps_otherLine isEighth_nineSteps nineStepsLine_ne) line_nineSteps noNewline noReturn
    nineStepsLine_eq

/-- 6203 records fill a part but for 1345 bytes, the one of 1365 bytes goes to the next part,
and the one that another process appends goes to the first again: the last of all is then
read to be the one before it. -/
theorem ninth_misplaced :
    (∀ action ∈ misplaced DiagRecord.gateOnly nineSteps 6202, action.Works ∧
        ∀ record ∈ action.records, twoLineCrates.Legible record) ∧
      ¬(run (Chronicle.step twoLineCrates) .empty
        (misplaced DiagRecord.gateOnly nineSteps 6202)).ReadsLatest twoLineCrates := by
  constructor
  · intro action inside
    rcases mem_misplaced inside with isFirst | isOther | isRestart
    · rw [isFirst]
      refine ⟨rfl, ?_⟩
      intro record isRecord
      rw [List.mem_singleton.mp isRecord]
      exact legible_gateOnly_twoLine
    · rw [isOther]
      refine ⟨rfl, ?_⟩
      intro record isRecord
      rw [List.mem_singleton.mp isRecord]
      exact legible_nineSteps
    · rw [isRestart]
      exact ⟨trivial, fun _ isRecord => absurd isRecord List.not_mem_nil⟩
  · have length : (twoLineCrates.bytes DiagRecord.gateOnly).length = 845 := by
      rw [length_bytes_of_line line_gateOnly, plain_gateOnlyLine.1]
    have otherLength : (twoLineCrates.bytes nineSteps).length = 1365 := by
      rw [length_bytes_of_line line_nineSteps, plain_nineStepsLine.1]
    have differ : twoLineCrates.back nineSteps ≠ twoLineCrates.back DiagRecord.gateOnly := by
      intro same
      have sessions : nineSteps.session = DiagRecord.gateOnly.session :=
        congrArg DiagRecord.session same
      exact absurd sessions (by decide)
    exact not_latest_misplaced legible_gateOnly_twoLine legible_nineSteps length otherLength
      (by decide) (by decide) differ

end Mosschat.Net.Diag
