import Mosschat.Core.Recording.Isolation
import Mosschat.Core.Recording.Logged

/-!
Owns what an accepted `device-add` is worth afterwards: the grants a recording has accepted, each
with the person it was made for, what the maps of the standing keep of them, and when a granted
device, or one that an open join lists, passes the author check.

A device is checked against the window of the last grant that names it, even where an open join
lists it, and a device that some join once listed is never looked up by its grant.
-/

namespace Mosschat.Core

open Mosschat.Library Mosschat.Library.Cbor

/-! ## The author check -/

/-- An event of the device at `seq`, of whatever type, passes the author check at the clock. -/
def Standing.Passes (standing : Standing) (device : Bytes32) (seq nowMs : UInt64) : Prop :=
  ∀ event : SignedEvent, event.envelope.author = device → event.envelope.seq = seq →
    standing.checkAuthor event nowMs = .ok ()

/-- An event of the device at `seq` that is no join or leave. -/
def askingEvent (device : Bytes32) (seq : UInt64) : SignedEvent :=
  .assembled
    { v := 1, visit := zero32, author := device, seq, prev := zero32, tsMs := 0
      bodyHash := zero32, bodyLen := 0 }
    (List.Vector.replicate 64 0) (.dropRequest ⟨0, none, none⟩) zero32

theorem Standing.passes_iff {standing : Standing} {device : Bytes32} {seq nowMs : UInt64} :
    standing.Passes device seq nowMs ↔ device ∉ standing.revoked ∧
      standing.authorStatus device seq = .active ∧ standing.WindowInForce device nowMs := by
  constructor
  · intro passes
    have authored := checkAuthor_eq_ok.mp (passes (askingEvent device seq) rfl rfl)
    exact ⟨authored.notRevoked, authored.active rfl, authored.window rfl⟩
  · intro stands event isDevice isSeq
    obtain ⟨notRevoked, active, window⟩ := stands
    apply checkAuthor_eq_ok.mpr
    rw [← isDevice] at notRevoked active window
    rw [← isSeq] at active
    exact ⟨notRevoked, fun _ => active, fun _ => window⟩

/-! ## Accepted grants -/

/-- A `device-add` that was accepted, and the person its author stood for. -/
structure Grant where
  seq : UInt64
  deviceAdd : DeviceAdd
  person : Bytes32
deriving DecidableEq

namespace Grant

def device (grant : Grant) : Bytes32 := grant.deviceAdd.device

def window (grant : Grant) : UInt64 × UInt64 :=
  (grant.deviceAdd.notBeforeMs, grant.deviceAdd.notAfterMs)

/-- The clock is in the window of the grant. -/
def Covers (grant : Grant) (nowMs : UInt64) : Prop :=
  grant.deviceAdd.notBeforeMs ≤ nowMs ∧ nowMs < grant.deviceAdd.notAfterMs

/-- Every clock in the window of `other` is in the window of the grant. -/
def Spans (grant other : Grant) : Prop :=
  grant.deviceAdd.notBeforeMs ≤ other.deviceAdd.notBeforeMs ∧
    other.deviceAdd.notAfterMs ≤ grant.deviceAdd.notAfterMs

end Grant

/-- The grant an event is, where it is a `device-add`. -/
def Recording.grantsOf (recording : Recording) (event : SignedEvent) : List Grant :=
  match event.body with
  | .deviceAdd deviceAdd =>
    [⟨event.envelope.seq, deviceAdd, recording.personOrSelf event.envelope.author⟩]
  | _ => []

/-- A recording, and the grants it has accepted. -/
abbrev Ledger := Logged Grant

namespace Ledger

def call (crypto : Crypto) : Ledger → Call → Ledger := Logged.call crypto Recording.grantsOf

variable {crypto : Crypto} {start : Recording} {calls : List Call} {visit host device : Bytes32}
  {standing : Standing} {grants : List Grant} {grant : Grant}

/-- The last grant that names the device. -/
def latest (grants : List Grant) (device : Bytes32) : Option Grant :=
  (grants.filter fun grant => grant.device = device).getLast?

theorem latest_eq_none : latest grants device = none ↔ ∀ grant ∈ grants, grant.device ≠ device := by
  rw [latest, List.getLast?_eq_none_iff, List.filter_eq_nil_iff]
  exact forall₂_congr fun grant _ => not_congr decide_eq_true_iff

/-- A grant of the device that was just made is its last. -/
theorem latest_concat (grants : List Grant) (names : grant.device = device) :
    latest (grants ++ [grant]) device = some grant := by
  have kept : [grant].filter (fun grant => grant.device = device) = [grant] := by simp [names]
  rw [latest, List.filter_append, kept, List.getLast?_concat]

/-- Grants of other devices leave the last one of the device. -/
theorem latest_append {added : List Grant} (grants : List Grant)
    (others : ∀ grant ∈ added, grant.device ≠ device) :
    latest (grants ++ added) device = latest grants device := by
  have none : (added.filter fun grant => grant.device = device) = [] := by
    rw [List.filter_eq_nil_iff]
    intro grant inside names
    exact others grant inside (of_decide_eq_true names)
  rw [latest, List.filter_append, none, List.append_nil, latest]

/-! ## What the maps keep of the grants -/

/-- A granted device that is not revoked is in force for the person of its grant, and the map of
windows has that of the last grant. -/
structure Sound (standing : Standing) (grants : List Grant) : Prop where
  person : ∀ grant : Grant, grant ∈ grants → grant.device ∉ standing.revoked →
    standing.personOf grant.device = some grant.person
  windows : ∀ device : Bytes32, standing.deviceAddWindows.lookup device =
    (latest grants device).map Grant.window
  nonempty : ∀ grant : Grant, grant ∈ grants →
    grant.deviceAdd.notBeforeMs < grant.deviceAdd.notAfterMs

theorem mem_grantsOf {recording : Recording} {event : SignedEvent} :
    grant ∈ recording.grantsOf event ↔ ∃ deviceAdd, event.body = .deviceAdd deviceAdd ∧
      grant = ⟨event.envelope.seq, deviceAdd, recording.personOrSelf event.envelope.author⟩ := by
  unfold Recording.grantsOf
  cases event.body <;> simp

theorem Sound.store {recording : Recording} (sound : Sound recording.toStanding grants)
    {event : SignedEvent} {nowMs : UInt64} {after : Standing}
    (parsed : SignedEvent.Parsed crypto event) (admits : recording.Admits event nowMs after) :
    Sound after (grants ++ recording.grantsOf event) := by
  have ruled := Recording.applyBody_eq_ok.mp admits.ruled
  refine ⟨?_, ?_, ?_⟩
  · intro grant inside notRevoked
    rcases List.mem_append.mp inside with old | new
    · have wasNotRevoked : grant.device ∉ recording.revoked :=
        fun revoked => notRevoked (ruled.mem_revoked.mpr (Or.inr revoked))
      exact ruled.personOf_kept (sound.person grant old wasNotRevoked) notRevoked
    · obtain ⟨deviceAdd, body, rfl⟩ := mem_grantsOf.mp new
      exact ruled.personOf_deviceAdd body
  · intro device
    rcases ruled.lookup_deviceAddWindows device with
      ⟨deviceAdd, body, names, found⟩ | ⟨noGrant, same⟩
    · have isGrant : recording.grantsOf event = [⟨event.envelope.seq, deviceAdd,
          recording.personOrSelf event.envelope.author⟩] := by
        rw [Recording.grantsOf, body]
      have isLatest : latest (grants ++ [⟨event.envelope.seq, deviceAdd,
          recording.personOrSelf event.envelope.author⟩]) device = some _ :=
        latest_concat grants names
      rw [found, isGrant, isLatest]
      rfl
    · have others : ∀ grant ∈ recording.grantsOf event, grant.device ≠ device := by
        intro grant inside
        obtain ⟨deviceAdd, body, rfl⟩ := mem_grantsOf.mp inside
        exact noGrant deviceAdd body
      rw [same, latest_append grants others]
      exact sound.windows device
  · intro grant inside
    rcases List.mem_append.mp inside with old | new
    · exact sound.nonempty grant old
    · obtain ⟨deviceAdd, body, rfl⟩ := mem_grantsOf.mp new
      have decoded := parsed.bodyDecodes
      rw [body] at decoded
      have admissible : deviceAdd.Admissible := Body.admissible_of_fromCbor decoded trivial
      exact admissible.window

theorem sound_run (opened : Recording.new visit host = .ok start) (calls : List Call) :
    Sound (Machine.run (call crypto) ⟨start, []⟩ calls).recording.toStanding
      (Machine.run (call crypto) ⟨start, []⟩ calls).log := by
  apply Logged.run_preserves
  · obtain ⟨_, rfl⟩ := Recording.new_eq_ok opened
    exact ⟨nofun, fun _ => rfl, nofun⟩
  · intro recording log event nowMs after sound parsed admits
    exact sound.store parsed admits

/-! ## What a grant is worth -/

/-- The window that gates a device is that of the last grant that names it. -/
theorem Sound.windowInForce_iff (sound : Sound standing grants) (device : Bytes32) (nowMs : UInt64) :
    standing.WindowInForce device nowMs ↔
      ∀ last, latest grants device = some last → last.Covers nowMs := by
  have inForce : ∀ grant : Grant, Standing.deviceAddGrantInForce grant.window.1 grant.window.2
      nowMs = true ↔ grant.Covers nowMs := by
    intro grant
    rw [Standing.deviceAddGrantInForce, Bool.and_eq_true, decide_eq_true_iff, decide_eq_true_iff]
    rfl
  rw [Standing.WindowInForce, sound.windows device]
  constructor
  · intro covers last isLast
    rw [isLast] at covers
    exact (inForce last).mp (covers last.window rfl)
  · intro covers window isWindow
    obtain ⟨last, isLast, rfl⟩ := Option.map_eq_some_iff.mp isWindow
    exact (inForce last).mpr (covers last isLast)

/-- A window spans another exactly where it has each of its clocks. -/
theorem spans_iff {last : Grant}
    (wide : grant.deviceAdd.notBeforeMs < grant.deviceAdd.notAfterMs) :
    (∀ nowMs, grant.Covers nowMs → last.Covers nowMs) ↔ last.Spans grant := by
  constructor
  · intro covers
    have positive : (1 : UInt64) ≤ grant.deviceAdd.notAfterMs := by
      rw [UInt64.lt_iff_toNat_lt] at wide
      rw [UInt64.le_iff_toNat_le]
      show 1 ≤ grant.deviceAdd.notAfterMs.toNat
      omega
    have isLast : (grant.deviceAdd.notAfterMs - 1).toNat = grant.deviceAdd.notAfterMs.toNat - 1 :=
      UInt64.toNat_sub_of_le _ _ positive
    have first := covers grant.deviceAdd.notBeforeMs ⟨UInt64.le_refl _, wide⟩
    have atEnd := covers (grant.deviceAdd.notAfterMs - 1) (by
      rw [Grant.Covers, UInt64.le_iff_toNat_le, UInt64.lt_iff_toNat_lt, isLast]
      rw [UInt64.lt_iff_toNat_lt] at wide
      omega)
    refine ⟨first.1, ?_⟩
    have before := UInt64.lt_iff_toNat_lt.mp atEnd.2
    rw [isLast] at before
    rw [UInt64.le_iff_toNat_le]
    omega
  · intro spans nowMs covers
    exact ⟨UInt64.le_trans spans.1 covers.1, UInt64.lt_of_lt_of_le covers.2 spans.2⟩

/-- A granted device passes whenever its grant covers the clock exactly where no closed join is
all that lists it, and the last grant that names it spans this one. -/
theorem Sound.passes_granted_iff (sound : Sound standing grants) (accepted : grant ∈ grants)
    {seq : UInt64} (notRevoked : grant.device ∉ standing.revoked)
    (present : standing.Present grant.person seq) :
    (∀ nowMs, grant.Covers nowMs → standing.Passes grant.device seq nowMs) ↔
      (standing.Named grant.device seq → standing.NamedOpen grant.device seq) ∧
        ∀ last, latest grants grant.device = some last → last.Spans grant := by
  have inForce := sound.person grant accepted notRevoked
  have wide := sound.nonempty grant accepted
  constructor
  · intro passes
    have active := (Standing.passes_iff.mp
      (passes grant.deviceAdd.notBeforeMs ⟨UInt64.le_refl _, wide⟩)).2.1
    constructor
    · intro named
      rcases Standing.authorStatus_eq_active.mp active with isOpen | ⟨notNamed, _⟩
      · exact isOpen
      · exact absurd named notNamed
    · intro last isLast
      apply (spans_iff wide).mp
      intro nowMs covers
      have window := (Standing.passes_iff.mp (passes nowMs covers)).2.2
      exact (sound.windowInForce_iff grant.device nowMs).mp window last isLast
  · intro undisturbed nowMs covers
    obtain ⟨listed, spanned⟩ := undisturbed
    apply Standing.passes_iff.mpr
    refine ⟨notRevoked, ?_, ?_⟩
    · apply Standing.authorStatus_eq_active.mpr
      by_cases named : standing.Named grant.device seq
      · exact Or.inl (listed named)
      · exact Or.inr ⟨named, grant.person, inForce, present⟩
    · apply (sound.windowInForce_iff grant.device nowMs).mpr
      intro last isLast
      exact (spans_iff wide).mpr (spanned last isLast) nowMs covers

/-- A device that an open join lists passes at every clock exactly where no grant names it. -/
theorem Sound.passes_listed_iff (sound : Sound standing grants) {seq : UInt64}
    (notRevoked : device ∉ standing.revoked)
    (listed : standing.NamedOpen device seq) :
    (∀ nowMs, standing.Passes device seq nowMs) ↔
      ∀ grant ∈ grants, grant.device ≠ device := by
  rw [← latest_eq_none]
  constructor
  · intro passes
    cases found : latest grants device with
    | none => rfl
    | some last =>
        -- No window has the last clock there is.
        let lastClock : UInt64 := UInt64.ofNat (2 ^ 64 - 1)
        have window := (Standing.passes_iff.mp (passes lastClock)).2.2
        have covers := (sound.windowInForce_iff device lastClock).mp window last found
        have before : (2 ^ 64 - 1 : Nat) < last.deviceAdd.notAfterMs.toNat :=
          UInt64.lt_iff_toNat_lt.mp covers.2
        have small := last.deviceAdd.notAfterMs.toNat_lt
        omega
  · intro noGrant nowMs
    apply Standing.passes_iff.mpr
    refine ⟨notRevoked, Standing.authorStatus_eq_active.mpr (Or.inl listed), ?_⟩
    apply (sound.windowInForce_iff device nowMs).mpr
    intro last isLast
    rw [noGrant] at isLast
    cases isLast

/-- Above every accepted grant, the granted device passes at each clock of its window while it is
not revoked and the person it was granted for is present; and a device that an open join lists
passes at every clock. -/
def GrantsHold (standing : Standing) (grants : List Grant) : Prop :=
  ∀ grant ∈ grants, ∀ seq, grant.seq < seq →
    (grant.device ∉ standing.revoked → standing.Present grant.person seq →
      ∀ nowMs, grant.Covers nowMs → standing.Passes grant.device seq nowMs) ∧
    ∀ device, device ∉ standing.revoked → standing.NamedOpen device seq →
      ∀ nowMs, standing.Passes device seq nowMs

/-- Above every accepted grant, no join up to there lists the granted device, open or closed, and
the last grant of the device spans this one, while the device is not revoked and the person is
present; and no open join lists a granted device that is not revoked. -/
def Undisturbed (standing : Standing) (grants : List Grant) : Prop :=
  ∀ grant ∈ grants, ∀ seq, grant.seq < seq →
    (grant.device ∉ standing.revoked → standing.Present grant.person seq →
      ¬standing.Named grant.device seq ∧
        ∀ last, latest grants grant.device = some last → last.Spans grant) ∧
    ∀ other ∈ grants, other.device ∉ standing.revoked →
      ¬standing.NamedOpen other.device seq

theorem Sound.grantsHold_iff (sound : Sound standing grants) : GrantsHold standing grants ↔ Undisturbed standing grants := by
  constructor
  · intro hold grant accepted seq higher
    obtain ⟨granted, listed⟩ := hold grant accepted seq higher
    have unlisted : ∀ other ∈ grants, other.device ∉ standing.revoked →
        ¬standing.NamedOpen other.device seq := by
      intro other alsoAccepted notRevoked isOpen
      have passes := listed other.device notRevoked isOpen
      exact (sound.passes_listed_iff notRevoked isOpen).mp passes other alsoAccepted rfl
    refine ⟨?_, unlisted⟩
    intro notRevoked present
    have passes := granted notRevoked present
    obtain ⟨isOpen, spanned⟩ := (sound.passes_granted_iff accepted notRevoked present).mp passes
    exact ⟨fun named => unlisted grant accepted notRevoked (isOpen named), spanned⟩
  · intro undisturbed grant accepted seq higher
    obtain ⟨granted, unlisted⟩ := undisturbed grant accepted seq higher
    constructor
    · intro notRevoked present
      obtain ⟨notNamed, spanned⟩ := granted notRevoked present
      exact (sound.passes_granted_iff accepted notRevoked present).mpr
        ⟨fun named => absurd named notNamed, spanned⟩
    · intro device notRevoked isOpen
      apply (sound.passes_listed_iff notRevoked isOpen).mpr
      intro other alsoAccepted isDevice
      rw [← isDevice] at notRevoked isOpen
      exact unlisted other alsoAccepted notRevoked isOpen

/-- In every state that a run of a new recording reaches, what the recording has granted holds
exactly where nothing disturbs it. -/
theorem run_grants_iff (opened : Recording.new visit host = .ok start) (calls : List Call) :
    let ledger := Machine.run (call crypto) ⟨start, []⟩ calls
    GrantsHold ledger.recording.toStanding ledger.log ↔
      Undisturbed ledger.recording.toStanding ledger.log :=
  (sound_run opened calls).grantsHold_iff

/-! ### A laptop that a join lists -/

/-- The ledger of the run in which the guest joins with a laptop that the host has granted. -/
def laptopLedger : Ledger :=
  Machine.run (call Recording.laptopCrypto) ⟨openedVisit, []⟩ Recording.laptopCalls

theorem run_grants_iff_laptopCalls :
    GrantsHold laptopLedger.recording.toStanding laptopLedger.log ↔
      Undisturbed laptopLedger.recording.toStanding laptopLedger.log :=
  run_grants_iff new_openedVisit Recording.laptopCalls

/-- A listed device is refused outside the window it has. -/
theorem not_grantsHold {seq nowMs : UInt64} {window : UInt64 × UInt64}
    (accepted : grant ∈ grants) (higher : grant.seq < seq) (notRevoked : device ∉ standing.revoked)
    (listed : standing.NamedOpen device seq)
    (isWindow : standing.deviceAddWindows.lookup device = some window)
    (outside : Standing.deviceAddGrantInForce window.1 window.2 nowMs = false) :
    ¬GrantsHold standing grants := by
  intro hold
  have passes := (hold grant accepted seq higher).2 device notRevoked listed nowMs
  have inForce := (Standing.passes_iff.mp passes).2.2 window isWindow
  rw [outside] at inForce
  cases inForce

theorem laptopLedger_checks :
    ⟨2, [guestKey, laptopKey], none⟩ ∈ laptopLedger.recording.joinsOf guestKey ∧
      ⟨1, ⟨laptopKey, 0, 100, none⟩, hostKey⟩ ∈ laptopLedger.log ∧
      laptopKey ∉ laptopLedger.recording.revoked ∧
      laptopLedger.recording.deviceAddWindows.lookup laptopKey = some (0, 100) := by
  decide +kernel

theorem namedOpen_laptopLedger : laptopLedger.recording.NamedOpen laptopKey 3 := by
  have joined := laptopLedger_checks.1
  have lists : laptopKey ∈ [guestKey, laptopKey] := by simp
  refine ⟨guestKey, ⟨2, [guestKey, laptopKey], none⟩, joined, ⟨?_, lists⟩, rfl⟩
  show (2 : UInt64) ≤ 3
  decide

/-- The laptop that the host has granted until clock 100 is listed in the guest's join, which is
open, and is refused at clock 200. -/
theorem laptop_refused :
    Machine.Guarded (Recording.call Recording.laptopCrypto)
        (Recording.Fresh Recording.laptopCrypto) openedVisit Recording.laptopCalls ∧
      ¬GrantsHold laptopLedger.recording.toStanding laptopLedger.log := by
  obtain ⟨-, accepted, notRevoked, isWindow⟩ := laptopLedger_checks
  have outside : Standing.deviceAddGrantInForce 0 100 200 = false := by decide
  exact ⟨Recording.laptopCalls_checks.2.1, not_grantsHold accepted (show (1 : UInt64) < 3 by decide)
    notRevoked namedOpen_laptopLedger isWindow outside⟩

end Ledger

end Mosschat.Core
