import Mosschat.Core.Recording.Run

/-!
Owns recordings that keep a log beside them: whatever is noted of each event at the moment it is
accepted, oldest first, and the rule by which the log and the maps of the standing are related in
every state of a run.
-/

namespace Mosschat.Core

open Mosschat.Library Mosschat.Library.Cbor

/-- A recording, and what was noted of the events it has accepted. -/
structure Logged (α : Type) where
  recording : Recording
  log : List α

namespace Logged

variable {α : Type} {crypto : Crypto} {note : Recording → SignedEvent → List α}

def call (crypto : Crypto) (note : Recording → SignedEvent → List α) (logged : Logged α)
    (input : Call) : Logged α where
  recording := logged.recording.call crypto input
  log := logged.log ++
    ((logged.recording.acceptedBy crypto input).toList.flatMap (note logged.recording))

/-- A call stores an event and notes it, or leaves the standing and the log as they were. -/
theorem call_cases (crypto : Crypto) (note : Recording → SignedEvent → List α) (logged : Logged α)
    (input : Call) :
    (∃ nowMs event after, SignedEvent.Parsed crypto event ∧
        logged.recording.Admits event nowMs after ∧
        logged.call crypto note input =
          ⟨logged.recording.store event after, logged.log ++ note logged.recording event⟩) ∨
      ((logged.call crypto note input).log = logged.log ∧
        (logged.call crypto note input).recording.toStanding = logged.recording.toStanding) := by
  cases accepted : logged.recording.acceptedBy crypto input with
  | some event =>
      obtain ⟨bytes, nowMs, after, _, _, parsed, admits, stored⟩ :=
        Recording.acceptedBy_eq_some.mp accepted
      refine Or.inl ⟨nowMs, event, after, SignedEvent.parsed_of_parse parsed, admits, ?_⟩
      rw [call, accepted, stored, Option.toList_some, List.flatMap_singleton]
  | none =>
      have sameLog : (logged.call crypto note input).log = logged.log := by
        rw [call, accepted]
        exact List.append_nil _
      refine Or.inr ⟨sameLog, ?_⟩
      show (logged.recording.call crypto input).toStanding = _
      rcases logged.recording.call_cases crypto input with
        ⟨bytes, nowMs, event, after, isIngest, sound, parsed, admits, stored⟩ |
          ⟨_, _, _, _, _, _, _, broken⟩ | ⟨_, _, _, _, _, drops⟩ | unchanged
      · have isSome : logged.recording.acceptedBy crypto input = some event :=
          Recording.acceptedBy_eq_some.mpr
            ⟨bytes, nowMs, after, isIngest, sound, parsed, admits, stored⟩
        rw [accepted] at isSome
        cases isSome
      · rw [broken]
        rfl
      · exact drops.standing
      · rw [unchanged]

/-- What relates the standing to the log, and what every stored event keeps, holds after every
run. -/
theorem run_preserves {related : Standing → List α → Prop} {start : Recording}
    (initial : related start.toStanding [])
    (stored : ∀ recording log event nowMs after, related recording.toStanding log →
      SignedEvent.Parsed crypto event → recording.Admits event nowMs after →
        related after (log ++ note recording event))
    (calls : List Call) :
    related (Machine.run (call crypto note) ⟨start, []⟩ calls).recording.toStanding
      (Machine.run (call crypto note) ⟨start, []⟩ calls).log := by
  let holds (logged : Logged α) : Prop := related logged.recording.toStanding logged.log
  have preserved : ∀ logged input, holds logged → holds (logged.call crypto note input) := by
    intro logged input before
    show related (logged.call crypto note input).recording.toStanding
      (logged.call crypto note input).log
    rcases logged.call_cases crypto note input with
      ⟨nowMs, event, after, parsed, admits, isStored⟩ | ⟨sameLog, sameStanding⟩
    · rw [isStored]
      exact stored logged.recording logged.log event nowMs after before parsed admits
    · rw [sameLog, sameStanding]
      exact before
  have initially : holds ⟨start, []⟩ := initial
  exact Machine.run_always preserved initially calls

end Logged

end Mosschat.Core
