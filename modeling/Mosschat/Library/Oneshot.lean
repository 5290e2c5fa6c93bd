import Mosschat.Library.HashMap

/-!
Owns calls that each wait on the receiver of a one-shot channel: the stages of one such
call, what moves it from one to the next, and the table of them.

Does not own where the senders are kept, what is sent, or what a call does when its
wait has failed.
-/

namespace Mosschat.Library.Oneshot

universe u v w

/-- Where a call that waits on a one-shot channel is. -/
inductive Stage (α : Type u) where
  | waiting
  /-- A value was sent, and the call has not run since. -/
  | handed (value : α)
  /-- The sender was dropped, and the call has not run since. -/
  | severed
  /-- The wait failed, and what the call does about it is still to come. -/
  | leaving
  /-- The call returned or was dropped, with what had been sent to it. -/
  | returned (got : Option α)
deriving DecidableEq

namespace Stage

variable {α : Type u}

/-- What was sent to the call. -/
def got : Stage α → Option α
  | .handed value => some value
  | .returned got => got
  | .waiting | .severed | .leaving => none

/-- A value is sent. A receiver that is gone does not get it. -/
def send (value : α) : Stage α → Stage α
  | .waiting => .handed value
  | stage => stage

/-- The sender is dropped. -/
def sever : Stage α → Stage α
  | .waiting => .severed
  | stage => stage

/-- The deadline of the wait passes. -/
def expire : Stage α → Stage α
  | .waiting => .leaving
  | stage => stage

/-- The call runs again, with what it waited for or with an error. -/
def wake : Stage α → Stage α
  | .handed value => .returned (some value)
  | .severed => .leaving
  | stage => stage

/-- The call that failed returns. -/
def leave : Stage α → Stage α
  | .leaving => .returned none
  | stage => stage

/-- The call is dropped by its caller, which it can be only where it waits. -/
def cancel : Stage α → Stage α
  | .leaving => .leaving
  | stage => .returned stage.got

@[simp] theorem got_sever (stage : Stage α) : stage.sever.got = stage.got := by
  cases stage <;> rfl

@[simp] theorem got_expire (stage : Stage α) : stage.expire.got = stage.got := by
  cases stage <;> rfl

@[simp] theorem got_wake (stage : Stage α) : stage.wake.got = stage.got := by
  cases stage <;> rfl

@[simp] theorem got_leave (stage : Stage α) : stage.leave.got = stage.got := by
  cases stage <;> rfl

@[simp] theorem got_cancel (stage : Stage α) : stage.cancel.got = stage.got := by
  cases stage <;> rfl

/-- Only a call that waits gets what is sent to it. -/
theorem got_send_of_ne_waiting {stage : Stage α} (value : α) (gone : stage ≠ .waiting) :
    stage.send value = stage := by
  cases stage with
  | waiting => exact absurd rfl gone
  | handed other => rfl
  | severed => rfl
  | leaving => rfl
  | returned got => rfl

theorem sever_ne_waiting {stage : Stage α} : stage.sever ≠ .waiting := by
  cases stage <;> simp [sever]

theorem send_ne_waiting {stage : Stage α} {value : α} : stage.send value ≠ .waiting := by
  cases stage <;> simp [send]

theorem expire_ne_waiting {stage : Stage α} : stage.expire ≠ .waiting := by
  cases stage <;> simp [expire]

theorem cancel_ne_waiting {stage : Stage α} : stage.cancel ≠ .waiting := by
  cases stage <;> simp [cancel]

/-- Only the sender of a call that waits can be missed. -/
theorem sever_of_ne_waiting {stage : Stage α} (gone : stage ≠ .waiting) : stage.sever = stage := by
  cases stage with
  | waiting => exact absurd rfl gone
  | handed other => rfl
  | severed => rfl
  | leaving => rfl
  | returned got => rfl

theorem waiting_of_wake {stage : Stage α} (waits : stage.wake = .waiting) : stage = .waiting := by
  cases stage <;> simp_all [wake]

theorem waiting_of_leave {stage : Stage α} (waits : stage.leave = .waiting) :
    stage = .waiting := by
  cases stage <;> simp_all [leave]

end Stage

/-- A call, and what it waits under. -/
structure Call (κ : Type v) (α : Type u) where
  key : κ
  stage : Stage α
deriving DecidableEq

/-- The calls that were made, by their names. -/
abbrev Calls (ι : Type w) (κ : Type v) (α : Type u) := HashMap ι (Call κ α)

namespace Calls

variable {ι : Type w} {κ : Type v} {α : Type u} [DecidableEq ι]

/-- Move one call to another stage. -/
def move (calls : Calls ι κ α) (id : ι) (next : Stage α → Stage α) : Calls ι κ α :=
  match calls.lookup id with
  | none => calls
  | some call => calls.put id { call with stage := next call.stage }

theorem lookup_move (calls : Calls ι κ α) (id other : ι) (next : Stage α → Stage α) :
    (calls.move id next).lookup other =
      if other = id then
        (calls.lookup other).map fun call => { call with stage := next call.stage }
      else calls.lookup other := by
  unfold move
  cases found : calls.lookup id with
  | none =>
      by_cases isId : other = id
      · subst isId
        simp [found]
      · simp [isId]
  | some call =>
      by_cases isId : other = id
      · subst isId
        simp [found]
      · simp [isId]

/-- A move to the stage a call is in changes nothing. -/
theorem move_of_same {calls : Calls ι κ α} {id : ι} {next : Stage α → Stage α}
    (same : ∀ call, calls.lookup id = some call → next call.stage = call.stage) :
    calls.move id next = calls := by
  unfold move
  cases found : calls.lookup id with
  | none => rfl
  | some call =>
      have stays : ({ call with stage := next call.stage } : Call κ α) = call := by
        rw [same call found]
      show calls.put id { call with stage := next call.stage } = calls
      rw [stays]
      exact HashMap.put_of_lookup found

/-- A call found after one was moved was there, moved or not. -/
theorem lookup_of_move {calls : Calls ι κ α} {id other : ι} {next : Stage α → Stage α}
    {call : Call κ α} (found : (calls.move id next).lookup other = some call) :
    ∃ before, calls.lookup other = some before ∧ call.key = before.key ∧
      call.stage = if other = id then next before.stage else before.stage := by
  rw [lookup_move] at found
  split_ifs at found with isId
  · obtain ⟨before, wasFound, rfl⟩ := Option.map_eq_some_iff.mp found
    exact ⟨before, wasFound, rfl, (if_pos isId).symm⟩
  · exact ⟨call, found, rfl, (if_neg isId).symm⟩

/-- A call that was there is there after one was moved. -/
theorem lookup_move_of_lookup {calls : Calls ι κ α} {other : ι} {call : Call κ α}
    (found : calls.lookup other = some call) (id : ι) (next : Stage α → Stage α) :
    (calls.move id next).lookup other =
      some { call with stage := if other = id then next call.stage else call.stage } := by
  rw [lookup_move, found]
  split_ifs <;> rfl

/-- The call is made and waits. -/
def Waits (calls : Calls ι κ α) (id : ι) (key : κ) : Prop :=
  calls.lookup id = some ⟨key, .waiting⟩

/-- The call still waits, whatever it waits under. -/
def waits (calls : Calls ι κ α) (id : ι) : Bool :=
  (calls.lookup id).any fun call =>
    match call.stage with
    | .waiting => true
    | _ => false

theorem waits_iff {calls : Calls ι κ α} {id : ι} :
    calls.waits id = true ↔ ∃ key, calls.Waits id key := by
  unfold waits
  rw [Option.any_eq_true]
  constructor
  · intro some
    obtain ⟨⟨key, stage⟩, isThere, isWaiting⟩ := some
    cases stage with
    | waiting => exact ⟨key, isThere⟩
    | handed value => cases isWaiting
    | severed => cases isWaiting
    | leaving => cases isWaiting
    | returned got => cases isWaiting
  · intro some
    obtain ⟨key, isThere⟩ := some
    exact ⟨_, isThere, rfl⟩

/-- A call that waits after one was moved was there, and waits because of its stage. -/
theorem lookup_of_waits_move {calls : Calls ι κ α} {id other : ι} {next : Stage α → Stage α}
    {key : κ} (waits : (calls.move id next).Waits other key) :
    ∃ stage, calls.lookup other = some ⟨key, stage⟩ ∧
      (if other = id then next stage else stage) = .waiting := by
  obtain ⟨⟨sameKey, stage⟩, isThere, isKey, isStage⟩ := lookup_of_move waits
  have keys : key = sameKey := isKey
  rw [keys]
  exact ⟨stage, isThere, isStage.symm⟩

instance [DecidableEq κ] [DecidableEq α] (calls : Calls ι κ α) (id : ι) (key : κ) :
    Decidable (calls.Waits id key) :=
  inferInstanceAs (Decidable (_ = _))

end Calls

end Mosschat.Library.Oneshot
