import Mathlib.Logic.Basic

/-!
Owns methods that change a state in place and may return early: what one call
leaves and answers, and how the call of a method is computed from its parts. A
write made before an early return stays.

Does not own any state.
-/

namespace Mosschat.Library

universe u

/-- A method on a state that it changes as it goes. -/
abbrev InPlace (σ ε α : Type u) := EStateM ε σ α

namespace InPlace

variable {σ ε α β : Type u}

/-- What one call leaves and answers. -/
def call (method : InPlace σ ε α) (state : σ) : σ × Except ε α :=
  match method state with
  | .ok answer after => (after, .ok answer)
  | .error reason after => (after, .error reason)

/-- A check through a shared reference: it reads the state and writes nothing. -/
def reading (check : σ → Except ε α) : InPlace σ ε α := fun state =>
  match check state with
  | .ok answer => .ok answer state
  | .error reason => .error reason state

section Rules

variable {method : InPlace σ ε α} {next : α → InPlace σ ε β} {state after : σ}

/-- The rest of a method runs on what its first part leaves, unless that part
returned early. -/
theorem call_bind (method : InPlace σ ε α) (next : α → InPlace σ ε β) (state : σ) :
    call (method >>= next) state =
      match call method state with
      | (after, .ok answer) => call (next answer) after
      | (after, .error reason) => (after, .error reason) := by
  show (match EStateM.bind method next state with
    | .ok answer after => (after, Except.ok answer)
    | .error reason after => (after, Except.error reason)) = _
  unfold EStateM.bind call
  cases method state <;> rfl

theorem call_bind_ok {answer : α} (first : call method state = (after, .ok answer)) :
    call (method >>= next) state = call (next answer) after := by
  rw [call_bind, first]

theorem call_bind_error {reason : ε} (first : call method state = (after, .error reason)) :
    call (method >>= next) state = (after, .error reason) := by
  rw [call_bind, first]

@[simp] theorem call_pure (answer : α) (state : σ) :
    call (pure answer : InPlace σ ε α) state = (state, .ok answer) := rfl

@[simp] theorem call_throw (reason : ε) (state : σ) :
    call (throw reason : InPlace σ ε α) state = (state, .error reason) := rfl

@[simp] theorem call_get (state : σ) :
    call (get : InPlace σ ε σ) state = (state, .ok state) := rfl

@[simp] theorem call_modify (write : σ → σ) (state : σ) :
    call (modify write : InPlace σ ε PUnit) state = (write state, .ok ⟨⟩) := rfl

theorem call_reading (check : σ → Except ε α) (state : σ) :
    call (reading check) state = (state, check state) := by
  unfold call reading
  cases check state <;> rfl

@[simp] theorem call_ite (condition : Prop) [Decidable condition] (yes no : InPlace σ ε α)
    (state : σ) :
    call (if condition then yes else no) state =
      if condition then call yes state else call no state :=
  apply_ite (fun method => call method state) condition yes no

end Rules

end InPlace

end Mosschat.Library
