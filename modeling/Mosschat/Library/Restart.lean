import Mosschat.Library.Machine

/-!
Owns machines that start over: a machine that is moved from under its state, notices it at
the first input that can tell, and goes on from a fresh state from there.

Does not own what a machine computes, nor how it notices that it was moved.
-/

namespace Mosschat.Library.Restart

open Machine

universe u v

variable {σ : Type u} {ι : Type v}

/-- What happens to the machine. -/
inductive Event (ι : Type v) where
  | input (input : ι)
  | moved

/-- A machine, with the state an input that can tell a move has it start over from. -/
structure Restarting (σ : Type u) (ι : Type v) where
  step : σ → ι → σ
  fresh : σ → ι → Option σ

/-- A state, and whether the machine was moved since it started. -/
structure Seen (σ : Type u) where
  current : σ
  stale : Bool

namespace Restarting

variable (machine : Restarting σ ι)

/-- What the input finds. -/
def entered (seen : Seen σ) (input : ι) : Seen σ :=
  if seen.stale then ((machine.fresh seen.current input).map fun anew => ⟨anew, false⟩).getD seen
  else seen

def observe (seen : Seen σ) : Event ι → Seen σ
  | .moved => ⟨seen.current, true⟩
  | .input input =>
    let entered := machine.entered seen input
    ⟨machine.step entered.current input, entered.stale⟩

/-- No state lets the input tell a move. -/
def Blind (input : ι) : Prop :=
  ∀ state, machine.fresh state input = none

variable {machine}

theorem observe_input (seen : Seen σ) (input : ι) :
    machine.observe seen (.input input) =
      ⟨machine.step (machine.entered seen input).current input,
        (machine.entered seen input).stale⟩ := rfl

theorem entered_stale {state anew : σ} {input : ι}
    (tells : machine.fresh state input = some anew) :
    machine.entered ⟨state, true⟩ input = ⟨anew, false⟩ := by
  show ((machine.fresh state input).map fun anew => (⟨anew, false⟩ : Seen σ)).getD _ = _
  rw [tells]
  rfl

theorem Blind.entered {input : ι} (blind : machine.Blind input) (seen : Seen σ) :
    machine.entered seen input = seen := by
  unfold Restarting.entered
  rw [blind seen.current]
  cases seen.stale <;> rfl

/-- A machine that was not moved since it started is run as it stands. -/
theorem observe_settled (state : σ) (inputs : List ι) :
    run machine.observe ⟨state, false⟩ (inputs.map .input) =
      ⟨run machine.step state inputs, false⟩ := by
  induction inputs generalizing state with
  | nil => rfl
  | cons input rest ih =>
      exact ih (machine.step state input)

/-- Inputs that cannot tell a move are run on the state they find. -/
theorem observe_blind (seen : Seen σ) {inputs : List ι}
    (blind : ∀ input ∈ inputs, machine.Blind input) :
    run machine.observe seen (inputs.map .input) =
      ⟨run machine.step seen.current inputs, seen.stale⟩ := by
  induction inputs generalizing seen with
  | nil => rfl
  | cons input rest ih =>
      rw [List.forall_mem_cons] at blind
      have first : machine.observe seen (.input input) =
          ⟨machine.step seen.current input, seen.stale⟩ := by
        rw [observe_input, blind.1.entered seen]
      rw [List.map_cons, run_cons, first, ih _ blind.2]
      rfl

/-- The first input after a move that can tell starts the machine over: what it computes
from there rests on nothing before but what the fresh state was made of. -/
theorem observe_moved (start : Seen σ) (front : List (Event ι)) {unaware : List ι}
    {input : ι} {anew : σ} (back : List ι) (blind : ∀ next ∈ unaware, machine.Blind next)
    (tells : machine.fresh (run machine.step (run machine.observe start front).current unaware)
      input = some anew) :
    run machine.observe start
        (front ++ .moved :: (unaware.map .input ++ .input input :: back.map .input)) =
      ⟨run machine.step anew (input :: back), false⟩ := by
  rw [run_append, run_cons, run_append, run_cons]
  have reached : run machine.observe (machine.observe (run machine.observe start front) .moved)
      (unaware.map .input) =
        ⟨run machine.step (run machine.observe start front).current unaware, true⟩ :=
    observe_blind _ blind
  have noticed : machine.observe
      ⟨run machine.step (run machine.observe start front).current unaware, true⟩
      (.input input) = ⟨machine.step anew input, false⟩ := by
    rw [observe_input, entered_stale tells]
  rw [reached, noticed]
  exact observe_settled (machine.step anew input) back

end Restarting

end Mosschat.Library.Restart
