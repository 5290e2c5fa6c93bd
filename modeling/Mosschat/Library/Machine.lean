import Mathlib.Logic.Basic

/-!
Owns runs of a deterministic machine: a step function folded over its inputs,
guards read in the state that receives each input, the invariant rule, the
simulation rule and the rule for what a run gives out at most once.

Does not own any machine.
-/

namespace Mosschat.Library.Machine

universe u v w

variable {σ : Type u} {τ : Type v} {ι : Type w}

/-- The state after every input, in order. -/
def run (step : σ → ι → σ) (start : σ) (inputs : List ι) : σ :=
  inputs.foldl step start

/-- Every input of the run meets `guard` in the state that receives it. -/
def Guarded (step : σ → ι → σ) (guard : σ → ι → Prop) : σ → List ι → Prop
  | _, [] => True
  | state, input :: rest => guard state input ∧ Guarded step guard (step state input) rest

instance decidableGuarded (step : σ → ι → σ) (guard : σ → ι → Prop)
    [∀ state input, Decidable (guard state input)] :
    (start : σ) → (inputs : List ι) → Decidable (Guarded step guard start inputs)
  | _, [] => .isTrue trivial
  | start, input :: rest =>
      have := decidableGuarded step guard (step start input) rest
      inferInstanceAs (Decidable (guard start input ∧ _))

/-- The property holds at the start and after every input of the run. -/
def Throughout (step : σ → ι → σ) (holds : σ → Prop) (start : σ) (inputs : List ι) : Prop :=
  ∀ front, front <+: inputs → holds (run step start front)

section Rules

variable {step : σ → ι → σ} {guard : σ → ι → Prop}

@[simp] theorem run_nil (start : σ) : run step start [] = start := rfl

@[simp] theorem run_cons (start : σ) (input : ι) (rest : List ι) :
    run step start (input :: rest) = run step (step start input) rest := rfl

theorem run_append (start : σ) (first second : List ι) :
    run step start (first ++ second) = run step (run step start first) second :=
  List.foldl_append

theorem run_concat (start : σ) (first : List ι) (input : ι) :
    run step start (first ++ [input]) = step (run step start first) input := by
  rw [run_append]
  rfl

theorem guarded_append (start : σ) (first second : List ι) :
    Guarded step guard start (first ++ second) ↔
      Guarded step guard start first ∧ Guarded step guard (run step start first) second := by
  induction first generalizing start with
  | nil => simp [Guarded]
  | cons input rest ih =>
      simp only [List.cons_append, Guarded, run_cons, ih, and_assoc]

theorem guarded_and {other : σ → ι → Prop} {start : σ} {inputs : List ι} :
    Guarded step (fun state input => guard state input ∧ other state input) start inputs ↔
      Guarded step guard start inputs ∧ Guarded step other start inputs := by
  induction inputs generalizing start with
  | nil => simp [Guarded]
  | cons input rest ih =>
      simp only [Guarded, ih]
      exact and_and_and_comm

theorem guarded_mono {weaker : σ → ι → Prop}
    (weaken : ∀ state input, guard state input → weaker state input)
    {start : σ} {inputs : List ι} (guarded : Guarded step guard start inputs) :
    Guarded step weaker start inputs := by
  induction inputs generalizing start with
  | nil => trivial
  | cons input rest ih =>
      exact ⟨weaken _ _ guarded.1, ih guarded.2⟩

/-- Every input of the run is one of its inputs. -/
theorem guarded_mem (start : σ) (inputs : List ι) :
    Guarded step (fun _ input => input ∈ inputs) start inputs := by
  suffices general : ∀ rest, rest ⊆ inputs → ∀ state,
      Guarded step (fun _ input => input ∈ inputs) state rest by
    exact general inputs (List.Subset.refl inputs) start
  intro rest
  induction rest with
  | nil => exact fun _ _ => trivial
  | cons input rest ih =>
      intro inside state
      rw [List.cons_subset] at inside
      exact ⟨inside.1, ih inside.2 _⟩

theorem forall_of_guarded {holds : ι → Prop} {start : σ} {inputs : List ι}
    (guarded : Guarded step (fun _ input => holds input) start inputs) :
    ∀ input ∈ inputs, holds input := by
  induction inputs generalizing start with
  | nil => simp
  | cons input rest ih =>
      rw [List.forall_mem_cons]
      exact ⟨guarded.1, ih guarded.2⟩

/-- What holds at the start and survives every guarded step holds after the run. -/
theorem run_preserves {invariant : σ → Prop}
    (preserved : ∀ state input, invariant state → guard state input →
      invariant (step state input))
    {start : σ} {inputs : List ι} (initial : invariant start)
    (guarded : Guarded step guard start inputs) : invariant (run step start inputs) := by
  induction inputs generalizing start with
  | nil => exact initial
  | cons input rest ih =>
      exact ih (preserved start input initial guarded.1) guarded.2

/-- The invariant rule, for every state on the way. -/
theorem guarded_throughout {invariant : σ → Prop}
    (preserved : ∀ state input, invariant state → guard state input →
      invariant (step state input))
    {start : σ} {inputs : List ι} (initial : invariant start)
    (guarded : Guarded step guard start inputs) : Throughout step invariant start inputs := by
  rintro front ⟨rest, rfl⟩
  exact run_preserves preserved initial ((guarded_append start front rest).mp guarded).1

/-- The invariant rule without a guard. -/
theorem run_always {invariant : σ → Prop}
    (preserved : ∀ state input, invariant state → invariant (step state input))
    {start : σ} (initial : invariant start) (inputs : List ι) :
    invariant (run step start inputs) := by
  induction inputs generalizing start with
  | nil => exact initial
  | cons input rest ih =>
      exact ih (preserved start input initial)

theorem throughout_cons {holds : σ → Prop} {start : σ} {input : ι} {rest : List ι} :
    Throughout step holds start (input :: rest) ↔
      holds start ∧ Throughout step holds (step start input) rest := by
  constructor
  · intro always
    refine ⟨always [] List.nil_prefix, ?_⟩
    intro front inside
    exact always (input :: front) (List.cons_prefix_cons.mpr ⟨rfl, inside⟩)
  · rintro ⟨here, later⟩ front inside
    cases front with
    | nil => exact here
    | cons first others =>
      obtain ⟨rfl, insideRest⟩ := List.cons_prefix_cons.mp inside
      exact later others insideRest

/-- A property that a step keeps exactly when its guard holds is kept throughout
a run exactly when every input meets the guard. -/
theorem throughout_iff_guarded {holds : σ → Prop}
    (stepExact : ∀ state input, holds state → (holds (step state input) ↔ guard state input))
    {start : σ} {inputs : List ι} (initial : holds start) :
    Throughout step holds start inputs ↔ Guarded step guard start inputs := by
  induction inputs generalizing start with
  | nil =>
      refine ⟨fun _ => trivial, ?_⟩
      intro _ front inside
      rw [List.prefix_nil.mp inside]
      exact initial
  | cons input rest ih =>
      have here := stepExact start input initial
      rw [throughout_cons]
      constructor
      · rintro ⟨_, later⟩
        have next : holds (step start input) := later [] List.nil_prefix
        exact ⟨here.mp next, (ih next).mp later⟩
      · rintro ⟨met, others⟩
        have next : holds (step start input) := here.mpr met
        exact ⟨initial, (ih next).mpr others⟩

/-- Where an invariant of the guarded steps makes two conditions on a step the
same, a run meets the one throughout exactly when it meets the other. -/
theorem guarded_congr {invariant : σ → Prop} {other : σ → ι → Prop}
    (preserved : ∀ state input, invariant state → guard state input →
      invariant (step state input))
    (same : ∀ state input, invariant state → (other state input ↔ guard state input))
    {start : σ} {inputs : List ι} (initial : invariant start) :
    Guarded step other start inputs ↔ Guarded step guard start inputs := by
  induction inputs generalizing start with
  | nil => exact Iff.rfl
  | cons input rest ih =>
      constructor
      · rintro ⟨here, later⟩
        have met := (same start input initial).mp here
        exact ⟨met, (ih (preserved start input initial met)).mp later⟩
      · rintro ⟨met, later⟩
        exact ⟨(same start input initial).mpr met,
          (ih (preserved start input initial met)).mpr later⟩

/-- An invariant of the guarded steps turns their guard into any condition that
follows from both. -/
theorem guarded_imp {invariant : σ → Prop} {other : σ → ι → Prop}
    (preserved : ∀ state input, invariant state → guard state input →
      invariant (step state input))
    (implied : ∀ state input, invariant state → guard state input → other state input)
    {start : σ} {inputs : List ι} (initial : invariant start)
    (guarded : Guarded step guard start inputs) : Guarded step other start inputs := by
  induction inputs generalizing start with
  | nil => trivial
  | cons input rest ih =>
      obtain ⟨here, later⟩ := guarded
      have next : invariant (step start input) := preserved start input initial here
      exact ⟨implied start input initial here, ih next later⟩

/-- A property that a step leaves standing exactly when it stood and the step meets
a guard stands after a run exactly when it stood and every step met the guard. -/
theorem holds_run_iff_guarded {invariant holds : σ → Prop} {domain : σ → ι → Prop}
    (preserved : ∀ state input, invariant state → domain state input →
      invariant (step state input))
    (stepExact : ∀ state input, invariant state → domain state input →
      (holds (step state input) ↔ holds state ∧ guard state input))
    {start : σ} {inputs : List ι} (initial : invariant start)
    (inDomain : Guarded step domain start inputs) :
    holds (run step start inputs) ↔ holds start ∧ Guarded step guard start inputs := by
  induction inputs generalizing start with
  | nil => exact (and_iff_left trivial).symm
  | cons input rest ih =>
      obtain ⟨here, later⟩ := inDomain
      have next : invariant (step start input) := preserved start input initial here
      have exact := stepExact start input initial here
      rw [run_cons, ih next later, exact, and_assoc]
      rfl

/-- What a marked step brings about, and no guarded step undoes, holds after every
run with a marked input. -/
theorem run_reaches {invariant reached : σ → Prop} {marked : ι → Prop}
    (preserved : ∀ state input, invariant state → guard state input →
      invariant (step state input))
    (brought : ∀ state input, invariant state → guard state input → marked input →
      reached (step state input))
    (stays : ∀ state input, invariant state → guard state input → reached state →
      reached (step state input))
    {start : σ} {inputs : List ι} {mark : ι} (initial : invariant start)
    (guarded : Guarded step guard start inputs) (member : mark ∈ inputs) (isMarked : marked mark) :
    reached (run step start inputs) := by
  induction inputs generalizing start with
  | nil => cases member
  | cons input rest ih =>
      obtain ⟨here, later⟩ := guarded
      have next : invariant (step start input) := preserved start input initial here
      by_cases inRest : mark ∈ rest
      · exact ih next later inRest
      · have isInput : mark = input := (List.mem_cons.mp member).resolve_right inRest
        have arrived : reached (step start input) :=
          brought start input initial here (isInput ▸ isMarked)
        have both : ∀ state input, invariant state ∧ reached state → guard state input →
            invariant (step state input) ∧ reached (step state input) := by
          intro state input held met
          exact ⟨preserved state input held.1 met, stays state input held.1 met held.2⟩
        exact (run_preserves both ⟨next, arrived⟩ later).2

/-- What holds at some point of a run, and did not at its start, came about at an earlier
input, and has held since. -/
theorem run_originates (holds : σ → Prop) (origin : σ → ι → Prop) {start : σ} {inputs : List ι}
    (initially : ¬holds start)
    (steps : ∀ index input, inputs[index]? = some input →
      holds (step (run step start (inputs.take index)) input) →
      holds (run step start (inputs.take index)) ∨
        origin (run step start (inputs.take index)) input)
    (index : Nat) (isHeld : holds (run step start (inputs.take index))) :
    ∃ source input, source < index ∧ inputs[source]? = some input ∧
      origin (run step start (inputs.take source)) input ∧
      ∀ later, source < later → later ≤ index → holds (run step start (inputs.take later)) := by
  induction index with
  | zero => exact absurd isHeld initially
  | succ index ih =>
      have longer : holds (run step start (inputs.take index)) →
          ∃ source input, source < index + 1 ∧ inputs[source]? = some input ∧
            origin (run step start (inputs.take source)) input ∧
            ∀ later, source < later → later ≤ index + 1 →
              holds (run step start (inputs.take later)) := by
        intro wasHeld
        obtain ⟨source, input, before, isInput, isOrigin, since⟩ := ih wasHeld
        refine ⟨source, input, Nat.lt_succ_of_lt before, isInput, isOrigin, ?_⟩
        intro later after within
        by_cases isNow : later = index + 1
        · rw [isNow]
          exact isHeld
        · exact since later after (by omega)
      cases isInput : inputs[index]? with
      | none =>
          rw [List.take_add_one, isInput, Option.toList_none, List.append_nil] at isHeld
          exact longer isHeld
      | some input =>
          have stepped := isHeld
          rw [List.take_add_one, isInput, Option.toList_some, run_concat] at stepped
          cases steps index input isInput stepped with
          | inl wasHeld => exact longer wasHeld
          | inr isOrigin =>
              refine ⟨index, input, Nat.lt_succ_self index, isInput, isOrigin, ?_⟩
              intro later after within
              have isNow : later = index + 1 := by omega
              rw [isNow]
              exact isHeld

end Rules

/-! ## What a run gives out -/

section Outputs

variable {ω : Type*} {step : σ → ι → σ} {emit : σ → ι → List ω} {guard : σ → ι → Prop}

/-- Everything the steps of the run give out, in order. -/
def outputs (step : σ → ι → σ) (emit : σ → ι → List ω) : σ → List ι → List ω
  | _, [] => []
  | state, input :: rest => emit state input ++ outputs step emit (step state input) rest

theorem outputs_append (start : σ) (first second : List ι) :
    outputs step emit start (first ++ second) =
      outputs step emit start first ++ outputs step emit (run step start first) second := by
  induction first generalizing start with
  | nil => rfl
  | cons input rest ih =>
      simp only [List.cons_append, outputs, ih, run_cons, List.append_assoc]

theorem outputs_concat (start : σ) (first : List ι) (input : ι) :
    outputs step emit start (first ++ [input]) =
      outputs step emit start first ++ emit (run step start first) input := by
  rw [outputs_append]
  exact congrArg (outputs step emit start first ++ ·) (List.append_nil _)

/-- What is given out in two parts at every step is given out in these parts by a run. -/
theorem outputs_perm {first second : σ → ι → List ω}
    (split : ∀ state input, (emit state input).Perm (first state input ++ second state input))
    (start : σ) (inputs : List ι) :
    (outputs step emit start inputs).Perm
      (outputs step first start inputs ++ outputs step second start inputs) := by
  induction inputs generalizing start with
  | nil => exact List.Perm.refl _
  | cons input rest ih =>
      have here := split start input
      have later := ih (step start input)
      refine (here.append later).trans ?_
      rw [outputs, outputs, List.append_assoc, List.append_assoc]
      apply List.Perm.append_left
      rw [← List.append_assoc, ← List.append_assoc]
      exact List.Perm.append_right _ List.perm_append_comm

/-- A state that tells what was given out so far still does after a guarded run. -/
theorem guarded_outputs {tells : σ → List ω → Prop}
    (told : ∀ state input seen, guard state input → tells state seen →
      tells (step state input) (seen ++ emit state input))
    {start : σ} {seen : List ω} {inputs : List ι} (initial : tells start seen)
    (guarded : Guarded step guard start inputs) :
    tells (run step start inputs) (seen ++ outputs step emit start inputs) := by
  induction inputs generalizing start seen with
  | nil =>
      rw [outputs, List.append_nil]
      exact initial
  | cons input rest ih =>
      rw [outputs, ← List.append_assoc]
      exact ih (told start input seen guarded.1 initial) guarded.2

theorem guarded_true (start : σ) (inputs : List ι) :
    Guarded step (fun _ _ => True) start inputs := by
  induction inputs generalizing start with
  | nil => trivial
  | cons input rest ih => exact ⟨trivial, ih _⟩

/-- A state that tells what was given out so far still does after a run. -/
theorem outputs_track {tells : σ → List ω → Prop}
    (told : ∀ state input seen, tells state seen → tells (step state input) (seen ++ emit state input))
    {start : σ} {seen : List ω} (initial : tells start seen) (inputs : List ι) :
    tells (run step start inputs) (seen ++ outputs step emit start inputs) :=
  guarded_outputs (fun state input seen _ => told state input seen) initial
    (guarded_true start inputs)

/-- What gives nothing out and stays so gives nothing out in a whole run. -/
theorem outputs_eq_nil {silent : σ → Prop}
    (stays : ∀ state input, guard state input → silent state →
      emit state input = [] ∧ silent (step state input))
    {start : σ} {inputs : List ι} (initial : silent start)
    (guarded : Guarded step guard start inputs) : outputs step emit start inputs = [] := by
  induction inputs generalizing start with
  | nil => rfl
  | cons input rest ih =>
      have here := stays start input guarded.1 initial
      rw [outputs, here.1, List.nil_append]
      exact ih here.2 guarded.2

/-- What is spent is never given out again, as long as spent things stay spent. -/
theorem not_mem_outputs {spent : σ → ω → Prop}
    (withheld : ∀ state input item, guard state input → spent state item →
      item ∉ emit state input)
    (stays : ∀ state input item, guard state input → spent state item →
      spent (step state input) item)
    {start : σ} {inputs : List ι} {item : ω} (isSpent : spent start item)
    (guarded : Guarded step guard start inputs) : item ∉ outputs step emit start inputs := by
  induction inputs generalizing start with
  | nil => exact List.not_mem_nil
  | cons input rest ih =>
      have here : item ∉ emit start input := withheld start input item guarded.1 isSpent
      have next : spent (step start input) item := stays start input item guarded.1 isSpent
      have later := ih next guarded.2
      rw [outputs, List.mem_append]
      exact not_or.mpr ⟨here, later⟩

/-- A run gives each thing out at most once, if giving it out spends it. -/
theorem outputs_nodup (spent : σ → ω → Prop)
    (single : ∀ state input, (emit state input).Nodup)
    (spends : ∀ state input item, guard state input → item ∈ emit state input →
      spent (step state input) item)
    (withheld : ∀ state input item, guard state input → spent state item →
      item ∉ emit state input)
    (stays : ∀ state input item, guard state input → spent state item →
      spent (step state input) item)
    {start : σ} {inputs : List ι} (guarded : Guarded step guard start inputs) :
    (outputs step emit start inputs).Nodup := by
  induction inputs generalizing start with
  | nil => exact List.nodup_nil
  | cons input rest ih =>
      have apart : ∀ item ∈ emit start input,
          ∀ other ∈ outputs step emit (step start input) rest, item ≠ other := by
        intro item given other later same
        have isSpent := spends start input item guarded.1 given
        exact not_mem_outputs withheld stays isSpent guarded.2 (same ▸ later)
      rw [outputs, List.nodup_append]
      exact ⟨single start input, ih guarded.2, apart⟩

end Outputs

/-! ## Runs that can fail -/

/-- A run fails if one of its inputs fails in every state that the steps before it
can leave. -/
theorem foldlM_error_of_mem {ε : Type u} {step : σ → ι → Except ε σ} {invariant : σ → Prop}
    {inputs : List ι} {input : ι} {start : σ}
    (preserved : ∀ state other after, other ∈ inputs → invariant state →
      step state other = .ok after → invariant after)
    (fails : ∀ state, invariant state → ∃ reason, step state input = .error reason)
    (member : input ∈ inputs) (initial : invariant start) :
    ∃ reason, inputs.foldlM step start = .error reason := by
  induction inputs generalizing start with
  | nil => cases member
  | cons first rest ih =>
      cases stepped : step start first with
      | error reason =>
          refine ⟨reason, ?_⟩
          rw [List.foldlM_cons, stepped]
          rfl
      | ok after =>
          have inRest : input ∈ rest := by
            refine (List.mem_cons.mp member).resolve_left ?_
            rintro rfl
            obtain ⟨reason, failed⟩ := fails start initial
            rw [stepped] at failed
            cases failed
          have next : invariant after :=
            preserved start first after List.mem_cons_self initial stepped
          have preservedRest : ∀ state other later, other ∈ rest → invariant state →
              step state other = .ok later → invariant later := by
            intro state other later inside
            exact preserved state other later (List.mem_cons_of_mem _ inside)
          obtain ⟨reason, failed⟩ := ih preservedRest inRest next
          refine ⟨reason, ?_⟩
          rw [List.foldlM_cons, stepped]
          exact failed

end Mosschat.Library.Machine
