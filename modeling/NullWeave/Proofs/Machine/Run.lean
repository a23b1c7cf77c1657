import NullWeave.Proofs.Machine.Semantics

/-!
# Runs

A run repeats steps until it ends.  Two runs behave in the same way if they end
in the same way and show the same effects, however many steps either takes.

If a run takes at least one step for each step of another and comes to the
same states, positions apart, then both behave in the same way: neither can
end, or show an effect, where the other does not.
-/

namespace NullWeave

variable {Reference World Effect : Type}

/-- What a run has come to after some steps. -/
def stepsFrom
    (step : Config Reference World Effect →
      State Reference World Effect) :
    Nat → State Reference World Effect → State Reference World Effect
  | 0, state => state
  | count + 1, .running config => stepsFrom step count (step config)
  | _ + 1, .ended ending world effects => .ended ending world effects

section Runs

variable
    {step : Config Reference World Effect → State Reference World Effect}

@[simp]
theorem stepsFrom_zero (state : State Reference World Effect) :
    stepsFrom step 0 state = state := rfl

@[simp]
theorem stepsFrom_running
    (count : Nat) (config : Config Reference World Effect) :
    stepsFrom step (count + 1) (.running config) =
      stepsFrom step count (step config) := rfl

@[simp]
theorem stepsFrom_ended
    (count : Nat) (ending : Ending Reference) (world : World)
    (effects : List Effect) :
    stepsFrom step count (.ended ending world effects) =
      .ended ending world effects := by
  cases count <;> rfl

theorem stepsFrom_add
    (first second : Nat) (state : State Reference World Effect) :
    stepsFrom step (first + second) state =
      stepsFrom step second (stepsFrom step first state) := by
  induction first generalizing state with
  | zero =>
      rw [Nat.zero_add]
      rfl
  | succ first inductionHypothesis =>
      cases state with
      | running config =>
          rw [Nat.succ_add]
          exact inductionHypothesis (step config)
      | ended ending world effects =>
          simp

/-- A run stays where it ended. -/
theorem stepsFrom_of_le
    {count later : Nat} {state : State Reference World Effect}
    {ending : Ending Reference} {world : World}
    {effects : List Effect}
    (ended : stepsFrom step count state = .ended ending world effects)
    (le : count ≤ later) :
    stepsFrom step later state = .ended ending world effects := by
  obtain ⟨more, rfl⟩ := Nat.exists_eq_add_of_le le
  rw [stepsFrom_add, ended, stepsFrom_ended]

/-- Effects that are shown stay shown. -/
theorem effects_stepsFrom
    (shows : ∀ config, config.effects <+: (step config).effects)
    (count : Nat) (state : State Reference World Effect) :
    state.effects <+: (stepsFrom step count state).effects := by
  induction count generalizing state with
  | zero =>
      exact List.prefix_refl _
  | succ count inductionHypothesis =>
      cases state with
      | running config =>
          exact (shows config).trans (inductionHypothesis (step config))
      | ended ending world effects =>
          exact List.prefix_refl _

end Runs

/-! ## Behaviour -/

/-- A run: how it steps and where it starts. -/
structure Run (Reference World Effect : Type) where
  step : Config Reference World Effect → State Reference World Effect
  start : State Reference World Effect

namespace Run

/-- Where a run is after some steps. -/
def after
    (run : Run Reference World Effect) (count : Nat) :
    State Reference World Effect :=
  stepsFrom run.step count run.start

/-- Does a run end in a way, in a world, after some effects? -/
def Ends
    (run : Run Reference World Effect) (ending : Ending Reference)
    (world : World) (effects : List Effect) : Prop :=
  ∃ count, run.after count = .ended ending world effects

/-- Does a run show some effects, whatever it shows after them? -/
def Shows
    (run : Run Reference World Effect) (effects : List Effect) : Prop :=
  ∃ count, effects <+: (run.after count).effects

/-- Do two runs end in the same way and show the same effects? -/
structure SameBehaviour
    (left right : Run Reference World Effect) : Prop where
  ends : ∀ ending world effects,
    left.Ends ending world effects ↔ right.Ends ending world effects
  shows : ∀ effects, left.Shows effects ↔ right.Shows effects

namespace SameBehaviour

theorem symm
    {left right : Run Reference World Effect}
    (same : left.SameBehaviour right) : right.SameBehaviour left where
  ends ending world effects := (same.ends ending world effects).symm
  shows effects := (same.shows effects).symm

theorem trans
    {first second third : Run Reference World Effect}
    (left : first.SameBehaviour second)
    (right : second.SameBehaviour third) :
    first.SameBehaviour third where
  ends ending world effects :=
    (left.ends ending world effects).trans
      (right.ends ending world effects)
  shows effects := (left.shows effects).trans (right.shows effects)

end SameBehaviour

end Run

/-! ## Runs at other positions -/

/-- A state at another position. -/
def State.relocate
    (move : Nat → Nat) :
    State Reference World Effect → State Reference World Effect
  | .running config =>
      .running { config with position := move config.position }
  | .ended ending world effects => .ended ending world effects

@[simp]
theorem State.effects_relocate
    (move : Nat → Nat) (state : State Reference World Effect) :
    (state.relocate move).effects = state.effects := by
  cases state <;> rfl

theorem State.eq_ended_of_relocate
    {move : Nat → Nat} {state : State Reference World Effect}
    {ending : Ending Reference} {world : World} {effects : List Effect}
    (same : state.relocate move = .ended ending world effects) :
    state = .ended ending world effects := by
  cases state with
  | running config =>
      cases same
  | ended _ _ _ =>
      exact same

section Simulation

variable
    {left right : Run Reference World Effect} {move : Nat → Nat}

/-- Each step of one run is matched by some steps of the other, one at least. -/
def Simulates
    (move : Nat → Nat) (left right : Run Reference World Effect) :
    Prop :=
  ∀ config, ∃ count,
    stepsFrom right.step (count + 1)
        ((State.running config).relocate move) =
      (left.step config).relocate move

/-- Some steps of one run are matched by at least as many of the other. -/
theorem Simulates.steps
    (simulates : Simulates move left right)
    (count : Nat) (state : State Reference World Effect) :
    ∃ later, count ≤ later ∧
      stepsFrom right.step later (state.relocate move) =
        (stepsFrom left.step count state).relocate move := by
  induction count generalizing state with
  | zero =>
      exact ⟨0, Nat.le_refl _, rfl⟩
  | succ count inductionHypothesis =>
      cases state with
      | ended ending world effects =>
          refine ⟨count + 1, Nat.le_refl _, ?_⟩
          simp [State.relocate]
      | running config =>
          obtain ⟨first, matched⟩ := simulates config
          obtain ⟨later, le, rest⟩ := inductionHypothesis (left.step config)
          refine ⟨first + 1 + later, by omega, ?_⟩
          rw [stepsFrom_add, matched, rest]
          rfl

/-- What one run comes to, the other comes to, after as many steps at least. -/
theorem Simulates.after
    (simulates : Simulates move left right)
    (start : ∃ count,
      right.after count = left.start.relocate move)
    (count : Nat) :
    ∃ later, count ≤ later ∧
      right.after later = (left.after count).relocate move := by
  obtain ⟨first, started⟩ := start
  obtain ⟨later, le, matched⟩ := simulates.steps count left.start
  refine ⟨first + later, by omega, ?_⟩
  rw [Run.after, stepsFrom_add]
  change stepsFrom right.step later (right.after first) = _
  rw [started, matched]
  rfl

theorem Simulates.sameBehaviour
    (simulates : Simulates move left right)
    (start : ∃ count,
      right.after count = left.start.relocate move)
    (shows : ∀ config, config.effects <+: (right.step config).effects) :
    Run.SameBehaviour left right := by
  constructor
  · intro ending world effects
    constructor
    · rintro ⟨count, ended⟩
      obtain ⟨later, -, matched⟩ := simulates.after start count
      exact ⟨later, by rw [matched, ended]; rfl⟩
    · rintro ⟨count, ended⟩
      obtain ⟨later, le, matched⟩ := simulates.after start count
      have ended := stepsFrom_of_le ended le
      change right.after later = _ at ended
      rw [matched] at ended
      exact ⟨count, State.eq_ended_of_relocate ended⟩
  · intro effects
    constructor
    · rintro ⟨count, shown⟩
      obtain ⟨later, -, matched⟩ := simulates.after start count
      refine ⟨later, ?_⟩
      rw [matched, State.effects_relocate]
      exact shown
    · rintro ⟨count, shown⟩
      obtain ⟨later, le, matched⟩ := simulates.after start count
      obtain ⟨more, rfl⟩ := Nat.exists_eq_add_of_le le
      have grown :
          (right.after count).effects <+:
            (right.after (count + more)).effects := by
        rw [Run.after, Run.after, stepsFrom_add]
        exact effects_stepsFrom shows more _
      rw [matched, State.effects_relocate] at grown
      exact ⟨count, shown.trans grown⟩

end Simulation

end NullWeave
