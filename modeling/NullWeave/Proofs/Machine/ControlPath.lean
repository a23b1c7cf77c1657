import NullWeave.Proofs.Code.Path
import NullWeave.Proofs.Machine.Preservation

/-!
# Runs follow paths

Every step of a run is one of the ways on which control may go, so the
positions of a run are a path.  What holds of all paths of a body holds of all
its runs, whatever the environment answers.
-/

namespace NullWeave

variable
    {Reference World Effect : Type}
    {machine : Machine Reference World Effect}

namespace Machine

/-- Control goes on at the next instruction only from one that falls through. -/
theorem fallsThrough_of_next
    {operation : Operation} {stack rest : List (Value Reference)}
    {world changed : World} {effects : List Effect}
    (goesOn :
      machine.perform operation stack world = .next rest changed effects) :
    operation.neverFallsThrough = false := by
  cases operation with
  | branch kind form target =>
      cases kind with
      | always =>
          cases goesOn
      | leave =>
          cases goesOn
      | _ =>
          rfl
  | ret =>
      simp only [perform] at goesOn
      split at goesOn
      · cases stack <;> cases goesOn
      · cases goesOn
  | throw =>
      cases stack <;> cases goesOn
  | endFinally =>
      cases goesOn
  | _ =>
      rfl

/-- A step goes one of the ways on which control may go. -/
theorem goesOn_of_step
    {body : MethodBody} {config next : Config Reference World Effect}
    (step : machine.step body config = .running next) :
    body.GoesOn config.position next.position := by
  rw [Machine.step] at step
  cases here : body.instructions[config.position]? with
  | none =>
      rw [here] at step
      cases step
  | some instruction =>
      rw [here] at step
      simp only at step
      cases flow : machine.perform instruction.operation config.stack
          config.world with
      | next stack world effects =>
          rw [flow] at step
          cases step
          exact .next here (fallsThrough_of_next flow)
      | jump target stack =>
          rw [flow, follow] at step
          cases there : body.indexOf? target with
          | none =>
              rw [there] at step
              cases step
          | some position =>
              rw [there] at step
              cases step
              exact .jump here (machine.mem_targets_of_jump flow) there
      | returns value =>
          rw [flow] at step
          cases step
      | raises exception world effects =>
          rw [flow, follow, raiseAt] at step
          split at step
          · cases step
          · split at step
            · cases step
            · rename_i handler found
              split at step
              · cases step
              · rename_i start there
                cases step
                have catches := List.find?_some found
                rw [Bool.and_eq_true, MethodBody.protects_eq_within]
                  at catches
                exact .handled (List.mem_of_find?_eq_some found)
                  catches.1 there
      | stuck =>
          rw [flow] at step
          cases step

/-- The positions of a run are a path. -/
theorem exists_path_of_run
    {body : MethodBody} {world : World} {count : Nat}
    {config : Config Reference World Effect}
    (reached : (machine.run body world).after count = .running config) :
    ∃ past, body.Path (config.position :: past) := by
  induction count generalizing config with
  | zero =>
      cases reached
      exact ⟨[], .enter⟩
  | succ count inductionHypothesis =>
      rw [Run.after, stepsFrom_add] at reached
      cases before : (machine.run body world).after count with
      | running earlier =>
          obtain ⟨past, path⟩ := inductionHypothesis before
          rw [Run.after] at before
          rw [before] at reached
          exact ⟨_, path.step (goesOn_of_step reached)⟩
      | ended ending world effects =>
          rw [Run.after] at before
          rw [before, stepsFrom_ended] at reached
          cases reached

end Machine

end NullWeave
