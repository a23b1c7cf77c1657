import NullWeave.Proofs.Machine.ControlPath
import NullWeave.Proofs.Weave.EntryParameters
import NullWeave.Proofs.Weave.GuardedEntry
import NullWeave.Proofs.Weave.HandoverGuards

/-!
# Entry guards cover the whole entry

Weaving puts one guard for each parameter that must not be null, and that the
body does not guard already, in front of the body.  The value given to a setter
comes first, the others follow in the order of the parameters.  Every call
passes each of these guards once before it reaches anything else.

The value given to a setter is looked at behind the guards of results.  A guard
of it that the original body holds does not count if it has a return in the
place of its message and guards were put before the returns.
-/

namespace NullWeave

namespace Weaver

/--
The parameters that are guarded at the entry of a method, and no others, have a
guard in front of its new body, each one guard.  On every path, and so in every
run, each guard is passed once before control reaches what the original body
began with.
-/
theorem weaveMethod_guards_entry
    (settings : Settings) (context : MethodContext) (body : MethodBody)
    (state final : WeaveState)
    (includes : context.graph.IncludesSystem)
    (names : context.graph.NamesSystemTypes)
    (resolved : NullPolicy.resolve context.graph settings
      context.method = .ok context.policy)
    (visible :
      context.policy.isVisible context.graph context.decl = true)
    (arguments : context.policy.flags.arguments = true)
    (distinct : (context.decl.parameters.map (·.name)).Nodup)
    (present : state.bodies.get? context.method = some body)
    (wellFormed : body.WellFormed)
    {first : Instruction} {rest : List Instruction}
    (whole : body.instructions = first :: rest)
    (ran :
      (weaveMethod context.graph settings context.method).run state =
        (.ok (), final)) :
    ∃ (woven : MethodBody) (row exits : GuardRow),
      (∃ machines : List (MethodId × MethodBody),
        final.bodies =
          machines.foldl
            (fun bodies entry => bodies.set entry.1 entry.2)
            (state.bodies.set context.method woven)) ∧
      (context.decl.parameters ≠ [] →
        final.bodies.get? context.method = some woven) ∧
      row.map (·.guard) =
        (context.guardedParameters body).map context.entryGuard ∧
      (context.guardedParameters body).Nodup ∧
      (∀ entry, entry ∈ context.guardedParameters body ↔
        entry ∈ context.decl.parameters.zipIdx ∧
          context.policy.checksArgument context.graph entry.1 = true ∧
          context.recognises body entry = false) ∧
      (∀ entry,
        body.alreadyGuards context.graph entry.1.name = false →
          context.recognises body entry = false) ∧
      exits.map (·.guard) =
        (if first.operation.isRet then context.exitGuards else []) ∧
      GuardedEntry settings.debugBuild woven first.id row exits ∧
      (∀ placed ∈ row, ∃ start,
        start < row.size settings.debugBuild ∧
          woven.indexOf? placed.start = some start ∧
          ∀ position past, woven.Path (position :: past) →
            (position :: past).count start =
              if start ≤ position then 1 else 0) ∧
      ∀ (Reference World Effect : Type)
        (machine : Machine Reference World Effect) (world : World)
        (count : Nat) (config : Config Reference World Effect),
        (machine.run woven world).after count = .running config →
          ∃ past, woven.Path (config.position :: past) := by
  rw [run_weaveMethod_of_visible resolved visible present] at ran
  obtain ⟨progress, made, bodies⟩ := exists_hasMade_of_run ran
  obtain ⟨layout, lays⟩ := context.exists_layout settings wellFormed
  have guarded := lays.woven.guardedEntry wellFormed whole
  have nonempty : body.instructions ≠ [] := by
    simp [whole]
  refine ⟨context.wovenBody settings body, layout.front,
    layout.before first.id, ⟨progress.pending, bodies⟩, ?_, ?_,
    MethodContext.nodup_guardedParameters,
    fun _ => MethodContext.mem_guardedParameters,
    fun _ => MethodContext.recognises_eq_false, ?_, guarded,
    fun placed member => guarded.passes_once member,
    fun _ _ _ _ _ _ _ reached => Machine.exists_path_of_run reached⟩
  · intro takes
    rw [bodies, made.get?_of_not_reports fun machine =>
      absurd machine.parameters_eq_nil takes, Bodies.get?_set_self]
  · rw [lays.front]
    exact MethodContext.entryGuards_eq includes names arguments distinct
      nonempty wellFormed
  · exact lays.before first (by simp [whole])

end Weaver

/-! ## A setter with an index -/

namespace Indexer

/-- A setter whose property has an index, and which returns a string. -/
def graph : Graph where
  types :=
    Graph.system.types.push
      { name := "Sample", access := { isPublic := true } }
  methods :=
    Graph.system.methods.push
      { owner := ⟨17⟩
        name := "set_Item"
        access := { isPublic := true, specialName := true }
        returnType := .named SystemLibrary.string
        parameters :=
          [{ name := "index", type := .named SystemLibrary.string },
            { name := "value", type := .named SystemLibrary.string }] }

def context : MethodContext where
  graph
  method := ⟨13⟩
  policy := { flags := .allPublic, explicitMode := false }

theorem includesSystem : graph.IncludesSystem :=
  (Graph.includesSystem_system.addType _).addMethod _

theorem namesSystemTypes : graph.NamesSystemTypes :=
  (Graph.namesSystemTypes_system.addType _).addMethod _

/-- The value is returned. -/
def body : MethodBody :=
  MethodBody.append {} [.ldArg 2, .ret]

/-- Behind the return stands what ends a guard of the value. -/
def bodyReturningName : MethodBody :=
  MethodBody.append {}
    [.ldStr "value", .ret, .newObj SystemLibrary.argumentNullInitMessage,
      .throw]

def stateWith (body : MethodBody) : WeaveState where
  bodies := ({} : Bodies).set ⟨13⟩ body

/-- What the guards in front of a body of the setter say. -/
def messages : List String :=
  ["[NullGuard] Cannot set the value of property " ++
      "'System.String Sample::Item(System.String)' to null.",
    "[NullGuard] index is null."]

end Indexer

open Indexer in
theorem Weaver.weaveMethod_guards_entry_indexer :
    ∃ (final : WeaveState) (woven : MethodBody) (row exits : GuardRow),
      (weaveMethod graph {} context.method).run (stateWith body) =
          (.ok (), final) ∧
        final.bodies.get? context.method = some woven ∧
        row.map (·.guard.message) = messages ∧
        GuardedEntry false woven ⟨0⟩ row exits := by
  have ran :=
    run_eq_of_isOk
      (show ((weaveMethod graph {} context.method).run
        (stateWith body)).1.isOk = true by decide +kernel)
  obtain ⟨woven, row, exits, -, placed, guards, -, -, -, -, guarded, -⟩ :=
    weaveMethod_guards_entry {} context body (stateWith body) _
      includesSystem namesSystemTypes rfl (by decide +kernel) rfl
      (by decide) rfl ⟨by decide, by decide, rfl⟩ rfl ran
  refine ⟨_, woven, row, exits, ran, placed (by decide), ?_, guarded⟩
  have said := congrArg (List.map Guard.message) guards
  rw [List.map_map] at said
  refine said.trans ?_
  decide +kernel

open Indexer in
/-- A guard of the value given to a setter that is broken by a guard before a return. -/
theorem Weaver.guards_entry_of_broken :
    ∃ (final : WeaveState) (woven : MethodBody) (row exits : GuardRow),
      (weaveMethod graph {} context.method).run
          (stateWith bodyReturningName) = (.ok (), final) ∧
        final.bodies.get? context.method = some woven ∧
        bodyReturningName.alreadyGuards graph "value" = true ∧
        row.map (·.guard.message) = messages ∧
        GuardedEntry false woven ⟨0⟩ row exits := by
  have wellFormed : bodyReturningName.WellFormed :=
    ⟨by decide, by decide, rfl⟩
  have sync : context.shape ≠ .asyncStateMachine := by
    decide +kernel
  obtain ⟨final, ran, bodies⟩ :=
    run_weaveBody_of_not_async sync {} bodyReturningName
      (stateWith bodyReturningName)
  have visible :
      context.policy.isVisible context.graph context.decl = true := by
    decide +kernel
  rw [← run_weaveMethod_of_visible rfl visible rfl] at ran
  obtain ⟨layout, lays⟩ := context.exists_layout {} wellFormed
  refine ⟨final, _, layout.front, _, ran,
    by rw [bodies, Bodies.get?_set_self], by decide +kernel, ?_,
    lays.woven.guardedEntry wellFormed rfl⟩
  have said := congrArg (List.map Guard.message) lays.front
  rw [List.map_map] at said
  refine said.trans ?_
  decide +kernel

end NullWeave
