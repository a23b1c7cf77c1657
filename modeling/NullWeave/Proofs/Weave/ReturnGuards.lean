import NullWeave.Proofs.Weave.GuardedPoint
import NullWeave.Proofs.Weave.Run

/-!
# No return without its guards

In the new body of a plain method the guards of the results stand in a row
directly before every return.  Whatever led to the return in the original body
leads to the first guard of the row, each guard goes on at the next one, and
the last one at the return.  The row ends in a throw, so control does not run
into the return either: the test of the last guard is the only way there.
-/

namespace NullWeave

/--
The guards of a row stand before a return, and the return is reached through
them only.
-/
structure GuardedReturn
    (debugBuild : Bool) (body woven : MethodBody)
    (point : Instruction) (row : GuardRow) : Prop where
  /-- The row stands directly before the return, behind what stood there before. -/
  stands :
    ∃ front code back,
      woven.instructions = front ++ code ++ point :: back ∧
        widenBranches code = row.code debugBuild point.id ∧
        ∀ earlier previous later,
          body.instructions = earlier ++ previous :: point :: later →
          ∃ others last,
            front = others ++ [last] ∧ last.id = previous.id ∧
              last.operation.neverFallsThrough =
                previous.operation.neverFallsThrough
  /-- Every guard ends in a throw. -/
  throws :
    ∀ placed ∈ row, ∀ next,
      ((placed.code debugBuild next).getLast?).map (·.operation) =
        some .throw
  /-- The test of a guard leads to the next guard, or to the return; nothing else leads there. -/
  goesOn :
    ∀ (left : GuardRow) (placed : PlacedGuard) (right : GuardRow),
      row = left ++ placed :: right →
        (∃ form,
          ⟨placed.test debugBuild,
              .branch .ifTrue form (right.entrance point.id)⟩ ∈
            woven.instructions) ∧
          ∀ reference,
            woven.named? reference = some (right.entrance point.id) ↔
              reference = .target (placed.test debugBuild) 0
  /-- What named the return names the first guard. -/
  entered :
    ∀ reference, body.named? reference = some point.id →
      woven.named? reference = some (row.entrance point.id)
  /-- The test of the last guard is the only way to the return. -/
  onlyWay :
    ∀ way, woven.Leads way point.id ↔
      ∃ left last, row = left ++ [last] ∧
        way = .jump (PlacedGuard.test debugBuild last) 0

namespace GuardLayout.Describes

variable
    {layout : GuardLayout} {debugBuild : Bool}
    {body woven : MethodBody}
    {point : Instruction}

/-- The row before a return guards it. -/
theorem guardedReturn
    (described : layout.Describes debugBuild body.widen woven.widen)
    (wellFormed : body.WellFormed)
    (here : point ∈ body.instructions)
    (returns : point.operation = .ret)
    (nonempty : layout.before point.id ≠ [])
    (throws : ∀ guard ∈ layout.guardsBefore point.id,
      guard.exit = .throw) :
    GuardedReturn debugBuild body woven point
      (layout.before point.id) := by
  have none : point.operation.targets = [] := by
    rw [returns]
    rfl
  have wide := MethodBody.mem_widen here none
  have distinct : (identities woven.instructions).Nodup := by
    simpa using described.distinct
  have goesOn :
      ∀ (left : GuardRow) (placed : PlacedGuard) (right : GuardRow),
        layout.before point.id = left ++ placed :: right →
          ∀ reference,
            woven.named? reference = some (right.entrance point.id) ↔
              reference = .target (placed.test debugBuild) 0 := by
    intro left placed right split reference
    rw [← MethodBody.named?_widen]
    exact described.named?_iff_test wellFormed.widen wide split reference
  obtain ⟨earlier, later, split⟩ := List.append_of_mem here
  obtain ⟨front, code, back, instructions, codeSame, frontSame⟩ :=
    described.point_stands none split
  refine ⟨⟨front, code, back, instructions, codeSame, ?_⟩, ?_, ?_, ?_,
    ?_⟩
  · intro before previous behind other
    have places :
        earlier ++ point :: later =
          (before ++ [previous]) ++ point :: behind := by
      rw [← split, other]
      simp
    have earlierSplit :=
      (split_eq_of_id_eq (split ▸ wellFormed.distinct) places rfl).1
    rw [earlierSplit] at frontSame
    exact previous_stands frontSame
  · intro placed member next
    exact PlacedGuard.getLast?_code
      (throws placed.guard (List.mem_map_of_mem member)) debugBuild next
  · intro left placed right rowSplit
    refine ⟨?_, goesOn left placed right rowSplit⟩
    rw [rowSplit] at codeSame
    obtain ⟨form, member⟩ := test_stands codeSame
    refine ⟨form, ?_⟩
    rw [instructions]
    exact List.mem_append_left _ (List.mem_append_right _ member)
  · intro reference named
    rw [← MethodBody.named?_widen] at named ⊢
    exact described.named?_of_original named
  · exact leads_iff distinct instructions nonempty codeSame
      fun left last rowSplit => goesOn left last [] rowSplit

end GuardLayout.Describes

namespace Weaver

/--
Weaving a plain method puts a new body in place in which every return is
guarded by the guards of the `out` parameters and of the return value, in this
order.  Where there are none, everything that named a return still does.
-/
theorem weaveMethod_guards_returns
    (settings : Settings) (context : MethodContext) (body : MethodBody)
    (state : WeaveState)
    (resolved : NullPolicy.resolve context.graph settings
      context.method = .ok context.policy)
    (visible :
      context.policy.isVisible context.graph context.decl = true)
    (plain : context.shape = .plain)
    (present : state.bodies.get? context.method = some body)
    (wellFormed : body.WellFormed) :
    ∃ final woven,
      (weaveMethod context.graph settings context.method).run state =
          (.ok (), final) ∧
        final.bodies = state.bodies.set context.method woven ∧
        (identities woven.instructions).Nodup ∧
        ∀ point ∈ body.instructions, point.operation = .ret →
          (context.outGuards ++ context.returnGuards = [] →
            ∀ reference, body.named? reference = some point.id →
              woven.named? reference = some point.id) ∧
          (context.outGuards ++ context.returnGuards ≠ [] →
            ∃ row : GuardRow,
              row.map (·.guard) =
                  context.outGuards ++ context.returnGuards ∧
                GuardedReturn settings.debugBuild body woven point
                  row) := by
  have sync : context.shape ≠ .asyncStateMachine := by
    simp [plain]
  obtain ⟨final, ran, bodies⟩ :=
    run_weaveBody_of_not_async sync settings body state
  rw [← run_weaveMethod_of_visible resolved visible present] at ran
  obtain ⟨layout, lays⟩ := context.exists_layout settings wellFormed
  have described := lays.woven
  refine ⟨final, context.wovenBody settings body, ran, bodies,
    by simpa using described.distinct, ?_⟩
  intro point here returns
  have guards :
      (layout.before point.id).map (·.guard) =
        context.outGuards ++ context.returnGuards := by
    have row := lays.before point here
    rw [returns, MethodContext.exitGuards, if_pos plain] at row
    exact row
  constructor
  · intro none reference named
    rw [none, List.map_eq_nil_iff] at guards
    rw [← MethodBody.named?_widen] at named ⊢
    rw [described.named?_of_original named, GuardLayout.entrance, guards]
    rfl
  · intro some
    refine ⟨layout.before point.id, guards,
      described.guardedReturn wellFormed here returns ?_ ?_⟩
    · intro empty
      rw [empty] at guards
      exact some guards.symm
    · intro guard member
      rw [GuardLayout.guardsBefore, guards] at member
      exact context.exit_outGuards_append guard member

end Weaver

/-! ## A method with two results -/

namespace Sample

/-- A method that returns a string and hands out another one. -/
def graph : Graph where
  types :=
    Graph.system.types.push
      { name := "Sample", access := { isPublic := true } }
  methods :=
    Graph.system.methods.push
      { owner := ⟨17⟩
        name := "Find"
        access := { isPublic := true }
        returnType := .named SystemLibrary.string
        parameters :=
          [{ name := "key", type := .named SystemLibrary.string },
            { name := "found"
              type := .byRef (.named SystemLibrary.string)
              isOut := true }] }

def context : MethodContext where
  graph
  method := ⟨13⟩
  policy := { flags := .allPublic, explicitMode := false }

/-- The return is reached by a jump and from the instruction before it. -/
def body : MethodBody :=
  MethodBody.append {}
    [.ldStr "none", .ldArg 0, .branch .ifTrue .short ⟨5⟩, .pop,
      .ldNull, .ret]

def state : WeaveState where
  bodies := ({} : Bodies).set ⟨13⟩ body

theorem wellFormed : body.WellFormed where
  distinct := by decide
  issued := by decide
  resolved := rfl

end Sample

open Sample in
theorem Weaver.weaveMethod_guards_returns_sample :
    ∃ (final : WeaveState) (woven : MethodBody) (row : GuardRow),
      (weaveMethod graph {} context.method).run state =
          (.ok (), final) ∧
        final.bodies = state.bodies.set context.method woven ∧
        row.map (·.guard.message) =
          ["[NullGuard] Out parameter 'found' is null.",
            "[NullGuard] Return value of method " ++
              "'System.String Sample::Find(System.String," ++
              "System.String&)' is null."] ∧
        GuardedReturn false body woven ⟨⟨5⟩, .ret⟩ row := by
  obtain ⟨final, woven, ran, bodies, -, guarded⟩ :=
    weaveMethod_guards_returns {} context body state rfl
      (by decide +kernel) (by decide +kernel) rfl wellFormed
  have here : body.instructions[5]? = some ⟨⟨5⟩, .ret⟩ := rfl
  obtain ⟨row, guards, guardedReturn⟩ :=
    (guarded ⟨⟨5⟩, .ret⟩ (List.mem_of_getElem? here) rfl).2
      (by
        intro none
        have length := congrArg List.length none
        revert length
        decide +kernel)
  refine ⟨final, woven, row, ran, bodies, ?_, guardedReturn⟩
  have messages := congrArg (List.map Guard.message) guards
  rw [List.map_map] at messages
  refine messages.trans ?_
  decide +kernel

end NullWeave
