import NullWeave.Proofs.Weave.GuardedPoint
import NullWeave.Weave.AsyncResult

/-!
# No value handed over without its guard

In the new body of a state machine one guard stands directly before every call
that hands a value to the builder, and no guard stands anywhere else.  Whatever
led to the call in the original body leads to the guard, and the test of the
guard is the only way to the call.  Where the value is null the guard reports a
failure to the builder and returns.
-/

namespace NullWeave

/-! ## The calls that hand values over -/

namespace Graph

/-- Does an operation hand a value to a builder? -/
def isHandover (graph : Graph) (operation : Operation) : Bool :=
  (graph.builderCall? "SetResult" operation).isSome

/-- The method by which a body reports a failure to a builder. -/
def faultReport? (graph : Graph) (body : MethodBody) : Option MethodId :=
  body.instructions.findSome? fun instruction =>
    graph.builderCall? "SetException" instruction.operation

theorem isHandover_mapTargets
    (graph : Graph) (change : InstrId → InstrId)
    (operation : Operation) :
    graph.isHandover (operation.mapTargets change) =
      graph.isHandover operation := by
  cases operation <;> rfl

theorem isHandover_withForm
    (graph : Graph) (form : BranchForm) (operation : Operation) :
    graph.isHandover (operation.withForm form) =
      graph.isHandover operation := by
  cases operation <;> rfl

theorem exists_call_of_isHandover
    {graph : Graph} {operation : Operation}
    (handover : graph.isHandover operation = true) :
    ∃ method, operation = .call method ∧
      graph.isTaskBuilderMethod "SetResult" method = true := by
  cases operation <;> simp_all [isHandover, builderCall?]

/-- A call that hands a value over names no instruction. -/
theorem targets_of_isHandover
    {graph : Graph} {operation : Operation}
    (handover : graph.isHandover operation = true) :
    operation.targets = [] := by
  obtain ⟨method, rfl, -⟩ := exists_call_of_isHandover handover
  rfl

end Graph

theorem positionsWhere_widenBranches
    {test : Operation → Bool}
    (sameTest : ∀ operation,
      test (operation.withForm .long) = test operation)
    (instructions : List Instruction) :
    positionsWhere test (widenBranches instructions) =
      positionsWhere test instructions := by
  simp only [positionsWhere, widenBranches, List.zipIdx_map,
    List.filterMap_map]
  congr 2
  funext entry
  simp [Instruction.withForm, sameTest]

/-- A pass that puts one guard before each instruction that satisfies a test. -/
theorem GuardLayout.exists_describes_pass
    (style : GuardStyle) (guard : Guard) {test : Operation → Bool}
    (sameTest : ∀ change operation,
      test (operation.mapTargets change) = test operation)
    {original : MethodBody} (wellFormed : original.WellFormed) :
    ∃ layout : GuardLayout,
      layout.Describes style.debugBuild original
          ((positionsWhere test original.instructions).foldl
            (fun (guarded : GuardedBody) point =>
              guarded.addExitGuard style point guard)
            { body := original }).body ∧
        layout.front = [] ∧
        ∀ instruction ∈ original.instructions,
          layout.guardsBefore instruction.id =
            if test instruction.operation then [guard] else [] := by
  have start :
      Describes {} style.debugBuild original
        ({ body := original } : GuardedBody).body :=
    describes_self style.debugBuild wellFormed
  have quiet : GuardRow.Quiet [] style.debugBuild test := nofun
  obtain ⟨layout, described, passed⟩ :=
    start.pass wellFormed test (· ++ [guard])
      (fun guarded point => guarded.addExitGuard style point guard)
      sameTest quiet (fun _ _ => quiet)
      (by
        intro current now earlier point later split _ describedNow same
        refine ⟨_, ?_, describedNow.appendGuard wellFormed split guard⟩
        simp [same, guardsBefore])
  exact ⟨layout, described, passed.front, passed.visited⟩

/-! ## The layout of a state machine -/

namespace MethodContext

/-- The guard of the values that a method hands over. -/
def handoverGuard
    (context : MethodContext) (payload : Signature)
    (setException : MethodId) : Guard :=
  resultGuard payload (returnMessage context.name) (.report setException)

/-- Where a value is null, its guard takes it away, reports a failure and returns. -/
theorem failing_handoverGuard
    (context : MethodContext) (payload : Signature)
    (setException : MethodId) :
    (context.handoverGuard payload setException).failing =
      [.pop, .ldStr (returnMessage context.name),
        .newObj SystemLibrary.invalidOperationInit, .call setException,
        .ret] := rfl

variable
    {context : MethodContext} {debugBuild : Bool} {payload : Signature}
    {setException : MethodId} {body : MethodBody}

/-- A layout of a state machine: one guard before each call that hands a value over. -/
structure LaysHandovers
    (context : MethodContext) (debugBuild : Bool) (payload : Signature)
    (setException : MethodId) (body woven : MethodBody)
    (layout : GuardLayout) : Prop where
  describes : layout.Describes debugBuild body.widen woven.widen
  front : layout.front = []
  before : ∀ instruction ∈ body.instructions,
    layout.guardsBefore instruction.id =
      if context.graph.isHandover instruction.operation then
        [context.handoverGuard payload setException]
      else
        []

theorem exists_layout_handovers
    (context : MethodContext) (debugBuild : Bool) (payload : Signature)
    (setException : MethodId) (wellFormed : body.WellFormed) :
    ∃ layout,
      context.LaysHandovers debugBuild payload setException body
        (context.guardHandovers debugBuild payload setException
          body).finish layout := by
  obtain ⟨layout, described, front, before⟩ :=
    GuardLayout.exists_describes_pass
      { debugBuild, document := body.debugInfo.document? }
      (context.handoverGuard payload setException)
      context.graph.isHandover_mapTargets wellFormed.widen
  rw [MethodBody.instructions_widen,
    positionsWhere_widenBranches
      (context.graph.isHandover_withForm .long)] at described
  refine ⟨layout, described.of_widenBranches_eq
    (widenBranches_narrowBranches (-128) 127 _) rfl rfl rfl,
    front, ?_⟩
  intro instruction member
  have row :=
    before (instruction.withForm .long) (List.mem_map_of_mem member)
  simpa [Instruction.withForm, Graph.isHandover_withForm] using row

end MethodContext

/-! ## Guarded calls -/

/-- A guard stands before a call, and the call is reached through it only. -/
structure GuardedHandover
    (debugBuild : Bool) (body woven : MethodBody)
    (point : Instruction) (placed : PlacedGuard) : Prop where
  /-- The guard stands directly before the call. -/
  stands :
    ∃ front code back,
      woven.instructions = front ++ code ++ point :: back ∧
        widenBranches code = placed.code debugBuild point.id
  /-- What named the call, a boundary of a handler too, names the guard. -/
  renamed :
    ∀ reference, body.named? reference = some point.id →
      woven.named? reference = some placed.start
  /-- What led to the call leads to the guard. -/
  entered :
    ∀ way, body.Leads way point.id → woven.Leads way placed.start
  /-- The test of the guard is the only way to the call. -/
  onlyWay :
    ∀ way, woven.Leads way point.id ↔
      way = .jump (placed.test debugBuild) 0

namespace MethodContext

variable
    {context : MethodContext} {debugBuild : Bool} {payload : Signature}
    {setException : MethodId} {body woven : MethodBody}
    {layout : GuardLayout}

theorem LaysHandovers.before_eq
    (lays : context.LaysHandovers debugBuild payload setException body
      woven layout)
    {point : Instruction} (here : point ∈ body.instructions)
    (handover : context.graph.isHandover point.operation = true) :
    ∃ start,
      layout.before point.id =
        [⟨context.handoverGuard payload setException, start⟩] := by
  have guards := lays.before point here
  rw [if_pos handover] at guards
  obtain ⟨⟨guard, start⟩, row, rfl⟩ := List.map_eq_singleton_iff.mp guards
  exact ⟨start, row⟩

/-- The guard before a call guards it. -/
theorem LaysHandovers.guardedHandover
    (lays : context.LaysHandovers debugBuild payload setException body
      woven layout)
    (wellFormed : body.WellFormed)
    {point : Instruction} (here : point ∈ body.instructions)
    (handover : context.graph.isHandover point.operation = true)
    {placed : PlacedGuard} (row : layout.before point.id = [placed]) :
    GuardedHandover debugBuild body woven point placed := by
  have described := lays.describes
  have none := Graph.targets_of_isHandover handover
  have distinct : (identities woven.instructions).Nodup := by
    simpa using described.distinct
  have start : layout.entrance point.id = placed.start := by
    rw [GuardLayout.entrance, row]
    rfl
  have goesOn : ∀ reference,
      woven.named? reference = some point.id ↔
        reference = .target (placed.test debugBuild) 0 := by
    intro reference
    rw [← MethodBody.named?_widen]
    exact described.named?_iff_test wellFormed.widen
      (MethodBody.mem_widen here none)
      (show layout.before point.id = [] ++ placed :: [] from row)
      reference
  obtain ⟨earlier, later, split⟩ := List.append_of_mem here
  obtain ⟨front, code, back, instructions, codeSame, -⟩ :=
    described.point_stands none split
  rw [row] at codeSame
  refine ⟨⟨front, code, back, instructions, by simpa using codeSame⟩,
    ?_, ?_, ?_⟩
  · intro reference named
    rw [← MethodBody.named?_widen] at named ⊢
    rw [described.named?_of_original named, start]
  · intro way leads
    rw [← MethodBody.leads_widen] at leads ⊢
    rw [← start]
    exact described.leads_entrance lays.front leads
  · intro way
    have single : ∀ (left : GuardRow) (last : PlacedGuard),
        [placed] = left ++ [last] ↔ left = [] ∧ placed = last := by
      intro left last
      cases left <;> simp
    rw [GuardLayout.Describes.leads_iff distinct instructions
      (List.cons_ne_nil placed []) codeSame
      fun left last same => ((single left last).mp same).2 ▸ goesOn]
    simp only [single]
    constructor
    · rintro ⟨left, last, ⟨-, rfl⟩, rfl⟩
      rfl
    · rintro rfl
      exact ⟨[], placed, ⟨rfl, rfl⟩, rfl⟩

/-- One guard stands before every call that hands a value over, and none stands elsewhere. -/
structure GuardsHandovers
    (context : MethodContext) (debugBuild : Bool) (payload : Signature)
    (setException : MethodId) (body woven : MethodBody) : Prop where
  /-- The new body is the old one with these guards put in. -/
  lays : ∃ layout,
    context.LaysHandovers debugBuild payload setException body woven
      layout
  distinct : (identities woven.instructions).Nodup
  /-- Where a value is null, its guard reports a failure and returns. -/
  fails :
    (context.handoverGuard payload setException).failing =
      [.pop, .ldStr (returnMessage context.name),
        .newObj SystemLibrary.invalidOperationInit, .call setException,
        .ret]
  guarded : ∀ point ∈ body.instructions,
    context.graph.isHandover point.operation = true →
      ∃ start,
        GuardedHandover debugBuild body woven point
          ⟨context.handoverGuard payload setException, start⟩

/-- The new body of a state machine guards what is handed over. -/
theorem guardsHandovers
    (context : MethodContext) (debugBuild : Bool) (payload : Signature)
    (setException : MethodId) (wellFormed : body.WellFormed) :
    context.GuardsHandovers debugBuild payload setException body
      (context.guardHandovers debugBuild payload setException
        body).finish := by
  obtain ⟨layout, lays⟩ :=
    context.exists_layout_handovers debugBuild payload setException
      wellFormed
  refine ⟨⟨layout, lays⟩, by simpa using lays.describes.distinct,
    context.failing_handoverGuard payload setException, ?_⟩
  intro point here handover
  obtain ⟨start, row⟩ := lays.before_eq here handover
  exact ⟨start, lays.guardedHandover wellFormed here handover row⟩

end MethodContext

end NullWeave
