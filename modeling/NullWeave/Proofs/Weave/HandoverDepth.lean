import NullWeave.Proofs.Weave.HandoverGuards
import NullWeave.Proofs.Weave.StackDiscipline

/-!
# The depths of a state machine

A guard of a value that is handed over reports a failure to the receiver under
the value, and returns.  So a state machine that passes the check of its depths
passes it again exactly if the report leaves what is returned: wherever a value
is handed over, nothing but the receiver and the value may lie on the stack.
-/

namespace NullWeave

/-- A report that takes its receiver and the exception, and returns nothing, needs just these. -/
theorem Graph.settles_iff_of_void
    {graph : Graph} {method : MethodId}
    (single : (graph.method method).parameters.length = 1)
    (receiver : (graph.method method).hasReceiver = true)
    (void : (graph.method method).returnType.isVoid = true)
    (depth : Nat) :
    graph.Settles false method depth ↔ depth = 2 := by
  simp only [Settles, Operation.depthAfter, Operation.stackEffect, single,
    receiver, void]
  simp only [Bool.toNat_true, Bool.not_true, Bool.toNat_false]
  omega

/-! ## Where the value is null -/

section Failing

variable
    {graph : Graph} {debugBuild : Bool}
    {body : MethodBody} {placed : PlacedGuard} {next : InstrId}
    {front back : List Instruction} {depth : Nat}

/-- Where its value is null, control goes straight through what a guard does. -/
theorem PlacedGuard.reached_failing
    (split : body.instructions =
      front ++ (placed.code debugBuild next ++ back))
    (through : placed.guard.LetsThrough graph debugBuild depth)
    (reached : body.Reached graph placed.start depth)
    {operations rest : List Operation} {last : Operation}
    (failing : placed.guard.failing = operations ++ last :: rest)
    (goesOn : ∀ operation ∈ operations,
      operation.neverFallsThrough = false) :
    ∃ instruction ∈ body.instructions,
      instruction.operation = last ∧
        body.Reached graph instruction.id
          (depthThrough graph depth operations) := by
  rw [code_eq, List.append_assoc, List.cons_append] at split
  have tested := reached_test split rfl through reached
  rw [failing, numberFrom_append, MethodBody.numberFrom,
    List.append_assoc, List.cons_append, ← List.append_assoc] at split
  have entered :
      body.Reached graph (placed.test debugBuild).next depth := by
    cases operations with
    | nil =>
        exact .next split tested rfl
    | cons first others =>
        exact .next split tested rfl
  rw [List.append_cons] at split
  exact ⟨_, by rw [split]; simp, rfl, entered.through split rfl goesOn⟩

/-- Where control comes to a guard that reports, a disciplined body lets it settle. -/
theorem PlacedGuard.settles_of_disciplined
    (split : body.instructions =
      front ++ (placed.code debugBuild next ++ back))
    (through : placed.guard.LetsThrough graph debugBuild depth)
    (reached : body.Reached graph placed.start depth)
    (includes : graph.IncludesSystem)
    (findsValue : placed.guard.FindsValue depth)
    {returnsValue : Bool}
    (disciplined : body.Disciplined graph returnsValue) :
    placed.guard.Settles graph returnsValue depth := by
  intro setException exit
  have constructed := placed.guard.through_constructing includes findsValue
  have constructing : ∀ operation ∈ placed.guard.subject.discard ++
        placed.guard.failure.construct placed.guard.message,
      operation.neverFallsThrough = false :=
    fun operation member =>
      (placed.guard.straight_constructing operation member).2
  have reporting :
      placed.guard.failing =
        (placed.guard.subject.discard ++
          placed.guard.failure.construct placed.guard.message) ++
            .call setException :: [.ret] := by
    rw [Guard.failing, exit]
    rfl
  have returning :
      placed.guard.failing =
        ((placed.guard.subject.discard ++
          placed.guard.failure.construct placed.guard.message) ++
            [.call setException]) ++ .ret :: [] := by
    rw [reporting, List.append_cons]
  obtain ⟨call, callHere, calls, callReached⟩ :=
    reached_failing split through reached reporting constructing
  obtain ⟨ret, retHere, returns, retReached⟩ :=
    reached_failing split through reached returning
      (List.forall_mem_append.mpr ⟨constructing, by
        simp [Operation.neverFallsThrough]⟩)
  rw [constructed] at callReached
  rw [depthThrough_append, constructed] at retReached
  have admitsCall := disciplined.admits call callHere _ callReached
  have admitsRet := disciplined.admits ret retHere _ retReached
  constructor
  · rw [← calls]
    exact admitsCall.pops (by rw [calls]; rfl)
  · exact admitsRet.returns (by rw [returns]; rfl)

end Failing

/-! ## The new body of a state machine -/

namespace MethodContext

variable
    {context : MethodContext} {debugBuild : Bool} {payload : Signature}
    {setException : MethodId} {body woven : MethodBody}
    {layout : GuardLayout} {returnsValue : Bool}

/-- Does the report of a failure settle wherever a body hands a value over? -/
def SettlesHandovers
    (context : MethodContext) (returnsValue : Bool)
    (setException : MethodId) (body : MethodBody) : Prop :=
  ∀ point ∈ body.instructions,
    context.graph.isHandover point.operation = true →
      ∀ depth, body.Reached context.graph point.id depth →
        context.graph.Settles returnsValue setException depth

/-- A call that hands a value over takes it from the stack. -/
theorem one_le_of_handover
    (disciplined : body.Disciplined context.graph returnsValue)
    {point : Instruction} (here : point ∈ body.instructions)
    (handover : context.graph.isHandover point.operation = true)
    {depth : Nat} (reached : body.Reached context.graph point.id depth) :
    1 ≤ depth := by
  obtain ⟨method, calls, builder⟩ :=
    Graph.exists_call_of_isHandover handover
  have admits := disciplined.admits point here depth reached
  have pops := admits.pops (by rw [calls]; rfl)
  simp only [Graph.isTaskBuilderMethod, Bool.and_eq_true, beq_iff_eq]
    at builder
  simp only [calls, Operation.stackEffect, builder.1.2] at pops
  omega

theorem findsValue_handoverGuard {depth : Nat} (enough : 1 ≤ depth) :
    (context.handoverGuard payload setException).FindsValue depth :=
  fun _ _ => enough

/-- A guard of a value handed over settles exactly if its report does. -/
theorem settles_handoverGuard_iff {depth : Nat} (enough : 1 ≤ depth) :
    (context.handoverGuard payload setException).Settles context.graph
        returnsValue depth ↔
      context.graph.Settles returnsValue setException depth := by
  have same :
      (context.handoverGuard payload setException).discarded depth + 1 =
        depth :=
    Nat.sub_add_cancel enough
  constructor
  · intro settles
    exact same ▸ settles setException rfl
  · rintro settles _ ⟨⟩
    rw [same]
    exact settles

namespace LaysHandovers

variable {depths : InstrId → Option Nat}

/-- Only a call that hands a value over has guards before it, and just one. -/
theorem eq_of_mem_guardsBefore
    (lays : context.LaysHandovers debugBuild payload setException body
      woven layout)
    {instruction : Instruction}
    (member : instruction ∈ body.widen.instructions)
    {guard : Guard} (among : guard ∈ layout.guardsBefore instruction.id) :
    context.graph.isHandover instruction.operation = true ∧
      guard = context.handoverGuard payload setException := by
  obtain ⟨original, there, rfl⟩ := List.mem_map.mp member
  rw [Instruction.id_withForm, lays.before original there] at among
  split at among
  · rename_i handover
    exact ⟨by rw [Instruction.withForm, Graph.isHandover_withForm];
              exact handover,
      List.mem_singleton.mp among⟩
  · cases among

theorem letsThrough
    (lays : context.LaysHandovers debugBuild payload setException body
      woven layout)
    (includes : context.graph.IncludesSystem)
    (disciplined : body.widen.Disciplined context.graph returnsValue)
    (known : ∀ id depth,
      depths id = some depth ↔
        body.widen.Reached context.graph id depth) :
    layout.LetsThrough context.graph debugBuild depths
      body.widen.instructions where
  front := by
    rw [lays.front]
    nofun
  before := by
    intro instruction member depth here guard among
    obtain ⟨handover, rfl⟩ := lays.eq_of_mem_guardsBefore member among
    have enough :=
      one_le_of_handover disciplined member handover
        ((known _ _).mp here)
    exact Guard.letsThrough includes (findsValue_handoverGuard enough)
      debugBuild

/-- Where every report settles, the guards are balanced. -/
theorem balanced
    (lays : context.LaysHandovers debugBuild payload setException body
      woven layout)
    (includes : context.graph.IncludesSystem)
    (disciplined : body.widen.Disciplined context.graph returnsValue)
    (known : ∀ id depth,
      depths id = some depth ↔
        body.widen.Reached context.graph id depth)
    {deepest : Nat} (isDeepest : body.widen.IsDeepest context.graph deepest)
    (settles :
      context.SettlesHandovers returnsValue setException body.widen) :
    layout.Balanced context.graph (deepest + 2) returnsValue debugBuild
      depths body.widen.instructions where
  front := by
    rw [lays.front]
    nofun
  before := by
    intro instruction member depth here guard among
    obtain ⟨handover, rfl⟩ := lays.eq_of_mem_guardsBefore member among
    have reached := (known _ _).mp here
    have enough := one_le_of_handover disciplined member handover reached
    have room :=
      isDeepest.bounds instruction member depth reached depth (.inl rfl)
    exact Guard.balanced includes
      ((settles_handoverGuard_iff enough).mpr
        (settles instruction member handover depth reached))
      (findsValue_handoverGuard enough) (by omega) (fun _ => by omega)
      nofun

/-- In a disciplined new body every report settles. -/
theorem settles_of_disciplined
    (lays : context.LaysHandovers debugBuild payload setException body
      woven layout)
    (includes : context.graph.IncludesSystem)
    (disciplined : body.widen.Disciplined context.graph returnsValue)
    (known : ∀ id depth,
      depths id = some depth ↔
        body.widen.Reached context.graph id depth)
    (wovenDisciplined :
      woven.widen.Disciplined context.graph returnsValue) :
    context.SettlesHandovers returnsValue setException body.widen := by
  intro point here handover depth reached
  obtain ⟨original, there, rfl⟩ := List.mem_map.mp here
  have enough := one_le_of_handover disciplined here handover reached
  rw [Instruction.withForm, Graph.isHandover_withForm] at handover
  obtain ⟨start, row⟩ := lays.before_eq there handover
  have through := lays.letsThrough includes disciplined known
  have entered :=
    lays.describes.reached_entrance through known reached
  rw [Instruction.id_withForm, GuardLayout.entrance, row] at entered
  obtain ⟨earlier, later, split⟩ := List.append_of_mem here
  obtain ⟨front, stands, -⟩ := lays.describes.block_stands split
  rw [Instruction.id_withForm, row, GuardRow.code_cons,
    GuardRow.code_nil, List.append_nil] at stands
  exact (settles_handoverGuard_iff enough).mp
    (PlacedGuard.settles_of_disciplined stands
      (Guard.letsThrough includes (findsValue_handoverGuard enough)
        debugBuild)
      entered includes (findsValue_handoverGuard enough)
      wovenDisciplined)

end LaysHandovers

theorem settlesHandovers_widen :
    context.SettlesHandovers returnsValue setException body.widen ↔
      context.SettlesHandovers returnsValue setException body := by
  simp [SettlesHandovers, widenBranches, Instruction.withForm,
    Graph.isHandover_withForm]

/--
A state machine that passes the check of its depths passes it with its guards
exactly if every report of a failure settles.
-/
theorem checkDepths_guardHandovers
    (includes : context.graph.IncludesSystem) (debugBuild : Bool)
    (payload : Signature) (setException : MethodId)
    (wellFormed : body.WellFormed) {deepest : Nat}
    (checked :
      body.checkDepths context.graph returnsValue = .ok deepest) :
    (∃ deeper,
      (context.guardHandovers debugBuild payload setException
        body).finish.checkDepths context.graph returnsValue =
          .ok deeper) ↔
      context.SettlesHandovers returnsValue setException body := by
  obtain ⟨layout, lays⟩ :=
    context.exists_layout_handovers debugBuild payload setException
      wellFormed
  have distinct := lays.describes.distinct
  rw [← MethodBody.checkDepths_widen] at checked
  obtain ⟨disciplined, isDeepest⟩ :=
    MethodBody.checkDepths_sound wellFormed.widen.distinct checked
  obtain ⟨depths, known⟩ := disciplined.exists_depths
  rw [← settlesHandovers_widen, ← MethodBody.checkDepths_widen]
  constructor
  · rintro ⟨deeper, accepted⟩
    exact lays.settles_of_disciplined includes disciplined known
      (MethodBody.checkDepths_sound distinct accepted).1
  · intro settles
    have balanced :=
      lays.balanced includes disciplined known isDeepest settles
    exact MethodBody.checkDepths_accepts distinct
      (lays.describes.disciplined disciplined known balanced)

end MethodContext

namespace Weaver

/--
Weaving an asynchronous method puts a new body in place of each state machine
that can report a failure.  Where the old body passed the check of its depths,
the new one does exactly if, wherever the old one handed a value over, the
report finds on the stack what it takes and leaves what is returned.
-/
theorem weaveMethod_checks_handovers
    (settings : Settings) (context : MethodContext) (body : MethodBody)
    (state final : WeaveState)
    (includes : context.graph.IncludesSystem)
    (resolved : NullPolicy.resolve context.graph settings
      context.method = .ok context.policy)
    (visible :
      context.policy.isVisible context.graph context.decl = true)
    (present : state.bodies.get? context.method = some body)
    (ran :
      (weaveMethod context.graph settings context.method).run state =
        (.ok (), final))
    (moveNext setException : MethodId) (old : MethodBody)
    (machine : context.IsMoveNext (context.machineTypes body) moveNext)
    (there : state.bodies.get? moveNext = some old)
    (reports : context.graph.faultReport? old = some setException)
    (wellFormed : old.WellFormed) (returnsValue : Bool) (deepest : Nat)
    (checked :
      old.checkDepths context.graph returnsValue = .ok deepest) :
    ∃ woven, final.bodies.get? moveNext = some woven ∧
      ((∃ deeper,
          woven.checkDepths context.graph returnsValue = .ok deeper) ↔
        ∀ point ∈ old.instructions,
          context.graph.isHandover point.operation = true →
            ∀ depth, old.Reached context.graph point.id depth →
              context.graph.Settles returnsValue setException depth) := by
  rw [run_weaveMethod_of_visible resolved visible present] at ran
  obtain ⟨progress, made, bodies⟩ := exists_hasMade_of_run ran
  rw [bodies, made.get?_of_reports machine there reports]
  exact ⟨_, rfl, context.checkDepths_guardHandovers includes
    settings.debugBuild _ setException wellFormed checked⟩

end Weaver

namespace TwoMachines

/-- A state machine that keeps a number under what it hands over. -/
def moveNextKeeping : MethodBody :=
  MethodBody.append {}
    [.ldcI4 1, .ldNull, .ldNull, .call ⟨9⟩, .pop,
      .ldNull, .ldNull, .call ⟨10⟩, .ret]

theorem includesSystem : context.graph.IncludesSystem :=
  Graph.includesSystem_of_append rfl

end TwoMachines

open TwoMachines in
theorem Weaver.weaveMethod_checks_handovers_twoMachines :
    ∃ (final : WeaveState) (woven : MethodBody),
      (weaveMethod graph {} context.method).run (stateRunning moveNext) =
          (.ok (), final) ∧
        moveNext.checkDepths graph false = .ok 2 ∧
        final.bodies.get? ⟨14⟩ = some woven ∧
        ∃ deeper, woven.checkDepths graph false = .ok deeper := by
  have ran :=
    run_eq_of_isOk
      (show ((weaveMethod graph {} context.method).run
        (stateRunning moveNext)).1.isOk = true by decide +kernel)
  have wellFormed : moveNext.WellFormed :=
    ⟨by decide, by decide, rfl⟩
  have checked : moveNext.checkDepths graph false = .ok 2 := by
    rfl
  have machine :
      context.IsMoveNext (context.machineTypes bodyNamingTwice) ⟨14⟩ :=
    ⟨⟨18⟩, by decide +kernel, by decide +kernel, by decide +kernel⟩
  obtain ⟨woven, placed, passes⟩ :=
    weaveMethod_checks_handovers {} context bodyNamingTwice
      (stateRunning moveNext) _ includesSystem rfl (by decide +kernel) rfl ran
      ⟨14⟩ ⟨10⟩ moveNext machine rfl (by decide +kernel) wellFormed false
      2 checked
  refine ⟨_, woven, ran, checked, placed, passes.mpr ?_⟩
  have disciplined :=
    (MethodBody.checkDepths_sound wellFormed.distinct checked).1
  have handover : ∀ point ∈ moveNext.instructions,
      context.graph.isHandover point.operation = true →
        point.id = ⟨2⟩ := by
    decide +kernel
  have first : moveNext.instructions =
      [] ++ ⟨⟨0⟩, .ldNull⟩ :: ⟨⟨1⟩, .ldNull⟩ ::
        moveNext.instructions.drop 2 := rfl
  have second : moveNext.instructions =
      [⟨⟨0⟩, .ldNull⟩] ++ ⟨⟨1⟩, .ldNull⟩ :: ⟨⟨2⟩, .call ⟨9⟩⟩ ::
        moveNext.instructions.drop 3 := rfl
  have called : moveNext.Reached graph ⟨2⟩ 2 :=
    .next second (.next first (.entry rfl) rfl) rfl
  intro point here hands depth reached
  rw [handover point here hands] at reached
  exact (Graph.settles_iff_of_void rfl rfl rfl depth).mpr
    (disciplined.consistent _ _ _ reached called)

open TwoMachines in
/-- A number under what is handed over is still there when the guard returns. -/
theorem Weaver.not_checks_handovers_keeping :
    ∃ (final : WeaveState) (woven : MethodBody) (failure : CodeError),
      (weaveMethod graph {} context.method).run
          (stateRunning moveNextKeeping) = (.ok (), final) ∧
        moveNextKeeping.checkDepths graph false = .ok 3 ∧
        final.bodies.get? ⟨14⟩ = some woven ∧
        woven.checkDepths graph false = .error failure := by
  have ran :=
    run_eq_of_isOk
      (show ((weaveMethod graph {} context.method).run
        (stateRunning moveNextKeeping)).1.isOk = true by decide +kernel)
  have fails :
      (((weaveMethod graph {} context.method).run
        (stateRunning moveNextKeeping)).2.bodies.get? ⟨14⟩).map
          (fun woven => (woven.checkDepths graph false).isOk) =
        some false := by
    decide +kernel
  obtain ⟨woven, placed, failed⟩ := Option.map_eq_some_iff.mp fails
  cases result : woven.checkDepths graph false with
  | error failure =>
      exact ⟨_, woven, failure, ran, rfl, placed, result⟩
  | ok deepest =>
      rw [result] at failed
      cases failed

end NullWeave
