import NullWeave.Proofs.Code.OperationCount
import NullWeave.Proofs.Weave.HandoverGuards
import NullWeave.Proofs.Weave.Recognition

/-!
# Returns of methods that start a state machine

The method that starts a state machine returns at once, and the values it
produces come later.  So what it returns is not checked, and only entry guards
are put into its body.

A getter is the exception.  The guards of accessors are put in whatever the
shape of the method, so a getter that starts a state machine has what it returns
checked before every return.
-/

namespace NullWeave

/-! ## Counting operations -/

/-- Does an operation construct the exception for a result that is null? -/
def Operation.constructsResultFailure : Operation → Bool
  | .newObj constructor =>
      constructor == SystemLibrary.invalidOperationInit
  | _ => false

theorem Operation.seesNoTarget_constructsResultFailure :
    SeesNoTarget constructsResultFailure where
  mapTargets _ operation := by
    cases operation <;> rfl
  withForm _ operation := by
    cases operation <;> rfl

section Counting

variable {test : Operation → Bool}

theorem length_positionsWhere (instructions : List Instruction) :
    (positionsWhere test instructions).length =
      countOperations test instructions := by
  induction instructions using List.reverseRecOn with
  | nil =>
      rfl
  | append_singleton front last inductionHypothesis =>
      rw [positionsWhere_append_singleton, countOperations_append,
        ← inductionHypothesis]
      cases tested : test last.operation <;>
        simp [countOperations, tested]

theorem lt_length_of_mem_positionsWhere
    {instructions : List Instruction} {position : Nat}
    (member : position ∈ positionsWhere test instructions) :
    position < instructions.length := by
  simp only [positionsWhere, List.mem_reverse, List.mem_filterMap]
    at member
  obtain ⟨⟨instruction, index⟩, listed, found⟩ := member
  have inside := (List.mem_zipIdx' listed).1
  split at found
  · cases found
    exact inside
  · cases found

/-- What a guard consists of does not depend on where it goes on. -/
theorem Guard.countP_operations
    (blind : Operation.SeesNoTarget test) (debugBuild : Bool)
    (guard : Guard) (next : InstrId) :
    (guard.operations debugBuild next).countP test =
      (guard.operations debugBuild .first).countP test := by
  rw [← guard.map_mapTargets_operations (fun _ => next) debugBuild .first,
    List.countP_map]
  simp [Function.comp_def, blind.mapTargets]

theorem countOperations_addExitGuard
    (blind : Operation.SeesNoTarget test) {guarded : GuardedBody}
    {position : Nat}
    (inside : position < guarded.body.instructions.length)
    (style : GuardStyle) (guard : Guard) :
    countOperations test
        (guarded.addExitGuard style position guard).body.instructions =
      countOperations test guarded.body.instructions +
        (guard.operations style.debugBuild .first).countP test := by
  obtain ⟨front, back, split, rfl⟩ :=
    exists_split_of_getElem? (List.getElem?_eq_getElem inside)
  obtain ⟨instructions, -⟩ :=
    GuardedBody.addExitGuard_of_split split style guard
  rw [instructions, countOperations_append, countOperations_append,
    PlacedGuard.code, countOperations_numberFrom,
    guard.countP_operations blind, countOperations_map_mapTargets blind,
    countOperations_map_mapTargets blind]
  conv_rhs => rw [split, countOperations_append]
  omega

/-- Guards put in at positions that are there add what each of them consists of. -/
theorem countOperations_foldl_addExitGuard
    (blind : Operation.SeesNoTarget test) (style : GuardStyle)
    (guard : Guard) {positions : List Nat} {guarded : GuardedBody}
    (inside : ∀ position ∈ positions,
      position < guarded.body.instructions.length) :
    countOperations test
        (positions.foldl
          (fun guarded position =>
            guarded.addExitGuard style position guard)
          guarded).body.instructions =
      countOperations test guarded.body.instructions +
        positions.length *
          (guard.operations style.debugBuild .first).countP test := by
  induction positions generalizing guarded with
  | nil =>
      simp
  | cons position rest inductionHypothesis =>
      rw [List.forall_mem_cons] at inside
      obtain ⟨here, later⟩ := inside
      -- A body never gets shorter, so positions that were there stay there.
      have blindToAll : Operation.SeesNoTarget fun _ => true :=
        ⟨fun _ _ => rfl, fun _ _ => rfl⟩
      have grows :=
        countOperations_addExitGuard blindToAll here style guard
      simp only [countOperations, List.countP_true] at grows
      rw [List.foldl_cons,
        inductionHypothesis fun other member => by
          have before := later other member
          omega,
        countOperations_addExitGuard blind here, List.length_cons,
        Nat.add_mul]
      omega

end Counting

/-! ## Bodies with guards in front only -/

namespace GuardRow

/-- A body is an original body with a row of guards in front of it. -/
structure Fronts
    (row : GuardRow) (debugBuild : Bool)
    (original guarded : MethodBody) : Prop where
  instructions :
    guarded.instructions =
      GuardLayout.frontCode { front := row } debugBuild
          original.instructions ++
        original.instructions
  handlers : guarded.handlers = original.handlers

theorem fronts_self (debugBuild : Bool) (body : MethodBody) :
    Fronts [] debugBuild body body where
  instructions := by
    cases body.instructions <;> rfl
  handlers := rfl

/-- A body may get one more guard in front of the others. -/
theorem Fronts.enter
    {row : GuardRow} {style : GuardStyle} {original : MethodBody}
    {guarded next : GuardedBody} {guard? : Option Guard}
    (fronts : row.Fronts style.debugBuild original guarded.body)
    (step : next.body =
      match guard? with
      | none => guarded.body
      | some guard => (guarded.addEntryGuard style guard).body)
    (inhabited : guard?.isSome → guarded.body.firstId?.isSome) :
    ∃ entered : GuardRow,
      entered.Fronts style.debugBuild original next.body ∧
        entered.map (·.guard) =
          guard?.toList ++ row.map (·.guard) := by
  cases guard? with
  | none =>
      exact ⟨row, step ▸ fronts, rfl⟩
  | some guard =>
      have present := inhabited rfl
      have instructions := fronts.instructions
      cases whole : original.instructions with
      | nil =>
          rw [whole] at instructions
          rw [MethodBody.firstId?, instructions] at present
          cases present
      | cons first rest =>
          rw [whole] at instructions
          have head := row.head?_code_append style.debugBuild first rest
          change ((GuardLayout.frontCode { front := row }
            style.debugBuild (first :: rest) ++
              first :: rest).head?).map (·.id) = _ at head
          rw [← instructions] at head
          cases split : guarded.body.instructions with
          | nil =>
              rw [split] at head
              cases head
          | cons entry others =>
              have entryId : entry.id = row.entrance first.id := by
                simpa [split] using head
              obtain ⟨added, handlers, -⟩ :=
                GuardedBody.addEntryGuard_of_cons split style guard
              refine ⟨⟨guard, guarded.body.nextId⟩ :: row, ⟨?_, ?_⟩, rfl⟩
              · rw [step, added, instructions, entryId, whole,
                  ← List.append_assoc]
                rfl
              · rw [step, handlers, fronts.handlers]

/-- A guard in front constructs no exception for a result, and does not return. -/
theorem Fronts.countOperations_eq
    {row : GuardRow} {debugBuild : Bool} {original guarded : MethodBody}
    (fronts : row.Fronts debugBuild original guarded)
    {test : Operation → Bool} (quiet : row.Quiet debugBuild test) :
    countOperations test guarded.instructions =
      countOperations test original.instructions := by
  have silent :
      countOperations test
          (GuardLayout.frontCode { front := row } debugBuild
            original.instructions) =
        0 := by
    cases original.instructions with
    | nil =>
        rfl
    | cons first rest =>
        refine List.countP_eq_zero.mpr fun instruction member => ?_
        rw [quiet.code first.id instruction member]
        exact Bool.false_ne_true
  rw [fronts.instructions, countOperations_append, silent, Nat.zero_add]

end GuardRow

/-! ## Methods that start a state machine -/

namespace MethodContext

variable
    {context : MethodContext} {settings : Settings} {body : MethodBody}

/-- Does a method start a state machine and still have what it returns checked? -/
def ChecksOuterReturn (context : MethodContext) : Prop :=
  context.decl.isGetter = true ∧
    context.policy.checksResult context.graph context.decl
      context.decl.returnType = true

instance (context : MethodContext) : Decidable context.ChecksOuterReturn :=
  inferInstanceAs (Decidable (_ ∧ _))

theorem exists_fronts_guardArguments
    (context : MethodContext) {row : GuardRow} {style : GuardStyle} {original : MethodBody}
    {guarded : GuardedBody}
    (fronts : row.Fronts style.debugBuild original guarded.body)
    (entries : List (Parameter × Nat)) :
    ∃ entered : GuardRow,
      entered.Fronts style.debugBuild original
          (entries.foldl (context.guardArgument style) guarded).body ∧
        entered.map (·.guard) =
          context.argumentGuards style guarded entries ++
            row.map (·.guard) := by
  induction entries generalizing row guarded with
  | nil =>
      exact ⟨row, fronts, rfl⟩
  | cons entry rest inductionHypothesis =>
      obtain ⟨entered, frontsNext, guards⟩ :=
        fronts.enter (context.body_guardArgument style guarded entry)
          firstId?_of_argumentGuard?
      obtain ⟨final, frontsFinal, guardsFinal⟩ :=
        inductionHypothesis frontsNext
      refine ⟨final, frontsFinal, ?_⟩
      rw [guardsFinal, guards, argumentGuards, List.append_assoc]

/-- Before its accessor guards, the body of such a method has guards in front only. -/
theorem exists_fronts_beforeAccessor
    (settings : Settings) (body : MethodBody)
    (machine : context.shape ≠ .plain) :
    ∃ row : GuardRow,
      row.Fronts settings.debugBuild body.widen
          (context.guardBeforeAccessor settings body).body ∧
        row.map (·.guard) = context.earlyEntryGuards settings body := by
  rw [guardBeforeAccessor, if_neg machine]
  unfold guardEntry earlyEntryGuards
  cases context.policy.flags.arguments with
  | false =>
      exact ⟨[], GuardRow.fronts_self settings.debugBuild body.widen, rfl⟩
  | true =>
      have start :
          GuardRow.Fronts [] (style settings body).debugBuild body.widen
            ({ body := body.widen } : GuardedBody).body :=
        GuardRow.fronts_self settings.debugBuild body.widen
      obtain ⟨row, fronts, guards⟩ :=
        context.exists_fronts_guardArguments start
          context.decl.parameters.zipIdx.reverse
      exact ⟨row, fronts, by simpa using guards⟩

/-- Where what it returns is not checked, such a method gets guards in front only. -/
theorem exists_fronts_guardBody
    (settings : Settings) (body : MethodBody)
    (machine : context.shape ≠ .plain)
    (unchecked : ¬ context.ChecksOuterReturn) :
    ∃ row : GuardRow,
      row.Fronts settings.debugBuild body.widen
          (context.guardBody settings body).body ∧
        row.map (·.guard) = context.entryGuards settings body := by
  obtain ⟨row, fronts, guards⟩ :=
    context.exists_fronts_beforeAccessor settings body machine
  rw [guardBody_eq, guardAccessor]
  cases setter : context.decl.isSetter with
  | true =>
      have fronts :
          row.Fronts (style settings body).debugBuild body.widen
            (context.guardBeforeAccessor settings body).body := fronts
      obtain ⟨entered, frontsEntered, guardsEntered⟩ :=
        fronts.enter
          (context.body_guardSetterValue (style settings body)
            (context.guardBeforeAccessor settings body))
          firstId?_of_setterGuard?
      refine ⟨entered, frontsEntered, ?_⟩
      rw [guardsEntered, guards]
      rfl
  | false =>
      rw [entryGuards_of_not_isSetter setter]
      cases getter : context.decl.isGetter with
      | false =>
          exact ⟨row, fronts, guards⟩
      | true =>
          have free :
              context.policy.checksResult context.graph context.decl
                context.decl.returnType = false :=
            Bool.eq_false_iff.mpr fun checked => unchecked ⟨getter, checked⟩
          refine ⟨row, ?_, guards⟩
          simpa [guardGetterResult, free] using fronts

/-- No guard constructs the exception for a result before its test. -/
theorem constructsResultFailure_loading
    (debugBuild : Bool) (guard : Guard) :
    ∀ operation ∈ guard.loading debugBuild,
      operation.constructsResultFailure = false := by
  intro operation member
  have other :=
    guard.constructsWith_loading default debugBuild operation member
      SystemLibrary.invalidOperationInit
  cases operation with
  | newObj constructor =>
      rw [Operation.constructsResultFailure, beq_eq_false_iff_ne]
      rintro rfl
      simp [constructsWith] at other
  | _ =>
      rfl

/-- An entry guard neither constructs the exception for a result nor returns. -/
theorem quiet_entryGuards
    {row : GuardRow}
    (guards : row.map (·.guard) = context.entryGuards settings body)
    {test : Operation → Bool}
    (kind : test = Operation.isRet ∨
      test = Operation.constructsResultFailure) :
    row.Quiet settings.debugBuild test := by
  rcases kind with rfl | rfl
  · exact GuardRow.quiet_of_throws
      (guards ▸ context.exit_entryGuards settings body) _
  · intro placed member next operation here
    have among : placed.guard ∈ context.entryGuards settings body :=
      guards ▸ List.mem_map_of_mem member
    obtain ⟨index, parameter, message, guard⟩ :=
      context.exists_of_mem_entryGuards among
    rw [Guard.operations_eq, guard] at here
    rcases List.mem_append.mp here with loading | rest
    · exact constructsResultFailure_loading _ _ operation loading
    · simp only [Guard.failing, argumentGuard, GuardedValue.discard,
        GuardFailure.construct, GuardExit.leave, List.mem_cons,
        List.mem_append, List.not_mem_nil, or_false, false_or] at rest
      rcases rest with rfl | (rfl | rfl | rfl) | rfl <;> rfl

/-- The guard of a return value constructs the exception for it once. -/
theorem countP_resultGuard
    (debugBuild : Bool) (type : Signature) (message : String) :
    ((resultGuard type message .throw).operations debugBuild
        .first).countP Operation.constructsResultFailure = 1 := by
  have loading :
      ((resultGuard type message .throw).loading debugBuild).countP
        Operation.constructsResultFailure = 0 :=
    List.countP_eq_zero.mpr fun operation member => by
      rw [constructsResultFailure_loading _ _ operation member]
      exact Bool.false_ne_true
  rw [Guard.operations_eq, List.countP_append, loading]
  rfl

/-- A getter that starts a state machine gets one more such construction for each return. -/
theorem countOperations_guardBody
    (settings : Settings) (body : MethodBody)
    (machine : context.shape ≠ .plain) :
    countOperations Operation.constructsResultFailure
        (context.guardBody settings body).body.instructions =
      countOperations Operation.constructsResultFailure
          body.instructions +
        if context.ChecksOuterReturn then
          countOperations Operation.isRet body.instructions
        else
          0 := by
  have sameFailures :=
    countOperations_widenBranches
      Operation.seesNoTarget_constructsResultFailure body.instructions
  have sameReturns :=
    countOperations_widenBranches Operation.seesNoTarget_isRet
      body.instructions
  by_cases checked : context.ChecksOuterReturn
  · obtain ⟨getter, checks⟩ := checked
    have setter : context.decl.isSetter = false := by
      rw [Bool.eq_false_iff]
      intro setter
      rw [isGetter_of_isSetter setter] at getter
      cases getter
    obtain ⟨row, fronts, guards⟩ :=
      context.exists_fronts_beforeAccessor settings body machine
    rw [← entryGuards_of_not_isSetter setter] at guards
    have failures :=
      fronts.countOperations_eq (quiet_entryGuards guards (.inr rfl))
    have returns :=
      fronts.countOperations_eq (quiet_entryGuards guards (.inl rfl))
    have added :=
      countOperations_foldl_addExitGuard
        Operation.seesNoTarget_constructsResultFailure
        (style settings body)
        (resultGuard context.decl.returnType
          (getterMessage
            (context.graph.propertyName context.decl
              context.decl.returnType context.decl.parameters))
          .throw)
        (fun position
            (member : position ∈ positionsWhere Operation.isRet
              (context.guardBeforeAccessor settings
                body).body.instructions) =>
          lt_length_of_mem_positionsWhere member)
    rw [if_pos ⟨getter, checks⟩, guardBody_eq, guardAccessor, setter,
      getter, if_neg Bool.false_ne_true, if_pos rfl]
    simp only [guardGetterResult, checks, if_true, returnPositions]
    rw [added, countP_resultGuard, length_positionsWhere, failures,
      returns, MethodBody.instructions_widen, sameFailures, sameReturns,
      Nat.mul_one]
  · obtain ⟨row, fronts, guards⟩ :=
      context.exists_fronts_guardBody settings body machine checked
    rw [fronts.countOperations_eq (quiet_entryGuards guards (.inr rfl)),
      MethodBody.instructions_widen, sameFailures, if_neg checked,
      Nat.add_zero]

/-- Giving other forms to branches leaves the guards in front where they are. -/
theorem fronts_wovenBody
    {row : GuardRow}
    (fronts : row.Fronts settings.debugBuild body.widen
      (context.guardBody settings body).body) :
    row.Fronts settings.debugBuild body.widen
      (context.wovenBody settings body).widen where
  instructions := by
    have wide :
        widenBranches
            (GuardLayout.frontCode { front := row } settings.debugBuild
              body.widen.instructions) =
          GuardLayout.frontCode { front := row } settings.debugBuild
            body.widen.instructions := by
      cases body.widen.instructions with
      | nil =>
          rfl
      | cons first rest =>
          exact GuardLayout.widenBranches_rowCode settings.debugBuild row
            first.id
    rw [MethodBody.instructions_widen, widenBranches_wovenBody,
      fronts.instructions, GuardLayout.widenBranches_append, wide,
      MethodBody.instructions_widen, widenBranches_widenBranches]
  handlers := fronts.handlers

end MethodContext

namespace Weaver

/--
The returns of a method that starts a state machine are guarded only if it is a
getter whose result is checked.

Otherwise nothing but entry guards is put into its body.  Such a getter gets its
guard before every return, so exactly then, if it returns at all, its new body
constructs more exceptions for results than the old one.
-/
theorem weaveMethod_guards_outer_returns
    (settings : Settings) (context : MethodContext) (body : MethodBody)
    (state final : WeaveState)
    (resolved : NullPolicy.resolve context.graph settings
      context.method = .ok context.policy)
    (visible :
      context.policy.isVisible context.graph context.decl = true)
    (machine : context.shape ≠ .plain)
    (present : state.bodies.get? context.method = some body)
    (ran :
      (weaveMethod context.graph settings context.method).run state =
        (.ok (), final)) :
    ∃ woven : MethodBody,
      (∃ machines : List (MethodId × MethodBody),
        final.bodies =
          machines.foldl
            (fun bodies entry => bodies.set entry.1 entry.2)
            (state.bodies.set context.method woven)) ∧
      (¬ context.IsMoveNext (context.machineTypes body)
          context.method →
        final.bodies.get? context.method = some woven) ∧
      (¬ context.ChecksOuterReturn →
        ∃ row : GuardRow,
          row.map (·.guard) = context.entryGuards settings body ∧
            row.Fronts settings.debugBuild body.widen woven.widen) ∧
      (context.ChecksOuterReturn → body.WellFormed →
        ∃ layout : GuardLayout,
          layout.Describes settings.debugBuild body.widen woven.widen ∧
            layout.front.map (·.guard) =
              context.entryGuards settings body ∧
            ∀ instruction ∈ body.instructions,
              layout.guardsBefore instruction.id =
                if instruction.operation.isRet then
                  [MethodContext.resultGuard context.decl.returnType
                    context.resultMessage .throw]
                else
                  []) ∧
      (countOperations Operation.constructsResultFailure
            woven.instructions =
          countOperations Operation.constructsResultFailure
            body.instructions ↔
        ¬ (context.ChecksOuterReturn ∧
            0 < countOperations Operation.isRet
              body.instructions)) := by
  rw [run_weaveMethod_of_visible resolved visible present] at ran
  obtain ⟨progress, made, bodies⟩ := exists_hasMade_of_run ran
  refine ⟨context.wovenBody settings body, ⟨progress.pending, bodies⟩, ?_,
    ?_, ?_, ?_⟩
  · intro other
    rw [bodies, made.get?_of_not_reports fun moveNext =>
      absurd moveNext other, Bodies.get?_set_self]
  · intro unchecked
    obtain ⟨row, fronts, guards⟩ :=
      context.exists_fronts_guardBody settings body machine unchecked
    exact ⟨row, guards, MethodContext.fronts_wovenBody fronts⟩
  · rintro ⟨getter, checked⟩ wellFormed
    obtain ⟨layout, lays⟩ := context.exists_layout settings wellFormed
    have exits :
        context.exitGuards =
          [MethodContext.resultGuard context.decl.returnType
            context.resultMessage .throw] := by
      rw [MethodContext.exitGuards, if_neg machine, if_pos getter,
        MethodContext.returnGuards, if_pos checked]
    refine ⟨layout, lays.woven, lays.front, ?_⟩
    rw [← exits]
    exact lays.before
  · have blind := Operation.seesNoTarget_constructsResultFailure
    rw [← countOperations_widenBranches blind
        (context.wovenBody settings body).instructions,
      context.widenBranches_wovenBody,
      countOperations_widenBranches blind,
      context.countOperations_guardBody settings body machine]
    by_cases checked : context.ChecksOuterReturn <;> simp [checked]

end Weaver

/-! ## A getter that starts an iterator -/

namespace IteratorGetter

/-- A getter whose items are produced by an iterator. -/
def graph : Graph where
  types :=
    Graph.system.types.push
      { name := "Sample", access := { isPublic := true } }
  methods :=
    Graph.system.methods.push
      { owner := ⟨17⟩
        name := "get_Items"
        access := { isPublic := true, specialName := true }
        returnType := .named SystemLibrary.object
        attributes := [{ name := Attribute.iteratorStateMachine }] }

def context : MethodContext where
  graph
  method := ⟨13⟩
  policy := { flags := .allPublic, explicitMode := false }

def body : MethodBody :=
  MethodBody.append {} [.ldStr "items", .ret]

def state : WeaveState where
  bodies := ({} : Bodies).set ⟨13⟩ body

end IteratorGetter

open IteratorGetter in
theorem Weaver.weaveMethod_guards_outer_returns_iterator :
    ∃ (final : WeaveState) (woven : MethodBody),
      (weaveMethod graph {} context.method).run state =
          (.ok (), final) ∧
        final.bodies.get? context.method = some woven ∧
        context.shape = .iteratorStateMachine ∧
        ∃ layout : GuardLayout,
          layout.Describes false body.widen woven.widen ∧
            layout.front = [] ∧
            (layout.guardsBefore ⟨1⟩).map (·.message) =
              ["[NullGuard] Return value of property " ++
                "'System.Object Sample::Items()' is null."] := by
  have ran :=
    run_eq_of_isOk
      (show ((weaveMethod graph {} context.method).run state).1.isOk =
        true by decide +kernel)
  have checked : context.ChecksOuterReturn := by
    decide +kernel
  have locals : context.machineTypes body = [] := by
    decide +kernel
  obtain ⟨woven, -, placed, -, guarded, -⟩ :=
    weaveMethod_guards_outer_returns {} context body state _ rfl
      (by decide +kernel) (by decide +kernel) rfl ran
  obtain ⟨layout, described, front, before⟩ :=
    guarded checked ⟨by decide, by decide, rfl⟩
  refine ⟨_, woven, ran, placed ?_, by decide +kernel, layout, described,
    ?_, ?_⟩
  · rw [locals]
    rintro ⟨type, member, -⟩
    cases member
  · rw [← List.map_eq_nil_iff (f := (·.guard)), front,
      ← List.length_eq_zero_iff]
    decide +kernel
  · have last : body.instructions[1]? = some ⟨⟨1⟩, .ret⟩ := rfl
    rw [before ⟨⟨1⟩, .ret⟩ (List.mem_of_getElem? last)]
    decide +kernel

open IteratorGetter in
/-- What a getter returns is checked even if the getter only starts an iterator. -/
theorem Weaver.outer_returns_guarded_iterator :
    ∃ (final : WeaveState) (woven : MethodBody),
      (weaveMethod graph {} context.method).run state =
          (.ok (), final) ∧
        final.bodies.get? context.method = some woven ∧
        context.shape = .iteratorStateMachine ∧
        countOperations Operation.constructsResultFailure
          body.instructions = 0 ∧
        countOperations Operation.constructsResultFailure
          woven.instructions = 1 := by
  have ran :=
    run_eq_of_isOk
      (show ((weaveMethod graph {} context.method).run state).1.isOk =
        true by decide +kernel)
  have constructed :
      (((weaveMethod graph {} context.method).run
        state).2.bodies.get? context.method).map
          (fun woven =>
            countOperations Operation.constructsResultFailure
              woven.instructions) = some 1 := by
    decide +kernel
  obtain ⟨woven, placed, counted⟩ := Option.map_eq_some_iff.mp constructed
  exact ⟨_, woven, ran, placed, by decide +kernel, by decide, counted⟩

end NullWeave
