import NullWeave.Proofs.Weave.GuardingStep
import NullWeave.Weave.MethodContext

/-!
# The layout of a woven method

Weaving a method guards its body by one row in front and by the same row of
guards before every return.  The row before a return holds the guards of the
`out` parameters, in the order of the parameters, and then the guard of the
return value; the getter of a property has the latter in every shape of method,
anything else only in a plain one.

The main statement says so for every body: there is a layout that describes the
guarded body, and the guards in it are these.
-/

namespace NullWeave

namespace MethodContext

/-! ## The guards of a method -/

/-- The guard of an `out` parameter. -/
def outGuard
    (context : MethodContext) (entry : Parameter × Nat) : Guard where
  subject :=
    .argument (context.decl.argumentSlot entry.2) entry.1.type
  message := outMessage entry.1.name
  failure := .invalidOperation

/-- The guards of the `out` parameters that are checked, in order. -/
def outGuards (context : MethodContext) : List Guard :=
  (context.decl.parameters.zipIdx.filter fun entry =>
    context.policy.checksOut context.graph entry.1).map context.outGuard

/-- What the guard of the return value says. -/
def resultMessage (context : MethodContext) : String :=
  if context.decl.isGetter then
    getterMessage
      (context.graph.propertyName context.decl
        context.decl.returnType context.decl.parameters)
  else
    returnMessage context.name

/-- The guard of the return value, if it is checked. -/
def returnGuards (context : MethodContext) : List Guard :=
  if context.policy.checksResult context.graph context.decl
      context.decl.returnType then
    [resultGuard context.decl.returnType context.resultMessage .throw]
  else
    []

/-- The guards before every return, in the order in which they run. -/
def exitGuards (context : MethodContext) : List Guard :=
  if context.shape = .plain then
    context.outGuards ++ context.returnGuards
  else if context.decl.isGetter then
    context.returnGuards
  else
    []

/-- The guard that a visit to a parameter puts in front of a body. -/
def argumentGuard?
    (context : MethodContext) (guarded : MethodBody)
    (entry : Parameter × Nat) : Option Guard :=
  if guarded.firstId?.isSome &&
      context.policy.checksArgument context.graph entry.1 &&
      context.decl.setterValueIndex? != some entry.2 &&
      !guarded.alreadyGuards context.graph entry.1.name then
    some (context.argumentGuard entry.2 entry.1
      (argumentMessage entry.1.name))
  else
    none

/-- The guards that visits to parameters put in front, the last one first. -/
def argumentGuards
    (context : MethodContext) (style : GuardStyle) :
    GuardedBody → List (Parameter × Nat) → List Guard
  | _, [] => []
  | guarded, entry :: rest =>
      context.argumentGuards style
          (context.guardArgument style guarded entry) rest ++
        (context.argumentGuard? guarded.body entry).toList

/-- The guard that the value given to a setter gets in front of a body. -/
def setterGuard?
    (context : MethodContext) (guarded : MethodBody) : Option Guard :=
  let decl := context.decl
  (decl.setterValueIndex?.bind fun index =>
      (decl.parameters[index]?).map (·, index)).bind
    fun (value, index) =>
      if guarded.firstId?.isSome &&
          context.policy.flags.arguments &&
          context.policy.checksArgument context.graph value &&
          !guarded.alreadyGuards context.graph value.name then
        some (context.argumentGuard index value
          (setterMessage
            (context.graph.propertyName decl value.type
              (decl.parameters.take index))))
      else
        none

/-- The body with its parameters and the results of a plain method checked. -/
def guardBeforeAccessor
    (context : MethodContext) (settings : Settings)
    (body : MethodBody) : GuardedBody :=
  let entered := context.guardEntry settings body
  if context.shape = .plain then
    context.guardReturns (style settings body) entered
  else
    entered

/-- The guards in front of a body, in the order in which they run. -/
def entryGuards
    (context : MethodContext) (settings : Settings)
    (body : MethodBody) : List Guard :=
  (context.setterGuard?
      (context.guardBeforeAccessor settings body).body).toList ++
    if context.policy.flags.arguments then
      context.argumentGuards (style settings body)
        { body := body.widen } context.decl.parameters.zipIdx.reverse
    else
      []

/-! ## Guards at the entry -/

theorem body_guardArgument
    (context : MethodContext) (style : GuardStyle)
    (guarded : GuardedBody) (entry : Parameter × Nat) :
    (context.guardArgument style guarded entry).body =
      match context.argumentGuard? guarded.body entry with
      | none => guarded.body
      | some guard => (guarded.addEntryGuard style guard).body := by
  obtain ⟨parameter, index⟩ := entry
  cases inhabited : guarded.body.firstId? with
  | none =>
      have empty : ∀ guard : Guard,
          guarded.addEntryGuard style guard = guarded := by
        intro guard
        simp [GuardedBody.addEntryGuard, inhabited]
      simp only [guardArgument, argumentGuard?, inhabited, empty]
      split <;> (try split) <;> (try split) <;> simp
  | some first =>
      simp only [guardArgument, argumentGuard?, inhabited,
        Option.isSome_some, Bool.true_and, bne, Bool.and_eq_true]
      split
      · simp_all
      · split
        · simp_all
        · split
          · simp_all
          · simp_all

theorem body_guardSetterValue
    (context : MethodContext) (style : GuardStyle)
    (guarded : GuardedBody) :
    (context.guardSetterValue style guarded).body =
      match context.setterGuard? guarded.body with
      | none => guarded.body
      | some guard => (guarded.addEntryGuard style guard).body := by
  simp only [guardSetterValue, setterGuard?]
  cases value : context.decl.setterValueIndex?.bind fun index =>
      (context.decl.parameters[index]?).map (·, index) with
  | none =>
      rfl
  | some entry =>
      simp only [Option.bind_some, Bool.and_assoc]
      cases inhabited : guarded.body.firstId? with
      | none =>
          simp only [GuardedBody.addEntryGuard, inhabited]
          split <;> simp
      | some first =>
          simp only [Option.isSome_some, Bool.true_and]
          split <;> rfl

theorem firstId?_of_argumentGuard?
    {context : MethodContext} {guarded : MethodBody}
    {entry : Parameter × Nat}
    (present : (context.argumentGuard? guarded entry).isSome) :
    guarded.firstId?.isSome := by
  by_contra missing
  simp [argumentGuard?, missing] at present

theorem firstId?_of_setterGuard?
    {context : MethodContext} {guarded : MethodBody}
    (present : (context.setterGuard? guarded).isSome) :
    guarded.firstId?.isSome := by
  by_contra missing
  simp [setterGuard?, missing] at present

end MethodContext

namespace GuardLayout

/-- A body may get one more guard in front of all. -/
theorem Describes.enter
    {layout : GuardLayout} {style : GuardStyle}
    {original : MethodBody} {guarded next : GuardedBody}
    {guard? : Option Guard}
    (described :
      layout.Describes style.debugBuild original guarded.body)
    (step : next.body =
      match guard? with
      | none => guarded.body
      | some guard => (guarded.addEntryGuard style guard).body)
    (inhabited : guard?.isSome → guarded.body.firstId?.isSome) :
    ∃ entered : GuardLayout,
      entered.Describes style.debugBuild original next.body ∧
        entered.front.map (·.guard) =
          guard?.toList ++ layout.front.map (·.guard) ∧
        entered.before = layout.before := by
  cases guard? with
  | none =>
      exact ⟨layout, step ▸ described, rfl, rfl⟩
  | some guard =>
      have nonempty : original.instructions ≠ [] := by
        intro empty
        have first := inhabited rfl
        rw [MethodBody.firstId?, described.instructions, empty] at first
        simp [code, frontCode] at first
      have added := described.addEntryGuard nonempty guard
      exact ⟨layout.putFront ⟨guard, guarded.body.nextId⟩,
        step ▸ added, rfl, rfl⟩

end GuardLayout

namespace MethodContext

section Steps

variable
    (context : MethodContext)
    {layout : GuardLayout} {style : GuardStyle}
    {original : MethodBody} {guarded : GuardedBody}

theorem describes_guardArguments
    (described :
      layout.Describes style.debugBuild original guarded.body)
    (entries : List (Parameter × Nat)) :
    ∃ entered : GuardLayout,
      entered.Describes style.debugBuild original
          (entries.foldl (context.guardArgument style) guarded).body ∧
        entered.front.map (·.guard) =
          context.argumentGuards style guarded entries ++
            layout.front.map (·.guard) ∧
        entered.before = layout.before := by
  induction entries generalizing layout guarded with
  | nil =>
      exact ⟨layout, described, rfl, rfl⟩
  | cons entry rest inductionHypothesis =>
      obtain ⟨entered, describedNext, front, before⟩ :=
        described.enter
          (context.body_guardArgument style guarded entry)
          firstId?_of_argumentGuard?
      obtain ⟨final, describedFinal, frontFinal, beforeFinal⟩ :=
        inductionHypothesis describedNext
      refine ⟨final, describedFinal, ?_, beforeFinal.trans before⟩
      rw [frontFinal, front, argumentGuards, List.append_assoc]

/-! ## Guards before one return -/

theorem describes_guardOuts
    (described :
      layout.Describes style.debugBuild original guarded.body)
    (wellFormed : original.WellFormed)
    {earlier later : List Instruction} {point : Instruction}
    (split : original.instructions = earlier ++ point :: later)
    (entries : List (Parameter × Nat)) :
    let place :=
      layout.offset style.debugBuild original.instructions earlier
    ∃ row : GuardRow,
      row.map (·.guard) =
          (entries.filter fun entry =>
            context.policy.checksOut context.graph entry.1).map
              context.outGuard ++
            layout.guardsBefore point.id ∧
        (layout.put point.id row).Describes style.debugBuild original
          (entries.foldr
            (fun entry current =>
              context.guardOut style place current entry)
            guarded).body := by
  intro place
  induction entries with
  | nil =>
      refine ⟨layout.before point.id, rfl, ?_⟩
      rw [GuardLayout.put_before_self]
      exact described
  | cons entry rest inductionHypothesis =>
      obtain ⟨row, guards, describedRest⟩ := inductionHypothesis
      cases checked :
          context.policy.checksOut context.graph entry.1 with
      | false =>
          refine ⟨row, by simp [checked, guards], ?_⟩
          simpa [guardOut, checked] using describedRest
      | true =>
          have added :=
            describedRest.prependGuard wellFormed split
              (context.outGuard entry)
          rw [GuardLayout.offset_put _ _ wellFormed split,
            GuardLayout.put_put, GuardLayout.before_put_self] at added
          have step : ∀ current : GuardedBody,
              context.guardOut style place current entry =
                current.addExitGuard style place
                  (context.outGuard entry) := by
            intro current
            rw [guardOut, if_pos checked]
            rfl
          rw [List.foldr_cons, step]
          refine ⟨_, ?_, added⟩
          simp [checked, guards]

/-- The guards that a visit to a return puts before it; getters come later. -/
def plainGuards (context : MethodContext) : List Guard :=
  context.outGuards ++
    if context.decl.isGetter then [] else context.returnGuards

/-- The body with its result checked before one return, unless a getter hands it out. -/
def guardResult
    (context : MethodContext) (style : GuardStyle)
    (guarded : GuardedBody) (point : Nat) : GuardedBody :=
  if !context.decl.isGetter &&
      context.policy.checksResult context.graph context.decl
        context.decl.returnType then
    guarded.addExitGuard style point
      (resultGuard context.decl.returnType
        (returnMessage context.name) .throw)
  else
    guarded

theorem guardReturn_eq
    (context : MethodContext) (style : GuardStyle)
    (guarded : GuardedBody) (point : Nat) :
    context.guardReturn style guarded point =
      context.decl.parameters.zipIdx.foldr
        (fun entry current =>
          context.guardOut style point current entry)
        (context.guardResult style guarded point) := by
  rw [guardReturn, List.foldl_reverse]
  rfl

theorem describes_guardResult
    (described :
      layout.Describes style.debugBuild original guarded.body)
    (wellFormed : original.WellFormed)
    {earlier later : List Instruction} {point : Instruction}
    (split : original.instructions = earlier ++ point :: later)
    (unguarded : layout.before point.id = []) :
    ∃ row : GuardRow,
      row.map (·.guard) =
          (if context.decl.isGetter then []
            else context.returnGuards) ∧
        (layout.put point.id row).Describes style.debugBuild original
          (context.guardResult style guarded
            (layout.offset style.debugBuild original.instructions
              earlier)).body := by
  unfold guardResult
  cases getter : context.decl.isGetter with
  | true =>
      refine ⟨[], rfl, ?_⟩
      rw [← unguarded, GuardLayout.put_before_self]
      exact described
  | false =>
      cases checked :
          context.policy.checksResult context.graph context.decl
            context.decl.returnType with
      | false =>
          refine ⟨[], by simp [returnGuards, checked], ?_⟩
          rw [← unguarded, GuardLayout.put_before_self]
          exact described
      | true =>
          have added :=
            described.prependGuard wellFormed split
              (resultGuard context.decl.returnType
                (returnMessage context.name) .throw)
          refine ⟨_, ?_, added⟩
          simp [returnGuards, resultMessage, getter, checked, unguarded]

theorem describes_guardReturn
    (described :
      layout.Describes style.debugBuild original guarded.body)
    (wellFormed : original.WellFormed)
    {earlier later : List Instruction} {point : Instruction}
    (split : original.instructions = earlier ++ point :: later)
    (unguarded : layout.before point.id = []) :
    ∃ row : GuardRow,
      row.map (·.guard) = context.plainGuards ∧
        (layout.put point.id row).Describes style.debugBuild original
          (context.guardReturn style guarded
            (layout.offset style.debugBuild original.instructions
              earlier)).body := by
  obtain ⟨result, resultGuards, describedResult⟩ :=
    context.describes_guardResult described wellFormed
      split unguarded
  obtain ⟨row, guards, describedOuts⟩ :=
    context.describes_guardOuts describedResult wellFormed
      split context.decl.parameters.zipIdx
  rw [GuardLayout.offset_put _ _ wellFormed split, GuardLayout.put_put]
    at describedOuts
  refine ⟨row, ?_, by rw [guardReturn_eq]; exact describedOuts⟩
  rw [guards, GuardLayout.guardsBefore, GuardLayout.before_put_self,
    resultGuards]
  rfl

/-! ## Passes over the returns -/

/-- Every guard that a visit to parameters puts in front checks an argument. -/
theorem exists_of_mem_argumentGuards
    {style : GuardStyle} {guarded : GuardedBody}
    {entries : List (Parameter × Nat)} {guard : Guard}
    (member : guard ∈ context.argumentGuards style guarded entries) :
    ∃ index parameter message,
      guard = context.argumentGuard index parameter message := by
  induction entries generalizing guarded with
  | nil =>
      simp [argumentGuards] at member
  | cons entry rest inductionHypothesis =>
      rcases List.mem_append.mp member with later | here
      · exact inductionHypothesis later
      · simp only [argumentGuard?, Option.mem_toList] at here
        split at here
        · cases here
          exact ⟨_, _, _, rfl⟩
        · simp at here

theorem exists_of_mem_entryGuards
    {settings : Settings} {body : MethodBody} {guard : Guard}
    (member : guard ∈ context.entryGuards settings body) :
    ∃ index parameter message,
      guard = context.argumentGuard index parameter message := by
  rcases List.mem_append.mp member with setter | arguments
  · rw [Option.mem_toList, setterGuard?] at setter
    obtain ⟨⟨value, index⟩, -, checked⟩ :=
      Option.bind_eq_some_iff.mp setter
    simp only at checked
    split at checked
    · cases checked
      exact ⟨_, _, _, rfl⟩
    · cases checked
  · split at arguments
    · exact context.exists_of_mem_argumentGuards arguments
    · simp at arguments

theorem exit_entryGuards
    (settings : Settings) (body : MethodBody) :
    ∀ guard ∈ context.entryGuards settings body,
      guard.exit = .throw := by
  intro guard member
  obtain ⟨index, parameter, message, rfl⟩ :=
    context.exists_of_mem_entryGuards member
  rfl

/-- A guard before a return checks an `out` parameter or the value returned. -/
theorem cases_of_mem_outGuards_append
    {guard : Guard}
    (member : guard ∈ context.outGuards ++ context.returnGuards) :
    (∃ entry, guard = context.outGuard entry) ∨
      context.policy.checksResult context.graph context.decl
          context.decl.returnType = true ∧
        guard =
          resultGuard context.decl.returnType context.resultMessage
            .throw := by
  rcases List.mem_append.mp member with out | result
  · obtain ⟨entry, -, rfl⟩ := List.mem_map.mp out
    exact .inl ⟨entry, rfl⟩
  · rw [returnGuards] at result
    split at result
    · exact .inr ⟨‹_›, List.mem_singleton.mp result⟩
    · simp at result

theorem exit_outGuards_append :
    ∀ guard ∈ context.outGuards ++ context.returnGuards,
      guard.exit = .throw := by
  intro guard member
  rcases context.cases_of_mem_outGuards_append member with
    ⟨entry, rfl⟩ | ⟨-, rfl⟩ <;> rfl

theorem plainGuards_sublist :
    context.plainGuards.Sublist
      (context.outGuards ++ context.returnGuards) := by
  apply List.Sublist.append_left
  split
  · exact List.nil_sublist _
  · exact List.Sublist.refl _

theorem exitGuards_sublist :
    context.exitGuards.Sublist
      (context.outGuards ++ context.returnGuards) := by
  rw [exitGuards]
  split
  · exact List.Sublist.refl _
  · split
    · exact List.sublist_append_right _ _
    · exact List.nil_sublist _

theorem describes_guardReturns
    (described :
      layout.Describes style.debugBuild original guarded.body)
    (wellFormed : original.WellFormed)
    (front : ∀ guard ∈ layout.front.map (·.guard),
      guard.exit = .throw)
    (unguarded : layout.before = fun _ => []) :
    ∃ returned : GuardLayout,
      returned.Describes style.debugBuild original
          (context.guardReturns style guarded).body ∧
        returned.front = layout.front ∧
        ∀ instruction ∈ original.instructions,
          returned.guardsBefore instruction.id =
            if instruction.operation.isRet then context.plainGuards
            else [] := by
  have quiet : ∀ instruction ∈ original.instructions,
      (layout.before instruction.id).Quiet style.debugBuild
        Operation.isRet := by
    intro instruction _
    rw [unguarded]
    exact GuardRow.quiet_of_throws (by simp) style.debugBuild
  obtain ⟨returned, describedReturned, passed⟩ :=
    described.pass wellFormed Operation.isRet
      (fun _ => context.plainGuards) (context.guardReturn style)
      (fun change operation => Operation.isRet_mapTargets change operation)
      (GuardRow.quiet_of_throws front style.debugBuild) quiet
      (by
        intro current now earlier point later split _ describedNow same
        have empty : current.before point.id = [] := by
          rw [same, unguarded]
        rw [empty]
        exact context.describes_guardReturn describedNow wellFormed split empty)
  refine ⟨returned, describedReturned, passed.front, ?_⟩
  intro instruction member
  rw [passed.visited instruction member, GuardLayout.guardsBefore,
    unguarded]
  rfl

theorem describes_guardGetterResult
    (described :
      layout.Describes style.debugBuild original guarded.body)
    (wellFormed : original.WellFormed)
    (getter : context.decl.isGetter = true)
    (front : ∀ guard ∈ layout.front.map (·.guard),
      guard.exit = .throw)
    (before : ∀ instruction ∈ original.instructions,
      ∀ guard ∈ layout.guardsBefore instruction.id,
        guard.exit = .throw) :
    ∃ returned : GuardLayout,
      returned.Describes style.debugBuild original
          (context.guardGetterResult style guarded).body ∧
        returned.front = layout.front ∧
        ∀ instruction ∈ original.instructions,
          returned.guardsBefore instruction.id =
            if instruction.operation.isRet then
              layout.guardsBefore instruction.id ++ context.returnGuards
            else
              layout.guardsBefore instruction.id := by
  simp only [guardGetterResult]
  cases checked :
      context.policy.checksResult context.graph context.decl
        context.decl.returnType with
  | false =>
      refine ⟨layout, described, rfl, ?_⟩
      simp [returnGuards, checked]
  | true =>
      obtain ⟨guard, same⟩ :
          ∃ guard,
            guard =
              resultGuard context.decl.returnType
                (getterMessage
                  (context.graph.propertyName context.decl
                    context.decl.returnType context.decl.parameters))
                .throw := ⟨_, rfl⟩
      have result : context.returnGuards = [guard] := by
        simp [returnGuards, checked, resultMessage, getter, same]
      obtain ⟨returned, describedReturned, passed⟩ :=
        described.pass wellFormed Operation.isRet
          (· ++ context.returnGuards)
          (fun guarded point => guarded.addExitGuard style point guard)
          (fun change operation =>
            Operation.isRet_mapTargets change operation)
          (GuardRow.quiet_of_throws front style.debugBuild)
          (fun instruction member =>
            GuardRow.quiet_of_throws (before instruction member)
              style.debugBuild)
          (by
            intro current now earlier point later split _ describedNow
              sameRow
            refine ⟨_, ?_,
              describedNow.appendGuard wellFormed split guard⟩
            simp [sameRow, GuardLayout.guardsBefore, result])
      rw [← same]
      exact ⟨returned, describedReturned, passed.front, passed.visited⟩

end Steps

/-! ## The whole body -/

/-- A layout of a method: it describes the guarded body and has the guards of the method. -/
structure Lays
    (context : MethodContext) (settings : Settings)
    (body : MethodBody) (layout : GuardLayout) : Prop where
  describes :
    layout.Describes settings.debugBuild body.widen
      (context.guardBody settings body).body
  front :
    layout.front.map (·.guard) = context.entryGuards settings body
  before : ∀ instruction ∈ body.instructions,
    layout.guardsBefore instruction.id =
      if instruction.operation.isRet then context.exitGuards else []

/-- A method does not both read and write a property. -/
theorem isGetter_of_isSetter
    {decl : MethodDecl} (setter : decl.isSetter = true) :
    decl.isGetter = false := by
  simp only [MethodDecl.isSetter, MethodDecl.isGetter,
    Bool.and_eq_true, List.isPrefixOf_iff_prefix] at setter ⊢
  obtain ⟨special, written⟩ := setter
  obtain ⟨rest, name⟩ := written
  rw [special, ← name]
  rfl

/-- The guards in front of a body before those of accessors are put in. -/
def earlyEntryGuards
    (context : MethodContext) (settings : Settings)
    (body : MethodBody) : List Guard :=
  if context.policy.flags.arguments then
    context.argumentGuards (style settings body)
      { body := body.widen } context.decl.parameters.zipIdx.reverse
  else
    []

/-- The guards before every return before those of accessors are put in. -/
def earlyExitGuards (context : MethodContext) : List Guard :=
  if context.shape = .plain then context.plainGuards else []

theorem earlyEntryGuards_sublist
    (context : MethodContext) (settings : Settings)
    (body : MethodBody) :
    (context.earlyEntryGuards settings body).Sublist
      (context.entryGuards settings body) :=
  List.sublist_append_right _ _

theorem earlyExitGuards_sublist (context : MethodContext) :
    context.earlyExitGuards.Sublist
      (context.outGuards ++ context.returnGuards) := by
  rw [earlyExitGuards]
  split
  · exact context.plainGuards_sublist
  · exact List.nil_sublist _

/-- The layout before the guards of accessors are put in. -/
theorem exists_layout_beforeAccessor
    (context : MethodContext) (settings : Settings)
    {body : MethodBody} (wellFormed : body.WellFormed) :
    ∃ layout : GuardLayout,
      layout.Describes settings.debugBuild body.widen
          (context.guardBeforeAccessor settings body).body ∧
        layout.front.map (·.guard) =
          context.earlyEntryGuards settings body ∧
        ∀ instruction ∈ body.widen.instructions,
          layout.guardsBefore instruction.id =
            if instruction.operation.isRet then context.earlyExitGuards
            else [] := by
  have start :
      GuardLayout.Describes {} (style settings body).debugBuild
        body.widen body.widen :=
    GuardLayout.describes_self settings.debugBuild wellFormed.widen
  obtain ⟨entered, describedEntered, front, before⟩ :
      ∃ entered : GuardLayout,
        entered.Describes (style settings body).debugBuild body.widen
            (context.guardEntry settings body).body ∧
          entered.front.map (·.guard) =
            context.earlyEntryGuards settings body ∧
          entered.before = fun _ => [] := by
    unfold guardEntry earlyEntryGuards
    cases context.policy.flags.arguments with
    | false =>
        exact ⟨{}, start, rfl, rfl⟩
    | true =>
        have unguarded :
            GuardLayout.Describes {} (style settings body).debugBuild
              body.widen ({ body := body.widen } : GuardedBody).body :=
          start
        obtain ⟨entered, described, front, before⟩ :=
          context.describes_guardArguments unguarded
            context.decl.parameters.zipIdx.reverse
        exact ⟨entered, described, by simpa using front, before⟩
  have throws : ∀ guard ∈ entered.front.map (·.guard),
      guard.exit = .throw := by
    rw [front]
    intro guard member
    exact context.exit_entryGuards settings body guard
      ((context.earlyEntryGuards_sublist settings body).subset member)
  unfold guardBeforeAccessor
  by_cases plain : context.shape = .plain
  · obtain ⟨returned, described, sameFront, rows⟩ :=
      context.describes_guardReturns describedEntered
        wellFormed.widen throws before
    refine ⟨returned, ?_, sameFront ▸ front, ?_⟩
    · simp only [plain, if_true]
      exact described
    · rw [earlyExitGuards, if_pos plain]
      exact rows
  · refine ⟨entered, ?_, front, ?_⟩
    · simp only [plain, if_false]
      exact describedEntered
    · simp [earlyExitGuards, plain, GuardLayout.guardsBefore, before]

theorem guardBody_eq
    (context : MethodContext) (settings : Settings)
    (body : MethodBody) :
    context.guardBody settings body =
      context.guardAccessor (style settings body)
        (context.guardBeforeAccessor settings body) := rfl

theorem setterGuard?_of_not_isSetter
    {context : MethodContext}
    (other : context.decl.isSetter = false) (body : MethodBody) :
    context.setterGuard? body = none := by
  simp [setterGuard?, MethodDecl.setterValueIndex?, other]

theorem entryGuards_of_not_isSetter
    {context : MethodContext}
    (other : context.decl.isSetter = false)
    (settings : Settings) (body : MethodBody) :
    context.entryGuards settings body =
      context.earlyEntryGuards settings body := by
  rw [entryGuards, setterGuard?_of_not_isSetter other]
  rfl

theorem exitGuards_of_not_isGetter
    {context : MethodContext}
    (other : context.decl.isGetter = false) :
    context.exitGuards = context.earlyExitGuards := by
  simp [exitGuards, earlyExitGuards, plainGuards, other]

theorem exitGuards_of_isGetter
    {context : MethodContext}
    (getter : context.decl.isGetter = true) :
    context.exitGuards =
      context.earlyExitGuards ++ context.returnGuards := by
  by_cases plain : context.shape = .plain <;>
    simp [exitGuards, earlyExitGuards, plainGuards, getter, plain]

/-- A layout of the widened body is one of the body. -/
theorem Lays.of_widen
    {context : MethodContext} {settings : Settings}
    {body : MethodBody} {layout : GuardLayout}
    (describes : layout.Describes settings.debugBuild body.widen
      (context.guardBody settings body).body)
    (front :
      layout.front.map (·.guard) = context.entryGuards settings body)
    (before : ∀ instruction ∈ body.widen.instructions,
      layout.guardsBefore instruction.id =
        if instruction.operation.isRet then context.exitGuards
        else []) :
    context.Lays settings body layout where
  describes
  front
  before := by
    intro instruction member
    have row :=
      before (instruction.withForm .long) (List.mem_map_of_mem member)
    simpa [Instruction.withForm] using row

/-- A layout has the guards of results before the returns of the widened body, too. -/
theorem Lays.rows_widen
    {context : MethodContext} {settings : Settings}
    {body : MethodBody} {layout : GuardLayout}
    (lays : context.Lays settings body layout) :
    ∀ instruction ∈ body.widen.instructions,
      layout.guardsBefore instruction.id =
        if instruction.operation.isRet then context.exitGuards
        else [] := by
  intro instruction member
  obtain ⟨original, here, rfl⟩ := List.mem_map.mp member
  simpa [Instruction.withForm] using lays.before original here

/-- Every method with a well-formed body has a layout. -/
theorem exists_layout
    (context : MethodContext) (settings : Settings)
    {body : MethodBody} (wellFormed : body.WellFormed) :
    ∃ layout, context.Lays settings body layout := by
  obtain ⟨layout, described, front, rows⟩ :=
    context.exists_layout_beforeAccessor settings wellFormed
  have described :
      layout.Describes (style settings body).debugBuild body.widen
        (context.guardBeforeAccessor settings body).body := described
  cases setter : context.decl.isSetter with
  | true =>
      obtain ⟨entered, describedEntered, frontEntered, before⟩ :=
        described.enter
          (context.body_guardSetterValue (style settings body)
            (context.guardBeforeAccessor settings body))
          firstId?_of_setterGuard?
      refine ⟨entered, .of_widen ?_ ?_ ?_⟩
      · rw [guardBody_eq, guardAccessor, if_pos setter]
        exact describedEntered
      · rw [frontEntered, front]
        rfl
      · intro instruction member
        rw [GuardLayout.guardsBefore, before,
          exitGuards_of_not_isGetter (isGetter_of_isSetter setter)]
        exact rows instruction member
  | false =>
      have entry :=
        entryGuards_of_not_isSetter setter settings body
      cases getter : context.decl.isGetter with
      | false =>
          refine ⟨layout, .of_widen ?_ (front.trans entry.symm) ?_⟩
          · simp only [guardBody_eq, guardAccessor, setter, getter,
              Bool.false_eq_true, if_false]
            exact described
          · rw [exitGuards_of_not_isGetter getter]
            exact rows
      | true =>
          have throwsFront : ∀ guard ∈ layout.front.map (·.guard),
              guard.exit = .throw := by
            rw [front, ← entry]
            exact context.exit_entryGuards settings body
          have throwsBefore :
              ∀ instruction ∈ body.widen.instructions,
                ∀ guard ∈ layout.guardsBefore instruction.id,
                  guard.exit = .throw := by
            intro instruction member guard here
            rw [rows instruction member] at here
            split at here
            · exact context.exit_outGuards_append guard
                (context.earlyExitGuards_sublist.subset here)
            · simp at here
          obtain ⟨returned, describedReturned, sameFront, before⟩ :=
            context.describes_guardGetterResult described
              wellFormed.widen getter throwsFront throwsBefore
          refine ⟨returned, .of_widen ?_ ?_ ?_⟩
          · simp only [guardBody_eq, guardAccessor, setter, getter,
              Bool.false_eq_true, if_false, if_true]
            exact describedReturned
          · rw [sameFront, front, entry]
          · intro instruction member
            rw [before instruction member, rows instruction member,
              exitGuards_of_isGetter getter]
            cases instruction.operation.isRet <;> rfl

end MethodContext

end NullWeave
