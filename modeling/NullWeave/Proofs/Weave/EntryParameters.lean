import Mathlib.Data.List.Perm.Basic
import NullWeave.Proofs.Weave.Recognition

/-!
# The parameters that are guarded at the entry

A parameter is guarded at the entry if it must not be null and the original
body does not guard it.  The body is looked at anew for each parameter, when
guards of others already stand in it; they are overlooked, since parameters
have different names.

The value given to a setter is looked at last, behind the guards of results.
So of the guards that the original body holds, only those count for it that
stay whole when something is put before the returns.
-/

namespace NullWeave

namespace MethodContext

/-! ## What is guarded -/

/-- Is a parameter the value given to a setter? -/
def isSetterValue
    (context : MethodContext) (entry : Parameter × Nat) : Bool :=
  context.decl.setterValueIndex? == some entry.2

/-- The operations before which guards are put in before a setter's value is looked at. -/
def guardsBeforeOperation
    (context : MethodContext) (operation : Operation) : Bool :=
  operation.isRet && !context.exitGuards.isEmpty

/-- Is a parameter taken for one that the body already guards? -/
def recognises
    (context : MethodContext) (body : MethodBody)
    (entry : Parameter × Nat) : Bool :=
  if context.isSetterValue entry then
    keepsGuard context.graph entry.1.name context.guardsBeforeOperation
      (operationsOf body.instructions)
  else
    body.alreadyGuards context.graph entry.1.name

/-- Is a parameter guarded at the entry? -/
def guardsParameter
    (context : MethodContext) (body : MethodBody)
    (entry : Parameter × Nat) : Bool :=
  context.policy.checksArgument context.graph entry.1 &&
    !context.recognises body entry

/-- The parameters that are guarded at the entry, in the order in which their guards run. -/
def guardedParameters
    (context : MethodContext) (body : MethodBody) :
    List (Parameter × Nat) :=
  let guarded :=
    context.decl.parameters.zipIdx.filter (context.guardsParameter body)
  guarded.filter context.isSetterValue ++
    guarded.filter fun entry => !context.isSetterValue entry

/-- What the guard of a parameter at the entry says. -/
def entryMessage
    (context : MethodContext) (entry : Parameter × Nat) : String :=
  if context.isSetterValue entry then
    setterMessage
      (context.graph.propertyName context.decl entry.1.type
        (context.decl.parameters.take entry.2))
  else
    argumentMessage entry.1.name

/-- The guard of a parameter at the entry. -/
def entryGuard
    (context : MethodContext) (entry : Parameter × Nat) : Guard :=
  context.argumentGuard entry.2 entry.1 (context.entryMessage entry)

variable {context : MethodContext} {body : MethodBody}

theorem mem_guardedParameters {entry : Parameter × Nat} :
    entry ∈ context.guardedParameters body ↔
      entry ∈ context.decl.parameters.zipIdx ∧
        context.policy.checksArgument context.graph entry.1 = true ∧
        context.recognises body entry = false := by
  simp only [guardedParameters, guardsParameter, List.mem_append,
    List.mem_filter, Bool.and_eq_true, Bool.not_eq_true', and_assoc]
  cases context.isSetterValue entry <;> simp

/-- No parameter is guarded twice. -/
theorem nodup_guardedParameters :
    (context.guardedParameters body).Nodup := by
  have distinct : context.decl.parameters.zipIdx.Nodup := by
    refine List.Nodup.of_map Prod.snd ?_
    rw [List.zipIdx_map_snd]
    exact List.nodup_range'
  have order :=
    List.filter_append_perm context.isSetterValue
      (context.decl.parameters.zipIdx.filter
        (context.guardsParameter body))
  exact order.nodup_iff.mpr (distinct.filter _)

/-- A parameter that the original body does not guard is not taken for one that it guards. -/
theorem recognises_eq_false
    {entry : Parameter × Nat}
    (unguarded :
      body.alreadyGuards context.graph entry.1.name = false) :
    context.recognises body entry = false := by
  rw [recognises]
  split
  · rw [Bool.eq_false_iff] at unguarded ⊢
    exact fun keeps => unguarded (alreadyGuards_of_keepsGuard keeps)
  · exact unguarded

/-! ## Visits to parameters -/

/-- Is a parameter other than the value given to a setter guarded at the entry? -/
def guardsOther
    (context : MethodContext) (body : MethodBody)
    (entry : Parameter × Nat) : Bool :=
  context.guardsParameter body entry && !context.isSetterValue entry

/-- A body that is guarded as a layout says is empty only if the original one is. -/
theorem firstId?_isSome
    {layout : GuardLayout} {debugBuild : Bool}
    {original guarded : MethodBody}
    (described : layout.Describes debugBuild original guarded)
    (nonempty : original.instructions ≠ []) :
    guarded.firstId?.isSome = true := by
  obtain ⟨first, rest, whole⟩ := List.exists_cons_of_ne_nil nonempty
  obtain ⟨start, others, blocks, -⟩ :=
    layout.blocks_eq_cons debugBuild first rest
  have inhabited : guarded.instructions ≠ [] := by
    rw [described.instructions, whole, GuardLayout.code, blocks]
    simp
  obtain ⟨entry, others, instructions⟩ :=
    List.exists_cons_of_ne_nil inhabited
  simp [MethodBody.firstId?, instructions]

section Visits

variable
    {layout : GuardLayout} {style : GuardStyle} {guarded : GuardedBody}

/-- What stands in a body into which guards of other parameters were put at the entry. -/
theorem alreadyGuards_of_front
    (includes : context.graph.IncludesSystem)
    (names : context.graph.NamesSystemTypes)
    (described :
      layout.Describes style.debugBuild body.widen guarded.body)
    (unguarded : layout.before = fun _ => [])
    {parameter : String}
    (front : ∀ guard ∈ layout.front.map (·.guard),
      guard.exit = .throw ∧ guard.failure ≠ .argumentNull parameter) :
    guarded.body.alreadyGuards context.graph parameter =
      body.alreadyGuards context.graph parameter := by
  have whole :
      layout.BreaksAt (fun _ => false) body.widen.instructions := by
    intro instruction _
    simp [unguarded]
  rw [described.alreadyGuards_eq includes names (fun _ => rfl) whole front
    (by simp [GuardLayout.guardsBefore, unguarded]), keepsGuard_never]
  rfl

theorem argumentGuard?_eq
    (includes : context.graph.IncludesSystem)
    (names : context.graph.NamesSystemTypes)
    (described :
      layout.Describes style.debugBuild body.widen guarded.body)
    (unguarded : layout.before = fun _ => [])
    (nonempty : body.widen.instructions ≠ [])
    {entry : Parameter × Nat}
    (front : ∀ guard ∈ layout.front.map (·.guard),
      guard.exit = .throw ∧
        guard.failure ≠ .argumentNull entry.1.name) :
    context.argumentGuard? guarded.body entry =
      if context.guardsOther body entry then
        some (context.entryGuard entry)
      else
        none := by
  rw [argumentGuard?, firstId?_isSome described nonempty,
    alreadyGuards_of_front includes names described unguarded front,
    guardsOther, guardsParameter, recognises, entryGuard, entryMessage,
    isSetterValue, bne]
  cases context.decl.setterValueIndex? == some entry.2 <;> simp

/-- Visits to parameters put in front the guards of those that are to be guarded. -/
theorem argumentGuards_eq
    (includes : context.graph.IncludesSystem)
    (names : context.graph.NamesSystemTypes)
    (described :
      layout.Describes style.debugBuild body.widen guarded.body)
    (unguarded : layout.before = fun _ => [])
    (nonempty : body.widen.instructions ≠ [])
    {entries : List (Parameter × Nat)}
    (distinct : (entries.map (·.1.name)).Nodup)
    (front : ∀ entry ∈ entries,
      ∀ guard ∈ layout.front.map (·.guard),
        guard.exit = .throw ∧
          guard.failure ≠ .argumentNull entry.1.name) :
    context.argumentGuards style guarded entries =
      (entries.filter (context.guardsOther body)).reverse.map
        context.entryGuard := by
  -- The layout grows by the guard of the parameter visited, which names none of the others.
  induction entries generalizing layout guarded with
  | nil =>
      rfl
  | cons entry rest inductionHypothesis =>
      rw [List.map_cons, List.nodup_cons] at distinct
      obtain ⟨fresh, distinctRest⟩ := distinct
      rw [List.forall_mem_cons] at front
      obtain ⟨frontHere, frontRest⟩ := front
      have visited :=
        argumentGuard?_eq includes names described unguarded nonempty
          frontHere
      obtain ⟨entered, describedNext, frontNext, before⟩ :=
        described.enter
          (context.body_guardArgument style guarded entry)
          firstId?_of_argumentGuard?
      have later :=
        inductionHypothesis describedNext (before.trans unguarded)
          distinctRest (by
            intro other member guard here
            rw [frontNext, visited, List.mem_append, Option.mem_toList]
              at here
            rcases here with new | old
            · split at new
              · cases new
                refine ⟨rfl, fun same => fresh ?_⟩
                have sameName : entry.1.name = other.1.name :=
                  GuardFailure.argumentNull.inj same
                rw [sameName]
                exact List.mem_map_of_mem (f := (·.1.name)) member
              · cases new
            · exact frontRest other member guard old)
      rw [argumentGuards, later, visited, List.filter_cons]
      split <;> simp_all

end Visits

/-! ## The value given to a setter -/

/-- The value given to a setter is its last parameter. -/
theorem exists_of_setterValueIndex?
    {decl : MethodDecl} {index : Nat}
    (found : decl.setterValueIndex? = some index) :
    decl.isSetter = true ∧
      ∃ others value,
        decl.parameters = others ++ [value] ∧ index = others.length := by
  simp only [MethodDecl.setterValueIndex?, Bool.and_eq_true,
    Option.ite_none_right_eq_some, Option.some.injEq] at found
  obtain ⟨⟨setter, inhabited⟩, rfl⟩ := found
  have nonempty : decl.parameters ≠ [] := by
    simpa using inhabited
  obtain ⟨others, value, split⟩ :=
    List.eq_nil_or_concat decl.parameters |>.resolve_left nonempty
  rw [List.concat_eq_append] at split
  exact ⟨setter, others, value, split, by simp [split]⟩

theorem filter_isSetterValue
    {others : List Parameter} {value : Parameter}
    (parameters : context.decl.parameters = others ++ [value])
    (found : context.decl.setterValueIndex? = some others.length) :
    context.decl.parameters.zipIdx.filter context.isSetterValue =
      [(value, others.length)] := by
  have before :
      others.zipIdx.filter context.isSetterValue = [] := by
    apply List.filter_eq_nil_iff.mpr
    intro entry member
    have inside := (List.mem_zipIdx' member).1
    simp only [isSetterValue, found, beq_iff_eq, Option.some.injEq]
    omega
  rw [parameters, List.zipIdx_append, List.filter_append, before]
  simp [isSetterValue, found]

theorem map_name_zipIdx (parameters : List Parameter) :
    parameters.zipIdx.map (·.1.name) = parameters.map (·.name) := by
  calc
    parameters.zipIdx.map (·.1.name) =
        (parameters.zipIdx.map Prod.fst).map (·.name) := by
      rw [List.map_map]
      rfl
    _ = parameters.map (·.name) := by
      rw [List.zipIdx_map_fst]

/-- Other parameters have other names than the value given to a setter. -/
theorem name_ne_of_not_isSetterValue
    (distinct : (context.decl.parameters.map (·.name)).Nodup)
    {entry other : Parameter × Nat}
    (member : entry ∈ context.decl.parameters.zipIdx)
    (otherMember : other ∈ context.decl.parameters.zipIdx)
    (value : context.isSetterValue entry = true)
    (apart : context.isSetterValue other = false) :
    other.1.name ≠ entry.1.name := by
  rw [← map_name_zipIdx] at distinct
  intro same
  have whole :=
    List.inj_on_of_nodup_map distinct otherMember member same
  rw [whole, value] at apart
  cases apart

theorem guardsBeforeOperation_withForm
    (context : MethodContext) (form : BranchForm) (operation : Operation) :
    context.guardsBeforeOperation (operation.withForm form) =
      context.guardsBeforeOperation operation := by
  simp [guardsBeforeOperation]

theorem guardsBeforeOperation_mapTargets
    (context : MethodContext) (change : InstrId → InstrId)
    (operation : Operation) :
    context.guardsBeforeOperation (operation.mapTargets change) =
      context.guardsBeforeOperation operation := by
  rw [guardsBeforeOperation, Operation.isRet_mapTargets]
  rfl

/-- Where guards stand before every return, they stand before these operations only. -/
theorem breaksAt_guardsBeforeOperation
    {layout : GuardLayout} {instructions : List Instruction}
    (rows : ∀ instruction ∈ instructions,
      layout.guardsBefore instruction.id =
        if instruction.operation.isRet then context.exitGuards else []) :
    layout.BreaksAt context.guardsBeforeOperation instructions := by
  intro instruction member
  have row := rows instruction member
  rw [GuardLayout.guardsBefore] at row
  cases returns : instruction.operation.isRet with
  | false =>
      rw [returns, if_neg Bool.false_ne_true] at row
      simpa [guardsBeforeOperation, returns] using row
  | true =>
      rw [returns, if_pos rfl] at row
      have isRet : instruction.operation = .ret := by
        cases operation : instruction.operation <;>
          simp_all [Operation.isRet]
      have empty :
          layout.before instruction.id = [] ↔
            context.exitGuards = [] := by
        rw [← row, List.map_eq_nil_iff]
      by_cases none : context.exitGuards = [] <;>
        simp [guardsBeforeOperation, isRet, empty, none,
          Operation.isRet]

/-- A guard before a return throws, and names no parameter. -/
theorem apart_of_mem_exitGuards
    (context : MethodContext) {guard : Guard}
    (member : guard ∈ context.exitGuards) (parameter : String) :
    guard.exit = .throw ∧ guard.failure ≠ .argumentNull parameter := by
  have among := context.exitGuards_sublist.subset member
  refine ⟨context.exit_outGuards_append guard among, ?_⟩
  rcases context.cases_of_mem_outGuards_append among with
    ⟨entry, rfl⟩ | ⟨-, rfl⟩ <;> nofun

theorem apart_of_rows
    {layout : GuardLayout} {instructions : List Instruction}
    (rows : ∀ instruction ∈ instructions,
      layout.guardsBefore instruction.id =
        if instruction.operation.isRet then context.exitGuards else [])
    (parameter : String) :
    ∀ instruction ∈ instructions,
      ∀ guard ∈ layout.guardsBefore instruction.id,
        guard.exit = .throw ∧ guard.failure ≠ .argumentNull parameter := by
  intro instruction member guard here
  rw [rows instruction member] at here
  split at here
  · exact context.apart_of_mem_exitGuards here parameter
  · cases here

/-- What stands in a body before the value given to a setter is looked at. -/
theorem alreadyGuards_guardBeforeAccessor_iff
    (includes : context.graph.IncludesSystem)
    (names : context.graph.NamesSystemTypes)
    (settings : Settings) (wellFormed : body.WellFormed)
    (nonempty : body.instructions ≠ []) {parameter : String}
    (setter : context.decl.isSetter = true) :
    (context.guardBeforeAccessor settings body).body.alreadyGuards
        context.graph parameter = true ↔
      (∃ guard ∈ context.earlyEntryGuards settings body,
          guard.failure = .argumentNull parameter) ∨
        keepsGuard context.graph parameter context.guardsBeforeOperation
          (operationsOf body.instructions) = true := by
  obtain ⟨layout, described, front, rows⟩ :=
    context.exists_layout_beforeAccessor settings wellFormed
  have exits : context.earlyExitGuards = context.exitGuards :=
    (exitGuards_of_not_isGetter (isGetter_of_isSetter setter)).symm
  rw [exits] at rows
  rw [← front]
  refine described.alreadyGuards_iff includes names nonempty
    (context.guardsBeforeOperation_withForm .long)
    (breaksAt_guardsBeforeOperation rows) ?_
    (apart_of_rows rows parameter)
  intro guard member
  rw [front] at member
  exact context.exit_entryGuards settings body guard
    ((context.earlyEntryGuards_sublist settings body).subset member)

/-! ## All guards at the entry -/

section Entry

variable
    {settings : Settings}
    (includes : context.graph.IncludesSystem)
    (names : context.graph.NamesSystemTypes)
    (arguments : context.policy.flags.arguments = true)
    (distinct : (context.decl.parameters.map (·.name)).Nodup)
    (nonempty : body.instructions ≠ [])
    (wellFormed : body.WellFormed)

include includes names arguments distinct nonempty wellFormed

/-- The guards of the other parameters stand in the order of the parameters. -/
theorem earlyEntryGuards_eq :
    context.earlyEntryGuards settings body =
      (context.decl.parameters.zipIdx.filter
        (context.guardsOther body)).map context.entryGuard := by
  have start :
      GuardLayout.Describes {} (style settings body).debugBuild
        body.widen ({ body := body.widen } : GuardedBody).body :=
    GuardLayout.describes_self settings.debugBuild wellFormed.widen
  have wide : body.widen.instructions ≠ [] := by
    simpa using nonempty
  rw [earlyEntryGuards, if_pos arguments,
    argumentGuards_eq includes names start rfl wide
      (by
        rw [List.map_reverse, List.nodup_reverse, map_name_zipIdx]
        exact distinct)
      (by simp)]
  rw [List.filter_reverse, List.reverse_reverse]

/-- Before the value given to a setter is looked at, no guard at the entry names it. -/
theorem failure_ne_of_isSetterValue
    {entry : Parameter × Nat}
    (here : entry ∈ context.decl.parameters.zipIdx)
    (value : context.isSetterValue entry = true) :
    ∀ guard ∈ context.earlyEntryGuards settings body,
      guard.failure ≠ .argumentNull entry.1.name := by
  rw [earlyEntryGuards_eq includes names arguments distinct nonempty
    wellFormed]
  intro guard member
  obtain ⟨other, among, rfl⟩ := List.mem_map.mp member
  obtain ⟨listed, guarded⟩ := List.mem_filter.mp among
  rw [guardsOther, Bool.and_eq_true, Bool.not_eq_true'] at guarded
  intro same
  exact name_ne_of_not_isSetterValue distinct here listed value guarded.2
    (GuardFailure.argumentNull.inj same)

theorem setterGuard?_of_value
    {others : List Parameter} {value : Parameter}
    (setter : context.decl.isSetter = true)
    (parameters : context.decl.parameters = others ++ [value])
    (found : context.decl.setterValueIndex? = some others.length) :
    context.setterGuard?
        (context.guardBeforeAccessor settings body).body =
      if context.guardsParameter body (value, others.length) then
        some (context.entryGuard (value, others.length))
      else
        none := by
  have isValue :
      context.isSetterValue (value, others.length) = true := by
    simp [isSetterValue, found]
  have here :
      (value, others.length) ∈ context.decl.parameters.zipIdx := by
    simp [parameters, List.zipIdx_append]
  have apart : ∀ guard ∈ context.earlyEntryGuards settings body,
      guard.failure ≠ .argumentNull value.name :=
    failure_ne_of_isSetterValue includes names arguments distinct nonempty
      wellFormed here isValue
  have recognised :=
    Bool.eq_iff_iff.mpr ((alreadyGuards_guardBeforeAccessor_iff includes
      names settings wellFormed nonempty setter).trans
      (or_iff_right fun ⟨guard, member, named⟩ =>
        apart guard member named))
  obtain ⟨layout, described, -, -⟩ :=
    context.exists_layout_beforeAccessor settings wellFormed
  have wide : body.widen.instructions ≠ [] := by
    simpa using nonempty
  rw [guardsParameter, recognises, entryGuard, entryMessage,
    if_pos isValue, if_pos isValue]
  simp [setterGuard?, found, parameters, firstId?_isSome described wide,
    arguments, recognised]

/-- The guard of the value given to a setter stands in front of the others. -/
theorem setterGuard?_eq :
    (context.setterGuard?
        (context.guardBeforeAccessor settings body).body).toList =
      ((context.decl.parameters.zipIdx.filter
          (context.guardsParameter body)).filter
        context.isSetterValue).map context.entryGuard := by
  rw [List.filter_comm]
  cases found : context.decl.setterValueIndex? with
  | none =>
      have none :
          context.decl.parameters.zipIdx.filter context.isSetterValue =
            [] := by
        simp [isSetterValue, found]
      simp [setterGuard?, found, none]
  | some index =>
      obtain ⟨setter, others, value, parameters, rfl⟩ :=
        exists_of_setterValueIndex? found
      rw [setterGuard?_of_value includes names arguments distinct nonempty
        wellFormed setter parameters found,
        filter_isSetterValue parameters found]
      cases guarded :
          context.guardsParameter body (value, others.length) <;>
        simp [guarded]

/-- The guards in front of a body are those of the parameters that are guarded at the entry. -/
theorem entryGuards_eq :
    context.entryGuards settings body =
      (context.guardedParameters body).map context.entryGuard := by
  have parts :
      context.entryGuards settings body =
        (context.setterGuard?
            (context.guardBeforeAccessor settings body).body).toList ++
          context.earlyEntryGuards settings body := rfl
  have others :
      context.decl.parameters.zipIdx.filter (context.guardsOther body) =
        (context.decl.parameters.zipIdx.filter
            (context.guardsParameter body)).filter
          fun entry => !context.isSetterValue entry := by
    rw [List.filter_filter]
    refine List.filter_congr fun entry _ => ?_
    rw [guardsOther, Bool.and_comm]
  rw [parts,
    setterGuard?_eq includes names arguments distinct nonempty wellFormed,
    earlyEntryGuards_eq includes names arguments distinct nonempty
      wellFormed,
    others, guardedParameters, List.map_append]

end Entry

end MethodContext

end NullWeave
