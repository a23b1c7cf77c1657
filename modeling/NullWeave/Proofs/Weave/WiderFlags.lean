import NullWeave.Proofs.Weave.InjectedGuards
import NullWeave.Proofs.Weave.RepeatedEntry

/-!
# More flags

Flags only ever allow something: to look at a method, or to check a value of it.
So with more flags no method is left out that was looked at with fewer, and no
guard of a method is left out.

One guard depends on what the body holds already, and on the guards before its
returns too: that of the value given to a setter.  More guards before returns
can only break up what was taken for a guard of that value.
-/

namespace NullWeave

/-- Do other flags check all that some flags check? -/
structure CheckedValues.Within (few many : CheckedValues) : Prop where
  arguments : few.arguments = true → many.arguments = true
  returnValues : few.returnValues = true → many.returnValues = true
  outValues : few.outValues = true → many.outValues = true
  nonPublic : few.nonPublic = true → many.nonPublic = true

theorem CheckedValues.Within.refl (flags : CheckedValues) :
    flags.Within flags :=
  ⟨id, id, id, id⟩

/-! ## The rules for a method -/

namespace NullPolicy

/-- The same rules with other flags. -/
def withFlags (policy : NullPolicy) (flags : CheckedValues) : NullPolicy :=
  { policy with flags }

variable
    {graph : Graph} {settings : Settings} {policy : NullPolicy}
    {flags : CheckedValues} {decl : MethodDecl}

/-- With more flags in the settings, each method keeps its rules, with more flags perhaps. -/
theorem exists_resolve_of_within
    {method : MethodId} (within : settings.flags.Within flags)
    (resolved : resolve graph settings method = .ok policy) :
    ∃ more,
      resolve graph { settings with flags } method =
          .ok (policy.withFlags more) ∧
        policy.flags.Within more := by
  unfold resolve ofType at resolved ⊢
  split at resolved
  · cases resolved
    exact ⟨flags, rfl, within⟩
  · dsimp only at resolved ⊢
    split at resolved
    · rename_i bare
      cases resolved
      rw [if_pos bare]
      exact ⟨flags, rfl, within⟩
    · rename_i listed
      obtain ⟨given, read, same⟩ := bind_eq_ok_iff.mp resolved
      cases same
      rw [if_neg listed, read]
      exact ⟨given, rfl, .refl given⟩

variable (within : policy.flags.Within flags)
include within

theorem isVisible_withFlags
    (visible : policy.isVisible graph decl = true) :
    (policy.withFlags flags).isVisible graph decl = true := by
  simp only [isVisible, Bool.or_eq_true] at visible ⊢
  exact visible.imp_left (Or.imp_left within.nonPublic)

theorem checksResult_withFlags
    {type : Signature}
    (checks : policy.checksResult graph decl type = true) :
    (policy.withFlags flags).checksResult graph decl type = true := by
  simp only [checksResult, Bool.and_eq_true] at checks ⊢
  exact checks.imp_left (And.imp_left (And.imp_left within.returnValues))

theorem checksOut_withFlags
    {parameter : Parameter}
    (checks : policy.checksOut graph parameter = true) :
    (policy.withFlags flags).checksOut graph parameter = true := by
  simp only [checksOut, Bool.and_eq_true] at checks ⊢
  exact checks.imp_left (And.imp_left (And.imp_left
    (And.imp within.arguments within.outValues)))

end NullPolicy

/-! ## The guards of a method -/

/-- What stays whole where more could be broken stays whole. -/
theorem keepsGuard_of_imp
    {graph : Graph} {parameter : String} {fewer broken : Operation → Bool}
    (breaks : ∀ operation, fewer operation = true →
      broken operation = true)
    {operations : List Operation}
    (keeps : keepsGuard graph parameter broken operations = true) :
    keepsGuard graph parameter fewer operations = true := by
  induction operations with
  | nil =>
      cases keeps
  | cons operation rest inductionHypothesis =>
      simp only [keepsGuard, Bool.or_eq_true, Bool.and_eq_true,
        Bool.not_eq_true', Option.any_eq_false] at keeps ⊢
      refine keeps.imp (Or.imp_right (And.imp_right ?_))
        inductionHypothesis
      intro whole message next
      have unbroken := whole message next
      cases stays : fewer message with
      | false => rfl
      | true =>
          rw [breaks message stays] at unbroken
          cases unbroken

namespace MethodContext

/-- The same method with other flags. -/
def withFlags
    (context : MethodContext) (flags : CheckedValues) : MethodContext :=
  { context with policy := context.policy.withFlags flags }

variable
    {context : MethodContext} {flags : CheckedValues}
    {settings : Settings} {body : MethodBody}

theorem argumentGuards_withFlags
    (style : GuardStyle) (guarded : GuardedBody)
    (entries : List (Parameter × Nat)) :
    (context.withFlags flags).argumentGuards style guarded entries =
      context.argumentGuards style guarded entries := by
  induction entries generalizing guarded with
  | nil =>
      rfl
  | cons entry rest inductionHypothesis =>
      exact congrArg
        (· ++ (context.argumentGuard? guarded.body entry).toList)
        (inductionHypothesis (context.guardArgument style guarded entry))

section Within

variable (within : context.policy.flags.Within flags)
include within

theorem outGuards_withFlags_sublist :
    context.outGuards.Sublist (context.withFlags flags).outGuards :=
  (List.monotone_filter_right _ fun _ =>
    NullPolicy.checksOut_withFlags within).map _

theorem returnGuards_withFlags_sublist :
    context.returnGuards.Sublist
      (context.withFlags flags).returnGuards := by
  by_cases checks : context.policy.checksResult context.graph context.decl
      context.decl.returnType = true
  · have more :
        (context.withFlags flags).returnGuards =
          [resultGuard context.decl.returnType context.resultMessage
            .throw] :=
      if_pos (NullPolicy.checksResult_withFlags within checks)
    rw [more, returnGuards, if_pos checks]
  · rw [returnGuards, if_neg checks]
    exact List.nil_sublist _

/-- With more flags, no guard before returns is left out. -/
theorem exitGuards_withFlags_sublist :
    context.exitGuards.Sublist (context.withFlags flags).exitGuards := by
  have outs := outGuards_withFlags_sublist within
  have results := returnGuards_withFlags_sublist within
  unfold exitGuards
  rw [show (context.withFlags flags).shape = context.shape from rfl,
    show (context.withFlags flags).decl = context.decl from rfl]
  split
  · exact outs.append results
  · split
    · exact results
    · exact List.nil_sublist _

/-- Where arguments are checked, more flags change nothing in that. -/
theorem earlyEntryGuards_withFlags
    (arguments : context.policy.flags.arguments = true) :
    (context.withFlags flags).earlyEntryGuards settings body =
      context.earlyEntryGuards settings body := by
  have more :
      (context.withFlags flags).earlyEntryGuards settings body =
        (context.withFlags flags).argumentGuards (style settings body)
          { body := body.widen }
          context.decl.parameters.zipIdx.reverse :=
    if_pos (within.arguments arguments)
  rw [more, argumentGuards_withFlags, earlyEntryGuards, if_pos arguments]

theorem earlyEntryGuards_withFlags_sublist :
    (context.earlyEntryGuards settings body).Sublist
      ((context.withFlags flags).earlyEntryGuards settings body) := by
  by_cases arguments : context.policy.flags.arguments = true
  · rw [earlyEntryGuards_withFlags within arguments]
  · rw [earlyEntryGuards, if_neg arguments]
    exact List.nil_sublist _

theorem guardsBeforeOperation_withFlags
    {operation : Operation}
    (guards : context.guardsBeforeOperation operation = true) :
    (context.withFlags flags).guardsBeforeOperation operation = true := by
  simp only [guardsBeforeOperation, Bool.and_eq_true,
    Bool.not_eq_true', List.isEmpty_eq_false_iff] at guards ⊢
  refine guards.imp_right fun some none => some ?_
  have fewer := exitGuards_withFlags_sublist within
  rw [none] at fewer
  exact List.sublist_nil.mp fewer

/-- What is not taken for a guard of a setter's value is not with more flags. -/
theorem alreadyGuards_withFlags
    (includes : context.graph.IncludesSystem)
    (names : context.graph.NamesSystemTypes)
    (wellFormed : body.WellFormed) (nonempty : body.instructions ≠ [])
    (setter : context.decl.isSetter = true)
    (arguments : context.policy.flags.arguments = true)
    {parameter : String}
    (unguarded :
      (context.guardBeforeAccessor settings body).body.alreadyGuards
        context.graph parameter = false) :
    ((context.withFlags flags).guardBeforeAccessor settings
        body).body.alreadyGuards context.graph parameter = false := by
  rw [← Bool.not_eq_true] at unguarded ⊢
  refine mt (fun guarded => ?_) unguarded
  rw [alreadyGuards_guardBeforeAccessor_iff includes names settings
    wellFormed nonempty setter]
  have more :
      (context.withFlags flags).graph.IncludesSystem ∧
        (context.withFlags flags).decl.isSetter = true :=
    ⟨includes, setter⟩
  have recognised :=
    (alreadyGuards_guardBeforeAccessor_iff more.1 names settings
      wellFormed nonempty more.2).mp guarded
  rw [earlyEntryGuards_withFlags within arguments] at recognised
  exact recognised.imp_right (keepsGuard_of_imp fun _ =>
    guardsBeforeOperation_withFlags within)

/-- The value given to a setter keeps its guard where it is not taken for guarded. -/
theorem setterGuard?_withFlags
    {guarded more : MethodBody} {guard : Guard}
    (inhabited : more.firstId?.isSome = true)
    (misses : ∀ parameter,
      guarded.alreadyGuards context.graph parameter = false →
        more.alreadyGuards context.graph parameter = false)
    (found : context.setterGuard? guarded = some guard) :
    (context.withFlags flags).setterGuard? more = some guard := by
  obtain ⟨entry, value, checked⟩ := Option.bind_eq_some_iff.mp found
  refine Option.bind_eq_some_iff.mpr ⟨entry, value, ?_⟩
  simp only [Option.ite_none_right_eq_some, Bool.and_eq_true,
    Bool.not_eq_true'] at checked ⊢
  obtain ⟨⟨⟨⟨-, arguments⟩, checks⟩, missed⟩, same⟩ := checked
  exact ⟨⟨⟨⟨inhabited, within.arguments arguments⟩, checks⟩,
    misses _ missed⟩, same⟩

/-- With more flags, no guard in front of a body is left out. -/
theorem entryGuards_withFlags_sublist
    (includes : context.graph.IncludesSystem)
    (names : context.graph.NamesSystemTypes)
    (wellFormed : body.WellFormed) :
    (context.entryGuards settings body).Sublist
      ((context.withFlags flags).entryGuards settings body) := by
  by_cases empty : body.instructions = []
  · rw [entryGuards_of_empty settings wellFormed empty]
    exact List.nil_sublist _
  · refine List.Sublist.append ?_
      (earlyEntryGuards_withFlags_sublist within)
    cases found : context.setterGuard?
        (context.guardBeforeAccessor settings body).body with
    | none =>
        exact List.nil_sublist _
    | some guard =>
        obtain ⟨entry, -, value, arguments, -⟩ :=
          exists_of_setterGuard? found
        obtain ⟨setter, -⟩ :=
          exists_of_setterValueIndex?
            (show context.decl.setterValueIndex? = some entry.2 by
              simpa [isSetterValue] using value)
        obtain ⟨layout, described, -⟩ :=
          (context.withFlags flags).exists_layout_beforeAccessor settings
            wellFormed
        have inhabited := firstId?_isSome described (by simpa using empty)
        rw [setterGuard?_withFlags within inhabited
          (fun parameter => alreadyGuards_withFlags within includes names
            wellFormed empty setter arguments) found]

end Within

/-! ## The plan of a method -/

/-- A method without parameters has no guards in front. -/
theorem entryGuards_of_parameters
    (none : context.decl.parameters = []) (settings : Settings)
    (body : MethodBody) : context.entryGuards settings body = [] := by
  have value :
      (context.decl.setterValueIndex?.bind fun index =>
        (context.decl.parameters[index]?).map (·, index)) =
          Option.none := by
    simp [none]
  rw [entryGuards, setterGuard?, value, none]
  simp [argumentGuards]

/-- What its own state machine runs would get no guards but as a state machine. -/
theorem IsMoveNext.exitGuards_eq_nil
    {types : List TypeId}
    (moveNext : context.IsMoveNext types context.method)
    (async : context.shape = .asyncStateMachine) :
    context.exitGuards = [] := by
  have getter : context.decl.isGetter = false :=
    moveNext.isGetter_eq_false
  simp [exitGuards, async, getter]

section Plans

variable
    (within : context.policy.flags.Within flags)
    {second old again : MethodBody}
    (sameLocals : second.locals = body.locals)
    (offers : context.graph.faultReport? again =
      context.graph.faultReport? old)

include within sameLocals offers

/-- What reports failures of a state machine is found again with more flags. -/
theorem machineReport?_withFlags
    {other setException : MethodId}
    (reports :
      context.machineReport? body other old = some setException) :
    (context.withFlags flags).machineReport? second other again =
      some setException := by
  obtain ⟨moveNext, found⟩ := machineReport?_eq_some_iff.mp reports
  obtain ⟨⟨async, checked⟩, machine⟩ := isMoveNext_machineTypes_iff.mp moveNext
  have checks : (context.withFlags flags).ChecksHandovers :=
    ⟨async, NullPolicy.checksResult_withFlags within checked⟩
  refine machineReport?_eq_some_iff.mpr
    ⟨isMoveNext_machineTypes_iff.mpr ⟨checks, ?_⟩, offers.trans found⟩
  rw [localTypes, sameLocals]
  exact machine

/-- With more flags, no guard of a method is left out. -/
theorem plan_withFlags
    (includes : context.graph.IncludesSystem)
    (names : context.graph.NamesSystemTypes)
    {other : MethodId} (wellFormed : old.WellFormed)
    (unwoven : other = context.method →
      context.decl.parameters ≠ [] → again = old) :
    (context.plan settings body other old).Within
      ((context.withFlags flags).plan settings second other again) := by
  cases reports : context.machineReport? body other old with
  | some setException =>
      rw [plan_of_machineReport? reports, plan_of_machineReport?
        (machineReport?_withFlags within sameLocals offers reports)]
      exact ⟨List.Sublist.refl _, .inr ⟨rfl, List.Sublist.refl _⟩⟩
  | none =>
      by_cases own : other = context.method
      · subst own
        rw [plan_own reports]
        have entry (none : context.decl.parameters = []) :
            (context.ownPlan settings old).front = [] :=
          entryGuards_of_parameters none settings old
        cases more :
            (context.withFlags flags).machineReport? second
              context.method again with
        | none =>
            have many :
                (context.withFlags flags).plan settings second
                    context.method again =
                  (context.withFlags flags).ownPlan settings again :=
              plan_own more
            rw [many]
            refine ⟨?_, .inr ⟨rfl, exitGuards_withFlags_sublist within⟩⟩
            by_cases none : context.decl.parameters = []
            · rw [entry none]
              exact List.nil_sublist _
            · rw [unwoven rfl none]
              exact entryGuards_withFlags_sublist within includes names
                wellFormed
        | some setException =>
            -- With more flags the method is one of its own state machines.
            obtain ⟨moveNext, -⟩ := machineReport?_eq_some_iff.mp more
            obtain ⟨⟨async, -⟩, machine⟩ := isMoveNext_machineTypes_iff.mp moveNext
            refine ⟨?_, .inl (IsMoveNext.exitGuards_eq_nil machine async)⟩
            rw [entry moveNext.parameters_eq_nil]
            exact List.nil_sublist _
      · rw [plan_of_ne own reports]
        exact .of_nothing _

end Plans

end MethodContext

end NullWeave
