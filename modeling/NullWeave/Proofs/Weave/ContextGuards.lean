import NullWeave.Weave.AsyncResult

/-!
# What all guards of a method keep

The guards of a method are put into its body one after another, each in front
of the body or before one of its instructions, and each checks a parameter or
the result.  So whatever one such guard keeps, wherever it is put, holds of the
whole guarded body if it holds of the body without guards.
-/

namespace NullWeave

/-- What every note keeps, and every guard of some sort, in front or before an instruction. -/
structure GuardedBody.KeptByGuards
    (style : GuardStyle) (allowed : Guard → Prop) (kept : GuardedBody → Prop) : Prop where
  note : ∀ guarded level text, kept guarded → kept (guarded.note level text)
  entry : ∀ guarded guard, allowed guard → kept guarded →
    kept (guarded.addEntryGuard style guard)
  exit : ∀ guarded index guard, allowed guard → kept guarded →
    kept (guarded.addExitGuard style index guard)

/-- What guards of a wider sort keep is kept by guards of a narrower one. -/
theorem GuardedBody.KeptByGuards.of_imp
    {style : GuardStyle} {allowed wider : Guard → Prop} {kept : GuardedBody → Prop}
    (closed : KeptByGuards style wider kept) (fewer : ∀ guard, allowed guard → wider guard) :
    KeptByGuards style allowed kept where
  note := closed.note
  entry guarded guard within := closed.entry guarded guard (fewer guard within)
  exit guarded index guard within := closed.exit guarded index guard (fewer guard within)

namespace MethodContext

/-- The guards of a method: they check its parameters, or what it returns. -/
inductive Makes (context : MethodContext) : Guard → Prop where
  | argument (index : Nat) (parameter : Parameter) (message : String) :
      parameter ∈ context.decl.parameters →
      Makes context (context.argumentGuard index parameter message)
  | out (slot : UInt16) (parameter : Parameter) (message : String) :
      parameter ∈ context.decl.parameters →
      Makes context
        { subject := .argument slot parameter.type
          message
          failure := .invalidOperation }
  | result (message : String) :
      Makes context (resultGuard context.decl.returnType message .throw)

section Keeping

variable {context : MethodContext} {style : GuardStyle} {kept : GuardedBody → Prop}
  {guarded : GuardedBody}

theorem kept_guardArguments (closed : GuardedBody.KeptByGuards style context.Makes kept)
    (holds : kept guarded) : kept (context.guardArguments style guarded) := by
  refine List.foldlRecOn _ _ holds fun guarded holds entry member => ?_
  have parameter := List.fst_mem_of_mem_zipIdx (List.mem_reverse.mp member)
  unfold guardArgument
  dsimp only
  split
  · exact holds
  · split
    · exact holds
    · split
      · exact closed.note _ _ _ holds
      · exact closed.entry _ _ (.argument _ _ _ parameter) holds

theorem kept_guardReturns (closed : GuardedBody.KeptByGuards style context.Makes kept)
    (holds : kept guarded) : kept (context.guardReturns style guarded) := by
  refine List.foldlRecOn _ _ holds fun guarded holds point _ => ?_
  unfold guardReturn
  refine List.foldlRecOn _ _ ?_ fun guarded holds entry member => ?_
  · split
    · exact closed.exit _ _ _ (.result _) holds
    · exact holds
  · have parameter := List.fst_mem_of_mem_zipIdx (List.mem_reverse.mp member)
    unfold guardOut
    dsimp only
    split
    · exact closed.exit _ _ _ (.out _ _ _ parameter) holds
    · exact holds

theorem kept_guardAccessor (closed : GuardedBody.KeptByGuards style context.Makes kept)
    (holds : kept guarded) : kept (context.guardAccessor style guarded) := by
  unfold guardAccessor
  split
  · unfold guardSetterValue
    dsimp only
    split
    · exact holds
    · rename_i value index found
      obtain ⟨place, -, there⟩ := Option.bind_eq_some_iff.mp found
      obtain ⟨parameter, here, same⟩ := Option.map_eq_some_iff.mp there
      cases same
      split
      · exact closed.entry _ _ (.argument _ _ _ (List.mem_of_getElem? here)) holds
      · exact holds
  · split
    · unfold guardGetterResult
      dsimp only
      split
      · refine List.foldlRecOn _ _ holds fun guarded holds point _ => ?_
        exact closed.exit _ _ _ (.result _) holds
      · exact holds
    · exact holds

/-- What the guards of a method keep holds of its guarded body. -/
theorem kept_guardBody {settings : Settings} {body : MethodBody}
    (closed : GuardedBody.KeptByGuards (MethodContext.style settings body) context.Makes kept)
    (start : kept { body := body.widen }) : kept (context.guardBody settings body) := by
  have entered : kept (context.guardEntry settings body) := by
    unfold guardEntry
    dsimp only
    split
    · exact kept_guardArguments closed start
    · exact start
  refine kept_guardAccessor closed ?_
  split
  · exact kept_guardReturns closed entered
  · exact entered

/-- What the guard of a task keeps holds of the guarded body of its state machine. -/
theorem kept_guardHandovers {debugBuild : Bool} {payload : Signature}
    {setException : MethodId} {body : MethodBody}
    (closed : GuardedBody.KeptByGuards { debugBuild, document := body.debugInfo.document? }
      (· = resultGuard payload (returnMessage context.name) (.report setException)) kept)
    (start : kept { body := body.widen }) :
    kept (context.guardHandovers debugBuild payload setException body) :=
  List.foldlRecOn _ _ start fun _ holds _ _ => closed.exit _ _ _ rfl holds

end Keeping

end MethodContext

end NullWeave
