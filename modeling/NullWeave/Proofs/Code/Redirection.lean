import NullWeave.Proofs.Code.Forms

/-!
# Redirected references

Operations and handlers refer to instructions by identity.  One change of
identities after another is one change, and only what is referred to matters.
The change that redirects is the one that moves all references to one
instruction over to another and leaves the others.
-/

namespace NullWeave

namespace Operation

theorem mapTargets_congr
    {left right : InstrId → InstrId} {operation : Operation}
    (agree : ∀ id ∈ operation.targets, left id = right id) :
    operation.mapTargets left = operation.mapTargets right := by
  cases operation with
  | branch kind form target =>
      simp [mapTargets, agree target (by simp [targets])]
  | switch ids =>
      simpa [mapTargets, targets] using agree
  | _ => rfl

theorem mapTargets_mapTargets
    (inner outer : InstrId → InstrId) (operation : Operation) :
    (operation.mapTargets inner).mapTargets outer =
      operation.mapTargets (outer ∘ inner) := by
  cases operation <;> simp [mapTargets]

end Operation

theorem ExceptionHandler.mapBoundaries_congr
    {left right : InstrId → InstrId} {handler : ExceptionHandler}
    (agree : ∀ id ∈ handler.boundaries, left id = right id) :
    handler.mapBoundaries left = handler.mapBoundaries right := by
  rcases handler with ⟨kind, tryStart, tryEnd, handlerStart, handlerEnd⟩
  cases handlerEnd <;>
    simp_all [mapBoundaries, boundaries]

theorem ExceptionHandler.mapBoundaries_mapBoundaries
    (inner outer : InstrId → InstrId) (handler : ExceptionHandler) :
    (handler.mapBoundaries inner).mapBoundaries outer =
      handler.mapBoundaries (outer ∘ inner) := by
  simp [mapBoundaries]

/-- Every reference to one instruction moved to another. -/
def redirected (old new id : InstrId) : InstrId :=
  if id = old then new else id

@[simp]
theorem redirected_self (old new : InstrId) :
    redirected old new old = new := by
  simp [redirected]

theorem redirected_of_ne
    {old id : InstrId} (new : InstrId) (apart : id ≠ old) :
    redirected old new id = id := by
  simp [redirected, apart]

theorem MethodBody.redirect_eq
    (body : MethodBody) (old new : InstrId) :
    body.redirect old new =
      { body with
        instructions :=
          body.instructions.map (·.mapTargets (redirected old new))
        handlers :=
          body.handlers.map (·.mapBoundaries (redirected old new)) } :=
  rfl

end NullWeave
