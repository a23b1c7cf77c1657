import NullWeave.Proofs.Weave.GuardTrace
import NullWeave.Proofs.Weave.HandoverGuards

/-!
# Bodies that are rewritten

Weaving a method leaves every body alone or puts another one in its place, in
one of two ways: the body of the method itself gets entry guards and guards
before its returns, and the body of a state machine gets guards before the calls
that hand values over.  Either way the new body is well formed if the old one
is, and refers to nothing that it does not have.
-/

namespace NullWeave

namespace MethodBody

/-! ## Well-formed bodies up to forms -/

theorem WellFormed.of_widen
    {body : MethodBody} (wellFormed : body.widen.WellFormed) :
    body.WellFormed where
  distinct := by
    simpa using wellFormed.distinct
  issued := by
    intro instruction member
    exact wellFormed.issued (instruction.withForm .long)
      (List.mem_map_of_mem member)
  resolved := by
    have resolved := ensureResolved_eq_ok_iff.mp wellFormed.resolved
    refine ensureResolved_eq_ok_iff.mpr ?_
    simpa using resolved

theorem WellFormed.number_lt
    {body : MethodBody} (wellFormed : body.WellFormed) {id : InstrId}
    (member : id ∈ identities body.instructions) :
    id.number < body.nextId.number := by
  obtain ⟨instruction, here, rfl⟩ := mem_identities.mp member
  exact wellFormed.issued instruction here

theorem exists_named?_of_mem_references
    {body : MethodBody}
    (distinct : (identities body.instructions).Nodup) {id : InstrId}
    (member : id ∈ body.references) :
    ∃ reference, body.named? reference = some id := by
  rcases List.mem_append.mp member with target | boundary
  · obtain ⟨instruction, here, target⟩ := List.mem_flatMap.mp target
    obtain ⟨index, found⟩ := List.mem_iff_getElem?.mp target
    exact ⟨.target instruction.id index,
      (named?_target distinct here index).trans found⟩
  · obtain ⟨handler, here, boundary⟩ := List.mem_flatMap.mp boundary
    obtain ⟨position, handlerFound⟩ := List.mem_iff_getElem?.mp here
    obtain ⟨index, found⟩ := List.mem_iff_getElem?.mp boundary
    refine ⟨.boundary position index, ?_⟩
    rw [named?, handlerFound]
    exact found

end MethodBody

namespace GuardLayout.Describes

variable
    {layout : GuardLayout} {debugBuild : Bool}
    {original guarded : MethodBody}

theorem entrance_mem
    (described : layout.Describes debugBuild original guarded)
    {id : InstrId} (member : id ∈ identities original.instructions) :
    layout.entrance id ∈ identities guarded.instructions := by
  rw [described.instructions, code, identities_append]
  exact List.mem_append_right _ (entrance_mem_blocks layout debugBuild member)

/-- Guards put into a well-formed body leave a well-formed body. -/
theorem wellFormed
    (described : layout.Describes debugBuild original guarded)
    (whole : original.WellFormed) : guarded.WellFormed where
  distinct := described.distinct
  issued := fun _ member =>
    described.issued _ (id_mem_identities member)
  resolved := by
    refine MethodBody.ensureResolved_eq_ok_iff.mpr fun id member => ?_
    obtain ⟨reference, named⟩ :=
      MethodBody.exists_named?_of_mem_references described.distinct member
    rcases described.cases_of_named? whole named with
      ⟨old, oldNamed, rfl⟩ |
      ⟨left, placed, right, split, -, first, rest, instructions, rfl⟩ |
      ⟨point, here, left, placed, right, split, -, rfl⟩
    · exact described.entrance_mem
        (mem_identities_of_named? whole oldNamed)
    · cases right with
      | nil =>
          exact described.entrance_mem (by simp [instructions])
      | cons inner others =>
          have inside :
              inner.start ∈
                identities
                  (layout.frontCode debugBuild original.instructions) := by
            rw [instructions, frontCode]
            exact GuardRow.start_mem_code (by simp [split]) debugBuild _
          rw [described.instructions, code, identities_append]
          exact List.mem_append_left _ inside
    · rw [described.instructions, code, identities_append]
      exact List.mem_append_right _ (mem_identities_blocks here
        (entrance_mem_block_of_suffix split debugBuild))

end GuardLayout.Describes

theorem MethodContext.wellFormed_wovenBody
    (context : MethodContext) (settings : Settings) {body : MethodBody}
    (wellFormed : body.WellFormed) :
    (context.wovenBody settings body).WellFormed := by
  obtain ⟨layout, lays⟩ := context.exists_layout settings wellFormed
  exact (lays.woven.wellFormed wellFormed.widen).of_widen

/-! ## New bodies -/

/-- A body that weaving puts in place of another one, with the guarded body that it finishes. -/
inductive Rewrites
    (graph : Graph) (settings : Settings) (body : MethodBody) :
    MethodBody → Prop where
  /-- The body of the method that is woven. -/
  | own (context : MethodContext) :
      context.graph = graph →
      Rewrites graph settings body (context.wovenBody settings body)
  /-- The body of one of its state machines. -/
  | machine
      (context : MethodContext) (setException : MethodId) :
      context.graph = graph →
      graph.faultReport? body = some setException →
      Rewrites graph settings body
        (context.guardHandovers settings.debugBuild
          (context.graph.asyncPayload context.decl.returnType)
          setException body).finish

/-- What is common to both ways of rewriting a body. -/
structure Rewritten
    (graph : Graph) (settings : Settings) (body new : MethodBody)
    (guarded : GuardedBody) (layout : GuardLayout) : Prop where
  describes : layout.Describes settings.debugBuild body.widen new.widen
  /-- Guards stand only before returns and before calls that hand values over. -/
  unguarded : ∀ instruction ∈ body.instructions,
    instruction.operation.isRet = false →
      graph.isHandover instruction.operation = false →
        layout.before instruction.id = []
  comesFrom :
    guarded.ComesFrom (MethodContext.style settings body) body.widen
  /-- The guarded body is finished, and local variables may be set to zero on entry. -/
  finishes :
    ∃ initLocals, new = { guarded.finish with initLocals := initLocals }

theorem Rewrites.exists_rewritten
    {graph : Graph} {settings : Settings} {body new : MethodBody}
    (rewrites : Rewrites graph settings body new)
    (wellFormed : body.WellFormed) :
    ∃ guarded layout, Rewritten graph settings body new guarded layout := by
  cases rewrites with
  | own context same =>
      obtain ⟨layout, lays⟩ := context.exists_layout settings wellFormed
      refine ⟨context.guardBody settings body, layout, lays.woven, ?_,
        context.comesFrom_guardBody settings body, true, rfl⟩
      intro instruction member isRet _
      have guards := lays.before instruction member
      rw [isRet, if_neg Bool.false_ne_true] at guards
      exact List.map_eq_nil_iff.mp guards
  | machine context setException same _ =>
      obtain ⟨layout, lays⟩ :=
        context.exists_layout_handovers settings.debugBuild _
          setException wellFormed
      refine ⟨_, layout, lays.describes, ?_,
        context.comesFrom_guardHandovers settings.debugBuild _
          setException body, _, rfl⟩
      intro instruction member _ handover
      have guards := lays.before instruction member
      rw [same, handover, if_neg Bool.false_ne_true] at guards
      exact List.map_eq_nil_iff.mp guards

section Finished

variable
    {graph : Graph} {settings : Settings} {body new : MethodBody}
    {guarded : GuardedBody} {layout : GuardLayout}

theorem Rewritten.wellFormed
    (rewritten : Rewritten graph settings body new guarded layout)
    (whole : body.WellFormed) : new.WellFormed :=
  (rewritten.describes.wellFormed whole.widen).of_widen

theorem Rewritten.widenBranches_eq
    (rewritten : Rewritten graph settings body new guarded layout) :
    widenBranches new.instructions =
      widenBranches guarded.body.instructions := by
  obtain ⟨initLocals, rfl⟩ := rewritten.finishes
  exact widenBranches_narrowBranches (-128) 127 _

theorem Rewritten.identities_eq
    (rewritten : Rewritten graph settings body new guarded layout) :
    identities new.instructions =
      identities guarded.body.instructions := by
  rw [← identities_widenBranches, rewritten.widenBranches_eq,
    identities_widenBranches]

end Finished

namespace Weaver

/-! ## Runs on one method -/

/-- Weaving one method leaves each body alone or rewrites it. -/
theorem get?_of_run_weaveMethod
    {graph : Graph} {settings : Settings} {method : MethodId}
    {state final : WeaveState}
    (ran : (weaveMethod graph settings method).run state =
      (.ok (), final))
    (other : MethodId) :
    final.bodies.get? other = state.bodies.get? other ∨
      ∃ body new,
        state.bodies.get? other = some body ∧
          final.bodies.get? other = some new ∧
          Rewrites graph settings body new := by
  cases resolved : NullPolicy.resolve graph settings method with
  | error failure =>
      unfold weaveMethod at ran
      rw [run_bind, resolved] at ran
      cases ran
  | ok policy =>
      obtain ⟨context, rfl, rfl, rfl⟩ :
          ∃ context : MethodContext, context.graph = graph ∧
            context.method = method ∧ context.policy = policy :=
        ⟨⟨graph, method, policy⟩, rfl, rfl, rfl⟩
      rw [run_weaveMethod resolved] at ran
      split at ran
      · split at ran
        · cases ran
          exact .inl rfl
        · rename_i body present
          obtain ⟨progress, made, bodies⟩ := exists_hasMade_of_run ran
          by_cases pending : other ∈ progress.pending.map (·.1)
          · obtain ⟨entry, among, rfl⟩ := List.mem_map.mp pending
            obtain ⟨-, old, setException, there, reports, new⟩ :=
              made.made entry among
            refine .inr ⟨old, entry.2, there, ?_, ?_⟩
            · rw [bodies,
                Bodies.get?_foldl_set_of_mem made.distinct among]
            · rw [new]
              exact .machine context setException rfl reports
          · rw [bodies, Bodies.get?_foldl_set_of_not_mem pending]
            by_cases own : other = context.method
            · subst own
              rw [Bodies.get?_set_self]
              exact .inr ⟨body, _, present, rfl, .own context rfl⟩
            · rw [Bodies.get?_set_of_ne _ _ own]
              exact .inl rfl
      · cases ran
        exact .inl rfl

end Weaver

end NullWeave
