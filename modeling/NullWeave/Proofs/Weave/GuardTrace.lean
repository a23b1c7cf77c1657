import Mathlib.Data.List.Chain
import NullWeave.Proofs.Code.OperationCount
import NullWeave.Proofs.Sequence
import NullWeave.Proofs.Weave.ContextGuards
import NullWeave.Proofs.Weave.WovenLayout

/-!
# Guards put in one after another

Whatever guards a body gets, and wherever they are put, each one adds a block of
instructions with fresh identities, in which only the first is hidden from
debuggers, and changes nothing else but targets.  So much follows from the order
in which guards are put in alone.  Where they end up is the matter of layouts.
-/

namespace NullWeave

/-! ## Traces -/

/-- The body that is left when guards were put into an original body, in order. -/
inductive GuardTrace (style : GuardStyle) (original : MethodBody) :
    List PlacedGuard → MethodBody → Prop where
  | start : GuardTrace style original [] original
  | put
      {placed : List PlacedGuard} {body next : MethodBody}
      {front back : List Instruction}
      (guard : Guard) (goesOn : InstrId) (change : InstrId → InstrId) :
      GuardTrace style original placed body →
      body.instructions = front ++ back →
      next.instructions =
        front.map (·.mapTargets change) ++
          (PlacedGuard.code style.debugBuild ⟨guard, body.nextId⟩ goesOn ++
            back.map (·.mapTargets change)) →
      next.locals = body.locals →
      next.debugInfo = body.debugInfo.hide body.nextId style.document →
      next.nextId.number =
        body.nextId.number + guard.size style.debugBuild →
      GuardTrace style original (placed ++ [⟨guard, body.nextId⟩]) next

/-- The hidden sequence points of guards, if there is a document for them. -/
def hiddenPoints
    (document : Option String) (placed : List PlacedGuard) :
    List SequencePoint :=
  document.toList.flatMap fun document =>
    placed.map fun guard => .hidden guard.start document

theorem hiddenPoints_append
    (document : Option String) (front back : List PlacedGuard) :
    hiddenPoints document (front ++ back) =
      hiddenPoints document front ++ hiddenPoints document back := by
  cases document <;> simp [hiddenPoints]

/-- A list of instructions without what their targets are. -/
def withoutTargets (instructions : List Instruction) : List Instruction :=
  instructions.map (·.mapTargets fun _ => .first)

@[simp]
theorem withoutTargets_append (front back : List Instruction) :
    withoutTargets (front ++ back) =
      withoutTargets front ++ withoutTargets back :=
  List.map_append

@[simp]
theorem withoutTargets_map_mapTargets
    (change : InstrId → InstrId) (instructions : List Instruction) :
    withoutTargets (instructions.map (·.mapTargets change)) =
      withoutTargets instructions := by
  simp [withoutTargets, Function.comp_def, Instruction.mapTargets,
    Operation.mapTargets_mapTargets]

@[simp]
theorem identities_withoutTargets (instructions : List Instruction) :
    identities (withoutTargets instructions) = identities instructions :=
  identities_map_mapTargets _ _

theorem countOperations_withoutTargets
    {test : Operation → Bool} (blind : Operation.SeesNoTarget test)
    (instructions : List Instruction) :
    countOperations test (withoutTargets instructions) =
      countOperations test instructions :=
  countOperations_map_mapTargets blind _ _

/-- The instructions of guards, wherever they go on. -/
def addedCode
    (debugBuild : Bool) (placed : List PlacedGuard) : List Instruction :=
  placed.flatMap fun guard => guard.code debugBuild .first

theorem addedCode_append
    (debugBuild : Bool) (front back : List PlacedGuard) :
    addedCode debugBuild (front ++ back) =
      addedCode debugBuild front ++ addedCode debugBuild back :=
  List.flatMap_append

theorem withoutTargets_code
    (debugBuild : Bool) (placed : PlacedGuard) (goesOn : InstrId) :
    withoutTargets (placed.code debugBuild goesOn) =
      addedCode debugBuild [placed] := by
  simp [withoutTargets, addedCode, PlacedGuard.map_mapTargets_code]

theorem widenBranches_withoutTargets (instructions : List Instruction) :
    widenBranches (withoutTargets instructions) =
      withoutTargets (widenBranches instructions) := by
  simp [widenBranches, withoutTargets, Instruction.withForm,
    Instruction.mapTargets, Operation.withForm_mapTargets]

/-- Guards have long branches. -/
theorem widenBranches_addedCode
    (debugBuild : Bool) (placed : List PlacedGuard) :
    widenBranches (addedCode debugBuild placed) =
      addedCode debugBuild placed := by
  have wide : ∀ guard : PlacedGuard,
      widenBranches (guard.code debugBuild .first) =
        guard.code debugBuild .first := by
    intro guard
    rw [PlacedGuard.code, widenBranches_numberFrom,
      Guard.map_withForm_operations]
  rw [addedCode, widenBranches, List.map_flatMap]
  exact List.flatMap_congr fun guard _ => wide guard

/-- Is an operation a branch? -/
def Operation.isBranch : Operation → Bool
  | .branch _ _ _ => true
  | _ => false

theorem Operation.seesNoTarget_isBranch : SeesNoTarget isBranch where
  mapTargets _ operation := by
    cases operation <;> rfl
  withForm _ operation := by
    cases operation <;> rfl

/-- The only branch of a guard is its test. -/
theorem Guard.countP_isBranch
    (debugBuild : Bool) (guard : Guard) (next : InstrId) :
    (guard.operations debugBuild next).countP Operation.isBranch = 1 := by
  have none : ∀ operations : List Operation,
      (∀ operation ∈ operations, operation.targets = []) →
        operations.countP Operation.isBranch = 0 := by
    intro operations quiet
    refine List.countP_eq_zero.mpr fun operation member => ?_
    have targets := quiet operation member
    cases operation <;> simp_all [Operation.targets, Operation.isBranch]
  rw [operations_eq, List.countP_append,
    none _ (guard.targets_loading debugBuild), List.countP_cons,
    none _ guard.targets_failing]
  rfl

namespace GuardTrace

variable
    {style : GuardStyle} {original body : MethodBody}
    {placed : List PlacedGuard}

/-- As many identities are given out as the guards take. -/
theorem nextId_eq (trace : GuardTrace style original placed body) :
    body.nextId.number =
      original.nextId.number + GuardRow.size style.debugBuild placed := by
  induction trace with
  | start =>
      rfl
  | put guard _ _ _ _ _ _ _ nextId inductionHypothesis =>
      rw [nextId, inductionHypothesis]
      simp [GuardRow.size, Nat.add_assoc]

/-- A guard starts at an identity that the original body had not given out. -/
theorem fresh_start (trace : GuardTrace style original placed body) :
    ∀ guard ∈ placed, original.nextId.number ≤ guard.start.number := by
  induction trace with
  | start =>
      simp
  | put _ _ _ before _ _ _ _ _ inductionHypothesis =>
      intro guard member
      rcases List.mem_append.mp member with old | new
      · exact inductionHypothesis guard old
      · rw [List.mem_singleton.mp new, before.nextId_eq]
        exact Nat.le_add_right _ _

/-- Each guard has the debugger step over its first instruction. -/
theorem points_eq (trace : GuardTrace style original placed body) :
    body.debugInfo.points =
        original.debugInfo.points ++ hiddenPoints style.document placed ∧
      body.debugInfo.scope = original.debugInfo.scope := by
  induction trace with
  | start =>
      cases style.document <;> simp [hiddenPoints]
  | put _ _ _ _ _ _ _ debugInfo _ inductionHypothesis =>
      rw [debugInfo, hiddenPoints_append, ← List.append_assoc,
        ← inductionHypothesis.1, ← inductionHypothesis.2]
      cases style.document <;> simp [DebugInfo.hide, hiddenPoints]

/-- A body has its own instructions and those of the guards, and no others. -/
theorem perm (trace : GuardTrace style original placed body) :
    (withoutTargets body.instructions).Perm
      (withoutTargets original.instructions ++
        addedCode style.debugBuild placed) := by
  induction trace with
  | start =>
      simp [addedCode]
  | @put placed before _ front back guard _ _ _ split instructions _ _ _
      inductionHypothesis =>
      obtain ⟨added, same⟩ :
          ∃ added,
            added =
              addedCode style.debugBuild [⟨guard, before.nextId⟩] :=
        ⟨_, rfl⟩
      rw [split, withoutTargets_append] at inductionHypothesis
      rw [instructions, withoutTargets_append, withoutTargets_append,
        withoutTargets_map_mapTargets, withoutTargets_map_mapTargets,
        withoutTargets_code, addedCode_append, ← same,
        ← List.append_assoc (withoutTargets original.instructions)]
      -- The new block may just as well stand at the end.
      have moved :
          (withoutTargets front ++ (added ++ withoutTargets back)).Perm
            ((withoutTargets front ++ withoutTargets back) ++ added) := by
        rw [List.append_assoc]
        exact List.perm_append_comm.append_left _
      exact moved.trans (inductionHypothesis.append_right added)

theorem perm_widenBranches
    (trace : GuardTrace style original placed body) :
    (withoutTargets (widenBranches body.instructions)).Perm
      (withoutTargets (widenBranches original.instructions) ++
        addedCode style.debugBuild placed) := by
  have wide := trace.perm.map (·.withForm .long)
  rw [List.map_append] at wide
  change (widenBranches _).Perm
    (widenBranches _ ++ widenBranches _) at wide
  rwa [widenBranches_withoutTargets, widenBranches_withoutTargets,
    widenBranches_addedCode] at wide

theorem mem_identities_iff
    (trace : GuardTrace style original placed body) {id : InstrId} :
    id ∈ identities body.instructions ↔
      id ∈ identities original.instructions ∨
        ∃ guard ∈ placed,
          id ∈ identities (guard.code style.debugBuild .first) := by
  have same := (trace.perm.map (·.id)).mem_iff (a := id)
  change id ∈ identities _ ↔ id ∈ identities _ at same
  rw [identities_withoutTargets, identities_append,
    identities_withoutTargets, List.mem_append] at same
  rw [same]
  simp only [addedCode, identities, List.map_flatMap, List.mem_flatMap]

/-- What is new in a body has an identity that the original body had not given out. -/
theorem fresh
    (trace : GuardTrace style original placed body) {id : InstrId}
    (member : id ∈ identities body.instructions)
    (other : id ∉ identities original.instructions) :
    original.nextId.number ≤ id.number := by
  rcases trace.mem_identities_iff.mp member with
    old | ⟨guard, among, inside⟩
  · exact absurd old other
  · exact Nat.le_trans (trace.fresh_start guard among)
      (mem_identities_numberFrom.mp inside).1

/-- The instructions of the original body keep their order. -/
theorem sublist (trace : GuardTrace style original placed body) :
    (identities original.instructions).Sublist
      (identities body.instructions) := by
  induction trace with
  | start =>
      exact List.Sublist.refl _
  | put _ _ _ _ split instructions _ _ _ inductionHypothesis =>
      refine inductionHypothesis.trans ?_
      rw [split, instructions, identities_append, identities_append,
        identities_append, identities_map_mapTargets,
        identities_map_mapTargets]
      exact (List.Sublist.refl _).append (List.sublist_append_right _ _)

/-- Guards add what each of them consists of. -/
theorem countOperations_eq
    {test : Operation → Bool} (blind : Operation.SeesNoTarget test)
    (trace : GuardTrace style original placed body) :
    countOperations test body.instructions =
      countOperations test original.instructions +
        countOperations test (addedCode style.debugBuild placed) := by
  have same :=
    trace.perm.countP_eq fun instruction => test instruction.operation
  change countOperations test _ = countOperations test _ at same
  rwa [countOperations_append, countOperations_withoutTargets blind,
    countOperations_withoutTargets blind] at same

/-- Where each guard satisfies a test once, it is satisfied once more for each guard. -/
theorem countOperations_of_once
    {test : Operation → Bool} (blind : Operation.SeesNoTarget test)
    (once : ∀ (guard : Guard) (next : InstrId),
      (guard.operations style.debugBuild next).countP test = 1)
    (trace : GuardTrace style original placed body) :
    countOperations test body.instructions =
      countOperations test original.instructions + placed.length := by
  rw [trace.countOperations_eq blind]
  congr 1
  clear trace
  induction placed with
  | nil =>
      rfl
  | cons guard rest inductionHypothesis =>
      rw [addedCode, List.flatMap_cons, ← addedCode,
        countOperations_append, PlacedGuard.code,
        countOperations_numberFrom, once, inductionHypothesis,
        List.length_cons, Nat.add_comm]

/-- There are as many new branches as guards. -/
theorem countOperations_isBranch
    (trace : GuardTrace style original placed body) :
    countOperations Operation.isBranch body.instructions =
      countOperations Operation.isBranch original.instructions +
        placed.length :=
  trace.countOperations_of_once Operation.seesNoTarget_isBranch
    (Guard.countP_isBranch style.debugBuild)

/-! ## New code hangs together -/

/-- May an identity follow another one, if what is new starts at guards only? -/
def Hangs
    (next : InstrId) (starts : List InstrId) (before id : InstrId) : Prop :=
  next.number ≤ id.number → id ∈ starts ∨ next.number ≤ before.number

/--
New instructions other than the first ones of guards follow new instructions.

So from any new instruction one gets back to the first one of a guard before
one gets to an instruction of the original body.
-/
structure HangsTogether
    (next : InstrId) (starts ids : List InstrId) : Prop where
  chain : ids.IsChain (Hangs next starts)
  head : ∀ id ∈ ids.head?, next.number ≤ id.number → id ∈ starts

namespace HangsTogether

variable {next : InstrId} {starts front back : List InstrId}

theorem insert
    (hangs : HangsTogether next starts (front ++ back))
    {start : InstrId} {rest : List InstrId}
    (new : ∀ id ∈ start :: rest, next.number ≤ id.number) :
    HangsTogether next (starts ++ [start])
      (front ++ (start :: rest ++ back)) where
  chain := by
    have grows : ∀ before id,
        Hangs next starts before id →
          Hangs next (starts ++ [start]) before id := by
      intro before id follows late
      exact (follows late).imp_left (List.mem_append_left _)
    obtain ⟨chainFront, chainBack, -⟩ :=
      List.isChain_append.mp (hangs.chain.imp grows)
    refine List.isChain_append.mpr ⟨chainFront,
      List.isChain_append.mpr ⟨?_, chainBack, ?_⟩, ?_⟩
    · refine (List.pairwise_of_forall_mem_list ?_).isChain
      intro before member _ _ _
      exact .inr (new before member)
    · intro before member _ _ _
      exact .inr (new before (List.mem_of_mem_getLast? member))
    · intro before _ id member _
      cases member
      exact .inl (by simp)
  head := by
    cases front with
    | nil =>
        intro id member _
        cases member
        simp
    | cons first others =>
        intro id member late
        exact List.mem_append_left _ (hangs.head id member late)

/-- Behind the first instruction of some guard, nothing but new instructions stand before a new one. -/
theorem exists_start
    {id : InstrId}
    (hangs : HangsTogether next starts (front ++ id :: back))
    (new : next.number ≤ id.number) :
    ∃ earlier start later,
      front ++ [id] = earlier ++ start :: later ∧ start ∈ starts ∧
        ∀ other ∈ start :: later, next.number ≤ other.number := by
  induction front using List.reverseRecOn generalizing id back with
  | nil =>
      exact ⟨[], id, [], rfl, hangs.head id rfl new, by simpa using new⟩
  | append_singleton front before inductionHypothesis =>
      have follows : Hangs next starts before id := by
        refine (List.isChain_append.mp hangs.chain).2.2 before ?_ id rfl
        simp
      rcases follows new with start | late
      · exact ⟨front ++ [before], id, [], rfl, start, by simpa using new⟩
      · rw [List.append_assoc] at hangs
        obtain ⟨earlier, start, later, split, among, allNew⟩ :=
          inductionHypothesis hangs late
        refine ⟨earlier, start, later ++ [id], ?_, among, ?_⟩
        · rw [split, List.append_assoc]
          rfl
        · intro other member
          rcases List.mem_append.mp
            (show other ∈ (start :: later) ++ [id] from member) with
            old | here
          · exact allNew other old
          · rw [List.mem_singleton.mp here]
            exact new

end HangsTogether

theorem hangsTogether
    (trace : GuardTrace style original placed body)
    (wellFormed : original.WellFormed) :
    HangsTogether original.nextId (placed.map (·.start))
      (identities body.instructions) := by
  induction trace with
  | start =>
      have old : ∀ id ∈ identities original.instructions,
          ¬ original.nextId.number ≤ id.number := by
        intro id member
        obtain ⟨instruction, here, rfl⟩ := mem_identities.mp member
        exact Nat.not_le.mpr (wellFormed.issued instruction here)
      refine ⟨(List.pairwise_of_forall_mem_list ?_).isChain, ?_⟩
      · intro _ _ id member late
        exact absurd late (old id member)
      · intro id member late
        exact absurd late (old id (List.mem_of_mem_head? member))
  | @put _ before _ front back guard goesOn _ trace split instructions _ _
      _ inductionHypothesis =>
      have new : ∀ id ∈ identities
          (PlacedGuard.code style.debugBuild ⟨guard, before.nextId⟩
            goesOn), original.nextId.number ≤ id.number := by
        intro id member
        have later :
            original.nextId.number ≤ before.nextId.number := by
          rw [trace.nextId_eq]
          exact Nat.le_add_right _ _
        exact later.trans (mem_identities_numberFrom.mp member).1
      have head :=
        PlacedGuard.head?_code style.debugBuild ⟨guard, before.nextId⟩
          goesOn
      rw [split, identities_append] at inductionHypothesis
      rw [instructions, identities_append, identities_append,
        identities_map_mapTargets, identities_map_mapTargets,
        List.map_append]
      cases code :
          PlacedGuard.code style.debugBuild ⟨guard, before.nextId⟩
            goesOn with
      | nil =>
          rw [code] at head
          cases head
      | cons first rest =>
          have start : first.id = before.nextId := by
            simpa [code] using head
          rw [code, identities_cons, start] at new
          rw [identities_cons, start]
          exact inductionHypothesis.insert new

end GuardTrace

/-! ## Guarded bodies have traces -/

/-- The instructions of a guard start with the fresh identity. -/
theorem Guard.exists_numberFrom_eq_cons
    (debugBuild : Bool) (guard : Guard) (start next : InstrId) :
    ∃ first rest,
      MethodBody.numberFrom start (guard.operations debugBuild next) =
          first :: rest ∧
        first.id = start := by
  have head := PlacedGuard.head?_code debugBuild ⟨guard, start⟩ next
  unfold PlacedGuard.code at head
  cases code :
      MethodBody.numberFrom start (guard.operations debugBuild next) with
  | nil =>
      rw [code] at head
      cases head
  | cons first rest =>
      exact ⟨first, rest, rfl, by simpa [code] using head⟩

namespace GuardedBody

/-- What a guard in front of a body tells debuggers, and that it is counted. -/
theorem told_addEntryGuard
    {guarded : GuardedBody} {entry : InstrId}
    (first : guarded.body.firstId? = some entry)
    (style : GuardStyle) (guard : Guard) :
    (guarded.addEntryGuard style guard).body.debugInfo =
        guarded.body.debugInfo.hide guarded.body.nextId style.document ∧
      (guarded.addEntryGuard style guard).guards =
        guarded.guards + 1 := by
  obtain ⟨start, rest, fragment, startId⟩ :=
    guard.exists_numberFrom_eq_cons style.debugBuild
      guarded.body.nextId entry
  simp [GuardedBody.addEntryGuard, first, MethodBody.makeInstructions,
    fragment, MethodBody.hideAndPrepend, MethodBody.hideFragment,
    MethodBody.prepend, GuardedBody.note, startId]

/-- What a guard before an instruction tells debuggers, and that it is counted. -/
theorem told_addExitGuard
    {guarded : GuardedBody} {index : Nat} {point : Instruction}
    (here : guarded.body.instructions[index]? = some point)
    (style : GuardStyle) (guard : Guard) :
    (guarded.addExitGuard style index guard).body.debugInfo =
        guarded.body.debugInfo.hide guarded.body.nextId style.document ∧
      (guarded.addExitGuard style index guard).guards =
        guarded.guards + 1 := by
  obtain ⟨start, rest, fragment, startId⟩ :=
    guard.exists_numberFrom_eq_cons style.debugBuild
      guarded.body.nextId point.id
  simp [GuardedBody.addExitGuard, here, MethodBody.makeInstructions,
    fragment, MethodBody.hideAndInsert, MethodBody.hideFragment,
    MethodBody.insertBefore, MethodBody.redirect_eq, GuardedBody.note,
    startId]

/-- A guarded body comes from an original one by as many guards as it counts. -/
def ComesFrom
    (style : GuardStyle) (original : MethodBody)
    (guarded : GuardedBody) : Prop :=
  ∃ placed, GuardTrace style original placed guarded.body ∧
    placed.length = guarded.guards

namespace ComesFrom

variable
    {style : GuardStyle} {original : MethodBody} {guarded : GuardedBody}

theorem start (style : GuardStyle) (original : MethodBody) :
    ComesFrom style original { body := original } :=
  ⟨[], .start, rfl⟩

theorem note
    (comes : guarded.ComesFrom style original)
    (level : LogLevel) (text : String) :
    (guarded.note level text).ComesFrom style original :=
  comes

theorem addEntryGuard
    (comes : guarded.ComesFrom style original) (guard : Guard) :
    (guarded.addEntryGuard style guard).ComesFrom style original := by
  obtain ⟨placed, trace, count⟩ := comes
  cases split : guarded.body.instructions with
  | nil =>
      have none : guarded.body.firstId? = none := by
        simp [MethodBody.firstId?, split]
      rw [GuardedBody.addEntryGuard, none]
      exact ⟨placed, trace, count⟩
  | cons entry rest =>
      have first : guarded.body.firstId? = some entry.id := by
        simp [MethodBody.firstId?, split]
      obtain ⟨instructions, -, locals, nextId⟩ :=
        addEntryGuard_of_cons split style guard
      obtain ⟨debugInfo, guards⟩ := told_addEntryGuard first style guard
      refine ⟨placed ++ [⟨guard, guarded.body.nextId⟩],
        .put guard entry.id id trace (List.nil_append _).symm ?_ locals
          debugInfo nextId, ?_⟩
      · rw [instructions]
        simp [Instruction.mapTargets]
      · rw [guards, ← count, List.length_append]
        rfl

theorem addExitGuard
    (comes : guarded.ComesFrom style original)
    (index : Nat) (guard : Guard) :
    (guarded.addExitGuard style index guard).ComesFrom style original := by
  obtain ⟨placed, trace, count⟩ := comes
  cases here : guarded.body.instructions[index]? with
  | none =>
      rw [GuardedBody.addExitGuard, here]
      exact ⟨placed, trace, count⟩
  | some point =>
      obtain ⟨front, back, split, rfl⟩ := exists_split_of_getElem? here
      obtain ⟨instructions, -, locals, nextId⟩ :=
        addExitGuard_of_split split style guard
      obtain ⟨debugInfo, guards⟩ := told_addExitGuard here style guard
      refine ⟨placed ++ [⟨guard, guarded.body.nextId⟩],
        .put guard _ _ trace split instructions locals debugInfo nextId, ?_⟩
      rw [guards, ← count, List.length_append]
      rfl

/-- Guards put into a body that comes from another one make one that does. -/
theorem keptByGuards (style : GuardStyle) (allowed : Guard → Prop) (original : MethodBody) :
    KeptByGuards style allowed (·.ComesFrom style original) where
  note _ _ _ comes := comes.note _ _
  entry _ guard _ comes := comes.addEntryGuard guard
  exit _ index guard _ comes := comes.addExitGuard index guard

end ComesFrom

end GuardedBody

namespace MethodContext

/-- The guards of a method are put into its widened body one after another. -/
theorem comesFrom_guardBody
    (context : MethodContext) (settings : Settings) (body : MethodBody) :
    (context.guardBody settings body).ComesFrom
      (MethodContext.style settings body) body.widen :=
  kept_guardBody (GuardedBody.ComesFrom.keptByGuards _ _ _) (.start _ _)

/-- The guards of a task are put into the widened body of its state machine one after another. -/
theorem comesFrom_guardHandovers
    (context : MethodContext) (debugBuild : Bool) (payload : Signature)
    (setException : MethodId) (body : MethodBody) :
    (context.guardHandovers debugBuild payload setException
      body).ComesFrom
      { debugBuild, document := body.debugInfo.document? } body.widen :=
  kept_guardHandovers (GuardedBody.ComesFrom.keptByGuards _ _ _) (.start _ _)

end MethodContext

end NullWeave
