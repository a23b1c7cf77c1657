import NullWeave.Proofs.Weave.EntryParameters
import NullWeave.Proofs.Weave.GuardCount

/-!
# Entry guards of a body that has them

A guard at the entry is recognised in the body that it was put into.  So are
the guards that the original body held, unless a guard before a return came
between their parts; and once guards stand before the returns, none comes
between the parts of anything that is still recognised.

So when a method is woven again, a parameter gets a guard at the entry only if
the original body was taken to guard it by operations that have a return in the
place of the message.
-/

namespace NullWeave

/-! ## Rows that open a body -/

/-- A row of guards opens a body: the body begins with it, and it goes on at what follows. -/
def GuardRow.Opens
    (row : GuardRow) (debugBuild : Bool) (body : MethodBody) : Prop :=
  ∃ goesOn back,
    widenBranches body.instructions = row.code debugBuild goesOn ++ back ∧
      ∀ first ∈ back.head?, first.id = goesOn

namespace GuardLayout

theorem blocks_of_unguarded
    {layout : GuardLayout} {instructions : List Instruction}
    (unguarded : ∀ instruction ∈ instructions,
      layout.before instruction.id = [])
    (debugBuild : Bool) :
    layout.blocks debugBuild instructions =
      instructions.map (·.mapTargets layout.entrance) := by
  induction instructions with
  | nil =>
      rfl
  | cons instruction rest inductionHypothesis =>
      rw [List.forall_mem_cons] at unguarded
      rw [blocks_cons, block, unguarded.1, inductionHypothesis unguarded.2]
      rfl

namespace Describes

variable
    {layout : GuardLayout} {debugBuild : Bool} {body new : MethodBody}

/-- The front row of a guarded body opens it. -/
theorem opens
    (described : layout.Describes debugBuild body.widen new.widen)
    (entered : body.instructions = [] → layout.front = []) :
    layout.front.Opens debugBuild new := by
  have instructions := described.instructions
  cases whole : body.widen.instructions with
  | nil =>
      have empty : body.instructions = [] := by
        simpa using whole
      rw [whole] at instructions
      exact ⟨.first, [], by rw [entered empty]; exact instructions, nofun⟩
  | cons first rest =>
      obtain ⟨start, others, blocks, startId⟩ :=
        layout.blocks_eq_cons debugBuild first rest
      rw [whole, code, blocks] at instructions
      refine ⟨layout.entrance first.id, start :: others, instructions, ?_⟩
      rintro _ ⟨⟩
      exact startId

/-- A row that opens a body opens it behind what is put in front of the body, too. -/
theorem opens_behind
    {row : GuardRow} (opens : row.Opens debugBuild body)
    (described : layout.Describes debugBuild body.widen new.widen)
    (entered : body.instructions = [] → layout.front = [])
    (quiet : row.Quiet debugBuild Operation.isRet)
    (unguarded : ∀ instruction ∈ body.widen.instructions,
      instruction.operation.isRet = false →
        layout.before instruction.id = []) :
    GuardRow.Opens (layout.front ++ row) debugBuild new := by
  obtain ⟨goesOn, back, split, follows⟩ := opens
  have instructions := described.instructions
  rw [MethodBody.instructions_widen, MethodBody.instructions_widen, split]
    at instructions
  rw [MethodBody.instructions_widen, split] at unguarded
  have alone : ∀ instruction ∈ row.code debugBuild goesOn,
      layout.before instruction.id = [] := fun instruction member =>
    unguarded instruction (List.mem_append_left _ member)
      (quiet.code goesOn instruction member)
  have fixed : ∀ placed ∈ row, layout.entrance placed.start =
      placed.start := by
    intro placed member
    obtain ⟨instruction, inside, same⟩ :=
      mem_identities.mp (GuardRow.start_mem_code member debugBuild goesOn)
    rw [entrance, ← same, alone instruction inside]
    rfl
  -- The row stays as it is, and goes on where the references of the body lead.
  have stays :
      layout.blocks debugBuild (row.code debugBuild goesOn) =
        row.code debugBuild (layout.entrance goesOn) := by
    rw [blocks_of_unguarded alone, GuardRow.map_mapTargets_code
      fun placed member => fixed placed (List.mem_of_mem_tail member)]
  have first :
      layout.frontCode debugBuild (row.code debugBuild goesOn ++ back) =
        layout.front.code debugBuild
          (row.entrance (layout.entrance goesOn)) := by
    cases row with
    | nil =>
        cases back with
        | nil =>
            have empty : body.instructions = [] := by
              simpa using split
            rw [entered empty]
            rfl
        | cons point rest =>
            rw [GuardRow.entrance_nil, ← follows point rfl]
            rfl
    | cons placed others =>
        have head :=
          placed.head?_code debugBuild (GuardRow.entrance others goesOn)
        rw [GuardRow.code_cons, GuardRow.entrance_cons, List.append_assoc]
        cases code :
            placed.code debugBuild (GuardRow.entrance others goesOn) with
        | nil =>
            rw [code] at head
            cases head
        | cons start rest =>
            have startId : start.id = placed.start := by
              simpa [code] using head
            rw [← fixed placed (List.mem_cons_self ..), ← startId]
            rfl
  refine ⟨layout.entrance goesOn, layout.blocks debugBuild back, ?_, ?_⟩
  · rw [instructions, code, first, blocks_append, stays,
      GuardRow.code_append, List.append_assoc]
  · intro start member
    cases back with
    | nil =>
        cases member
    | cons point rest =>
        obtain ⟨opening, others, blocks, openingId⟩ :=
          layout.blocks_eq_cons debugBuild point rest
        rw [blocks] at member
        cases member
        rw [openingId, follows point rfl]

end Describes

end GuardLayout

/-! ## Nothing is broken twice -/

/-- Does a throw stand directly before every operation that satisfies a test, but for the first? -/
def ThrowsBefore
    (test : Operation → Bool) (operations : List Operation) : Prop :=
  operations.IsChain fun before operation =>
    test operation = true → throwsException before = true

/-- Where a throw stands before all that could be broken, nothing loads a name there. -/
theorem keepsGuard_of_throwsBefore
    {graph : Graph} {parameter : String} {broken : Operation → Bool}
    {operations : List Operation}
    (throws : ThrowsBefore broken operations) :
    keepsGuard graph parameter broken operations =
      alreadyGuards graph parameter operations := by
  induction operations with
  | nil =>
      rfl
  | cons operation rest inductionHypothesis =>
      have whole :
          (beginsWithLongGuard graph parameter (operation :: rest) &&
              !rest.head?.any broken) =
            beginsWithLongGuard graph parameter (operation :: rest) := by
        cases rest with
        | nil =>
            cases operation <;> rfl
        | cons message later =>
            rw [beginsWithLongGuard_eq, beginsWith]
            cases breaks : broken message with
            | false =>
                simp [breaks]
            | true =>
                have leaves := (List.isChain_cons_cons.mp throws).1 breaks
                cases operation <;> simp_all [throwsException, loadsString]
      rw [keepsGuard, alreadyGuards, whole,
        inductionHypothesis (List.IsChain.tail throws)]

/-- What does not stay whole has something in the place of the message that breaks it. -/
theorem exists_broken_guard
    {graph : Graph} {parameter : String} {broken : Operation → Bool}
    {operations : List Operation}
    (recognised : alreadyGuards graph parameter operations = true)
    (lost : keepsGuard graph parameter broken operations = false) :
    ∃ earlier message constructor later,
      operations =
          earlier ++ .ldStr parameter :: message :: .newObj constructor ::
            .throw :: later ∧
        broken message = true := by
  induction operations with
  | nil =>
      cases recognised
  | cons operation rest inductionHypothesis =>
      simp only [keepsGuard, alreadyGuards, Bool.or_eq_true,
        Bool.or_eq_false_iff] at recognised lost
      obtain ⟨⟨short, whole⟩, lostLater⟩ := lost
      rcases recognised with (found | found) | later
      · rw [short] at found
        cases found
      · rw [found, Bool.true_and, Bool.not_eq_false'] at whole
        rcases rest with _ | ⟨message, _ | ⟨construct, _ | ⟨leave, rest⟩⟩⟩
        · cases found
        · cases found
        · cases found
        simp only [beginsWithLongGuard, Bool.and_eq_true] at found
        obtain ⟨⟨loads, constructs⟩, throws⟩ := found
        cases operation <;> try cases loads
        cases construct <;> try cases constructs
        cases leave <;> try cases throws
        rw [beq_iff_eq.mp loads]
        exact ⟨[], message, _, rest, rfl, whole⟩
      · obtain ⟨earlier, message, constructor, behind, split, breaks⟩ :=
          inductionHypothesis later lostLater
        exact ⟨operation :: earlier, message, constructor, behind,
          by rw [split]; rfl, breaks⟩

section ThrowsBefore

variable {test : Operation → Bool}

theorem throwsBefore_of_quiet
    {operations : List Operation}
    (quiet : ∀ operation ∈ operations, test operation = false) :
    ThrowsBefore test operations := by
  refine (List.pairwise_of_forall_mem_list ?_).isChain
  intro before _ operation member tested
  rw [quiet operation member] at tested
  cases tested

/-- A row of guards that throw ends in a throw. -/
theorem GuardRow.throws_of_getLast?
    {row : GuardRow}
    (throws : ∀ guard ∈ row.map (·.guard), guard.exit = .throw)
    (debugBuild : Bool) (next : InstrId) :
    ∀ last ∈ (operationsOf (row.code debugBuild next)).getLast?,
      throwsException last = true := by
  intro last ends
  rcases List.eq_nil_or_concat row with rfl | ⟨others, placed, rfl⟩
  · cases ends
  · rw [List.concat_eq_append] at throws ends
    have leaves :=
      PlacedGuard.getLast?_code (throws placed.guard (by simp)) debugBuild
        next
    rw [code_append, code_cons, code_nil, List.append_nil, entrance_nil,
      operationsOf_append, List.getLast?_append, operationsOf,
      List.getLast?_map, leaves] at ends
    cases ends
    rfl

theorem GuardLayout.throwsBefore_blocks
    (layout : GuardLayout) (debugBuild : Bool)
    {instructions : List Instruction}
    (sameTest : ∀ change operation,
      test (operation.mapTargets change) = test operation)
    (breaks : layout.BreaksAt test instructions)
    (throws : ∀ instruction ∈ instructions,
      ∀ guard ∈ layout.guardsBefore instruction.id, guard.exit = .throw)
    (quiet : ∀ operation, operation.isRet = false →
      test operation = false) :
    ThrowsBefore test
        (operationsOf (layout.blocks debugBuild instructions)) ∧
      ∀ first ∈
        (operationsOf (layout.blocks debugBuild instructions)).head?,
        test first = false := by
  induction instructions with
  | nil =>
      exact ⟨List.IsChain.nil, by simp⟩
  | cons instruction rest inductionHypothesis =>
      rw [BreaksAt, List.forall_mem_cons] at breaks
      rw [List.forall_mem_cons] at throws
      obtain ⟨chain, head⟩ := inductionHypothesis breaks.2 throws.2
      have silent : ∀ operation ∈ operationsOf
          ((layout.before instruction.id).code debugBuild instruction.id),
          test operation = false := by
        intro operation member
        obtain ⟨added, inside, rfl⟩ := List.mem_map.mp member
        exact quiet _ ((GuardRow.quiet_of_throws throws.1
          debugBuild).code instruction.id added inside)
      rw [operationsOf_blocks_cons]
      refine ⟨?_, ?_⟩
      · refine List.isChain_append.mpr
          ⟨throwsBefore_of_quiet silent, ?_, ?_⟩
        · refine List.isChain_cons.mpr ⟨?_, chain⟩
          intro first starts tested
          rw [head first starts] at tested
          cases tested
        · intro last ends _ _ _
          exact GuardRow.throws_of_getLast? throws.1 debugBuild
            instruction.id last ends
      · intro first starts
        rw [List.head?_append] at starts
        cases row : (operationsOf ((layout.before instruction.id).code
            debugBuild instruction.id)).head? with
        | some operation =>
            rw [row] at starts
            cases starts
            exact silent first (List.mem_of_head? row)
        | none =>
            rw [row] at starts
            cases starts
            have empty : layout.before instruction.id = [] := by
              by_contra nonempty
              obtain ⟨opening, second, others, code, -, -⟩ :=
                operationsOf_code_eq_cons default nonempty debugBuild
                  instruction.id
              rw [code] at row
              cases row
            have here := breaks.1
            rw [sameTest]
            by_contra tested
            rw [Bool.not_eq_false] at tested
            rw [tested, if_pos rfl] at here
            exact here.2 empty

end ThrowsBefore

namespace MethodContext

variable {context : MethodContext} {body : MethodBody}

/-! ## Visits to parameters -/

section Visits

variable
    {layout : GuardLayout} {style : GuardStyle} {guarded : GuardedBody}
    (includes : context.graph.IncludesSystem)
    (names : context.graph.NamesSystemTypes)
    (nonempty : body.instructions ≠ [])

include includes names nonempty

/-- A parameter that is named in front already gets no other guard. -/
theorem argumentGuard?_of_named
    (described :
      layout.Describes style.debugBuild body.widen guarded.body)
    (unguarded : layout.before = fun _ => [])
    (throws : ∀ guard ∈ layout.front.map (·.guard), guard.exit = .throw)
    {entry : Parameter × Nat}
    (named : ∃ guard ∈ layout.front.map (·.guard),
      guard.failure = .argumentNull entry.1.name) :
    context.argumentGuard? guarded.body entry = none := by
  have whole :
      layout.BreaksAt (fun _ => false) body.widen.instructions := by
    intro instruction _
    simp [unguarded]
  have recognised :=
    (described.alreadyGuards_iff includes names nonempty (fun _ => rfl)
      whole throws (by simp [GuardLayout.guardsBefore, unguarded])).mpr
      (.inl named)
  simp [argumentGuard?, recognised]

/--
Visits to parameters put guards in front only of parameters that are to be
guarded, and leave none of these without a guard.
-/
theorem argumentGuards_cover
    (described :
      layout.Describes style.debugBuild body.widen guarded.body)
    (unguarded : layout.before = fun _ => [])
    (throws : ∀ guard ∈ layout.front.map (·.guard), guard.exit = .throw)
    (entries : List (Parameter × Nat)) :
    (∀ guard ∈ context.argumentGuards style guarded entries,
      ∃ entry ∈ entries, context.guardsOther body entry = true ∧
        guard = context.entryGuard entry) ∧
    ∀ entry ∈ entries, context.guardsOther body entry = true →
      ∃ guard ∈ context.argumentGuards style guarded entries ++
          layout.front.map (·.guard),
        guard.failure = .argumentNull entry.1.name := by
  induction entries generalizing layout guarded with
  | nil =>
      exact ⟨nofun, nofun⟩
  | cons entry rest inductionHypothesis =>
      have wide : body.widen.instructions ≠ [] := by
        simpa using nonempty
      obtain ⟨entered, describedNext, front, before⟩ :=
        described.enter
          (context.body_guardArgument style guarded entry)
          firstId?_of_argumentGuard?
      -- What the visit to the parameter puts in front, if anything.
      have visited :
          (∀ guard ∈ (context.argumentGuard? guarded.body entry).toList,
            context.guardsOther body entry = true ∧
              guard = context.entryGuard entry) ∧
          (context.guardsOther body entry = true →
            ∃ guard ∈ entered.front.map (·.guard),
              guard.failure = .argumentNull entry.1.name) := by
        rw [front]
        by_cases named :
            ∃ guard ∈ layout.front.map (·.guard),
              guard.failure = .argumentNull entry.1.name
        · rw [argumentGuard?_of_named includes names nonempty described
            unguarded throws named]
          exact ⟨nofun, fun _ => named⟩
        · rw [argumentGuard?_eq includes names described unguarded wide
            fun guard member =>
              ⟨throws guard member,
                fun same => named ⟨guard, member, same⟩⟩]
          cases context.guardsOther body entry with
          | false =>
              exact ⟨nofun, nofun⟩
          | true =>
              exact ⟨by simp, fun _ =>
                ⟨context.entryGuard entry, by simp, rfl⟩⟩
      have throwsNext :
          ∀ guard ∈ entered.front.map (·.guard), guard.exit = .throw := by
        intro guard member
        rw [front] at member
        rcases List.mem_append.mp member with new | old
        · rw [(visited.1 guard new).2]
          rfl
        · exact throws guard old
      obtain ⟨sound, complete⟩ :=
        inductionHypothesis describedNext (before.trans unguarded)
          throwsNext
      rw [front] at complete
      rw [argumentGuards]
      refine ⟨?_, ?_⟩
      · intro guard member
        rcases List.mem_append.mp member with later | here
        · obtain ⟨other, among, rest⟩ := sound guard later
          exact ⟨other, List.mem_cons_of_mem _ among, rest⟩
        · exact ⟨entry, List.mem_cons_self .., visited.1 guard here⟩
      · intro other member guards
        rw [List.append_assoc]
        rcases List.mem_cons.mp member with rfl | later
        · obtain ⟨guard, here, named⟩ := visited.2 guards
          rw [front] at here
          exact ⟨guard, List.mem_append_right _ here, named⟩
        · exact complete other later guards

end Visits

/-! ## The first run -/

section FirstRun

variable
    {settings : Settings}
    (includes : context.graph.IncludesSystem)
    (names : context.graph.NamesSystemTypes)
    (nonempty : body.instructions ≠ [])
    (wellFormed : body.WellFormed)

include includes names nonempty wellFormed

theorem earlyEntryGuards_cover
    (arguments : context.policy.flags.arguments = true) :
    (∀ guard ∈ context.earlyEntryGuards settings body,
      ∃ entry ∈ context.decl.parameters.zipIdx,
        context.guardsOther body entry = true ∧
          guard = context.entryGuard entry) ∧
    ∀ entry ∈ context.decl.parameters.zipIdx,
      context.guardsOther body entry = true →
        ∃ guard ∈ context.earlyEntryGuards settings body,
          guard.failure = .argumentNull entry.1.name := by
  have start :
      GuardLayout.Describes {} (style settings body).debugBuild
        body.widen ({ body := body.widen } : GuardedBody).body :=
    GuardLayout.describes_self settings.debugBuild wellFormed.widen
  have covered :=
    argumentGuards_cover includes names nonempty start rfl nofun
      context.decl.parameters.zipIdx.reverse
  rw [earlyEntryGuards, if_pos arguments]
  simpa using covered

/-- Every parameter that is checked is named by a guard at the entry, or was recognised. -/
theorem entryGuards_cover
    (arguments : context.policy.flags.arguments = true)
    {entry : Parameter × Nat}
    (listed : entry ∈ context.decl.parameters.zipIdx)
    (checked :
      context.policy.checksArgument context.graph entry.1 = true) :
    (∃ guard ∈ context.entryGuards settings body,
        guard.failure = .argumentNull entry.1.name) ∨
      context.recognises body entry = true := by
  have early :
      ∀ entry ∈ context.decl.parameters.zipIdx,
        context.guardsOther body entry = true →
          ∃ guard ∈ context.earlyEntryGuards settings body,
            guard.failure = .argumentNull entry.1.name :=
    (earlyEntryGuards_cover includes names nonempty wellFormed
      arguments).2
  have among := context.earlyEntryGuards_sublist settings body
  cases value : context.isSetterValue entry with
  | false =>
      cases recognised : context.recognises body entry with
      | true =>
          exact .inr rfl
      | false =>
          obtain ⟨guard, member, named⟩ :=
            early entry listed
              (by simp [guardsOther, guardsParameter, checked, recognised,
                value])
          exact .inl ⟨guard, among.subset member, named⟩
  | true =>
      have found : context.decl.setterValueIndex? = some entry.2 := by
        simpa [isSetterValue] using value
      obtain ⟨setter, -⟩ := exists_of_setterValueIndex? found
      have here : context.decl.parameters[entry.2]? = some entry.1 :=
        List.mem_zipIdx_iff_getElem?.mp listed
      obtain ⟨layout, described, -, -⟩ :=
        context.exists_layout_beforeAccessor settings wellFormed
      have inhabited :=
        firstId?_isSome described
          (show body.widen.instructions ≠ [] by
            simpa using nonempty)
      rw [recognises, if_pos value]
      cases looked :
          (context.guardBeforeAccessor settings body).body.alreadyGuards
            context.graph entry.1.name with
      | true =>
          refine ((alreadyGuards_guardBeforeAccessor_iff includes names
            settings wellFormed nonempty setter).mp looked).imp_left ?_
          rintro ⟨guard, member, named⟩
          exact ⟨guard, among.subset member, named⟩
      | false =>
          refine .inl ⟨context.entryGuard entry,
            List.mem_append_left _ ?_, rfl⟩
          simp [setterGuard?, found, here, inhabited, arguments, checked,
            looked, entryGuard, entryMessage, value]

end FirstRun

/-! ## The new body -/

section NewBody

variable
    {settings : Settings}
    (includes : context.graph.IncludesSystem)
    (names : context.graph.NamesSystemTypes)
    (nonempty : body.instructions ≠ [])
    (wellFormed : body.WellFormed)

include wellFormed in
/-- Nothing that is recognised in the new body of a method can be broken by a guard. -/
theorem keepsGuard_wovenBody (parameter : String) :
    keepsGuard context.graph parameter context.guardsBeforeOperation
        (operationsOf (context.wovenBody settings body).instructions) =
      (context.wovenBody settings body).alreadyGuards context.graph
        parameter := by
  obtain ⟨layout, lays⟩ := context.exists_layout settings wellFormed
  have quiet : ∀ operation : Operation, operation.isRet = false →
      context.guardsBeforeOperation operation = false := by
    intro operation stays
    simp [guardsBeforeOperation, stays]
  obtain ⟨chain, head⟩ :=
    layout.throwsBefore_blocks settings.debugBuild
      context.guardsBeforeOperation_mapTargets
      (breaksAt_guardsBeforeOperation lays.rows_widen)
      (fun instruction member guard here =>
        (apart_of_rows lays.rows_widen parameter instruction member guard
          here).1)
      quiet
  have throws :
      ThrowsBefore context.guardsBeforeOperation
        (operationsOf
          (context.wovenBody settings body).widen.instructions) := by
    rw [lays.woven.instructions, GuardLayout.code, operationsOf_append]
    refine List.isChain_append.mpr
      ⟨throwsBefore_of_quiet ?_, chain, ?_⟩
    · intro operation member
      obtain ⟨added, inside, rfl⟩ := List.mem_map.mp member
      unfold GuardLayout.frontCode at inside
      split at inside
      · cases inside
      · exact quiet _ (lays.quiet_front.code _ added inside)
    · intro last _ first starts tested
      rw [head first starts] at tested
      cases tested
  rw [← keepsGuard_withForm (context.guardsBeforeOperation_withForm .long),
    ← MethodBody.alreadyGuards_widen, ← operationsOf_widen]
  exact keepsGuard_of_throwsBefore throws

include includes names nonempty wellFormed in
/-- What is recognised in the new body of a method. -/
theorem alreadyGuards_wovenBody_iff {parameter : String} :
    (context.wovenBody settings body).alreadyGuards context.graph
        parameter = true ↔
      (∃ guard ∈ context.entryGuards settings body,
          guard.failure = .argumentNull parameter) ∨
        keepsGuard context.graph parameter context.guardsBeforeOperation
          (operationsOf body.instructions) = true := by
  obtain ⟨layout, lays⟩ := context.exists_layout settings wellFormed
  rw [← lays.front, ← MethodBody.alreadyGuards_widen]
  refine lays.woven.alreadyGuards_iff includes names nonempty
    (context.guardsBeforeOperation_withForm .long)
    (breaksAt_guardsBeforeOperation lays.rows_widen) ?_
    (apart_of_rows lays.rows_widen parameter)
  rw [lays.front]
  exact context.exit_entryGuards settings body

end NewBody

theorem wovenBody_eq_nil_iff
    (settings : Settings) (wellFormed : body.WellFormed) :
    (context.wovenBody settings body).instructions = [] ↔
      body.instructions = [] := by
  obtain ⟨layout, lays⟩ := context.exists_layout settings wellFormed
  have wide : ∀ some : MethodBody,
      some.widen.instructions = [] ↔ some.instructions = [] := by
    simp
  rw [← wide, ← wide body]
  constructor
  · intro empty
    by_contra nonempty
    have inhabited := firstId?_isSome lays.woven nonempty
    rw [MethodBody.firstId?, empty] at inhabited
    cases inhabited
  · intro empty
    rw [lays.woven.instructions, empty]
    rfl

/-- What is known of a setter whose value gets a guard. -/
theorem exists_of_setterGuard?
    {guarded : MethodBody} {guard : Guard}
    (found : context.setterGuard? guarded = some guard) :
    ∃ entry ∈ context.decl.parameters.zipIdx,
      context.isSetterValue entry = true ∧
        context.policy.flags.arguments = true ∧
        context.policy.checksArgument context.graph entry.1 = true ∧
        guarded.alreadyGuards context.graph entry.1.name = false := by
  obtain ⟨⟨value, index⟩, last, checked⟩ := Option.bind_eq_some_iff.mp found
  obtain ⟨place, here, listed⟩ := Option.bind_eq_some_iff.mp last
  obtain ⟨parameter, among, same⟩ := Option.map_eq_some_iff.mp listed
  cases same
  simp only [Option.ite_none_right_eq_some, Bool.and_eq_true,
    Bool.not_eq_true'] at checked
  obtain ⟨⟨⟨⟨-, arguments⟩, checks⟩, missed⟩, -⟩ := checked
  exact ⟨(value, index), List.mem_zipIdx_iff_getElem?.mpr among,
    by simp [isSetterValue, here], arguments, checks, missed⟩

/-! ## The second run -/

/--
A parameter that the first run took for one that the body guards, though a
guard before a return came between the parts of what it took for the guard.
-/
structure LosesGuard
    (context : MethodContext) (settings : Settings) (body : MethodBody)
    (entry : Parameter × Nat) : Prop where
  arguments : context.policy.flags.arguments = true
  listed : entry ∈ context.decl.parameters.zipIdx
  checked : context.policy.checksArgument context.graph entry.1 = true
  recognised : body.alreadyGuards context.graph entry.1.name = true
  broken :
    keepsGuard context.graph entry.1.name context.guardsBeforeOperation
      (operationsOf body.instructions) = false
  /-- No guard at the entry names it either. -/
  unguarded : ∀ guard ∈ context.entryGuards settings body,
    guard.failure ≠ .argumentNull entry.1.name

/-- A guard that is lost has a return in the place of its message. -/
theorem LosesGuard.exists_return
    {settings : Settings} {entry : Parameter × Nat}
    (loses : context.LosesGuard settings body entry) :
    ∃ earlier constructor later,
      operationsOf body.instructions =
        earlier ++ .ldStr entry.1.name :: .ret :: .newObj constructor ::
          .throw :: later := by
  obtain ⟨earlier, message, constructor, later, split, breaks⟩ :=
    exists_broken_guard loses.recognised loses.broken
  rw [guardsBeforeOperation, Bool.and_eq_true] at breaks
  have returns : message = .ret := by
    have isRet := breaks.1
    cases message <;> first | rfl | cases isRet
  exact ⟨earlier, constructor, later, returns ▸ split⟩

/-- The entry guards of the first run open the body that the second run leaves. -/
theorem exists_rows_open
    (settings : Settings) (wellFormed : body.WellFormed) :
    ∃ row added : GuardRow,
      row.map (·.guard) = context.entryGuards settings body ∧
        added.map (·.guard) =
          context.entryGuards settings
            (context.wovenBody settings body) ∧
        row.Opens settings.debugBuild (context.wovenBody settings body) ∧
        GuardRow.Opens (added ++ row) settings.debugBuild
          (context.wovenBody settings
            (context.wovenBody settings body)) := by
  have later := context.wellFormed_wovenBody settings wellFormed
  obtain ⟨layout, lays⟩ := context.exists_layout settings wellFormed
  obtain ⟨outer, laysOuter⟩ := context.exists_layout settings later
  have opens := lays.woven.opens (lays.front_of_empty wellFormed)
  refine ⟨layout.front, outer.front, lays.front, laysOuter.front, opens,
    laysOuter.woven.opens_behind opens (laysOuter.front_of_empty later)
      lays.quiet_front ?_⟩
  intro instruction member stays
  have row := laysOuter.rows_widen instruction member
  rw [stays, if_neg Bool.false_ne_true] at row
  exact List.map_eq_nil_iff.mp row

section SecondRun

variable
    {settings : Settings}
    (includes : context.graph.IncludesSystem)
    (names : context.graph.NamesSystemTypes)
    (nonempty : body.instructions ≠ [])
    (wellFormed : body.WellFormed)

include includes names nonempty wellFormed

/-- A parameter that the new body is not taken to guard has lost its guard, or is not checked. -/
theorem losesGuard_of_not_recognised
    (arguments : context.policy.flags.arguments = true)
    {entry : Parameter × Nat}
    (listed : entry ∈ context.decl.parameters.zipIdx)
    (checked :
      context.policy.checksArgument context.graph entry.1 = true)
    (missed :
      (context.wovenBody settings body).alreadyGuards context.graph
        entry.1.name = false) :
    context.LosesGuard settings body entry := by
  have unrecognised :=
    mt (alreadyGuards_wovenBody_iff includes names nonempty
      wellFormed).mpr (Bool.eq_false_iff.mp missed)
  rw [not_or] at unrecognised
  obtain ⟨unnamed, broken⟩ := unrecognised
  have recognised :=
    (entryGuards_cover includes names nonempty wellFormed arguments listed
      checked).resolve_left unnamed
  have inside :
      body.alreadyGuards context.graph entry.1.name = true := by
    by_contra absent
    have missed :=
      context.recognises_eq_false (Bool.not_eq_true _ ▸ absent)
    rw [recognised] at missed
    cases missed
  exact ⟨arguments, listed, checked, inside,
    Bool.not_eq_true _ ▸ broken,
    fun guard member named => unnamed ⟨guard, member, named⟩⟩

/-- The value given to a setter does not lose its guard. -/
theorem LosesGuard.isSetterValue_eq_false
    {entry : Parameter × Nat}
    (loses : context.LosesGuard settings body entry) :
    context.isSetterValue entry = false := by
  by_contra value
  rw [Bool.not_eq_false] at value
  rcases entryGuards_cover includes names nonempty wellFormed
      loses.arguments loses.listed loses.checked with
    ⟨guard, member, named⟩ | recognised
  · exact loses.unguarded guard member named
  · rw [recognises, if_pos value, loses.broken] at recognised
    cases recognised

/-- A second run puts no guard at the entry for the value given to a setter. -/
theorem setterGuard?_wovenBody :
    context.setterGuard?
        (context.guardBeforeAccessor settings
          (context.wovenBody settings body)).body = none := by
  by_contra present
  obtain ⟨guard, found⟩ := Option.ne_none_iff_exists'.mp present
  obtain ⟨entry, listed, value, arguments, checked, missed⟩ :=
    exists_of_setterGuard? found
  obtain ⟨setter, -⟩ :=
    exists_of_setterValueIndex?
      (show context.decl.setterValueIndex? = some entry.2 by
        simpa [isSetterValue] using value)
  cases recognised :
      (context.wovenBody settings body).alreadyGuards context.graph
        entry.1.name with
  | true =>
      rw [← keepsGuard_wovenBody wellFormed] at recognised
      exact Bool.eq_false_iff.mp missed
        ((alreadyGuards_guardBeforeAccessor_iff includes names settings
          (context.wellFormed_wovenBody settings wellFormed)
          (mt (wovenBody_eq_nil_iff settings wellFormed).mp nonempty)
          setter).mpr (.inr recognised))
  | false =>
      have loses :=
        losesGuard_of_not_recognised includes names nonempty wellFormed
          arguments listed checked recognised
      have other :=
        loses.isSetterValue_eq_false includes names nonempty wellFormed
      rw [value] at other
      cases other

theorem entryGuards_wovenBody_cover :
    (∀ guard ∈ context.entryGuards settings
        (context.wovenBody settings body),
      ∃ entry, context.LosesGuard settings body entry ∧
        context.isSetterValue entry = false ∧
        guard = context.entryGuard entry) ∧
    ∀ entry, context.LosesGuard settings body entry →
      ∃ guard ∈ context.entryGuards settings
          (context.wovenBody settings body),
        guard.failure = .argumentNull entry.1.name := by
  have later := context.wellFormed_wovenBody settings wellFormed
  have inhabited :
      (context.wovenBody settings body).instructions ≠ [] :=
    mt (wovenBody_eq_nil_iff settings wellFormed).mp nonempty
  refine ⟨fun guard member => ?_, fun entry loses => ?_⟩
  · rcases List.mem_append.mp member with value | early
    · rw [setterGuard?_wovenBody includes names nonempty wellFormed]
        at value
      cases value
    · have arguments : context.policy.flags.arguments = true := by
        by_contra off
        rw [if_neg off] at early
        cases early
      have early :
          guard ∈ context.earlyEntryGuards settings
            (context.wovenBody settings body) := early
      obtain ⟨entry, listed, guards, same⟩ :=
        (earlyEntryGuards_cover includes names inhabited later
          arguments).1 guard early
      simp only [guardsOther, guardsParameter, recognises,
        Bool.and_eq_true, Bool.not_eq_true'] at guards
      obtain ⟨⟨checked, missed⟩, other⟩ := guards
      rw [other, if_neg Bool.false_ne_true] at missed
      exact ⟨entry, losesGuard_of_not_recognised includes names nonempty
        wellFormed arguments listed checked missed, other, same⟩
  · have missed :
        (context.wovenBody settings body).alreadyGuards context.graph
          entry.1.name = false := by
      rw [Bool.eq_false_iff]
      intro recognised
      rcases (alreadyGuards_wovenBody_iff includes names nonempty
          wellFormed).mp recognised with ⟨guard, member, named⟩ | keeps
      · exact loses.unguarded guard member named
      · rw [loses.broken] at keeps
        cases keeps
    have other :=
      loses.isSetterValue_eq_false includes names nonempty wellFormed
    obtain ⟨guard, member, named⟩ :=
      (earlyEntryGuards_cover includes names inhabited later
        loses.arguments).2 entry loses.listed (by
          simp [guardsOther, guardsParameter, recognises, loses.checked,
            missed, other])
    exact ⟨guard,
      (context.earlyEntryGuards_sublist settings _).subset member, named⟩

end SecondRun

/-- A second run puts guards at the entry for the parameters that lost theirs, and no others. -/
theorem entryGuards_again
    (settings : Settings) (includes : context.graph.IncludesSystem)
    (names : context.graph.NamesSystemTypes)
    (wellFormed : body.WellFormed) :
    (∀ guard ∈ context.entryGuards settings
        (context.wovenBody settings body),
      ∃ entry, context.LosesGuard settings body entry ∧
        context.isSetterValue entry = false ∧
        guard = context.entryGuard entry) ∧
    ∀ entry, context.LosesGuard settings body entry →
      ∃ guard ∈ context.entryGuards settings
          (context.wovenBody settings body),
        guard.failure = .argumentNull entry.1.name := by
  by_cases empty : body.instructions = []
  · rw [entryGuards_of_empty settings
      (context.wellFormed_wovenBody settings wellFormed)
      ((wovenBody_eq_nil_iff settings wellFormed).mpr empty)]
    refine ⟨nofun, fun entry loses => ?_⟩
    have recognised := loses.recognised
    rw [MethodBody.alreadyGuards, empty] at recognised
    cases recognised
  · exact entryGuards_wovenBody_cover includes names empty wellFormed

end MethodContext

end NullWeave
