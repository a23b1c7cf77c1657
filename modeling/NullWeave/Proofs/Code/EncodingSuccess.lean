import NullWeave.Proofs.Code.DepthOrder
import NullWeave.Proofs.Code.EncodedLayout
import NullWeave.Proofs.Code.ShortBranches

/-!
# Narrowed code can be encoded

Widening and then narrowing a body leaves short only those branches that fit in
the layout that comes out.  The others, and the arms of a `switch`, have four
bytes, which are enough below two gibibytes of code.  So nothing can go wrong
with a displacement, and a body that passes the check of its depths is encoded
as long as the tables of tokens have room.
-/

namespace NullWeave

theorem targetsWithin_widenBranches {instructions : List Instruction} :
    TargetsWithin (widenBranches instructions) ↔
      TargetsWithin instructions := by
  simp only [TargetsWithin, identities_widenBranches]
  simp [widenBranches, Instruction.withForm]

namespace MethodBody

variable
    {graph : Graph} {body : MethodBody} {returnsValue : Bool}
    {pool final : TokenPool}

/-! ## Faults of the check -/

/-- Is a fault one that the check of depths may find? -/
def IsDepthFault : CodeError → Prop
  | .unknownInstruction _ | .stackUnderflow .. | .inconsistentStackDepth ..
  | .badReturnDepth .. | .fallsOffEnd => True
  | _ => False

theorem isDepthFault_of_places
    {α : Type} {name : α → InstrId} {depth : α → Nat} {items : List α}
    {failure : CodeError}
    (failed : body.places name depth items = .error failure) :
    IsDepthFault failure := by
  obtain ⟨item, -, failedHere⟩ := exists_of_mapM_eq_error failed
  rw [position] at failedHere
  cases found : body.indexOf? (name item) with
  | none =>
      rw [found] at failedHere
      cases failedHere
      trivial
  | some index =>
      rw [found] at failedHere
      cases failedHere

theorem isDepthFault_of_visit
    {index depth : Nat} {instruction : Instruction} {search : DepthSearch}
    {failure : CodeError}
    (failed : body.visit graph returnsValue body.instructions.length index
      instruction depth search = .error failure) :
    IsDepthFault failure := by
  have visits :
      body.visit graph returnsValue body.instructions.length index
        instruction depth search = _ :=
    DepthSearch.visit_eq graph body returnsValue index depth instruction
      search search.pending
  rw [visits] at failed
  split at failed
  · split at failed <;> cases failed
    trivial
  · split at failed
    · cases failed
      trivial
    · split at failed
      next ways =>
        cases failed
        rw [successors_eq] at ways
        split at ways
        next found =>
          cases ways
          exact isDepthFault_of_places found
        next =>
          split at ways
          · cases ways
          · split at ways <;> cases ways
            trivial
      next =>
        cases failed

theorem isDepthFault_of_ends
    {search : DepthSearch} {outcome : Except CodeError Nat}
    (ends : search.Ends graph body returnsValue outcome)
    {failure : CodeError} (failed : outcome = .error failure) :
    IsDepthFault failure := by
  induction ends with
  | done nothing =>
      cases failed
  | fault turns =>
      cases failed
      obtain ⟨entry, rest, -, taken⟩ := turns
      rw [DepthSearch.take] at taken
      split at taken
      · cases taken
      · split at taken <;> cases taken
        trivial
      · exact isDepthFault_of_visit taken
  | step turns _ inductionHypothesis =>
      exact inductionHypothesis failed

/-- The check of depths has nothing to say about displacements and tokens. -/
theorem isDepthFault_of_checkDepths
    (distinct : (identities body.instructions).Nodup)
    {failure : CodeError}
    (failed : body.checkDepths graph returnsValue = .error failure) :
    IsDepthFault failure := by
  rw [checkDepths_eq] at failed
  cases ran : body.entries with
  | error error =>
      rw [ran] at failed
      cases failed
      rw [entries_eq] at ran
      cases found : body.handlerPlaces with
      | error fault =>
          rw [found] at ran
          cases ran
          exact isDepthFault_of_places found
      | ok handlers =>
          rw [found] at ran
          cases ran
  | ok starts =>
      rw [ran] at failed
      exact isDepthFault_of_ends
        ((explored_firstSearch distinct ran).ends_searchWithin distinct
          (load_firstSearch ran)) failed

end MethodBody

/-! ## Displacements that fit -/

/-- Does every short branch have a target that a signed byte reaches? -/
def ShortBranchesFit (instructions : List Instruction) : Prop :=
  ∀ index id kind label,
    instructions[index]? = some ⟨id, .branch kind .short label⟩ →
    ∃ target other,
      instructions[target]? = some other ∧ other.id = label ∧
        -128 ≤ displacement instructions index target ∧
        displacement instructions index target ≤ 127

@[simp]
theorem Operation.isShortBranch_withForm_long (operation : Operation) :
    (operation.withForm .long).isShortBranch = false := by
  cases operation <;> rfl

/-- A short branch of narrowed code was long if all branches were. -/
theorem Narrows.long_of_widenBranches
    {instructions narrowed : List Instruction}
    (narrows : Narrows (widenBranches instructions) narrowed)
    {index : Nat} {id : InstrId} {kind : BranchKind} {label : InstrId}
    (short : narrowed[index]? = some ⟨id, .branch kind .short label⟩) :
    (widenBranches instructions)[index]? =
      some ⟨id, .branch kind .long label⟩ := by
  have inside : index < instructions.length := by
    have insideNarrowed := (List.getElem?_eq_some_iff.mp short).1
    rwa [← narrows.length_eq, length_widenBranches] at insideNarrowed
  have wide : (widenBranches instructions)[index]? =
      some (instructions[index].withForm .long) := by
    rw [getElem?_widenBranches, List.getElem?_eq_getElem inside,
      Option.map_some]
  obtain ⟨other, there, narrowsHere⟩ := narrows.getElem? wide
  obtain rfl := Option.some.inj (there.symm.trans short)
  rw [wide]
  generalize former : instructions[index].withForm .long = wideHere
    at narrowsHere
  cases narrowsHere with
  | same =>
      have notShort :=
        Operation.isShortBranch_withForm_long instructions[index].operation
      have shape := congrArg (·.operation.isShortBranch) former
      rw [show (instructions[index].withForm .long).operation =
        instructions[index].operation.withForm .long from rfl,
        notShort] at shape
      cases shape
  | narrowed =>
      rfl

/-- What is short once all branches were long and then narrowed fits. -/
theorem shortBranchesFit_narrowBranches
    {instructions : List Instruction}
    (distinct : (identities instructions).Nodup) :
    ShortBranchesFit
      (narrowBranches (-128) 127 (widenBranches instructions)) := by
  have fixpoint : IsNarrowedFixpoint (-128) 127 (widenBranches instructions)
      (narrowBranches (-128) 127 (widenBranches instructions)) :=
    isNarrowedFixpoint (by decide) (by decide) (by simpa using distinct)
  intro index id kind label short
  exact fixpoint.shortFits index id kind label
    (fixpoint.narrows.long_of_widenBranches short) short

theorem displacementFrom_placements
    {instructions : List Instruction}
    (distinct : (identities instructions).Nodup)
    (index : Nat) {target : Nat} {other : Instruction}
    (there : instructions[target]? = some other) :
    MethodBody.displacementFrom (placements instructions)
        (offsetAt instructions (index + 1)) other.id =
      .ok (displacement instructions index target) := by
  rw [MethodBody.displacementFrom, lastOffset?_placements distinct there]
  rfl

section Jumps

variable
    {instructions : List Instruction} {index : Nat} {id target : InstrId}

/-- Four bytes are enough for any displacement in code below two gibibytes. -/
theorem exists_jumpBytes_of_mem
    (distinct : (identities instructions).Nodup)
    (small : codeSize instructions < 2 ^ 31)
    (member : target ∈ identities instructions) :
    ∃ bytes,
      Operation.jumpBytes id
        (MethodBody.displacementFrom (placements instructions)
          (offsetAt instructions (index + 1))) 4 target = .ok bytes := by
  obtain ⟨other, there, rfl⟩ := mem_identities.mp member
  obtain ⟨position, atPosition⟩ := List.getElem?_of_mem there
  obtain ⟨atLeast, atMost⟩ :=
    displacement_within instructions index position
  refine ⟨_, Operation.jumpBytes_eq_ok_iff.mpr ⟨_,
    displacementFrom_placements distinct index atPosition,
    Operation.displacementBytes_of_within ?_ ?_⟩⟩
  · show -(2 ^ 31 : Int) ≤ _
    omega
  · show _ < (2 ^ 31 : Int)
    omega

/-- One byte is enough for a short branch that fits. -/
theorem exists_jumpBytes_of_short
    (distinct : (identities instructions).Nodup)
    (fit : ShortBranchesFit instructions)
    {kind : BranchKind}
    (here : instructions[index]? = some ⟨id, .branch kind .short target⟩) :
    ∃ bytes,
      Operation.jumpBytes id
        (MethodBody.displacementFrom (placements instructions)
          (offsetAt instructions (index + 1))) 1 target = .ok bytes := by
  obtain ⟨position, other, there, rfl, atLeast, atMost⟩ :=
    fit index id kind target here
  refine ⟨_, Operation.jumpBytes_eq_ok_iff.mpr ⟨_,
    displacementFrom_placements distinct index there,
    Operation.displacementBytes_of_within ?_ ?_⟩⟩
  · exact atLeast
  · show _ < (128 : Int)
    omega

end Jumps

namespace MethodBody

variable
    {graph : Graph} {body : MethodBody} {returnsValue : Bool}
    {pool final : TokenPool}

/-- Where all displacements fit, only a full table can stop the writing of code. -/
theorem full_of_encodeFrom
    {instructions : List Instruction}
    (distinct : (identities instructions).Nodup)
    (within : TargetsWithin instructions)
    (small : codeSize instructions < 2 ^ 31)
    (fit : ShortBranchesFit instructions)
    {failure : CodeError}
    (failed : (encodeFrom graph (placements instructions) 0 instructions).run
      pool = (.error failure, final)) :
    ∃ table, failure = .tokenOverflow table ∧ maxRow ≤ final.count table := by
  obtain ⟨front, ⟨id, operation⟩, back, before, split, failedHere⟩ :=
    fault_of_encodeFrom failed
  have here : instructions[front.length]? = some ⟨id, operation⟩ := by
    simp [split]
  have targets := within ⟨id, operation⟩ (List.mem_of_getElem? here)
  have finish : 0 + codeSize front + (⟨id, operation⟩ : Instruction).width =
      offsetAt instructions (front.length + 1) := by
    rw [offsetAt_succ here, offsetAt, split, List.take_left, Nat.zero_add]
  rw [finish] at failedHere
  rcases Operation.fault_of_encode failedHere with
    full | ⟨kind, form, target, rfl, missing⟩ |
      ⟨arms, target, rfl, member, missing⟩
  · exact full
  · cases form with
    | short =>
        obtain ⟨bytes, found⟩ := exists_jumpBytes_of_short distinct fit here
        exact absurd (missing.symm.trans found) (by simp)
    | long =>
        obtain ⟨bytes, found⟩ :=
          exists_jumpBytes_of_mem distinct small
            (targets target (List.mem_singleton.mpr rfl))
        exact absurd (missing.symm.trans found) (by simp)
  · obtain ⟨bytes, found⟩ :=
      exists_jumpBytes_of_mem distinct small (targets target member)
    exact absurd (missing.symm.trans found) (by simp)

theorem checkDepths_narrow :
    body.narrow.checkDepths graph returnsValue =
      body.checkDepths graph returnsValue := by
  have same : body.narrow.widen = body.widen := by
    simp [narrow, MethodBody.widen]
  rw [← checkDepths_widen, same, checkDepths_widen]

/-- Narrowed code that passes the check is encoded, unless it meets a full table. -/
theorem run_encode_narrow
    (distinct : (identities body.instructions).Nodup)
    (within : TargetsWithin body.instructions)
    (small : codeSize body.widen.narrow.instructions < 2 ^ 31)
    {failure : CodeError}
    (failed : (body.widen.narrow.encode graph returnsValue).run pool =
      (.error failure, final)) :
    body.widen.narrow.checkDepths graph returnsValue = .error failure ∨
    (∃ deepest, body.widen.narrow.checkDepths graph returnsValue = .ok deepest ∧
      65535 < deepest ∧ failure = .maxStackOverflow deepest) ∨
    ∃ table, failure = .tokenOverflow table ∧
      maxRow ≤ final.count table := by
  have identitiesSame :
      identities body.widen.narrow.instructions =
        identities body.instructions := by
    rw [← identities_widenBranches]
    simp [narrow]
  have wideSame :
      widenBranches body.widen.narrow.instructions =
        widenBranches body.instructions := by
    simp [narrow]
  have distinctNarrowed :
      (identities body.widen.narrow.instructions).Nodup := by
    rwa [identitiesSame]
  have withinNarrowed : TargetsWithin body.widen.narrow.instructions := by
    rwa [← targetsWithin_widenBranches, wideSame, targetsWithin_widenBranches]
  rw [run_encode] at failed
  cases checked : body.widen.narrow.checkDepths graph returnsValue with
  | error fault =>
      rw [checked] at failed
      cases failed
      exact .inl rfl
  | ok deepest =>
      rw [checked] at failed
      dsimp only at failed
      split at failed
      next tooDeep =>
        cases failed
        exact .inr (.inl ⟨deepest, rfl, tooDeep, rfl⟩)
      next =>
        rcases written : (encodeFrom graph
          (placements body.widen.narrow.instructions) 0
          body.widen.narrow.instructions).run pool with ⟨fault | code, after⟩
        · rw [written] at failed
          cases failed
          exact .inr (.inr (full_of_encodeFrom distinctNarrowed withinNarrowed
            small (shortBranchesFit_narrowBranches distinct) written))
        · rw [written] at failed
          cases failed

/--
A body that is encoded has the layout that its offsets say.  After its branches
were widened and narrowed it is encoded without a fault about displacements,
if it is smaller than two gibibytes then: it fails only if the check of depths
does, if the stack is too deep or if a table of tokens is full.
-/
theorem encode_lays_out
    (graph : Graph) (body : MethodBody) (returnsValue : Bool)
    (pool : TokenPool)
    (distinct : (identities body.instructions).Nodup)
    (resolved : body.ensureResolved = .ok ()) :
    (∀ encoded final,
      (body.encode graph returnsValue).run pool = (.ok encoded, final) →
        encoded.LaysOut graph body pool) ∧
      (codeSize body.widen.narrow.instructions < 2 ^ 31 →
        (∀ failure final,
          (body.widen.narrow.encode graph returnsValue).run pool =
              (.error failure, final) →
            ∀ id distance, failure ≠ .branchOutOfRange id distance) ∧
        ∀ deepest,
          body.widen.narrow.checkDepths graph returnsValue = .ok deepest →
          deepest ≤ 65535 →
          (∃ encoded final,
            (body.widen.narrow.encode graph returnsValue).run pool =
              (.ok encoded, final)) ∨
          ∃ table final,
            (body.widen.narrow.encode graph returnsValue).run pool =
                (.error (.tokenOverflow table), final) ∧
              maxRow ≤ final.count table) := by
  have within : TargetsWithin body.instructions :=
    targetsWithin_of_ensureResolved resolved
  refine ⟨fun encoded final ran => laysOut_of_run_encode distinct ran,
    fun small => ⟨?_, ?_⟩⟩
  · rintro failure final failed id distance rfl
    rcases run_encode_narrow distinct within small failed with
      fault | ⟨deepest, -, -, deep⟩ | ⟨table, full, -⟩
    · rw [checkDepths_narrow, checkDepths_widen] at fault
      exact isDepthFault_of_checkDepths distinct fault
    · cases deep
    · cases full
  · intro deepest checked shallow
    rcases ran : (body.widen.narrow.encode graph returnsValue).run pool with
      ⟨failure | encoded, final⟩
    · rcases run_encode_narrow distinct within small ran with
        fault | ⟨deep, checkedDeep, tooDeep, -⟩ | ⟨table, rfl, full⟩
      · rw [checked] at fault
        cases fault
      · rw [checked] at checkedDeep
        cases checkedDeep
        omega
      · exact .inr ⟨table, final, rfl, full⟩
    · exact .inl ⟨encoded, final, rfl⟩

theorem encode_lays_out_joinedLoop :
    ∃ encoded,
      (joinedLoop.widen.narrow.encode {} false).run {} = (.ok encoded, {}) ∧
        encoded.code = [0x02, 0x2D, 0xFD, 0x2A, 0x26, 0xDE, 0xFC] ∧
        encoded.LaysOut {} joinedLoop.widen.narrow {} := by
  have small : codeSize joinedLoop.widen.narrow.instructions < 2 ^ 31 := by
    decide
  have checked : joinedLoop.widen.narrow.checkDepths {} false = .ok 1 := rfl
  obtain ⟨-, fits⟩ :=
    encode_lays_out {} joinedLoop false {} (by decide) rfl
  obtain ⟨laysOut, -⟩ :=
    encode_lays_out {} joinedLoop.widen.narrow false {} (by decide) rfl
  rcases (fits small).2 1 checked (by decide) with
    ⟨encoded, final, ran⟩ | ⟨table, final, ran, -⟩
  · cases ran
    exact ⟨_, rfl, rfl, laysOut _ _ rfl⟩
  · cases ran

end MethodBody

end NullWeave
