import NullWeave.Code.Encoding
import NullWeave.Proofs.Code.Bytes
import NullWeave.Proofs.Sequence

/-!
# The bytes of an operation

There are four kinds of operations to encode: most have bytes that depend on
nothing else, some ask for a token, and branches and switches need to know how
far their targets are.  Each kind writes as many bytes as its width says, and
only two things can go wrong: a table is full, or a displacement is missing or
too large.
-/

namespace NullWeave

/-- A token is refused only if the table is full. -/
theorem TokenPool.full_of_token_eq_error
    {pool : TokenPool} {table : UInt8} {key : String} {failure : CodeError}
    (failed : pool.token table key = .error failure) :
    failure = .tokenOverflow table ∧ maxRow ≤ pool.count table := by
  rw [TokenPool.token] at failed
  split at failed
  · cases failed
  · split at failed
    · cases failed
    next full =>
      cases failed
      exact ⟨rfl, Nat.le_of_not_lt full⟩

namespace Operation

/-! ## Widths -/

theorem length_slotBytes (slot : UInt16) (short long : UInt8) :
    (slotBytes slot short long).length = slotWidth slot := by
  rw [slotBytes, slotWidth]
  split <;> simp

theorem length_compactSlotBytes
    (slot : UInt16) (compact short long : UInt8) :
    (compactSlotBytes slot compact short long).length =
      compactSlotWidth slot := by
  rw [compactSlotBytes, compactSlotWidth]
  split
  · rfl
  · exact length_slotBytes slot short long

theorem length_constantBytes (value : Int32) :
    (constantBytes value).length = constantWidth value := by
  rw [constantBytes, constantWidth]
  split
  · simp
  · split <;> simp

/-! ## Displacements -/

/-- The bytes of the displacement to a target. -/
def jumpBytes
    (id : InstrId) (displacement : InstrId → Except CodeError Int)
    (count : Nat) (target : InstrId) : Except CodeError (List UInt8) := do
  displacementBytes id count (← displacement target)

theorem jumpBytes_of_known
    {id target : InstrId} {displacement : InstrId → Except CodeError Int}
    {count : Nat} {distance : Int}
    (known : displacement target = .ok distance) :
    jumpBytes id displacement count target =
      displacementBytes id count distance := by
  rw [jumpBytes, known]
  rfl

theorem jumpBytes_eq_ok_iff
    {id target : InstrId} {displacement : InstrId → Except CodeError Int}
    {count : Nat} {bytes : List UInt8} :
    jumpBytes id displacement count target = .ok bytes ↔
      ∃ distance,
        displacement target = .ok distance ∧
          displacementBytes id count distance = .ok bytes := by
  rw [jumpBytes]
  cases displacement target with
  | error failure =>
      simp [bind, Except.bind]
  | ok distance =>
      simp [bind, Except.bind]

theorem displacementBytes_of_within
    {id : InstrId} {count : Nat} {distance : Int}
    (atLeast : -(Nat.pow 2 (8 * count - 1) : Int) ≤ distance)
    (below : distance < (Nat.pow 2 (8 * count - 1) : Nat)) :
    displacementBytes id count distance =
      .ok (signedLittleEndian count distance) :=
  if_pos ⟨atLeast, below⟩

theorem displacementBytes_of_ge
    {id : InstrId} {count : Nat} {distance : Int}
    (beyond : (Nat.pow 2 (8 * count - 1) : Nat) ≤ distance) :
    displacementBytes id count distance =
      .error (.branchOutOfRange id distance) :=
  if_neg fun within => Int.not_lt.mpr beyond within.2

/-- The bytes of a displacement stand for it. -/
theorem signedOf_displacementBytes
    {id : InstrId} {count : Nat} {distance : Int} {bytes : List UInt8}
    (positive : 0 < count)
    (written : displacementBytes id count distance = .ok bytes) :
    bytes.length = count ∧ signedOf bytes = distance := by
  rw [displacementBytes] at written
  split at written
  next within =>
    cases written
    refine ⟨length_signedLittleEndian count distance, ?_⟩
    have double : 2 * Nat.pow 2 (8 * count - 1) = 256 ^ count := by
      rw [show 256 = 2 ^ 8 from rfl, ← Nat.pow_mul]
      exact (Nat.pow_succ' ..).symm.trans
        (congrArg (2 ^ ·) (by omega))
    refine signedOf_signedLittleEndian ?_ ?_ <;> rw [← double] <;> omega
  next =>
    cases written

theorem displacementWidth_pos (form : BranchForm) :
    0 < displacementWidth form := by
  cases form <;> decide

theorem branchWidth_eq (form : BranchForm) :
    branchWidth form = 1 + displacementWidth form := by
  cases form <;> rfl

theorem length_flatten_of_jumpBytes
    {id : InstrId} {displacement : InstrId → Except CodeError Int}
    {targets : List InstrId} {arms : List (List UInt8)}
    (written : List.Forall₂ (fun target arm =>
      jumpBytes id displacement 4 target = .ok arm) targets arms) :
    arms.flatten.length = 4 * targets.length := by
  induction written with
  | nil =>
      rfl
  | cons first _ inductionHypothesis =>
      obtain ⟨distance, -, there⟩ := jumpBytes_eq_ok_iff.mp first
      obtain ⟨length, -⟩ := signedOf_displacementBytes (by decide) there
      rw [List.flatten_cons, List.length_append, length, inductionHypothesis,
        List.length_cons]
      omega

/-- The arms of a `switch` stand four bytes apart. -/
theorem signedOf_flatten_of_jumpBytes
    {id : InstrId} {displacement : InstrId → Except CodeError Int}
    {targets : List InstrId} {arms : List (List UInt8)}
    (written : List.Forall₂ (fun target arm =>
      jumpBytes id displacement 4 target = .ok arm) targets arms)
    {index : Nat} {target : InstrId} (here : targets[index]? = some target) :
    displacement target =
      .ok (signedOf ((arms.flatten.drop (4 * index)).take 4)) := by
  induction written generalizing index with
  | nil =>
      simp at here
  | @cons head arm _ others first _ inductionHypothesis =>
      obtain ⟨distance, known, there⟩ := jumpBytes_eq_ok_iff.mp first
      obtain ⟨length, rfl⟩ := signedOf_displacementBytes (by decide) there
      cases index with
      | zero =>
          obtain rfl : head = target := by simpa using here
          rw [known, Nat.mul_zero, List.drop_zero, List.flatten_cons,
            ← length, List.take_left]
      | succ index =>
          rw [inductionHypothesis (by simpa using here), List.flatten_cons,
            show 4 * (index + 1) = arm.length + 4 * index by omega,
            ← List.drop_drop, List.drop_left]

/-! ## Runs -/

section Runs

variable
    {graph : Graph} {id : InstrId}
    {displacement : InstrId → Except CodeError Int} {pool : TokenPool}

theorem run_withToken (opcode table : UInt8) (key : String) :
    (Encoder.withToken opcode table key).run pool =
      match pool.token table key with
      | .error failure => (.error failure, pool)
      | .ok (after, token) => (.ok (opcode :: token.bytes), after) := by
  rw [Encoder.withToken, run_bind, Encoder.tokenBytes, run_get_bind]
  cases pool.token table key <;> rfl

theorem run_encode_branch
    (kind : BranchKind) (form : BranchForm) (target : InstrId) :
    ((branch kind form target).encode graph id displacement).run pool =
      ((jumpBytes id displacement (displacementWidth form) target).map
        (branchOpcode kind form :: ·), pool) := by
  rw [encode, jumpBytes, run_lift_bind]
  cases displacement target with
  | error failure =>
      rfl
  | ok distance =>
      dsimp only
      rw [run_lift_bind]
      show _ = (Except.map _
        (displacementBytes id (displacementWidth form) distance), pool)
      cases displacementBytes id (displacementWidth form) distance <;> rfl

theorem run_encode_switch (targets : List InstrId) :
    ((switch targets).encode graph id displacement).run pool =
      ((targets.mapM (jumpBytes id displacement 4)).map fun arms =>
        0x45 :: littleEndian 4 targets.length ++ arms.flatten, pool) := by
  rw [encode, run_bind, run_mapM_of_still]
  · cases targets.mapM (jumpBytes id displacement 4) <;> rfl
  · intro target state
    rw [run_lift_bind, jumpBytes]
    cases displacement target <;> rfl

/-- How an operation is encoded, by its kind. -/
theorem encode_cases (graph : Graph) (operation : Operation) :
    (∃ bytes : List UInt8,
      bytes.length = operation.width ∧ operation.targets = [] ∧
        ∀ id displacement pool,
          (operation.encode graph id displacement).run pool =
            (.ok bytes, pool)) ∨
    (∃ opcode table key,
      operation.width = 5 ∧ operation.targets = [] ∧
        ∀ id displacement,
          operation.encode graph id displacement =
            Encoder.withToken opcode table key) ∨
    (∃ kind form target, operation = .branch kind form target) ∨
    ∃ targets, operation = .switch targets := by
  cases operation with
  | ldStr | ldObj | box | ldFld | ldFldA | stFld | call | callVirt | newObj =>
      exact .inr (.inl ⟨_, _, _, rfl, rfl, fun _ _ => rfl⟩)
  | branch kind form target =>
      exact .inr (.inr (.inl ⟨kind, form, target, rfl⟩))
  | switch targets =>
      exact .inr (.inr (.inr ⟨targets, rfl⟩))
  | ldcI4 value =>
      exact .inl ⟨_, length_constantBytes value, rfl, fun _ _ _ => rfl⟩
  | ldArg slot | ldLoc slot | stLoc slot =>
      exact .inl ⟨_, length_compactSlotBytes slot _ _ _, rfl,
        fun _ _ _ => rfl⟩
  | ldArgA slot | stArg slot | ldLocA slot =>
      exact .inl ⟨_, length_slotBytes slot _ _, rfl, fun _ _ _ => rfl⟩
  | _ =>
      exact .inl ⟨_, rfl, rfl, fun _ _ _ => rfl⟩

variable {operation : Operation} {after : TokenPool} {bytes : List UInt8}

/-- The bytes of an operation are as many as its width says. -/
theorem length_of_encode
    (ran : (operation.encode graph id displacement).run pool =
      (.ok bytes, after)) :
    bytes.length = operation.width := by
  rcases encode_cases graph operation with
    ⟨plain, length, -, runs⟩ | ⟨opcode, table, key, five, -, runs⟩ |
      ⟨kind, form, target, rfl⟩ | ⟨targets, rfl⟩
  · rw [runs] at ran
    cases ran
    exact length
  · rw [runs, run_withToken] at ran
    cases found : pool.token table key with
    | error failure =>
        rw [found] at ran
        cases ran
    | ok result =>
        rw [found] at ran
        cases ran
        rw [five, List.length_cons, Token.bytes, length_littleEndian]
  · rw [run_encode_branch] at ran
    cases field : jumpBytes id displacement (displacementWidth form) target with
    | error failure =>
        rw [field] at ran
        cases ran
    | ok written =>
        rw [field] at ran
        cases ran
        obtain ⟨distance, -, there⟩ := jumpBytes_eq_ok_iff.mp field
        obtain ⟨length, -⟩ :=
          signedOf_displacementBytes (displacementWidth_pos form) there
        rw [List.length_cons, length, width, branchWidth_eq, Nat.add_comm]
  · rw [run_encode_switch] at ran
    cases fields : targets.mapM (jumpBytes id displacement 4) with
    | error failure =>
        rw [fields] at ran
        cases ran
    | ok arms =>
        rw [fields] at ran
        cases ran
        have length := length_flatten_of_jumpBytes (mapM_eq_ok_iff.mp fields)
        rw [List.length_append, List.length_cons, length_littleEndian, length]
        show 4 + 1 + _ = 1 + 4 + _
        omega

/-- The bytes behind the opcode of a branch stand for its displacement. -/
theorem signedOf_encode_branch
    {kind : BranchKind} {form : BranchForm} {target : InstrId}
    (ran : ((branch kind form target).encode graph id displacement).run pool =
      (.ok bytes, after)) :
    displacement target =
      .ok (signedOf ((bytes.drop 1).take (displacementWidth form))) := by
  rw [run_encode_branch] at ran
  cases field : jumpBytes id displacement (displacementWidth form) target with
  | error failure =>
      rw [field] at ran
      cases ran
  | ok written =>
      rw [field] at ran
      cases ran
      obtain ⟨distance, known, there⟩ := jumpBytes_eq_ok_iff.mp field
      obtain ⟨length, rfl⟩ :=
        signedOf_displacementBytes (displacementWidth_pos form) there
      rw [known, List.drop_one, List.tail_cons, ← length, List.take_length]

/-- Behind the number of arms, each four bytes stand for the displacement of an arm. -/
theorem signedOf_encode_switch
    {targets : List InstrId}
    (ran : ((switch targets).encode graph id displacement).run pool =
      (.ok bytes, after))
    {arm : Nat} {target : InstrId} (here : targets[arm]? = some target) :
    displacement target =
      .ok (signedOf ((bytes.drop (5 + 4 * arm)).take 4)) := by
  rw [run_encode_switch] at ran
  cases fields : targets.mapM (jumpBytes id displacement 4) with
  | error failure =>
      rw [fields] at ran
      cases ran
  | ok arms =>
      rw [fields] at ran
      cases ran
      have opened : (0x45 :: littleEndian 4 targets.length).length = 5 := by
        simp
      rw [signedOf_flatten_of_jumpBytes (mapM_eq_ok_iff.mp fields) here,
        ← List.drop_drop, ← opened, List.drop_left]

/--
What can go wrong with an operation: its table is full, or the displacement to
a target is missing or does not fit.
-/
theorem fault_of_encode
    {failure : CodeError}
    (failed : (operation.encode graph id displacement).run pool =
      (.error failure, after)) :
    (∃ table, failure = .tokenOverflow table ∧ maxRow ≤ after.count table) ∨
    (∃ kind form target, operation = .branch kind form target ∧
      jumpBytes id displacement (displacementWidth form) target =
        .error failure) ∨
    ∃ targets target, operation = .switch targets ∧ target ∈ targets ∧
      jumpBytes id displacement 4 target = .error failure := by
  rcases encode_cases graph operation with
    ⟨plain, -, -, runs⟩ | ⟨opcode, table, key, -, -, runs⟩ |
      ⟨kind, form, target, rfl⟩ | ⟨targets, rfl⟩
  · rw [runs] at failed
    cases failed
  · rw [runs, run_withToken] at failed
    cases found : pool.token table key with
    | error fault =>
        rw [found] at failed
        cases failed
        exact .inl ⟨table, TokenPool.full_of_token_eq_error found⟩
    | ok result =>
        rw [found] at failed
        cases failed
  · rw [run_encode_branch] at failed
    cases field : jumpBytes id displacement (displacementWidth form) target with
    | error fault =>
        rw [field] at failed
        cases failed
        exact .inr (.inl ⟨kind, form, target, rfl, field⟩)
    | ok written =>
        rw [field] at failed
        cases failed
  · rw [run_encode_switch] at failed
    cases fields : targets.mapM (jumpBytes id displacement 4) with
    | error fault =>
        rw [fields] at failed
        cases failed
        obtain ⟨target, member, field⟩ := exists_of_mapM_eq_error fields
        exact .inr (.inr ⟨targets, target, rfl, member, field⟩)
    | ok arms =>
        rw [fields] at failed
        cases failed

end Runs

end Operation

end NullWeave
