import NullWeave.Proofs.Code.EncodingSuccess

/-!
# Where four bytes are not enough

A body may be small only because its branches are short, and too short for
their targets.  Widening makes each of them three bytes longer.  Where the code
comes to two gibibytes by that, a branch over all of it cannot be encoded.
-/

namespace NullWeave

namespace MethodBody

/-- The operations of `branchesOver`, without the last one. -/
def operationsOver (form : BranchForm) (extra : Nat) (arms : List Nat) :
    List Operation :=
  List.replicate (extra + 1)
      (.branch .always form ⟨extra + 1 + arms.length⟩) ++
    arms.map fun count =>
      .switch (List.replicate count ⟨extra + 1 + arms.length⟩)

/--
Branches to a last instruction, over `switch` instructions with given numbers
of arms.  Control takes the first branch and comes to nothing else.
-/
def branchesOver (form : BranchForm) (extra : Nat) (arms : List Nat) :
    MethodBody where
  instructions :=
    numberFrom .first (operationsOver form extra arms ++ [.ret])
  nextId := ⟨extra + 1 + arms.length + 1⟩

section BranchesOver

variable {form : BranchForm} {extra : Nat} {arms : List Nat}

theorem distinct_branchesOver :
    (identities (branchesOver form extra arms).instructions).Nodup :=
  nodup_identities_numberFrom _ _

@[simp]
theorem length_operationsOver :
    (operationsOver form extra arms).length = extra + 1 + arms.length := by
  simp [operationsOver]

theorem getElem?_branchesOver (index : Nat) :
    (branchesOver form extra arms).instructions[index]? =
      (operationsOver form extra arms ++ [.ret])[index]?.map
        fun operation => ⟨⟨index⟩, operation⟩ := by
  rw [branchesOver, getElem?_numberFrom]
  simp only [InstrId.first, Nat.zero_add]

theorem eq_of_mem_targets_branchesOver
    {instruction : Instruction} {target : InstrId}
    (member : instruction ∈ (branchesOver form extra arms).instructions)
    (targeted : target ∈ instruction.operation.targets) :
    target = ⟨extra + 1 + arms.length⟩ := by
  have among := operation_mem_of_mem_numberFrom member
  simp only [operationsOver, List.mem_append, List.mem_replicate,
    List.mem_map, List.mem_singleton] at among
  rcases among with ((⟨-, same⟩ | ⟨count, -, same⟩) | same)
  · simpa [same, Operation.targets] using targeted
  · rw [← same] at targeted
    exact List.eq_of_mem_replicate targeted
  · simp [same, Operation.targets] at targeted

theorem last_mem_branchesOver :
    (⟨extra + 1 + arms.length⟩ : InstrId) ∈
      identities (branchesOver form extra arms).instructions := by
  refine mem_identities_numberFrom.mpr ⟨Nat.zero_le _, ?_⟩
  simp [InstrId.first]

theorem resolved_branchesOver :
    (branchesOver form extra arms).ensureResolved = .ok () := by
  refine ensureResolved_eq_ok_iff.mpr ?_
  intro id referred
  simp only [references, List.mem_append, List.mem_flatMap] at referred
  rcases referred with ⟨instruction, member, targeted⟩ | ⟨handler, member, -⟩
  · rw [eq_of_mem_targets_branchesOver member targeted]
    exact last_mem_branchesOver
  · cases member

theorem first_branchesOver :
    (branchesOver form extra arms).instructions[0]? =
      some ⟨⟨0⟩, .branch .always form ⟨extra + 1 + arms.length⟩⟩ := by
  rw [getElem?_branchesOver]
  rfl

theorem last_branchesOver :
    (branchesOver form extra arms).instructions[extra + 1 + arms.length]? =
      some ⟨⟨extra + 1 + arms.length⟩, .ret⟩ := by
  rw [getElem?_branchesOver, List.getElem?_append_right (by simp)]
  simp

/-- Control comes to the first branch and to the last instruction only. -/
theorem operation_of_flows_branchesOver
    {id : InstrId} (flows : (branchesOver form extra arms).Flows id)
    {instruction : Instruction}
    (member : instruction ∈ (branchesOver form extra arms).instructions)
    (named : instruction.id = id) :
    instruction.operation =
        .branch .always form ⟨extra + 1 + arms.length⟩ ∨
      instruction.operation = .ret := by
  induction flows generalizing instruction with
  | @entry first rest whole =>
      have same : instruction = first :=
        eq_of_id_eq distinct_branchesOver member (by simp [whole]) named
      have start := whole ▸ @first_branchesOver form extra arms
      cases start
      exact .inl (congrArg _ same)
  | handler none =>
      cases none
  | jump jumping _ targeted _ =>
      rw [eq_of_mem_targets_branchesOver jumping targeted] at named
      have same := eq_of_id_eq distinct_branchesOver member
        (List.mem_of_getElem? last_branchesOver) named
      exact .inr (congrArg _ same)
  | @next front back before following split _ goesOn inductionHypothesis =>
      have there : before ∈ (branchesOver form extra arms).instructions := by
        simp [split]
      rcases inductionHypothesis there rfl with same | same <;>
        · rw [same] at goesOn
          cases goesOn

/-- An empty stack is what control finds everywhere that it comes to. -/
theorem checkDepths_branchesOver (graph : Graph) :
    (branchesOver form extra arms).checkDepths graph false = .ok 0 := by
  have assigns :
      (branchesOver form extra arms).Assigns graph false fun _ => 0 := by
    constructor
    case entry => exact fun _ _ _ => rfl
    case handlers => exact fun _ none => nomatch none
    case jumps =>
      intro instruction member flows target targeted
      rcases operation_of_flows_branchesOver flows member rfl with same | same <;>
        rw [same] <;> rfl
    case goesOn =>
      intro front instruction following back split flows goesOn
      have member : instruction ∈ (branchesOver form extra arms).instructions := by
        simp [split]
      rcases operation_of_flows_branchesOver flows member rfl with same | same <;>
        rw [same] <;> rfl
    case pops =>
      intro instruction member flows _
      rcases operation_of_flows_branchesOver flows member rfl with same | same <;>
        rw [same] <;> exact Nat.le_refl _
    case returns => exact fun _ _ _ _ => rfl
  have inside : (branchesOver form extra arms).StaysInside := by
    constructor
    case handlers => exact fun _ none => nomatch none
    case targets =>
      intro instruction member flows target targeted
      rw [eq_of_mem_targets_branchesOver member targeted]
      exact last_mem_branchesOver
    case last =>
      intro front instruction split flows
      have member : instruction ∈ (branchesOver form extra arms).instructions := by
        simp [split]
      rcases operation_of_flows_branchesOver flows member rfl with same | same <;>
        rw [same] <;> rfl
  have greatest :
      (branchesOver form extra arms).IsGreatestDepth graph (fun _ => 0) 0 := by
    constructor
    · intro instruction member flows shown shows
      rcases shows with rfl | ⟨-, rfl⟩
      · exact Nat.le_refl 0
      · rcases operation_of_flows_branchesOver flows member rfl with same | same <;>
          rw [same] <;> exact Nat.le_refl 0
    · exact .inl ⟨_, List.mem_of_getElem? first_branchesOver,
        .entry rfl, .inl rfl⟩
  exact (checkDepths_eq_ok_iff_assigns distinct_branchesOver).mpr
    ⟨inside, _, assigns, greatest⟩

/-- The size of the `switch` instructions. -/
def armsSize (arms : List Nat) : Nat :=
  (arms.map fun count => 5 + 4 * count).sum

theorem sum_width_operationsOver :
    ((operationsOver form extra arms).map (·.width)).sum =
      (extra + 1) * Operation.branchWidth form + armsSize arms := by
  simp [operationsOver, armsSize, Function.comp_def, Operation.width]

theorem codeSize_branchesOver :
    codeSize (branchesOver form extra arms).instructions =
      (extra + 1) * Operation.branchWidth form + armsSize arms + 1 := by
  rw [branchesOver, codeSize_numberFrom, List.map_append, List.sum_append,
    sum_width_operationsOver]
  rfl

theorem widen_branchesOver :
    (branchesOver form extra arms).widen = branchesOver .long extra arms := by
  rw [MethodBody.widen, branchesOver, branchesOver, widenBranches_numberFrom]
  congr 2
  simp [operationsOver, Operation.withForm]

/-- The last instruction stands behind all branches and arms. -/
theorem offsetAt_last_branchesOver :
    offsetAt (branchesOver form extra arms).instructions
        (extra + 1 + arms.length) =
      (extra + 1) * Operation.branchWidth form + armsSize arms := by
  rw [offsetAt, branchesOver, numberFrom_append, List.take_left',
    codeSize_numberFrom, sum_width_operationsOver]
  simp

theorem offsetAt_branchesOver_le
    {index : Nat} (inside : index ≤ extra + 1) :
    offsetAt (branchesOver form extra arms).instructions index ≤
      (extra + 1) * Operation.branchWidth form := by
  have whole :
      offsetAt (branchesOver form extra arms).instructions (extra + 1) =
        (extra + 1) * Operation.branchWidth form := by
    rw [offsetAt, branchesOver, operationsOver, List.append_assoc,
      numberFrom_append, List.take_left' (by simp), codeSize_numberFrom]
    simp [Operation.width]
  rw [← whole, ← offsetAt_add_sizeBetween _ inside]
  exact Nat.le_add_right _ _

/-- Only the branches in front are branches. -/
theorem lt_of_longBranch_branchesOver
    {index target : Nat}
    (branch : LongBranch (branchesOver form extra arms).instructions
      index target) :
    index < extra + 1 ∧ target = extra + 1 + arms.length := by
  obtain ⟨id, kind, label, here, other, there, named⟩ := branch
  have labelled : label = ⟨extra + 1 + arms.length⟩ :=
    eq_of_mem_targets_branchesOver (List.mem_of_getElem? here)
      (List.mem_singleton.mpr rfl)
  refine ⟨?_, position_eq_of_id_eq distinct_branchesOver there
    last_branchesOver (named.trans labelled)⟩
  by_contra behind
  rw [getElem?_branchesOver, operationsOver, List.append_assoc,
    List.getElem?_append_right (by simpa using behind)] at here
  obtain ⟨operation, found, same⟩ := Option.map_eq_some_iff.mp here
  have among := List.mem_of_getElem? found
  obtain ⟨-, rfl⟩ := Instruction.mk.inj same
  simp at among

/-- Over more code than a signed byte can jump, all branches stay long. -/
theorem narrow_branchesOver (far : 127 < armsSize arms) :
    (branchesOver .long extra arms).narrow = branchesOver .long extra arms := by
  have settled :
      Settled (-128) 127 (branchesOver .long extra arms).instructions := by
    intro index target branch fits
    obtain ⟨inside, rfl⟩ := lt_of_longBranch_branchesOver branch
    obtain ⟨id, kind, label, here, -⟩ := branch
    have finish := offsetAt_narrowAt here (index + 1)
    have last := offsetAt_narrowAt here (extra + 1 + arms.length)
    rw [if_pos (Nat.lt_succ_self _)] at finish
    rw [if_pos (by omega), offsetAt_last_branchesOver] at last
    have near := @offsetAt_branchesOver_le .long extra arms (index + 1) inside
    have atMost := fits.2
    rw [displacement] at atMost
    omega
  rw [narrow, narrowBranches_of_settled (by decide) (by decide)
    distinct_branchesOver settled]

theorem displacement_branchesOver :
    displacement (branchesOver .long extra arms).instructions 0
        (extra + 1 + arms.length) = (5 * extra + armsSize arms : Nat) := by
  have finish := offsetAt_succ (@first_branchesOver .long extra arms)
  have width :
      (⟨⟨0⟩, .branch .always .long ⟨extra + 1 + arms.length⟩⟩ :
        Instruction).width = 5 := rfl
  rw [displacement, finish, width, offsetAt_last_branchesOver, offsetAt_zero]
  simp only [Operation.branchWidth]
  omega

/-- The first branch cannot be encoded if what is behind it takes two gibibytes. -/
theorem run_encode_branchesOver
    (graph : Graph) (pool : TokenPool)
    (wide : 127 < armsSize arms) (far : 2 ^ 31 ≤ 5 * extra + armsSize arms) :
    ((branchesOver .short extra arms).widen.narrow.encode graph false).run
        pool =
      (.error (.branchOutOfRange ⟨0⟩ (5 * extra + armsSize arms : Nat)),
        pool) := by
  have known :
      displacementFrom
          (placements (branchesOver .long extra arms).instructions) (0 + 5)
          ⟨extra + 1 + arms.length⟩ =
        .ok (5 * extra + armsSize arms : Nat) := by
    rw [← displacement_branchesOver]
    exact displacementFrom_placements distinct_branchesOver 0
      last_branchesOver
  have first :
      ((Operation.branch .always .long ⟨extra + 1 + arms.length⟩).encode graph
          ⟨0⟩ (displacementFrom
            (placements (branchesOver .long extra arms).instructions)
            (0 + 5))).run pool =
        (.error (.branchOutOfRange ⟨0⟩ (5 * extra + armsSize arms : Nat)),
          pool) := by
    have tooFar :
        Operation.displacementBytes ⟨0⟩ 4 (5 * extra + armsSize arms : Nat) =
          .error (.branchOutOfRange ⟨0⟩
            (5 * extra + armsSize arms : Nat)) :=
      Operation.displacementBytes_of_ge (Int.ofNat_le.mpr far)
    rw [Operation.run_encode_branch, Operation.jumpBytes_of_known known,
      Operation.displacementWidth, tooFar]
    rfl
  have failed :
      (encodeFrom graph
          (placements (branchesOver .long extra arms).instructions) 0
          (branchesOver .long extra arms).instructions).run pool =
        (.error (.branchOutOfRange ⟨0⟩ (5 * extra + armsSize arms : Nat)),
          pool) := by
    have whole :
        (branchesOver .long extra arms).instructions =
          ⟨⟨0⟩, .branch .always .long ⟨extra + 1 + arms.length⟩⟩ ::
            (branchesOver .long extra arms).instructions.tail := rfl
    have started :=
      @run_encodeFrom_cons_error graph _ pool pool 0
        ⟨⟨0⟩, .branch .always .long ⟨extra + 1 + arms.length⟩⟩ _
        (branchesOver .long extra arms).instructions.tail first
    rwa [← whole] at started
  rw [widen_branchesOver, narrow_branchesOver wide, run_encode,
    checkDepths_branchesOver]
  dsimp only
  rw [if_neg (by decide), failed]

end BranchesOver

/-- Twenty-one short branches over 26842 switches, in a body just below two gibibytes. -/
def tooFar : MethodBody :=
  branchesOver .short 20 (List.replicate 26841 20000 ++ [17335])

/-- A body may be below two gibibytes and yet have a branch that cannot be encoded. -/
theorem encode_tooFar :
    (identities tooFar.instructions).Nodup ∧
      tooFar.ensureResolved = .ok () ∧
      codeSize tooFar.instructions < 2 ^ 31 ∧
      (tooFar.widen.narrow.encode {} false).run {} =
        (.error (.branchOutOfRange ⟨0⟩ 2147483650), {}) := by
  have size :
      armsSize (List.replicate 26841 20000 ++ [17335]) = 2147483550 := by
    rw [armsSize, List.map_append, List.map_replicate, List.sum_append,
      List.sum_replicate_nat, List.map_singleton, List.sum_singleton]
  refine ⟨distinct_branchesOver, resolved_branchesOver, ?_, ?_⟩
  · rw [tooFar, codeSize_branchesOver, size, Operation.branchWidth]
    omega
  · have far :
        2 ^ 31 ≤ 5 * 20 + armsSize (List.replicate 26841 20000 ++ [17335]) := by
      omega
    have wide :
        127 < armsSize (List.replicate 26841 20000 ++ [17335]) := by
      omega
    have failed := run_encode_branchesOver {} {} wide far
    rw [size] at failed
    exact failed

end MethodBody

end NullWeave
