import NullWeave.Proofs.Text.LoadedProgram
import NullWeave.Proofs.Weave.Rewriting

/-!
# Rewriting only adds

A body that was woven any number of times still has all instructions that it
had at first, in their order and under their identities.  What was added has
identities that the first body had not given out, and stands in front of
everything or before a return or a call that hands a value over.  Whatever named
such an instruction names the first of the instructions added before it.

So the first body comes back, but for the forms of its branches, when the new
instructions are left out and every reference to one of them is moved on to the
next instruction that is old.
-/

namespace NullWeave

/-! ## Instructions added to a body -/

/-- Instructions added to a body: in front of it, and before each of its instructions. -/
structure Additions where
  front : List Instruction := []
  before : InstrId → List Instruction := fun _ => []

namespace Additions

/-- Where a reference to an instruction leads: to the first instruction added before it. -/
def entrance (additions : Additions) (id : InstrId) : InstrId :=
  ((additions.before id).head?.map (·.id)).getD id

/-- An instruction with what is added before it. -/
def block
    (additions : Additions) (instruction : Instruction) :
    List Instruction :=
  additions.before instruction.id ++
    [instruction.mapTargets additions.entrance]

/-- Instructions with what is added before each of them. -/
def expand
    (additions : Additions) (instructions : List Instruction) :
    List Instruction :=
  instructions.flatMap additions.block

/-- Additions to a body to which others were added before. -/
def after (later earlier : Additions) : Additions where
  front := later.front ++ later.expand earlier.front
  before id := later.expand (earlier.before id) ++ later.before id

theorem expand_append
    (additions : Additions) (front back : List Instruction) :
    additions.expand (front ++ back) =
      additions.expand front ++ additions.expand back :=
  List.flatMap_append

@[simp]
theorem expand_singleton
    (additions : Additions) (instruction : Instruction) :
    additions.expand [instruction] =
      additions.before instruction.id ++
        [instruction.mapTargets additions.entrance] := by
  simp [expand, block]

/-- The first instruction of a block is the entrance of its instruction. -/
theorem head?_block
    (additions : Additions) (instruction : Instruction)
    (rest : List Instruction) :
    ((additions.block instruction ++ rest).head?).map (·.id) =
      some (additions.entrance instruction.id) := by
  unfold block entrance
  cases additions.before instruction.id <;> rfl

theorem entrance_after (later earlier : Additions) (id : InstrId) :
    (later.after earlier).entrance id =
      later.entrance (earlier.entrance id) := by
  cases row : earlier.before id with
  | nil =>
      simp [entrance, after, row, expand]
  | cons first rest =>
      have head :=
        later.head?_block first
          (later.expand rest ++ later.before id)
      have entered : earlier.entrance id = first.id := by
        simp [entrance, row]
      rw [entered]
      unfold entrance at head ⊢
      simp only [after, row, expand, List.flatMap_cons,
        List.append_assoc]
      rw [expand] at head
      rw [head]
      rfl

/-- Adding twice comes to adding all at once. -/
theorem expand_after
    (later earlier : Additions) (instructions : List Instruction) :
    (later.after earlier).expand instructions =
      later.expand (earlier.expand instructions) := by
  induction instructions with
  | nil =>
      rfl
  | cons instruction rest inductionHypothesis =>
      have targets :
          instruction.mapTargets (later.after earlier).entrance =
            (instruction.mapTargets earlier.entrance).mapTargets
              later.entrance := by
        simp only [Instruction.mapTargets,
          Operation.mapTargets_mapTargets, Instruction.mk.injEq,
          true_and]
        refine Operation.mapTargets_congr fun id _ => ?_
        exact later.entrance_after earlier id
      have here :
          (later.after earlier).block instruction =
            later.expand (earlier.block instruction) := by
        rw [block, block, expand_append, expand_singleton, targets]
        simp [after]
      rw [expand, List.flatMap_cons, ← expand, inductionHypothesis, here,
        ← expand_append]
      rfl

theorem mem_identities_expand
    {additions : Additions} {instructions : List Instruction}
    {id : InstrId}
    (member : id ∈ identities (additions.expand instructions)) :
    id ∈ identities instructions ∨
      ∃ point ∈ identities instructions,
        id ∈ identities (additions.before point) := by
  obtain ⟨instruction, inside, rfl⟩ := mem_identities.mp member
  obtain ⟨point, here, inBlock⟩ := List.mem_flatMap.mp inside
  rcases List.mem_append.mp inBlock with added | last
  · exact .inr ⟨point.id, id_mem_identities here,
      id_mem_identities added⟩
  · rw [List.mem_singleton.mp last, Instruction.id_mapTargets]
    exact .inl (id_mem_identities here)

end Additions

/-! ## Bodies that only grew -/

/-- A body is another one with instructions added to it, the forms of branches apart. -/
structure Additions.Grows
    (additions : Additions) (graph : Graph) (old new : MethodBody) :
    Prop where
  instructions :
    widenBranches new.instructions =
      additions.front ++
        additions.expand (widenBranches old.instructions)
  handlers :
    new.handlers =
      old.handlers.map (·.mapBoundaries additions.entrance)
  locals : new.locals = old.locals
  wellFormed : new.WellFormed
  issued : old.nextId.number ≤ new.nextId.number
  /-- What is added has identities that the body had not given out. -/
  freshFront : ∀ id ∈ identities additions.front,
    old.nextId.number ≤ id.number
  freshBefore : ∀ point ∈ identities old.instructions,
    ∀ id ∈ identities (additions.before point),
      old.nextId.number ≤ id.number
  /-- Only before returns and before calls that hand values over anything is added. -/
  guarded : ∀ point ∈ old.instructions,
    additions.before point.id ≠ [] →
      point.operation.isRet = true ∨
        graph.isHandover point.operation = true

namespace Additions.Grows

variable
    {additions : Additions} {graph : Graph} {old new : MethodBody}

theorem refl
    (graph : Graph) {body : MethodBody} (wellFormed : body.WellFormed) :
    Grows {} graph body body where
  instructions := by
    have single :
        Additions.block {} = fun instruction => [instruction] := by
      funext instruction
      change [instruction.mapTargets id] = [instruction]
      simp [Instruction.mapTargets]
    simp [Additions.expand, single]
  handlers := by
    have unchanged :
        Additions.entrance {} = (id : InstrId → InstrId) := rfl
    simp [unchanged, ExceptionHandler.mapBoundaries]
  locals := rfl
  wellFormed
  issued := Nat.le_refl _
  freshFront := by simp
  freshBefore := by simp
  guarded := by simp

/-- The old instructions are still there, under their identities. -/
theorem exists_of_mem
    (grows : additions.Grows graph old new) {point : Instruction}
    (here : point ∈ old.instructions) :
    ∃ now ∈ new.instructions,
      now.withForm .long =
        (point.withForm .long).mapTargets additions.entrance := by
  have inside :
      (point.withForm .long).mapTargets additions.entrance ∈
        widenBranches new.instructions := by
    rw [grows.instructions]
    refine List.mem_append_right _ (List.mem_flatMap.mpr
      ⟨point.withForm .long, List.mem_map_of_mem here, ?_⟩)
    exact List.mem_append_right _ (List.mem_singleton.mpr rfl)
  obtain ⟨now, there, same⟩ := List.mem_map.mp inside
  exact ⟨now, there, same⟩

theorem mem_identities
    (grows : additions.Grows graph old new) {id : InstrId}
    (member : id ∈ identities old.instructions) :
    id ∈ identities new.instructions := by
  obtain ⟨point, here, rfl⟩ := NullWeave.mem_identities.mp member
  obtain ⟨now, there, same⟩ := grows.exists_of_mem here
  have sameId : now.id = point.id := congrArg (·.id) same
  exact sameId ▸ id_mem_identities there

theorem mem_identities_of_added
    (grows : additions.Grows graph old new) {id : InstrId}
    (member : id ∈ identities additions.front ∨
      ∃ point ∈ identities old.instructions,
        id ∈ identities (additions.before point)) :
    id ∈ identities new.instructions := by
  rw [← identities_widenBranches, grows.instructions, identities_append]
  rcases member with front | ⟨point, here, before⟩
  · exact List.mem_append_left _ front
  · obtain ⟨instruction, inside, rfl⟩ := NullWeave.mem_identities.mp here
    obtain ⟨added, among, rfl⟩ := NullWeave.mem_identities.mp before
    refine List.mem_append_right _ (id_mem_identities
      (List.mem_flatMap.mpr ⟨instruction.withForm .long,
        List.mem_map_of_mem inside, List.mem_append_left _ among⟩))

/-- What grew and grew again only grew. -/
theorem trans
    {later earlier : Additions} {middle : MethodBody}
    (first : earlier.Grows graph old middle)
    (second : later.Grows graph middle new) :
    (later.after earlier).Grows graph old new where
  instructions := by
    rw [second.instructions, first.instructions, expand_append,
      expand_after]
    simp [after]
  handlers := by
    rw [second.handlers, first.handlers, List.map_map]
    refine List.map_congr_left fun handler _ => ?_
    rw [Function.comp_apply,
      ExceptionHandler.mapBoundaries_mapBoundaries]
    refine ExceptionHandler.mapBoundaries_congr fun id _ => ?_
    exact (later.entrance_after earlier id).symm
  locals := second.locals.trans first.locals
  wellFormed := second.wellFormed
  issued := first.issued.trans second.issued
  freshFront := by
    intro id member
    rw [after, identities_append] at member
    rcases List.mem_append.mp member with front | behind
    · exact first.issued.trans (second.freshFront id front)
    · rcases mem_identities_expand behind with old | ⟨point, here, added⟩
      · exact first.freshFront id old
      · exact first.issued.trans (second.freshBefore point
          (first.mem_identities_of_added (.inl here)) id added)
  freshBefore := by
    intro point member id added
    rw [after, identities_append] at added
    rcases List.mem_append.mp added with inner | last
    · rcases mem_identities_expand inner with old | ⟨other, here, new⟩
      · exact first.freshBefore point member id old
      · exact first.issued.trans (second.freshBefore other
          (first.mem_identities_of_added (.inr ⟨point, member, here⟩))
          id new)
    · exact first.issued.trans (second.freshBefore point
        (first.mem_identities member) id last)
  guarded := by
    intro point here added
    by_cases inner : earlier.before point.id = []
    · obtain ⟨now, there, same⟩ := first.exists_of_mem here
      have sameId : now.id = point.id := congrArg (·.id) same
      have sameOperation :
          now.operation.withForm .long =
            (point.operation.withForm .long).mapTargets
              earlier.entrance :=
        congrArg (·.operation) same
      have outer : later.before now.id ≠ [] := by
        rw [sameId]
        simpa [after, inner, expand] using added
      have points := second.guarded now there outer
      have isRet := congrArg Operation.isRet sameOperation
      have isHandover := congrArg graph.isHandover sameOperation
      rw [Operation.isRet_withForm, Operation.isRet_mapTargets,
        Operation.isRet_withForm] at isRet
      rw [Graph.isHandover_withForm, Graph.isHandover_mapTargets,
        Graph.isHandover_withForm] at isHandover
      rwa [isRet, isHandover] at points
    · exact first.guarded point here inner

end Additions.Grows

/-! ## What was there before -/

/-- Does an instruction have an identity below a bound? -/
def Instruction.isBelow
    (bound : InstrId) (instruction : Instruction) : Bool :=
  instruction.id.number < bound.number

/-- The first identity below a bound, from an identity on. -/
def firstBelow
    (bound : InstrId) (ids : List InstrId) (id : InstrId) : InstrId :=
  ((ids.dropWhile (· != id)).find? (·.number < bound.number)).getD id

/--
A body without the instructions whose identities it gave out from a bound on.

A reference to one of them is moved on to the next instruction that stays.
-/
def MethodBody.withoutAdded
    (body : MethodBody) (bound : InstrId) : MethodBody :=
  let back := firstBelow bound (identities body.instructions)
  { body with
    instructions :=
      (body.instructions.filter (·.isBelow bound)).map
        (·.mapTargets back)
    handlers := body.handlers.map (·.mapBoundaries back)
    nextId := bound }

theorem firstBelow_of_split
    {bound id start : InstrId} {ids front added back : List InstrId}
    (distinct : ids.Nodup)
    (split : ids = front ++ (added ++ id :: back))
    (fresh : ∀ other ∈ added, bound.number ≤ other.number)
    (old : id.number < bound.number)
    (head : (added ++ [id]).head? = some start) :
    firstBelow bound ids start = id := by
  rw [split] at distinct
  obtain ⟨-, -, apart⟩ := List.nodup_append.mp distinct
  have inside : start ∈ added ++ id :: back := by
    have among := List.mem_of_mem_head? head
    simp only [List.mem_append, List.mem_cons] at among ⊢
    tauto
  have skipped :
      ids.dropWhile (· != start) = added ++ id :: back := by
    rw [split, List.dropWhile_append_of_pos]
    · cases added with
      | nil =>
          cases head
          simp
      | cons first rest =>
          cases head
          simp
    · intro other member
      simpa using apart other member start inside
  have none : added.find? (·.number < bound.number) = none := by
    refine List.find?_eq_none.mpr fun other member => ?_
    have late := fresh other member
    simpa using late
  rw [firstBelow, skipped, List.find?_append, none]
  simp [old]

namespace Additions.Grows

variable
    {additions : Additions} {graph : Graph} {old new : MethodBody}

/-- The old instructions are the ones with old identities, in their order. -/
theorem filter_eq
    (grows : additions.Grows graph old new)
    (wellFormed : old.WellFormed) :
    widenBranches (new.instructions.filter (·.isBelow old.nextId)) =
      (widenBranches old.instructions).map
        (·.mapTargets additions.entrance) := by
  have commutes :
      widenBranches (new.instructions.filter (·.isBelow old.nextId)) =
        (widenBranches new.instructions).filter
          (·.isBelow old.nextId) := by
    rw [widenBranches, widenBranches, List.filter_map]
    rfl
  have dropped : ∀ instructions : List Instruction,
      (∀ id ∈ identities instructions, old.nextId.number ≤ id.number) →
        instructions.filter (·.isBelow old.nextId) = [] := by
    intro instructions fresh
    refine List.filter_eq_nil_iff.mpr fun instruction member => ?_
    have late := fresh instruction.id (id_mem_identities member)
    simpa [Instruction.isBelow] using late
  rw [commutes, grows.instructions, List.filter_append,
    dropped additions.front grows.freshFront, List.nil_append,
    Additions.expand, List.filter_flatMap, List.map_eq_flatMap]
  refine List.flatMap_congr fun instruction member => ?_
  have here : instruction.id ∈ identities old.instructions := by
    rw [← identities_widenBranches]
    exact id_mem_identities member
  have stays :
      (instruction.mapTargets additions.entrance).isBelow old.nextId =
        true := by
    exact decide_eq_true (wellFormed.number_lt here)
  rw [Additions.block, List.filter_append,
    dropped _ (grows.freshBefore instruction.id here), List.nil_append,
    List.filter_singleton, stays]
  rfl

/-- Moving on to the next old instruction undoes what was redirected. -/
theorem firstBelow_entrance
    (grows : additions.Grows graph old new)
    (wellFormed : old.WellFormed) {id : InstrId}
    (member : id ∈ identities old.instructions) :
    firstBelow old.nextId (identities new.instructions)
        (additions.entrance id) = id := by
  obtain ⟨point, here, rfl⟩ := NullWeave.mem_identities.mp member
  obtain ⟨earlier, later, split⟩ :=
    List.append_of_mem (List.mem_map_of_mem (f := (·.withForm .long)) here)
  have stands :
      identities new.instructions =
        (identities additions.front ++
            identities (additions.expand earlier)) ++
          (identities (additions.before point.id) ++
            point.id :: identities (additions.expand later)) := by
    rw [← identities_widenBranches, grows.instructions, widenBranches,
      split, Additions.expand_append, Additions.expand,
      Additions.expand, List.flatMap_cons, Additions.block]
    simp [Additions.expand]
  refine firstBelow_of_split grows.wellFormed.distinct stands
    (grows.freshBefore point.id member)
    (wellFormed.number_lt member) ?_
  unfold Additions.entrance
  cases additions.before point.id <;> rfl

/-- Without what was added, a body is the one that it was, the forms of branches apart. -/
theorem widen_withoutAdded
    (grows : additions.Grows graph old new)
    (wellFormed : old.WellFormed) :
    (new.withoutAdded old.nextId).widen =
      { old.widen with
        initLocals := new.initLocals
        debugInfo := new.debugInfo } := by
  have undone : ∀ id ∈ identities old.instructions,
      (firstBelow old.nextId (identities new.instructions) ∘
        additions.entrance) id = id :=
    fun id member => grows.firstBelow_entrance wellFormed member
  have instructions :
      widenBranches (new.withoutAdded old.nextId).instructions =
        widenBranches old.instructions := by
    have later :
        widenBranches (new.withoutAdded old.nextId).instructions =
          (widenBranches
            (new.instructions.filter (·.isBelow old.nextId))).map
              (·.mapTargets
                (firstBelow old.nextId (identities new.instructions))) := by
      simp [MethodBody.withoutAdded, widenBranches, Instruction.withForm,
        Instruction.mapTargets, Operation.withForm_mapTargets]
    rw [later, grows.filter_eq wellFormed, List.map_map]
    refine (List.map_congr_left fun instruction member => ?_).trans
      (List.map_id _)
    simp only [Function.comp_apply, Instruction.mapTargets,
      Operation.mapTargets_mapTargets]
    rw [Operation.mapTargets_congr fun id target => undone id ?_]
    · exact congrArg _ (Operation.mapTargets_id _)
    · rw [← identities_widenBranches]
      exact wellFormed.widen.targetsWithin instruction member id target
  have handlers :
      (new.withoutAdded old.nextId).handlers = old.handlers := by
    change new.handlers.map _ = old.handlers
    rw [grows.handlers, List.map_map]
    refine (List.map_congr_left fun handler member => ?_).trans
      (List.map_id old.handlers)
    rw [Function.comp_apply,
      ExceptionHandler.mapBoundaries_mapBoundaries]
    refine (ExceptionHandler.mapBoundaries_congr fun id boundary =>
      undone id (wellFormed.boundary_mem member boundary)).trans ?_
    simp [ExceptionHandler.mapBoundaries]
  rw [MethodBody.widen, instructions]
  simp only [MethodBody.widen]
  congr 1
  · exact grows.locals

end Additions.Grows

/-! ## Weaving only adds -/

/-- What guards add to a body. -/
def GuardLayout.additions
    (layout : GuardLayout) (debugBuild : Bool)
    (instructions : List Instruction) : Additions where
  front := layout.frontCode debugBuild instructions
  before id := (layout.before id).code debugBuild id

@[simp]
theorem GuardLayout.entrance_additions
    (layout : GuardLayout) (debugBuild : Bool)
    (instructions : List Instruction) (id : InstrId) :
    (layout.additions debugBuild instructions).entrance id =
      layout.entrance id := by
  rw [Additions.entrance, additions, entrance]
  cases row : layout.before id with
  | nil =>
      simp [row]
  | cons placed rest =>
      have head := placed.head?_code debugBuild (GuardRow.entrance rest id)
      dsimp only
      rw [row, GuardRow.code_cons, List.head?_append]
      cases first :
          (placed.code debugBuild (GuardRow.entrance rest id)).head? with
      | none =>
          rw [first] at head
          cases head
      | some instruction =>
          rw [first] at head
          simpa using head

theorem GuardLayout.expand_additions
    (layout : GuardLayout) (debugBuild : Bool)
    (instructions part : List Instruction) :
    (layout.additions debugBuild instructions).expand part =
      layout.blocks debugBuild part := by
  have same :
      (layout.additions debugBuild instructions).entrance =
        layout.entrance :=
    funext (layout.entrance_additions debugBuild instructions)
  unfold Additions.expand blocks
  refine List.flatMap_congr fun instruction _ => ?_
  rw [Additions.block, same]
  rfl

namespace GuardLayout.Describes

variable
    {layout : GuardLayout} {debugBuild : Bool}
    {original guarded : MethodBody}

/-- What is put in front of a body has other identities than the body. -/
theorem not_mem_of_frontCode
    (described : layout.Describes debugBuild original guarded)
    {id : InstrId}
    (member : id ∈
      identities (layout.frontCode debugBuild original.instructions)) :
    id ∉ identities original.instructions := by
  intro old
  obtain ⟨point, here, rfl⟩ := mem_identities.mp old
  refine not_mem_frontCode described.distinct_code here ?_ member
  simp [block]

/-- What is put before an instruction has other identities than the body. -/
theorem not_mem_of_before
    (described : layout.Describes debugBuild original guarded)
    {point : Instruction} (here : point ∈ original.instructions)
    {id : InstrId}
    (member : id ∈
      identities ((layout.before point.id).code debugBuild point.id)) :
    id ∉ identities original.instructions := by
  intro old
  obtain ⟨other, there, rfl⟩ := mem_identities.mp old
  have same :=
    point_eq_of_mem_blocks described.distinct_code here there
      (by
        rw [block, identities_append]
        exact List.mem_append_left _ member)
      (show other.id ∈ identities (layout.block debugBuild other) by
        simp [block])
  subst same
  obtain ⟨earlier, later, split⟩ := List.append_of_mem here
  obtain ⟨front, stands, -⟩ := described.block_stands split
  have distinct := described.distinct
  rw [stands, identities_append, identities_append] at distinct
  have apart :=
    (List.nodup_append.mp (List.nodup_append.mp distinct).2.1).2.2
  exact apart point.id member point.id (by simp) rfl

end GuardLayout.Describes

section Growing

variable
    {graph : Graph} {settings : Settings} {body new : MethodBody}
    {guarded : GuardedBody} {layout : GuardLayout}

theorem Rewritten.fresh
    (rewritten : Rewritten graph settings body new guarded layout)
    {id : InstrId} (member : id ∈ identities new.instructions)
    (other : id ∉ identities body.instructions) :
    body.nextId.number ≤ id.number := by
  obtain ⟨placed, trace, -⟩ := rewritten.comesFrom
  rw [rewritten.identities_eq] at member
  exact trace.fresh member (by simpa using other)

theorem Rewritten.issued
    (rewritten : Rewritten graph settings body new guarded layout) :
    body.nextId.number ≤ new.nextId.number := by
  obtain ⟨placed, trace, -⟩ := rewritten.comesFrom
  obtain ⟨initLocals, rfl⟩ := rewritten.finishes
  have nextId := trace.nextId_eq
  have same :
      ({ guarded.finish with
        initLocals := initLocals } : MethodBody).nextId =
          guarded.body.nextId := rfl
  rw [same, nextId]
  exact Nat.le_add_right _ _

/-- A body that is rewritten once only grows. -/
theorem Rewritten.grows
    (rewritten : Rewritten graph settings body new guarded layout)
    (wellFormed : body.WellFormed) :
    (layout.additions settings.debugBuild
      body.widen.instructions).Grows graph body new := by
  have described := rewritten.describes
  have instructions := described.instructions
  rw [MethodBody.instructions_widen, MethodBody.instructions_widen]
    at instructions
  have present : ∀ id, id ∈ identities new.instructions ↔
      id ∈ identities (layout.code settings.debugBuild
        (widenBranches body.instructions)) := by
    intro id
    rw [← instructions, identities_widenBranches]
  refine
    { instructions := ?_
      handlers := ?_
      locals := described.locals
      wellFormed := rewritten.wellFormed wellFormed
      issued := rewritten.issued
      freshFront := ?_
      freshBefore := ?_
      guarded := ?_ }
  · rw [GuardLayout.expand_additions, instructions]
    rfl
  · rw [show new.handlers = new.widen.handlers from rfl,
      described.handlers]
    refine List.map_congr_left fun handler _ => ?_
    refine ExceptionHandler.mapBoundaries_congr fun id _ => ?_
    exact (layout.entrance_additions _ _ id).symm
  · intro id member
    refine rewritten.fresh ((present id).mpr ?_) ?_
    · rw [GuardLayout.code, identities_append]
      exact List.mem_append_left _ member
    · simpa using described.not_mem_of_frontCode member
  · intro point here id member
    obtain ⟨instruction, inside, rfl⟩ := mem_identities.mp
      (show point ∈ identities body.widen.instructions by simpa using here)
    refine rewritten.fresh ((present id).mpr ?_) ?_
    · rw [GuardLayout.code, identities_append]
      refine List.mem_append_right _
        (GuardLayout.mem_identities_blocks inside ?_)
      rw [GuardLayout.block, identities_append]
      exact List.mem_append_left _ member
    · simpa using described.not_mem_of_before inside member
  · intro point here added
    by_contra other
    rw [not_or, Bool.not_eq_true, Bool.not_eq_true] at other
    refine added ?_
    change (layout.before point.id).code settings.debugBuild point.id = []
    rw [rewritten.unguarded point here other.1 other.2]
    rfl

end Growing

namespace Weaver

/-- Weaving one method, if it succeeds, weaves it as such unless a tool wrote it. -/
theorem of_run_weaveUnlessGenerated
    {graph : Graph} {settings : Settings} {method : MethodId}
    {state final : WeaveState}
    (ran : (weaveUnlessGenerated graph settings method).run state =
      (.ok (), final)) :
    final.bodies = state.bodies ∨
      (weaveMethod graph settings method).run state = (.ok (), final) := by
  unfold weaveUnlessGenerated at ran
  split at ran
  · cases ran
    exact .inl rfl
  · rw [run_tryCatch] at ran
    rcases went : (weaveMethod graph settings method).run state with
      ⟨failure | _, reached⟩
    · rw [went] at ran
      cases ran
    · rw [went] at ran
      exact .inr ran

/-- What weaving has made of the bodies of a program: each of them only grew. -/
def OnlyGrew (program : Program) (state : WeaveState) : Prop :=
  ∀ method,
    (program.bodies.get? method = none →
      state.bodies.get? method = none) ∧
    ∀ body, program.bodies.get? method = some body →
      ∃ new additions,
        state.bodies.get? method = some new ∧
          Additions.Grows additions program.graph body new

theorem OnlyGrew.weaveMethod
    {program : Program} {settings : Settings} {method : MethodId}
    {state final : WeaveState}
    (grew : OnlyGrew program state)
    (ran : (weaveMethod program.graph settings method).run state =
      (.ok (), final)) :
    OnlyGrew program final := by
  intro other
  rcases get?_of_run_weaveMethod ran other with
    same | ⟨body, new, there, now, rewrites⟩
  · rw [same]
    exact grew other
  · refine ⟨fun absent => ?_, fun first present => ?_⟩
    · rw [(grew other).1 absent] at there
      cases there
    · obtain ⟨middle, earlier, found, grows⟩ :=
        (grew other).2 first present
      cases found.symm.trans there
      obtain ⟨guarded, layout, rewritten⟩ :=
        rewrites.exists_rewritten grows.wellFormed
      exact ⟨new, _, now, grows.trans (rewritten.grows grows.wellFormed)⟩

/--
However often the methods of a program are woven, each of its bodies only grows.

A new body is well formed.  Its instructions with old identities are the old
ones, in their order, and differ from these only in the forms of branches and in
references: a reference to an instruction before which something was added
leads to the first of the added instructions.  Without what was added, the new
body is the old one again.
-/
theorem weaving_only_adds
    {program : Program} (loaded : program.Loaded)
    (calls : List (Settings × MethodId)) (state final : WeaveState)
    (start : state.bodies = program.bodies)
    (ran :
      (calls.forM fun call =>
        weaveUnlessGenerated program.graph call.1 call.2).run state =
          (.ok (), final))
    (method : MethodId) :
    (program.bodies.get? method = none →
      final.bodies.get? method = none) ∧
    ∀ body, program.bodies.get? method = some body →
      ∃ new additions,
        final.bodies.get? method = some new ∧
          Additions.Grows additions program.graph body new ∧
          widenBranches
              (new.instructions.filter (·.isBelow body.nextId)) =
            (widenBranches body.instructions).map
              (·.mapTargets additions.entrance) ∧
          (new.withoutAdded body.nextId).widen =
            { body.widen with
              initLocals := new.initLocals
              debugInfo := new.debugInfo } := by
  have begins : OnlyGrew program state := by
    intro other
    rw [start]
    exact ⟨id, fun body present =>
      ⟨body, {}, present, .refl _ (loaded.asRead present).wellFormed⟩⟩
  have grew : OnlyGrew program final := by
    refine run_forM_keeps
      (fun call state reached grew ran => ?_) begins ran
    rcases of_run_weaveUnlessGenerated ran with same | ran
    · intro other
      rw [same]
      exact grew other
    · exact grew.weaveMethod ran
  refine ⟨(grew method).1, fun body present => ?_⟩
  have wellFormed := (loaded.asRead present).wellFormed
  obtain ⟨new, additions, there, grows⟩ := (grew method).2 body present
  exact ⟨new, additions, there, grows, grows.filter_eq wellFormed,
    grows.widen_withoutAdded wellFormed⟩

open EchoProgram in
/-- Woven twice, a body of four instructions has eighteen more, without which it is the first one. -/
theorem weaving_only_adds_echo :
    ∃ (final : WeaveState) (new : MethodBody),
      ([({}, echo), ({}, echo)].forM fun call =>
          weaveUnlessGenerated program.graph call.1 call.2).run
            { bodies := program.bodies } = (.ok (), final) ∧
        final.bodies.get? echo = some new ∧
        new.instructions.length = 22 ∧
        (new.withoutAdded body.nextId).widen.instructions =
          body.widen.instructions := by
  have ran :=
    run_eq_of_isOk
      (show (([({}, echo), ({}, echo)].forM fun call =>
          weaveUnlessGenerated program.graph call.1 call.2).run
            { bodies := program.bodies }).1.isOk = true by decide +kernel)
  have size :
      ((([({}, echo), ({}, echo)].forM fun call =>
          weaveUnlessGenerated program.graph call.1 call.2).run
            { bodies := program.bodies }).2.bodies.get? echo).map
              (·.instructions.length) = some 22 := by
    decide +kernel
  have present : program.bodies.get? echo = some body :=
    Bodies.get?_set_self _ _ _
  obtain ⟨new, additions, there, -, -, undone⟩ :=
    (weaving_only_adds loaded [({}, echo), ({}, echo)]
      { bodies := program.bodies } _ rfl ran echo).2 body present
  rw [there] at size
  exact ⟨_, new, ran, there, Option.some.inj size,
    congrArg (·.instructions) undone⟩

end Weaver

end NullWeave
