import NullWeave.Proofs.Weave.GuardRow

/-!
# Where guards stand in a body

A guarded body is its original body with rows of guards in it: one row in front
of everything, and one row before each instruction that has any.  Every
reference of the original body to an instruction leads to the entrance of the
row before it.

Weaving puts in one guard at a time.  Wherever in a row it puts the guard, the
row gets one guard longer there and nothing else of the description changes:
what used to lead to the place of the new guard now leads to the guard.
-/

namespace NullWeave

/-- Which guards stand where in a body. -/
structure GuardLayout where
  /-- The guards in front of the body. -/
  front : GuardRow := []
  /-- The guards before each instruction of the original body. -/
  before : InstrId → GuardRow := fun _ => []

namespace GuardLayout

/-- Where a reference to an instruction leads. -/
def entrance (layout : GuardLayout) (id : InstrId) : InstrId :=
  (layout.before id).entrance id

/-- An instruction with the row before it. -/
def block
    (layout : GuardLayout) (debugBuild : Bool)
    (instruction : Instruction) : List Instruction :=
  (layout.before instruction.id).code debugBuild instruction.id ++
    [instruction.mapTargets layout.entrance]

/-- Instructions with the rows before them. -/
def blocks
    (layout : GuardLayout) (debugBuild : Bool)
    (instructions : List Instruction) : List Instruction :=
  instructions.flatMap (layout.block debugBuild)

/-- The row in front, which goes on at the first instruction. -/
def frontCode
    (layout : GuardLayout) (debugBuild : Bool) :
    List Instruction → List Instruction
  | [] => []
  | first :: _ =>
      layout.front.code debugBuild (layout.entrance first.id)

/-- All instructions of the guarded body. -/
def code
    (layout : GuardLayout) (debugBuild : Bool)
    (instructions : List Instruction) : List Instruction :=
  layout.frontCode debugBuild instructions ++
    layout.blocks debugBuild instructions

/-- The layout with another row before one instruction. -/
def put
    (layout : GuardLayout) (id : InstrId) (row : GuardRow) :
    GuardLayout :=
  { layout with
    before := fun other =>
      if other = id then row else layout.before other }

/-- The layout with one more guard in front of all. -/
def putFront
    (layout : GuardLayout) (placed : PlacedGuard) : GuardLayout :=
  { layout with front := placed :: layout.front }

@[simp]
theorem blocks_nil (layout : GuardLayout) (debugBuild : Bool) :
    layout.blocks debugBuild [] = [] := rfl

@[simp]
theorem blocks_cons
    (layout : GuardLayout) (debugBuild : Bool)
    (instruction : Instruction) (rest : List Instruction) :
    layout.blocks debugBuild (instruction :: rest) =
      layout.block debugBuild instruction ++
        layout.blocks debugBuild rest := rfl

@[simp]
theorem blocks_append
    (layout : GuardLayout) (debugBuild : Bool)
    (earlier later : List Instruction) :
    layout.blocks debugBuild (earlier ++ later) =
      layout.blocks debugBuild earlier ++
        layout.blocks debugBuild later := by
  simp [blocks]

@[simp]
theorem before_put_self
    (layout : GuardLayout) (id : InstrId) (row : GuardRow) :
    (layout.put id row).before id = row := by
  simp [put]

theorem before_put_of_ne
    (layout : GuardLayout) {id other : InstrId} (row : GuardRow)
    (apart : other ≠ id) :
    (layout.put id row).before other = layout.before other := by
  simp [put, apart]

@[simp]
theorem front_put
    (layout : GuardLayout) (id : InstrId) (row : GuardRow) :
    (layout.put id row).front = layout.front := rfl

@[simp]
theorem put_put
    (layout : GuardLayout) (id : InstrId) (inner outer : GuardRow) :
    (layout.put id inner).put id outer = layout.put id outer := by
  simp only [put, mk.injEq, true_and]
  funext other
  split <;> rfl

theorem put_before_self (layout : GuardLayout) (id : InstrId) :
    layout.put id (layout.before id) = layout := by
  simp only [put]
  congr 1
  funext other
  by_cases same : other = id
  · rw [if_pos same, same]
  · rw [if_neg same]

theorem entrance_mem_block
    (layout : GuardLayout) (debugBuild : Bool)
    (instruction : Instruction) :
    layout.entrance instruction.id ∈
      identities (layout.block debugBuild instruction) := by
  unfold entrance block
  cases row : layout.before instruction.id with
  | nil =>
      simp
  | cons placed rest =>
      have start :=
        GuardRow.start_mem_code
          (List.mem_cons_self : placed ∈ placed :: rest)
          debugBuild instruction.id
      rw [identities_append]
      exact List.mem_append_left _ start

theorem entrance_mem_blocks
    (layout : GuardLayout) (debugBuild : Bool)
    {instructions : List Instruction} {id : InstrId}
    (member : id ∈ identities instructions) :
    layout.entrance id ∈
      identities (layout.blocks debugBuild instructions) := by
  obtain ⟨instruction, here, rfl⟩ := mem_identities.mp member
  obtain ⟨placed, placedHere, same⟩ :=
    mem_identities.mp (layout.entrance_mem_block debugBuild instruction)
  rw [← same]
  exact id_mem_identities
    (List.mem_flatMap.mpr ⟨instruction, here, placedHere⟩)

/-- The first instruction of a guarded list is the entrance of its first row. -/
theorem head?_blocks
    (layout : GuardLayout) (debugBuild : Bool)
    (first : Instruction) (rest : List Instruction) :
    ((layout.blocks debugBuild (first :: rest)).head?).map (·.id) =
      some (layout.entrance first.id) := by
  have head :=
    GuardRow.head?_code_append debugBuild
      (layout.before first.id) (first.mapTargets layout.entrance)
      (layout.blocks debugBuild rest)
  simpa [blocks_cons, block, entrance] using head

/-! ## Redirecting the place of a new guard -/

/-- A place in a row of a guarded list, with all that stands before and behind it. -/
structure Place
    (layout : GuardLayout) (instructions : List Instruction) where
  earlier : List Instruction
  point : Instruction
  later : List Instruction
  left : GuardRow
  right : GuardRow
  split : instructions = earlier ++ point :: later
  row : layout.before point.id = left ++ right

namespace Place

variable
    {layout : GuardLayout}
    {instructions : List Instruction}

/-- The identity that stands at a place. -/
def old (place : layout.Place instructions) : InstrId :=
  place.right.entrance place.point.id

/-- What stands before a place. -/
def codeBefore
    (place : layout.Place instructions) (debugBuild : Bool) :
    List Instruction :=
  layout.frontCode debugBuild instructions ++
    layout.blocks debugBuild place.earlier ++
      place.left.code debugBuild place.old

/-- What stands from a place on. -/
def codeBehind
    (place : layout.Place instructions) (debugBuild : Bool) :
    List Instruction :=
  place.right.code debugBuild place.point.id ++
    place.point.mapTargets layout.entrance ::
      layout.blocks debugBuild place.later

/-- The layout with a guard put in at a place. -/
def filled
    (place : layout.Place instructions) (placed : PlacedGuard) :
    GuardLayout :=
  layout.put place.point.id (place.left ++ placed :: place.right)

theorem mem_iff
    (place : layout.Place instructions) {instruction : Instruction} :
    instruction ∈ instructions ↔
      instruction ∈ place.earlier ∨ instruction = place.point ∨
        instruction ∈ place.later := by
  rcases place with ⟨earlier, point, later, left, right, split, row⟩
  subst split
  simp

theorem blocks_eq
    (place : layout.Place instructions)
    (other : GuardLayout) (debugBuild : Bool) :
    other.blocks debugBuild instructions =
      other.blocks debugBuild place.earlier ++
        (other.block debugBuild place.point ++
          other.blocks debugBuild place.later) := by
  rcases place with ⟨earlier, point, later, left, right, split, row⟩
  subst split
  simp

theorem code_eq
    (place : layout.Place instructions) (debugBuild : Bool) :
    layout.code debugBuild instructions =
      place.codeBefore debugBuild ++ place.codeBehind debugBuild := by
  rcases place with ⟨earlier, point, later, left, right, split, row⟩
  subst split
  simp [code, codeBefore, codeBehind, old, block, row,
    GuardRow.code_append]

theorem head?_codeBehind
    (place : layout.Place instructions) (debugBuild : Bool) :
    ((place.codeBehind debugBuild).head?).map (·.id) =
      some place.old :=
  GuardRow.head?_code_append debugBuild place.right
    (place.point.mapTargets layout.entrance) _

/-- No other instruction has the identity that stands at a place. -/
structure Clear
    (place : layout.Place instructions) (debugBuild : Bool) :
    Prop where
  before : ∀ id ∈ identities (place.codeBefore debugBuild),
    id ≠ place.old
  inner : ∀ placed ∈ place.right.tail, placed.start ≠ place.old
  point : place.right ≠ [] → place.point.id ≠ place.old
  later : ∀ id ∈ identities (layout.blocks debugBuild place.later),
    id ≠ place.old

theorem clear_of_distinct
    (place : layout.Place instructions) {debugBuild : Bool}
    (distinct :
      (identities (layout.code debugBuild instructions)).Nodup) :
    place.Clear debugBuild := by
  rw [place.code_eq, identities_append, List.nodup_append] at distinct
  obtain ⟨-, behind, apart⟩ := distinct
  have oldMember :
      place.old ∈ identities (place.codeBehind debugBuild) := by
    have head := place.head?_codeBehind debugBuild
    cases code : place.codeBehind debugBuild with
    | nil =>
        simp [code] at head
    | cons first rest =>
        simp only [code, List.head?_cons, Option.map_some,
          Option.some.injEq] at head
        simp [head]
  have beforeApart : ∀ id ∈ identities (place.codeBefore debugBuild),
      id ≠ place.old :=
    fun id member => apart id member place.old oldMember
  simp only [codeBehind, identities_append, identities_cons,
    Instruction.id_mapTargets] at behind
  cases right : place.right with
  | nil =>
      have old : place.old = place.point.id := by
        simp [Place.old, right]
      simp only [right, GuardRow.code_nil, identities_nil,
        List.nil_append, List.nodup_cons] at behind
      refine ⟨beforeApart, by simp [right], by simp [right], ?_⟩
      rintro id member rfl
      exact behind.1 (old ▸ member)
  | cons placed rest =>
      have old : place.old = placed.start := by
        simp [Place.old, right]
      have start :=
        placed.start_mem_code debugBuild
          (GuardRow.entrance rest place.point.id)
      simp only [right, GuardRow.code_cons, identities_append,
        List.append_assoc, List.nodup_append] at behind
      have others := behind.2.2 placed.start start
      refine ⟨beforeApart, ?_, ?_, ?_⟩
      · intro inner member same
        rw [right, List.tail_cons] at member
        refine others inner.start ?_ (by rw [same, old])
        exact List.mem_append_left _
          (GuardRow.start_mem_code member debugBuild _)
      · intro _ same
        exact others place.point.id (by simp) (by rw [same, old])
      · intro id member same
        exact others id (by simp [member]) (by rw [same, old])

/-- Putting a guard in at a place redirects what led to the place. -/
theorem entrance_filled
    {place : layout.Place instructions} {debugBuild : Bool}
    (clear : place.Clear debugBuild) (placed : PlacedGuard)
    {id : InstrId} (member : id ∈ identities instructions) :
    redirected place.old placed.start (layout.entrance id) =
      (place.filled placed).entrance id := by
  by_cases here : id = place.point.id
  · subst here
    simp only [entrance, filled, before_put_self, place.row,
      GuardRow.entrance_append]
    cases left : place.left with
    | nil =>
        simp [Place.old]
    | cons first rest =>
        refine redirected_of_ne _ (clear.before first.start ?_)
        simp only [codeBefore, left, identities_append]
        exact List.mem_append_right _
          (GuardRow.start_mem_code (List.mem_cons_self ..) debugBuild _)
  · have same :
        (place.filled placed).entrance id = layout.entrance id := by
      simp [entrance, filled, before_put_of_ne _ _ here]
    rw [same]
    refine redirected_of_ne _ ?_
    rw [place.split, identities_append, identities_cons] at member
    rcases List.mem_append.mp member with earlier | behind
    · refine clear.before _ ?_
      simp only [codeBefore, identities_append]
      exact List.mem_append_left _ (List.mem_append_right _
        (layout.entrance_mem_blocks debugBuild earlier))
    · rcases List.mem_cons.mp behind with point | later
      · exact absurd point here
      · exact clear.later _
          (layout.entrance_mem_blocks debugBuild later)

theorem map_redirected_point
    {place : layout.Place instructions} {debugBuild : Bool}
    (clear : place.Clear debugBuild) (placed : PlacedGuard)
    (closed : TargetsWithin instructions)
    {instruction : Instruction}
    (member : instruction ∈ instructions) :
    (instruction.mapTargets layout.entrance).mapTargets
        (redirected place.old placed.start) =
      instruction.mapTargets (place.filled placed).entrance := by
  simp only [Instruction.mapTargets,
    Operation.mapTargets_mapTargets, Instruction.mk.injEq, true_and]
  refine Operation.mapTargets_congr fun id target => ?_
  exact entrance_filled clear placed
    (closed instruction member id target)

theorem map_redirected_frontCode
    {place : layout.Place instructions} {debugBuild : Bool}
    (clear : place.Clear debugBuild) (placed : PlacedGuard) :
    (layout.frontCode debugBuild instructions).map
        (·.mapTargets (redirected place.old placed.start)) =
      (place.filled placed).frontCode debugBuild instructions := by
  cases instructions with
  | nil =>
      rfl
  | cons first rest =>
      have starts : ∀ inner ∈ layout.front.tail,
          inner.start ≠ place.old := by
        intro inner member
        refine clear.before inner.start ?_
        simp only [codeBefore, identities_append]
        refine List.mem_append_left _ (List.mem_append_left _ ?_)
        exact GuardRow.start_mem_code
          (List.mem_of_mem_tail member) debugBuild _
      have goesOn :=
        entrance_filled clear placed
          (id_mem_identities (List.mem_cons_self : first ∈ first :: rest))
      rw [frontCode, frontCode,
        GuardRow.map_redirected_code starts, goesOn]
      rfl

theorem map_redirected_blocks
    {place : layout.Place instructions} {debugBuild : Bool}
    (clear : place.Clear debugBuild) (placed : PlacedGuard)
    (closed : TargetsWithin instructions)
    (part : List Instruction)
    (partOf : ∀ instruction ∈ part, instruction ∈ instructions)
    (elsewhere : ∀ instruction ∈ part,
      instruction.id ≠ place.point.id)
    (apart : ∀ id ∈ identities (layout.blocks debugBuild part),
      id ≠ place.old) :
    (layout.blocks debugBuild part).map
        (·.mapTargets (redirected place.old placed.start)) =
      (place.filled placed).blocks debugBuild part := by
  induction part with
  | nil =>
      rfl
  | cons instruction rest inductionHypothesis =>
      simp only [blocks_cons, identities_append, List.mem_append]
        at apart
      have tail :=
        inductionHypothesis
          (fun other member => partOf other (List.mem_cons_of_mem _ member))
          (fun other member =>
            elsewhere other (List.mem_cons_of_mem _ member))
          (fun id member => apart id (.inr member))
      have starts : ∀ inner ∈ (layout.before instruction.id).tail,
          inner.start ≠ place.old := by
        intro inner member
        refine apart inner.start (.inl ?_)
        rw [block, identities_append]
        exact List.mem_append_left _
          (GuardRow.start_mem_code (List.mem_of_mem_tail member)
            debugBuild _)
      have goesOn : instruction.id ≠ place.old :=
        apart instruction.id (.inl (by simp [block]))
      have targets :=
        map_redirected_point clear placed closed
          (partOf instruction (by simp))
      rw [blocks_cons, blocks_cons, List.map_append, tail]
      simp only [block, List.map_append, List.map_cons, List.map_nil,
        GuardRow.map_redirected_code starts,
        redirected_of_ne _ goesOn, targets, filled,
        before_put_of_ne _ _ (elsewhere instruction (by simp))]

theorem map_redirected_left
    {place : layout.Place instructions} {debugBuild : Bool}
    (clear : place.Clear debugBuild) (placed : PlacedGuard) :
    (place.left.code debugBuild place.old).map
        (·.mapTargets (redirected place.old placed.start)) =
      place.left.code debugBuild placed.start := by
  rw [GuardRow.map_redirected_code, redirected_self]
  intro inner member
  refine clear.before inner.start ?_
  simp only [codeBefore, identities_append]
  exact List.mem_append_right _
    (GuardRow.start_mem_code (List.mem_of_mem_tail member) debugBuild _)

theorem map_redirected_right
    {place : layout.Place instructions} {debugBuild : Bool}
    (clear : place.Clear debugBuild) (placed : PlacedGuard) :
    (place.right.code debugBuild place.point.id).map
        (·.mapTargets (redirected place.old placed.start)) =
      place.right.code debugBuild place.point.id := by
  rw [GuardRow.map_redirected_code clear.inner]
  by_cases empty : place.right = []
  · simp [empty]
  · rw [redirected_of_ne _ (clear.point empty)]

/--
A guard put in at a place, with everything that led there led to the guard,
gives the code of the layout with the guard at that place.
-/
theorem code_filled
    {place : layout.Place instructions} {debugBuild : Bool}
    (clear : place.Clear debugBuild) (placed : PlacedGuard)
    (distinct : (identities instructions).Nodup)
    (closed : TargetsWithin instructions) :
    (place.codeBefore debugBuild).map
        (·.mapTargets (redirected place.old placed.start)) ++
      (placed.code debugBuild place.old ++
        (place.codeBehind debugBuild).map
          (·.mapTargets (redirected place.old placed.start))) =
      (place.filled placed).code debugBuild instructions := by
  have split := place.split
  rw [split, identities_append, identities_cons] at distinct
  have apart := (List.nodup_append.mp distinct).2.2
  have behind := (List.nodup_append.mp distinct).2.1
  have earlier :=
    map_redirected_blocks clear placed closed place.earlier
      (fun instruction member => place.mem_iff.mpr (.inl member))
      (fun instruction member same =>
        apart instruction.id (id_mem_identities member)
          place.point.id (by simp) same)
      (fun id member => clear.before id (by
        simp only [codeBefore, identities_append, List.mem_append]
        exact .inl (.inr member)))
  have later :=
    map_redirected_blocks clear placed closed place.later
      (fun instruction member =>
        place.mem_iff.mpr (.inr (.inr member)))
      (fun instruction member same =>
        (List.nodup_cons.mp behind).1
          (same ▸ id_mem_identities member))
      clear.later
  have point :=
    map_redirected_point clear placed closed
      (place.mem_iff.mpr (.inr (.inl rfl)))
  have row : (place.filled placed).before place.point.id =
      place.left ++ placed :: place.right := by
    simp [filled]
  rw [code, place.blocks_eq, block, row]
  simp only [codeBefore, codeBehind, List.map_append, List.map_cons,
    map_redirected_frontCode clear placed, earlier, later, point,
    map_redirected_left clear placed, map_redirected_right clear placed,
    GuardRow.code_append, GuardRow.code_cons, GuardRow.entrance_cons,
    List.append_assoc, List.cons_append, List.nil_append]
  rfl

end Place

end GuardLayout

end NullWeave
