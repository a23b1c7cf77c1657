import NullWeave.Proofs.Code.Depth

/-!
# The search for depths

The search keeps an invariant: whatever it has marked or has pending is
reached with that depth, every start is marked or pending, and so is every way
on from a marked instruction.  When nothing is pending, all that is reached is
marked, each instruction with the one depth that it has.

A step takes one entry off the pending ones, and what it adds are ways on from
an instruction that was not marked before.  So the entries and the ways on from
unmarked instructions together get fewer with every step, and the search never
stops before it is through.
-/

namespace NullWeave

namespace MethodBody

/-! ## Places of named instructions -/

section Places

variable
    {α : Type} {body : MethodBody}
    {name : α → InstrId} {depth : α → Nat}

/-- The positions of named instructions, each with a depth. -/
def places
    (body : MethodBody) (name : α → InstrId) (depth : α → Nat)
    (items : List α) : Except CodeError (List (Nat × Nat)) :=
  items.mapM fun item => do
    let index ← body.position (name item)
    pure (index, depth item)

theorem places_cons (item : α) (rest : List α) :
    body.places name depth (item :: rest) =
      match body.indexOf? (name item), body.places name depth rest with
      | none, _ => .error (.unknownInstruction (name item))
      | some _, .error error => .error error
      | some index, .ok found => .ok ((index, depth item) :: found) := by
  rw [places, List.mapM_cons, position]
  cases body.indexOf? (name item) with
  | none =>
      rfl
  | some index =>
      change (do
        let found ← body.places name depth rest
        pure ((index, depth item) :: found)) = _
      cases body.places name depth rest <;> rfl

theorem places_eq_ok_iff {items : List α} {found : List (Nat × Nat)} :
    body.places name depth items = .ok found ↔
      items.map (fun item =>
        (body.indexOf? (name item)).map (·, depth item)) =
          found.map some := by
  induction items generalizing found with
  | nil =>
      cases found <;> simp [places, pure, Except.pure]
  | cons item rest inductionHypothesis =>
      rw [places_cons]
      cases position : body.indexOf? (name item) with
      | none =>
          cases found <;> simp [position]
      | some index =>
          cases later : body.places name depth rest with
          | error error =>
              cases found with
              | nil =>
                  simp
              | cons entry others =>
                  have other :=
                    (not_congr inductionHypothesis).mp
                      (show body.places name depth rest ≠ .ok others by
                        simp [later])
                  simp [position, other]
          | ok places =>
              cases found with
              | nil =>
                  simp
              | cons entry others =>
                  have same :
                      body.places name depth rest = .ok others ↔ _ :=
                    inductionHypothesis
                  rw [later] at same
                  simp [position, ← same]

theorem mem_of_places
    {items : List α} {found : List (Nat × Nat)}
    (ran : body.places name depth items = .ok found)
    {entry : Nat × Nat} :
    entry ∈ found ↔
      ∃ item ∈ items,
        body.indexOf? (name item) = some entry.1 ∧
          depth item = entry.2 := by
  have same := places_eq_ok_iff.mp ran
  have member :
      entry ∈ found ↔ some entry ∈ found.map some := by simp
  rw [member, ← same, List.mem_map]
  simp [Option.map_eq_some_iff, Prod.ext_iff]

theorem resolved_of_places
    {items : List α} {found : List (Nat × Nat)}
    (ran : body.places name depth items = .ok found) :
    ∀ item ∈ items, name item ∈ identities body.instructions := by
  intro item member
  have listed :
      (body.indexOf? (name item)).map (·, depth item) ∈
        found.map some := by
    rw [← places_eq_ok_iff.mp ran]
    exact List.mem_map_of_mem (f := fun item =>
      (body.indexOf? (name item)).map (·, depth item)) member
  by_contra missing
  rw [indexOf?_eq_none_iff.mpr missing] at listed
  simp at listed

theorem length_of_places
    {items : List α} {found : List (Nat × Nat)}
    (ran : body.places name depth items = .ok found) :
    found.length = items.length := by
  have lengths := congrArg List.length (places_eq_ok_iff.mp ran)
  simpa using lengths.symm

theorem exists_places
    {items : List α}
    (resolved : ∀ item ∈ items,
      name item ∈ identities body.instructions) :
    ∃ found, body.places name depth items = .ok found := by
  induction items with
  | nil =>
      exact ⟨[], rfl⟩
  | cons item rest inductionHypothesis =>
      obtain ⟨index, position⟩ :=
        exists_indexOf?_of_mem (resolved item (by simp))
      obtain ⟨found, ran⟩ :=
        inductionHypothesis fun other member =>
          resolved other (List.mem_cons_of_mem _ member)
      exact ⟨_, by rw [places_cons, position, ran]⟩

end Places

/-! ## Ways on -/

section Successors

variable
    {body : MethodBody} {index depth : Nat} {operation : Operation}

theorem successors_eq
    (body : MethodBody) (size index : Nat) (operation : Operation)
    (depth : Nat) :
    body.successors size index operation depth =
      match body.places id (fun _ => operation.depthAtTarget depth)
        operation.targets with
      | .error error => .error error
      | .ok jumps =>
          if operation.neverFallsThrough then
            .ok jumps
          else if index + 1 < size then
            .ok (jumps ++ [(index + 1, depth)])
          else
            .error .fallsOffEnd := by
  change (do
    let jumps ← body.places id (fun _ => operation.depthAtTarget depth)
      operation.targets
    _) = _
  cases body.places id (fun _ => operation.depthAtTarget depth)
    operation.targets <;> rfl

/-- The ways on from an instruction, with the depths there. -/
structure WaysOn
    (body : MethodBody) (size index : Nat) (operation : Operation)
    (depth : Nat) (next : List (Nat × Nat)) : Prop where
  mem_iff : ∀ entry,
    entry ∈ next ↔
      (∃ target ∈ operation.targets,
        body.indexOf? target = some entry.1 ∧
          operation.depthAtTarget depth = entry.2) ∨
        operation.neverFallsThrough = false ∧
          entry = (index + 1, depth)
  resolved : ∀ target ∈ operation.targets,
    target ∈ identities body.instructions
  inside : operation.neverFallsThrough = false → index + 1 < size
  length : next.length ≤ operation.targets.length + 1

theorem waysOn_of_successors
    {size : Nat} {next : List (Nat × Nat)}
    (ran : body.successors size index operation depth = .ok next) :
    body.WaysOn size index operation depth next := by
  rw [successors_eq] at ran
  cases found : body.places id
      (fun _ => operation.depthAtTarget depth) operation.targets with
  | error error =>
      rw [found] at ran
      cases ran
  | ok jumps =>
      rw [found] at ran
      have length := length_of_places found
      dsimp only at ran
      cases stops : operation.neverFallsThrough with
      | true =>
          rw [stops, if_pos rfl] at ran
          cases ran
          exact
            { mem_iff := fun entry => by
                simpa [stops] using mem_of_places found
              resolved := resolved_of_places found
              inside := fun goesOn => by simp [stops] at goesOn
              length := by omega }
      | false =>
          rw [stops] at ran
          by_cases inside : index + 1 < size
          · rw [if_neg (by simp), if_pos inside] at ran
            cases ran
            exact
              { mem_iff := fun entry => by
                  have jump : entry ∈ jumps ↔ _ := mem_of_places found
                  simp only [id] at jump
                  simp [stops, jump]
                resolved := resolved_of_places found
                inside := fun _ => inside
                length := by simp [length] }
          · rw [if_neg (by simp), if_neg inside] at ran
            cases ran

theorem exists_successors
    {size : Nat}
    (resolved : ∀ target ∈ operation.targets,
      target ∈ identities body.instructions)
    (inside : operation.neverFallsThrough = false → index + 1 < size) :
    ∃ next,
      body.successors size index operation depth = .ok next := by
  obtain ⟨jumps, found⟩ :
      ∃ jumps, body.places id
        (fun _ => operation.depthAtTarget depth) operation.targets =
          .ok jumps :=
    exists_places resolved
  rw [successors_eq, found]
  cases stops : operation.neverFallsThrough with
  | true =>
      exact ⟨_, rfl⟩
  | false =>
      have here := inside stops
      exact ⟨jumps ++ [(index + 1, depth)], by simp [here]⟩

end Successors

/-- The starts of the handlers, with the depths there. -/
def handlerPlaces (body : MethodBody) :
    Except CodeError (List (Nat × Nat)) :=
  body.places ExceptionHandler.handlerStart
    (fun handler => handler.kind.entryDepth) body.handlers

theorem entries_eq (body : MethodBody) :
    body.entries =
      match body.handlerPlaces with
      | .error error => .error error
      | .ok handlers =>
          .ok ((if body.instructions.isEmpty then [] else [(0, 0)]) ++
            handlers) := by
  change (do
    let handlers ← body.handlerPlaces
    _) = _
  cases body.handlerPlaces <;> rfl

/-- Where the starts of a body are found, those of its handlers are. -/
theorem handlerPlaces_of_entries
    {body : MethodBody} {starts : List (Nat × Nat)}
    (ran : body.entries = .ok starts) :
    ∃ handlers,
      body.handlerPlaces = .ok handlers ∧
        starts =
          (if body.instructions.isEmpty then [] else [(0, 0)]) ++
            handlers := by
  rw [entries_eq] at ran
  cases found : body.handlerPlaces with
  | error error =>
      rw [found] at ran
      cases ran
  | ok handlers =>
      rw [found] at ran
      exact ⟨handlers, rfl, (Except.ok.inj ran).symm⟩

end MethodBody

/-! ## The invariant of the search -/

namespace DepthSearch

/-- The depth with which a position is marked. -/
def mark (search : DepthSearch) (index : Nat) : Option Nat :=
  search.depths.getD index none

/-- Is a position with a depth pending or marked? -/
def Holds (search : DepthSearch) (entry : Nat × Nat) : Prop :=
  entry ∈ search.pending ∨ search.mark entry.1 = some entry.2

/-- What the search knows about an instruction that it has marked. -/
structure Settled
    (graph : Graph) (body : MethodBody) (returnsValue : Bool)
    (search : DepthSearch) (index : Nat) (instruction : Instruction)
    (depth : Nat) : Prop where
  here : body.instructions[index]? = some instruction
  reached : body.Reached graph instruction.id depth
  shown : ∀ shown, MethodBody.Shows graph instruction depth shown →
    shown ≤ search.deepest
  returns : instruction.operation.isRet = true →
    depth = returnsValue.toNat
  pops : instruction.operation.isRet = false →
    (instruction.operation.stackEffect graph).pops ≤ depth
  waysOn : instruction.operation.isRet = false →
    ∃ next,
      body.WaysOn body.instructions.length index instruction.operation
          (instruction.operation.depthAfter graph depth) next ∧
        ∀ entry ∈ next, search.Holds entry

/-- The invariant of the search. -/
structure Explored
    (graph : Graph) (body : MethodBody) (returnsValue : Bool)
    (starts : List (Nat × Nat)) (search : DepthSearch) : Prop where
  size : search.depths.size = body.instructions.length
  pending : ∀ entry ∈ search.pending, ∃ instruction,
    body.instructions[entry.1]? = some instruction ∧
      body.Reached graph instruction.id entry.2
  marked : ∀ index depth, search.mark index = some depth →
    ∃ instruction,
      search.Settled graph body returnsValue index instruction depth
  starts : ∀ entry ∈ starts, search.Holds entry
  attained : search.deepest = 0 ∨
    ∃ instruction ∈ body.instructions, ∃ depth,
      body.Reached graph instruction.id depth ∧
        MethodBody.Shows graph instruction depth search.deepest

/-- What is settled stays so when the search holds and shows no less. -/
theorem Settled.mono
    {graph : Graph} {body : MethodBody} {returnsValue : Bool}
    {search later : DepthSearch} {index depth : Nat}
    {instruction : Instruction}
    (settled : search.Settled graph body returnsValue index instruction
      depth)
    (holds : ∀ entry, search.Holds entry → later.Holds entry)
    (deeper : search.deepest ≤ later.deepest) :
    later.Settled graph body returnsValue index instruction depth where
  here := settled.here
  reached := settled.reached
  shown := fun shown shows => Nat.le_trans (settled.shown shown shows) deeper
  returns := settled.returns
  pops := settled.pops
  waysOn := fun goesOn => by
    obtain ⟨next, ways, held⟩ := settled.waysOn goesOn
    exact ⟨next, ways, fun entry member =>
      holds entry (held entry member)⟩

section Steps

variable
    {graph : Graph} {body : MethodBody} {returnsValue : Bool}
    {starts : List (Nat × Nat)} {search : DepthSearch}

/-- A pending entry that is marked already can be dropped. -/
theorem Explored.drop
    (explored : Explored graph body returnsValue starts search)
    {entry : Nat × Nat} {rest : List (Nat × Nat)}
    (pending : search.pending = entry :: rest)
    (same : search.mark entry.1 = some entry.2) :
    Explored graph body returnsValue starts
      { search with pending := rest } := by
  have holds : ∀ other, search.Holds other →
      Holds { search with pending := rest } other := by
    rintro other (waiting | marked)
    · rw [pending] at waiting
      rcases List.mem_cons.mp waiting with rfl | later
      · exact .inr same
      · exact .inl later
    · exact .inr marked
  refine ⟨explored.size, ?_, ?_, ?_, explored.attained⟩
  · intro other member
    refine explored.pending other ?_
    rw [pending]
    exact List.mem_cons_of_mem _ member
  · intro index depth marked
    obtain ⟨instruction, settled⟩ := explored.marked index depth marked
    exact ⟨instruction, settled.mono holds (Nat.le_refl _)⟩
  · exact fun start member => holds start (explored.starts start member)

/-- The search after an instruction was looked at. -/
def looked
    (search : DepthSearch) (index depth : Nat)
    (added rest : List (Nat × Nat)) (deepest : Nat) : DepthSearch where
  depths := search.depths.setIfInBounds index (some depth)
  deepest
  pending := added ++ rest

theorem mark_looked
    (search : DepthSearch) {index : Nat} (inside : index < search.depths.size)
    (depth : Nat) (added rest : List (Nat × Nat)) (deepest other : Nat) :
    (search.looked index depth added rest deepest).mark other =
      if other = index then some depth else search.mark other := by
  unfold mark looked
  simp only [Array.getD_eq_getD_getElem?, Array.getElem?_setIfInBounds]
  by_cases same : index = other
  · subst same
    simp [inside]
  · simp [same, Ne.symm same]

theorem visit_eq
    (graph : Graph) (body : MethodBody) (returnsValue : Bool)
    (index depth : Nat) (instruction : Instruction)
    (search : DepthSearch) (rest : List (Nat × Nat)) :
    body.visit graph returnsValue body.instructions.length index
        instruction depth { search with pending := rest } =
      if instruction.operation.isRet then
        if depth = returnsValue.toNat then
          .ok (search.looked index depth [] rest
            (max search.deepest depth))
        else
          .error (.badReturnDepth instruction.id depth)
      else if depth < (instruction.operation.stackEffect graph).pops then
        .error (.stackUnderflow instruction.id depth
          (instruction.operation.stackEffect graph).pops)
      else
        match body.successors body.instructions.length index
          instruction.operation
          (instruction.operation.depthAfter graph depth) with
        | .error error => .error error
        | .ok next =>
            .ok (search.looked index depth next.reverse rest
              (max (max search.deepest depth)
                (instruction.operation.depthAfter graph depth))) := by
  unfold MethodBody.visit
  split
  · rfl
  · dsimp only
    split
    · rfl
    · change (do
        let next ← body.successors body.instructions.length index
          instruction.operation
          (instruction.operation.depthAfter graph depth)
        _) = _
      cases body.successors body.instructions.length index
        instruction.operation
        (instruction.operation.depthAfter graph depth) <;> rfl

/-- The ways on from an instruction that is reached are reached. -/
theorem reached_of_waysOn
    (distinct : (identities body.instructions).Nodup)
    {index depth : Nat} {instruction : Instruction}
    (here : body.instructions[index]? = some instruction)
    (reached : body.Reached graph instruction.id depth)
    {next : List (Nat × Nat)}
    (ways : body.WaysOn body.instructions.length index
      instruction.operation
      (instruction.operation.depthAfter graph depth) next) :
    ∀ entry ∈ next, ∃ other,
      body.instructions[entry.1]? = some other ∧
        body.Reached graph other.id entry.2 := by
  intro entry member
  rcases (ways.mem_iff entry).mp member with
    ⟨target, targeted, position, depthThere⟩ | ⟨goesOn, rfl⟩
  · obtain ⟨other, there, rfl⟩ :=
      (MethodBody.indexOf?_eq_some_iff distinct).mp position
    refine ⟨other, there, ?_⟩
    rw [← depthThere]
    exact .jump (List.mem_of_getElem? here) reached targeted
  · have inside := ways.inside goesOn
    obtain ⟨before, rfl⟩ := List.getElem?_eq_some_iff.mp here
    refine ⟨body.instructions[index + 1],
      List.getElem?_eq_getElem inside, ?_⟩
    have split :
        body.instructions =
          body.instructions.take index ++
            body.instructions[index] :: body.instructions[index + 1] ::
              body.instructions.drop (index + 2) := by
      rw [List.getElem_cons_drop inside, List.getElem_cons_drop before,
        List.take_append_drop]
    exact .next split reached goesOn

/-- What a look at an instruction has to find for the invariant to hold behind it. -/
structure Look
    (graph : Graph) (body : MethodBody) (returnsValue : Bool)
    (search : DepthSearch) (index : Nat) (instruction : Instruction)
    (depth : Nat) (added : List (Nat × Nat)) (deepest : Nat) : Prop where
  deeper : search.deepest ≤ deepest
  shown : ∀ shown, MethodBody.Shows graph instruction depth shown →
    shown ≤ deepest
  attained : deepest = search.deepest ∨
    MethodBody.Shows graph instruction depth deepest
  returns : instruction.operation.isRet = true →
    depth = returnsValue.toNat
  pops : instruction.operation.isRet = false →
    (instruction.operation.stackEffect graph).pops ≤ depth
  waysOn : instruction.operation.isRet = false →
    ∃ next,
      body.WaysOn body.instructions.length index instruction.operation
          (instruction.operation.depthAfter graph depth) next ∧
        added = next.reverse
  stops : instruction.operation.isRet = true → added = []

theorem look_of_visit
    {index depth : Nat} {rest : List (Nat × Nat)}
    {instruction : Instruction} {visited : DepthSearch}
    (ran : body.visit graph returnsValue body.instructions.length index
      instruction depth { search with pending := rest } = .ok visited) :
    ∃ added deepest,
      search.Look graph body returnsValue index instruction depth added
          deepest ∧
        visited = search.looked index depth added rest deepest := by
  rw [visit_eq] at ran
  cases returns : instruction.operation.isRet with
  | true =>
      rw [returns, if_pos rfl] at ran
      split at ran
      · rename_i same
        cases ran
        refine ⟨[], max search.deepest depth, ⟨by omega, ?_, ?_,
          fun _ => same, by simp [returns], by simp [returns],
          fun _ => rfl⟩, rfl⟩
        · rintro shown (rfl | ⟨other, -⟩)
          · omega
          · simp [returns] at other
        · rcases Nat.le_total search.deepest depth with deeper | under
          · exact .inr (.inl (by omega))
          · exact .inl (by omega)
      · cases ran
  | false =>
      rw [returns, if_neg (by simp)] at ran
      split at ran
      · cases ran
      · rename_i enough
        cases ways :
            body.successors body.instructions.length index
              instruction.operation
              (instruction.operation.depthAfter graph depth) with
        | error error =>
            rw [ways] at ran
            cases ran
        | ok next =>
            rw [ways] at ran
            cases ran
            refine ⟨next.reverse, _, ⟨?_, ?_, ?_, by simp [returns],
              fun _ => by omega,
              fun _ => ⟨next, MethodBody.waysOn_of_successors ways, rfl⟩,
              by simp [returns]⟩, rfl⟩
            · omega
            · rintro shown (rfl | ⟨-, rfl⟩) <;> omega
            · have split :
                  ∀ first second third : Nat,
                    max (max first second) third = first ∨
                      max (max first second) third = second ∨
                        max (max first second) third = third := by
                omega
              rcases split search.deepest depth
                  (instruction.operation.depthAfter graph depth) with
                old | before | after
              · exact .inl old
              · exact .inr (.inl before)
              · exact .inr (.inr ⟨returns, after⟩)

/-- Looking at a pending entry keeps the invariant. -/
theorem Explored.look
    (explored : Explored graph body returnsValue starts search)
    (distinct : (identities body.instructions).Nodup)
    {index depth : Nat} {rest : List (Nat × Nat)}
    (pending : search.pending = (index, depth) :: rest)
    (unmarked : search.mark index = none)
    {instruction : Instruction}
    (here : body.instructions[index]? = some instruction)
    {added : List (Nat × Nat)} {deepest : Nat}
    (look : search.Look graph body returnsValue index instruction depth
      added deepest) :
    Explored graph body returnsValue starts
      (search.looked index depth added rest deepest) := by
  have inside : index < search.depths.size := by
    rw [explored.size]
    exact (List.getElem?_eq_some_iff.mp here).1
  have marks := search.mark_looked inside depth added rest deepest
  obtain ⟨found, foundHere, reached⟩ :=
    explored.pending (index, depth) (by rw [pending]; simp)
  have same : found = instruction :=
    Option.some.inj (foundHere.symm.trans here)
  subst same
  have holds : ∀ entry, search.Holds entry →
      (search.looked index depth added rest deepest).Holds entry := by
    rintro entry (waiting | marked)
    · rw [pending] at waiting
      rcases List.mem_cons.mp waiting with rfl | later
      · exact .inr (by rw [marks, if_pos rfl])
      · exact .inl (List.mem_append_right _ later)
    · have other : entry.1 ≠ index := by
        intro same
        rw [same, unmarked] at marked
        cases marked
      exact .inr (by rw [marks, if_neg other, marked])
  refine ⟨?_, ?_, ?_, fun start member =>
    holds start (explored.starts start member), ?_⟩
  · exact (Array.size_setIfInBounds ..).trans explored.size
  · intro entry member
    rcases List.mem_append.mp member with new | old
    · cases returns : found.operation.isRet with
      | true =>
          rw [look.stops returns] at new
          cases new
      | false =>
          obtain ⟨next, ways, rfl⟩ := look.waysOn returns
          exact reached_of_waysOn distinct here reached ways entry
            (List.mem_reverse.mp new)
    · refine explored.pending entry ?_
      rw [pending]
      exact List.mem_cons_of_mem _ old
  · intro other otherDepth marked
    rw [marks] at marked
    split at marked
    · rename_i same
      subst same
      cases marked
      refine ⟨found, here, reached, look.shown, look.returns, look.pops,
        fun goesOn => ?_⟩
      obtain ⟨next, ways, rfl⟩ := look.waysOn goesOn
      refine ⟨next, ways, fun entry member => .inl ?_⟩
      exact List.mem_append_left _ (List.mem_reverse.mpr member)
    · obtain ⟨instruction, settled⟩ :=
        explored.marked other otherDepth marked
      exact ⟨instruction, settled.mono holds look.deeper⟩
  · rcases look.attained with old | new
    · change deepest = 0 ∨ _
      rcases explored.attained with zero | ⟨instruction, member, there⟩
      · exact .inl (old.trans zero)
      · exact .inr ⟨instruction, member, by
          change ∃ depth, _ ∧ MethodBody.Shows graph instruction depth
            deepest
          rw [old]
          exact there⟩
    · exact .inr ⟨found, List.mem_of_getElem? here, depth, reached, new⟩

/-! ## The search ends -/

/-- The ways on from instructions that are not marked, counted from a position. -/
def waysLeft (mark : Nat → Option Nat) : Nat → List Instruction → Nat
  | _, [] => 0
  | index, instruction :: rest =>
      (if (mark index).isNone then
        instruction.operation.targets.length + 1
      else
        0) + waysLeft mark (index + 1) rest

theorem waysLeft_congr
    {left right : Nat → Option Nat} {index : Nat}
    {instructions : List Instruction}
    (same : ∀ other, index ≤ other → left other = right other) :
    waysLeft left index instructions =
      waysLeft right index instructions := by
  induction instructions generalizing index with
  | nil =>
      rfl
  | cons instruction rest inductionHypothesis =>
      rw [waysLeft, waysLeft, same index (Nat.le_refl _),
        inductionHypothesis fun other above =>
          same other (Nat.le_of_succ_le above)]

theorem waysLeft_none
    {mark : Nat → Option Nat} (none : ∀ index, mark index = none)
    (index : Nat) (instructions : List Instruction) :
    waysLeft mark index instructions =
      MethodBody.waysOn instructions := by
  induction instructions generalizing index with
  | nil =>
      rfl
  | cons instruction rest inductionHypothesis =>
      simp [waysLeft, MethodBody.waysOn, none, inductionHypothesis]

/-- Marking an instruction takes its ways on away from what is left. -/
theorem waysLeft_mark
    {mark later : Nat → Option Nat} {start index depth : Nat}
    {instructions : List Instruction} {instruction : Instruction}
    (here : instructions[index]? = some instruction)
    (unmarked : mark (start + index) = none)
    (marks : ∀ other,
      later other =
        if other = start + index then some depth else mark other) :
    waysLeft mark start instructions =
      waysLeft later start instructions +
        (instruction.operation.targets.length + 1) := by
  induction instructions generalizing start index with
  | nil =>
      simp at here
  | cons first rest inductionHypothesis =>
      cases index with
      | zero =>
          have same : first = instruction := by simpa using here
          subst same
          have tail :
              waysLeft later (start + 1) rest =
                waysLeft mark (start + 1) rest :=
            waysLeft_congr fun other above => by
              rw [marks, if_neg (by omega)]
          have head : mark start = none := unmarked
          rw [waysLeft, waysLeft, tail, marks, head]
          simp only [Nat.add_zero, if_true, Option.isNone_none,
            Option.isNone_some]
          simp
          omega
      | succ index =>
          have moved : start + (index + 1) = start + 1 + index := by
            omega
          rw [moved] at unmarked marks
          have tail :=
            inductionHypothesis (by simpa using here) unmarked marks
          have head : later start = mark start := by
            rw [marks, if_neg (by omega)]
          rw [waysLeft, waysLeft, tail, head]
          omega

/-- The number of entries that the search can still take. -/
def load (search : DepthSearch) (body : MethodBody) : Nat :=
  search.pending.length + waysLeft search.mark 0 body.instructions

theorem load_looked
    (explored : Explored graph body returnsValue starts search)
    {index depth : Nat} {rest : List (Nat × Nat)}
    (pending : search.pending = (index, depth) :: rest)
    (unmarked : search.mark index = none)
    {instruction : Instruction}
    (here : body.instructions[index]? = some instruction)
    {added : List (Nat × Nat)} {deepest : Nat}
    (look : search.Look graph body returnsValue index instruction depth
      added deepest) :
    (search.looked index depth added rest deepest).load body <
      search.load body := by
  have inside : index < search.depths.size := by
    rw [explored.size]
    exact (List.getElem?_eq_some_iff.mp here).1
  have marks := search.mark_looked inside depth added rest deepest
  have left :
      waysLeft search.mark 0 body.instructions =
        waysLeft
            (search.looked index depth added rest deepest).mark 0
            body.instructions +
          (instruction.operation.targets.length + 1) :=
    waysLeft_mark here (by simpa using unmarked) (by simpa using marks)
  have few :
      added.length ≤ instruction.operation.targets.length + 1 := by
    cases returns : instruction.operation.isRet with
    | true =>
        rw [look.stops returns]
        simp
    | false =>
        obtain ⟨next, ways, rfl⟩ := look.waysOn returns
        rw [List.length_reverse]
        exact ways.length
  have lengths :
      (search.looked index depth added rest deepest).pending.length =
        added.length + rest.length := by
    simp [looked]
  rw [load, load, left, lengths, pending, List.length_cons]
  omega

theorem searchWithin_nil
    (steps : Nat) {code : Array Instruction}
    (pending : search.pending = []) :
    body.searchWithin graph returnsValue code steps search =
      .ok search := by
  cases steps with
  | zero =>
      rfl
  | succ steps =>
      rw [MethodBody.searchWithin]
      simp [pending]

theorem searchWithin_cons
    {steps index depth : Nat} {rest : List (Nat × Nat)}
    (pending : search.pending = (index, depth) :: rest)
    {instruction : Instruction}
    (here : body.instructions[index]? = some instruction) :
    body.searchWithin graph returnsValue body.instructions.toArray
        (steps + 1) search =
      match search.mark index with
      | some expected =>
          if expected = depth then
            body.searchWithin graph returnsValue
              body.instructions.toArray steps
              { search with pending := rest }
          else
            .error (.inconsistentStackDepth instruction.id expected depth)
      | none =>
          match body.visit graph returnsValue body.instructions.length
            index instruction depth { search with pending := rest } with
          | .error error => .error error
          | .ok visited =>
              body.searchWithin graph returnsValue
                body.instructions.toArray steps visited := by
  rw [MethodBody.searchWithin]
  simp only [pending, List.getElem?_toArray, here, List.size_toArray,
    DepthSearch.mark]
  cases search.depths.getD index none with
  | some expected =>
      rfl
  | none =>
      change (do
        let visited ← body.visit graph returnsValue
          body.instructions.length index instruction depth
          { search with pending := rest }
        _) = _
      cases body.visit graph returnsValue body.instructions.length
        index instruction depth { search with pending := rest } <;> rfl

/-- With enough steps the search keeps its invariant until nothing is pending. -/
theorem Explored.run
    (distinct : (identities body.instructions).Nodup)
    {steps : Nat} {final : DepthSearch}
    (explored : Explored graph body returnsValue starts search)
    (enough : search.load body ≤ steps)
    (ran : body.searchWithin graph returnsValue
      body.instructions.toArray steps search = .ok final) :
    Explored graph body returnsValue starts final ∧
      final.pending = [] := by
  induction steps generalizing search with
  | zero =>
      cases ran
      refine ⟨explored, ?_⟩
      rw [load] at enough
      exact List.length_eq_zero_iff.mp (by omega)
  | succ steps inductionHypothesis =>
      cases pending : search.pending with
      | nil =>
          rw [searchWithin_nil _ pending] at ran
          cases ran
          exact ⟨explored, pending⟩
      | cons entry rest =>
          obtain ⟨index, depth⟩ := entry
          obtain ⟨instruction, here, -⟩ :=
            explored.pending (index, depth) (by rw [pending]; simp)
          rw [searchWithin_cons pending here] at ran
          cases marked : search.mark index with
          | some expected =>
              rw [marked] at ran
              dsimp only at ran
              split at ran
              · rename_i same
                subst same
                refine inductionHypothesis
                  (explored.drop pending marked) ?_ ran
                have fewer :
                    ({ search with pending := rest } :
                      DepthSearch).load body + 1 =
                        search.load body := by
                  rw [load, load, pending, List.length_cons]
                  change rest.length + waysLeft search.mark 0 _ + 1 = _
                  omega
                omega
              · cases ran
          | none =>
              rw [marked] at ran
              dsimp only at ran
              cases visit :
                  body.visit graph returnsValue body.instructions.length
                    index instruction depth
                    { search with pending := rest } with
              | error error =>
                  rw [visit] at ran
                  cases ran
              | ok visited =>
                  rw [visit] at ran
                  obtain ⟨added, deepest, look, rfl⟩ :=
                    look_of_visit visit
                  have fewer :=
                    load_looked explored pending marked here look
                  exact inductionHypothesis
                    (explored.look distinct pending marked here look)
                    (by omega) ran

theorem exists_visit
    (disciplined : body.Disciplined graph returnsValue)
    {index depth : Nat} {instruction : Instruction}
    (here : body.instructions[index]? = some instruction)
    (reached : body.Reached graph instruction.id depth)
    (search : DepthSearch) (rest : List (Nat × Nat)) :
    ∃ visited,
      body.visit graph returnsValue body.instructions.length index
        instruction depth { search with pending := rest } =
          .ok visited := by
  have admits :=
    disciplined.admits instruction (List.mem_of_getElem? here) depth
      reached
  rw [visit_eq]
  cases returns : instruction.operation.isRet with
  | true =>
      exact ⟨_, by rw [if_pos rfl, if_pos (admits.returns returns)]⟩
  | false =>
      have enough := admits.pops returns
      have inside : instruction.operation.neverFallsThrough = false →
          index + 1 < body.instructions.length := by
        intro goesOn
        obtain ⟨before, same⟩ := List.getElem?_eq_some_iff.mp here
        by_contra last
        have lastHere : body.instructions.length = index + 1 := by
          omega
        refine admits.inside goesOn (body.instructions.take index) ?_
        have whole := List.take_append_getElem before
        rw [← lastHere, List.take_length, same] at whole
        exact whole.symm
      obtain ⟨next, ways⟩ := MethodBody.exists_successors
        admits.targets inside
      exact ⟨_, by rw [if_neg (by simp), if_neg (by omega), ways]⟩

/-- The search finds no fault in a disciplined body. -/
theorem Explored.exists_run
    (distinct : (identities body.instructions).Nodup)
    (disciplined : body.Disciplined graph returnsValue)
    (explored : Explored graph body returnsValue starts search)
    (steps : Nat) :
    ∃ final,
      body.searchWithin graph returnsValue body.instructions.toArray
        steps search = .ok final := by
  induction steps generalizing search with
  | zero =>
      exact ⟨search, rfl⟩
  | succ steps inductionHypothesis =>
      cases pending : search.pending with
      | nil =>
          exact ⟨search, searchWithin_nil _ pending⟩
      | cons entry rest =>
          obtain ⟨index, depth⟩ := entry
          obtain ⟨instruction, here, reached⟩ :=
            explored.pending (index, depth) (by rw [pending]; simp)
          rw [searchWithin_cons pending here]
          cases marked : search.mark index with
          | some expected =>
              obtain ⟨other, settled⟩ :=
                explored.marked index expected marked
              have same :=
                Option.some.inj (settled.here.symm.trans here)
              have consistent :=
                disciplined.consistent instruction.id expected depth
                  (same ▸ settled.reached) reached
              subst consistent
              obtain ⟨final, ran⟩ :=
                inductionHypothesis (explored.drop pending marked)
              exact ⟨final, by simpa using ran⟩
          | none =>
              obtain ⟨visited, visit⟩ :
                  ∃ visited,
                    body.visit graph returnsValue
                      body.instructions.length index instruction depth
                      { search with pending := rest } =
                        .ok visited :=
                exists_visit disciplined here reached search rest
              obtain ⟨added, deepest, look, rfl⟩ := look_of_visit visit
              obtain ⟨final, ran⟩ :=
                inductionHypothesis
                  (explored.look distinct pending marked here look)
              exact ⟨final, by simpa [visit] using ran⟩

/-- When nothing is pending, what the search holds is marked and settled. -/
theorem Explored.settled
    (explored : search.Explored graph body returnsValue starts)
    (done : search.pending = [])
    {index depth : Nat} {instruction : Instruction}
    (here : body.instructions[index]? = some instruction)
    (holds : search.Holds (index, depth)) :
    search.mark index = some depth ∧
      search.Settled graph body returnsValue index instruction depth := by
  rcases holds with waiting | mark
  · rw [done] at waiting
    cases waiting
  · obtain ⟨other, settled⟩ := explored.marked index depth mark
    cases settled.here.symm.trans here
    exact ⟨mark, settled⟩

end Steps

end DepthSearch

/-! ## The check of a body -/

namespace MethodBody

variable
    {graph : Graph} {body : MethodBody} {returnsValue : Bool}

/-- The search before its first step. -/
def firstSearch
    (body : MethodBody) (starts : List (Nat × Nat)) : DepthSearch where
  depths := Array.replicate body.instructions.length none
  deepest := 0
  pending := starts.reverse

theorem checkDepths_eq (graph : Graph) (body : MethodBody)
    (returnsValue : Bool) :
    body.checkDepths graph returnsValue =
      match body.entries with
      | .error error => .error error
      | .ok starts =>
          (body.searchWithin graph returnsValue
            body.instructions.toArray body.searchBound
            (body.firstSearch starts)).map (·.deepest) := by
  unfold checkDepths
  cases body.entries with
  | error error =>
      rfl
  | ok starts =>
      change (do
        let search ← body.searchWithin graph returnsValue
          body.instructions.toArray body.searchBound
          { depths := Array.replicate
              body.instructions.toArray.size none
            deepest := 0
            pending := starts.reverse }
        pure search.deepest) = _
      rw [List.size_toArray]
      change (do
        let search ← body.searchWithin graph returnsValue
          body.instructions.toArray body.searchBound
          (body.firstSearch starts)
        pure search.deepest) = _
      dsimp only
      cases body.searchWithin graph returnsValue
        body.instructions.toArray body.searchBound
        (body.firstSearch starts) <;> rfl

theorem mark_firstSearch
    (body : MethodBody) (starts : List (Nat × Nat)) (index : Nat) :
    (body.firstSearch starts).mark index = none := by
  simp only [DepthSearch.mark, firstSearch,
    Array.getD_eq_getD_getElem?, Array.getElem?_replicate]
  split <;> rfl

/-- What control can start at, if the search gets to know it. -/
theorem mem_entries
    {starts : List (Nat × Nat)} (ran : body.entries = .ok starts)
    {entry : Nat × Nat} :
    entry ∈ starts ↔
      (body.instructions ≠ [] ∧ entry = (0, 0)) ∨
        ∃ handler ∈ body.handlers,
          body.indexOf? handler.handlerStart = some entry.1 ∧
            handler.kind.entryDepth = entry.2 := by
  obtain ⟨handlers, found, rfl⟩ := handlerPlaces_of_entries ran
  have places : entry ∈ handlers ↔ _ := mem_of_places found
  rw [List.mem_append, places]
  cases body.instructions <;> simp

theorem explored_firstSearch
    (distinct : (identities body.instructions).Nodup)
    {starts : List (Nat × Nat)} (ran : body.entries = .ok starts) :
    DepthSearch.Explored graph body returnsValue starts
      (body.firstSearch starts) := by
  refine ⟨by simp [firstSearch], ?_, ?_, ?_, .inl rfl⟩
  · intro entry member
    rcases (mem_entries ran).mp (List.mem_reverse.mp member) with
      ⟨nonempty, rfl⟩ | ⟨handler, inHandlers, position, depth⟩
    · obtain ⟨first, rest, whole⟩ := List.exists_cons_of_ne_nil nonempty
      exact ⟨first, by simp [whole], .entry whole⟩
    · obtain ⟨instruction, here, same⟩ :=
        (indexOf?_eq_some_iff distinct).mp position
      refine ⟨instruction, here, ?_⟩
      rw [same, ← depth]
      exact .handler inHandlers
  · intro index depth marked
    rw [mark_firstSearch] at marked
    cases marked
  · exact fun entry member => .inl (List.mem_reverse.mpr member)

theorem load_firstSearch
    {starts : List (Nat × Nat)} (ran : body.entries = .ok starts) :
    (body.firstSearch starts).load body ≤ body.searchBound := by
  obtain ⟨handlers, found, rfl⟩ := handlerPlaces_of_entries ran
  have length := length_of_places found
  have left :=
    DepthSearch.waysLeft_none
      (body.mark_firstSearch
        ((if body.instructions.isEmpty then [] else [(0, 0)]) ++
          handlers)) 0 body.instructions
  rw [DepthSearch.load, left, searchBound]
  simp only [firstSearch, List.length_reverse, List.length_append,
    length]
  split <;> simp

/-- When nothing is pending, all that is reached is marked. -/
theorem settled_of_reached
    (distinct : (identities body.instructions).Nodup)
    {starts : List (Nat × Nat)} (ran : body.entries = .ok starts)
    {final : DepthSearch}
    (explored :
      DepthSearch.Explored graph body returnsValue starts final)
    (done : final.pending = [])
    {id : InstrId} {depth : Nat} (reached : body.Reached graph id depth) :
    ∃ index instruction,
      final.mark index = some depth ∧ instruction.id = id ∧
        final.Settled graph body returnsValue index instruction
          depth := by
  obtain ⟨handlers, found, -⟩ := handlerPlaces_of_entries ran
  induction reached with
  | entry whole =>
      rename_i first rest
      have here : body.instructions[0]? = some first := by
        simp [whole]
      have starting := explored.starts (0, 0)
        ((mem_entries ran).mpr (.inl ⟨by simp [whole], rfl⟩))
      obtain ⟨mark, settled⟩ := explored.settled done here starting
      exact ⟨0, first, mark, rfl, settled⟩
  | handler member =>
      rename_i handler
      obtain ⟨index, position⟩ :=
        exists_indexOf?_of_mem (resolved_of_places found handler member)
      obtain ⟨instruction, here, same⟩ :=
        (indexOf?_eq_some_iff distinct).mp position
      have starting := explored.starts (index, handler.kind.entryDepth)
        ((mem_entries ran).mpr (.inr ⟨handler, member, position, rfl⟩))
      obtain ⟨mark, settled⟩ := explored.settled done here starting
      exact ⟨index, instruction, mark, same, settled⟩
  | jump member before targeted inductionHypothesis =>
      rename_i instruction target depth
      obtain ⟨index, _, -, same, here⟩ := inductionHypothesis
      cases eq_of_id_eq distinct (List.mem_of_getElem? here.here) member
        same
      obtain ⟨next, ways, held⟩ :=
        here.waysOn (Operation.isRet_of_mem_targets targeted)
      obtain ⟨there, position⟩ :=
        exists_indexOf?_of_mem (ways.resolved target targeted)
      obtain ⟨other, otherHere, otherSame⟩ :=
        (indexOf?_eq_some_iff distinct).mp position
      have way :
          (there, instruction.operation.depthAtTarget
            (instruction.operation.depthAfter graph depth)) ∈ next :=
        (ways.mem_iff _).mpr (.inl ⟨target, targeted, position, rfl⟩)
      obtain ⟨mark, settled⟩ :=
        explored.settled done otherHere (held _ way)
      exact ⟨there, other, mark, otherSame, settled⟩
  | next split before goesOn inductionHypothesis =>
      rename_i front back instruction following depth
      obtain ⟨index, _, -, same, here⟩ := inductionHypothesis
      have position :
          body.instructions[front.length]? = some instruction := by
        simp [split]
      cases eq_of_id_eq distinct (List.mem_of_getElem? here.here)
        (List.mem_of_getElem? position) same
      cases position_eq_of_id_eq distinct here.here position rfl
      obtain ⟨next, ways, held⟩ :=
        here.waysOn (Operation.isRet_of_goesOn goesOn)
      have followingHere :
          body.instructions[front.length + 1]? = some following := by
        simp [split]
      have way :
          (front.length + 1,
            instruction.operation.depthAfter graph depth) ∈ next :=
        (ways.mem_iff _).mpr (.inr ⟨goesOn, rfl⟩)
      obtain ⟨mark, settled⟩ :=
        explored.settled done followingHere (held _ way)
      exact ⟨front.length + 1, following, mark, rfl, settled⟩

/-- An instruction that is reached is settled where it stands. -/
theorem settled_of_mem
    (distinct : (identities body.instructions).Nodup)
    {starts : List (Nat × Nat)} (ran : body.entries = .ok starts)
    {final : DepthSearch}
    (explored :
      DepthSearch.Explored graph body returnsValue starts final)
    (done : final.pending = [])
    {instruction : Instruction} (member : instruction ∈ body.instructions)
    {depth : Nat} (reached : body.Reached graph instruction.id depth) :
    ∃ index, final.Settled graph body returnsValue index instruction
      depth := by
  obtain ⟨index, found, -, same, settled⟩ :=
    settled_of_reached distinct ran explored done reached
  cases eq_of_id_eq distinct (List.mem_of_getElem? settled.here) member
    same
  exact ⟨index, settled⟩

theorem disciplined_of_explored
    (distinct : (identities body.instructions).Nodup)
    {starts : List (Nat × Nat)} (ran : body.entries = .ok starts)
    {final : DepthSearch}
    (explored :
      DepthSearch.Explored graph body returnsValue starts final)
    (done : final.pending = []) :
    body.Disciplined graph returnsValue := by
  refine ⟨?_, ?_, ?_⟩
  · intro handler member
    obtain ⟨handlers, found, -⟩ := handlerPlaces_of_entries ran
    exact resolved_of_places found handler member
  · intro id left right reachedLeft reachedRight
    obtain ⟨index, instruction, mark, same, settled⟩ :=
      settled_of_reached distinct ran explored done reachedLeft
    obtain ⟨otherIndex, other, otherMark, otherSame, otherSettled⟩ :=
      settled_of_reached distinct ran explored done reachedRight
    cases position_eq_of_id_eq distinct settled.here otherSettled.here
      (same.trans otherSame.symm)
    exact Option.some.inj (mark.symm.trans otherMark)
  · intro instruction member depth reached
    obtain ⟨index, settled⟩ :=
      settled_of_mem distinct ran explored done member reached
    refine ⟨settled.returns, settled.pops, ?_, ?_⟩
    · intro target targeted
      obtain ⟨next, ways, -⟩ :=
        settled.waysOn (Operation.isRet_of_mem_targets targeted)
      exact ways.resolved target targeted
    · intro goesOn front last
      obtain ⟨next, ways, -⟩ :=
        settled.waysOn (Operation.isRet_of_goesOn goesOn)
      have inside := ways.inside goesOn
      have lastHere :
          body.instructions[front.length]? = some instruction := by
        simp [last]
      cases position_eq_of_id_eq distinct settled.here lastHere rfl
      rw [last] at inside
      simp at inside

theorem deepest_of_explored
    (distinct : (identities body.instructions).Nodup)
    {starts : List (Nat × Nat)} (ran : body.entries = .ok starts)
    {final : DepthSearch}
    (explored :
      DepthSearch.Explored graph body returnsValue starts final)
    (done : final.pending = []) :
    body.IsDeepest graph final.deepest where
  bounds := by
    intro instruction member depth reached shown shows
    obtain ⟨index, settled⟩ :=
      settled_of_mem distinct ran explored done member reached
    exact settled.shown shown shows
  attained := explored.attained

/-- A body that passes the check is disciplined, and the result is its greatest depth. -/
theorem checkDepths_sound
    (distinct : (identities body.instructions).Nodup)
    {deepest : Nat}
    (checked : body.checkDepths graph returnsValue = .ok deepest) :
    body.Disciplined graph returnsValue ∧
      body.IsDeepest graph deepest := by
  rw [checkDepths_eq] at checked
  cases ran : body.entries with
  | error error =>
      rw [ran] at checked
      cases checked
  | ok starts =>
      rw [ran] at checked
      dsimp only at checked
      cases search :
          body.searchWithin graph returnsValue
            body.instructions.toArray body.searchBound
            (body.firstSearch starts) with
      | error error =>
          rw [search] at checked
          cases checked
      | ok final =>
          rw [search] at checked
          cases checked
          obtain ⟨explored, done⟩ :=
            (explored_firstSearch distinct ran).run distinct
              (load_firstSearch ran) search
          exact ⟨disciplined_of_explored distinct ran explored done,
            deepest_of_explored distinct ran explored done⟩

/-- A disciplined body passes the check. -/
theorem checkDepths_accepts
    (distinct : (identities body.instructions).Nodup)
    (disciplined : body.Disciplined graph returnsValue) :
    ∃ deepest, body.checkDepths graph returnsValue = .ok deepest := by
  obtain ⟨starts, ran⟩ : ∃ starts, body.entries = .ok starts := by
    obtain ⟨handlers, found⟩ :
        ∃ handlers, body.handlerPlaces = .ok handlers :=
      exists_places disciplined.handlers
    exact ⟨_, by rw [entries_eq, found]⟩
  obtain ⟨final, search⟩ :=
    (explored_firstSearch distinct ran).exists_run distinct disciplined
      body.searchBound
  refine ⟨final.deepest, ?_⟩
  rw [checkDepths_eq, ran]
  dsimp only
  rw [search]
  rfl

end MethodBody

end NullWeave
