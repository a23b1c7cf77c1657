import NullWeave.Proofs.Code.DepthAssignment
import NullWeave.Proofs.Code.DepthSearch

/-!
# The order of the search for depths

The search takes what it found last.  Nothing depends on that: a search that
takes whichever pending entry it likes keeps the same invariant, has as few
steps left, and fails only where the body is not disciplined.  So all orders
agree on whether a body is accepted and on its greatest depth.
-/

namespace NullWeave

namespace DepthSearch

/-- What the search makes of an entry, the other pending ones being in the search. -/
def take
    (graph : Graph) (body : MethodBody) (returnsValue : Bool)
    (entry : Nat × Nat) (rest : DepthSearch) :
    Except CodeError DepthSearch :=
  match body.instructions[entry.1]?, rest.mark entry.1 with
  | none, _ => .ok rest
  | some instruction, some expected =>
      if expected = entry.2 then .ok rest
      else .error (.inconsistentStackDepth instruction.id expected entry.2)
  | some instruction, none =>
      body.visit graph returnsValue body.instructions.length entry.1
        instruction entry.2 rest

/--
What taking some pending entry leads to.

The entry may stand anywhere, and the others may be put into another order.
-/
def Turns
    (graph : Graph) (body : MethodBody) (returnsValue : Bool)
    (search : DepthSearch) (outcome : Except CodeError DepthSearch) : Prop :=
  ∃ entry rest, search.pending.Perm (entry :: rest) ∧
    take graph body returnsValue entry { search with pending := rest } =
      outcome

/-- What a search may end at if the order is left open. -/
inductive Ends
    (graph : Graph) (body : MethodBody) (returnsValue : Bool) :
    DepthSearch → Except CodeError Nat → Prop where
  | done {search : DepthSearch} (nothing : search.pending = []) :
      Ends graph body returnsValue search (.ok search.deepest)
  | fault {search : DepthSearch} {error : CodeError}
      (turns : search.Turns graph body returnsValue (.error error)) :
      Ends graph body returnsValue search (.error error)
  | step {search later : DepthSearch} {outcome : Except CodeError Nat}
      (turns : search.Turns graph body returnsValue (.ok later))
      (ends : Ends graph body returnsValue later outcome) :
      Ends graph body returnsValue search outcome

section Orders

variable
    {graph : Graph} {body : MethodBody} {returnsValue : Bool}
    {starts : List (Nat × Nat)} {search : DepthSearch}

/-- The invariant does not see the order of the pending entries. -/
theorem Explored.reorder
    (explored : Explored graph body returnsValue starts search)
    {pending : List (Nat × Nat)} (same : search.pending.Perm pending) :
    Explored graph body returnsValue starts
      { search with pending } := by
  have holds : ∀ entry, search.Holds entry →
      Holds { search with pending } entry := by
    rintro entry (waiting | marked)
    · exact .inl (same.mem_iff.mp waiting)
    · exact .inr marked
  refine ⟨explored.size, ?_, ?_, ?_, explored.attained⟩
  · intro entry member
    exact explored.pending entry (same.mem_iff.mpr member)
  · intro index depth marked
    obtain ⟨instruction, settled⟩ := explored.marked index depth marked
    exact ⟨instruction, settled.mono holds (Nat.le_refl _)⟩
  · exact fun start member => holds start (explored.starts start member)

theorem load_reorder
    {pending : List (Nat × Nat)} (same : search.pending.Perm pending) :
    ({ search with pending } : DepthSearch).load body = search.load body := by
  rw [load, load, same.length_eq]
  rfl

/-- How an entry is taken depends on whether its position is marked. -/
theorem take_eq
    {index depth : Nat} {rest : List (Nat × Nat)}
    {instruction : Instruction}
    (here : body.instructions[index]? = some instruction) :
    take graph body returnsValue (index, depth)
        { search with pending := rest } =
      match search.mark index with
      | some expected =>
          if expected = depth then
            .ok { search with pending := rest }
          else
            .error (.inconsistentStackDepth instruction.id expected depth)
      | none =>
          body.visit graph returnsValue body.instructions.length index
            instruction depth { search with pending := rest } := by
  have marks :
      ({ search with pending := rest } : DepthSearch).mark index =
        search.mark index := rfl
  rw [take, here, marks]
  cases search.mark index <;> rfl

/-- The search in its own order takes the first pending entry. -/
theorem searchWithin_take
    {steps : Nat} {entry : Nat × Nat} {rest : List (Nat × Nat)}
    (pending : search.pending = entry :: rest)
    {instruction : Instruction}
    (here : body.instructions[entry.1]? = some instruction) :
    body.searchWithin graph returnsValue body.instructions.toArray
        (steps + 1) search =
      match take graph body returnsValue entry
          { search with pending := rest } with
      | .error error => .error error
      | .ok later =>
          body.searchWithin graph returnsValue body.instructions.toArray
            steps later := by
  obtain ⟨index, depth⟩ := entry
  rw [searchWithin_cons pending here, take_eq here]
  cases search.mark index with
  | some expected =>
      dsimp only
      split <;> rfl
  | none =>
      rfl

/-- Taking a pending entry keeps the invariant, and fewer entries are left. -/
theorem Explored.turn
    (explored : Explored graph body returnsValue starts search)
    (distinct : (identities body.instructions).Nodup)
    {later : DepthSearch}
    (turns : search.Turns graph body returnsValue (.ok later)) :
    Explored graph body returnsValue starts later ∧
      later.load body < search.load body := by
  obtain ⟨⟨index, depth⟩, rest, same, taken⟩ := turns
  have reordered := explored.reorder same
  obtain ⟨instruction, here, -⟩ :=
    reordered.pending (index, depth) (List.mem_cons_self ..)
  rw [take_eq here] at taken
  rw [← load_reorder same]
  cases marked : search.mark index with
  | some expected =>
      rw [marked] at taken
      dsimp only at taken
      split at taken
      · rename_i agree
        cases taken
        cases agree
        refine ⟨reordered.drop rfl marked, ?_⟩
        show rest.length + _ < rest.length + 1 + _
        exact Nat.add_lt_add_right (Nat.lt_succ_self _) _
      · cases taken
  | none =>
      rw [marked] at taken
      obtain ⟨added, deepest, look, rfl⟩ :=
        @look_of_visit graph body returnsValue
          { search with pending := (index, depth) :: rest } _ _ _ _ _ taken
      exact ⟨reordered.look distinct rfl marked here look,
        load_looked reordered rfl marked here look⟩

/-- In a disciplined body no entry fails, whichever is taken. -/
theorem Explored.not_fault
    (explored : Explored graph body returnsValue starts search)
    (disciplined : body.Disciplined graph returnsValue)
    {error : CodeError}
    (turns : search.Turns graph body returnsValue (.error error)) :
    False := by
  obtain ⟨⟨index, depth⟩, rest, same, failed⟩ := turns
  obtain ⟨instruction, here, reached⟩ :=
    explored.pending (index, depth)
      (same.mem_iff.mpr (List.mem_cons_self ..))
  rw [take_eq here] at failed
  cases marked : search.mark index with
  | some expected =>
      obtain ⟨other, settled⟩ := explored.marked index expected marked
      cases settled.here.symm.trans here
      have agree :=
        disciplined.consistent instruction.id expected depth
          settled.reached reached
      simp [marked, agree] at failed
  | none =>
      obtain ⟨visited, visit⟩ :=
        exists_visit disciplined here reached search rest
      simp [marked, visit] at failed

/-- A search cannot go on for ever, whichever entries it takes. -/
theorem Explored.acc
    (distinct : (identities body.instructions).Nodup)
    (explored : Explored graph body returnsValue starts search) :
    Acc (fun later earlier =>
      earlier.Turns graph body returnsValue (.ok later)) search := by
  induction size : search.load body using Nat.strong_induction_on
    generalizing search with
  | _ size inductionHypothesis =>
      subst size
      refine Acc.intro search fun later turns => ?_
      obtain ⟨kept, fewer⟩ := explored.turn distinct turns
      exact inductionHypothesis _ fewer kept rfl

/-- The search in its own order, with enough steps, is one of those searches. -/
theorem Explored.ends_searchWithin
    (distinct : (identities body.instructions).Nodup)
    {steps : Nat}
    (explored : Explored graph body returnsValue starts search)
    (enough : search.load body ≤ steps) :
    Ends graph body returnsValue search
      ((body.searchWithin graph returnsValue body.instructions.toArray
        steps search).map (·.deepest)) := by
  induction steps generalizing search with
  | zero =>
      refine .done (List.length_eq_zero_iff.mp ?_)
      rw [load] at enough
      omega
  | succ steps inductionHypothesis =>
      cases pending : search.pending with
      | nil =>
          rw [searchWithin_nil _ pending]
          exact .done pending
      | cons entry rest =>
          obtain ⟨instruction, here, -⟩ :=
            explored.pending entry (by simp [pending])
          rw [searchWithin_take pending here]
          cases taken : take graph body returnsValue entry
              { search with pending := rest } with
          | error error =>
              exact .fault ⟨entry, rest, .of_eq pending, taken⟩
          | ok later =>
              have turns : search.Turns graph body returnsValue (.ok later) :=
                ⟨entry, rest, .of_eq pending, taken⟩
              obtain ⟨kept, fewer⟩ := explored.turn distinct turns
              exact .step turns (inductionHypothesis kept (by omega))

end Orders

end DepthSearch

namespace MethodBody

variable
    {graph : Graph} {body : MethodBody} {returnsValue : Bool}

/-- A search that ends without a fault, in whatever order, decides as the invariant says. -/
theorem disciplined_of_ends
    (distinct : (identities body.instructions).Nodup)
    {starts : List (Nat × Nat)} (ran : body.entries = .ok starts)
    {search : DepthSearch} {outcome : Except CodeError Nat}
    (ends : search.Ends graph body returnsValue outcome)
    (explored : search.Explored graph body returnsValue starts)
    {deepest : Nat} (accepted : outcome = .ok deepest) :
    body.Disciplined graph returnsValue ∧
      body.IsDeepest graph deepest := by
  induction ends with
  | done nothing =>
      cases accepted
      exact ⟨disciplined_of_explored distinct ran explored nothing,
        deepest_of_explored distinct ran explored nothing⟩
  | fault turns =>
      cases accepted
  | step turns _ inductionHypothesis =>
      exact inductionHypothesis (explored.turn distinct turns).1 accepted

theorem exists_ok_of_ends
    (distinct : (identities body.instructions).Nodup)
    (disciplined : body.Disciplined graph returnsValue)
    {starts : List (Nat × Nat)}
    {search : DepthSearch} {outcome : Except CodeError Nat}
    (ends : search.Ends graph body returnsValue outcome)
    (explored : search.Explored graph body returnsValue starts) :
    ∃ deepest, outcome = .ok deepest := by
  induction ends with
  | done nothing =>
      exact ⟨_, rfl⟩
  | fault turns =>
      exact (explored.not_fault disciplined turns).elim
  | step turns _ inductionHypothesis =>
      exact inductionHypothesis (explored.turn distinct turns).1

theorem checkDepths_eq_ok_iff
    (distinct : (identities body.instructions).Nodup) {deepest : Nat} :
    body.checkDepths graph returnsValue = .ok deepest ↔
      body.Disciplined graph returnsValue ∧
        body.IsDeepest graph deepest := by
  constructor
  · exact checkDepths_sound distinct
  · rintro ⟨disciplined, isDeepest⟩
    obtain ⟨found, checked⟩ := checkDepths_accepts distinct disciplined
    have foundDeepest := (checkDepths_sound distinct checked).2
    rw [checked, foundDeepest.unique isDeepest]

theorem ends_eq_ok_iff
    (distinct : (identities body.instructions).Nodup)
    {starts : List (Nat × Nat)} (ran : body.entries = .ok starts)
    {outcome : Except CodeError Nat}
    (ends : (body.firstSearch starts).Ends graph body returnsValue outcome)
    {deepest : Nat} :
    outcome = .ok deepest ↔
      body.Disciplined graph returnsValue ∧
        body.IsDeepest graph deepest := by
  have explored :
      (body.firstSearch starts).Explored graph body returnsValue starts :=
    explored_firstSearch distinct ran
  constructor
  · exact disciplined_of_ends distinct ran ends explored
  · rintro ⟨disciplined, isDeepest⟩
    obtain ⟨found, rfl⟩ :=
      exists_ok_of_ends distinct disciplined ends explored
    have foundDeepest :=
      (disciplined_of_ends distinct ran ends explored rfl).2
    rw [foundDeepest.unique isDeepest]

/-- The check accepts exactly the bodies that have consistent depths. -/
theorem checkDepths_eq_ok_iff_assigns
    (distinct : (identities body.instructions).Nodup) {greatest : Nat} :
    body.checkDepths graph returnsValue = .ok greatest ↔
      body.StaysInside ∧
        ∃ depth, body.Assigns graph returnsValue depth ∧
          body.IsGreatestDepth graph depth greatest := by
  rw [checkDepths_eq_ok_iff distinct]
  constructor
  · rintro ⟨disciplined, isDeepest⟩
    obtain ⟨depth, assigns⟩ := disciplined.exists_assigns
    exact ⟨disciplined.staysInside, depth, assigns,
      assigns.isGreatestDepth_iff.mpr isDeepest⟩
  · rintro ⟨inside, depth, assigns, isGreatest⟩
    exact ⟨assigns.disciplined inside,
      assigns.isGreatestDepth_iff.mp isGreatest⟩

/--
The check of depths decides whether a body has consistent depths, and gives the
greatest of them; searches in other orders end as well and decide alike.
-/
theorem checkDepths_decides
    (graph : Graph) (body : MethodBody) (returnsValue : Bool)
    (distinct : (identities body.instructions).Nodup) :
    (∀ greatest,
      body.checkDepths graph returnsValue = .ok greatest ↔
        body.StaysInside ∧
          ∃ depth, body.Assigns graph returnsValue depth ∧
            body.IsGreatestDepth graph depth greatest) ∧
      ∀ starts, body.entries = .ok starts →
        Acc (fun later earlier =>
            DepthSearch.Turns graph body returnsValue earlier (.ok later))
          (body.firstSearch starts) ∧
        (body.firstSearch starts).Ends graph body returnsValue
          (body.checkDepths graph returnsValue) ∧
        ∀ outcome,
          (body.firstSearch starts).Ends graph body returnsValue outcome →
            ∀ greatest, outcome = .ok greatest ↔
              body.checkDepths graph returnsValue = .ok greatest := by
  refine ⟨fun greatest => checkDepths_eq_ok_iff_assigns distinct,
    fun starts ran => ⟨?_, ?_, ?_⟩⟩
  · exact (explored_firstSearch distinct ran).acc distinct
  · rw [checkDepths_eq, ran]
    exact (explored_firstSearch distinct ran).ends_searchWithin distinct
      (load_firstSearch ran)
  · intro outcome ends greatest
    rw [ends_eq_ok_iff distinct ran ends, checkDepths_eq_ok_iff distinct]

/-- A loop that a handler joins: both come to the third instruction with an empty stack. -/
def joinedLoop : MethodBody where
  instructions :=
    [⟨⟨0⟩, .ldArg 0⟩,
      ⟨⟨1⟩, .branch .ifTrue .long ⟨0⟩⟩,
      ⟨⟨2⟩, .ret⟩,
      ⟨⟨3⟩, .pop⟩,
      ⟨⟨4⟩, .branch .leave .long ⟨2⟩⟩]
  handlers := [⟨.catch ⟨0⟩, ⟨0⟩, ⟨2⟩, ⟨3⟩, none⟩]
  nextId := ⟨5⟩

theorem checkDepths_joinedLoop :
    joinedLoop.checkDepths {} false = .ok 1 ∧
      joinedLoop.StaysInside ∧
      ∃ depth, joinedLoop.Assigns {} false depth ∧
        joinedLoop.IsGreatestDepth {} depth 1 := by
  have checked : joinedLoop.checkDepths {} false = .ok 1 := by rfl
  obtain ⟨decides, -⟩ :=
    checkDepths_decides {} joinedLoop false (by decide)
  exact ⟨checked, (decides 1).mp checked⟩

end MethodBody

end NullWeave
