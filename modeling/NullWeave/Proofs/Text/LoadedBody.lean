import Mathlib.Data.List.Nodup
import Mathlib.Data.List.Range
import NullWeave.Proofs.Code.Identity
import NullWeave.Proofs.Text.NumberedItems

/-!
# Bodies as they are read

The instructions of a body that was read are numbered from the first identity
on, without a gap, so the position of an instruction is the number of its
identity.  The body gave out these identities and no others, and every
reference in it has been looked up.

A sequence point that was read waits for its instruction.  So the points come
in the order of their instructions.
-/

namespace NullWeave

/-! ## Items -/

/-- Instructions are numbered without a gap from an identity on. -/
def NumberedFrom (id : InstrId) (instructions : List Instruction) : Prop :=
  identities instructions =
    (List.range' id.number instructions.length).map InstrId.mk

/-- Sequence points stand on instructions, in the order of their identities. -/
structure PlacesPoints
    (instructions : List Instruction) (points : List SequencePoint) :
    Prop where
  present : ∀ point ∈ points,
    point.instruction ∈ identities instructions
  ordered : points.Pairwise fun left right =>
    left.instruction.number ≤ right.instruction.number

theorem NumberedFrom.cons
    {id : InstrId} {instructions : List Instruction}
    (numbered : NumberedFrom id.next instructions)
    (operation : Operation) :
    NumberedFrom id (⟨id, operation⟩ :: instructions) := by
  unfold NumberedFrom at numbered ⊢
  rw [identities_cons, numbered, List.length_cons, List.range'_succ]
  rfl

theorem NumberedFrom.le_of_mem
    {id other : InstrId} {instructions : List Instruction}
    (numbered : NumberedFrom id instructions)
    (member : other ∈ identities instructions) :
    id.number ≤ other.number := by
  unfold NumberedFrom at numbered
  rw [numbered] at member
  obtain ⟨number, inside, rfl⟩ := List.mem_map.mp member
  exact (List.mem_range'_1.mp inside).1

@[simp]
theorem BodyItem.instruction_placedPoint
    (id : InstrId) (document : String) (span : Option Span) :
    (placedPoint id document span).instruction = id := by
  cases span <;> rfl

/-- Points that waited for an instruction come before all later ones. -/
theorem PlacesPoints.cons
    {id : InstrId} {instructions : List Instruction}
    {points placed : List SequencePoint}
    (places : PlacesPoints instructions points)
    (numbered : NumberedFrom id.next instructions)
    (here : ∀ point ∈ placed, point.instruction = id)
    (operation : Operation) :
    PlacesPoints (⟨id, operation⟩ :: instructions)
      (placed ++ points) where
  present := by
    intro point member
    rw [identities_cons]
    rcases List.mem_append.mp member with first | later
    · exact List.mem_cons.mpr (.inl (here point first))
    · exact List.mem_cons_of_mem _ (places.present point later)
  ordered := by
    refine List.pairwise_append.mpr ⟨?_, places.ordered, ?_⟩
    · refine List.Pairwise.imp_of_mem (R := fun _ _ => True) ?_
        (List.pairwise_of_forall fun _ _ => trivial)
      intro left right leftMember rightMember _
      rw [here left leftMember, here right rightMember]
    · intro left leftMember right rightMember
      have later :=
        numbered.le_of_mem (places.present right rightMember)
      rw [here left leftMember]
      exact Nat.le_of_succ_le later

/-- What is read from items is numbered, and its points are placed in order. -/
theorem BodyScope.readItems_spec
    (scope : BodyScope) {waiting : List WaitingPoint} {id : InstrId}
    {items : List BodyItem} {instructions : List Instruction}
    {points : List SequencePoint}
    (went : scope.readItems waiting id items =
      .ok (instructions, points)) :
    NumberedFrom id instructions ∧ PlacesPoints instructions points := by
  induction items generalizing waiting id instructions points with
  | nil =>
      cases waiting with
      | nil =>
          cases went
          exact ⟨rfl, by simp, List.Pairwise.nil⟩
      | cons point rest =>
          cases went
  | cons item rest inductionHypothesis =>
      cases item with
      | label line name =>
          exact inductionHypothesis went
      | point line document span =>
          exact inductionHypothesis went
      | instruction line mnemonic operands =>
          simp only [readItems] at went
          cases operation :
              inLine line (scope.readInstruction mnemonic operands) with
          | error failure =>
              rw [operation] at went
              cases went
          | ok operation' =>
              rw [operation] at went
              cases others : scope.readItems [] id.next rest with
              | error failure =>
                  simp only [bind, Except.bind, others] at went
                  cases went
              | ok pair =>
                  simp only [bind, Except.bind, others] at went
                  cases went
                  obtain ⟨numbered, places⟩ := inductionHypothesis others
                  refine ⟨numbered.cons operation', ?_⟩
                  refine places.cons numbered ?_ operation'
                  intro point member
                  obtain ⟨waited, -, rfl⟩ := List.mem_map.mp member
                  simp

/-! ## Bodies -/

theorem inLine_eq_ok_iff {α : Type} {line : Nat} {result : Except TextFault α} {value : α} :
    inLine line result = .ok value ↔ result = .ok value := by
  cases result <;> simp [inLine]

/-- What the operands of a body can refer to once its local variables are read. -/
def BodyText.scope (text : BodyText) (graph : Graph) (method : MethodDecl)
    (locals : List LocalVariable) : BodyScope where
  graph
  method
  locals := locals.map (·.name)
  labels := BodyItem.labelsFrom .first text.items

/-- Is a body what a text says, part by part? -/
structure BodyText.ReadsAs (text : BodyText) (graph : Graph) (method : MethodDecl)
    (body : MethodBody) : Prop where
  locals : readLocals graph method.owner [] text.locals = .ok body.locals
  labels : BodyItem.repeatedLabel? [] text.items = none
  items : (text.scope graph method body.locals).readItems [] .first text.items =
    .ok (body.instructions, body.debugInfo.points)
  handlers : text.handlers.mapM (text.scope graph method body.locals).readHandler =
    .ok body.handlers
  initLocals : body.initLocals = text.initLocals
  scope : body.debugInfo.scope =
    wholeScope? body.instructions body.debugInfo.points body.locals.length
  nextId : body.nextId = ⟨body.instructions.length⟩
  resolved : body.ensureResolved = .ok ()

theorem readBody_eq_ok_iff {graph : Graph} {method : MethodDecl} {line : Nat}
    {text : BodyText} {body : MethodBody} :
    readBody graph method line text = .ok body ↔ text.ReadsAs graph method body := by
  have handlers (scope : BodyScope) (results : List ExceptionHandler) :
      (text.handlers.mapM fun handler => inLine handler.line (scope.readHandler handler)) =
          .ok results ↔
        text.handlers.mapM scope.readHandler = .ok results := by
    simp only [mapM_eq_ok_iff, inLine_eq_ok_iff]
  rw [readBody, bind_eq_ok_iff]
  simp only [inLine_eq_ok_iff]
  constructor
  · rintro ⟨locals, readLocals, later⟩
    obtain ⟨reserved, given, later⟩ := bind_eq_ok_iff.mp later
    obtain ⟨labels, numbers⟩ := Reservation.ofItems_eq_ok given
    rw [numbers.ids, BodyScope.buildItems_idsFrom, numbers.labels, numbers.nextId] at later
    obtain ⟨⟨instructions, points⟩, readItems, later⟩ := bind_eq_ok_iff.mp later
    obtain ⟨all, readHandlers, later⟩ := bind_eq_ok_iff.mp later
    rw [← BodyScope.length_of_readItems readItems] at later
    dsimp only at later
    split at later
    · cases later
    · rename_i resolved
      cases later
      exact ⟨readLocals, labels, readItems, (handlers _ _).mp readHandlers, rfl, rfl, rfl,
        resolved⟩
  · rintro ⟨readLocals, labels, readItems, readHandlers, initLocals, scope, nextId, resolved⟩
    obtain ⟨reserved, given, numbers⟩ := Reservation.ofItems_of_fresh labels
    refine ⟨body.locals, readLocals, bind_eq_ok_iff.mpr ⟨reserved, given, ?_⟩⟩
    rw [numbers.ids, BodyScope.buildItems_idsFrom, numbers.labels, numbers.nextId]
    refine bind_eq_ok_iff.mpr ⟨_, readItems, bind_eq_ok_iff.mpr ⟨_, (handlers _ _).mpr readHandlers, ?_⟩⟩
    rw [← BodyScope.length_of_readItems readItems]
    cases body with
    | mk instructions locals handlers init debugInfo next =>
        cases debugInfo with
        | mk points whole =>
            dsimp only at initLocals scope nextId resolved ⊢
            subst initLocals scope nextId
            rw [resolved]
            rfl

/-- What is known of a body that was read. -/
structure MethodBody.AsRead (body : MethodBody) : Prop where
  numbered : NumberedFrom .first body.instructions
  nextId : body.nextId = ⟨body.instructions.length⟩
  resolved : body.ensureResolved = .ok ()
  points : PlacesPoints body.instructions body.debugInfo.points
  scope :
    body.debugInfo.scope =
      wholeScope? body.instructions body.debugInfo.points
        body.locals.length

theorem asRead_of_readBody
    {graph : Graph} {decl : MethodDecl} {line : Nat} {text : BodyText}
    {body : MethodBody}
    (went : readBody graph decl line text = .ok body) :
    body.AsRead := by
  have reads := readBody_eq_ok_iff.mp went
  obtain ⟨numbered, places⟩ := BodyScope.readItems_spec _ reads.items
  exact ⟨numbered, reads.nextId, reads.resolved, places, reads.scope⟩

namespace MethodBody.AsRead

variable {body : MethodBody}

/-- The identity at a position is the one with the number of the position. -/
theorem getElem?_identities
    (read : body.AsRead) (index : Nat)
    (inside : index < body.instructions.length) :
    (identities body.instructions)[index]? = some ⟨index⟩ := by
  have numbered := read.numbered
  unfold NumberedFrom at numbered
  rw [numbered]
  simp [inside, InstrId.first]

theorem wellFormed (read : body.AsRead) : body.WellFormed where
  distinct := by
    have numbered := read.numbered
    unfold NumberedFrom at numbered
    rw [numbered]
    refine List.Nodup.map ?_ List.nodup_range'
    intro left right same
    exact InstrId.mk.inj same
  issued := by
    intro instruction member
    have numbered := read.numbered
    unfold NumberedFrom at numbered
    have inside := id_mem_identities member
    rw [numbered] at inside
    obtain ⟨number, range, same⟩ := List.mem_map.mp inside
    have below := (List.mem_range'_1.mp range).2
    rw [← same, read.nextId]
    simpa [InstrId.first] using below
  resolved := read.resolved

end MethodBody.AsRead

end NullWeave
