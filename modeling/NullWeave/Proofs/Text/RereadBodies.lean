import NullWeave.Proofs.Text.PrintedBodies

/-!
# Bodies read from what shows them

A body that is read from a text that shows another one has the outline of that
one: its instructions are numbered by their positions, and its targets, the
boundaries of its handlers and its sequence points are at the same positions.
What a handler catches is what the full name that was printed means to the
method.
-/

namespace NullWeave

/-! ## Handlers -/

/--
Is a kind of handler found where another one was written?

A type that is caught is looked up by the full name that it has in the one graph,
from a type of the other graph.
-/
inductive HandlerKind.FoundAs (graph other : Graph) (owner : TypeId) :
    HandlerKind → HandlerKind → Prop where
  | finally : FoundAs graph other owner .finally .finally
  | catch {type found : TypeId} :
      other.typeInScope owner (graph.typeName type) = .ok found →
      FoundAs graph other owner (.catch type) (.catch found)

theorem HandlerKind.FoundAs.catches_eq {graph other : Graph} {owner : TypeId}
    {kind again : HandlerKind} (found : kind.FoundAs graph other owner again) :
    (again != .finally) = (kind != .finally) := by
  cases found <;> rfl

namespace BodyScope

variable {scope : BodyScope}

/-- A kind of handler is found where it is shown, if at all. -/
theorem foundAs_of_readHandlerKind {graph : Graph} {kind again : HandlerKind}
    {text : HandlerKindText} (shown : kind.ShownAs graph text)
    (read : scope.readHandlerKind text = .ok again) :
    kind.FoundAs graph scope.graph scope.method.owner again := by
  cases shown with
  | «finally» =>
      cases read
      exact .finally
  | «catch» means =>
      obtain ⟨found, there, rfl⟩ := map_eq_ok_iff.mp read
      exact .catch (means _ _ _ there)

theorem labelTarget_of_label {name : String} {id : InstrId}
    (found : scope.label name = .ok id) : scope.labelTarget name = .ok (some id) := by
  obtain ⟨target, there, same⟩ := bind_eq_ok_iff.mp found
  cases target with
  | none =>
      cases same
  | some target =>
      cases same
      exact there

/-- Sequence points wait for the instruction behind them. -/
theorem readItems_points (waiting : List WaitingPoint) (id : InstrId)
    (points : List SequencePoint) (items : List BodyItem) :
    scope.readItems waiting id (points.map SequencePoint.item ++ items) =
      scope.readItems
        (waiting ++ points.map fun point => ⟨0, point.document, point.span?⟩) id items := by
  induction points generalizing waiting with
  | nil =>
      rw [List.map_nil, List.map_nil, List.append_nil]
      rfl
  | cons point points inductionHypothesis =>
      rw [List.map_cons, List.cons_append, SequencePoint.item, readItems, inductionHypothesis,
        List.map_cons, List.append_assoc]
      rfl

end BodyScope

/-- The place of a sequence point is kept when it is put on another instruction. -/
theorem BodyItem.span?_placedPoint (id : InstrId) (point : SequencePoint) :
    (BodyItem.placedPoint id point.document point.span?).span? = point.span? := by
  cases hidden : point.isHidden with
  | true =>
      have shown : point.span? = none := by rw [SequencePoint.span?, if_pos hidden]
      rw [shown]
      rfl
  | false =>
      have shown : point.span? = some ⟨point.startLine, point.startColumn, point.endLine,
          point.endColumn⟩ := by
        rw [SequencePoint.span?, hidden, if_neg Bool.false_ne_true]
      have again : (BodyItem.placedPoint id point.document point.span?).isHidden = false := by
        rw [shown]
        exact hidden
      rw [SequencePoint.span?, again, if_neg Bool.false_ne_true, shown]
      rfl

theorem BodyItem.document_placedPoint (id : InstrId) (document : String)
    (span : Option Span) : (BodyItem.placedPoint id document span).document = document := by
  cases span <;> rfl

namespace BodyNames

variable {names : BodyNames}

/-! ## Labels -/

theorem labelsFrom_points (id : InstrId) (points : List SequencePoint) (items : List BodyItem) :
    BodyItem.labelsFrom id (points.map SequencePoint.item ++ items) =
      BodyItem.labelsFrom id items := by
  induction points with
  | nil =>
      rfl
  | cons point points inductionHypothesis =>
      exact inductionHypothesis

/-- A label changes nothing about the instructions behind it. -/
theorem readItems_labelItem {scope : BodyScope} (waiting : List WaitingPoint) (id : InstrId)
    (instruction : Instruction) (items : List BodyItem) :
    scope.readItems waiting id (names.labelItem instruction ++ items) =
      scope.readItems waiting id items := by
  rw [labelItem]
  split <;> rfl

/-- Items that show instructions have the labels that are expected. -/
theorem ShowsItems.labelsFrom_eq {instructions : List Instruction} {items : List BodyItem}
    (shows : names.ShowsItems instructions items) (id : InstrId) :
    BodyItem.labelsFrom id items =
      BodyItem.labelsFrom id (instructions.flatMap names.rereadItem) := by
  induction shows generalizing id with
  | nil =>
      rfl
  | @cons instruction rest mnemonic operands items lexed shows inductionHypothesis =>
      rw [labelsFrom_points, List.flatMap_cons, labelItem, rereadItem]
      split
      · simp only [List.cons_append, List.nil_append, BodyItem.labelsFrom, List.any_cons,
          BodyItem.isInstruction, Bool.true_or, inductionHypothesis]
      · simp only [List.nil_append, List.cons_append, BodyItem.labelsFrom, inductionHypothesis]

/-! ## Items -/

/-- An operation as it is read again, apart from what it mentions. -/
def RereadAs (names : BodyNames) (instruction again : Instruction) : Prop :=
  again.operation.bare = instruction.operation.bare ∧
    again.operation.targets = instruction.operation.targets.map names.rereadId

/-- A sequence point as it is read again. -/
def rereadPoint (names : BodyNames) (point : SequencePoint) : SequencePoint :=
  BodyItem.placedPoint (names.rereadId point.instruction) point.document point.span?

/-- The sequence points of an instruction are put on the one that is read at its position. -/
theorem placedPoint_of_mem_pointsOn {instruction : Instruction} {position : Nat}
    (found : names.body.indexOf? instruction.id = some position) {point : SequencePoint}
    (among : point ∈ names.pointsOn instruction) :
    BodyItem.placedPoint ⟨position⟩ point.document point.span? = names.rereadPoint point := by
  have onIt : point.instruction = instruction.id := beq_iff_eq.mp (List.mem_filter.mp among).2
  rw [rereadPoint, onIt, rereadId_of_indexOf? found]

variable (spelled : names.graph.IsSpelled) (resolved : names.body.ensureResolved = .ok ())
variable {scope : BodyScope} (labels : scope.labels = names.rereadScope.labels)

include spelled resolved labels in
/-- The instructions from a position on are read from items that show them, if at all. -/
theorem ShowsItems.reread (distinct : (identities names.body.instructions).Nodup)
    {before later : List Instruction} (split : names.body.instructions = before ++ later)
    {items : List BodyItem} (shows : names.ShowsItems later items)
    {instructions : List Instruction} {points : List SequencePoint}
    (read : scope.readItems [] ⟨before.length⟩ items = .ok (instructions, points)) :
    List.Forall₂ names.RereadAs later instructions ∧
      points = (later.flatMap names.pointsOn).map names.rereadPoint := by
  induction shows generalizing before instructions points with
  | nil =>
      cases read
      exact ⟨.nil, rfl⟩
  | @cons instruction rest mnemonic operands items lexed shows inductionHypothesis =>
      have found := MethodBody.indexOf?_of_split distinct split
      have member : instruction ∈ names.body.instructions := by
        rw [split]
        simp
      have referred : ∀ target ∈ instruction.operation.targets,
          target ∈ names.body.references := fun target among =>
        List.mem_append_left _ (List.mem_flatMap.mpr ⟨instruction, member, among⟩)
      have splitNext : names.body.instructions = (before ++ [instruction]) ++ rest := by
        rw [split, List.append_assoc]
        rfl
      rw [BodyScope.readItems_points, readItems_labelItem, BodyScope.readItems,
        List.nil_append] at read
      obtain ⟨operation, here, read⟩ := bind_eq_ok_iff.mp read
      obtain ⟨⟨others, later⟩, there, read⟩ := bind_eq_ok_iff.mp read
      cases read
      have nextId : (⟨before.length⟩ : InstrId).next = ⟨(before ++ [instruction]).length⟩ := by
        rw [List.length_append]
        rfl
      rw [nextId] at there
      obtain ⟨alike, rfl⟩ := inductionHypothesis splitNext there
      refine ⟨.cons (bare_of_readInstruction spelled resolved labels referred lexed
        (inLine_eq_ok_iff.mp here)) alike, ?_⟩
      rw [List.flatMap_cons, List.map_append, List.map_map]
      exact congrArg (· ++ _) (List.map_congr_left fun point among =>
        placedPoint_of_mem_pointsOn found among)

include resolved labels in
/-- A handler is read at the boundaries that are shown, if at all. -/
theorem ShowsHandler.reread {handler again : ExceptionHandler} {text : HandlerText}
    (shows : names.ShowsHandler handler text)
    (referred : ∀ id ∈ handler.boundaries, id ∈ names.body.references)
    (read : scope.readHandler text = .ok again) :
    again = { handler.mapBoundaries names.rereadId with kind := again.kind } ∧
      handler.kind.FoundAs names.graph scope.graph scope.method.owner again.kind := by
  have finds {id : InstrId} (bounds : id ∈ handler.boundaries) :
      scope.label (names.labelWritten id) = .ok (names.rereadId id) :=
    label_of_labels_eq resolved labels (referred id bounds)
  obtain ⟨kind, ofKind, read⟩ := bind_eq_ok_iff.mp read
  obtain ⟨tryStart, first, read⟩ := bind_eq_ok_iff.mp read
  obtain ⟨tryEnd, second, read⟩ := bind_eq_ok_iff.mp read
  obtain ⟨handlerStart, third, read⟩ := bind_eq_ok_iff.mp read
  rw [shows.tryStart, finds (by simp [ExceptionHandler.boundaries])] at first
  rw [shows.tryEnd, finds (by simp [ExceptionHandler.boundaries])] at second
  rw [shows.handlerStart, finds (by simp [ExceptionHandler.boundaries])] at third
  cases first
  cases second
  cases third
  rw [shows.handlerEnd] at read
  have foundAs := BodyScope.foundAs_of_readHandlerKind shows.kind ofKind
  rw [ExceptionHandler.mapBoundaries]
  cases finish : handler.handlerEnd with
  | none =>
      rw [finish] at read
      cases read
      exact ⟨rfl, foundAs⟩
  | some id =>
      rw [finish] at read
      obtain ⟨target, last, read⟩ := bind_eq_ok_iff.mp read
      cases read
      have found := BodyScope.labelTarget_of_label
        (@finds id (by simp [ExceptionHandler.boundaries, finish]))
      cases found.symm.trans last
      exact ⟨rfl, foundAs⟩

/-! ## Bodies -/

variable {graph : Graph} {decl : MethodDecl} {line : Nat} {text : BodyText} {again : MethodBody}

/-- An instruction of a body stands at the same position when it is read again. -/
theorem indexOf?_rereadId (read : again.AsRead)
    (length : again.instructions.length = names.body.instructions.length) {id : InstrId}
    (inside : id ∈ identities names.body.instructions) :
    again.indexOf? (names.rereadId id) = names.body.indexOf? id := by
  obtain ⟨position, found⟩ := MethodBody.exists_indexOf?_of_mem inside
  obtain ⟨below, -⟩ := List.findIdx?_eq_some_iff_getElem.mp found
  rw [rereadId_of_indexOf? found, found, MethodBody.indexOf?_eq_some_iff read.wellFormed.distinct]
  rw [← length] at below
  have there := read.getElem?_identities position below
  rw [identities, List.getElem?_map, List.getElem?_eq_getElem below] at there
  exact ⟨_, List.getElem?_eq_getElem below, Option.some.inj there⟩

section Outlines

variable {kind : HandlerKind} {owner : TypeId}
variable (places : ∀ id ∈ identities names.body.instructions,
  again.indexOf? (names.rereadId id) = names.body.indexOf? id)

include places

theorem instructionOutline_of_rereadAs {instruction instructionToo : Instruction}
    (targets : ∀ target ∈ instruction.operation.targets,
      target ∈ identities names.body.instructions)
    (alike : names.RereadAs instruction instructionToo) :
    again.instructionOutline instructionToo = names.body.instructionOutline instruction := by
  obtain ⟨bare, moved⟩ := alike
  rw [MethodBody.instructionOutline, MethodBody.instructionOutline, bare, moved, List.map_map]
  exact congrArg _ (List.map_congr_left fun target member =>
    places target (targets target member))

theorem handlerOutline_mapBoundaries {handler : ExceptionHandler}
    (inside : ∀ id ∈ handler.boundaries, id ∈ identities names.body.instructions)
    (found : handler.kind.FoundAs names.graph graph owner kind) :
    again.handlerOutline { handler.mapBoundaries names.rereadId with kind } =
      names.body.handlerOutline handler := by
  have tryStart := places _ (inside handler.tryStart (by simp [ExceptionHandler.boundaries]))
  have tryEnd := places _ (inside handler.tryEnd (by simp [ExceptionHandler.boundaries]))
  have start := places _ (inside handler.handlerStart (by simp [ExceptionHandler.boundaries]))
  have finish : (handler.handlerEnd.map names.rereadId).map again.indexOf? =
      handler.handlerEnd.map names.body.indexOf? := by
    cases ends : handler.handlerEnd with
    | none =>
        rfl
    | some id =>
        exact congrArg some (places _ (inside id (by simp [ExceptionHandler.boundaries, ends])))
  simp only [MethodBody.handlerOutline, ExceptionHandler.mapBoundaries, tryStart, tryEnd, start,
    finish, found.catches_eq]

theorem pointOutline_rereadPoint {point : SequencePoint}
    (present : point.instruction ∈ identities names.body.instructions) :
    again.pointOutline (names.rereadPoint point) = names.body.pointOutline point := by
  rw [MethodBody.pointOutline, MethodBody.pointOutline, rereadPoint,
    BodyItem.instruction_placedPoint, BodyItem.document_placedPoint, BodyItem.span?_placedPoint,
    places _ present]

end Outlines

include spelled resolved in
/-- A body that is read from a text that shows another one is laid out like that one. -/
theorem ShowsBody.outline_eq (shows : names.ShowsBody text)
    (distinct : (identities names.body.instructions).Nodup)
    (present : ∀ point ∈ names.body.debugInfo.points,
      point.instruction ∈ identities names.body.instructions)
    (ordered : InOrder names.body.instructions names.body.debugInfo.points)
    (read : readBody graph decl line text = .ok again) :
    again.outline = names.body.outline ∧
      List.Forall₂ (fun handler handlerToo =>
          handler.kind.FoundAs names.graph graph decl.owner handlerToo.kind)
        names.body.handlers again.handlers := by
  have reads := readBody_eq_ok_iff.mp read
  have asRead := asRead_of_readBody read
  have labels : (text.scope graph decl again.locals).labels = names.rereadScope.labels := by
    change BodyItem.labelsFrom .first text.items = _
    rw [← BodyItem.labelsFrom_unnumbered]
    exact shows.items.labelsFrom_eq .first
  have items := (BodyScope.readItems_unnumbered_eq_ok_iff _ rfl).mpr reads.items
  obtain ⟨alike, points⟩ :=
    @ShowsItems.reread names spelled resolved _ labels distinct [] _ rfl _ shows.items _ _ items
  have places : ∀ id ∈ identities names.body.instructions,
      again.indexOf? (names.rereadId id) = names.body.indexOf? id := fun id inside =>
    indexOf?_rereadId asRead alike.length_eq.symm inside
  have bounds : ∀ handler ∈ names.body.handlers, ∀ id ∈ handler.boundaries,
      id ∈ names.body.references := fun handler member id among =>
    List.mem_append_right _ (List.mem_flatMap.mpr ⟨handler, member, among⟩)
  have handlers : List.Forall₂ (fun handler handlerToo =>
      handlerToo = { handler.mapBoundaries names.rereadId with kind := handlerToo.kind } ∧
        handler.kind.FoundAs names.graph graph decl.owner handlerToo.kind)
        names.body.handlers again.handlers := by
    have readAll := mapM_eq_ok_iff.mp reads.handlers
    have shownAll := (List.forall₂_and_left _ _).mpr ⟨bounds, shows.handlers⟩
    refine (forall₂_comp shownAll readAll).imp ?_
    rintro handler handlerToo ⟨text, ⟨within, shown⟩, here⟩
    exact shown.reread resolved labels within here
  refine ⟨?_, handlers.imp fun _ _ both => both.2⟩
  rw [MethodBody.outline, MethodBody.outline, BodyOutline.mk.injEq]
  refine ⟨?_, ?_, ?_⟩
  · have targets := MethodBody.targetsWithin_of_ensureResolved resolved
    refine map_eq_map_of_forall₂ ((List.forall₂_and_left _ _).mpr ⟨targets, alike⟩) ?_
    exact fun instruction instructionToo both =>
      instructionOutline_of_rereadAs places both.1 both.2
  · refine map_eq_map_of_forall₂ ((List.forall₂_and_left _ _).mpr ⟨bounds, handlers⟩) ?_
    rintro handler handlerToo ⟨referred, moved, found⟩
    have inside : ∀ id ∈ handler.boundaries, id ∈ identities names.body.instructions :=
      fun id among => MethodBody.ensureResolved_eq_ok_iff.mp resolved id (referred id among)
    rw [moved]
    exact handlerOutline_mapBoundaries places inside found
  · have inOrder : names.body.instructions.flatMap names.pointsOn = names.body.debugInfo.points :=
      flatMap_points distinct present ordered
    rw [points, inOrder, List.map_map]
    exact List.map_congr_left fun point member =>
      pointOutline_rereadPoint places (present point member)

end BodyNames

end NullWeave
