import NullWeave.Proofs.Text.LabelMeaning

/-!
# Bodies and the labels in their texts

Identities are given out in one pass over the items of a body and taken in
another, so what a label stands for in the first has to be what it stands for in
the second.  It is: as many are given out as are taken, every label is looked up
as it was written, and no reference is left over that an instruction is missing
for.  A body is refused only for something in its text, and then for one of its
lines, or for that of the method where a local variable is at fault.
-/

namespace NullWeave

/-! ## Lines of bodies -/

/-- The line of an item. -/
def BodyItem.line : BodyItem → Nat
  | .label line _ => line
  | .point line _ _ => line
  | .instruction line _ _ => line

/-- The lines that the text of a body was read from, as far as a fault may be told of them. -/
def BodyText.lines (text : BodyText) : List Nat :=
  text.items.map BodyItem.line ++ text.handlers.map (·.line)

/-- Is an error one of a text, told of one of some lines? -/
structure TextError.ToldOf (lines : List Nat) (error : TextError) : Prop where
  line : error.line ∈ lines
  ofText : error.fault.isInternal = false

section ToldOf

variable {α : Type} {fits : α → Prop} {lines more : List Nat}

theorem EndsIn.toldOfMore {attempt : Except TextError α}
    (ends : EndsIn fits (TextError.ToldOf lines) attempt) (within : lines ⊆ more) :
    EndsIn fits (TextError.ToldOf more) attempt :=
  ends.mono (fun _ known => known) fun _ told => ⟨within told.line, told.ofText⟩

theorem endsIn_inLine {attempt : Except TextFault α}
    (ends : EndsIn fits (·.isInternal = false) attempt) {line : Nat} (among : line ∈ lines) :
    EndsIn fits (TextError.ToldOf lines) (inLine line attempt) := by
  cases attempt with
  | ok value =>
      exact ends
  | error fault =>
      exact ⟨among, ends⟩

end ToldOf

theorem failsByText_readLocals (graph : Graph) (owner : TypeId) (seen : List String)
    (texts : List (TypeExpr × String)) : FailsByText (readLocals graph owner seen texts) := by
  induction texts generalizing seen with
  | nil =>
      exact trivial
  | cons text rest inductionHypothesis =>
      rw [readLocals]
      split
      · exact rfl
      · refine (graph.failsByText_resolve owner text.1).bind fun type _ => ?_
        exact (inductionHypothesis _).bind fun _ _ => trivial

namespace BodyScope

open BodyItem

variable {scope : BodyScope} {items : List BodyItem}

/-- What is read from items jumps to what their labels stand for. -/
theorem endsIn_readItems (labelled : scope.labels = labelsFrom .first items)
    (waiting : List WaitingPoint) (id : InstrId) (texts : List BodyItem) :
    EndsIn
      (fun result => List.Forall₂
        (fun labels (instruction : Instruction) => instruction.operation.JumpsTo items labels)
        (texts.filterMap usedLabels?) result.1)
      (TextError.ToldOf (waiting.map (·.line) ++ texts.map line))
      (scope.readItems waiting id texts) := by
  induction texts generalizing waiting id with
  | nil =>
      cases waiting with
      | nil =>
          exact .nil
      | cons point rest =>
          exact ⟨List.mem_cons_self .., rfl⟩
  | cons text rest inductionHypothesis =>
      cases text with
      | label itsLine name =>
          refine (inductionHypothesis waiting id).toldOfMore ?_
          refine List.append_subset.mpr ⟨List.subset_append_left .., ?_⟩
          exact List.subset_append_of_subset_right _ (List.subset_cons_self ..)
      | point itsLine document span =>
          refine (inductionHypothesis (waiting ++ [⟨itsLine, document, span⟩]) id).toldOfMore ?_
          rw [List.map_append, List.append_assoc]
          exact List.Subset.refl _
      | instruction itsLine mnemonic operands =>
          rw [readItems]
          refine (endsIn_inLine (endsIn_readInstruction labelled mnemonic operands)
            (List.mem_append_right _ (List.mem_cons_self ..))).bind fun operation jumps => ?_
          refine ((inductionHypothesis [] id.next).toldOfMore ?_).bind fun result jumpToo => ?_
          · exact List.subset_append_of_subset_right _ (List.subset_cons_self ..)
          · exact .cons jumps jumpToo

theorem endsIn_readHandlers (labelled : scope.labels = labelsFrom .first items)
    (texts : List HandlerText) :
    EndsIn (List.Forall₂ (HandlerText.Bounds items) texts)
      (TextError.ToldOf (texts.map (·.line)))
      (texts.mapM fun text => inLine text.line (scope.readHandler text)) :=
  endsIn_mapM fun text member =>
    endsIn_inLine (endsIn_readHandler labelled text) (List.mem_map_of_mem member)

end BodyScope

/-! ## What bodies refer to -/

/-- The labels that only an instruction can be meant by: all but those at the ends of handlers. -/
def BodyText.instructionLabels (text : BodyText) : List String :=
  (text.items.filterMap BodyItem.usedLabels?).flatten ++
    text.handlers.flatMap fun handler =>
      [handler.tryStart, handler.tryEnd, handler.handlerStart]

/-- Do instructions and handlers refer to what the labels in a text stand for? -/
structure BodyText.RefersAs (text : BodyText) (instructions : List Instruction)
    (handlers : List ExceptionHandler) : Prop where
  /-- Each instruction jumps to what the labels stand for that are written for it. -/
  jumps : List.Forall₂
    (fun labels (instruction : Instruction) => instruction.operation.JumpsTo text.items labels)
    (text.items.filterMap BodyItem.usedLabels?) instructions
  bounds : List.Forall₂ (HandlerText.Bounds text.items) text.handlers handlers

/-- Is a body numbered and are its references resolved as its text says? -/
structure BodyText.ResolvedAs (text : BodyText) (body : MethodBody) : Prop where
  /-- There is one instruction for each that is written. -/
  count : body.instructions.length = BodyItem.countInstructions text.items
  /-- The instructions have the identities from the first one on, in their order. -/
  numbered : NumberedFrom .first body.instructions
  nextId : body.nextId = ⟨body.instructions.length⟩
  refers : text.RefersAs body.instructions body.handlers
  /-- A label that no instruction follows is nowhere but at the end of a handler. -/
  onlyAtEnds : ∀ name, BodyItem.StandsFor text.items name none → name ∉ text.instructionLabels

namespace BodyText.RefersAs

open BodyItem

variable {text : BodyText}

/-- A label that only an instruction can be meant by stands for one. -/
theorem exists_of_used {instructions : List Instruction} {handlers : List ExceptionHandler}
    (refers : text.RefersAs instructions handlers) {name : String}
    (used : name ∈ text.instructionLabels) : ∃ target, StandsFor text.items name (some target) := by
  rcases List.mem_append.mp used with operand | bound
  · obtain ⟨labels, written, among⟩ := List.mem_flatten.mp operand
    obtain ⟨instruction, -, jumps⟩ := exists_mem_left refers.jumps.flip written
    obtain ⟨target, -, standsFor⟩ := exists_mem_left jumps.flip among
    exact ⟨target, standsFor⟩
  · obtain ⟨written, member, among⟩ := List.mem_flatMap.mp bound
    obtain ⟨handler, -, bounds⟩ := exists_mem_left refers.bounds.flip member
    simp only [List.mem_cons, List.not_mem_nil, or_false] at among
    rcases among with rfl | rfl | rfl
    · exact ⟨_, bounds.tryStart⟩
    · exact ⟨_, bounds.tryEnd⟩
    · exact ⟨_, bounds.handlerStart⟩

/-- Whatever is referred to is what a label stands for. -/
theorem exists_of_reference {body : MethodBody}
    (refers : text.RefersAs body.instructions body.handlers) {id : InstrId}
    (referred : id ∈ body.references) : ∃ name, StandsFor text.items name (some id) := by
  rcases List.mem_append.mp referred with target | boundary
  · obtain ⟨instruction, member, among⟩ := List.mem_flatMap.mp target
    obtain ⟨labels, -, jumps⟩ := exists_mem_left refers.jumps member
    obtain ⟨name, -, standsFor⟩ := exists_mem_left jumps among
    exact ⟨name, standsFor⟩
  · obtain ⟨handler, member, among⟩ := List.mem_flatMap.mp boundary
    obtain ⟨written, -, bounds⟩ := exists_mem_left refers.bounds member
    simp only [ExceptionHandler.boundaries, List.mem_append, List.mem_cons, List.not_mem_nil,
      or_false, Option.mem_toList] at among
    rcases among with (rfl | rfl | rfl) | atEnd
    · exact ⟨_, bounds.tryStart⟩
    · exact ⟨_, bounds.tryEnd⟩
    · exact ⟨_, bounds.handlerStart⟩
    · cases named : written.handlerEnd with
      | none =>
          rw [bounds.noEnd named] at atEnd
          contradiction
      | some name =>
          have standsFor := bounds.handlerEnd name named
          rw [atEnd] at standsFor
          exact ⟨name, standsFor⟩

/-- A body that refers to what labels stand for has every instruction that it refers to. -/
theorem ensureResolved {body : MethodBody}
    (refers : text.RefersAs body.instructions body.handlers)
    (numbered : NumberedFrom .first body.instructions)
    (count : body.instructions.length = countInstructions text.items) :
    body.ensureResolved = .ok () := by
  refine MethodBody.ensureResolved_eq_ok_iff.mpr fun id referred => ?_
  obtain ⟨name, standsFor⟩ := refers.exists_of_reference referred
  unfold NumberedFrom at numbered
  rw [numbered, count]
  refine List.mem_map.mpr ⟨id.number, ?_, rfl⟩
  simpa [InstrId.first] using standsFor.lt

end BodyText.RefersAs

/-! ## Bodies that are read -/

theorem BodyItem.line_mem_of_repeatedLabel? {items : List BodyItem} {seen : List String}
    {line : Nat} {name : String} (repeated : repeatedLabel? seen items = some (line, name)) :
    line ∈ items.map BodyItem.line := by
  induction items generalizing seen with
  | nil =>
      contradiction
  | cons item rest inductionHypothesis =>
      cases item with
      | label itsLine itsName =>
          rw [repeatedLabel?] at repeated
          split at repeated
          · cases repeated
            exact List.mem_cons_self ..
          · exact List.mem_cons_of_mem _ (inductionHypothesis repeated)
      | point _ _ _ | instruction _ _ _ =>
          exact List.mem_cons_of_mem _ (inductionHypothesis repeated)

/--
A body is resolved as its text says, or it is refused for something in the text.

The fault is then told of a line of the text, or of the line of the method if a
local variable is at fault.
-/
theorem endsIn_readBody (graph : Graph) (method : MethodDecl) (line : Nat) (text : BodyText) :
    EndsIn text.ResolvedAs (TextError.ToldOf (line :: text.lines))
      (readBody graph method line text) := by
  have ofItems : text.items.map BodyItem.line ⊆ line :: text.lines :=
    List.subset_cons_of_subset _ (List.subset_append_left ..)
  have ofHandlers : text.handlers.map (·.line) ⊆ line :: text.lines :=
    List.subset_cons_of_subset _ (List.subset_append_right ..)
  refine (endsIn_inLine (failsByText_readLocals ..) (List.mem_cons_self ..)).bind
    fun locals _ => ?_
  cases given : Reservation.ofItems text.items with
  | error error =>
      obtain ⟨itsLine, name, repeated, rfl⟩ := Reservation.ofItems_eq_error given
      exact ⟨ofItems (BodyItem.line_mem_of_repeatedLabel? repeated), rfl⟩
  | ok reserved =>
      obtain ⟨fresh, numbers⟩ := Reservation.ofItems_eq_ok given
      change EndsIn _ _ (BodyScope.buildItems _ _ _ _ >>= _)
      rw [numbers.ids, BodyScope.buildItems_idsFrom]
      refine ((BodyScope.endsIn_readItems numbers.labels [] .first text.items).toldOfMore
        ofItems).andMade.bind fun result known => ?_
      obtain ⟨jumps, went⟩ := known
      refine ((BodyScope.endsIn_readHandlers numbers.labels text.handlers).toldOfMore
        ofHandlers).bind fun handlers bounds => ?_
      have count := BodyScope.length_of_readItems went
      have numbered := (BodyScope.readItems_spec _ went).1
      have refers : text.RefersAs result.1 handlers := ⟨jumps, bounds⟩
      dsimp only
      rw [BodyText.RefersAs.ensureResolved refers numbered count]
      exact
        { count
          numbered
          nextId := by rw [numbers.nextId, count]
          refers
          onlyAtEnds := fun name atEnd used => by
            obtain ⟨target, standsFor⟩ := refers.exists_of_used used
            cases standsFor.unique fresh atEnd }

/--
The passes over a body agree about it.

No body is refused because they do not, or because one of its references is left
over.  A body that is not refused has its instructions numbered from the first
identity on, as many as it has given out, and refers to what its labels stand
for; a label that no instruction follows is nowhere but at the end of a handler.
-/
theorem readBody_passes_agree (graph : Graph) (method : MethodDecl) (line : Nat)
    (text : BodyText) :
    (∀ error, readBody graph method line text = .error error →
      error.fault ≠ .instructionCountChanged ∧ ∀ failure, error.fault ≠ .code failure) ∧
    ∀ body, readBody graph method line text = .ok body → text.ResolvedAs body := by
  have ends := endsIn_readBody graph method line text
  refine ⟨fun error failed => ?_, fun body read => ends.of_ok read⟩
  have ofText := (ends.of_error failed).ofText
  constructor
  · intro changed
    rw [changed] at ofText
    contradiction
  · intro failure unresolved
    rw [unresolved] at ofText
    contradiction

/-- A body that goes in circles, with two labels at its start and one at its end. -/
def circlingText : BodyText where
  items :=
    [.label 2 "start",
      .label 3 "again",
      .instruction 3 "br" [.name "again"],
      .label 4 "done",
      .instruction 4 "endfinally" [],
      .label 5 "end"]
  handlers :=
    [{ line := 6
       kind := .finally
       tryStart := "start"
       tryEnd := "done"
       handlerStart := "done"
       handlerEnd := some "end" }]

theorem readBody_passes_agree_circling :
    ∃ body, readBody Graph.system default 1 circlingText = .ok body ∧
      circlingText.ResolvedAs body := by
  have read : (readBody Graph.system default 1 circlingText).isOk = true := by
    decide +kernel
  obtain ⟨body, made⟩ : ∃ body, readBody Graph.system default 1 circlingText = .ok body := by
    cases made : readBody Graph.system default 1 circlingText with
    | error error =>
        rw [made] at read
        contradiction
    | ok body =>
        exact ⟨body, rfl⟩
  exact ⟨body, made, (readBody_passes_agree Graph.system default 1 circlingText).2 body made⟩

end NullWeave
