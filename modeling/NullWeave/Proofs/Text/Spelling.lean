import NullWeave.Proofs.Text.Mention

/-!
# How names are spelled

Whatever texts were loaded, the names of types and members are spelled with the
characters that a name goes on with.  So the marks that stand between names in a
full name are in none of them.
-/

namespace NullWeave

/-! ## Spelled names -/

/-- Is a text spelled with the characters that a name goes on with? -/
def IsSpelled (text : String) : Prop := ∀ c ∈ text.toList, continuesName c = true

instance (text : String) : Decidable (IsSpelled text) :=
  List.decidableBAll (fun c => continuesName c = true) text.toList

theorem isSpelled_append {first second : String} :
    IsSpelled (first ++ second) ↔ IsSpelled first ∧ IsSpelled second := by
  unfold IsSpelled
  rw [String.toList_append, List.forall_mem_append]

theorem continuesName_of_mem_spanName {chars : List Char} {c : Char}
    (member : c ∈ (spanName chars).1) : continuesName c = true := by
  induction chars with
  | nil =>
      cases member
  | cons first rest inductionHypothesis =>
      rw [spanName] at member
      split at member
      · rename_i goesOn
        rcases List.mem_cons.mp member with rfl | later
        · exact (Bool.and_eq_true_iff.mp goesOn).1
        · exact inductionHypothesis later
      · cases member

theorem isSpelled_of_isName {text : String} (named : isName text = true) :
    IsSpelled text := by
  unfold isName at named
  split at named
  · cases named
  · rename_i first rest shown
    rw [Bool.and_eq_true, beq_iff_eq] at named
    intro c member
    rw [shown] at member
    rcases List.mem_cons.mp member with rfl | later
    · exact continuesName_of_beginsName named.1
    · refine @continuesName_of_mem_spanName rest c ?_
      rw [named.2]
      exact later

theorem IsParameterName.isSpelled {name : String} (written : IsParameterName name) :
    IsSpelled name :=
  (isSpelled_append.mp (isSpelled_of_isName written.isName)).2

/-! ## Spelled declarations -/

/-- Is a type declared under a name and in a namespace that are spelled? -/
structure TypeDecl.IsSpelled (decl : TypeDecl) : Prop where
  name : NullWeave.IsSpelled decl.name
  space : NullWeave.IsSpelled decl.space

theorem isSpelled_typeDecl (enclosing : List TypeId) {header : TypeHeader}
    (lexed : header.Lexed) : (Loading.typeDecl enclosing header).IsSpelled := by
  have named := isSpelled_of_isName lexed.name
  unfold Loading.typeDecl
  split
  rename_i space name cut
  split at cut
  · rename_i lead segment parts
    cases cut
    have whole := eq_append_of_cutAtLastDot? parts
    refine ⟨fun c member => named c ?_, fun c member => named c ?_⟩
    · rw [String.toList_ofList] at member
      simp [whole, member]
    · rw [String.toList_ofList] at member
      simp [whole, member]
  · cases cut
    exact ⟨named, (show IsSpelled "" by decide)⟩

namespace Graph

/-- Are the names of all types of a graph spelled? -/
def IsSpelled (graph : Graph) : Prop :=
  ∀ type, graph.HasType type → (graph.type type).IsSpelled

namespace IsSpelled

variable {graph : Graph}

/-- A type that the graph does not hold has an empty declaration. -/
theorem type (spelled : graph.IsSpelled) (type : TypeId) : (graph.type type).IsSpelled := by
  by_cases known : graph.HasType type
  · exact spelled type known
  · have absent : graph.type type = default := by
      rw [Graph.type, Array.getD_eq_getD_getElem?,
        Array.getElem?_eq_none (Nat.not_lt.mp known)]
      rfl
    rw [absent]
    exact ⟨by decide, by decide⟩

theorem fullNameWithin (spelled : graph.IsSpelled) (type : TypeId) (enclosing : List TypeId) :
    NullWeave.IsSpelled (graph.fullNameWithin (graph.type type) enclosing) := by
  induction enclosing generalizing type with
  | nil =>
      have decl := spelled.type type
      rw [Graph.fullNameWithin, TypeDecl.outermostName]
      split
      · exact decl.name
      · exact isSpelled_append.mpr ⟨isSpelled_append.mpr ⟨decl.space, by decide⟩, decl.name⟩
  | cons inner outer inductionHypothesis =>
      rw [Graph.fullNameWithin]
      exact isSpelled_append.mpr ⟨isSpelled_append.mpr
        ⟨inductionHypothesis inner, by decide⟩, (spelled.type type).name⟩

/-- The full name of every type is spelled. -/
theorem typeName (spelled : graph.IsSpelled) (type : TypeId) :
    NullWeave.IsSpelled (graph.typeName type) :=
  spelled.fullNameWithin type _

theorem system : Graph.system.IsSpelled := by
  have checked : ∀ index < Graph.system.types.size,
      NullWeave.IsSpelled (Graph.system.type ⟨index⟩).name ∧
        NullWeave.IsSpelled (Graph.system.type ⟨index⟩).space := by
    decide +kernel
  intro type known
  obtain ⟨name, space⟩ := checked type.index known
  exact ⟨name, space⟩

/-- Every step of loading keeps names spelled. -/
theorem step {start program reached : Program} (spelled : program.graph.IsSpelled)
    (step : Program.LoadingStep start program reached) : reached.graph.IsSpelled := by
  have grows := step.growsTo
  have old {type : TypeId} (known : program.graph.HasType type) :
      (reached.graph.type type).IsSpelled := by
    refine ⟨?_, ?_⟩
    · rw [grows.name type known]
      exact (spelled type known).name
    · rw [grows.space type known]
      exact (spelled type known).space
  cases step with
  | @addType enclosing header lexed _ _ _ =>
      intro type known
      rcases Nat.lt_succ_iff_lt_or_eq.mp
        (show type.index < program.graph.types.size + 1 by
          simpa [HasType, Graph.addType] using known) with before | new
      · exact old before
      · have self := program.graph.type_addType_self (Loading.typeDecl enclosing header)
        rw [show type = (program.graph.addType (Loading.typeDecl enclosing header)).2 from
          congrArg TypeId.mk new, self]
        exact isSpelled_typeDecl enclosing lexed
  | setDefaultBase _ _ | setBase _ _ =>
      exact fun type known => old (by simpa [HasType, Graph.setBase] using known)
  | addInterface _ _ =>
      exact fun type known => old (by simpa [HasType, Graph.addInterface] using known)
  | addField _ _ _ _ _ | addMethod _ _ _ _ _ | setBody _ _ _ _ =>
      exact fun type known => old known

end IsSpelled

end Graph

/-- Whatever texts were loaded, the names of types are spelled. -/
theorem Program.FromTexts.isSpelled {program : Program} (fromTexts : program.FromTexts) :
    program.graph.IsSpelled :=
  fromTexts.kept (fun program => program.graph.IsSpelled)
    (fun _ _ _ step spelled => spelled.step step) Graph.IsSpelled.system

end NullWeave
