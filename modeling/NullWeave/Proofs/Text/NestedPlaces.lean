import NullWeave.Proofs.Text.PrintedText
import NullWeave.Proofs.Text.ReorderedPlaces

/-!
# Types in the order of their text

A graph tells of a type only which type is around it.  In a loaded text this is
enough to tell the order of the text: the types directly in a type come in their
order, and each of them before those nested in it, so that going down from the
outermost types visits the types of the text as they were placed.
-/

namespace NullWeave

namespace TypeText

/-! ## Types directly in another one -/

/-- The types that are declared by several texts in a row, without those nested in them. -/
def roots (next : Nat) : List TypeText → List TypeId
  | [] => []
  | text :: rest => ⟨next⟩ :: roots (next + text.withNested.length) rest

/-- Is the innermost type around a place around the whole text, or one of some of its types? -/
def HeadWithin (next count : Nat) (enclosing : List TypeId) (place : TypePlace) : Prop :=
  place.enclosing.head? = enclosing.head? ∨
    ∃ outer ∈ place.enclosing.head?, next ≤ outer.index ∧ outer.index < next + count

theorem HeadWithin.widen {next count least most : Nat} {enclosing : List TypeId}
    {place : TypePlace} (within : HeadWithin next count enclosing place)
    (begins : least ≤ next) (ends : next + count ≤ least + most) :
    HeadWithin least most enclosing place :=
  within.imp_right fun ⟨outer, around, begin, finish⟩ =>
    ⟨outer, around, Nat.le_trans begins begin, Nat.lt_of_lt_of_le finish ends⟩

mutual

theorem headWithin_places (next : Nat) (enclosing : List TypeId) :
    ∀ text : TypeText, ∀ place ∈ text.places next enclosing,
      HeadWithin next text.withNested.length enclosing place
  | .mk header fields methods nested => by
      rw [places, withNested, List.length_cons]
      refine List.forall_mem_cons.mpr ⟨.inl rfl, fun place member => .inr ?_⟩
      rcases headWithin_allPlaces (next + 1) (⟨next⟩ :: enclosing) nested place member with
        here | ⟨outer, around, begins, ends⟩
      · exact ⟨⟨next⟩, here, Nat.le_refl _, Nat.lt_add_of_pos_right (Nat.succ_pos _)⟩
      · exact ⟨outer, around, Nat.le_of_succ_le begins, by omega⟩

theorem headWithin_allPlaces (next : Nat) (enclosing : List TypeId) :
    ∀ texts : List TypeText, ∀ place ∈ allPlaces next enclosing texts,
      HeadWithin next (allWithNested texts).length enclosing place
  | [] => by
      rw [allPlaces]
      exact List.forall_mem_nil _
  | text :: rest => by
      rw [allPlaces, allWithNested, List.length_append]
      refine List.forall_mem_append.mpr ⟨fun place member => ?_, fun place member => ?_⟩
      · exact (headWithin_places next enclosing text place member).widen (Nat.le_refl _)
          (by omega)
      · exact (headWithin_allPlaces _ enclosing rest place member).widen (Nat.le_add_right _ _)
          (by omega)

end

/-- Are the types around a text declared before it? -/
def Before (next : Nat) (enclosing : List TypeId) : Prop :=
  ∀ outer ∈ enclosing.head?, outer.index < next

theorem before_nil (next : Nat) : Before next [] := by
  rintro outer ⟨⟩

theorem before_cons (next : Nat) (enclosing : List TypeId) :
    Before (next + 1) (⟨next⟩ :: enclosing) := by
  rintro outer ⟨⟩
  exact Nat.lt_succ_self _

theorem Before.mono {next later : Nat} {enclosing : List TypeId} (before : Before next enclosing)
    (less : next ≤ later) : Before later enclosing :=
  fun outer around => Nat.lt_of_lt_of_le (before outer around) less

/-- No place in a text lies directly in a type that is neither around the text nor in it. -/
theorem filter_eq_nil_of_apart {placed : List TypePlace} {next count : Nat}
    {enclosing : List TypeId} (within : ∀ place ∈ placed, HeadWithin next count enclosing place)
    {type : TypeId} (around : enclosing.head? ≠ some type)
    (outside : type.index < next ∨ next + count ≤ type.index) :
    placed.filter (fun place => place.enclosing.head? == some type) = [] := by
  refine List.filter_eq_nil_iff.mpr fun place member same => ?_
  have same := beq_iff_eq.mp same
  rcases within place member with here | ⟨outer, head, begins, ends⟩
  · exact around (here.symm.trans same)
  · obtain rfl : outer = type := Option.some.inj (head.symm.trans same)
    omega

theorem filter_places (next : Nat) {enclosing : List TypeId} (before : Before next enclosing)
    (text : TypeText) :
    ((text.places next enclosing).filter
      fun place => place.enclosing.head? == enclosing.head?).map (·.type) = [⟨next⟩] := by
  cases text with
  | mk header fields methods nested =>
      rw [places, List.filter_cons, if_pos (beq_self_eq_true _), List.map_cons]
      refine List.cons_eq_cons.mpr ⟨rfl, List.map_eq_nil_iff.mpr (List.filter_eq_nil_iff.mpr
        fun place member same => ?_)⟩
      have same := beq_iff_eq.mp same
      rcases headWithin_allPlaces (next + 1) (⟨next⟩ :: enclosing) nested place member with
        here | ⟨outer, around, begins, -⟩
      · exact Nat.lt_irrefl _ (before ⟨next⟩ (same.symm.trans here))
      · exact Nat.lt_irrefl _ (Nat.lt_of_lt_of_le (before outer (same.symm.trans around))
          (Nat.le_of_succ_le begins))

/-- Directly in the type around a text are those that its parts declare first. -/
theorem map_filter_allPlaces (next : Nat) {enclosing : List TypeId}
    (before : Before next enclosing) (texts : List TypeText) :
    ((allPlaces next enclosing texts).filter
      fun place => place.enclosing.head? == enclosing.head?).map (·.type) = roots next texts := by
  induction texts generalizing next with
  | nil =>
      rw [allPlaces]
      rfl
  | cons text rest inductionHypothesis =>
      rw [allPlaces, List.filter_append, List.map_append, filter_places next before,
        inductionHypothesis _ (before.mono (Nat.le_add_right _ _))]
      rfl

theorem index_of_mem_places {next : Nat} {enclosing : List TypeId} {text : TypeText}
    {place : TypePlace} (member : place ∈ text.places next enclosing) :
    next ≤ place.type.index ∧ place.type.index < next + text.withNested.length := by
  have numbered := List.mem_map_of_mem (f := fun place : TypePlace => place.type.index) member
  rwa [map_type_places, List.mem_range'_1] at numbered

theorem index_of_mem_allPlaces {next : Nat} {enclosing : List TypeId} {texts : List TypeText}
    {place : TypePlace} (member : place ∈ allPlaces next enclosing texts) :
    next ≤ place.type.index ∧ place.type.index < next + (allWithNested texts).length := by
  have numbered := List.mem_map_of_mem (f := fun place : TypePlace => place.type.index) member
  rwa [map_type_allPlaces, List.mem_range'_1] at numbered

/-- Directly in each type of a text are those that its nested texts declare first. -/
def NestsIn (placed : List TypePlace) (place : TypePlace) : Prop :=
  (placed.filter fun other => other.enclosing.head? == some place.type).map (·.type) =
    roots (place.type.index + 1) place.text.nested

theorem Before.head?_ne {next : Nat} {enclosing : List TypeId} (before : Before next enclosing)
    {type : TypeId} (behind : next ≤ type.index) : enclosing.head? ≠ some type :=
  fun same => Nat.lt_irrefl _ (Nat.lt_of_lt_of_le (before type same) behind)

mutual

theorem nestsIn_places (next : Nat) {enclosing : List TypeId} (before : Before next enclosing) :
    ∀ text : TypeText, ∀ place ∈ text.places next enclosing,
      NestsIn (text.places next enclosing) place
  | .mk header fields methods nested => by
      have inner := before_cons next enclosing
      rw [places]
      refine List.forall_mem_cons.mpr ⟨?_, fun place member => ?_⟩
      · rw [NestsIn, List.filter_cons_of_neg]
        · exact map_filter_allPlaces (next + 1) inner nested
        · exact fun same => before.head?_ne (Nat.le_refl _) (beq_iff_eq.mp same)
      · rw [NestsIn, List.filter_cons_of_neg]
        · exact nestsIn_allPlaces (next + 1) inner nested place member
        · exact fun same => before.head?_ne (Nat.le_of_succ_le (index_of_mem_allPlaces member).1)
            (beq_iff_eq.mp same)

theorem nestsIn_allPlaces (next : Nat) {enclosing : List TypeId} (before : Before next enclosing) :
    ∀ texts : List TypeText, ∀ place ∈ allPlaces next enclosing texts,
      NestsIn (allPlaces next enclosing texts) place
  | [] => by
      rw [allPlaces]
      exact List.forall_mem_nil _
  | text :: rest => by
      rw [allPlaces]
      refine List.forall_mem_append.mpr ⟨fun place member => ?_, fun place member => ?_⟩
      · obtain ⟨begins, ends⟩ := index_of_mem_places member
        rw [NestsIn, List.filter_append, filter_eq_nil_of_apart
          (headWithin_allPlaces (next + text.withNested.length) enclosing rest)
          (before.head?_ne begins) (.inl ends), List.append_nil]
        exact nestsIn_places next before text place member
      · obtain ⟨begins, -⟩ := index_of_mem_allPlaces member
        rw [NestsIn, List.filter_append, filter_eq_nil_of_apart
          (headWithin_places next enclosing text)
          (before.head?_ne (Nat.le_trans (Nat.le_add_right _ _) begins)) (.inr begins),
          List.nil_append]
        exact nestsIn_allPlaces _ (before.mono (Nat.le_add_right _ _)) rest place member

end

/-! ## Going down from the outermost types -/

mutual

theorem preorder_places {graph : Graph} (depth next : Nat) (enclosing : List TypeId) :
    ∀ text : TypeText, text.withNested.length ≤ depth →
      (∀ place ∈ text.places next enclosing, graph.nestedTypes place.type =
        roots (place.type.index + 1) place.text.nested) →
      graph.preorder depth ⟨next⟩ = (text.places next enclosing).map (·.type)
  | .mk header fields methods nested, deep, nests => by
      rw [withNested, List.length_cons] at deep
      rw [places] at nests
      obtain ⟨here, inner⟩ := List.forall_mem_cons.mp nests
      cases depth with
      | zero =>
          cases deep
      | succ depth =>
          rw [Graph.preorder, here, places, List.map_cons]
          exact congrArg (⟨next⟩ :: ·) (preorder_allPlaces depth (next + 1) _ nested
            (Nat.le_of_succ_le_succ deep) inner)

/-- Where types nest as in a text, they are visited as they were placed. -/
theorem preorder_allPlaces {graph : Graph} (depth next : Nat) (enclosing : List TypeId) :
    ∀ texts : List TypeText, (allWithNested texts).length ≤ depth →
      (∀ place ∈ allPlaces next enclosing texts, graph.nestedTypes place.type =
        roots (place.type.index + 1) place.text.nested) →
      (roots next texts).flatMap (graph.preorder depth) =
        (allPlaces next enclosing texts).map (·.type)
  | [], _, _ => by
      rw [allPlaces]
      rfl
  | text :: rest, deep, nests => by
      rw [allWithNested, List.length_append] at deep
      rw [allPlaces] at nests
      obtain ⟨here, later⟩ := List.forall_mem_append.mp nests
      rw [roots, List.flatMap_cons, allPlaces, List.map_append,
        preorder_places depth next enclosing text (by omega) here,
        preorder_allPlaces depth _ enclosing rest (by omega) later]

end

end TypeText

/-! ## Types of loaded texts -/

namespace Loading.Loads

variable {graph : Graph} {texts : List TypeText} (loads : Loads graph texts)

theorem enclosing_filledGraph (type : TypeId) :
    (loads.filledGraph.type type).enclosing = (loads.declaredGraph.type type).enclosing := by
  have alike := (namedAlike_linkAll loads.declaredGraph loads.links).trans
    (namedAlike_withMembers loads.linkedGraph loads.members)
  exact (alike.enclosing type).trans (List.map_id' _)

/-- The types around a type of the text are those around its place. -/
theorem enclosing_place {place : TypePlace} (member : place ∈ loads.places) :
    (loads.filledGraph.type place.type).enclosing = place.enclosing := by
  rw [enclosing_filledGraph, declaredGraph, places, TypePlace.type_withTypes member,
    TypePlace.decl, enclosing_typeDecl]

theorem typeIds_filledGraph :
    loads.filledGraph.typeIds = graph.typeIds ++ loads.places.map (·.type) := by
  have numbered : (loads.places.map (·.type)) =
      (List.range' graph.types.size (TypeText.allWithNested texts).length).map TypeId.mk := by
    rw [← TypeText.map_type_allPlaces graph.types.size [] texts, List.map_map]
    rfl
  rw [Graph.typeIds, size_filledGraph, numbered, List.range_add, List.map_append,
    List.range'_eq_map_range]
  rfl

/-- Directly in a type of the text are the types that its nested texts declare first. -/
theorem nestedTypes_place (named : graph.TypesNamed) {place : TypePlace}
    (member : place ∈ loads.places) :
    loads.filledGraph.nestedTypes place.type =
      TypeText.roots (place.type.index + 1) place.text.nested := by
  have old : graph.typeIds.filter (fun inner =>
      loads.filledGraph.enclosingType? inner == some place.type) = [] := by
    refine List.filter_eq_nil_iff.mpr fun inner among same => ?_
    have known := Graph.mem_typeIds.mp among
    have around := beq_iff_eq.mp same
    rw [Graph.enclosingType?, enclosing_filledGraph, declaredGraph,
      Graph.type_withTypes_of_lt _ _ known] at around
    exact Nat.not_lt.mpr (le_index_of_mem_allPlaces member)
      (named.enclosing inner known place.type (List.mem_of_mem_head? around))
  rw [Graph.nestedTypes, typeIds_filledGraph, List.filter_append, old, List.nil_append,
    List.filter_map]
  refine Eq.trans (congrArg _ (List.filter_congr fun other among => ?_))
    (TypeText.nestsIn_allPlaces graph.types.size (TypeText.before_nil _) texts place member)
  rw [Function.comp_apply, Graph.enclosingType?, loads.enclosing_place among]

/-- In a program that keeps where types are nested, a module is visited as it was declared. -/
theorem preorder_module (named : graph.TypesNamed) {program : Program}
    (enclosing : ∀ type ∈ loads.module.types,
      (program.graph.type type).enclosing = (loads.filledGraph.type type).enclosing)
    (nestedTypes : ∀ type ∈ loads.module.types,
      program.graph.nestedTypes type = loads.filledGraph.nestedTypes type)
    (size : loads.filledGraph.types.size ≤ program.graph.types.size) :
    program.preorder loads.module = loads.module.types := by
  have placed {place : TypePlace} (member : place ∈ loads.places) :
      place.type ∈ loads.module.types := List.mem_map_of_mem member
  have outermost : (loads.module.types.filter fun type =>
      (program.graph.type type).enclosing.isEmpty) = TypeText.roots graph.types.size texts := by
    rw [← TypeText.map_filter_allPlaces graph.types.size (TypeText.before_nil _) texts, module,
      List.filter_map]
    refine congrArg _ (List.filter_congr fun place member => ?_)
    rw [Function.comp_apply, enclosing _ (placed member), loads.enclosing_place member]
    cases place.enclosing <;> rfl
  rw [Program.preorder, outermost]
  refine TypeText.preorder_allPlaces _ _ [] texts ?_ fun place member => ?_
  · rw [size_filledGraph] at size
    omega
  · rw [nestedTypes _ (placed member), loads.nestedTypes_place named member]

end Loading.Loads

end NullWeave
