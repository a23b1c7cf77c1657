import NullWeave.Proofs.BlockLayout
import NullWeave.Proofs.Graph.Renaming
import NullWeave.Proofs.Text.TypePlaces

/-!
# Types in another order

Where the types of a text come in another order, the first pass gives them other
identities.  A change of identities takes each type, and the types around it, to
where they are in the other order.  It leaves every type that was there before,
so the graph that the pass leaves is the same up to the identities.
-/

namespace NullWeave

/-- A place with its types under other identities. -/
def TypePlace.rename (change : TypeId → TypeId) (place : TypePlace) : TypePlace where
  text := place.text
  type := change place.type
  enclosing := place.enclosing.map change

@[simp]
theorem TypePlace.decl_rename (change : TypeId → TypeId) (place : TypePlace) :
    (place.rename change).decl = place.decl.rename change := by
  obtain ⟨text, type, enclosing⟩ := place
  cases enclosing <;> rfl

/-- Types by their numbers. -/
def TypeId.ofNumber : Nat ≃ TypeId where
  toFun := mk
  invFun := index

namespace TypeText

variable {change : TypeId → TypeId}

mutual

theorem map_rename_places (start goal : Nat) (enclosing : List TypeId) :
    ∀ text : TypeText,
      (∀ offset < text.withNested.length, change ⟨start + offset⟩ = ⟨goal + offset⟩) →
        (text.places start enclosing).map (TypePlace.rename change) =
          text.places goal (enclosing.map change)
  | .mk header fields methods nested, moves => by
      rw [withNested, List.length_cons] at moves
      have here : change ⟨start⟩ = ⟨goal⟩ := moves 0 (by omega)
      have inner := map_rename_allPlaces (start + 1) (goal + 1) (⟨start⟩ :: enclosing) nested
        fun offset inside => by
          rw [Nat.add_right_comm, Nat.add_right_comm goal]
          exact moves (offset + 1) (by omega)
      rw [List.map_cons, here] at inner
      rw [places, places, List.map_cons, inner]
      exact congrArg (fun type => (⟨_, type, _⟩ : TypePlace) :: _) here

/-- Types whose numbers move together keep their places among each other. -/
theorem map_rename_allPlaces (start goal : Nat) (enclosing : List TypeId) :
    ∀ texts : List TypeText,
      (∀ offset < (allWithNested texts).length, change ⟨start + offset⟩ = ⟨goal + offset⟩) →
        (allPlaces start enclosing texts).map (TypePlace.rename change) =
          allPlaces goal (enclosing.map change) texts
  | [], _ => rfl
  | text :: rest, moves => by
      rw [allWithNested, List.length_append] at moves
      rw [allPlaces, allPlaces, List.map_append,
        map_rename_places start goal enclosing text fun offset inside =>
          moves offset (by omega),
        map_rename_allPlaces (start + text.withNested.length) (goal + text.withNested.length)
          enclosing rest fun offset inside => by
            rw [Nat.add_assoc, Nat.add_assoc]
            exact moves (text.withNested.length + offset) (by omega)]

end

theorem flatten_layOut_places (next : Nat) (texts : List TypeText) :
    (layOut (fun text => text.withNested.length) (fun start text => text.places start [])
      next texts).flatten = allPlaces next [] texts := by
  induction texts generalizing next with
  | nil =>
      rfl
  | cons text rest inductionHypothesis =>
      rw [layOut, List.flatten_cons, inductionHypothesis, allPlaces]

theorem totalSize_withNested (texts : List TypeText) :
    totalSize (fun text => text.withNested.length) texts = (allWithNested texts).length := by
  induction texts with
  | nil =>
      rfl
  | cons text rest inductionHypothesis =>
      rw [totalSize, inductionHypothesis, allWithNested, List.length_append]

/-- A change of identities takes the types of a text to where they are in another order. -/
theorem exists_perm_allPlaces {texts order : List TypeText} (reordered : texts.Perm order)
    (next : Nat) :
    ∃ change : Equiv.Perm TypeId,
      (∀ type : TypeId, type.index < next → change type = type) ∧
        (∀ type : TypeId, next + (allWithNested texts).length ≤ type.index →
          change type = type) ∧
          (allPlaces next [] order).Perm
            ((allPlaces next [] texts).map (TypePlace.rename change)) := by
  obtain ⟨change, before, behind, moved⟩ := @exists_perm_layOut _ _
    (fun text : TypeText => text.withNested.length) (fun start text => text.places start [])
    (fun change => List.map (TypePlace.rename (TypeId.ofNumber.permCongr change)))
    (fun change start goal text moves =>
      map_rename_places start goal [] text fun offset inside =>
        congrArg TypeId.mk (moves offset inside))
    (fun first second laid => by
      rw [List.map_map]
      refine List.map_congr_left fun place _ => ?_
      simp only [Function.comp_apply, TypePlace.rename, List.map_map]
      rfl) _ _ reordered next
  rw [totalSize_withNested] at behind
  refine ⟨TypeId.ofNumber.permCongr change, fun type less => congrArg TypeId.mk (before _ less),
    fun type beyond => congrArg TypeId.mk (behind _ beyond), ?_⟩
  rw [← flatten_layOut_places, ← flatten_layOut_places, List.map_flatten]
  exact moved.flatten

end TypeText

/-! ## The graphs that are left -/

section Declared

variable {graph : Graph} {texts order : List TypeText}

theorem Graph.type_of_size_le {type : TypeId} (beyond : graph.types.size ≤ type.index) :
    graph.type type = default := by
  simp [Graph.type, Array.getElem?_eq_none beyond]

/-- A type is found at its place. -/
theorem TypePlace.type_withTypes {place : TypePlace}
    (member : place ∈ TypeText.allPlaces graph.types.size [] texts) :
    (graph.withTypes ((TypeText.allPlaces graph.types.size [] texts).map TypePlace.decl)).type
      place.type = place.decl := by
  obtain ⟨index, inside, rfl⟩ := List.getElem_of_mem member
  have numbers := congrArg (·[index]?) (TypeText.map_type_allPlaces graph.types.size [] texts)
  have insideToo : index < (TypeText.allWithNested texts).length := by
    rwa [TypeText.length_allPlaces] at inside
  have number : (TypeText.allPlaces graph.types.size [] texts)[index].type =
      ⟨graph.types.size + index⟩ := by
    refine congrArg TypeId.mk (?_ : _ = (⟨graph.types.size + index⟩ : TypeId).index)
    simpa [inside, insideToo] using numbers
  rw [number, Graph.type_withTypes_add]
  simp [inside]

/-- Every type that is new has a place. -/
theorem exists_place {next : Nat} {type : TypeId} (new : next ≤ type.index)
    (inside : type.index < next + (TypeText.allWithNested texts).length) :
    ∃ place ∈ TypeText.allPlaces next [] texts, place.type = type := by
  have numbered : type.index ∈ (TypeText.allPlaces next [] texts).map (·.type.index) := by
    rw [TypeText.map_type_allPlaces, List.mem_range'_1]
    exact ⟨new, inside⟩
  obtain ⟨place, member, same⟩ := List.mem_map.mp numbered
  exact ⟨place, member, congrArg TypeId.mk same⟩

theorem TypeDecl.rename_of_stays {change : TypeId → TypeId} {decl : TypeDecl}
    (enclosing : ∀ outer ∈ decl.enclosing, change outer = outer)
    (base : ∀ base ∈ decl.base, change base = base)
    (interfaces : ∀ interface ∈ decl.interfaces, change interface = interface) :
    decl.rename change = decl := by
  have same {types : List TypeId} (stays : ∀ type ∈ types, change type = type) :
      types.map change = types :=
    (List.map_congr_left stays).trans (List.map_id' types)
  rw [rename, same enclosing, same interfaces, Option.map_congr base, Option.map_id']

/-- The first pass leaves the same types in any order, up to their identities. -/
theorem exists_typesRenamed (named : graph.TypesNamed) (reordered : texts.Perm order) :
    ∃ change : Equiv.Perm TypeId,
      (∀ type, graph.HasType type → change type = type) ∧
        (TypeText.allPlaces graph.types.size [] order).Perm
          ((TypeText.allPlaces graph.types.size [] texts).map (TypePlace.rename change)) ∧
        (graph.withTypes ((TypeText.allPlaces graph.types.size [] texts).map
          TypePlace.decl)).TypesRenamed change
          (graph.withTypes ((TypeText.allPlaces graph.types.size [] order).map
            TypePlace.decl)) := by
  obtain ⟨change, before, behind, moved⟩ :=
    TypeText.exists_perm_allPlaces reordered graph.types.size
  have size (order : List TypeText) : (graph.withTypes
      ((TypeText.allPlaces graph.types.size [] order).map TypePlace.decl)).types.size =
        graph.types.size + (TypeText.allWithNested order).length := by
    rw [Graph.size_withTypes, List.length_map, TypeText.length_allPlaces]
  have lengths : (TypeText.allWithNested order).length =
      (TypeText.allWithNested texts).length := by
    rw [← TypeText.length_allPlaces graph.types.size [], moved.length_eq, List.length_map,
      TypeText.length_allPlaces]
  refine ⟨change, before, moved, ?_, fun type => ?_, fun type known => ?_, fun type => ?_⟩
  · rw [size, size, lengths]
  · rw [Graph.HasType, size, lengths, Graph.HasType, size]
    constructor
    · intro inside
      by_contra beyond
      rw [behind type (Nat.not_lt.mp beyond)] at inside
      exact beyond inside
    · intro inside
      by_contra beyond
      rw [change.injective (behind _ (Nat.not_lt.mp beyond))] at beyond
      exact beyond inside
  · exact before type (Nat.lt_of_lt_of_le known named.size)
  · rcases Nat.lt_or_ge type.index graph.types.size with old | new
    · rw [before type old, Graph.type_withTypes_of_lt _ _ old,
        Graph.type_withTypes_of_lt _ _ old, TypeDecl.rename_of_stays]
      · exact fun outer member => before outer (named.enclosing type old outer member)
      · exact fun base member => before base (named.base type old base member)
      · exact fun interface member =>
          before interface (named.interfaces type old interface member)
    · rcases Nat.lt_or_ge type.index
          (graph.types.size + (TypeText.allWithNested texts).length) with inside | beyond
      · obtain ⟨place, member, rfl⟩ := exists_place new inside
        have there : place.rename change ∈ TypeText.allPlaces graph.types.size [] order :=
          moved.symm.subset (List.mem_map_of_mem member)
        rw [TypePlace.type_withTypes member, ← TypePlace.decl_rename]
        exact TypePlace.type_withTypes there
      · rw [behind type beyond, Graph.type_of_size_le (by rw [size, lengths]; exact beyond),
          Graph.type_of_size_le (by rw [size]; exact beyond)]
        rfl

end Declared

end NullWeave
