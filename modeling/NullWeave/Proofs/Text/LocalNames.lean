import NullWeave.Proofs.Text.Rereading

/-!
# Local variables that are declared again

Local variables are declared with distinct names, and a body has to be read
with distinct names again.  The names that are written for them are distinct
unless a name that was made up for one of them is the name of another.
-/

namespace NullWeave

/-- Local variables are read exactly if all types are known and no name is repeated. -/
theorem readLocals_eq_ok_iff (graph : Graph) (owner : TypeId) (seen : List String)
    (declared : List (TypeExpr × String)) :
    (∃ entries, readLocals graph owner seen declared = .ok entries) ↔
      (∀ entry ∈ declared, ∃ type, graph.resolve owner entry.1 = .ok type) ∧
        (declared.map (·.2)).Nodup ∧ ∀ entry ∈ declared, entry.2 ∉ seen := by
  induction declared generalizing seen with
  | nil =>
      simp [readLocals]
  | cons entry rest inductionHypothesis =>
      obtain ⟨type, name⟩ := entry
      have later := inductionHypothesis (name :: seen)
      rw [readLocals]
      by_cases repeated : name ∈ seen
      · simp [repeated]
      · rw [if_neg repeated]
        cases known : graph.resolve owner type with
        | error fault =>
            simp [known, bind, Except.bind]
        | ok resolved =>
            trans ∃ entries, readLocals graph owner (name :: seen) rest = .ok entries
            · cases readLocals graph owner (name :: seen) rest <;>
                simp [bind, Except.bind, pure, Except.pure]
            · rw [later]
              constructor
              · rintro ⟨types, nodup, fresh⟩
                refine ⟨List.forall_mem_cons.mpr ⟨⟨resolved, known⟩, types⟩,
                  List.nodup_cons.mpr ⟨fun among => ?_, nodup⟩,
                  List.forall_mem_cons.mpr ⟨repeated, fun other member seenToo =>
                    fresh other member (List.mem_cons_of_mem _ seenToo)⟩⟩
                obtain ⟨other, member, same⟩ := List.mem_map.mp among
                exact fresh other member (same ▸ List.mem_cons_self ..)
              · rintro ⟨types, nodup, fresh⟩
                obtain ⟨notAmong, nodup⟩ := List.nodup_cons.mp nodup
                refine ⟨(List.forall_mem_cons.mp types).2, nodup, fun other member => ?_⟩
                rw [List.mem_cons, not_or]
                refine ⟨?_, (List.forall_mem_cons.mp fresh).2 other member⟩
                intro same
                exact notAmong (List.mem_map.mpr ⟨other, member, same⟩)

namespace BodyNames

variable (names : BodyNames)

/-- Is a name made up for a local variable? -/
def MadeUp (entry : LocalVariable) : Prop :=
  isPlainName entry.name = false ∨ entry.name = "this"

theorem readableName_of_madeUp {entry : LocalVariable} (madeUp : MadeUp entry)
    (index : Nat) :
    readableName "V" index entry.name = "V_" ++ toString index := by
  rw [readableName, if_neg]
  · rfl
  · rcases madeUp with notPlain | isThis
    · simp [notPlain]
    · simp [isThis]

theorem readableName_of_not_madeUp {entry : LocalVariable} (kept : ¬ MadeUp entry)
    (index : Nat) :
    readableName "V" index entry.name = entry.name := by
  rw [MadeUp, not_or, Bool.not_eq_false] at kept
  exact readableName_eq_self kept.1 kept.2 index

theorem not_madeUp_numbered {entry : LocalVariable} {index : Nat}
    (named : entry.name = "V_" ++ toString index) : ¬ MadeUp entry := by
  rw [MadeUp, named, not_or, Bool.not_eq_false]
  exact ⟨isPlainName_numbered (by decide) index,
    numbered_ne_this (by decide) index⟩

/-- Local variables are written alike only if a name made up for one is the other's own. -/
theorem taken_of_readableName_eq {left right : Nat} {leftEntry rightEntry : LocalVariable}
    (apart : left ≠ right) (distinct : leftEntry.name ≠ rightEntry.name)
    (same : readableName "V" left leftEntry.name = readableName "V" right rightEntry.name) :
    MadeUp leftEntry ∧ "V_" ++ toString left = rightEntry.name ∨
      MadeUp rightEntry ∧ "V_" ++ toString right = leftEntry.name := by
  by_cases leftMade : MadeUp leftEntry <;> by_cases rightMade : MadeUp rightEntry
  · rw [readableName_of_madeUp leftMade, readableName_of_madeUp rightMade] at same
    exact absurd (numbered_injective same) apart
  · rw [readableName_of_madeUp leftMade, readableName_of_not_madeUp rightMade] at same
    exact .inl ⟨leftMade, same⟩
  · rw [readableName_of_not_madeUp leftMade, readableName_of_madeUp rightMade] at same
    exact .inr ⟨rightMade, same.symm⟩
  · rw [readableName_of_not_madeUp leftMade, readableName_of_not_madeUp rightMade] at same
    exact absurd same distinct

/-- The written names are distinct unless one that was made up is taken. -/
theorem nodup_localNames_iff
    (distinct : (names.body.locals.map (·.name)).Nodup) :
    names.localNames.Nodup ↔
      ∀ (index : Nat) entry, names.body.locals[index]? = some entry → MadeUp entry →
        "V_" ++ toString index ∉ names.body.locals.map (·.name) := by
  constructor
  · intro nodup index entry here madeUp taken
    obtain ⟨other, member, named⟩ := List.mem_map.mp taken
    obtain ⟨place, there⟩ := List.mem_iff_getElem?.mp member
    have kept : ¬ MadeUp other := not_madeUp_numbered named
    have written : names.localNames[index]? = some ("V_" ++ toString index) := by
      rw [getElem?_localNames, here, Option.map_some, readableName_of_madeUp madeUp]
    have writtenToo : names.localNames[place]? = some ("V_" ++ toString index) := by
      rw [getElem?_localNames, there, Option.map_some, readableName_of_not_madeUp kept, named]
    have inside : index < names.localNames.length :=
      (List.getElem?_eq_some_iff.mp written).1
    obtain rfl := (List.getElem?_inj inside nodup).mp (written.trans writtenToo.symm)
    obtain rfl : entry = other := Option.some.inj (here.symm.trans there)
    exact kept madeUp
  · intro free
    refine List.nodup_iff_getElem?_ne_getElem?.mpr fun left right before inside same => ?_
    obtain ⟨name, rightName⟩ : ∃ name, names.localNames[right]? = some name :=
      ⟨_, List.getElem?_eq_getElem inside⟩
    have leftName := same.trans rightName
    rw [getElem?_localNames, Option.map_eq_some_iff] at leftName rightName
    obtain ⟨leftEntry, leftHere, rfl⟩ := leftName
    obtain ⟨rightEntry, rightHere, sameName⟩ := rightName
    have ownNames : leftEntry.name ≠ rightEntry.name := by
      intro sameOwn
      refine List.nodup_iff_getElem?_ne_getElem?.mp distinct left right before ?_ ?_
      · rw [List.length_map]
        exact (List.getElem?_eq_some_iff.mp rightHere).1
      · rw [List.getElem?_map, List.getElem?_map, leftHere, rightHere,
          Option.map_some, Option.map_some, sameOwn]
    obtain ⟨madeUp, taken⟩ | ⟨madeUp, taken⟩ :=
      taken_of_readableName_eq (Nat.ne_of_lt before) ownNames sameName.symm
    · exact free left leftEntry leftHere madeUp
        (List.mem_map.mpr ⟨rightEntry, List.mem_of_getElem? rightHere, taken.symm⟩)
    · exact free right rightEntry rightHere madeUp
        (List.mem_map.mpr ⟨leftEntry, List.mem_of_getElem? leftHere, taken.symm⟩)

/--
The local variables of a printed body are read again exactly if no name that
was made up for one of them is the name of another.
-/
theorem readLocals_localNames_iff {owner : TypeId} {types : List TypeExpr}
    (distinct : (names.body.locals.map (·.name)).Nodup)
    (oneEach : types.length = names.body.locals.length)
    (known : ∀ type ∈ types, ∃ resolved, names.graph.resolve owner type = .ok resolved) :
    (∃ entries,
      readLocals names.graph owner [] (types.zip names.localNames) = .ok entries) ↔
      ∀ (index : Nat) entry, names.body.locals[index]? = some entry → MadeUp entry →
        "V_" ++ toString index ∉ names.body.locals.map (·.name) := by
  have written : (types.zip names.localNames).map (·.2) = names.localNames := by
    refine List.map_snd_zip (Nat.le_of_eq ?_)
    rw [localNames, List.length_mapIdx, oneEach]
  rw [readLocals_eq_ok_iff, written, ← nodup_localNames_iff names distinct]
  constructor
  · exact fun read => read.2.1
  · intro nodup
    refine ⟨fun entry member => known entry.1 (List.of_mem_zip member).1, nodup, ?_⟩
    exact fun _ _ => List.not_mem_nil

end BodyNames

end NullWeave
