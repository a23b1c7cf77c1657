import NullWeave.Proofs.Text.Rereading
import NullWeave.Text.Loading.Module

/-!
# What a written argument means

An argument is written by the name of its parameter if that is a plain one, and
by its number otherwise.  The first line of a method gives some parameters other
names, and a name that is read means the first parameter that has it there.  So
an argument with a plain name is found again exactly if the name is not `this`
and no parameter before it has been given the same name.
-/

namespace NullWeave

/-- The argument slot that operands name; they have to be one operand. -/
def BodyScope.readArgument (scope : BodyScope) (operands : List Lexeme) :
    Except TextFault UInt16 :=
  let reader : LineReader UInt16 := do
    let slot ← scope.argumentOperand
    LineReader.done
    pure slot
  reader.run' operands

/-- The argument that the operand written for one means under the names of the first line. -/
def BodyNames.argumentMeant (names : BodyNames) (slot : UInt16) : Except TextFault UInt16 := do
  let operands ← lexLine (names.argumentWritten slot).toList
  names.rereadScope.readArgument operands

/--
Is a parameter whose own name is written for it the first one that has this name
in the first line of the method?
-/
def MethodDecl.NamesArgument (decl : MethodDecl) (slot : UInt16) : Prop :=
  ∀ index parameter, slot.toNat = index + decl.hasReceiver.toNat →
    decl.parameters[index]? = some parameter → isPlainName parameter.name = true →
      parameter.name ≠ "this" ∧
        ∀ earlier < index, ∀ other, decl.parameters[earlier]? = some other →
          readableName "A" earlier other.name ≠ parameter.name

namespace MethodDecl

variable {decl : MethodDecl} {slot : UInt16} {parameter : Parameter}

theorem namesArgument_of_none (noParameter : decl.parameterOfSlot? slot = none) :
    decl.NamesArgument slot := by
  intro index parameter shifted here
  have found := parameterOfSlot?_eq_some_iff.mpr ⟨index, shifted, here⟩
  rw [noParameter] at found
  cases found

/-- A slot belongs to one parameter only. -/
theorem namesArgument_iff {index : Nat} (shifted : slot.toNat = index + decl.hasReceiver.toNat)
    (here : decl.parameters[index]? = some parameter) :
    decl.NamesArgument slot ↔
      (isPlainName parameter.name = true →
        parameter.name ≠ "this" ∧
          ∀ earlier < index, ∀ other, decl.parameters[earlier]? = some other →
            readableName "A" earlier other.name ≠ parameter.name) := by
  refine ⟨fun named => named index parameter shifted here, ?_⟩
  intro named other found shiftedToo hereToo
  obtain rfl : index = other := Nat.add_right_cancel (shifted.symm.trans shiftedToo)
  cases here.symm.trans hereToo
  exact named

/-- Slots up to one that is in use do not wrap around. -/
theorem argumentSlot_eq_iff {first index : Nat} (before : first ≤ index)
    (shifted : slot.toNat = index + decl.hasReceiver.toNat) :
    decl.argumentSlot first = slot ↔ first = index := by
  have small := slot.toNat_lt
  have unwrapped : (decl.argumentSlot first).toNat = first + decl.hasReceiver.toNat :=
    UInt16.toNat_ofNat_of_lt' (by
      change first + decl.hasReceiver.toNat < 2 ^ 16
      omega)
  rw [← UInt16.toNat_inj, unwrapped, shifted]
  omega

/-- The first parameter with a name in the first line is one with a plain name of its own. -/
theorem findIdx?_withWrittenNames_iff {index : Nat}
    (here : decl.parameters[index]? = some parameter)
    (plain : isPlainName parameter.name = true) (notThis : parameter.name ≠ "this") :
    decl.withWrittenNames.parameters.findIdx? (·.name == parameter.name) = some index ↔
      ∀ earlier < index, ∀ other, decl.parameters[earlier]? = some other →
        readableName "A" earlier other.name ≠ parameter.name := by
  have written (position : Nat) :
      decl.withWrittenNames.parameters[position]?.map (·.name) =
        decl.parameters[position]?.map fun other =>
          readableName "A" position other.name := by
    rw [getElem?_withWrittenNames, Option.map_map]
    rfl
  have same := written index
  rw [here, Option.map_some, readableName_eq_self plain notThis] at same
  obtain ⟨renamed, hereToo, sameName⟩ := Option.map_eq_some_iff.mp same
  obtain ⟨inside, rfl⟩ := List.getElem?_eq_some_iff.mp hereToo
  rw [List.findIdx?_eq_some_iff_getElem]
  constructor
  · rintro ⟨_, _, before⟩ earlier less other found taken
    have there := written earlier
    rw [found, Option.map_some, taken] at there
    obtain ⟨another, foundToo, nameToo⟩ := Option.map_eq_some_iff.mp there
    obtain ⟨insideToo, rfl⟩ := List.getElem?_eq_some_iff.mp foundToo
    exact before earlier less (beq_iff_eq.mpr nameToo)
  · intro apart
    refine ⟨inside, beq_iff_eq.mpr sameName, fun earlier less taken => ?_⟩
    have there := written earlier
    rw [List.getElem?_eq_getElem (Nat.lt_trans less inside), Option.map_some,
      beq_iff_eq.mp taken, eq_comm, Option.map_eq_some_iff] at there
    obtain ⟨other, found, nameToo⟩ := there
    exact apart earlier less other found nameToo

end MethodDecl

namespace BodyNames

variable (names : BodyNames) {slot : UInt16} {parameter : Parameter}

theorem argumentMeant_eq (slot : UInt16) :
    names.argumentMeant slot =
      names.rereadScope.argumentSlot (some (names.argumentWord slot)) := by
  have cut := lexLine_word (names.isWord_argumentWord slot) endsName_nil
  rw [List.append_nil, lexLine_nil, text_argumentWord] at cut
  rw [argumentMeant, cut]
  change (names.rereadScope.readArgument [names.argumentWord slot]) = _
  cases read : names.rereadScope.argumentSlot (some (names.argumentWord slot)) <;>
    simp [BodyScope.readArgument, BodyScope.argumentOperand, LineReader.next?, LineReader.done,
      read]

/-- A slot that is no parameter's is the receiver's or is written as a number. -/
theorem argumentMeant_of_none (noParameter : names.method.parameterOfSlot? slot = none) :
    names.argumentMeant slot = .ok slot := by
  rw [argumentMeant_eq]
  cases receiver : names.method.hasReceiver && slot == 0 with
  | true =>
      obtain ⟨hasReceiver, rfl⟩ : names.method.hasReceiver = true ∧ slot = 0 := by
        simpa using receiver
      rw [names.argumentWord_receiver hasReceiver, argumentSlot_this, hasReceiver]
      rfl
  | false =>
      rw [names.argumentWord_of_none receiver noParameter, argumentSlot_number]

/-- A plain name means its own parameter exactly if it is the first one with the name. -/
theorem argumentMeant_of_plain {index : Nat}
    (shifted : slot.toNat = index + names.method.hasReceiver.toNat)
    (here : names.method.parameters[index]? = some parameter)
    (plain : isPlainName parameter.name = true) (notThis : parameter.name ≠ "this") :
    names.argumentMeant slot = .ok slot ↔
      names.method.withWrittenNames.parameters.findIdx? (·.name == parameter.name) =
        some index := by
  have found := MethodDecl.parameterOfSlot?_eq_some_iff.mpr ⟨index, shifted, here⟩
  have named : names.method.withWrittenNames.parameters[index]? = some parameter := by
    rw [MethodDecl.getElem?_withWrittenNames, here, Option.map_some,
      Parameter.withWrittenName, readableName_eq_self plain notThis]
  have nameHolds : (parameter.name == parameter.name) = true := beq_self_eq_true _
  obtain ⟨first, -, before, search, -, -⟩ :=
    @exists_findIdx?_le _ (fun other : Parameter => other.name == parameter.name)
      _ _ _ named nameHolds
  rw [argumentMeant_eq, names.argumentWord_of_plain found plain,
    names.argumentSlot_of_findIdx? notThis search, search, Except.ok.injEq, Option.some.injEq]
  exact MethodDecl.argumentSlot_eq_iff before shifted

/-- The operand that is written for an argument means it exactly if the argument has its name. -/
theorem argumentMeant_eq_ok_iff (slot : UInt16) :
    names.argumentMeant slot = .ok slot ↔ names.method.NamesArgument slot := by
  cases found : names.method.parameterOfSlot? slot with
  | none =>
      exact iff_of_true (names.argumentMeant_of_none found)
        (MethodDecl.namesArgument_of_none found)
  | some parameter =>
      obtain ⟨index, shifted, here⟩ := MethodDecl.parameterOfSlot?_eq_some_iff.mp found
      rw [MethodDecl.namesArgument_iff shifted here]
      cases plain : isPlainName parameter.name with
      | false =>
          rw [argumentMeant_eq, names.argumentWord_of_not_plain found plain,
            argumentSlot_number]
          exact iff_of_true rfl (fun plain => absurd plain Bool.false_ne_true)
      | true =>
          by_cases isThis : parameter.name = "this"
          · refine iff_of_false ?_ fun apart => (apart rfl).1 isThis
            rw [argumentMeant_eq, names.argumentWord_of_plain found plain, isThis,
              argumentSlot_this]
            split
            · rename_i receiver
              have notReceiver := MethodDecl.not_receiver_of_parameterOfSlot? found
              rw [receiver, Bool.true_and, beq_eq_false_iff_ne] at notReceiver
              exact fun same => notReceiver (Except.ok.inj same).symm
            · exact nofun
          · rw [names.argumentMeant_of_plain shifted here plain isThis,
              MethodDecl.findIdx?_withWrittenNames_iff here plain isThis]
            exact ⟨fun apart _ => ⟨isThis, apart⟩, fun apart => (apart rfl).2⟩

end BodyNames

/-- A parameter called `this` is written under its name, which the loader does not take for it. -/
theorem argumentMeant_staticThis :
    let loaded := Program.initial.load
      ".class public C\n.method public static void M(object this)\nldarg 0\npop\nret\n.end\n.end\n"
    let graph := loaded.2.graph
    (loaded.1.isOk = true ∧ ((graph.method ⟨13⟩).parameterOfSlot? 0).isSome = true) ∧
      (loaded.2.bodies.get? ⟨13⟩).map (fun body =>
        (⟨graph, graph.method ⟨13⟩, body⟩ : BodyNames).argumentMeant 0) =
          some (.error .noReceiver) := by
  decide +kernel

end NullWeave
