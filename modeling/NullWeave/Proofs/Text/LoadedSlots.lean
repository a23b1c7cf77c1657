import NullWeave.Proofs.Code.PointOrder
import NullWeave.Proofs.Text.LocalNames
import NullWeave.Proofs.Text.PrintedNames

/-!
# Slots of parameters and local variables

Parameters and local variables are counted without a bound, and a slot has
sixteen bits.  Up to the last slot there is, the slot that is made from a
position is that position.  From there on slots start again at zero, and no text
is rejected for it: the name of such a local variable means an earlier one, the
slot of such a parameter belongs to an earlier one or to the receiver, and the
scope of the body lists some of its local variables only.
-/

namespace NullWeave

/-! ## Positions as slots -/

/-- The slot that is made from a position has this number exactly if there is a slot with it. -/
theorem toNat_slot_eq_iff {position : Nat} :
    (UInt16.ofNat position).toNat = position ↔ position < UInt16.size := by
  constructor
  · intro same
    rw [← same]
    exact UInt16.toNat_lt_size _
  · exact UInt16.toNat_ofNat_of_lt

namespace MethodDecl

/-- The position of the parameter that an argument slot holds, also beyond the last parameter. -/
def positionOfSlot? (decl : MethodDecl) (slot : UInt16) : Option Nat :=
  if decl.hasReceiver && slot.toNat == 0 then none
  else some (slot.toNat - decl.hasReceiver.toNat)

variable {decl : MethodDecl} {position : Nat}

theorem parameterOfSlot?_eq_bind (slot : UInt16) :
    decl.parameterOfSlot? slot =
      (decl.positionOfSlot? slot).bind fun position => decl.parameters[position]? := by
  unfold parameterOfSlot? positionOfSlot?
  cases decl.hasReceiver <;> by_cases first : slot.toNat = 0 <;> simp [first]

/-- Does the argument slot that is made for a parameter stand for this parameter? -/
def HoldsParameter (decl : MethodDecl) (position : Nat) : Prop :=
  (decl.argumentSlot position).toNat = position + decl.hasReceiver.toNat ∧
    decl.positionOfSlot? (decl.argumentSlot position) = some position

theorem holdsParameter_iff :
    decl.HoldsParameter position ↔ position + decl.hasReceiver.toNat < UInt16.size := by
  rw [HoldsParameter, argumentSlot, toNat_slot_eq_iff, and_iff_left_iff_imp]
  intro small
  rw [positionOfSlot?, toNat_slot_eq_iff.mpr small, Nat.add_sub_cancel]
  cases decl.hasReceiver <;> simp

/-- The slot of a parameter that stands for it holds nothing else. -/
theorem HoldsParameter.parameterOfSlot? (holds : decl.HoldsParameter position) :
    decl.parameterOfSlot? (decl.argumentSlot position) = decl.parameters[position]? := by
  rw [parameterOfSlot?_eq_bind, holds.2, Option.bind_some]

end MethodDecl

/-! ## Names of local variables -/

theorem map_name_readLocals {graph : Graph} {owner : TypeId} {seen : List String}
    {declared : List (TypeExpr × String)} {entries : List LocalVariable}
    (read : readLocals graph owner seen declared = .ok entries) :
    entries.map (·.name) = declared.map (·.2) := by
  induction declared generalizing seen entries with
  | nil =>
      cases read
      rfl
  | cons entry rest inductionHypothesis =>
      obtain ⟨type, name⟩ := entry
      rw [readLocals] at read
      split at read
      · cases read
      · obtain ⟨resolved, -, later⟩ := bind_eq_ok_iff.mp read
        obtain ⟨others, readRest, same⟩ := bind_eq_ok_iff.mp later
        cases same
        rw [List.map_cons, List.map_cons, inductionHypothesis readRest]

/-- A body that was read has local variables with distinct names. -/
theorem BodyText.ReadsAs.nodup_locals {text : BodyText} {graph : Graph} {method : MethodDecl}
    {body : MethodBody} (reads : text.ReadsAs graph method body) :
    (body.locals.map (·.name)).Nodup := by
  rw [map_name_readLocals reads.locals]
  exact ((readLocals_eq_ok_iff graph method.owner [] text.locals).mp ⟨_, reads.locals⟩).2.1

namespace MethodBody

variable {body : MethodBody} {scope : BodyScope} {position : Nat} {entry : LocalVariable}

/-- The name of a local variable means the slot that is made from its position. -/
theorem localSlot_name (distinct : (body.locals.map (·.name)).Nodup)
    (named : scope.locals = body.locals.map (·.name))
    (here : body.locals[position]? = some entry) :
    scope.localSlot (some (.name entry.name)) = .ok (UInt16.ofNat position) := by
  have name : scope.locals[position]? = some entry.name := by
    rw [named, List.getElem?_map, here, Option.map_some]
  obtain ⟨inside, name⟩ := List.getElem?_eq_some_iff.mp name
  have found : scope.locals.findIdx? (· == entry.name) = some position := by
    refine List.findIdx?_eq_some_iff_getElem.mpr ⟨inside, by simp [name], fun earlier before => ?_⟩
    rw [Bool.not_eq_true, beq_eq_false_iff_ne, ← name]
    intro same
    exact Nat.ne_of_lt before ((List.Nodup.getElem_inj_iff (named ▸ distinct)).mp same)
  rw [BodyScope.localSlot, found]

/--
Does the name of a local variable mean the slot that has its position for a number, and is the
variable in that slot the one that was declared under the name?
-/
def HoldsLocal (body : MethodBody) (scope : BodyScope) (position : Nat) : Prop :=
  ∃ entry slot, body.locals[position]? = some entry ∧
    scope.localSlot (some (.name entry.name)) = .ok slot ∧ slot.toNat = position ∧
      body.locals[slot.toNat]? = some entry

theorem holdsLocal_iff (distinct : (body.locals.map (·.name)).Nodup)
    (named : scope.locals = body.locals.map (·.name)) (inside : position < body.locals.length) :
    body.HoldsLocal scope position ↔ position < UInt16.size := by
  obtain ⟨entry, here⟩ : ∃ entry, body.locals[position]? = some entry :=
    ⟨_, List.getElem?_eq_getElem inside⟩
  have slot := localSlot_name distinct named here
  rw [← toNat_slot_eq_iff]
  constructor
  · rintro ⟨other, meant, hereToo, means, number, -⟩
    obtain rfl := Option.some.inj (here.symm.trans hereToo)
    obtain rfl := Except.ok.inj (slot.symm.trans means)
    exact number
  · exact fun number => ⟨entry, _, here, slot, number, by rw [number, here]⟩

end MethodBody

/-! ## Slots that a scope lists -/

/-- Does a scope list the slots of as many local variables? -/
def Scope.ListsLocals (scope : Scope) (localCount : Nat) : Prop :=
  ∀ position < localCount, UInt16.ofNat position ∈ scope.slots

@[simp]
theorem mem_slotsBelow {slot : UInt16} {count : Nat} :
    slot ∈ slotsBelow count ↔ slot.toNat < count % UInt16.size := by
  have narrowed : (UInt16.ofNat count).toNat = count % UInt16.size := UInt16.toNat_ofNat'
  rw [slotsBelow, narrowed, List.mem_map]
  constructor
  · rintro ⟨position, below, rfl⟩
    exact (Nat.mod_le position _).trans_lt (List.mem_range.mp below)
  · exact fun below => ⟨slot.toNat, List.mem_range.mpr below, UInt16.ofNat_toNat⟩

@[simp]
theorem mem_withMissingSlots {slot : UInt16} {slots others : List UInt16} :
    slot ∈ withMissingSlots slots others ↔ slot ∈ slots ∨ slot ∈ others := by
  induction others generalizing slots with
  | nil =>
      simp [withMissingSlots]
  | cons other rest inductionHypothesis =>
      rw [withMissingSlots, inductionHypothesis, List.mem_cons]
      split
      · rename_i listed
        constructor
        · exact Or.imp_right .inr
        · rintro (before | rfl | later)
          exacts [.inl before, .inl listed, .inr later]
      · simp [or_assoc]

theorem Scope.listsLocals_of_lt {scope : Scope} {localCount : Nat}
    (small : localCount < UInt16.size)
    (listed : ∀ slot ∈ slotsBelow localCount, slot ∈ scope.slots) :
    scope.ListsLocals localCount := by
  refine fun position before => listed _ (mem_slotsBelow.mpr ?_)
  rwa [toNat_slot_eq_iff.mpr (before.trans small), Nat.mod_eq_of_lt small]

/-- The slots below a count are those of all local variables unless there are too many of them. -/
theorem Scope.listsLocals_iff {scope : Scope} {localCount : Nat}
    (listed : ∀ slot, slot ∈ scope.slots ↔ slot ∈ slotsBelow localCount) :
    scope.ListsLocals localCount ↔ localCount < UInt16.size := by
  constructor
  · intro all
    by_contra large
    -- The last slot there is belongs to a local variable, but what is left of the count is no more.
    have last : UInt16.size - 1 < localCount :=
      (Nat.sub_lt (by decide) (by decide)).trans_le (Nat.not_lt.mp large)
    have below := mem_slotsBelow.mp ((listed _).mp (all _ last))
    rw [toNat_slot_eq_iff.mpr (by decide)] at below
    exact Nat.not_lt.mpr (Nat.le_sub_one_of_lt (Nat.mod_lt _ (by decide))) below
  · exact fun small => Scope.listsLocals_of_lt small fun slot member => (listed slot).mpr member

namespace MethodBody

variable {body : MethodBody} {scope : Scope}

/-- The scope that a body is read with lists the slots below the number of its local variables. -/
theorem AsRead.slots_eq (read : body.AsRead) (here : body.debugInfo.scope = some scope) :
    scope.slots = slotsBelow body.locals.length := by
  have whole := read.scope.symm.trans here
  unfold wholeScope? at whole
  split at whole
  · cases whole
  · split at whole <;> cases whole
    rfl

/-- An update adds the slots below the number of local variables to those that were listed. -/
theorem mem_slots_refreshDebugInfo (here : body.refreshDebugInfo.debugInfo.scope = some scope) :
    ∃ before, body.debugInfo.scope = some before ∧
      ∀ slot, slot ∈ scope.slots ↔ slot ∈ before.slots ∨ slot ∈ slotsBelow body.locals.length := by
  obtain ⟨before, there, rfl⟩ := Option.map_eq_some_iff.mp here
  exact ⟨before, there, fun slot => mem_withMissingSlots⟩

/-- What do the slots that are made for the local variables of a body stand for? -/
structure LocalSlots (body : MethodBody) : Prop where
  /-- The name of a local variable means the slot that is left of its position. -/
  localSlot_eq : ∀ (scope : BodyScope) position entry,
    scope.locals = body.locals.map (·.name) → body.locals[position]? = some entry →
      ∃ slot, scope.localSlot (some (.name entry.name)) = .ok slot ∧
        slot.toNat = position % UInt16.size
  /-- That is the slot of the variable itself exactly if there is a slot for its position. -/
  holdsLocal_iff : ∀ (scope : BodyScope) position,
    scope.locals = body.locals.map (·.name) → position < body.locals.length →
      (body.HoldsLocal scope position ↔ position < UInt16.size)
  /-- The scope of the body lists all local variables exactly if their number is a slot. -/
  listsLocals_iff : ∀ scope, body.debugInfo.scope = some scope →
    (scope.ListsLocals body.locals.length ↔ body.locals.length < UInt16.size)
  /-- An update of the debug information changes nothing about that, whatever the code is. -/
  listsLocals_refreshDebugInfo_iff : ∀ current : MethodBody, current.locals = body.locals →
    current.debugInfo.scope.map (·.slots) = body.debugInfo.scope.map (·.slots) →
      ∀ scope, current.refreshDebugInfo.debugInfo.scope = some scope →
        (scope.ListsLocals current.locals.length ↔ current.locals.length < UInt16.size)

end MethodBody

/-- What do the slots that are made for the parameters of a method stand for? -/
structure MethodDecl.ParameterSlots (decl : MethodDecl) : Prop where
  /-- The slot of a parameter is what is left of its position, with the receiver in front. -/
  toNat_argumentSlot : ∀ position,
    (decl.argumentSlot position).toNat = (position + decl.hasReceiver.toNat) % UInt16.size
  /-- It stands for the parameter exactly if there is a slot for its position. -/
  holdsParameter_iff : ∀ position,
    decl.HoldsParameter position ↔ position + decl.hasReceiver.toNat < UInt16.size
  /-- A slot that stands for a parameter holds it. -/
  parameterOfSlot?_eq : ∀ position, decl.HoldsParameter position →
    decl.parameterOfSlot? (decl.argumentSlot position) = decl.parameters[position]?

theorem BodyText.ReadsAs.localSlots {text : BodyText} {graph : Graph} {method : MethodDecl}
    {body : MethodBody} (reads : text.ReadsAs graph method body) (read : body.AsRead) :
    body.LocalSlots where
  localSlot_eq scope position entry named here :=
    ⟨_, MethodBody.localSlot_name reads.nodup_locals named here, UInt16.toNat_ofNat'⟩
  holdsLocal_iff scope position := MethodBody.holdsLocal_iff reads.nodup_locals
  listsLocals_iff scope here :=
    Scope.listsLocals_iff fun slot => by rw [read.slots_eq here]
  listsLocals_refreshDebugInfo_iff current sameLocals sameSlots scope here := by
    obtain ⟨before, there, slots⟩ := MethodBody.mem_slots_refreshDebugInfo here
    rw [there, Option.map_some] at sameSlots
    obtain ⟨first, loaded, same⟩ := Option.map_eq_some_iff.mp sameSlots.symm
    refine Scope.listsLocals_iff fun slot => ?_
    rw [slots, ← same, read.slots_eq loaded, sameLocals, or_self]

/-- In a loaded program, what is made for a position stands for it up to the last slot. -/
theorem Program.FromTexts.parameterSlots_and_localSlots {program : Program}
    (fromTexts : program.FromTexts) (method : MethodId) :
    (program.graph.method method).ParameterSlots ∧
      ∀ body, program.bodies.get? method = some body → body.LocalSlots := by
  refine ⟨⟨fun _ => UInt16.toNat_ofNat', fun _ => MethodDecl.holdsParameter_iff,
    fun _ => MethodDecl.HoldsParameter.parameterOfSlot?⟩, fun body present => ?_⟩
  obtain ⟨_, _, _, _, went⟩ := fromTexts.loaded.exists_readBody present
  exact (readBody_eq_ok_iff.mp went).localSlots (asRead_of_readBody went)

/-! ## One parameter and one local variable, and too many parameters -/

theorem Program.parameterSlots_and_localSlots_copy :
    let loaded := (Program.initial.load
      (".class public C\n.method public void M(object text)\n.locals (object copy)\n" ++
        "ldarg text\nstloc copy\nret\n.end\n.end\n")).2
    (loaded.bodies.get? ⟨13⟩).map (·.locals.length) = some 1 ∧
      (loaded.graph.method ⟨13⟩).ParameterSlots ∧
        ∀ body, loaded.bodies.get? ⟨13⟩ = some body → body.LocalSlots := by
  intro loaded
  exact ⟨by decide +kernel, (FromTexts.initial.load _).parameterSlots_and_localSlots ⟨13⟩⟩

/-- The last of so many parameters is given the slot of the receiver, which holds no parameter. -/
theorem MethodDecl.argumentSlot_tooMany :
    let decl : MethodDecl :=
      { owner := SystemLibrary.object
        name := "M"
        parameters :=
          List.replicate UInt16.size { name := "a", type := .named SystemLibrary.object } }
    decl.parameters.length = 65536 ∧ decl.argumentSlot 65535 = 0 ∧
      decl.parameterOfSlot? (decl.argumentSlot 65535) = none := by
  refine ⟨List.length_replicate .., rfl, rfl⟩

end NullWeave
