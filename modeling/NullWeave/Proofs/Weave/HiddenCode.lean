import Mathlib.Data.List.NodupEquivFin
import NullWeave.Proofs.Code.PointOrder
import NullWeave.Proofs.Text.LoadedProgram
import NullWeave.Proofs.Weave.Rewriting

/-!
# Woven code is hidden from debuggers

A guard in a body that has sequence points gets one of its own, a hidden one on
its first instruction.  The points that were there stay, and all of them are put
in the order of the instructions.  Between the first instruction of a guard and
any new instruction behind it no point of the original body stands, as there is
nothing but new code between them.  So a debugger steps over all that is new.
-/

namespace NullWeave

/-! ## What debuggers see of a new body -/

/-- The last sequence point at or before the last one of some instructions. -/
def MethodBody.coveringPoint?
    (body : MethodBody) (upTo : List Instruction) :
    Option SequencePoint :=
  (body.debugInfo.points.filter
    fun point => point.instruction ∈ identities upTo).getLast?

/-- The debug information of a new body, which has guards that the old one has not. -/
structure HidesGuards
    (debugBuild : Bool) (body new : MethodBody)
    (placed : List PlacedGuard) : Prop where
  /-- The new instructions are those of the guards. -/
  added :
    (withoutTargets (widenBranches new.instructions)).Perm
      (withoutTargets (widenBranches body.instructions) ++
        addedCode debugBuild placed)
  /-- A guard has a hidden point on its first instruction, and no other point is new. -/
  points :
    new.debugInfo.points.Perm
      (body.debugInfo.points ++
        hiddenPoints body.debugInfo.document? placed)
  kept : body.debugInfo.points.Sublist new.debugInfo.points
  ordered : InOrder new.instructions new.debugInfo.points
  /-- Where a point covers anything, a hidden one covers what is new. -/
  covered : body.debugInfo.points ≠ [] →
    ∀ front instruction back,
      new.instructions = front ++ instruction :: back →
        body.nextId.number ≤ instruction.id.number →
          ∃ point,
            new.coveringPoint? (front ++ [instruction]) = some point ∧
              point.isHidden = true
  /-- The scope covers the whole body and lists every local variable once. -/
  scope : body.debugInfo.points ≠ [] →
    body.locals.length < UInt16.size →
      ∃ first last slots,
        new.instructions.head? = some first ∧
          new.instructions.getLast? = some last ∧
          new.debugInfo.scope = some ⟨first.id, last.id, slots⟩ ∧
          slots.map (·.toNat) = List.range new.locals.length

/-! ## Points of a body that was read -/

namespace MethodBody.AsRead

variable {body : MethodBody}

theorem placeOf_eq
    (read : body.AsRead) {id : InstrId}
    (member : id ∈ identities body.instructions) :
    placeOf body.instructions id = id.number := by
  have below := read.wellFormed.number_lt member
  rw [read.nextId] at below
  have there := read.getElem?_identities id.number below
  obtain ⟨inside, found⟩ := List.getElem?_eq_some_iff.mp there
  rw [placeOf, ← List.Nodup.idxOf_getElem read.wellFormed.distinct
    id.number inside, found]

theorem inOrder (read : body.AsRead) :
    InOrder body.instructions body.debugInfo.points := by
  refine List.Pairwise.imp_of_mem ?_ read.points.ordered
  intro left right leftMember rightMember before
  rw [read.placeOf_eq (read.points.present left leftMember),
    read.placeOf_eq (read.points.present right rightMember)]
  exact before

/-- A body with sequence points has instructions, and its scope covers them. -/
theorem exists_scope
    (read : body.AsRead) (pointed : body.debugInfo.points ≠ []) :
    ∃ first last,
      body.instructions.head? = some first ∧
        body.instructions.getLast? = some last ∧
        body.debugInfo.scope =
          some ⟨first.id, last.id, slotsBelow body.locals.length⟩ := by
  obtain ⟨point, rest, points⟩ := List.exists_cons_of_ne_nil pointed
  have present := read.points.present point (by simp [points])
  have scope := read.scope
  rw [wholeScope?, points] at scope
  cases instructions : body.instructions with
  | nil =>
      rw [instructions] at present
      cases present
  | cons first others =>
      obtain ⟨last, ends⟩ :
          ∃ last, (first :: others).getLast? = some last :=
        ⟨_, List.getLast?_eq_getLast_of_ne_nil (List.cons_ne_nil _ _)⟩
      refine ⟨first, last, rfl, ends, ?_⟩
      rw [scope, instructions, ends]
      rfl

end MethodBody.AsRead

/-! ## Points of a body with guards -/

theorem placeOf_eq_of_getElem?
    {instructions : List Instruction}
    (distinct : (identities instructions).Nodup)
    {id : InstrId} {index : Nat}
    (there : (identities instructions)[index]? = some id) :
    placeOf instructions id = index := by
  obtain ⟨inside, rfl⟩ := List.getElem?_eq_some_iff.mp there
  exact distinct.idxOf_getElem index inside

/-- Points that are in order stay so when instructions are put in. -/
theorem InOrder.of_sublist
    {before after : List Instruction} {points : List SequencePoint}
    (ordered : InOrder before points)
    (distinct : (identities after).Nodup)
    (among : (identities before).Sublist (identities after))
    (present : ∀ point ∈ points,
      point.instruction ∈ identities before) :
    InOrder after points := by
  obtain ⟨position, same⟩ :=
    List.sublist_iff_exists_orderEmbedding_getElem?_eq.mp among
  have moved : ∀ id ∈ identities before,
      placeOf after id = position (placeOf before id) := by
    intro id member
    have inside := List.idxOf_lt_length_iff.mpr member
    refine placeOf_eq_of_getElem? distinct ?_
    rw [← same, placeOf, List.getElem?_eq_getElem inside,
      List.getElem_idxOf inside]
  refine List.Pairwise.imp_of_mem ?_ ordered
  intro left right leftMember rightMember earlier
  rw [moved _ (present left leftMember),
    moved _ (present right rightMember)]
  exact position.monotone earlier

/-- The last of the points that satisfy a test stands no earlier than any other. -/
theorem InOrder.exists_last
    {instructions : List Instruction} {points : List SequencePoint}
    (ordered : InOrder instructions points)
    {test : SequencePoint → Bool} {point : SequencePoint}
    (member : point ∈ points.filter test) :
    ∃ last, (points.filter test).getLast? = some last ∧
      placeOf instructions point.instruction ≤
        placeOf instructions last.instruction := by
  have sorted := List.Pairwise.filter test ordered
  obtain ⟨last, ends⟩ :=
    Option.isSome_iff_exists.mp
      (List.getLast?_isSome.mpr (List.ne_nil_of_mem member))
  obtain ⟨others, filtered⟩ := List.getLast?_eq_some_iff.mp ends
  refine ⟨last, ends, ?_⟩
  rw [filtered] at member sorted
  rcases List.mem_append.mp member with before | here
  · exact (List.pairwise_append.mp sorted).2.2 point before last (by simp)
  · rw [List.mem_singleton.mp here]

section Covering

variable
    {body new : MethodBody} {placed : List PlacedGuard}
    {front back : List Instruction} {instruction : Instruction}

/-- From the first instruction of some guard up to a new instruction there is new code only. -/
theorem exists_guard_before
    (distinct : (identities new.instructions).Nodup)
    (hangs : GuardTrace.HangsTogether body.nextId (placed.map (·.start))
      (identities new.instructions))
    (split : new.instructions = front ++ instruction :: back)
    (added : body.nextId.number ≤ instruction.id.number) :
    ∃ guard ∈ placed,
      guard.start ∈ identities (front ++ [instruction]) ∧
        ∀ id ∈ identities (front ++ [instruction]),
          placeOf new.instructions guard.start ≤
              placeOf new.instructions id →
            body.nextId.number ≤ id.number := by
  have stands :
      identities new.instructions =
        identities front ++ instruction.id :: identities back := by
    rw [split, identities_append, identities_cons]
  obtain ⟨earlier, start, later, upTo, starts, late⟩ :=
    (stands ▸ hangs).exists_start added
  obtain ⟨guard, among, rfl⟩ := List.mem_map.mp starts
  have upTo :
      identities (front ++ [instruction]) =
        earlier ++ guard.start :: later := by
    simpa using upTo
  have whole :
      identities new.instructions =
        earlier ++ (guard.start :: later ++ identities back) := by
    rw [stands, ← List.append_assoc, ← upTo]
    simp
  have startPlace :
      placeOf new.instructions guard.start = earlier.length := by
    refine placeOf_eq_of_getElem? distinct ?_
    rw [whole, List.getElem?_append_right (Nat.le_refl _)]
    simp
  refine ⟨guard, among, by simp [upTo], fun id member behind => ?_⟩
  rw [upTo] at member
  rcases List.mem_append.mp member with before | fresh
  · have sooner : placeOf new.instructions id < earlier.length := by
      rw [placeOf, whole, List.idxOf_append_of_mem before]
      exact List.idxOf_lt_length_iff.mpr before
    omega
  · exact late id fresh

/-- A new instruction is covered by a hidden point. -/
theorem exists_coveringPoint
    (wellFormed : body.WellFormed)
    (distinct : (identities new.instructions).Nodup)
    (hangs : GuardTrace.HangsTogether body.nextId (placed.map (·.start))
      (identities new.instructions))
    (present : ∀ point ∈ body.debugInfo.points,
      point.instruction ∈ identities body.instructions)
    {document : String}
    (points : new.debugInfo.points.Perm
      (body.debugInfo.points ++ hiddenPoints (some document) placed))
    (ordered : InOrder new.instructions new.debugInfo.points)
    (split : new.instructions = front ++ instruction :: back)
    (added : body.nextId.number ≤ instruction.id.number) :
    ∃ point,
      new.coveringPoint? (front ++ [instruction]) = some point ∧
        point.isHidden = true := by
  obtain ⟨guard, among, upTo, behind⟩ :=
    exists_guard_before distinct hangs split added
  have hidden :
      SequencePoint.hidden guard.start document ∈
        new.debugInfo.points.filter fun point =>
          point.instruction ∈ identities (front ++ [instruction]) := by
    refine List.mem_filter.mpr ⟨points.mem_iff.mpr
      (List.mem_append_right _ ?_), decide_eq_true upTo⟩
    simpa [hiddenPoints] using ⟨guard, among, rfl⟩
  obtain ⟨last, covers, later⟩ := ordered.exists_last hidden
  obtain ⟨lastPoint, lastUpTo⟩ :=
    List.mem_filter.mp (List.mem_of_getLast? covers)
  have new' := behind last.instruction (of_decide_eq_true lastUpTo) later
  refine ⟨last, covers, ?_⟩
  rcases List.mem_append.mp (points.mem_iff.mp lastPoint) with old | inGuard
  · have below := wellFormed.number_lt (present last old)
    omega
  · obtain ⟨other, -, rfl⟩ :
        ∃ other ∈ placed,
          SequencePoint.hidden other.start document = last := by
      simpa [hiddenPoints] using inGuard
    exact SequencePoint.isHidden_hidden _ _

end Covering

/-! ## New bodies hide their guards -/

/-- A body hides what it does not have. -/
theorem MethodBody.AsRead.hidesNothing
    {body : MethodBody} (read : body.AsRead) (debugBuild : Bool) :
    HidesGuards debugBuild body body [] where
  added := by
    simp [addedCode]
  points := by
    cases body.debugInfo.document? <;> simp [hiddenPoints]
  kept := List.Sublist.refl _
  ordered := read.inOrder
  covered := by
    intro _ front instruction back split added
    have old := read.wellFormed.issued instruction (by simp [split])
    omega
  scope := by
    intro pointed small
    obtain ⟨first, last, head, ends, scope⟩ := read.exists_scope pointed
    exact ⟨first, last, _, head, ends, scope, map_toNat_slotsBelow small⟩

section Hiding

variable
    {graph : Graph} {settings : Settings} {body new : MethodBody}
    {guarded : GuardedBody} {layout : GuardLayout}
    {placed : List PlacedGuard}

theorem Rewritten.debugInfo_eq
    (rewritten : Rewritten graph settings body new guarded layout) :
    new.debugInfo =
      guarded.body.debugInfo.update new.instructions
        new.locals.length := by
  obtain ⟨initLocals, rfl⟩ := rewritten.finishes
  rfl

/-- The points of a new body are the old ones and those of the guards, put in order. -/
theorem Rewritten.points_eq
    (rewritten : Rewritten graph settings body new guarded layout)
    (trace : GuardTrace (MethodContext.style settings body) body.widen
      placed guarded.body) :
    new.debugInfo.points =
      DebugInfo.orderPoints new.instructions
        (body.debugInfo.points ++
          hiddenPoints body.debugInfo.document? placed) := by
  rw [rewritten.debugInfo_eq, DebugInfo.update, trace.points_eq.1]
  rfl

/-- All these points stand on instructions of the new body. -/
theorem Rewritten.present
    (rewritten : Rewritten graph settings body new guarded layout)
    (trace : GuardTrace (MethodContext.style settings body) body.widen
      placed guarded.body)
    (stand : ∀ point ∈ body.debugInfo.points,
      point.instruction ∈ identities body.instructions) :
    ∀ point ∈ body.debugInfo.points ++
        hiddenPoints body.debugInfo.document? placed,
      point.instruction ∈ identities new.instructions := by
  intro point member
  rw [rewritten.identities_eq, trace.mem_identities_iff]
  rcases List.mem_append.mp member with old | hidden
  · exact .inl (by simpa using stand point old)
  · obtain ⟨document, -, inGuard⟩ := List.mem_flatMap.mp hidden
    obtain ⟨guard, among, rfl⟩ := List.mem_map.mp inGuard
    exact .inr ⟨guard, among, guard.start_mem_code _ _⟩

/-- A scope that covers a body covers its new body. -/
theorem Rewritten.exists_scope
    (rewritten : Rewritten graph settings body new guarded layout)
    (read : body.AsRead) (pointed : body.debugInfo.points ≠ [])
    (small : body.locals.length < UInt16.size) :
    ∃ first last slots,
      new.instructions.head? = some first ∧
        new.instructions.getLast? = some last ∧
        new.debugInfo.scope = some ⟨first.id, last.id, slots⟩ ∧
        slots.map (·.toNat) = List.range new.locals.length := by
  obtain ⟨placed, trace, -⟩ := rewritten.comesFrom
  obtain ⟨start, finish, head, -, scope⟩ := read.exists_scope pointed
  have locals : new.locals = body.locals := rewritten.describes.locals
  have inhabited : new.instructions ≠ [] := by
    have old : start.id ∈ identities body.widen.instructions := by
      simpa using id_mem_identities (List.mem_of_mem_head? head)
    have there :=
      rewritten.identities_eq ▸ trace.sublist.subset old
    intro empty
    rw [empty] at there
    cases there
  obtain ⟨first, rest, cons⟩ := List.exists_cons_of_ne_nil inhabited
  have head' : new.instructions.head? = some first := by
    rw [cons]
    rfl
  have ends := List.getLast?_eq_some_getLast inhabited
  refine ⟨first, _, slotsBelow new.locals.length, head', ends, ?_,
    map_toNat_slotsBelow (locals ▸ small)⟩
  rw [rewritten.debugInfo_eq, DebugInfo.update, trace.points_eq.2,
    show body.widen.debugInfo.scope = body.debugInfo.scope from rfl,
    scope, ← locals]
  exact congrArg some (cover_wholeScope head' ends _ _ _)

/-- A body that is rewritten hides the guards that it gets. -/
theorem Rewritten.hidesGuards
    (rewritten : Rewritten graph settings body new guarded layout)
    (read : body.AsRead) :
    ∃ placed, HidesGuards settings.debugBuild body new placed := by
  obtain ⟨placed, trace, -⟩ := rewritten.comesFrom
  have wellFormed := read.wellFormed
  have distinct := (rewritten.wellFormed wellFormed).distinct
  have points := rewritten.points_eq trace
  have present := rewritten.present trace read.points.present
  have ordered : InOrder new.instructions new.debugInfo.points :=
    points ▸ inOrder_orderPoints distinct present
  have perm :
      new.debugInfo.points.Perm
        (body.debugInfo.points ++
          hiddenPoints body.debugInfo.document? placed) :=
    points ▸ orderPoints_perm distinct present
  refine ⟨placed, ?_, perm, ?_, ordered, ?_, rewritten.exists_scope read⟩
  · have added := trace.perm_widenBranches
    rw [MethodBody.instructions_widen, widenBranches_widenBranches]
      at added
    rw [rewritten.widenBranches_eq]
    exact added
  · rw [points]
    refine sublist_orderPoints distinct present ?_
      (List.sublist_append_left _ _)
    refine read.inOrder.of_sublist distinct ?_ read.points.present
    rw [rewritten.identities_eq,
      ← identities_widenBranches body.instructions]
    exact trace.sublist
  · intro pointed front instruction back split added
    obtain ⟨first, rest, cons⟩ := List.exists_cons_of_ne_nil pointed
    have document :
        body.debugInfo.document? = some first.document := by
      simp [DebugInfo.document?, cons]
    rw [document] at perm
    refine exists_coveringPoint wellFormed distinct ?_
      read.points.present perm ordered split added
    rw [rewritten.identities_eq]
    exact trace.hangsTogether wellFormed.widen

end Hiding

/--
Debug information survives weaving and hides what is woven in.

This holds of every body of a loaded program, whether weaving a method rewrites
it as the body of the method or as that of a state machine, or leaves it alone.
-/
theorem Weaver.weaveMethod_hides_guards
    {program : Program} (loaded : program.Loaded) (settings : Settings)
    (method : MethodId) (state final : WeaveState)
    (ran : (weaveMethod program.graph settings method).run state =
      (.ok (), final))
    (other : MethodId) (body new : MethodBody)
    (read : program.bodies.get? other = some body)
    (present : state.bodies.get? other = some body)
    (now : final.bodies.get? other = some new) :
    ∃ placed, HidesGuards settings.debugBuild body new placed := by
  have asRead := loaded.asRead read
  rcases get?_of_run_weaveMethod ran other with
    same | ⟨old, made, there, here, rewrites⟩
  · cases (now.symm.trans same).trans present
    exact ⟨[], asRead.hidesNothing settings.debugBuild⟩
  · cases present.symm.trans there
    cases now.symm.trans here
    obtain ⟨guarded, layout, rewritten⟩ :=
      rewrites.exists_rewritten asRead.wellFormed
    exact rewritten.hidesGuards asRead

open EchoProgram in
theorem Weaver.weaveMethod_hides_guards_echo :
    ∃ (final : WeaveState) (new : MethodBody)
      (placed : List PlacedGuard),
      (weaveMethod program.graph {} echo).run
          { bodies := program.bodies } = (.ok (), final) ∧
        final.bodies.get? echo = some new ∧
        body.debugInfo.points.map (·.startLine) = [3, 4] ∧
        new.instructions.length = 16 ∧
        HidesGuards false body new placed := by
  have ran :=
    run_eq_of_isOk
      (show ((weaveMethod program.graph {} echo).run
        { bodies := program.bodies }).1.isOk = true by decide +kernel)
  have size :
      (((weaveMethod program.graph {} echo).run
        { bodies := program.bodies }).2.bodies.get? echo).map
          (·.instructions.length) = some 16 := by
    decide +kernel
  have present : program.bodies.get? echo = some body :=
    Bodies.get?_set_self _ _ _
  obtain ⟨new, now, length⟩ := Option.map_eq_some_iff.mp size
  obtain ⟨placed, hides⟩ :=
    weaveMethod_hides_guards loaded {} echo { bodies := program.bodies } _
      ran echo body new present present now
  exact ⟨_, new, placed, ran, now, by decide +kernel, length, hides⟩

end NullWeave
