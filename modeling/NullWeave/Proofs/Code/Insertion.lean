import NullWeave.Proofs.Code.Redirection
import NullWeave.Proofs.Code.Reference
import NullWeave.Proofs.Code.Region
import NullWeave.Proofs.Sequence

/-!
# Code before a return point

A fragment that is put before an instruction takes over the references to it.
So a region that starts there starts at the fragment, and one that ends there
ends before the fragment: every region that holds the instruction holds the
fragment, and what was in a region or outside stays where it was.
-/

namespace NullWeave

/-! ## Regions by their handlers -/

/-- One of the two regions of a handler: what it protects, or itself. -/
inductive RegionKind where
  | protects
  | handles
deriving DecidableEq

/-- Where a region of a handler starts, and what follows it unless it goes to the end. -/
def ExceptionHandler.bounds (handler : ExceptionHandler) :
    RegionKind → InstrId × Option InstrId
  | .protects => (handler.tryStart, some handler.tryEnd)
  | .handles => (handler.handlerStart, handler.handlerEnd)

theorem ExceptionHandler.bounds_mapBoundaries
    (change : InstrId → InstrId) (handler : ExceptionHandler) (kind : RegionKind) :
    (handler.mapBoundaries change).bounds kind =
      (change (handler.bounds kind).1, (handler.bounds kind).2.map change) := by
  cases kind <;> rfl

theorem ExceptionHandler.fst_bounds_mem
    (handler : ExceptionHandler) (kind : RegionKind) :
    (handler.bounds kind).1 ∈ handler.boundaries := by
  cases kind <;> simp [bounds, boundaries]

theorem ExceptionHandler.snd_bounds_mem
    {handler : ExceptionHandler} {kind : RegionKind} {stop : InstrId}
    (bound : (handler.bounds kind).2 = some stop) : stop ∈ handler.boundaries := by
  cases kind with
  | protects =>
      cases bound
      simp [boundaries]
  | handles =>
      have last : handler.handlerEnd = some stop := bound
      simp [boundaries, last]

namespace MethodBody

/-- Does a region of the handler with a number hold an instruction? -/
def holds (body : MethodBody) (handler : Nat) (kind : RegionKind) (id : InstrId) : Bool :=
  (body.indexOf? id).any fun position =>
    body.handlers[handler]?.any fun found =>
      body.within (found.bounds kind).1 (found.bounds kind).2 position

/-! ## A fragment before an instruction -/

/--
Does a fragment stand in a body before an instruction of another body, with the
references to the instruction and in its regions, and is all else as it was?
-/
structure PutBefore (body : MethodBody) (point : InstrId) (fragment : List Instruction)
    (start : InstrId) (inserted : MethodBody) : Prop where
  order : ∃ front back,
    identities body.instructions = front ++ point :: back ∧
      identities inserted.instructions = front ++ identities fragment ++ point :: back
  kept : ∀ instruction ∈ body.instructions,
    instruction.mapTargets (redirected point start) ∈ inserted.instructions
  added : ∀ instruction ∈ fragment, instruction ∈ inserted.instructions
  handlers : inserted.handlers =
    body.handlers.map (·.mapBoundaries (redirected point start))
  references : ∀ reference id, body.named? reference = some id →
    inserted.named? reference = some (redirected point start id)
  regions : ∀ handler kind, ∀ id ∈ identities body.instructions,
    inserted.holds handler kind id = body.holds handler kind id
  fragmentRegions : ∀ handler kind, ∀ id ∈ identities fragment,
    inserted.holds handler kind id = body.holds handler kind point
  resolved : inserted.ensureResolved = .ok ()

/-! ## Positions -/

theorem indexOf?_eq_some_iff_identities
    {body : MethodBody} (distinct : (identities body.instructions).Nodup)
    {id : InstrId} {index : Nat} :
    body.indexOf? id = some index ↔ (identities body.instructions)[index]? = some id := by
  rw [indexOf?_eq_some_iff distinct, identities, List.getElem?_map, Option.map_eq_some_iff]

/-- Where a position is reached once some instructions stand before one position. -/
def entranceAt (index count position : Nat) : Nat :=
  if position ≤ index then position else position + count

/-- Where an instruction is once some instructions stand before one position. -/
def movedFrom (index count position : Nat) : Nat :=
  if position < index then position else position + count

theorem entranceAt_le_movedFrom_iff {index count position other : Nat} :
    entranceAt index count position ≤ movedFrom index count other ↔ position ≤ other := by
  grind [entranceAt, movedFrom]

theorem entranceAt_le_add_iff {index count position offset : Nat} (inside : offset < count) :
    entranceAt index count position ≤ index + offset ↔ position ≤ index := by
  grind [entranceAt]

section Insertion

variable {body : MethodBody} {front back fragment : List Instruction}
variable {point start : Instruction}

theorem insertBefore_of_split
    (split : body.instructions = front ++ point :: back)
    (first : fragment.head? = some start) :
    body.insertBefore front.length fragment =
      { body with
        instructions :=
          front.map (·.mapTargets (redirected point.id start.id)) ++ fragment ++
            (point :: back).map (·.mapTargets (redirected point.id start.id))
        handlers :=
          body.handlers.map (·.mapBoundaries (redirected point.id start.id)) } := by
  simp [insertBefore, redirect_eq, split, first]

/-- What is known of a fragment that is put before an instruction of a body. -/
structure Fits (body : MethodBody) (front back fragment : List Instruction)
    (point start : Instruction) : Prop where
  split : body.instructions = front ++ point :: back
  first : fragment.head? = some start
  distinct : (identities body.instructions).Nodup
  fresh : (identities body.instructions).Disjoint (identities fragment)
  distinctFragment : (identities fragment).Nodup
  resolved : body.ensureResolved = .ok ()
  targets : ∀ instruction ∈ fragment, ∀ id ∈ instruction.operation.targets,
    id ∈ identities body.instructions ∨ id ∈ identities fragment

namespace Fits

variable (fits : body.Fits front back fragment point start)

include fits

theorem instructions_insertBefore :
    (body.insertBefore front.length fragment).instructions =
      front.map (·.mapTargets (redirected point.id start.id)) ++ fragment ++
        (point :: back).map (·.mapTargets (redirected point.id start.id)) := by
  rw [insertBefore_of_split fits.split fits.first]

theorem handlers_insertBefore :
    (body.insertBefore front.length fragment).handlers =
      body.handlers.map (·.mapBoundaries (redirected point.id start.id)) := by
  rw [insertBefore_of_split fits.split fits.first]

theorem identities_split :
    identities body.instructions = identities front ++ point.id :: identities back := by
  rw [fits.split, identities_append, identities_cons]

theorem identities_insertBefore :
    identities (body.insertBefore front.length fragment).instructions =
      identities front ++ identities fragment ++ point.id :: identities back := by
  rw [fits.instructions_insertBefore, identities_append, identities_append,
    identities_map_mapTargets, identities_map_mapTargets, identities_cons]

theorem perm_identities :
    (identities (body.insertBefore front.length fragment).instructions).Perm
      (identities body.instructions ++ identities fragment) := by
  rw [fits.identities_insertBefore, fits.identities_split, List.append_assoc,
    List.append_assoc]
  exact List.perm_append_comm.append_left _

theorem distinct_insertBefore :
    (identities (body.insertBefore front.length fragment).instructions).Nodup := by
  rw [fits.perm_identities.nodup_iff]
  exact fits.distinct.append fits.distinctFragment fits.fresh

theorem mem_identities_insertBefore {id : InstrId} :
    id ∈ identities (body.insertBefore front.length fragment).instructions ↔
      id ∈ identities body.instructions ∨ id ∈ identities fragment := by
  rw [fits.perm_identities.mem_iff, List.mem_append]

theorem start_mem : start ∈ fragment := List.mem_of_mem_head? fits.first

theorem redirected_mem {id : InstrId} (member : id ∈ identities body.instructions) :
    redirected point.id start.id id ∈
      identities (body.insertBefore front.length fragment).instructions := by
  rw [fits.mem_identities_insertBefore, redirected]
  split
  · exact .inr (id_mem_identities fits.start_mem)
  · exact .inl member

theorem ne_point {id : InstrId}
    (apart : id ∈ identities front ∨ id ∈ identities back) : id ≠ point.id := by
  have distinct := fits.distinct
  rw [fits.identities_split, List.nodup_middle, List.nodup_cons, List.mem_append] at distinct
  rintro rfl
  exact distinct.1 apart

/-- A reference that is redirected is found where the insertion lets it enter. -/
theorem indexOf?_redirected {id : InstrId} (member : id ∈ identities body.instructions) :
    (body.insertBefore front.length fragment).indexOf? (redirected point.id start.id id) =
      (body.indexOf? id).map (entranceAt front.length fragment.length) := by
  obtain ⟨position, found⟩ := exists_indexOf?_of_mem member
  rw [found, Option.map_some, indexOf?_eq_some_iff_identities fits.distinct_insertBefore,
    fits.identities_insertBefore]
  rw [indexOf?_eq_some_iff_identities fits.distinct, fits.identities_split] at found
  have firstId : (identities fragment)[0]? = some start.id := by
    rw [identities, List.getElem?_map, ← List.head?_eq_getElem?, fits.first]
    rfl
  rw [entranceAt]
  rcases Nat.lt_trichotomy position front.length with before | rfl | behind
  · rw [List.getElem?_append_left (by simpa using before)] at found
    rw [redirected_of_ne _ (fits.ne_point (.inl (List.mem_of_getElem? found))),
      if_pos (Nat.le_of_lt before), List.append_assoc, List.getElem?_append_left (by simpa using before),
      found]
  · have here : id = point.id := by
      simpa [List.getElem?_append_right, eq_comm] using found
    rw [here, redirected_self, if_pos (Nat.le_refl _), List.append_assoc,
      List.getElem?_append_right (by simp), length_identities, Nat.sub_self,
      List.getElem?_append_left (by simpa using List.length_pos_of_mem fits.start_mem), firstId]
  · obtain ⟨offset, rfl⟩ := Nat.exists_eq_add_of_lt behind
    have later : (identities back)[offset]? = some id := by
      rwa [List.getElem?_append_right (by simp; omega), length_identities, Nat.add_assoc,
        Nat.add_sub_cancel_left, List.getElem?_cons_succ] at found
    rw [redirected_of_ne _ (fits.ne_point (.inr (List.mem_of_getElem? later))),
      if_neg (by omega), List.getElem?_append_right (by simp; omega), List.length_append,
      length_identities, length_identities]
    have shifted : front.length + offset + 1 + fragment.length -
        (front.length + fragment.length) = offset + 1 := by omega
    rw [shifted, List.getElem?_cons_succ, later]

/-- An instruction that was there is found where the insertion moves it. -/
theorem indexOf?_insertBefore {id : InstrId} (member : id ∈ identities body.instructions) :
    (body.insertBefore front.length fragment).indexOf? id =
      (body.indexOf? id).map (movedFrom front.length fragment.length) := by
  obtain ⟨position, found⟩ := exists_indexOf?_of_mem member
  rw [found, Option.map_some, indexOf?_eq_some_iff_identities fits.distinct_insertBefore,
    fits.identities_insertBefore]
  rw [indexOf?_eq_some_iff_identities fits.distinct, fits.identities_split] at found
  rw [movedFrom]
  split
  · rename_i before
    rw [List.getElem?_append_left (by simpa using before)] at found
    rw [List.append_assoc, List.getElem?_append_left (by simpa using before), found]
  · rename_i behind
    rw [List.getElem?_append_right (by simpa using behind), length_identities] at found
    rw [List.getElem?_append_right (by simp; omega), List.length_append, length_identities,
      length_identities, ← found]
    congr 1
    omega

/-- The fragment is found in front of the instruction. -/
theorem indexOf?_fragment {id : InstrId} (member : id ∈ identities fragment) :
    ∃ offset < fragment.length,
      (body.insertBefore front.length fragment).indexOf? id = some (front.length + offset) := by
  obtain ⟨offset, inside, rfl⟩ := List.getElem_of_mem member
  rw [length_identities] at inside
  refine ⟨offset, inside, ?_⟩
  rw [indexOf?_eq_some_iff_identities fits.distinct_insertBefore, fits.identities_insertBefore]
  grind [length_identities]

/-- A stretch holds a position where it held the one that has the same bounds before it. -/
theorem within_insertBefore {id : InstrId} {stop : Option InstrId}
    (member : id ∈ identities body.instructions)
    (stopMember : ∀ last, stop = some last → last ∈ identities body.instructions)
    {position other : Nat}
    (agree : ∀ bound, entranceAt front.length fragment.length bound ≤ other ↔
      bound ≤ position) :
    (body.insertBefore front.length fragment).within (redirected point.id start.id id)
        (stop.map (redirected point.id start.id)) other =
      body.within id stop position := by
  have under (bound : Nat) : other < entranceAt front.length fragment.length bound ↔
      position < bound := by
    rw [← Nat.not_le, agree, Nat.not_le]
  rw [within, within, fits.indexOf?_redirected member]
  cases stop with
  | none =>
      simp [Option.any_map, agree]
  | some last =>
      simp [Option.any_map, agree, under,
        fits.indexOf?_redirected (stopMember last rfl)]

/-! ## What an insertion leaves -/

theorem boundary_mem {handler : ExceptionHandler} (among : handler ∈ body.handlers)
    {id : InstrId} (bound : id ∈ handler.boundaries) : id ∈ identities body.instructions :=
  ensureResolved_eq_ok_iff.mp fits.resolved id
    (List.mem_append_right _ (List.mem_flatMap.mpr ⟨handler, among, bound⟩))

/-- Regions hold at one position what they held at another one with the same bounds before it. -/
theorem any_within_insertBefore {position other : Nat}
    (agree : ∀ bound, entranceAt front.length fragment.length bound ≤ other ↔
      bound ≤ position) (handler : Nat) (kind : RegionKind) :
    ((body.insertBefore front.length fragment).handlers[handler]?.any fun found =>
        (body.insertBefore front.length fragment).within
          (found.bounds kind).1 (found.bounds kind).2 other) =
      body.handlers[handler]?.any fun found =>
        body.within (found.bounds kind).1 (found.bounds kind).2 position := by
  rw [fits.handlers_insertBefore, List.getElem?_map]
  cases here : body.handlers[handler]? with
  | none =>
      rfl
  | some found =>
      have among := List.mem_of_getElem? here
      rw [Option.map_some, Option.any_some, Option.any_some, found.bounds_mapBoundaries]
      exact fits.within_insertBefore (fits.boundary_mem among (found.fst_bounds_mem kind))
        (fun last bound => fits.boundary_mem among (found.snd_bounds_mem bound)) agree

theorem holds_insertBefore (handler : Nat) (kind : RegionKind) {id : InstrId}
    (member : id ∈ identities body.instructions) :
    (body.insertBefore front.length fragment).holds handler kind id =
      body.holds handler kind id := by
  obtain ⟨position, found⟩ := exists_indexOf?_of_mem member
  rw [holds, holds, fits.indexOf?_insertBefore member, found, Option.map_some,
    Option.any_some, Option.any_some]
  exact fits.any_within_insertBefore (fun _ => entranceAt_le_movedFrom_iff) handler kind

theorem indexOf?_point : body.indexOf? point.id = some front.length :=
  indexOf?_of_split fits.distinct fits.split

theorem holds_fragment (handler : Nat) (kind : RegionKind) {id : InstrId}
    (member : id ∈ identities fragment) :
    (body.insertBefore front.length fragment).holds handler kind id =
      body.holds handler kind point.id := by
  obtain ⟨offset, inside, found⟩ := fits.indexOf?_fragment member
  rw [holds, holds, found, fits.indexOf?_point, Option.any_some, Option.any_some]
  exact fits.any_within_insertBefore (fun _ => entranceAt_le_add_iff inside) handler kind

theorem mem_insertBefore {instruction : Instruction} (member : instruction ∈ body.instructions) :
    instruction.mapTargets (redirected point.id start.id) ∈
      (body.insertBefore front.length fragment).instructions := by
  rw [fits.instructions_insertBefore, List.append_assoc, List.mem_append, List.mem_append]
  rw [fits.split, List.mem_append] at member
  exact member.imp List.mem_map_of_mem fun later => .inr (List.mem_map_of_mem later)

theorem mem_of_mem_fragment {instruction : Instruction} (member : instruction ∈ fragment) :
    instruction ∈ (body.insertBefore front.length fragment).instructions := by
  rw [fits.instructions_insertBefore]
  exact List.mem_append_left _ (List.mem_append_right _ member)

/-- What was named at a place is named there still, unless it is the instruction. -/
theorem named?_insertBefore {reference : Reference} {id : InstrId}
    (named : body.named? reference = some id) :
    (body.insertBefore front.length fragment).named? reference =
      some (redirected point.id start.id id) := by
  cases reference with
  | target source index =>
      obtain ⟨instruction, member, rfl, here⟩ := exists_of_named?_target named
      have found := named?_target fits.distinct_insertBefore (fits.mem_insertBefore member) index
      rw [Instruction.id_mapTargets] at found
      rw [found, Instruction.mapTargets, Operation.targets_mapTargets, List.getElem?_map, here,
        Option.map_some]
  | boundary handler index =>
      obtain ⟨found, here, bound⟩ := exists_of_named?_boundary named
      rw [named?, fits.handlers_insertBefore, List.getElem?_map, here, Option.map_some,
        Option.bind_some, ExceptionHandler.boundaries_mapBoundaries, List.getElem?_map, bound,
        Option.map_some]

theorem references_insertBefore {id : InstrId}
    (referenced : id ∈ (body.insertBefore front.length fragment).references) :
    (∃ old ∈ body.references, redirected point.id start.id old = id) ∨
      ∃ instruction ∈ fragment, id ∈ instruction.operation.targets := by
  rw [references, fits.instructions_insertBefore, fits.handlers_insertBefore,
    List.flatMap_append, List.flatMap_append] at referenced
  simp only [List.flatMap_map, Instruction.mapTargets, Operation.targets_mapTargets,
    ExceptionHandler.boundaries_mapBoundaries, ← List.map_flatMap, List.mem_append,
    List.mem_map, List.mem_flatMap] at referenced
  rw [references, fits.split]
  simp only [List.flatMap_append, List.mem_append, List.mem_flatMap]
  grind

theorem ensureResolved_insertBefore :
    (body.insertBefore front.length fragment).ensureResolved = .ok () := by
  refine ensureResolved_eq_ok_iff.mpr fun id referenced => ?_
  rcases fits.references_insertBefore referenced with
    ⟨old, named, rfl⟩ | ⟨instruction, member, target⟩
  · exact fits.redirected_mem (ensureResolved_eq_ok_iff.mp fits.resolved old named)
  · exact fits.mem_identities_insertBefore.mpr (fits.targets instruction member id target)

end Fits

end Insertion

/--
A fragment that is put before an instruction takes over the references to it and
stands in its regions.  All else stays as it was, and every reference resolves.
-/
theorem putBefore_insertBefore {body : MethodBody}
    (distinct : (identities body.instructions).Nodup)
    (resolved : body.ensureResolved = .ok ())
    {index : Nat} {point : Instruction} (here : body.instructions[index]? = some point)
    {start : Instruction} {rest : List Instruction}
    (fresh : ∀ id ∈ identities (start :: rest), id ∉ identities body.instructions)
    (distinctFragment : (identities (start :: rest)).Nodup)
    (targets : ∀ instruction ∈ start :: rest, ∀ id ∈ instruction.operation.targets,
      id ∈ identities body.instructions ∨ id ∈ identities (start :: rest)) :
    body.PutBefore point.id (start :: rest) start.id
      (body.insertBefore index (start :: rest)) := by
  obtain ⟨front, back, split, rfl⟩ := exists_split_of_getElem? here
  have fits : body.Fits front back (start :: rest) point start :=
    { split
      first := rfl
      distinct
      fresh := fun id member inside => fresh id inside member
      distinctFragment
      resolved
      targets }
  exact
    { order := ⟨_, _, fits.identities_split, fits.identities_insertBefore⟩
      kept := fun _ => fits.mem_insertBefore
      added := fun _ => fits.mem_of_mem_fragment
      handlers := fits.handlers_insertBefore
      references := fun _ _ => fits.named?_insertBefore
      regions := fun handler kind _ => fits.holds_insertBefore handler kind
      fragmentRegions := fun handler kind _ => fits.holds_fragment handler kind
      resolved := fits.ensureResolved_insertBefore }

/-- A body in which one region ends at an instruction, one starts there, and one goes past it. -/
def sharedBound : MethodBody where
  instructions := numberFrom .first [.nop, .branch .always .long ⟨2⟩, .nop, .ret]
  handlers :=
    [{ kind := .finally, tryStart := ⟨0⟩, tryEnd := ⟨2⟩, handlerStart := ⟨2⟩, handlerEnd := none },
      { kind := .finally, tryStart := ⟨1⟩, tryEnd := ⟨3⟩, handlerStart := ⟨3⟩,
        handlerEnd := none }]
  nextId := ⟨4⟩

theorem putBefore_insertBefore_sharedBound :
    sharedBound.PutBefore ⟨2⟩ [⟨⟨4⟩, .dup⟩, ⟨⟨5⟩, .branch .ifTrue .long ⟨2⟩⟩] ⟨4⟩
      (sharedBound.insertBefore 2 [⟨⟨4⟩, .dup⟩, ⟨⟨5⟩, .branch .ifTrue .long ⟨2⟩⟩]) := by
  refine @putBefore_insertBefore sharedBound ?_ rfl 2 ⟨⟨2⟩, .nop⟩ rfl _ _ ?_ ?_ ?_ <;> decide

end MethodBody

end NullWeave
