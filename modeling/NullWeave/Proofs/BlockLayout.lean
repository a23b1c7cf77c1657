import Mathlib.Data.List.Perm.Basic
import Mathlib.Logic.Equiv.Basic

/-!
# Blocks of consecutive numbers

Things that are numbered in the order in which they come get other numbers when
they come in another order.  If they come in blocks, and only whole blocks
change places, then one change of numbers takes each block to where it is in the
other order, and leaves the numbers before the first block and after the last.
-/

namespace NullWeave

section BlockLayout

variable {α β : Type} {size : α → Nat} {lay : Nat → α → β}
variable {move : Equiv.Perm Nat → β → β}

/-- Blocks one after another, from a first number on. -/
def layOut (size : α → Nat) (lay : Nat → α → β) (next : Nat) : List α → List β
  | [] => []
  | block :: rest => lay next block :: layOut size lay (next + size block) rest

/-- How many numbers blocks take. -/
def totalSize (size : α → Nat) : List α → Nat
  | [] => 0
  | block :: rest => size block + totalSize size rest

theorem totalSize_eq_of_perm {blocks order : List α} (reordered : blocks.Perm order) :
    totalSize size blocks = totalSize size order := by
  induction reordered with
  | nil =>
      rfl
  | cons block _ inductionHypothesis =>
      rw [totalSize, totalSize, inductionHypothesis]
  | swap first second rest =>
      simp only [totalSize]
      omega
  | trans _ _ firstHypothesis secondHypothesis =>
      exact firstHypothesis.trans secondHypothesis

theorem totalSize_map {rename : α → α} (same : ∀ block, size (rename block) = size block)
    (blocks : List α) : totalSize size (blocks.map rename) = totalSize size blocks := by
  induction blocks with
  | nil =>
      rfl
  | cons block rest inductionHypothesis =>
      rw [List.map_cons, totalSize, totalSize, same, inductionHypothesis]

/-- Numbers that move together stay one after another. -/
theorem map_range'_of_moves {change : Nat → Nat} {start goal length : Nat}
    (moves : ∀ offset < length, change (start + offset) = goal + offset) :
    (List.range' start length).map change = List.range' goal length := by
  rw [List.range'_eq_map_range, List.range'_eq_map_range, List.map_map]
  exact List.map_congr_left fun offset inside => moves offset (List.mem_range.mp inside)

/-- Two neighbouring blocks of numbers change places. -/
def swapBlocks (start first second : Nat) : Equiv.Perm Nat where
  toFun number :=
    if number < start then number
    else if number < start + first then number + second
    else if number < start + first + second then number - first
    else number
  invFun number :=
    if number < start then number
    else if number < start + second then number + first
    else if number < start + first + second then number - second
    else number
  left_inv number := by grind
  right_inv number := by grind

theorem swapBlocks_first {start first second offset : Nat} (inside : offset < first) :
    swapBlocks start first second (start + offset) = start + second + offset := by
  have notBefore : ¬ start + offset < start := by omega
  have inFirst : start + offset < start + first := by omega
  simp only [swapBlocks, Equiv.coe_fn_mk, notBefore, inFirst, if_false, if_true]
  omega

theorem swapBlocks_second {start first second offset : Nat} (inside : offset < second) :
    swapBlocks start first second (start + first + offset) = start + offset := by
  have notBefore : ¬ start + first + offset < start := by omega
  have notFirst : ¬ start + first + offset < start + first := by omega
  have inSecond : start + first + offset < start + first + second := by omega
  simp only [swapBlocks, Equiv.coe_fn_mk, notBefore, notFirst, inSecond, if_false, if_true]
  omega

theorem swapBlocks_before {start first second number : Nat} (before : number < start) :
    swapBlocks start first second number = number := by
  simp only [swapBlocks, Equiv.coe_fn_mk, before, if_true]

theorem swapBlocks_behind {start first second number : Nat}
    (behind : start + first + second ≤ number) :
    swapBlocks start first second number = number := by
  have notBefore : ¬ number < start := by omega
  have notFirst : ¬ number < start + first := by omega
  have notSecond : ¬ number < start + first + second := by omega
  simp only [swapBlocks, Equiv.coe_fn_mk, notBefore, notFirst, notSecond, if_false]

theorem layOut_map {rename : α → α} {change : β → β}
    (same : ∀ block, size (rename block) = size block)
    (lays : ∀ start block, lay start (rename block) = change (lay start block)) (next : Nat)
    (blocks : List α) :
    layOut size lay next (blocks.map rename) = (layOut size lay next blocks).map change := by
  induction blocks generalizing next with
  | nil =>
      rfl
  | cons block rest inductionHypothesis =>
      rw [List.map_cons, layOut, layOut, List.map_cons, lays, same, inductionHypothesis]

/-- A change of numbers that leaves those from a number on leaves the blocks from there on. -/
theorem map_layOut_of_fixed
    (moves : ∀ change start goal block,
      (∀ offset < size block, change (start + offset) = goal + offset) →
        move change (lay start block) = lay goal block)
    {change : Equiv.Perm Nat} {next : Nat} (fixed : ∀ number, next ≤ number →
      change number = number) (blocks : List α) :
    (layOut size lay next blocks).map (move change) = layOut size lay next blocks := by
  induction blocks generalizing next with
  | nil =>
      rfl
  | cons block rest inductionHypothesis =>
      rw [layOut, List.map_cons,
        inductionHypothesis fun number behind => fixed number (by omega),
        moves change next next block fun offset _ => fixed (next + offset) (by omega)]

/-- Where blocks come in another order, a change of numbers takes each to its new place. -/
theorem exists_perm_layOut
    (moves : ∀ change start goal block,
      (∀ offset < size block, change (start + offset) = goal + offset) →
        move change (lay start block) = lay goal block)
    (composes : ∀ first second laid,
      move second (move first laid) = move (first.trans second) laid)
    {blocks order : List α} (reordered : blocks.Perm order) (next : Nat) :
    ∃ change : Equiv.Perm Nat,
      (∀ number < next, change number = number) ∧
        (∀ number, next + totalSize size blocks ≤ number → change number = number) ∧
          (layOut size lay next order).Perm
            ((layOut size lay next blocks).map (move change)) := by
  induction reordered generalizing next with
  | nil =>
      exact ⟨Equiv.refl Nat, fun _ _ => rfl, fun _ _ => rfl, .refl _⟩
  | @cons block blocks order _ inductionHypothesis =>
      obtain ⟨change, before, behind, moved⟩ := inductionHypothesis (next + size block)
      refine ⟨change, fun number less => before number (by omega), fun number beyond => ?_, ?_⟩
      · rw [totalSize] at beyond
        exact behind number (by omega)
      · rw [layOut, layOut, List.map_cons,
          moves change next next block fun offset inside => before _ (by omega)]
        exact moved.cons _
  | swap first second rest =>
      refine ⟨swapBlocks next (size second) (size first), fun _ => swapBlocks_before,
        fun number beyond => ?_, ?_⟩
      · simp only [totalSize] at beyond
        exact swapBlocks_behind (by omega)
      · simp only [layOut, List.map_cons]
        rw [moves _ next (next + size first) second fun offset => swapBlocks_first,
          moves _ (next + size second) next first fun offset => swapBlocks_second,
          map_layOut_of_fixed moves fun number => swapBlocks_behind,
          Nat.add_right_comm next (size first)]
        exact .swap _ _ _
  | trans early _ firstHypothesis secondHypothesis =>
      obtain ⟨first, beforeFirst, behindFirst, movedFirst⟩ := firstHypothesis next
      obtain ⟨second, beforeSecond, behindSecond, movedSecond⟩ := secondHypothesis next
      rw [← totalSize_eq_of_perm early] at behindSecond
      refine ⟨first.trans second, fun number less => ?_, fun number beyond => ?_, ?_⟩
      · rw [Equiv.trans_apply, beforeFirst number less, beforeSecond number less]
      · rw [Equiv.trans_apply, behindFirst number beyond, behindSecond number beyond]
      · refine movedSecond.trans ((movedFirst.map (move second)).trans ?_)
        rw [List.map_map]
        exact .of_eq (List.map_congr_left fun laid _ => composes first second laid)

end BlockLayout

end NullWeave
