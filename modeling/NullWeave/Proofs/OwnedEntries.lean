import Mathlib.Data.List.Nodup
import NullWeave.Proofs.BlockLayout

/-!
# Tables filled block by block

A table gets its entries one after another, and the number of an entry is its
place.  Where the entries of each owner are put in together, in a block, another
order of the blocks gives other numbers.  One change of numbers then takes every
entry to where it is in the other table, and the numbers of the entries of each
owner, in order, to those of the same owner.
-/

namespace NullWeave

/-! ## Blocks of entries -/

section Blocks

variable {α δ : Type} (entries : α → List δ)

/-- A table with the entries of blocks behind its own. -/
def fill (table : Array δ) (blocks : List α) : Array δ :=
  table ++ (blocks.flatMap entries).toArray

/-- Blocks with the numbers that their entries get, from the next free one on. -/
def placeBlocks (next : Nat) (blocks : List α) : List (α × List Nat) :=
  layOut (fun block => (entries block).length)
    (fun start block => (block, List.range' start (entries block).length)) next blocks

variable {entries}

theorem fill_cons (table : Array δ) (block : α) (rest : List α) :
    fill entries table (block :: rest) =
      fill entries (table ++ (entries block).toArray) rest := by
  simp [fill]

theorem size_append_toArray (table : Array δ) (more : List δ) :
    (table ++ more.toArray).size = table.size + more.length := by
  simp

theorem size_fill (table : Array δ) (blocks : List α) :
    (fill entries table blocks).size =
      table.size + totalSize (fun block => (entries block).length) blocks := by
  induction blocks generalizing table with
  | nil =>
      simp [fill, totalSize]
  | cons block rest inductionHypothesis =>
      rw [fill_cons, inductionHypothesis, totalSize, size_append_toArray, Nat.add_assoc]

theorem getD_mem_of_lt [Inhabited δ] {table : Array δ} {number : Nat}
    (inside : number < table.size) : table.getD number default ∈ table := by
  rw [Array.getD, dif_pos inside]
  exact Array.getElem_mem _

theorem getD_of_size_le [Inhabited δ] {table : Array δ} {number : Nat}
    (beyond : table.size ≤ number) : table.getD number default = default := by
  rw [Array.getD, dif_neg (Nat.not_lt.mpr beyond)]

theorem getD_fill_of_lt [Inhabited δ] (table : Array δ) (blocks : List α) {number : Nat}
    (inside : number < table.size) :
    (fill entries table blocks).getD number default = table.getD number default := by
  simp [fill, Array.getElem?_append, inside]

/-- A block holds what is found at its numbers. -/
theorem map_getD_of_mem_placeBlocks [Inhabited δ] {table : Array δ} {blocks : List α}
    {block : α} {numbers : List Nat}
    (placed : (block, numbers) ∈ placeBlocks entries table.size blocks) :
    numbers.map (fun number => (fill entries table blocks).getD number default) =
      entries block := by
  induction blocks generalizing table with
  | nil =>
      cases placed
  | cons first rest inductionHypothesis =>
      rw [placeBlocks, layOut] at placed
      rcases List.mem_cons.mp placed with same | later
      · cases same
        refine List.ext_getElem (by simp) fun index inside insideToo => ?_
        have beyond : ¬ table.size + index < table.size := by omega
        simp only [fill, List.getElem_map, List.getElem_range', Nat.one_mul, Array.getD_eq_getD_getElem?,
          Array.getElem?_append, beyond, if_false, Nat.add_sub_cancel_left]
        simp [List.getElem?_append, insideToo]
      · rw [fill_cons]
        refine inductionHypothesis ?_
        rw [size_append_toArray]
        exact later

/-- Every number behind those of the table itself belongs to a block. -/
theorem exists_mem_placeBlocks {next : Nat} {blocks : List α} {number : Nat}
    (behind : next ≤ number)
    (inside : number < next + totalSize (fun block => (entries block).length) blocks) :
    ∃ placed ∈ placeBlocks entries next blocks, number ∈ placed.2 := by
  induction blocks generalizing next with
  | nil =>
      rw [totalSize] at inside
      omega
  | cons first rest inductionHypothesis =>
      rw [totalSize] at inside
      rw [placeBlocks, layOut]
      by_cases here : number < next + (entries first).length
      · exact ⟨_, List.mem_cons_self .., List.mem_range'_1.mpr ⟨behind, here⟩⟩
      · obtain ⟨placed, member, among⟩ := inductionHypothesis (Nat.not_lt.mp here) (by omega)
        exact ⟨placed, List.mem_cons_of_mem _ member, among⟩

/-- The numbers of blocks come one after another. -/
theorem flatMap_placeBlocks (next : Nat) (blocks : List α) :
    (placeBlocks entries next blocks).flatMap (·.2) =
      List.range' next (totalSize (fun block => (entries block).length) blocks) := by
  induction blocks generalizing next with
  | nil =>
      rfl
  | cons block rest inductionHypothesis =>
      rw [totalSize, ← List.range'_append_1, ← inductionHypothesis]
      rfl

theorem mem_of_mem_placeBlocks {next : Nat} {blocks : List α} {placed : α × List Nat}
    (member : placed ∈ placeBlocks entries next blocks) :
    placed.1 ∈ blocks ∧ placed.2.length = (entries placed.1).length := by
  induction blocks generalizing next with
  | nil =>
      cases member
  | cons first rest inductionHypothesis =>
      rw [placeBlocks, layOut] at member
      rcases List.mem_cons.mp member with rfl | later
      · exact ⟨List.mem_cons_self .., List.length_range'⟩
      · obtain ⟨among, length⟩ := inductionHypothesis later
        exact ⟨List.mem_cons_of_mem _ among, length⟩

/-- Every block has its numbers. -/
theorem exists_placed_of_mem {next : Nat} {blocks : List α} {block : α}
    (member : block ∈ blocks) : ∃ numbers, (block, numbers) ∈ placeBlocks entries next blocks := by
  induction blocks generalizing next with
  | nil =>
      cases member
  | cons first rest inductionHypothesis =>
      rw [placeBlocks, layOut]
      rcases List.mem_cons.mp member with rfl | later
      · exact ⟨_, List.mem_cons_self ..⟩
      · obtain ⟨numbers, placed⟩ := inductionHypothesis later
        exact ⟨numbers, List.mem_cons_of_mem _ placed⟩

theorem placeBlocks_map {rename : α → α}
    (same : ∀ block, (entries (rename block)).length = (entries block).length)
    (next : Nat) (blocks : List α) :
    placeBlocks entries next (blocks.map rename) =
      (placeBlocks entries next blocks).map fun placed => (rename placed.1, placed.2) :=
  layOut_map same (fun _ block => by rw [same]) next blocks

end Blocks

/-! ## Entries with owners -/

section Owned

variable {α δ κ : Type} [Inhabited δ]

/-- Does each owner with a block have one, and no entry anywhere else? -/
structure OwnedBlocks (entries : α → List δ) (owner : δ → κ) (name : α → κ) (table : Array δ)
    (blocks : List α) : Prop where
  belongs : ∀ block ∈ blocks, ∀ entry ∈ entries block, owner entry = name block
  apart : (blocks.map name).Nodup
  before : ∀ entry ∈ table, owner entry ∉ blocks.map name

/-- Do blocks under other names hold their entries under other names, as a table does? -/
structure RenamesBlocks (entries : α → List δ) (owner : δ → κ) (name : α → κ)
    (rename : α → α) (change : δ → δ) (move : Equiv.Perm κ) (table : Array δ) : Prop where
  entries : ∀ block, entries (rename block) = (entries block).map change
  name : ∀ block, name (rename block) = move (name block)
  owner : ∀ entry, owner (change entry) = move (owner entry)
  default : change default = default
  stays : ∀ entry ∈ table, change entry = entry

variable {entries : α → List δ} {owner : δ → κ} {name : α → κ} {key : κ}
variable {table : Array δ} {blocks order : List α}
variable {rename : α → α} {change : δ → δ} {move : Equiv.Perm κ}

namespace RenamesBlocks

variable (renames : RenamesBlocks entries owner name rename change move table)

include renames

theorem length_entries (block : α) : (entries (rename block)).length = (entries block).length := by
  rw [renames.entries, List.length_map]

theorem owner_stays {entry : δ} (among : entry ∈ table) : move (owner entry) = owner entry := by
  rw [← renames.owner, renames.stays entry among]

theorem names_perm (reordered : order.Perm (blocks.map rename)) :
    (order.map name).Perm ((blocks.map name).map move) := by
  refine (reordered.map name).trans (.of_eq ?_)
  rw [List.map_map, List.map_map]
  exact List.map_congr_left fun block _ => renames.name block

theorem named_iff (reordered : order.Perm (blocks.map rename)) :
    move key ∈ order.map name ↔ key ∈ blocks.map name := by
  rw [(renames.names_perm reordered).mem_iff, List.mem_map_of_injective move.injective]

/-- Blocks belong to their owners in any order. -/
theorem ownedBlocks (reordered : order.Perm (blocks.map rename))
    (blocksOwned : OwnedBlocks entries owner name table blocks) :
    OwnedBlocks entries owner name table order where
  belongs block member entry inside := by
    obtain ⟨first, among, rfl⟩ := List.mem_map.mp (reordered.subset member)
    rw [renames.entries] at inside
    obtain ⟨old, here, rfl⟩ := List.mem_map.mp inside
    rw [renames.owner, blocksOwned.belongs first among old here, renames.name]
  apart := (renames.names_perm reordered).nodup_iff.mpr (blocksOwned.apart.map move.injective)
  before entry among := by
    rw [← renames.owner_stays among, renames.named_iff reordered]
    exact blocksOwned.before entry among

end RenamesBlocks

variable [DecidableEq κ]

/-- The numbers of the entries of an owner, in order. -/
def owned (owner : δ → κ) (table : Array δ) (key : κ) : List Nat :=
  (List.range table.size).filter fun number => owner (table.getD number default) == key

theorem owned_append (table : Array δ) (more : List δ) :
    owned owner (table ++ more.toArray) key =
      owned owner table key ++
        ((List.range more.length).filter fun number =>
          owner (more.getD number default) == key).map (table.size + ·) := by
  rw [owned, size_append_toArray, List.range_add, List.filter_append, List.filter_map]
  congr 1
  · refine List.filter_congr fun number inside => ?_
    simp [Array.getElem?_append, List.mem_range.mp inside]
  · refine congrArg _ (List.filter_congr fun number _ => ?_)
    have beyond : ¬ table.size + number < table.size := by omega
    simp [Array.getElem?_append, beyond]

theorem getD_mem_of_mem_range {more : List δ} {number : Nat}
    (inside : number ∈ List.range more.length) : more.getD number default ∈ more := by
  simp [List.getD, List.mem_range.mp inside]

theorem owned_append_of_ne (table : Array δ) {more : List δ}
    (others : ∀ entry ∈ more, owner entry ≠ key) :
    owned owner (table ++ more.toArray) key = owned owner table key := by
  rw [owned_append, List.filter_eq_nil_iff.mpr, List.map_nil, List.append_nil]
  intro number inside
  simpa using others _ (getD_mem_of_mem_range inside)

theorem owned_eq_nil {table : Array δ} (others : ∀ entry ∈ table, owner entry ≠ key) :
    owned owner table key = [] := by
  refine List.filter_eq_nil_iff.mpr fun number inside => ?_
  simpa using others _ (getD_mem_of_lt (List.mem_range.mp inside))

theorem owned_append_of_eq {table : Array δ} {more : List δ}
    (before : ∀ entry ∈ table, owner entry ≠ key) (all : ∀ entry ∈ more, owner entry = key) :
    owned owner (table ++ more.toArray) key = List.range' table.size more.length := by
  rw [owned_append, owned_eq_nil before, List.nil_append, List.filter_eq_self.mpr,
    List.range'_eq_map_range]
  intro number inside
  simpa using all _ (getD_mem_of_mem_range inside)

theorem owned_fill_of_not_mem
    (owners : ∀ block ∈ blocks, ∀ entry ∈ entries block, owner entry = name block)
    (unnamed : key ∉ blocks.map name) :
    owned owner (fill entries table blocks) key = owned owner table key := by
  refine owned_append_of_ne table fun entry among same => ?_
  obtain ⟨block, member, inside⟩ := List.mem_flatMap.mp among
  exact unnamed
    (List.mem_map.mpr ⟨block, member, (owners block member entry inside).symm.trans same⟩)

/-- An owner that has a block has the entries of that block. -/
theorem OwnedBlocks.owned_fill {block : α} {numbers : List Nat}
    (blocksOwned : OwnedBlocks entries owner name table blocks)
    (placed : (block, numbers) ∈ placeBlocks entries table.size blocks) :
    owned owner (fill entries table blocks) (name block) = numbers := by
  induction blocks generalizing table with
  | nil =>
      cases placed
  | cons first rest inductionHypothesis =>
      obtain ⟨owners, apart, before⟩ := blocksOwned
      obtain ⟨ownersHere, ownersLater⟩ := List.forall_mem_cons.mp owners
      rw [List.map_cons, List.nodup_cons] at apart
      rw [fill_cons]
      rw [placeBlocks, layOut] at placed
      rcases List.mem_cons.mp placed with same | later
      · cases same
        rw [owned_fill_of_not_mem ownersLater apart.1,
          owned_append_of_eq (fun entry among same => ?_) ownersHere]
        exact before entry among (same ▸ List.mem_cons_self ..)
      · refine inductionHypothesis ⟨ownersLater, apart.2, fun entry among named => ?_⟩ ?_
        · rcases Array.mem_append.mp among with old | new
          · exact before entry old (List.mem_cons_of_mem _ named)
          · rw [ownersHere entry (by simpa using new)] at named
            exact apart.1 named
        · rw [size_append_toArray]
          exact later

theorem RenamesBlocks.owned_table
    (renames : RenamesBlocks entries owner name rename change move table)
    {numbers : Nat → Nat} (fixed : ∀ number < table.size, numbers number = number)
    (key : κ) : owned owner table (move key) = (owned owner table key).map numbers := by
  have same : owned owner table (move key) = owned owner table key := by
    refine List.filter_congr fun number inside => ?_
    have stays := renames.owner_stays (getD_mem_of_lt (List.mem_range.mp inside))
    rw [Bool.eq_iff_iff, beq_iff_eq, beq_iff_eq]
    constructor
    · intro here
      exact move.injective (stays.trans here)
    · rintro rfl
      exact stays.symm
  rw [same]
  refine (List.map_id _).symm.trans (List.map_congr_left fun number inside => ?_)
  exact (fixed number (List.mem_range.mp (List.mem_of_mem_filter inside))).symm

/-! ## Another order -/

/-- Does a change of numbers follow blocks that come in another order, under other names? -/
structure MovesEntries (entries : α → List δ) (owner : δ → κ) (rename : α → α) (change : δ → δ)
    (move : κ → κ) (table : Array δ) (blocks order : List α) (numbers : Equiv.Perm Nat) :
    Prop where
  fixed : ∀ number < table.size, numbers number = number
  getD : ∀ number, (fill entries table order).getD (numbers number) default =
    change ((fill entries table blocks).getD number default)
  owned : ∀ key, owned owner (fill entries table order) (move key) =
    (owned owner (fill entries table blocks) key).map numbers
  placed : (placeBlocks entries table.size order).Perm
    ((placeBlocks entries table.size blocks).map fun placed =>
      (rename placed.1, placed.2.map numbers))

theorem exists_movesEntries (renames : RenamesBlocks entries owner name rename change move table)
    (blocksOwned : OwnedBlocks entries owner name table blocks)
    (reordered : order.Perm (blocks.map rename)) :
    ∃ numbers, MovesEntries entries owner rename change move table blocks order numbers := by
  obtain ⟨numbers, fixed, behind, moved⟩ := @exists_perm_layOut _ _
    (fun block => (entries block).length)
    (fun start block => (block, List.range' start (entries block).length))
    (fun numbers placed => (placed.1, placed.2.map numbers))
    (fun numbers start goal block moves => Prod.ext rfl (map_range'_of_moves moves))
    (fun first second placed => Prod.ext rfl (List.map_map ..)) _ _ reordered.symm table.size
  have lengths := renames.length_entries
  rw [totalSize_map lengths, ← size_fill] at behind
  have placed : (placeBlocks entries table.size order).Perm
      ((placeBlocks entries table.size blocks).map fun placed =>
        (rename placed.1, placed.2.map numbers)) := by
    refine moved.trans (.of_eq ?_)
    rw [← placeBlocks, placeBlocks_map lengths, List.map_map]
    rfl
  have found {block : α} {among : List Nat}
      (member : (block, among) ∈ placeBlocks entries table.size blocks) :
      (rename block, among.map numbers) ∈ placeBlocks entries table.size order :=
    placed.symm.subset (List.mem_map_of_mem member)
  refine ⟨numbers, fixed, fun number => ?_, fun key => ?_, placed⟩
  · rcases Nat.lt_or_ge number table.size with old | new
    · rw [fixed number old, getD_fill_of_lt _ _ old, getD_fill_of_lt _ _ old,
        renames.stays _ (getD_mem_of_lt old)]
    · rcases Nat.lt_or_ge number (fill entries table blocks).size with inside | beyond
      · rw [size_fill] at inside
        obtain ⟨⟨block, among⟩, member, here⟩ := exists_mem_placeBlocks new inside
        have there := map_getD_of_mem_placeBlocks (found member)
        rw [renames.entries, ← map_getD_of_mem_placeBlocks member, List.map_map,
          List.map_map] at there
        exact List.map_inj_left.mp there number here
      · have sizes : (fill entries table order).size = (fill entries table blocks).size := by
          rw [size_fill, size_fill, totalSize_eq_of_perm reordered, totalSize_map lengths]
        rw [behind number beyond, getD_of_size_le beyond, getD_of_size_le (sizes ▸ beyond),
          renames.default]
  · by_cases named : key ∈ blocks.map name
    · obtain ⟨block, member, rfl⟩ := List.mem_map.mp named
      obtain ⟨among, here⟩ := exists_placed_of_mem member
      rw [blocksOwned.owned_fill here, ← renames.name,
        (renames.ownedBlocks reordered blocksOwned).owned_fill (found here)]
    · rw [owned_fill_of_not_mem blocksOwned.belongs named,
        owned_fill_of_not_mem (renames.ownedBlocks reordered blocksOwned).belongs
          (mt (renames.named_iff reordered).mp named),
        renames.owned_table fixed]

end Owned

end NullWeave
