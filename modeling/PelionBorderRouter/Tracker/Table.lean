import Mathlib.Algebra.GroupWithZero.Nat
import PelionBorderRouter.Tracker

/-!
# PelionBorderRouter.Tracker.Table

The tables the tracker library keeps its blocks in.  The library asks for
memory through two callbacks and stores the pointer and the count it gets.
The capacity of the table is in neither of them: it is in the static
`alloc_size`, which starts at 500, doubles up to 4000 with every growth,
and is set to `0xFFFF` by a growth that fails.

* The next table then has `0xFFFF` entries, and growing it copies all of
  them into 4000 (`table_preserved_iff`).
* At 4000 a table is refused without a word in its count and without being
  freed, unlike in every other refusal (`refusals_agree_iff`).

An entry of the table is of any type with a zero, the entry `memset` leaves.
-/

namespace PelionBorderRouter

universe u

variable {α : Type u} [Zero α]

/-- `MEM_BLOCKS_INITIAL_COUNT`. -/
def memBlocksInitialCount : Nat := 500

/-- `MEM_BLOCKS_MAX`. -/
def memBlocksMax : Nat := 4000

/-- What a failed growth stores in `alloc_size`. -/
def allocSizeFailed : Nat := 0xFFFF

theorem memBlocksMax_lt_allocSizeFailed : memBlocksMax < allocSizeFailed := by decide

/-! ## ns_dyn_mem_tracker_allocate_mem_blocks -/

/-- Whether `malloc` succeeds, and what lies in memory past the end of the
table passed in. -/
structure MallocIo (α : Type u) where
  malloc : Bool
  past : Nat → α

/-- What a call leaves: the table returned, the count written back, the static
`alloc_size`, whether the table passed in was freed, and how many entries
were copied from it. -/
structure MemBlocksResult (α : Type u) where
  blocks : Option (List α)
  memBlocksCount : Nat
  allocSize : Nat
  freed : Bool
  copied : Nat

/-- A zeroed table of `newSize` entries after the first `count` have been
copied from `old`. -/
def copyBlocks (old : List α) (past : Nat → α) (count newSize : Nat) : List α :=
  (List.range newSize).map fun i => if i < count then old[i]?.getD (past i) else 0

/-- `ns_dyn_mem_tracker_allocate_mem_blocks`; `blocks` is `none` for `NULL`. -/
def nsDynMemTrackerAllocateMemBlocks (allocSize : Nat) (blocks : Option (List α))
    (memBlocksCount : Nat) (io : MallocIo α) : MemBlocksResult α :=
  match blocks with
  | none =>
      if io.malloc then
        { blocks := some (copyBlocks [] io.past 0 allocSize)
          memBlocksCount := allocSize % 2 ^ 16
          allocSize := allocSize
          freed := false
          copied := 0 }
      else ⟨none, 0, allocSize, false, 0⟩
  | some old =>
      if allocSize = memBlocksMax then ⟨none, memBlocksCount, allocSize, false, 0⟩
      else
        let newSize := allocSize * 2 % 2 ^ 32
        let newSize := if memBlocksMax < newSize then memBlocksMax else newSize
        if io.malloc then
          { blocks := some (copyBlocks old io.past allocSize newSize)
            memBlocksCount := newSize % 2 ^ 16
            allocSize := newSize
            freed := true
            copied := allocSize }
        else ⟨none, 0, allocSizeFailed, true, 0⟩

/-! ## ns_dyn_mem_tracker_allocate_mem_blocks_ext -/

/-- The address of the static `mem_ext_blocks`. -/
def memExtBlocks : Handle := 0

/-- What a call leaves: the table returned, the count written back, and the
static `calls`. -/
structure ExtResult where
  blocks : Option Handle
  memBlocksCount : Nat
  calls : Nat
deriving DecidableEq, Repr

/-- `ns_dyn_mem_tracker_allocate_mem_blocks_ext`. -/
def nsDynMemTrackerAllocateMemBlocksExt (cfg : TrackerConfig) (calls : Nat) : ExtResult :=
  if 0 < calls then ⟨none, 0, calls⟩ else ⟨some memExtBlocks, cfg.extMemBlocksCount, calls + 1⟩

/-! ## the callers -/

/-- The table as the library keeps it, with the static `alloc_size`. -/
structure MemBlocks (α : Type u) where
  allocSize : Nat
  memBlocks : Option (List α)
  memBlocksCount : Nat

/-- The library asks for a table, passing the one it has, or writes an entry
of it. -/
inductive MemBlocksEvent (α : Type u) where
  | allocate (io : MallocIo α)
  | write (i : Nat) (x : α)

/-- A call with the table and the count the library has. -/
def MemBlocks.call (s : MemBlocks α) (io : MallocIo α) : MemBlocksResult α :=
  nsDynMemTrackerAllocateMemBlocks s.allocSize s.memBlocks s.memBlocksCount io

def MemBlocks.next (s : MemBlocks α) : MemBlocksEvent α → MemBlocks α
  | .allocate io => ⟨(s.call io).allocSize, (s.call io).blocks, (s.call io).memBlocksCount⟩
  | .write i x => { s with memBlocks := s.memBlocks.map fun table => table.set i x }

/-- The library from `conf.mem_blocks == NULL` on. -/
def memBlocks (α : Type u) [Zero α] : Machine (MemBlocks α) (MemBlocksEvent α) :=
  Machine.ofTotal ⟨memBlocksInitialCount, none, 0⟩ MemBlocks.next

/-- The statics of the two functions. -/
structure TableStatics where
  allocSize : Nat
  calls : Nat
deriving DecidableEq, Repr

/-- A call of one of them, with any table and count. -/
inductive TableCall (α : Type u) where
  | memBlocks (blocks : Option (List α)) (memBlocksCount : Nat) (io : MallocIo α)
  | extMemBlocks

def TableStatics.next (cfg : TrackerConfig) (s : TableStatics) : TableCall α → TableStatics
  | .memBlocks blocks memBlocksCount io =>
      let r := nsDynMemTrackerAllocateMemBlocks s.allocSize blocks memBlocksCount io
      { s with allocSize := r.allocSize }
  | .extMemBlocks => { s with calls := (nsDynMemTrackerAllocateMemBlocksExt cfg s.calls).calls }

/-- Any history of calls. -/
def tableCalls (α : Type u) [Zero α] (cfg : TrackerConfig) : Machine TableStatics (TableCall α) :=
  Machine.ofTotal ⟨memBlocksInitialCount, 0⟩ (TableStatics.next cfg)

/-! ## one call -/

@[simp] theorem length_copyBlocks (old : List α) (past : Nat → α) (count newSize : Nat) :
    (copyBlocks old past count newSize).length = newSize := by
  simp [copyBlocks]

/-- When the old table has `count` entries, they are at their index and zeros
follow. -/
theorem getElem?_copyBlocks {old : List α} {past : Nat → α} {count newSize i : Nat}
    (hold : old.length = count) (hi : i < newSize) :
    (copyBlocks old past count newSize)[i]? = some (old[i]?.getD 0) := by
  simp only [copyBlocks, List.getElem?_map, List.getElem?_range hi, Option.map_some]
  by_cases hlt : i < count
  · simp [hlt, hold]
  · simp [hlt, hold]

/-- What a call can do, by the reasons for its result. -/
inductive Allocates (io : MallocIo α) (allocSize memBlocksCount : Nat) :
    Option (List α) → MemBlocksResult α → Prop
  | first (hmalloc : io.malloc = true) :
      Allocates io allocSize memBlocksCount none
        ⟨some (copyBlocks [] io.past 0 allocSize), allocSize % 2 ^ 16, allocSize, false, 0⟩
  | firstFails (hmalloc : io.malloc = false) :
      Allocates io allocSize memBlocksCount none ⟨none, 0, allocSize, false, 0⟩
  | atLimit (old : List α) (hmax : allocSize = memBlocksMax) :
      Allocates io allocSize memBlocksCount (some old) ⟨none, memBlocksCount, allocSize, false, 0⟩
  | grows (old : List α) (newSize : Nat) (hmax : allocSize ≠ memBlocksMax)
      (hmalloc : io.malloc = true)
      (hsize : allocSize * 2 < 2 ^ 32 → newSize = min (allocSize * 2) memBlocksMax)
      (hle : newSize ≤ memBlocksMax) :
      Allocates io allocSize memBlocksCount (some old)
        ⟨some (copyBlocks old io.past allocSize newSize), newSize, newSize, true, allocSize⟩
  | growthFails (old : List α) (hmax : allocSize ≠ memBlocksMax) (hmalloc : io.malloc = false) :
      Allocates io allocSize memBlocksCount (some old) ⟨none, 0, allocSizeFailed, true, 0⟩

theorem allocates (allocSize : Nat) (blocks : Option (List α)) (memBlocksCount : Nat)
    (io : MallocIo α) : Allocates io allocSize memBlocksCount blocks
      (nsDynMemTrackerAllocateMemBlocks allocSize blocks memBlocksCount io) := by
  unfold nsDynMemTrackerAllocateMemBlocks
  cases blocks with
  | none =>
      cases hmalloc : io.malloc with
      | true => exact .first hmalloc
      | false => exact .firstFails hmalloc
  | some old =>
      by_cases hmax : allocSize = memBlocksMax
      · simp only [if_pos hmax]
        exact .atLimit old hmax
      · simp only [if_neg hmax]
        cases hmalloc : io.malloc with
        | false => exact .growthFails old hmax hmalloc
        | true =>
            generalize hsize : (if memBlocksMax < allocSize * 2 % 2 ^ 32 then memBlocksMax
              else allocSize * 2 % 2 ^ 32) = newSize
            have hle : newSize ≤ memBlocksMax := by
              rw [← hsize]
              split <;> omega
            have hmin : allocSize * 2 < 2 ^ 32 → newSize = min (allocSize * 2) memBlocksMax := by
              intro hlt
              rw [← hsize, Nat.mod_eq_of_lt hlt]
              split <;> omega
            have hfits : newSize % 2 ^ 16 = newSize :=
              Nat.mod_eq_of_lt (Nat.lt_of_le_of_lt hle (by decide))
            simp only [if_true, hfits]
            exact .grows old newSize hmax hmalloc hmin hle

/-- Only at the limit a table passed in is not freed. -/
theorem Allocates.freed_iff {io : MallocIo α} {allocSize memBlocksCount : Nat}
    {blocks : Option (List α)} {r : MemBlocksResult α}
    (hcall : Allocates io allocSize memBlocksCount blocks r) :
    (blocks ≠ none → r.freed = true) ↔ ¬ (blocks ≠ none ∧ allocSize = memBlocksMax) := by
  cases hcall with
  | first hmalloc => simp
  | firstFails hmalloc => simp
  | atLimit old hmax => simp [hmax]
  | grows old newSize hmax hmalloc hsize hle => simp [hmax]
  | growthFails old hmax hmalloc => simp [hmax]

/-- There a call returns `NULL`, and any other `NULL` comes with a count of
`0`. -/
theorem Allocates.refuses {io : MallocIo α} {allocSize memBlocksCount : Nat}
    {blocks : Option (List α)} {r : MemBlocksResult α}
    (hcall : Allocates io allocSize memBlocksCount blocks r) :
    if blocks ≠ none ∧ allocSize = memBlocksMax then r.blocks = none
    else r.blocks = none → r.memBlocksCount = 0 := by
  cases hcall with
  | first hmalloc => simp
  | firstFails hmalloc => simp
  | atLimit old hmax => simp [hmax]
  | grows old newSize hmax hmalloc hsize hle => simp [hmax]
  | growthFails old hmax hmalloc => simp [hmax]

/-! ## the table over a run -/

/-- `alloc_size` is what the table has, and between one entry and
`MEM_BLOCKS_MAX`, or what a failed growth has set it to. -/
structure Sized (s : MemBlocks α) : Prop where
  pos : 0 < s.allocSize
  le : s.allocSize ≤ memBlocksMax ∨ s.allocSize = allocSizeFailed
  capacity : ∀ table, s.memBlocks = some table → table.length = s.allocSize

/-- The table is to grow, and there is memory for it. -/
def Grows (s : MemBlocks α) (e : MemBlocksEvent α) : Prop :=
  s.memBlocks ≠ none ∧ s.allocSize ≠ memBlocksMax ∧ ∃ io, e = .allocate io ∧ io.malloc = true

/-- The table is to grow, and there is no memory for it. -/
def GrowthFails (s : MemBlocks α) (e : MemBlocksEvent α) : Prop :=
  s.memBlocks ≠ none ∧ s.allocSize ≠ memBlocksMax ∧ ∃ io, e = .allocate io ∧ io.malloc = false

omit [Zero α] in
theorem Sized.lt {s : MemBlocks α} (hs : Sized s) : s.allocSize < 2 ^ 16 := by
  cases hs.le with
  | inl hle => exact Nat.lt_of_le_of_lt hle (by decide)
  | inr heq =>
      rw [heq]
      decide

theorem MemBlocks.call_allocates (s : MemBlocks α) (io : MallocIo α) :
    Allocates io s.allocSize s.memBlocksCount s.memBlocks (s.call io) :=
  allocates s.allocSize s.memBlocks s.memBlocksCount io

/-- Only growing changes `alloc_size`. -/
theorem allocSize_next {s : MemBlocks α} (hs : Sized s) (e : MemBlocksEvent α) :
    Grows s e ∧ ¬ GrowthFails s e ∧
        (s.next e).allocSize = min (s.allocSize * 2) memBlocksMax ∨
      GrowthFails s e ∧ (s.next e).allocSize = allocSizeFailed ∨
      ¬ Grows s e ∧ ¬ GrowthFails s e ∧ (s.next e).allocSize = s.allocSize := by
  cases e with
  | write i x => simp [Grows, GrowthFails, MemBlocks.next]
  | allocate io =>
      have hcall := s.call_allocates io
      have hlt := hs.lt
      simp only [Grows, GrowthFails, MemBlocks.next]
      generalize s.call io = r at hcall
      generalize s.memBlocks = blocks at hcall
      cases hcall with
      | first hmalloc => simp
      | firstFails hmalloc => simp
      | atLimit old hmax => simp [hmax]
      | grows old newSize hmax hmalloc hsize hle => simp [hmax, hmalloc, hsize (by omega)]
      | growthFails old hmax hmalloc => simp [hmax, hmalloc]

/-- A table that a call returns has `alloc_size` entries. -/
theorem length_call {s : MemBlocks α} {io : MallocIo α} {table : List α}
    (htable : (s.call io).blocks = some table) : table.length = (s.call io).allocSize := by
  have hcall := s.call_allocates io
  generalize s.call io = r at hcall htable
  generalize s.memBlocks = blocks at hcall
  cases hcall with
  | first hmalloc => simp [← Option.some.inj htable]
  | grows old newSize hmax hmalloc hsize hle => simp [← Option.some.inj htable]
  | _ => simp at htable

theorem sized_next {s : MemBlocks α} (hs : Sized s) (e : MemBlocksEvent α) : Sized (s.next e) := by
  have hcapacity : ∀ table, (s.next e).memBlocks = some table →
      table.length = (s.next e).allocSize := by
    intro table htable
    cases e with
    | write i x =>
        obtain ⟨old, hold, rfl⟩ := Option.map_eq_some_iff.mp htable
        rw [List.length_set]
        exact hs.capacity old hold
    | allocate io => exact length_call htable
  obtain ⟨_, _, hsize⟩ | ⟨_, hsize⟩ | ⟨_, _, hsize⟩ := allocSize_next hs e
  · have hpos : 0 < min (s.allocSize * 2) memBlocksMax :=
      Nat.lt_min.mpr ⟨Nat.mul_pos hs.pos (by decide), by decide⟩
    exact ⟨hsize ▸ hpos, Or.inl (hsize ▸ Nat.min_le_right _ _), hcapacity⟩
  · exact ⟨hsize ▸ by decide, Or.inr hsize, hcapacity⟩
  · exact ⟨hsize ▸ hs.pos, hsize ▸ hs.le, hcapacity⟩

theorem sized {pre : List (MemBlocksEvent α)} {s : MemBlocks α}
    (hrun : (memBlocks α).run pre = some s) : Sized s := by
  refine (memBlocks α).invariant (R := fun _ s => Sized s) ?_ ?_ hrun
  · have hinit : memBlocksInitialCount ≤ memBlocksMax := by decide
    exact ⟨Nat.succ_pos _, Or.inl hinit, by simp [memBlocks, Machine.ofTotal]⟩
  · intro pre s e s' _ hs hstep
    obtain rfl : s.next e = s' := Option.some.inj hstep
    exact sized_next hs e

/-- What a failed growth leaves in `alloc_size` stays there up to a growth,
which goes to the limit; before one fails no size is that large. -/
def FailureTraced (pre : List (MemBlocksEvent α)) (s : MemBlocks α) : Prop :=
  ((memBlocks α).Occurs (fun _ s e => GrowthFails s e) pre ∧
      (s.allocSize = allocSizeFailed ∨ s.allocSize = memBlocksMax)) ∨
    (¬ (memBlocks α).Occurs (fun _ s e => GrowthFails s e) pre ∧ s.allocSize ≤ memBlocksMax)

theorem failureTraced {pre : List (MemBlocksEvent α)} {s : MemBlocks α}
    (hrun : (memBlocks α).run pre = some s) : FailureTraced pre s := by
  refine (memBlocks α).invariant (R := FailureTraced) ?_ ?_ hrun
  · have hinit : memBlocksInitialCount ≤ memBlocksMax := by decide
    exact Or.inr ⟨Machine.not_occurs_nil, hinit⟩
  · intro pre s e s' hpre ih hstep
    have hoccurs := Machine.occurs_concat (J := fun _ s e => GrowthFails s e) hpre hstep
    obtain rfl : s.next e = s' := Option.some.inj hstep
    rw [FailureTraced, hoccurs]
    obtain ⟨_, hno, hsize⟩ | ⟨hfails, hsize⟩ | ⟨_, hno, hsize⟩ := allocSize_next (sized hpre) e
    · rw [or_iff_left hno, hsize]
      cases ih with
      | inl ih =>
          left
          refine ⟨ih.1, Or.inr (Nat.min_eq_right ?_)⟩
          have hmax := memBlocksMax_lt_allocSizeFailed
          omega
      | inr ih => exact Or.inr ⟨ih.1, Nat.min_le_right _ _⟩
    · exact Or.inl ⟨Or.inr hfails, Or.inl hsize⟩
    · rw [or_iff_left hno, hsize]
      exact ih

/-- What a growing call may not break, for the table it returns.  `old` is
empty when there is no table yet. -/
structure TablePreserved (blocks : Option (List α)) (r : MemBlocksResult α) (table : List α) :
    Prop where
  capacity : table.length = r.memBlocksCount
  fits : r.memBlocksCount < 2 ^ 16
  copied_le_old : r.copied ≤ (blocks.getD []).length
  copied_le_new : r.copied ≤ table.length
  kept : ∀ i < (blocks.getD []).length, table[i]? = (blocks.getD [])[i]?
  zeroed : ∀ i < table.length, (blocks.getD []).length ≤ i → table[i]? = some 0
  grown : ∀ old, blocks = some old → old.length < table.length ∧ table.length ≤ memBlocksMax

/-- A first table is zeroed. -/
theorem tablePreserved_first {count : Nat} (hlt : count < 2 ^ 16) (past : Nat → α) :
    TablePreserved none ⟨some (copyBlocks [] past 0 count), count % 2 ^ 16, count, false, 0⟩
      (copyBlocks [] past 0 count) where
  capacity := by
    rw [length_copyBlocks]
    exact (Nat.mod_eq_of_lt hlt).symm
  fits := Nat.mod_lt _ (by decide)
  copied_le_old := Nat.zero_le _
  copied_le_new := Nat.zero_le _
  kept := by simp
  zeroed := by
    intro i hi _
    rw [length_copyBlocks] at hi
    rw [getElem?_copyBlocks List.length_nil hi]
    simp
  grown := by simp

/-- A table that fits into the new one is preserved. -/
theorem tablePreserved_grows {old : List α} {newSize : Nat} (hlt : old.length < newSize)
    (hle : newSize ≤ memBlocksMax) (past : Nat → α) :
    TablePreserved (some old)
      ⟨some (copyBlocks old past old.length newSize), newSize, newSize, true, old.length⟩
      (copyBlocks old past old.length newSize) where
  capacity := by simp
  fits := Nat.lt_of_le_of_lt hle (by decide)
  copied_le_old := Nat.le_refl _
  copied_le_new := by simpa using hlt.le
  kept := by
    intro i hi
    have hi' : i < old.length := hi
    rw [getElem?_copyBlocks rfl (hi'.trans hlt)]
    simp [hi']
  zeroed := by
    intro i hi hold
    rw [length_copyBlocks] at hi
    have hold' : old.length ≤ i := hold
    simp [getElem?_copyBlocks rfl hi, hold']
  grown := by
    intro old' heq
    obtain rfl : old = old' := Option.some.inj heq
    simpa using ⟨hlt, hle⟩

/-- The table that a call returns preserves the one passed in unless that one
was allocated after a growth had failed. -/
theorem tablePreserved_call_iff {s : MemBlocks α} (hs : Sized s) {io : MallocIo α}
    {table : List α} (htable : (s.call io).blocks = some table) :
    TablePreserved s.memBlocks (s.call io) table ↔
      ¬ (Grows s (.allocate io) ∧ s.allocSize = allocSizeFailed) := by
  have hcall := s.call_allocates io
  have hlt := hs.lt
  have hpos := hs.pos
  have hle := hs.le
  have hcapacity := hs.capacity
  simp only [Grows]
  generalize s.call io = r at hcall htable
  generalize s.memBlocks = blocks at hcall hcapacity
  cases hcall with
  | first hmalloc =>
      obtain rfl := Option.some.inj htable
      exact iff_of_true (tablePreserved_first hlt io.past) (by simp)
  | grows old newSize hmax hmalloc hsize hnew =>
      obtain rfl := Option.some.inj htable
      have hold : old.length = s.allocSize := hcapacity old rfl
      rw [← hold] at hsize hmax hlt hpos hle ⊢
      by_cases hfailed : old.length = allocSizeFailed
      · refine iff_of_false (fun hpres => ?_)
          (not_not.mpr ⟨⟨by simp, hmax, io, rfl, hmalloc⟩, hfailed⟩)
        have hcopied : old.length ≤ newSize := by simpa using hpres.copied_le_new
        have hmax' := memBlocksMax_lt_allocSizeFailed
        omega
      · have hsize' := hsize (by omega)
        have hgrown : old.length < newSize := by
          have := hle.resolve_right hfailed
          omega
        exact iff_of_true (tablePreserved_grows hgrown hnew io.past) (by simp [hfailed])
  | _ => simp at htable

/-- A growth that has memory returns a table. -/
theorem exists_table_of_grows {s : MemBlocks α} {io : MallocIo α}
    (hgrows : Grows s (.allocate io)) : ∃ table, (s.call io).blocks = some table := by
  obtain ⟨hblocks, hmax, io', heq, hmalloc⟩ := hgrows
  obtain rfl : io = io' := by simpa using heq
  have hcall := s.call_allocates io
  generalize s.call io = r at hcall
  generalize s.memBlocks = blocks at hcall hblocks
  cases hcall with
  | grows old newSize _ _ _ _ => exact ⟨_, rfl⟩
  | atLimit old hmax' => exact absurd hmax' hmax
  | growthFails old _ hmalloc' => simp [hmalloc] at hmalloc'
  | _ => exact absurd rfl hblocks

/-- A table that grows was allocated after a failed growth when `alloc_size`
still shows it. -/
theorem growthFailed_iff_of_grows {pre : List (MemBlocksEvent α)} {s : MemBlocks α}
    {e : MemBlocksEvent α} (hrun : (memBlocks α).run pre = some s) (hgrows : Grows s e) :
    (memBlocks α).Occurs (fun _ s e => GrowthFails s e) pre ↔ s.allocSize = allocSizeFailed := by
  cases failureTraced hrun with
  | inl hafter => exact iff_of_true hafter.1 (hafter.2.resolve_right hgrows.2.1)
  | inr hbefore =>
      exact iff_of_false hbefore.1
        (Nat.ne_of_lt (Nat.lt_of_le_of_lt hbefore.2 memBlocksMax_lt_allocSizeFailed))

/-- **The table**: in a run every call that returns a table returns one that
preserves the one it had, exactly when no table grows after a growth has
failed. -/
theorem table_preserved_iff (h : List (MemBlocksEvent α)) :
    (memBlocks α).Always (fun _ s e => ∀ io table, e = .allocate io →
        (s.call io).blocks = some table → TablePreserved s.memBlocks (s.call io) table) h ↔
      (memBlocks α).Always (fun pre s e => Grows s e →
        ¬ (memBlocks α).Occurs (fun _ s e => GrowthFails s e) pre) h := by
  constructor
  · intro hpres pre s e s' htakes hgrows
    obtain ⟨io, rfl, _⟩ := hgrows.2.2
    obtain ⟨table, htable⟩ := exists_table_of_grows hgrows
    have hkept := hpres pre s _ s' htakes io table rfl htable
    rw [growthFailed_iff_of_grows htakes.2.1 hgrows]
    exact fun hfailed =>
      (tablePreserved_call_iff (sized htakes.2.1) htable).mp hkept ⟨hgrows, hfailed⟩
  · intro hnone pre s e s' htakes io table he htable
    subst he
    rw [tablePreserved_call_iff (sized htakes.2.1) htable]
    rintro ⟨hgrows, hfailed⟩
    exact hnone pre s _ s' htakes hgrows ((growthFailed_iff_of_grows htakes.2.1 hgrows).mpr hfailed)

/-- A `malloc` that succeeds or fails; nothing but zeros lies past a table. -/
def mallocIo (malloc : Bool) : MallocIo Nat := ⟨malloc, fun _ => 0⟩

/-- A first table, a growth that fails, and a first table again. -/
def tableAfterFailure : List (MemBlocksEvent Nat) :=
  [.allocate (mallocIo true), .allocate (mallocIo false), .allocate (mallocIo true)]

/-- Growing that table copies 65535 entries into 4000. -/
theorem grown_table_overrun :
    ¬ (memBlocks Nat).Always (fun _ s e => ∀ io table, e = .allocate io →
        (s.call io).blocks = some table → TablePreserved s.memBlocks (s.call io) table)
      (tableAfterFailure ++ [.allocate (mallocIo true)]) := by
  intro hpres
  obtain ⟨s, table, hrun, hblocks, hsize⟩ : ∃ s table,
      (memBlocks Nat).run tableAfterFailure = some s ∧ s.memBlocks = some table ∧
        s.allocSize = allocSizeFailed := ⟨_, _, rfl, rfl, rfl⟩
  have hgrows : Grows s (.allocate (mallocIo true)) :=
    ⟨by simp [hblocks], by rw [hsize]; decide, mallocIo true, rfl, rfl⟩
  obtain ⟨table', htable⟩ := exists_table_of_grows hgrows
  have hkept := hpres tableAfterFailure s _ _ ⟨List.prefix_refl _, hrun, rfl⟩ _ table' rfl htable
  exact (tablePreserved_call_iff (sized hrun) htable).mp hkept ⟨hgrows, hsize⟩

/-! ## refusals -/

/-- If the call returns `NULL`, the count it leaves is `0`, and it has freed the
table passed in. -/
def RefusalReported (cfg : TrackerConfig) (s : TableStatics) : TableCall α → Prop
  | .memBlocks blocks memBlocksCount io =>
      let r := nsDynMemTrackerAllocateMemBlocks s.allocSize blocks memBlocksCount io
      r.blocks = none → r.memBlocksCount = 0 ∧ (blocks ≠ none → r.freed = true)
  | .extMemBlocks =>
      let r := nsDynMemTrackerAllocateMemBlocksExt cfg s.calls
      r.blocks = none → r.memBlocksCount = 0

/-- The call is to grow a table at the limit. -/
def PassesFullTable (s : TableStatics) : TableCall α → Prop
  | .memBlocks blocks _ _ => blocks ≠ none ∧ s.allocSize = memBlocksMax
  | .extMemBlocks => False

theorem refusalReported_iff (cfg : TrackerConfig) (s : TableStatics) (e : TableCall α) :
    RefusalReported cfg s e ↔ ¬ PassesFullTable s e := by
  cases e with
  | extMemBlocks =>
      simp only [RefusalReported, PassesFullTable, nsDynMemTrackerAllocateMemBlocksExt]
      split <;> simp
  | memBlocks blocks memBlocksCount io =>
      have hcall := allocates s.allocSize blocks memBlocksCount io
      have hrefuses := hcall.refuses
      simp only [RefusalReported, PassesFullTable, hcall.freed_iff]
      by_cases hlimit : blocks ≠ none ∧ s.allocSize = memBlocksMax
      · rw [if_pos hlimit] at hrefuses
        exact iff_of_false (fun hzero => (hzero hrefuses).2 hlimit) (not_not.mpr hlimit)
      · rw [if_neg hlimit] at hrefuses
        simpa [hlimit] using hrefuses

/-- The library is to grow a table at the limit. -/
def GrowsFullTable (s : MemBlocks α) (e : MemBlocksEvent α) : Prop :=
  (∃ io, e = .allocate io) ∧ s.memBlocks ≠ none ∧ s.allocSize = memBlocksMax

/-- The library passes on no table that is not freed. -/
def FreesTable (s : MemBlocks α) (e : MemBlocksEvent α) : Prop :=
  ∀ io, e = .allocate io → s.memBlocks ≠ none → (s.call io).freed = true

theorem freesTable_iff (s : MemBlocks α) (e : MemBlocksEvent α) :
    FreesTable s e ↔ ¬ GrowsFullTable s e := by
  cases e with
  | write i x => simp [FreesTable, GrowsFullTable]
  | allocate io => simpa [FreesTable, GrowsFullTable] using (s.call_allocates io).freed_iff

/-- The library is left with no count for a table it does not have, unless
it has been refused one at the limit. -/
theorem count_next {s : MemBlocks α} {e : MemBlocksEvent α}
    (hs : s.memBlocks = none → s.memBlocksCount = 0) (hlimit : ¬ GrowsFullTable s e) :
    (s.next e).memBlocks = none → (s.next e).memBlocksCount = 0 := by
  cases e with
  | write i x => simpa [MemBlocks.next] using hs
  | allocate io =>
      have hlimit' : ¬ (s.memBlocks ≠ none ∧ s.allocSize = memBlocksMax) :=
        fun hfull => hlimit ⟨⟨io, rfl⟩, hfull⟩
      have hrefuses := (s.call_allocates io).refuses
      rw [if_neg hlimit'] at hrefuses
      exact hrefuses

/-- **Refusals**: in any history of calls every `NULL` comes with a count of
`0` and with the table passed in freed, exactly when no call is to grow a
table at the limit; and the library has a count for a table it does not
have, or loses one, only by such a call. -/
theorem refusals_agree_iff (cfg : TrackerConfig) :
    (∀ h, (tableCalls α cfg).Always (fun _ s e => RefusalReported cfg s e) h ↔
        (tableCalls α cfg).Always (fun _ s e => ¬ PassesFullTable s e) h) ∧
      ∀ h, ((memBlocks α).Holds (fun _ s => s.memBlocks = none → s.memBlocksCount = 0) h ∧
          (memBlocks α).Always (fun _ s e => FreesTable s e) h) ↔
        (memBlocks α).Always (fun _ s e => ¬ GrowsFullTable s e) h := by
  constructor
  · intro h
    simp only [refusalReported_iff]
  · intro h
    simp only [freesTable_iff]
    refine and_iff_right_of_imp (Machine.holds_of_always (fun _ => rfl) ?_)
    intro pre s e s' _ hs hlimit hstep
    obtain rfl : s.next e = s' := Option.some.inj hstep
    exact count_next hs hlimit

/-- A table that has grown to the limit. -/
def tableAtLimit : List (TableCall Nat) :=
  [.memBlocks none 0 (mallocIo true), .memBlocks (some (List.replicate 500 0)) 500 (mallocIo true),
    .memBlocks (some (List.replicate 1000 0)) 1000 (mallocIo true),
    .memBlocks (some (List.replicate 2000 0)) 2000 (mallocIo true)]

/-- Its next growth is refused, and the count is still 4000. -/
theorem limit_refusal_keeps_count :
    ¬ (tableCalls Nat .default).Always (fun _ s e => RefusalReported .default s e)
      (tableAtLimit ++ [.memBlocks (some (List.replicate 4000 0)) 4000 (mallocIo true)]) := by
  intro hreported
  have hlast := hreported tableAtLimit _ _ _ ⟨List.prefix_refl _, rfl, rfl⟩
  have hcount : 4000 = 0 := (hlast rfl).1
  simp at hcount

end PelionBorderRouter
