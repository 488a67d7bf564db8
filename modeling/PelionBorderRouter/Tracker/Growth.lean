import Mathlib.Algebra.Order.Group.Nat
import PelionBorderRouter.Lib.Account
import PelionBorderRouter.Tracker.Table

/-!
# PelionBorderRouter.Tracker.Growth

What the block table costs over whole runs.  `alloc_size` takes five values,
and each growth moves it up among them or, when `malloc` fails, to `0xFFFF`,
from where the next growth goes to the limit.  So however often the library
asks, the table grows three times at most, and copies at most 67035 entries:
500 and 1000 on the way, and 65535 once.  As long as no growth fails the
account is exact: what has been copied is what has been added to the first
500 entries (`growth_bounded`).
-/

namespace PelionBorderRouter

universe u

variable {α : Type u} [Zero α]

/-- The entries a step copies. -/
def copied (s : MemBlocks α) : MemBlocksEvent α → Nat
  | .allocate io => (s.call io).copied
  | .write _ _ => 0

/-- One for a step that copies entries, as every growth does. -/
def growths (s : MemBlocks α) (e : MemBlocksEvent α) : Nat := if copied s e = 0 then 0 else 1

/-- The values of `alloc_size`. -/
def SizeReached (s : MemBlocks α) : Prop :=
  s.allocSize = 500 ∨ s.allocSize = 1000 ∨ s.allocSize = 2000 ∨ s.allocSize = memBlocksMax ∨
    s.allocSize = allocSizeFailed

/-- The entries that can still be copied. -/
def copyPotential (s : MemBlocks α) : Nat :=
  if s.allocSize = 500 then 67035
  else if s.allocSize = 1000 then 66535
  else if s.allocSize = memBlocksMax then 0
  else 65535

/-- How often the table can still grow. -/
def growthPotential (s : MemBlocks α) : Nat :=
  if s.allocSize = 500 then 3
  else if s.allocSize = 1000 then 2
  else if s.allocSize = memBlocksMax then 0
  else 1

/-! ## one step -/

/-- A step that grows the table copies `alloc_size` entries, any other none. -/
theorem copied_eq (s : MemBlocks α) (e : MemBlocksEvent α) :
    (Grows s e → copied s e = s.allocSize) ∧ (¬ Grows s e → copied s e = 0) := by
  cases e with
  | write i x => simp [copied, Grows]
  | allocate io =>
      have hcall := s.call_allocates io
      simp only [copied, Grows]
      generalize s.call io = r at hcall
      generalize s.memBlocks = blocks at hcall
      cases hcall with
      | first hmalloc => simp
      | firstFails hmalloc => simp
      | atLimit old hmax => simp [hmax]
      | grows old newSize hmax hmalloc hsize hle => simp [hmax, hmalloc]
      | growthFails old hmax hmalloc => simp [hmax, hmalloc]

/-- The way of `alloc_size`. -/
theorem sizeReached {pre : List (MemBlocksEvent α)} {s : MemBlocks α}
    (hrun : (memBlocks α).run pre = some s) : SizeReached s := by
  refine (memBlocks α).invariant (R := fun _ s => SizeReached s) (Or.inl rfl) ?_ hrun
  intro pre s e s' hpre hs hstep
  obtain rfl : s.next e = s' := Option.some.inj hstep
  have hmax : memBlocksMax = 4000 := rfl
  have hfailed : allocSizeFailed = 65535 := rfl
  unfold SizeReached at hs ⊢
  obtain ⟨_, _, hsize⟩ | ⟨_, hsize⟩ | ⟨_, _, hsize⟩ := allocSize_next (sized hpre) e
  · omega
  · omega
  · rw [hsize]
    exact hs

omit [Zero α] in
/-- A growth that fails is none. -/
theorem GrowthFails.not_grows {s : MemBlocks α} {e : MemBlocksEvent α} (h : GrowthFails s e) :
    ¬ Grows s e := by
  rintro ⟨_, _, io, rfl, hmalloc⟩
  obtain ⟨_, _, io', heq, hmalloc'⟩ := h
  obtain rfl := MemBlocksEvent.allocate.inj heq
  exact absurd (hmalloc.symm.trans hmalloc') (by decide)

/-- Each step takes from the potentials what it copies and how often it
grows. -/
theorem copied_add_potential_le {s : MemBlocks α} (hs : Sized s) (hreached : SizeReached s)
    (e : MemBlocksEvent α) :
    copied s e + copyPotential (s.next e) ≤ copyPotential s ∧
      growths s e + growthPotential (s.next e) ≤ growthPotential s := by
  have hmax : memBlocksMax = 4000 := rfl
  have hfailed : allocSizeFailed = 65535 := rfl
  obtain ⟨hgrows, hno⟩ := copied_eq s e
  unfold SizeReached at hreached
  unfold copyPotential growthPotential growths
  obtain ⟨hgrow, _, hsize⟩ | ⟨hfails, hsize⟩ | ⟨hnot, _, hsize⟩ := allocSize_next hs e
  · rw [hgrows hgrow]
    have hne := hgrow.2.1
    constructor <;> split_ifs <;> omega
  · rw [hno hfails.not_grows]
    have hne := hfails.2.1
    constructor <;> split_ifs <;> omega
  · rw [hno hnot, hsize]
    simp

/-- What a step that is no failing growth copies is what `alloc_size` gains. -/
theorem copied_add_allocSize {s : MemBlocks α} (hs : Sized s) (hreached : SizeReached s)
    (hle : s.allocSize ≤ memBlocksMax) {e : MemBlocksEvent α} (hno : ¬ GrowthFails s e) :
    (s.next e).allocSize = s.allocSize + copied s e := by
  have hmax : memBlocksMax = 4000 := rfl
  have hfailed : allocSizeFailed = 65535 := rfl
  obtain ⟨hgrows, hnone⟩ := copied_eq s e
  unfold SizeReached at hreached
  obtain ⟨hgrow, _, hsize⟩ | ⟨hfails, _⟩ | ⟨hnot, _, hsize⟩ := allocSize_next hs e
  · have hne := hgrow.2.1
    rw [hgrows hgrow]
    omega
  · exact absurd hfails hno
  · rw [hnone hnot, hsize, Nat.add_zero]

/-! ## whole runs -/

/-- **Bounded growth**: whatever the library asks for and writes, and whatever
`malloc` answers, the table grows three times at most and copies 67035 entries
at most; and as long as no growth fails it has copied exactly what
`alloc_size` has gained. -/
theorem growth_bounded (h : List (MemBlocksEvent α)) :
    (memBlocks α).total growths h ≤ 3 ∧ (memBlocks α).total copied h ≤ 67035 ∧
      ∀ s, (memBlocks α).run h = some s →
        ¬ (memBlocks α).Occurs (fun _ s e => GrowthFails s e) h →
          s.allocSize = memBlocksInitialCount + (memBlocks α).total copied h := by
  obtain ⟨t, ht⟩ : ∃ t, (memBlocks α).run h = some t := ⟨_, Machine.run_ofTotal _ _ h⟩
  have hpotential : ∀ pre s e s', (memBlocks α).run pre = some s →
      (memBlocks α).step s e = some s' →
        copied s e + copyPotential s' ≤ copyPotential s ∧
          growths s e + growthPotential s' ≤ growthPotential s := by
    intro pre s e s' hpre hstep
    obtain rfl : s.next e = s' := Option.some.inj hstep
    exact copied_add_potential_le (sized hpre) (sizeReached hpre) e
  refine ⟨?_, ?_, ?_⟩
  · have hle := Machine.total_add_potential_le_start
      (fun pre s e s' hpre hstep => (hpotential pre s e s' hpre hstep).2) ht
    exact (Nat.le_add_right _ _).trans hle
  · have hle := Machine.total_add_potential_le_start
      (fun pre s e s' hpre hstep => (hpotential pre s e s' hpre hstep).1) ht
    exact (Nat.le_add_right _ _).trans hle
  · intro s hs
    refine (memBlocks α).invariant (R := fun h s =>
      ¬ (memBlocks α).Occurs (fun _ s e => GrowthFails s e) h →
        s.allocSize = memBlocksInitialCount + (memBlocks α).total copied h) ?_ ?_ hs
    · exact fun _ => rfl
    · intro pre s e s' hpre ih hstep hno
      rw [Machine.occurs_concat hpre hstep, not_or] at hno
      obtain ⟨hpreNo, hnow⟩ := hno
      have hle : s.allocSize ≤ memBlocksMax := by
        cases failureTraced hpre with
        | inl hfailed => exact absurd hfailed.1 hpreNo
        | inr htraced => exact htraced.2
      rw [Machine.total_concat hpre hstep]
      obtain rfl : s.next e = s' := Option.some.inj hstep
      rw [copied_add_allocSize (sized hpre) (sizeReached hpre) hle hnow, ih hpreNo, Nat.add_assoc]

end PelionBorderRouter
