import Mathlib.Tactic.IntervalCases
import PelionBorderRouter.Tracker.Table

/-!
# PelionBorderRouter.Tracker.Hash

Where the tracker library looks for a block: the first four bytes of the MD5
of its address, masked to an even index of the extended table.  MD5 itself
is a parameter.

The mask is one less than the size of the table, which is odd, so a masked
value is an index already, and the reduction behind it is for tables of
another size.  `hash_index_sound` says so for every table that
`ns_dyn_mem_tracker_allocate_mem_blocks_ext` hands out.
-/

namespace PelionBorderRouter

/-- mbed TLS: what its three calls return, and the MD5 of the bytes of a
pointer. -/
structure Md5Io where
  startsRet : Int
  updateRet : Int
  finishRet : Int
  md5 : Handle → Fin 16 → BitVec 8

/-- `EXT_MEM_BLOCKS_COUNT`, as the 32 bits it is compared in. -/
def TrackerConfig.extMemBlocksCountBits (cfg : TrackerConfig) : BitVec 32 :=
  BitVec.ofNat 32 cfg.extMemBlocksCount

/-- `EXT_MEM_BLOCK_MASK`. -/
def TrackerConfig.extMemBlockMask (cfg : TrackerConfig) : BitVec 32 :=
  cfg.extMemBlocksCountBits &&& ~~~1

/-- The first four bytes of a digest, most significant first. -/
def digestValue (output : Fin 16 → BitVec 8) : BitVec 32 :=
  let ret := (output 0).setWidth 32 <<< 24
  let ret := ret ||| (output 1).setWidth 32 <<< 16
  let ret := ret ||| (output 2).setWidth 32 <<< 8
  ret ||| (output 3).setWidth 32

/-- `ns_dyn_mem_tracker_mem_block_index_hash`. -/
def nsDynMemTrackerMemBlockIndexHash (cfg : TrackerConfig) (io : Md5Io) (block : Handle)
    (extMemBlocksCount : BitVec 32) : BitVec 32 :=
  if io.startsRet ≠ 0 then 0
  else if io.updateRet ≠ 0 then 0
  else if io.finishRet ≠ 0 then 0
  else
    let ret := digestValue (io.md5 block) &&& cfg.extMemBlockMask
    if extMemBlocksCount ≤ ret then 0 else ret

/-- The three calls succeed. -/
def Md5Io.Succeeds (io : Md5Io) : Prop := io.startsRet = 0 ∧ io.updateRet = 0 ∧ io.finishRet = 0

/-! ## the mask -/

/-- The size of the table is odd, and all ones. -/
theorem extMemBlocksCountBits_eq {cfg : TrackerConfig} (hsize : cfg.extBlocksSize ≤ 20) :
    cfg.extMemBlocksCountBits.toNat = 2 ^ (10 + cfg.extBlocksSize) - 1 := by
  have hcount : cfg.extMemBlocksCount = 2 ^ (10 + cfg.extBlocksSize) - 1 := by
    rw [TrackerConfig.extMemBlocksCount, Nat.shiftLeft_eq, Nat.pow_add]
  have hlt : 2 ^ (10 + cfg.extBlocksSize) - 1 < 2 ^ 32 := by
    have hle : 2 ^ (10 + cfg.extBlocksSize) ≤ 2 ^ 30 := Nat.pow_le_pow_right (by decide) (by omega)
    omega
  rw [TrackerConfig.extMemBlocksCountBits, hcount, BitVec.toNat_ofNat, Nat.mod_eq_of_lt hlt]

/-- Bit by bit: the mask takes the bits of an index but the lowest one. -/
theorem getLsbD_extMemBlockMask {cfg : TrackerConfig} (hsize : cfg.extBlocksSize ≤ 20) (i : Nat) :
    cfg.extMemBlockMask.getLsbD i = (decide (i < 10 + cfg.extBlocksSize) && decide (i ≠ 0)) := by
  have hbit : cfg.extMemBlocksCountBits.getLsbD i = decide (i < 10 + cfg.extBlocksSize) := by
    rw [BitVec.getLsbD, extMemBlocksCountBits_eq hsize, Nat.testBit_two_pow_sub_one]
  have hone : (~~~(1 : BitVec 32)).getLsbD i = (decide (i < 32) && decide (i ≠ 0)) := by
    rw [BitVec.getLsbD_not]
    cases i <;> simp
  rw [TrackerConfig.extMemBlockMask, BitVec.getLsbD_and, hbit, hone]
  by_cases hi : i < 10 + cfg.extBlocksSize
  · simp [hi, show i < 32 by omega]
  · simp [hi]

/-- A masked value is even, and an index of the table. -/
theorem masked_lt {cfg : TrackerConfig} (hsize : cfg.extBlocksSize ≤ 20) (x : BitVec 32) :
    x &&& cfg.extMemBlockMask < cfg.extMemBlocksCountBits ∧
      (x &&& cfg.extMemBlockMask).getLsbD 0 = false := by
  have hmask : (x &&& cfg.extMemBlockMask).getLsbD 0 = false := by
    rw [BitVec.getLsbD_and, getLsbD_extMemBlockMask hsize]
    simp
  have hcount : cfg.extMemBlocksCountBits.getLsbD 0 = true := by
    rw [BitVec.getLsbD, extMemBlocksCountBits_eq hsize, Nat.testBit_two_pow_sub_one]
    simp
  have hle : (x &&& cfg.extMemBlockMask).toNat ≤ cfg.extMemBlocksCountBits.toNat := by
    rw [BitVec.toNat_and, TrackerConfig.extMemBlockMask, BitVec.toNat_and]
    exact Nat.and_le_right.trans Nat.and_le_left
  have hne : x &&& cfg.extMemBlockMask ≠ cfg.extMemBlocksCountBits := by
    intro heq
    rw [heq, hcount] at hmask
    contradiction
  refine ⟨BitVec.lt_def.mpr (Nat.lt_of_le_of_ne hle ?_), hmask⟩
  exact fun heq => hne (BitVec.eq_of_toNat_eq heq)

/-- Masking leaves an even index as it is. -/
theorem masked_eq_self {cfg : TrackerConfig} (hsize : cfg.extBlocksSize ≤ 20) {i : BitVec 32}
    (hlt : i < cfg.extMemBlocksCountBits) (heven : i.getLsbD 0 = false) :
    i &&& cfg.extMemBlockMask = i := by
  refine BitVec.eq_of_getLsbD_eq fun j _ => ?_
  rw [BitVec.getLsbD_and, getLsbD_extMemBlockMask hsize]
  have hi : i.toNat < 2 ^ (10 + cfg.extBlocksSize) := by
    have hlt' := BitVec.lt_def.mp hlt
    rw [extMemBlocksCountBits_eq hsize] at hlt'
    omega
  by_cases hj : j = 0
  · rw [hj, heven, Bool.false_and]
  · by_cases hhigh : j < 10 + cfg.extBlocksSize
    · simp [hj, hhigh]
    · have hpow : 2 ^ (10 + cfg.extBlocksSize) ≤ 2 ^ j :=
        Nat.pow_le_pow_right (by decide) (by omega)
      have hzero : i.getLsbD j = false := Nat.testBit_lt_two_pow (Nat.lt_of_lt_of_le hi hpow)
      simp [hzero]

/-! ## the digest -/

/-- A digest that begins with the bytes of `x`. -/
def digestOf (x : BitVec 32) (i : Fin 16) : BitVec 8 := x.extractLsb' (24 - 8 * i.val) 8

theorem digestValue_digestOf (x : BitVec 32) : digestValue (digestOf x) = x := by
  show (x.extractLsb' 24 8).setWidth 32 <<< 24 ||| (x.extractLsb' 16 8).setWidth 32 <<< 16 |||
    (x.extractLsb' 8 8).setWidth 32 <<< 8 ||| (x.extractLsb' 0 8).setWidth 32 = x
  ext j hj
  simp only [BitVec.getElem_or, BitVec.getElem_shiftLeft, BitVec.getElem_setWidth,
    BitVec.getLsbD_extractLsb']
  interval_cases j <;> simp

/-! ## indices -/

/-- A call that succeeds, on the table of the configured size, is the masked
digest: the reduction is not used. -/
theorem hash_eq_masked {cfg : TrackerConfig} (hsize : cfg.extBlocksSize ≤ 20) {io : Md5Io}
    (hio : io.Succeeds) (block : Handle) :
    nsDynMemTrackerMemBlockIndexHash cfg io block cfg.extMemBlocksCountBits =
      digestValue (io.md5 block) &&& cfg.extMemBlockMask := by
  obtain ⟨hstarts, hupdate, hfinish⟩ := hio
  have hlt := (masked_lt hsize (digestValue (io.md5 block))).1
  simp only [nsDynMemTrackerMemBlockIndexHash, hstarts, hupdate, hfinish, ne_eq, not_true_eq_false,
    if_false]
  exact if_neg (BitVec.not_le.mpr hlt)

/-- A call that fails looks at index `0`. -/
theorem hash_eq_zero {cfg : TrackerConfig} {io : Md5Io} (hio : ¬ io.Succeeds) (block : Handle)
    (extMemBlocksCount : BitVec 32) :
    nsDynMemTrackerMemBlockIndexHash cfg io block extMemBlocksCount = 0 := by
  unfold nsDynMemTrackerMemBlockIndexHash
  by_cases hstarts : io.startsRet = 0
  · by_cases hupdate : io.updateRet = 0
    · have hfinish : io.finishRet ≠ 0 := fun h => hio ⟨hstarts, hupdate, h⟩
      simp [hfinish]
    · simp [hupdate]
  · simp [hstarts]

/-- **Indices**: on every table that
`ns_dyn_mem_tracker_allocate_mem_blocks_ext` hands out, the hash of every
block, with any digest and whatever mbed TLS returns, is an even index of the
table; it is the masked digest when mbed TLS succeeds; and every even index is
the hash of some digest. -/
theorem hash_index_sound (cfg : TrackerConfig) (hsize : cfg.extBlocksSize ≤ 20) {calls : Nat}
    {count : BitVec 32} {table : Handle}
    (htable : (nsDynMemTrackerAllocateMemBlocksExt cfg calls).blocks = some table)
    (hcount : count =
      BitVec.ofNat 32 (nsDynMemTrackerAllocateMemBlocksExt cfg calls).memBlocksCount) :
    (∀ io block, nsDynMemTrackerMemBlockIndexHash cfg io block count < count ∧
        (nsDynMemTrackerMemBlockIndexHash cfg io block count).getLsbD 0 = false) ∧
      (∀ io block, io.Succeeds → nsDynMemTrackerMemBlockIndexHash cfg io block count =
        digestValue (io.md5 block) &&& cfg.extMemBlockMask) ∧
      ∀ i < count, i.getLsbD 0 = false → ∃ output, ∀ io block, io.Succeeds →
        io.md5 block = output → nsDynMemTrackerMemBlockIndexHash cfg io block count = i := by
  obtain rfl : count = cfg.extMemBlocksCountBits := by
    unfold nsDynMemTrackerAllocateMemBlocksExt at htable hcount
    split at htable
    · simp at htable
    · next hfirst => rw [hcount, if_neg hfirst]; rfl
  refine ⟨fun io block => ?_, fun io block hio => hash_eq_masked hsize hio block, ?_⟩
  · by_cases hio : io.Succeeds
    · rw [hash_eq_masked hsize hio]
      exact masked_lt hsize _
    · rw [hash_eq_zero hio]
      have hpos := (masked_lt hsize 0).1
      simpa using hpos
  · intro i hlt heven
    refine ⟨digestOf i, fun io block hio hmd5 => ?_⟩
    rw [hash_eq_masked hsize hio, hmd5, digestValue_digestOf, masked_eq_self hsize hlt heven]

/-- The default table, on its first call, and a digest of all ones. -/
theorem hash_index_sound_default :
    nsDynMemTrackerMemBlockIndexHash .default ⟨0, 0, 0, fun _ _ => 255⟩ 1 2047 < 2047 :=
  have htable : (nsDynMemTrackerAllocateMemBlocksExt .default 0).blocks = some memExtBlocks := rfl
  ((hash_index_sound .default (by decide) htable rfl).1 ⟨0, 0, 0, fun _ _ => 255⟩ 1).1

end PelionBorderRouter
