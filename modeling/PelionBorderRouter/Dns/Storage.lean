import PelionBorderRouter.Dns.Address

/-!
# PelionBorderRouter.Dns.Storage

`parse_address` byte by byte: what it reads of the URI, what it asks `malloc`
for, and which bytes of the allocation it writes.  `parseAddress` of
`PelionBorderRouter.Dns.Address` keeps of the allocation only its size and
the name copied last; `parseAddressBytes_seenAs` says that it sees what
happens here.
-/

namespace PelionBorderRouter

/-! ## parse_address -/

/-- `memcpy` of `n` bytes to the start of an allocation.  What would not fit
is not stored. -/
def memcpy (dst src : List UInt8) (n : Nat) : List UInt8 :=
  (src.take n).take dst.length ++ dst.drop n

/-- `malloc`: a block of `n` bytes that holds whatever `heap` has there, or
`NULL`. -/
def mallocBlock (heap : Option (Nat → UInt8)) (n : Nat) : Option (List UInt8) :=
  heap.map fun garbage => (List.range n).map garbage

/-- What a call returns, the bytes of `*parsed_addr` then, and the sizes it
has asked `malloc` for. -/
structure Parsed where
  status : Int
  parsedAddr : Option (List UInt8)
  mallocs : List Nat
deriving DecidableEq, Repr

/-- `parse_address`, on the bytes of the allocation. -/
def parseAddressBytes (rawAddr : List UInt8) (rawAddrSize : Int) (parsedAddr : Option (List UInt8))
    (heap : Option (Nat → UInt8)) : Parsed :=
  let endIndex := scanLast rawAddr colon rawAddrSize.toNat
  if endIndex = -1 then ⟨-1, parsedAddr, []⟩
  else
    let startIndex := scanLast rawAddr slash endIndex.toNat
    if startIndex = -1 then ⟨-1, parsedAddr, []⟩
    else
      -- pointing to the next character of '/'
      let startIndex := startIndex + 1
      let parsedAddrSize := endIndex - startIndex
      let (parsedAddr, mallocs) :=
        match parsedAddr with
        | some b => (some b, [])
        | none =>
            -- adding room for null character
            (mallocBlock heap (parsedAddrSize + 1).toNat, [(parsedAddrSize + 1).toNat])
      match parsedAddr with
      | none => ⟨-1, none, mallocs⟩
      | some dst =>
          let dst := memcpy dst (rawAddr.drop startIndex.toNat) parsedAddrSize.toNat
          ⟨0, some (dst.set parsedAddrSize.toNat 0), mallocs⟩

/-! ## the slice -/

/-- The bytes between the indices `i` and `j`. -/
def between (rawAddr : List UInt8) (i j : Nat) : List UInt8 :=
  (rawAddr.drop (i + 1)).take (j - (i + 1))

theorem length_between {rawAddr : List UInt8} {stop i j : Nat} (hj : LastAt rawAddr colon stop j)
    (hi : LastAt rawAddr slash j i) : (between rawAddr i j).length + 1 = j - i := by
  have hlt := (List.getElem?_eq_some_iff.mp hj.2.1).1
  have hij := hi.1
  simp only [between, List.length_take, List.length_drop]
  omega

/-- Copying a name and terminating it overwrites the start of the
allocation. -/
theorem set_memcpy {dst src : List UInt8} {n : Nat} (hsrc : n ≤ src.length)
    (hdst : n < dst.length) : (memcpy dst src n).set n 0 = src.take n ++ 0 :: dst.drop (n + 1) := by
  have hlen : (src.take n).length = n := List.length_take_of_le hsrc
  unfold memcpy
  rw [List.take_of_length_le (by omega), List.set_append, if_neg (by omega), hlen, Nat.sub_self,
    List.drop_eq_getElem_cons hdst, List.set_cons_zero]

/-- `parse_address` where there is a slice. -/
theorem parseAddressBytes_eq {rawAddr : List UInt8} {rawAddrSize : Int} {i j : Nat}
    (hj : LastAt rawAddr colon rawAddrSize.toNat j) (hi : LastAt rawAddr slash j i)
    (p : Option (List UInt8)) (heap : Option (Nat → UInt8)) :
    parseAddressBytes rawAddr rawAddrSize p heap =
      let mallocs := if p = none then [j - i] else []
      match p.or (mallocBlock heap (j - i)) with
      | none => ⟨-1, none, mallocs⟩
      | some dst =>
          let dst := memcpy dst (rawAddr.drop (i + 1)) (j - (i + 1))
          ⟨0, some (dst.set (j - (i + 1)) 0), mallocs⟩ := by
  have hij := hi.1
  have hsize : ((j : Int) - ((i : Int) + 1)).toNat = j - (i + 1) := by omega
  have hsize' : ((j : Int) - ((i : Int) + 1) + 1).toNat = j - i := by omega
  have hstart : ((i : Int) + 1).toNat = i + 1 := by omega
  unfold parseAddressBytes
  simp only [scanLast_eq_iff.mpr hj, Int.toNat_natCast, scanLast_eq_iff.mpr hi, hsize, hsize',
    hstart]
  rw [if_neg (by omega), if_neg (by omega)]
  cases p with
  | some b => rfl
  | none => rfl

/-- With room for the slice it is stored, and nothing behind it changes. -/
theorem parseAddressBytes_of_lastAt {rawAddr dst : List UInt8} {rawAddrSize : Int} {i j : Nat}
    {p : Option (List UInt8)} {heap : Option (Nat → UInt8)}
    (hj : LastAt rawAddr colon rawAddrSize.toNat j) (hi : LastAt rawAddr slash j i)
    (hdst : p.or (mallocBlock heap (j - i)) = some dst) (hroom : j - i ≤ dst.length) :
    parseAddressBytes rawAddr rawAddrSize p heap =
      ⟨0, some (between rawAddr i j ++ 0 :: dst.drop (j - i)),
        if p = none then [j - i] else []⟩ := by
  have hij := hi.1
  have hlt := (List.getElem?_eq_some_iff.mp hj.2.1).1
  have hsucc : j - (i + 1) + 1 = j - i := by omega
  have hset : (memcpy dst (rawAddr.drop (i + 1)) (j - (i + 1))).set (j - (i + 1)) 0 =
      between rawAddr i j ++ 0 :: dst.drop (j - i) := by
    rw [set_memcpy (by rw [List.length_drop]; omega) (by omega), hsucc, between]
  rw [parseAddressBytes_eq hj hi, hdst]
  simp only [hset]

/-- `parse_address` where there is no slice. -/
theorem parseAddressBytes_of_not {rawAddr : List UInt8} {rawAddrSize : Int}
    (h : ∀ i j, LastAt rawAddr colon rawAddrSize.toNat j → ¬ LastAt rawAddr slash j i)
    (p : Option (List UInt8)) (heap : Option (Nat → UInt8)) :
    parseAddressBytes rawAddr rawAddrSize p heap = ⟨-1, p, []⟩ := by
  unfold parseAddressBytes
  by_cases hend : scanLast rawAddr colon rawAddrSize.toNat = -1
  · rw [if_pos hend]
  · obtain ⟨j, hj⟩ := exists_scanLast_eq hend
    rw [if_neg hend, hj, Int.toNat_natCast]
    by_cases hstart : scanLast rawAddr slash j = -1
    · rw [if_pos hstart]
    · obtain ⟨i, hi⟩ := exists_scanLast_eq hstart
      exact absurd (scanLast_eq_iff.mp hi) (h i j (scanLast_eq_iff.mp hj))

theorem between_congr {rawAddr rawAddr' : List UInt8} {i j : Nat}
    (h : ∀ k < j, rawAddr[k]? = rawAddr'[k]?) : between rawAddr i j = between rawAddr' i j := by
  apply List.ext_getElem?
  intro k
  unfold between
  rw [List.getElem?_take, List.getElem?_take, List.getElem?_drop, List.getElem?_drop]
  by_cases hk : k < j - (i + 1)
  · rw [if_pos hk, if_pos hk, h (i + 1 + k) (by omega)]
  · rw [if_neg hk, if_neg hk]

/-- The bytes from the size on are not read. -/
theorem parseAddressBytes_congr {rawAddr rawAddr' : List UInt8} {rawAddrSize : Int}
    (h : ∀ k < rawAddrSize.toNat, rawAddr[k]? = rawAddr'[k]?) (p : Option (List UInt8))
    (heap : Option (Nat → UInt8)) :
    parseAddressBytes rawAddr rawAddrSize p heap =
      parseAddressBytes rawAddr' rawAddrSize p heap := by
  have hbelow : ∀ j, LastAt rawAddr colon rawAddrSize.toNat j →
      ∀ k < j, rawAddr[k]? = rawAddr'[k]? :=
    fun j hj k hk => h k (Nat.lt_trans hk hj.1)
  by_cases hslice : ∃ i j, LastAt rawAddr colon rawAddrSize.toNat j ∧ LastAt rawAddr slash j i
  · obtain ⟨i, j, hj, hi⟩ := hslice
    have hcopy : (rawAddr.drop (i + 1)).take (j - (i + 1)) =
        (rawAddr'.drop (i + 1)).take (j - (i + 1)) := between_congr (hbelow j hj)
    rw [parseAddressBytes_eq hj hi,
      parseAddressBytes_eq ((lastAt_congr h).mp hj) ((lastAt_congr (hbelow j hj)).mp hi)]
    simp only [memcpy, hcopy]
  · have hnone : ∀ i j, LastAt rawAddr colon rawAddrSize.toNat j → ¬ LastAt rawAddr slash j i :=
      fun i j hj hi => hslice ⟨i, j, hj, hi⟩
    have hnone' : ∀ i j, LastAt rawAddr' colon rawAddrSize.toNat j →
        ¬ LastAt rawAddr' slash j i := by
      intro i j hj hi
      have hj' := (lastAt_congr h).mpr hj
      exact hnone i j hj' ((lastAt_congr (hbelow j hj')).mpr hi)
    rw [parseAddressBytes_of_not hnone, parseAddressBytes_of_not hnone']

/-- What `parse_address` does with these bytes, this size and this storage. -/
structure ParsesExactly (rawAddr : List UInt8) (rawAddrSize : Int) (p : Option (List UInt8))
    (heap : Option (Nat → UInt8)) : Prop where
  /-- With a slice and room for it, exactly the slice and a NUL are written. -/
  accepts : ∀ i j dst, LastAt rawAddr colon rawAddrSize.toNat j → LastAt rawAddr slash j i →
    p.or (mallocBlock heap (j - i)) = some dst → j - i ≤ dst.length →
    parseAddressBytes rawAddr rawAddrSize p heap =
        ⟨0, some (between rawAddr i j ++ 0 :: dst.drop (j - i)),
          if p = none then [j - i] else []⟩ ∧
      (between rawAddr i j).length + 1 = j - i
  /-- Without a slice nothing is allocated or written. -/
  refuses : (∀ i j, LastAt rawAddr colon rawAddrSize.toNat j → ¬ LastAt rawAddr slash j i) →
    parseAddressBytes rawAddr rawAddrSize p heap = ⟨-1, p, []⟩
  /-- What stands from the size on makes no difference. -/
  reads : ∀ rawAddr' : List UInt8, (∀ k < rawAddrSize.toNat, rawAddr[k]? = rawAddr'[k]?) →
    parseAddressBytes rawAddr' rawAddrSize p heap = parseAddressBytes rawAddr rawAddrSize p heap
  /-- The size of the slice is never negative. -/
  size : ∀ endIndex startIndex, endIndex = scanLast rawAddr colon rawAddrSize.toNat →
    startIndex = scanLast rawAddr slash endIndex.toNat → endIndex ≠ -1 → startIndex ≠ -1 →
    0 ≤ endIndex - (startIndex + 1)

/-- **parse_address** accepts and returns exactly one thing: the bytes between
the last `:` and the last `/` before it. -/
theorem parsesExactly (rawAddr : List UInt8) (rawAddrSize : Int) (p : Option (List UInt8))
    (heap : Option (Nat → UInt8)) : ParsesExactly rawAddr rawAddrSize p heap where
  accepts i j dst hj hi hdst hroom :=
    ⟨parseAddressBytes_of_lastAt hj hi hdst hroom, length_between hj hi⟩
  refuses h := parseAddressBytes_of_not h p heap
  reads rawAddr' h := (parseAddressBytes_congr h p heap).symm
  size endIndex startIndex hend hstart hend' hstart' := by
    obtain ⟨j, hj⟩ := exists_scanLast_eq (hend ▸ hend')
    rw [hj] at hend
    subst hend
    rw [Int.toNat_natCast] at hstart
    obtain ⟨i, hi⟩ := exists_scanLast_eq (hstart ▸ hstart')
    have hlt := (scanLast_eq_iff.mp hi).1
    omega

/-- The name `h`, into an allocation of four bytes. -/
example : parseAddressBytes ("//h:1".toList.map Char.toUInt8) 5 (some [9, 9, 9, 9]) none =
    ⟨0, some [104, 0, 9, 9], []⟩ := by decide

/-! ## the view of the rest of the module -/

/-- The bytes of an allocation, and what `NameBuf` keeps of it. -/
def SeenAs : Option (List UInt8) → Option NameBuf → Prop
  | none, none => True
  | some bytes, some b => bytes.length = b.capacity ∧ (b.Fits → b.stored <+: bytes)
  | _, _ => False

theorem seenAs_written {dst src : List UInt8} {n capacity : Nat} (hsrc : n ≤ src.length)
    (hcapacity : dst.length = capacity) :
    SeenAs (some ((memcpy dst src n).set n 0)) (some ⟨capacity, src.take n⟩) := by
  have hlen : (src.take n).length = n := List.length_take_of_le hsrc
  constructor
  · simp only [memcpy, List.length_set, List.length_append, List.length_take, List.length_drop]
    omega
  · intro hfits
    have hlt : (src.take n).length < capacity := (NameBuf.fits_iff _).mp hfits
    rw [set_memcpy hsrc (by omega), NameBuf.stored]
    exact ⟨dst.drop (n + 1), by rw [List.append_assoc, List.singleton_append]⟩

/-- `parseAddress` is `parseAddressBytes` seen this way. -/
theorem parseAddressBytes_seenAs (rawAddr : List UInt8) (rawAddrSize : Nat)
    {p : Option (List UInt8)} {q : Option NameBuf} (heap : Option (Nat → UInt8))
    (h : SeenAs p q) :
    (parseAddressBytes rawAddr rawAddrSize p heap).status =
        (parseAddress rawAddr rawAddrSize q heap.isSome).1 ∧
      SeenAs (parseAddressBytes rawAddr rawAddrSize p heap).parsedAddr
        (parseAddress rawAddr rawAddrSize q heap.isSome).2 := by
  unfold parseAddressBytes parseAddress
  rw [Int.toNat_natCast]
  by_cases hend : scanLast rawAddr colon rawAddrSize = -1
  · rw [if_pos hend, if_pos hend]
    exact ⟨rfl, h⟩
  · obtain ⟨j, hj⟩ := exists_scanLast_eq hend
    rw [if_neg hend, if_neg hend, hj, Int.toNat_natCast]
    by_cases hstart : scanLast rawAddr slash j = -1
    · rw [if_pos hstart, if_pos hstart]
      exact ⟨rfl, h⟩
    · obtain ⟨i, hi⟩ := exists_scanLast_eq hstart
      have hlt := (List.getElem?_eq_some_iff.mp (scanLast_eq_iff.mp hj).2.1).1
      have hij := (scanLast_eq_iff.mp hi).1
      have hsize : ((j : Int) - ((i : Int) + 1)).toNat = j - (i + 1) := by omega
      have hfirst : ((i : Int) + 1).toNat = i + 1 := by omega
      have hsrc : j - (i + 1) ≤ (rawAddr.drop (i + 1)).length := by
        rw [List.length_drop]
        omega
      rw [if_neg hstart, if_neg hstart, hi]
      simp only [hsize, hfirst]
      cases p with
      | none =>
          cases q with
          | some b => exact h.elim
          | none =>
              cases heap with
              | none => exact ⟨rfl, trivial⟩
              | some garbage => exact ⟨rfl, seenAs_written hsrc (by simp)⟩
      | some bytes =>
          cases q with
          | none => exact h.elim
          | some b => exact ⟨rfl, seenAs_written hsrc h.1⟩

end PelionBorderRouter
