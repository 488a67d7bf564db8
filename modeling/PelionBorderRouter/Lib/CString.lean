import Mathlib.Data.List.TakeWhile

/-!
# PelionBorderRouter.Lib.CString

C strings and fixed-size `char` arrays.

A `CStr` is the string itself: characters without a NUL.  A `CharBuf n` is
the array it may live in: exactly `n` bytes, with or without a NUL among
them.  The copy routines are given by the bytes they store from index `0`
on (`strcpyBytes`, `strncpyBytes`), so that where a call writes is read off
a list; `CharBuf.store` keeps of them what falls inside the array.  Reading
a string back (`readCStr?`) fails when the bytes hold no NUL: that is where
`strlen` would leave the array.
-/

/-- A C string: its characters, without the terminating NUL. -/
@[ext] structure CStr where
  chars : List UInt8
  nul_notMem : (0 : UInt8) ∉ chars
deriving DecidableEq, Repr

namespace CStr

/-- The number of characters before the NUL. -/
def strlen (s : CStr) : Nat := s.chars.length

/-- The string cut to its first `k` characters. -/
def cut (s : CStr) (k : Nat) : CStr :=
  ⟨s.chars.take k, fun h => s.nul_notMem (List.mem_of_mem_take h)⟩

/-- The bytes of the string in memory, NUL included. -/
def toBytes (s : CStr) : List UInt8 := s.chars ++ [0]

@[simp] theorem length_chars (s : CStr) : s.chars.length = s.strlen := rfl

@[simp] theorem length_toBytes (s : CStr) : s.toBytes.length = s.strlen + 1 := by
  simp [toBytes]

/-- The NUL stands right behind the characters. -/
theorem getElem?_toBytes_strlen (s : CStr) : s.toBytes[s.strlen]? = some 0 :=
  List.getElem?_concat_length

@[simp] theorem chars_cut (s : CStr) (k : Nat) : (s.cut k).chars = s.chars.take k := rfl

/-- Cutting at or past the end changes nothing. -/
theorem cut_of_le {s : CStr} {k : Nat} (h : s.strlen ≤ k) : s.cut k = s := by
  ext1
  exact List.take_of_length_le h

end CStr

/-! ## reading a string -/

/-- The C string at the start of `bs`, if a NUL ends it within `bs`. -/
def readCStr? (bs : List UInt8) : Option CStr :=
  if 0 ∈ bs then
    some ⟨bs.takeWhile (· ≠ 0), fun h => by simpa using List.mem_takeWhile_imp h⟩
  else none

/-- A string followed by its NUL reads back, whatever comes after. -/
theorem readCStr?_append_nul (s : CStr) (rest : List UInt8) :
    readCStr? (s.chars ++ 0 :: rest) = some s := by
  have hall : ∀ c ∈ s.chars, decide (c ≠ 0) = true := by
    intro c hc
    simpa using fun h0 : c = 0 => s.nul_notMem (h0 ▸ hc)
  rw [readCStr?, if_pos (by simp)]
  congr 1
  ext1
  change (s.chars ++ 0 :: rest).takeWhile (· ≠ 0) = s.chars
  rw [List.takeWhile_append_of_pos hall]
  simp

theorem readCStr?_eq_none_iff {bs : List UInt8} : readCStr? bs = none ↔ 0 ∉ bs := by
  simp [readCStr?]

theorem isSome_readCStr?_iff {bs : List UInt8} : (readCStr? bs).isSome ↔ 0 ∈ bs := by
  rw [Option.isSome_iff_ne_none, Ne, readCStr?_eq_none_iff, not_not]

/-- What reads back as `s` is `s`, its NUL, and a rest. -/
theorem readCStr?_eq_some_iff {bs : List UInt8} {s : CStr} :
    readCStr? bs = some s ↔ ∃ rest, bs = s.chars ++ 0 :: rest := by
  constructor
  · intro h
    have hmem : 0 ∈ bs := isSome_readCStr?_iff.mp (by rw [h]; rfl)
    -- the characters before the first NUL are the string
    obtain ⟨front, rest, hbs, hfront⟩ := List.eq_append_cons_of_mem hmem
    have hread : readCStr? bs = some ⟨front, hfront⟩ := by
      rw [hbs]
      exact readCStr?_append_nul ⟨front, hfront⟩ rest
    obtain rfl : (⟨front, hfront⟩ : CStr) = s := Option.some.inj (hread.symm.trans h)
    exact ⟨rest, hbs⟩
  · rintro ⟨rest, rfl⟩
    exact readCStr?_append_nul s rest

/-- The characters read back are `chars` exactly when these and a NUL stand at
the start, and no other NUL among them. -/
theorem map_chars_readCStr?_eq_some_iff {bs chars : List UInt8} :
    (readCStr? bs).map CStr.chars = some chars ↔ 0 ∉ chars ∧ chars ++ [0] <+: bs := by
  rw [Option.map_eq_some_iff]
  constructor
  · rintro ⟨s, hs, rfl⟩
    obtain ⟨rest, rfl⟩ := readCStr?_eq_some_iff.mp hs
    exact ⟨s.nul_notMem, rest, by simp⟩
  · rintro ⟨hnul, rest, rfl⟩
    exact ⟨⟨chars, hnul⟩, readCStr?_eq_some_iff.mpr ⟨rest, by simp⟩, rfl⟩

/-- A string begins the memory another one is read from exactly when it
begins that string. -/
theorem prefix_iff_of_readCStr? {bs : List UInt8} {s : CStr} (h : readCStr? bs = some s)
    (p : CStr) : p.chars <+: bs ↔ p.chars <+: s.chars := by
  obtain ⟨rest, rfl⟩ := readCStr?_eq_some_iff.mp h
  constructor
  · intro hp
    cases List.prefix_or_prefix_of_prefix hp (List.prefix_append s.chars (0 :: rest)) with
    | inl hps => exact hps
    | inr hsp =>
        -- were `p` longer than `s`, it would have the NUL in it
        obtain ⟨tail, htail⟩ := hsp
        rw [← htail, List.prefix_append_right_inj] at hp
        cases tail with
        | nil => exact ⟨[], by simpa using htail.symm⟩
        | cons c cs =>
            obtain rfl : c = 0 := (List.cons_prefix_cons.mp hp).1
            exact absurd (htail ▸ by simp) p.nul_notMem
  · exact fun hp => hp.trans (List.prefix_append s.chars (0 :: rest))

/-! ## comparing a bounded prefix -/

/-- `strncmp` on memory read as C strings; past the end of a list stands the
NUL. -/
def strncmp : List UInt8 → List UInt8 → Nat → Int
  | _, _, 0 => 0
  | as, bs, n + 1 =>
      if as.headD 0 = bs.headD 0 then
        if as.headD 0 = 0 then 0 else strncmp as.tail bs.tail n
      else ((as.headD 0).toNat : Int) - (bs.headD 0).toNat

theorem strncmp_cons_cons (a b : UInt8) (as bs : List UInt8) (n : Nat) :
    strncmp (a :: as) (b :: bs) (n + 1) =
      if a = b then if a = 0 then 0 else strncmp as bs n else (a.toNat : Int) - b.toNat := rfl

theorem strncmp_nil_cons (b : UInt8) (bs : List UInt8) (n : Nat) :
    strncmp [] (b :: bs) (n + 1) = if 0 = b then 0 else (0 : Int) - b.toNat := rfl

/-- Comparing as many characters as the second string has asks whether it
begins the first one. -/
theorem strncmp_eq_zero_iff_prefix {as bs : List UInt8} (hbs : (0 : UInt8) ∉ bs) :
    strncmp as bs bs.length = 0 ↔ bs <+: as := by
  induction bs generalizing as with
  | nil => simp [strncmp]
  | cons b bs ih =>
      have hb : b ≠ 0 := fun h => hbs (by simp [h])
      cases as with
      | nil =>
          have hpos : b.toNat ≠ 0 := fun h => hb (UInt8.toNat_inj.mp h)
          rw [List.length_cons, strncmp_nil_cons, if_neg hb.symm]
          refine iff_of_false (by omega) fun h => ?_
          exact absurd (List.prefix_nil.mp h) (by simp)
      | cons a as =>
          have ih' := @ih as fun h => hbs (List.mem_cons_of_mem _ h)
          rw [List.length_cons, strncmp_cons_cons, List.cons_prefix_cons]
          by_cases hab : a = b
          · rw [if_pos hab, if_neg (hab ▸ hb), ih']
            simp [hab]
          · have hne : (a.toNat : Int) - b.toNat ≠ 0 := fun h =>
              hab (UInt8.toNat_inj.mp (by omega))
            rw [if_neg hab]
            exact iff_of_false hne fun h => hab h.1.symm

/-! ## fixed-size arrays -/

/-- A `char` array of `n` bytes. -/
structure CharBuf (n : Nat) where
  bytes : List UInt8
  length_bytes : bytes.length = n
deriving DecidableEq, Repr

/-- The bytes `strcpy` stores: the string and its NUL. -/
def strcpyBytes (s : CStr) : List UInt8 := s.toBytes

/-- The bytes `strncpy` stores: exactly `k`, the string cut or padded with
NULs. -/
def strncpyBytes (s : CStr) (k : Nat) : List UInt8 :=
  s.chars.take k ++ List.replicate (k - s.strlen) 0

@[simp] theorem length_strcpyBytes (s : CStr) : (strcpyBytes s).length = s.strlen + 1 := by
  simp [strcpyBytes]

@[simp] theorem length_strncpyBytes (s : CStr) (k : Nat) : (strncpyBytes s k).length = k := by
  simp only [strncpyBytes, List.length_append, List.length_take, List.length_replicate,
    CStr.length_chars]
  omega

/-- A copy of more characters than `p` has begins as the string does. -/
theorem prefix_strncpyBytes {s : CStr} {p : List UInt8} {k : Nat} (hp : p <+: s.chars)
    (hk : p.length ≤ k) : p <+: strncpyBytes s k :=
  (List.prefix_take_iff.mpr ⟨hp, hk⟩).trans (List.prefix_append _ _)

namespace CharBuf

variable {n : Nat}

/-- A zero-initialised array. -/
def zeros (n : Nat) : CharBuf n := ⟨List.replicate n 0, List.length_replicate⟩

/-- Store `src` from index `0` on; what falls past the end is not part of
the array. -/
def store (b : CharBuf n) (src : List UInt8) : CharBuf n :=
  ⟨src.take n ++ b.bytes.drop src.length, by
    simp only [List.length_append, List.length_take, List.length_drop, b.length_bytes]
    omega⟩

def strcpy (b : CharBuf n) (s : CStr) : CharBuf n := b.store (strcpyBytes s)

def strncpy (b : CharBuf n) (s : CStr) (k : Nat) : CharBuf n := b.store (strncpyBytes s k)

/-- The C string in the array, if its NUL lies inside. -/
def cstr? (b : CharBuf n) : Option CStr := readCStr? b.bytes

/-- The `k` bytes of memory from the start of the array on, where `past`
follows it. -/
def readBytes (b : CharBuf n) (past : Nat → UInt8) (k : Nat) : List UInt8 :=
  b.bytes.take k ++ (List.range (k - n)).map past

@[simp] theorem length_readBytes (b : CharBuf n) (past : Nat → UInt8) (k : Nat) :
    (b.readBytes past k).length = k := by
  simp only [readBytes, List.length_append, List.length_take, List.length_map, List.length_range,
    b.length_bytes]
  omega

/-- Up to the array's size a read stays inside it. -/
theorem readBytes_of_le (b : CharBuf n) (past : Nat → UInt8) {k : Nat} (h : k ≤ n) :
    b.readBytes past k = b.bytes.take k := by
  simp [readBytes, Nat.sub_eq_zero_of_le h]

/-- Beyond the array's size a read begins with all of it. -/
theorem take_readBytes (b : CharBuf n) (past : Nat → UInt8) {k : Nat} (h : n ≤ k) :
    (b.readBytes past k).take n = b.bytes := by
  have hall : b.bytes.take k = b.bytes := List.take_of_length_le (by rw [b.length_bytes]; exact h)
  rw [readBytes, hall]
  exact List.take_left' b.length_bytes

/-! ### what a store leaves -/

theorem bytes_store_of_le (b : CharBuf n) {src : List UInt8} (h : src.length ≤ n) :
    (b.store src).bytes = src ++ b.bytes.drop src.length := by
  simp [store, List.take_of_length_le h]

/-- A store that covers the array replaces it. -/
theorem bytes_store_of_ge (b : CharBuf n) {src : List UInt8} (h : n ≤ src.length) :
    (b.store src).bytes = src.take n := by
  have hd : b.bytes.drop src.length = [] := List.drop_of_length_le (by rw [b.length_bytes]; exact h)
  simp [store, hd]

/-- A byte the store does not reach stays. -/
theorem getElem?_store_of_le (b : CharBuf n) {src : List UInt8} {i : Nat} (h : src.length ≤ i) :
    (b.store src).bytes[i]? = b.bytes[i]? := by
  by_cases hn : src.length ≤ n
  · rw [bytes_store_of_le b hn, List.getElem?_append_right h, List.getElem?_drop]
    congr 1
    omega
  · have h1 : (b.store src).bytes[i]? = none :=
      List.getElem?_eq_none (by rw [length_bytes]; omega)
    have h2 : b.bytes[i]? = none := List.getElem?_eq_none (by rw [length_bytes]; omega)
    rw [h1, h2]

/-- A byte the store reaches is the stored one. -/
theorem getElem?_store_of_lt (b : CharBuf n) {src : List UInt8} {i : Nat} (h : i < src.length)
    (hn : i < n) : (b.store src).bytes[i]? = src[i]? := by
  rw [store, List.getElem?_append_left (by rw [List.length_take]; omega),
    List.getElem?_take_of_lt hn]

/-- What the stored bytes begin with, the array begins with. -/
theorem prefix_store (b : CharBuf n) {p src : List UInt8} (hp : p <+: src) (hn : p.length ≤ n) :
    p <+: (b.store src).bytes :=
  (List.prefix_take_iff.mpr ⟨hp, hn⟩).trans (List.prefix_append _ _)

/-- A stored string reads back when its NUL is stored inside the array. -/
theorem cstr?_strcpy (b : CharBuf n) {s : CStr} (h : s.strlen < n) :
    (b.strcpy s).cstr? = some s := by
  have hle : (strcpyBytes s).length ≤ n := by rw [length_strcpyBytes]; exact h
  rw [cstr?, strcpy, bytes_store_of_le b hle, strcpyBytes, CStr.toBytes, List.append_assoc]
  exact readCStr?_append_nul s _

/-- The string in an array is shorter than the array. -/
theorem strlen_lt_of_cstr? {b : CharBuf n} {s : CStr} (h : b.cstr? = some s) : s.strlen < n := by
  obtain ⟨rest, hrest⟩ := readCStr?_eq_some_iff.mp h
  have hlen := congrArg List.length hrest
  rw [b.length_bytes, List.length_append, List.length_cons, CStr.length_chars] at hlen
  omega

/-- A string as long as the array or longer leaves no NUL in it. -/
theorem cstr?_strcpy_of_ge (b : CharBuf n) {s : CStr} (h : n ≤ s.strlen) :
    (b.strcpy s).cstr? = none := by
  have hge : n ≤ (strcpyBytes s).length := by rw [length_strcpyBytes]; omega
  rw [cstr?, strcpy, bytes_store_of_ge b hge, strcpyBytes, CStr.toBytes,
    List.take_append_of_le_length h, readCStr?_eq_none_iff]
  exact fun h0 => s.nul_notMem (List.mem_of_mem_take h0)

/-- `strncpy` of `k` characters reads back as the cut string when a NUL was
standing at index `k` already. -/
theorem cstr?_strncpy (b : CharBuf n) (s : CStr) {k : Nat} (h : b.bytes[k]? = some 0) :
    (b.strncpy s k).cstr? = some (s.cut k) := by
  obtain ⟨hk, h0⟩ := List.getElem?_eq_some_iff.mp h
  have hle : (strncpyBytes s k).length ≤ n := by
    rw [length_strncpyBytes, ← b.length_bytes]; omega
  have hdrop : b.bytes.drop k = 0 :: b.bytes.drop (k + 1) := by
    rw [List.drop_eq_getElem_cons hk, h0]
  rw [cstr?, strncpy, bytes_store_of_le b hle, length_strncpyBytes, hdrop, strncpyBytes,
    List.append_assoc, readCStr?_eq_some_iff]
  -- padding NULs, if any, come before the one at index `k`
  cases hpad : k - s.strlen with
  | zero => exact ⟨b.bytes.drop (k + 1), by simp⟩
  | succ p => exact ⟨List.replicate p 0 ++ 0 :: b.bytes.drop (k + 1), by simp [List.replicate_succ]⟩

end CharBuf
