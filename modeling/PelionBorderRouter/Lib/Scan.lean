import Mathlib.Data.List.TakeWhile

/-!
# PelionBorderRouter.Lib.Scan

Searching for the last occurrence of an element by a forward scan that
remembers the latest hit, `-1` standing for none:

```
last = -1;  for (i = 0; i < stop; i++)  if (xs[i] == c)  last = i;
```
-/

universe u

/-- A list that has a `c` splits at its last one. -/
theorem exists_append_cons_of_mem {α : Type u} {xs : List α} {c : α} (h : c ∈ xs) :
    ∃ front back, xs = front ++ c :: back ∧ c ∉ back := by
  obtain ⟨back, front, hrev, hback⟩ := List.eq_append_cons_of_mem (List.mem_reverse.mpr h)
  refine ⟨front.reverse, back.reverse, ?_, by simpa using hback⟩
  have hxs := congrArg List.reverse hrev
  simpa using hxs

variable {α : Type u} [DecidableEq α]

/-- What is left from the first `c` on begins with it, and it is not before. -/
theorem eq_append_of_dropWhile {xs rest : List α} {c d : α}
    (h : xs.dropWhile (· != c) = d :: rest) :
    d = c ∧ xs = xs.takeWhile (· != c) ++ c :: rest ∧ c ∉ xs.takeWhile (· != c) := by
  have hhead := List.head?_dropWhile_not (· != c) xs
  rw [h] at hhead
  obtain rfl : d = c := by simpa using hhead
  have hsplit : xs.takeWhile (· != d) ++ xs.dropWhile (· != d) = xs :=
    List.takeWhile_append_dropWhile
  rw [h] at hsplit
  exact ⟨rfl, hsplit.symm, fun hmem => by simpa using List.mem_takeWhile_imp hmem⟩

/-- A list that has a `c` is not dropped as a whole. -/
theorem exists_dropWhile_eq {xs : List α} {c : α} (h : c ∈ xs) :
    ∃ rest, xs.dropWhile (· != c) = c :: rest := by
  cases hdrop : xs.dropWhile (· != c) with
  | nil => exact absurd (List.dropWhile_eq_nil_iff.mp hdrop c h) (by simp)
  | cons d rest => exact ⟨rest, by rw [(eq_append_of_dropWhile hdrop).1]⟩

/-- The index of the last `c` among the first `stop` elements, or `-1`. -/
def scanLast (xs : List α) (c : α) (stop : Nat) : Int :=
  (List.range stop).foldl (fun (last : Int) (i : Nat) => if xs[i]? = some c then i else last) (-1)

@[simp] theorem scanLast_zero (xs : List α) (c : α) : scanLast xs c 0 = -1 := rfl

/-- One more turn of the loop. -/
theorem scanLast_succ (xs : List α) (c : α) (stop : Nat) :
    scanLast xs c (stop + 1) = if xs[stop]? = some c then (stop : Int) else scanLast xs c stop := by
  simp [scanLast, List.range_succ]

/-- The scan comes back empty when there is no hit, and with the last hit
when there is one. -/
theorem scanLast_spec (xs : List α) (c : α) (stop : Nat) :
    (scanLast xs c stop = -1 ∧ ∀ j < stop, xs[j]? ≠ some c) ∨
      ∃ i < stop, scanLast xs c stop = i ∧ xs[i]? = some c ∧
        ∀ j, i < j → j < stop → xs[j]? ≠ some c := by
  induction stop with
  | zero => exact Or.inl ⟨scanLast_zero xs c, fun j hj => absurd hj (Nat.not_lt_zero j)⟩
  | succ stop ih =>
      rw [scanLast_succ]
      by_cases hc : xs[stop]? = some c
      · rw [if_pos hc]
        exact Or.inr ⟨stop, Nat.lt_succ_self _, rfl, hc, fun j hj hj' => by omega⟩
      · rw [if_neg hc]
        have hnext : ∀ j < stop + 1, ¬ j < stop → xs[j]? ≠ some c := by
          intro j hj hge
          obtain rfl : j = stop := by omega
          exact hc
        cases ih with
        | inl hnone =>
            refine Or.inl ⟨hnone.1, fun j hj => ?_⟩
            by_cases hlt : j < stop
            · exact hnone.2 j hlt
            · exact hnext j hj hlt
        | inr hsome =>
            obtain ⟨i, hi, hscan, hhit, hlast⟩ := hsome
            refine Or.inr ⟨i, by omega, hscan, hhit, fun j hij hj => ?_⟩
            by_cases hlt : j < stop
            · exact hlast j hij hlt
            · exact hnext j hj hlt

/-- A scan that finds something returns its index. -/
theorem exists_scanLast_eq {xs : List α} {c : α} {stop : Nat} (h : scanLast xs c stop ≠ -1) :
    ∃ i : Nat, scanLast xs c stop = i := by
  cases scanLast_spec xs c stop with
  | inl hnone => exact absurd hnone.1 h
  | inr hsome => exact ⟨_, hsome.choose_spec.2.1⟩

/-- `i` is the index of the last `c` below `stop`. -/
def LastAt (xs : List α) (c : α) (stop i : Nat) : Prop :=
  i < stop ∧ xs[i]? = some c ∧ ∀ j, i < j → j < stop → xs[j]? ≠ some c

/-- The scan returns the index of the last hit. -/
theorem scanLast_eq_iff {xs : List α} {c : α} {stop i : Nat} :
    scanLast xs c stop = i ↔ LastAt xs c stop i := by
  cases scanLast_spec xs c stop with
  | inl hnone =>
      refine iff_of_false ?_ fun hlast => hnone.2 i hlast.1 hlast.2.1
      rw [hnone.1]
      omega
  | inr hsome =>
      obtain ⟨k, hk, hscan, hhit, hlast⟩ := hsome
      rw [hscan, Int.ofNat_inj]
      constructor
      · intro heq
        exact heq ▸ ⟨hk, hhit, hlast⟩
      · intro hi
        have hle : ¬ k < i := fun hlt => hlast i hlt hi.1 hi.2.1
        have hge : ¬ i < k := fun hlt => hi.2.2 k hlt hk hhit
        omega

/-- The scan looks at the first `stop` elements only. -/
theorem scanLast_congr {xs ys : List α} {c : α} {stop : Nat} (h : ∀ i < stop, xs[i]? = ys[i]?) :
    scanLast xs c stop = scanLast ys c stop := by
  induction stop with
  | zero => rw [scanLast_zero, scanLast_zero]
  | succ stop ih =>
      rw [scanLast_succ, scanLast_succ, h stop (Nat.lt_succ_self stop),
        ih fun i hi => h i (Nat.lt_succ_of_lt hi)]

theorem lastAt_congr {xs ys : List α} {c : α} {stop i : Nat}
    (h : ∀ i < stop, xs[i]? = ys[i]?) : LastAt xs c stop i ↔ LastAt ys c stop i := by
  rw [← scanLast_eq_iff, ← scanLast_eq_iff, scanLast_congr h]

/-- The scan finds the `c` that no other one follows before `stop`. -/
theorem scanLast_append_cons {front back rest : List α} {c : α} (hback : c ∉ back) :
    scanLast (front ++ c :: (back ++ rest)) c (front.length + 1 + back.length) = front.length := by
  have hhit : (front ++ c :: (back ++ rest))[front.length]? = some c := by simp
  have hback' : ∀ j, front.length < j → j < front.length + 1 + back.length →
      (front ++ c :: (back ++ rest))[j]? ≠ some c := by
    intro j hj hlt hc
    obtain ⟨k, rfl⟩ : ∃ k, j = front.length + (k + 1) := ⟨j - front.length - 1, by omega⟩
    rw [List.getElem?_append_right (Nat.le_add_right _ _), Nat.add_sub_cancel_left,
      List.getElem?_cons_succ, List.getElem?_append_left (by omega)] at hc
    exact hback (List.mem_of_getElem? hc)
  cases scanLast_spec (front ++ c :: (back ++ rest)) c (front.length + 1 + back.length) with
  | inl hnone => exact absurd hhit (hnone.2 front.length (by omega))
  | inr hsome =>
      obtain ⟨i, hi, hscan, hhit', hlast⟩ := hsome
      have hle : ¬ i < front.length := fun hlt => hlast front.length hlt (by omega) hhit
      have hge : ¬ front.length < i := fun hlt => hback' i hlt hi hhit'
      rw [hscan]
      omega

/-- What the scan finds splits the list there. -/
theorem exists_append_of_scanLast {xs : List α} {c : α} {stop i : Nat}
    (h : scanLast xs c stop = i) :
    i < stop ∧ ∃ front back rest, xs = front ++ c :: (back ++ rest) ∧ front.length = i ∧
      i + 1 + back.length ≤ stop ∧ (rest = [] ∨ i + 1 + back.length = stop) ∧ c ∉ back := by
  cases scanLast_spec xs c stop with
  | inl hnone =>
      rw [hnone.1] at h
      omega
  | inr hsome =>
      obtain ⟨i', hi, hscan, hhit, hlast⟩ := hsome
      obtain rfl : i' = i := by omega
      obtain ⟨hlt, hget⟩ := List.getElem?_eq_some_iff.mp hhit
      refine ⟨hi, xs.take i', (xs.drop (i' + 1)).take (stop - (i' + 1)),
        (xs.drop (i' + 1)).drop (stop - (i' + 1)), ?_, ?_, ?_, ?_, ?_⟩
      · rw [List.take_append_drop, ← hget, ← List.drop_eq_getElem_cons hlt, List.take_append_drop]
      · exact List.length_take_of_le (Nat.le_of_lt hlt)
      · simp only [List.length_take]
        omega
      · simp only [List.drop_eq_nil_iff, List.length_take, List.length_drop]
        omega
      · intro hmem
        obtain ⟨k, hk⟩ := List.getElem?_of_mem hmem
        have hlen := (List.getElem?_eq_some_iff.mp hk).1
        rw [List.length_take] at hlen
        rw [List.getElem?_take_of_lt (by omega), List.getElem?_drop] at hk
        exact hlast _ (by omega) (by omega) hk
