import Mathlib.Algebra.Order.Monoid.Defs
import PelionBorderRouter.Lib.Run

/-!
# PelionBorderRouter.Lib.Account

Accounts kept along a run.  `total f h` adds up `f s e` over the steps of the
run `h`; `f` may be what a step costs, or how many things it makes or uses
up.

* `total_add_potential_eq` — what goes in and does not come out is there: a
  conservation law per step is one per run;
* `total_add_potential_le` — the same as a bound, the potential method.
-/

universe u v w

namespace Machine

variable {σ : Type u} {ε : Type v} {M : Type w} [AddCommMonoid M]

/-- The sum of `f` over the steps from `s` on. -/
def totalFrom (step : σ → ε → Option σ) (f : σ → ε → M) (s : σ) : List ε → M
  | [] => 0
  | e :: h =>
      match step s e with
      | none => 0
      | some s' => f s e + totalFrom step f s' h

variable (m : Machine σ ε)

/-- The sum of `f` over the steps of a run. -/
def total (f : σ → ε → M) (h : List ε) : M := totalFrom m.step f m.start h

@[simp] theorem total_nil (f : σ → ε → M) : m.total f [] = 0 := rfl

variable {m}

theorem totalFrom_concat {f : σ → ε → M} {h : List ε} {e : ε} {s t t' : σ}
    (ht : h.foldlM m.step s = some t) (hstep : m.step t e = some t') :
    totalFrom m.step f s (h ++ [e]) = totalFrom m.step f s h + f t e := by
  induction h generalizing s with
  | nil =>
      obtain rfl : s = t := by simpa using ht
      simp [totalFrom, hstep]
  | cons e' h ih =>
      cases hs : m.step s e' with
      | none => simp [hs] at ht
      | some s' =>
          have ht' : h.foldlM m.step s' = some t := by simpa [hs] using ht
          simp only [List.cons_append, totalFrom, hs, ih ht', add_assoc]

/-- The last step of a run adds its share. -/
theorem total_concat {f : σ → ε → M} {h : List ε} {e : ε} {s s' : σ} (hs : m.run h = some s)
    (hstep : m.step s e = some s') : m.total f (h ++ [e]) = m.total f h + f s e :=
  totalFrom_concat hs hstep

/-- **Conservation**: when each step turns what there is and what it gets
into what it uses and what there is then, so does each run. -/
theorem total_add_potential_eq {f a : σ → ε → M} {Φ : σ → M}
    (hstep : ∀ pre s e s', m.run pre = some s → m.step s e = some s' →
      f s e + Φ s' = Φ s + a s e)
    {h : List ε} {s : σ} (hs : m.run h = some s) :
    m.total f h + Φ s = Φ m.start + m.total a h := by
  refine m.invariant (R := fun h s => m.total f h + Φ s = Φ m.start + m.total a h) ?_ ?_ hs
  · rw [total_nil, total_nil, zero_add, add_zero]
  · intro pre s e s' hrun ih hst
    rw [total_concat hrun hst, total_concat hrun hst, add_assoc, hstep pre s e s' hrun hst,
      ← add_assoc, ih, add_assoc]

/-- **Potential**: when each step costs at most the potential it takes away
and what it is allowed, a run costs at most the potential of the start and
what its steps are allowed. -/
theorem total_add_potential_le [PartialOrder M] [IsOrderedAddMonoid M] {f a : σ → ε → M}
    {Φ : σ → M}
    (hstep : ∀ pre s e s', m.run pre = some s → m.step s e = some s' →
      f s e + Φ s' ≤ Φ s + a s e)
    {h : List ε} {s : σ} (hs : m.run h = some s) :
    m.total f h + Φ s ≤ Φ m.start + m.total a h := by
  refine m.invariant (R := fun h s => m.total f h + Φ s ≤ Φ m.start + m.total a h) ?_ ?_ hs
  · rw [total_nil, total_nil, zero_add, add_zero]
  · intro pre s e s' hrun ih hst
    rw [total_concat hrun hst, total_concat hrun hst]
    calc m.total f pre + f s e + Φ s'
        = m.total f pre + (f s e + Φ s') := add_assoc _ _ _
      _ ≤ m.total f pre + (Φ s + a s e) := add_le_add_right (hstep pre s e s' hrun hst) _
      _ = m.total f pre + Φ s + a s e := (add_assoc _ _ _).symm
      _ ≤ Φ m.start + m.total a pre + a s e := add_le_add_left ih _
      _ = Φ m.start + (m.total a pre + a s e) := add_assoc _ _ _

theorem total_zero {h : List ε} {s : σ} (hs : m.run h = some s) :
    m.total (fun _ _ => (0 : M)) h = 0 := by
  refine m.invariant (R := fun h _ => m.total (fun _ _ => (0 : M)) h = 0) (total_nil m _) ?_ hs
  intro pre s e s' hrun ih hst
  rw [total_concat hrun hst, ih, add_zero]

/-- **Bounded work**: when each step costs at most the potential it takes away,
all runs together cost no more than the potential of the start. -/
theorem total_add_potential_le_start [PartialOrder M] [IsOrderedAddMonoid M] {f : σ → ε → M}
    {Φ : σ → M}
    (hstep : ∀ pre s e s', m.run pre = some s → m.step s e = some s' → f s e + Φ s' ≤ Φ s)
    {h : List ε} {s : σ} (hs : m.run h = some s) : m.total f h + Φ s ≤ Φ m.start := by
  have hle := total_add_potential_le (a := fun _ _ => 0)
    (fun pre s e s' hrun hst => (hstep pre s e s' hrun hst).trans_eq (add_zero _).symm) hs
  rwa [total_zero hs, add_zero] at hle

end Machine
