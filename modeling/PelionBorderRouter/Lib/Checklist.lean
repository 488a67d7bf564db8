import Mathlib.Data.List.Basic

/-!
# PelionBorderRouter.Lib.Checklist

Calls made one after the other, where a call that is checked and fails ends
the list.  `perform` is what such code does; `firstFailure_of_perform` and
`perform_fst_iff` say all there is to say about it: it ends with the first
checked call that fails, makes no call after that one, and otherwise makes
them all.
-/

universe u v

/-- A call, and whether its result is checked. -/
structure Check (κ : Type u) where
  call : κ
  checked : Bool
deriving DecidableEq, Repr

namespace Check

variable {κ : Type u}

/-- The call is let through when it comes out as `io` says. -/
def Passes (io : κ → Bool) (c : Check κ) : Prop := c.checked = true → io c.call = true

instance (io : κ → Bool) (c : Check κ) : Decidable (c.Passes io) :=
  inferInstanceAs (Decidable (_ → _))

/-- Make the calls up to the first one that does not pass: which one that is,
and the calls made. -/
def perform (io : κ → Bool) : List (Check κ) → Option κ × List κ
  | [] => (none, [])
  | c :: cs =>
      if c.Passes io then ((perform io cs).1, c.call :: (perform io cs).2)
      else (some c.call, [c.call])

variable {io : κ → Bool}

@[simp] theorem passes_checked (c : κ) : Passes io ⟨c, true⟩ ↔ io c = true :=
  ⟨fun h => h rfl, fun h _ => h⟩

@[simp] theorem passes_unchecked (c : κ) : Passes io ⟨c, false⟩ := fun h => Bool.noConfusion h

theorem perform_cons_of_passes {c : Check κ} {cs : List (Check κ)} (h : c.Passes io) :
    perform io (c :: cs) = ((perform io cs).1, c.call :: (perform io cs).2) := if_pos h

theorem perform_cons_of_not {c : Check κ} {cs : List (Check κ)} (h : ¬ c.Passes io) :
    perform io (c :: cs) = (some c.call, [c.call]) := if_neg h

/-- The same with `done` already made, followed by `next` or by `fail`: what code
with an exit at each checked call looks like. -/
def performThen {β : Type v} (io : κ → Bool) (next : List κ → β) (fail : κ → List κ → β) :
    List (Check κ) → List κ → β
  | [], done => next done
  | c :: cs, done =>
      if c.Passes io then performThen io next fail cs (done ++ [c.call])
      else fail c.call (done ++ [c.call])

theorem performThen_eq {β : Type v} (next : List κ → β) (fail : κ → List κ → β)
    (cs : List (Check κ)) (done : List κ) :
    performThen io next fail cs done =
      match (perform io cs).1 with
      | none => next (done ++ (perform io cs).2)
      | some c => fail c (done ++ (perform io cs).2) := by
  induction cs generalizing done with
  | nil => simp [performThen, perform]
  | cons c cs ih =>
      by_cases hc : c.Passes io
      · rw [performThen, if_pos hc, ih, perform_cons_of_passes hc]
        simp
      · rw [performThen, if_neg hc, perform_cons_of_not hc]

/-- The list is got through exactly when every call passes. -/
theorem perform_fst_iff {cs : List (Check κ)} :
    (perform io cs).1 = none ↔ ∀ c ∈ cs, c.Passes io := by
  induction cs with
  | nil => simp [perform]
  | cons c cs ih =>
      by_cases hc : c.Passes io
      · rw [perform_cons_of_passes hc, List.forall_mem_cons]
        exact ih.trans (and_iff_right hc).symm
      · rw [perform_cons_of_not hc, List.forall_mem_cons]
        simp [hc]

/-- Then all calls have been made. -/
theorem perform_snd_of_passes {cs : List (Check κ)} (h : ∀ c ∈ cs, c.Passes io) :
    (perform io cs).2 = cs.map call := by
  induction cs with
  | nil => rfl
  | cons c cs ih =>
      obtain ⟨hc, hcs⟩ := List.forall_mem_cons.mp h
      rw [perform_cons_of_passes hc, ih hcs, List.map_cons]

/-- The calls made are the first ones of the list. -/
theorem perform_snd_prefix (cs : List (Check κ)) : (perform io cs).2 <+: cs.map call := by
  induction cs with
  | nil => exact List.prefix_refl _
  | cons c cs ih =>
      by_cases hc : c.Passes io
      · rw [perform_cons_of_passes hc, List.map_cons]
        exact (List.prefix_cons_inj c.call).mpr ih
      · rw [perform_cons_of_not hc]
        exact ⟨cs.map call, rfl⟩

/-- Before a call that is made all calls have passed. -/
theorem passes_of_perform {cs : List (Check κ)} {pre post : List κ} {x : κ}
    (h : (perform io cs).2 = pre ++ x :: post) : ∀ c ∈ cs.take pre.length, c.Passes io := by
  induction cs generalizing pre with
  | nil => simp
  | cons c cs ih =>
      cases pre with
      | nil => simp
      | cons y pre =>
          by_cases hc : c.Passes io
          · rw [perform_cons_of_passes hc, List.cons_append, List.cons.injEq] at h
            rw [List.length_cons, List.take_succ_cons]
            exact List.forall_mem_cons.mpr ⟨hc, ih h.2⟩
          · rw [perform_cons_of_not hc] at h
            simp at h

/-- **First failure**: a call that ends the list is the last one made, and the
first one that does not pass. -/
theorem firstFailure_of_perform {cs : List (Check κ)} {x : κ} (h : (perform io cs).1 = some x) :
    ∃ before c after, cs = before ++ c :: after ∧ (∀ c ∈ before, c.Passes io) ∧
      ¬ c.Passes io ∧ c.call = x ∧ (perform io cs).2 = before.map call ++ [x] := by
  induction cs with
  | nil => cases h
  | cons c cs ih =>
      by_cases hc : c.Passes io
      · rw [perform_cons_of_passes hc] at h ⊢
        obtain ⟨before, c', after, rfl, hbefore, hc', hx, hcalls⟩ := ih h
        refine ⟨c :: before, c', after, rfl, List.forall_mem_cons.mpr ⟨hc, hbefore⟩, hc', hx, ?_⟩
        rw [hcalls]
        rfl
      · rw [perform_cons_of_not hc] at h ⊢
        obtain rfl := Option.some.inj h
        exact ⟨[], c, cs, rfl, by simp, hc, rfl, rfl⟩

end Check
