import PelionBorderRouter.Lib.Run

/-!
# PelionBorderRouter.Lib.Refine

Two machines compared, and one machine driven to a goal.

A `Projection` of `m` onto `m'` shows `m'` a part of the state and of the
events of `m`.  It is exact: an event of `m` can happen when the events it
shows can, and the part of the state then does what `m'` does.  Over whole
runs (`Projection.run_eq`) the part is the other machine, and the rest of
`m` can neither disturb nor block it.

`exists_run_of_progress` is the rule for goals: when each reachable state
short of the goal can be brought closer to it, no reachable state is a dead
end.
-/

universe u v w x

namespace Machine

variable {σ : Type u} {ε : Type v} {τ : Type w} {δ : Type x}

/-! ## projections -/

/-- `state` and `events` show exactly the machine `m'` within `m`. -/
structure Projection (m : Machine σ ε) (m' : Machine τ δ) where
  state : σ → τ
  events : ε → List δ
  start : state m.start = m'.start
  step : ∀ s e, (m.step s e).map state = (events e).foldlM m'.step (state s)

namespace Projection

variable {m : Machine σ ε} {m' : Machine τ δ} (p : Projection m m')

/-- The part of a run is a run of the other machine, and gets as far. -/
theorem run_eq (h : List ε) : (m.run h).map p.state = m'.run (h.flatMap p.events) := by
  induction h using List.reverseRecOn with
  | nil =>
      rw [run_nil, Option.map_some, p.start]
      rfl
  | append_singleton h e ih =>
      rw [run_concat, List.flatMap_append, run_append, ← ih]
      cases m.run h with
      | none => rfl
      | some s => simpa using p.step s e

end Projection

/-! ## goals -/

variable {m : Machine σ ε}

/-- **Progress**: when each reachable state short of the goal has a way to a
state of smaller rank by events of a kind `C`, each has a way to the goal by
such events. -/
theorem exists_run_of_progress {goal : σ → Prop} {C : ε → Prop} (rank : σ → Nat)
    (hprogress : ∀ h s, m.run h = some s → ¬ goal s →
      ∃ d s', (∀ e ∈ d, C e) ∧ m.run (h ++ d) = some s' ∧ rank s' < rank s)
    {h : List ε} {s : σ} (hs : m.run h = some s) :
    ∃ d s', (∀ e ∈ d, C e) ∧ m.run (h ++ d) = some s' ∧ goal s' := by
  induction hrank : rank s using Nat.strongRecOn generalizing h s with
  | ind n ih =>
      by_cases hgoal : goal s
      · exact ⟨[], s, by simp, by rw [List.append_nil]; exact hs, hgoal⟩
      · obtain ⟨d, s', hd, hs', hlt⟩ := hprogress h s hs hgoal
        obtain ⟨d', t, hd', ht, hgoal'⟩ := ih (rank s') (hrank ▸ hlt) hs' rfl
        refine ⟨d ++ d', t, ?_, by rw [← List.append_assoc]; exact ht, hgoal'⟩
        intro e he
        cases List.mem_append.mp he with
        | inl hfirst => exact hd e hfirst
        | inr hrest => exact hd' e hrest

end Machine
