import PelionBorderRouter.Lib.Run

/-!
# PelionBorderRouter.Lib.Restart

Programs that can lose power at any moment.  All they keep then is what they
have stored; the next start begins with that.

A *session* runs from one start to the next, a *life* is any number of
sessions.  `exists_session` cuts a life at its last restart, and
`exists_session_of_kept` is the rule of recovery: a condition on the store
that each session leaves as it has found it, wherever the session breaks
off, is one on the store of every session.
-/

universe u v w

/-- A program with a store: where a start that finds `p` stored begins, and
what of a state is stored. -/
structure Restartable (σ : Type u) (ε : Type v) (π : Type w) where
  boot : π → σ
  step : σ → ε → Option σ
  stored : σ → π

/-- What happens to a program that can lose power. -/
inductive Restart (ε : Type v) where
  | powerCycle
  | event (e : ε)
deriving DecidableEq, Repr

namespace Restartable

variable {σ : Type u} {ε : Type v} {π : Type w} (r : Restartable σ ε π)

/-- The program from a start on. -/
def session (p : π) : Machine σ ε := ⟨r.boot p, r.step⟩

def lifeStep (s : σ) : Restart ε → Option σ
  | .powerCycle => some (r.boot (r.stored s))
  | .event e => r.step s e

/-- The program from a start on, with any number of restarts. -/
def life (p : π) : Machine σ (Restart ε) := ⟨r.boot p, r.lifeStep⟩

variable {r}

/-- A life from a start on begins with the session from there. -/
theorem run_life_map_event (p : π) (h : List ε) :
    (r.life p).run (h.map .event) = (r.session p).run h := by
  induction h using List.reverseRecOn with
  | nil => rfl
  | append_singleton h e ih =>
      rw [List.map_append, List.map_singleton, Machine.run_concat, Machine.run_concat, ih]
      rfl

/-- After a restart a life is the one from what was stored. -/
theorem run_life_append {p : π} {before after : List (Restart ε)} {t : σ}
    (ht : (r.life p).run before = some t) :
    (r.life p).run (before ++ .powerCycle :: after) = (r.life (r.stored t)).run after := by
  rw [Machine.run_append, ht, Option.bind_some, List.foldlM_cons]
  rfl

/-- **Last session**: a life is in a session from its first start, or from its
last restart on. -/
theorem exists_session {p : π} {h : List (Restart ε)} {s : σ} (hs : (r.life p).run h = some s) :
    ∃ q h', (r.session q).run h' = some s ∧ (h = h'.map .event ∧ q = p ∨
      ∃ before t, h = before ++ .powerCycle :: h'.map .event ∧ (r.life p).run before = some t ∧
        q = r.stored t) := by
  refine (r.life p).invariant (R := fun h s => ∃ q h', (r.session q).run h' = some s ∧
    (h = h'.map .event ∧ q = p ∨ ∃ before t, h = before ++ .powerCycle :: h'.map .event ∧
      (r.life p).run before = some t ∧ q = r.stored t)) ?_ ?_ hs
  · exact ⟨p, [], rfl, Or.inl ⟨rfl, rfl⟩⟩
  · intro pre s e s' hrun ih hstep
    cases e with
    | powerCycle =>
        obtain rfl : r.boot (r.stored s) = s' := Option.some.inj hstep
        exact ⟨_, [], rfl, Or.inr ⟨pre, s, by simp, hrun, rfl⟩⟩
    | event e =>
        obtain ⟨q, h', hsession, hcut⟩ := ih
        refine ⟨q, h' ++ [e], (r.session q).run_concat_eq_some.mpr ⟨s, hsession, hstep⟩, ?_⟩
        cases hcut with
        | inl hfirst => exact Or.inl ⟨by simp [hfirst.1], hfirst.2⟩
        | inr hlast =>
            obtain ⟨before, t, rfl, ht, hq⟩ := hlast
            exact Or.inr ⟨before, t, by simp, ht, hq⟩

/-- **Recovery**: a condition `J` on the store, kept up to any moment by the
sessions whose events meet `C`, is one on the start of every session of a
life whose events meet `C`. -/
theorem exists_session_of_kept {C : ε → Prop} {J : π → Prop} {p : π} {h : List (Restart ε)}
    {s : σ} (hp : J p)
    (hkept : ∀ q h s, J q → (∀ e ∈ h, C e) → (r.session q).run h = some s → J (r.stored s))
    (hC : ∀ e, Restart.event e ∈ h → C e) (hs : (r.life p).run h = some s) :
    ∃ q h', J q ∧ (∀ e ∈ h', C e) ∧ h'.map .event <:+ h ∧ (r.session q).run h' = some s := by
  have halways : (r.life p).Always (fun _ _ e => ∀ e', e = .event e' → C e') h :=
    fun _ _ _ _ htakes e' he => hC e' (he ▸ htakes.mem)
  refine Machine.holds_of_always (R := fun h s => ∃ q h', J q ∧ (∀ e ∈ h', C e) ∧
    h'.map .event <:+ h ∧ (r.session q).run h' = some s) ?_ ?_ halways h s (List.prefix_refl h) hs
  · exact ⟨p, [], hp, by simp, List.nil_suffix, rfl⟩
  · intro pre s e s' _ ih he hstep
    obtain ⟨q, h', hq, hC', hsuffix, hsession⟩ := ih
    cases e with
    | powerCycle =>
        obtain rfl : r.boot (r.stored s) = s' := Option.some.inj hstep
        exact ⟨_, [], hkept q h' s hq hC' hsession, by simp, List.nil_suffix, rfl⟩
    | event e =>
        refine ⟨q, h' ++ [e], hq, ?_, ?_, (r.session q).run_concat_eq_some.mpr ⟨s, hsession, hstep⟩⟩
        · intro e' hmem
          cases List.mem_append.mp hmem with
          | inl hold => exact hC' e' hold
          | inr hnew => exact List.mem_singleton.mp hnew ▸ he e rfl
        · obtain ⟨front, rfl⟩ := hsuffix
          exact ⟨front, by simp⟩

end Restartable
