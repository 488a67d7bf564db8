import Mathlib.Data.List.Induction
import Mathlib.Data.List.Infix

/-!
# PelionBorderRouter.Lib.Run

Runs of a deterministic labelled machine.  A run is the list of events
that happened, oldest first; `run` replays it from the start state and is
`none` when some event of it could not happen.

Properties speak about the *steps* of a run (`Occurs`, `Always`) and about
the *states* it goes through (`Holds`); each gets to see the events before
it, so a law may depend on the history.  The rules are:

* `invariant` — what the start has and every step keeps, every state has;
* `holds_of_always` — the same when the steps are known to meet a condition;
* `holds_iff_always` — a condition that is *exact* at each step is exact
  for whole runs;
* `latch_iff_occurs` — a fact that some steps switch on and none switches
  off holds exactly when such a step has occurred;
* `exists_run_of_part` — a part of the state that goes through the steps of
  another machine is in a state that machine reaches;
* `exists_takes_of_lt_countP`, `exists_latest_of_occurs` — the step on the
  event that comes after `n` of a kind, and the latest step of a kind;
* `Takes.eq_of_latch` — a step that switches on what nothing switches off
  is taken once.
-/

universe u v

/-- A deterministic labelled machine: `step s e` is `none` when the event
`e` cannot happen in `s`. -/
structure Machine (σ : Type u) (ε : Type v) where
  start : σ
  step : σ → ε → Option σ

namespace Machine

variable {σ : Type u} {ε : Type v} (m : Machine σ ε)

/-- The machine of a total step function: every event can always happen. -/
def ofTotal (start : σ) (next : σ → ε → σ) : Machine σ ε := ⟨start, fun s e => some (next s e)⟩

/-- The state after the events of `h`, in order. -/
def run (h : List ε) : Option σ := h.foldlM m.step m.start

/-- The run `h` takes the step from `s` to `s'` on `e`, right after `pre`. -/
def Takes (h pre : List ε) (s : σ) (e : ε) (s' : σ) : Prop :=
  pre ++ [e] <+: h ∧ m.run pre = some s ∧ m.step s e = some s'

/-- Some step of the run satisfies `J`. -/
def Occurs (J : List ε → σ → ε → Prop) (h : List ε) : Prop :=
  ∃ pre s e s', m.Takes h pre s e s' ∧ J pre s e

/-- The latest step of the run that satisfies `J` is the one on `e` in `s`,
right after `pre`. -/
def Latest (J : List ε → σ → ε → Prop) (h pre : List ε) (s : σ) (e : ε) : Prop :=
  (∃ s', m.Takes h pre s e s') ∧ J pre s e ∧
    ∀ p t f t', m.Takes h p t f t' → J p t f → p <+: pre

/-- Every step of the run satisfies `C`. -/
def Always (C : List ε → σ → ε → Prop) (h : List ε) : Prop :=
  ∀ pre s e s', m.Takes h pre s e s' → C pre s e

/-- Every state the run goes through satisfies `R`, the first and the last
one included. -/
def Holds (R : List ε → σ → Prop) (h : List ε) : Prop :=
  ∀ pre s, pre <+: h → m.run pre = some s → R pre s

/-! ## replaying a run -/

@[simp] theorem run_nil : m.run [] = some m.start := rfl

/-- A run goes on from where its first part led. -/
theorem run_append (h h' : List ε) :
    m.run (h ++ h') = (m.run h).bind fun s => h'.foldlM m.step s := by
  simp [run, List.foldlM_append]

/-- The last event of a run is a step from the state before it. -/
theorem run_concat (h : List ε) (e : ε) :
    m.run (h ++ [e]) = (m.run h).bind fun s => m.step s e := by
  simp [run_append]

theorem run_concat_eq_some {h : List ε} {e : ε} {s' : σ} :
    m.run (h ++ [e]) = some s' ↔ ∃ s, m.run h = some s ∧ m.step s e = some s' := by
  rw [run_concat, Option.bind_eq_some_iff]

/-- A run of a total machine never gets stuck. -/
theorem run_ofTotal (start : σ) (next : σ → ε → σ) (h : List ε) :
    (ofTotal start next).run h = some (h.foldl next start) := by
  induction h using List.reverseRecOn with
  | nil => rfl
  | append_singleton h e ih =>
      rw [run_concat, ih]
      simp [ofTotal]

/-! ## steps of a run -/

/-- The steps of `h ++ [e]` are those of `h` and the last one. -/
theorem takes_concat {h pre : List ε} {e e' : ε} {s s' : σ} :
    m.Takes (h ++ [e]) pre s e' s' ↔
      m.Takes h pre s e' s' ∨ (pre = h ∧ e' = e ∧ m.run h = some s ∧ m.step s e = some s') := by
  unfold Takes
  rw [List.prefix_concat_iff]
  constructor
  · rintro ⟨heq | hp, hrun, hstep⟩
    · obtain ⟨rfl, he⟩ := List.append_inj' heq rfl
      obtain rfl : e' = e := by simpa using he
      exact Or.inr ⟨rfl, rfl, hrun, hstep⟩
    · exact Or.inl ⟨hp, hrun, hstep⟩
  · rintro (⟨hp, hrun, hstep⟩ | ⟨rfl, rfl, hrun, hstep⟩)
    · exact ⟨Or.inr hp, hrun, hstep⟩
    · exact ⟨Or.inl rfl, hrun, hstep⟩

theorem not_takes_nil {pre : List ε} {s s' : σ} {e : ε} : ¬ m.Takes [] pre s e s' := by
  rintro ⟨hp, _, _⟩
  exact absurd (List.prefix_nil.mp hp) (by simp)

variable {m}

/-- A step of a run is a step of every run that extends it. -/
theorem Takes.mono {h h' pre : List ε} {s s' : σ} {e : ε} (ht : m.Takes h pre s e s')
    (hp : h <+: h') : m.Takes h' pre s e s' :=
  ⟨ht.1.trans hp, ht.2⟩

/-- Where a step leads to is a state of the run. -/
theorem Takes.run_eq {h pre : List ε} {s s' : σ} {e : ε} (ht : m.Takes h pre s e s') :
    m.run (pre ++ [e]) = some s' :=
  m.run_concat_eq_some.mpr ⟨s, ht.2⟩

/-- The event of a step is an event of the run. -/
theorem Takes.mem {h pre : List ε} {s s' : σ} {e : ε} (ht : m.Takes h pre s e s') : e ∈ h :=
  ht.1.subset (by simp)

/-- A run has gone through each of its prefixes. -/
theorem exists_run_of_prefix {h pre : List ε} {t : σ} (ht : m.run h = some t) (hp : pre <+: h) :
    ∃ s, m.run pre = some s := by
  obtain ⟨post, rfl⟩ := hp
  rw [run_append] at ht
  obtain ⟨s, hs, _⟩ := Option.bind_eq_some_iff.mp ht
  exact ⟨s, hs⟩

/-- Each event of a run is one of its steps. -/
theorem exists_takes_of_prefix {h pre : List ε} {e : ε} {t : σ} (ht : m.run h = some t)
    (hp : pre ++ [e] <+: h) : ∃ s s', m.Takes h pre s e s' := by
  obtain ⟨s', hs'⟩ := m.exists_run_of_prefix ht hp
  obtain ⟨s, hs, hstep⟩ := m.run_concat_eq_some.mp hs'
  exact ⟨s, s', hp, hs, hstep⟩

/-- The steps of an extended run that satisfy `J`. -/
theorem occurs_concat {J : List ε → σ → ε → Prop} {h : List ε} {e : ε} {s s' : σ}
    (hs : m.run h = some s) (hstep : m.step s e = some s') :
    m.Occurs J (h ++ [e]) ↔ m.Occurs J h ∨ J h s e := by
  constructor
  · rintro ⟨pre, t, e', t', ht, hJ⟩
    cases m.takes_concat.mp ht with
    | inl ht => exact Or.inl ⟨pre, t, e', t', ht, hJ⟩
    | inr ht =>
        obtain ⟨rfl, rfl, hrun, _⟩ := ht
        have heq : t = s := Option.some.inj (hrun.symm.trans hs)
        exact Or.inr (heq ▸ hJ)
  · rintro (⟨pre, t, e', t', ht, hJ⟩ | hJ)
    · exact ⟨pre, t, e', t', ht.mono (List.prefix_append h [e]), hJ⟩
    · exact ⟨h, s, e, s', m.takes_concat.mpr (Or.inr ⟨rfl, rfl, hs, hstep⟩), hJ⟩

/-- What has occurred stays so. -/
theorem Occurs.mono {J : List ε → σ → ε → Prop} {h h' : List ε} (hJ : m.Occurs J h)
    (hp : h <+: h') : m.Occurs J h' := by
  obtain ⟨pre, s, e, s', ht, hJ⟩ := hJ
  exact ⟨pre, s, e, s', ht.mono hp, hJ⟩

/-- The latest step of an extended run is the last one if that satisfies `J`,
and otherwise the one it was before. -/
theorem latest_concat {J : List ε → σ → ε → Prop} {h pre : List ε} {e f : ε} {s s' t : σ}
    (hs : m.run h = some s) (hstep : m.step s e = some s') :
    m.Latest J (h ++ [e]) pre t f ↔
      J h s e ∧ pre = h ∧ t = s ∧ f = e ∨ ¬ J h s e ∧ m.Latest J h pre t f := by
  have hlast : m.Takes (h ++ [e]) h s e s' := m.takes_concat.mpr (Or.inr ⟨rfl, rfl, hs, hstep⟩)
  constructor
  · rintro ⟨⟨t', ht⟩, hJ, hmax⟩
    by_cases hJe : J h s e
    · left
      cases m.takes_concat.mp ht with
      | inl ht =>
          have hle := (hmax h s e s' hlast hJe).length_le
          have hlt := ht.1.length_le
          rw [List.length_append] at hlt
          exact absurd (Nat.lt_of_lt_of_le (Nat.lt_succ_self _) hlt) (Nat.not_lt.mpr hle)
      | inr heq =>
          obtain ⟨rfl, rfl, hrun, _⟩ := heq
          exact ⟨hJe, rfl, Option.some.inj (hrun.symm.trans hs), rfl⟩
    · right
      cases m.takes_concat.mp ht with
      | inl ht =>
          exact ⟨hJe, ⟨t', ht⟩, hJ, fun p u g u' hu =>
            hmax p u g u' (hu.mono (List.prefix_append h [e]))⟩
      | inr heq =>
          obtain ⟨rfl, rfl, hrun, _⟩ := heq
          exact absurd (Option.some.inj (hrun.symm.trans hs) ▸ hJ) hJe
  · rintro (⟨hJ, rfl, rfl, rfl⟩ | ⟨hJe, ⟨t', ht⟩, hJ, hmax⟩)
    · refine ⟨⟨s', hlast⟩, hJ, fun p u g u' hu _ => ?_⟩
      cases m.takes_concat.mp hu with
      | inl hu => exact (List.prefix_append p [g]).trans hu.1
      | inr heq => exact heq.1 ▸ List.prefix_refl _
    · refine ⟨⟨t', ht.mono (List.prefix_append h [e])⟩, hJ, fun p u g u' hu hJu => ?_⟩
      cases m.takes_concat.mp hu with
      | inl hu => exact hmax p u g u' hu hJu
      | inr heq =>
          obtain ⟨rfl, rfl, hrun, _⟩ := heq
          exact absurd (Option.some.inj (hrun.symm.trans hs) ▸ hJu) hJe

/-- Of the steps that satisfy `J`, if there are any, one is the latest. -/
theorem exists_latest_of_occurs {J : List ε → σ → ε → Prop} {h : List ε} {t : σ}
    (ht : m.run h = some t) (hJ : m.Occurs J h) : ∃ pre s e, m.Latest J h pre s e := by
  induction h using List.reverseRecOn generalizing t with
  | nil => obtain ⟨_, _, _, _, htakes, _⟩ := hJ; exact absurd htakes m.not_takes_nil
  | append_singleton h e ih =>
      obtain ⟨s, hs, hstep⟩ := m.run_concat_eq_some.mp ht
      by_cases hlast : J h s e
      · exact ⟨h, s, e, (latest_concat hs hstep).mpr (Or.inl ⟨hlast, rfl, rfl, rfl⟩)⟩
      · obtain ⟨pre, u, f, hlatest⟩ := ih hs (((occurs_concat hs hstep).mp hJ).resolve_right hlast)
        exact ⟨pre, u, f, (latest_concat hs hstep).mpr (Or.inr ⟨hlast, hlatest⟩)⟩

/-- A run that has more than `n` events satisfying `p` takes the step on the
one that comes after `n` of them. -/
theorem exists_takes_of_lt_countP {p : ε → Bool} {n : Nat} {h : List ε} {t : σ}
    (ht : m.run h = some t) (hn : n < h.countP p) :
    ∃ pre s e s', m.Takes h pre s e s' ∧ p e = true ∧ pre.countP p = n := by
  induction h using List.reverseRecOn generalizing t with
  | nil => exact absurd hn (Nat.not_lt_zero n)
  | append_singleton h e ih =>
      obtain ⟨s, hs, hstep⟩ := m.run_concat_eq_some.mp ht
      by_cases hlt : n < h.countP p
      · obtain ⟨pre, u, f, u', htakes, hf, hcount⟩ := ih hs hlt
        exact ⟨pre, u, f, u', htakes.mono (List.prefix_append h [e]), hf, hcount⟩
      · rw [List.countP_append, List.countP_singleton] at hn
        have he : p e = true := by
          by_contra he
          rw [if_neg he] at hn
          exact hlt hn
        rw [if_pos he] at hn
        exact ⟨h, s, e, t, m.takes_concat.mpr (Or.inr ⟨rfl, rfl, hs, hstep⟩), he, by omega⟩

/-- In a total machine a condition on events alone is one on the events of
the run. -/
theorem always_ofTotal_iff {start : σ} {next : σ → ε → σ} {C : ε → Prop} {h : List ε} :
    (ofTotal start next).Always (fun _ _ e => C e) h ↔ ∀ e ∈ h, C e := by
  constructor
  · intro hC e he
    obtain ⟨pre, post, rfl⟩ := List.append_of_mem he
    refine hC pre _ e _ ⟨⟨post, by simp⟩, run_ofTotal start next pre, rfl⟩
  · intro hC pre s e s' ht
    exact hC e ht.mem

theorem not_occurs_nil {J : List ε → σ → ε → Prop} : ¬ m.Occurs J [] := by
  rintro ⟨_, _, _, _, ht, _⟩
  exact m.not_takes_nil ht

/-! ## the rules -/

/-- **Conditional invariant**: what the start has and every step meeting `C`
keeps, every state of a run of such steps has. -/
theorem holds_of_always {C : List ε → σ → ε → Prop} {R : List ε → σ → Prop}
    (hstart : R [] m.start)
    (hstep : ∀ pre s e s', m.run pre = some s → R pre s → C pre s e → m.step s e = some s' →
      R (pre ++ [e]) s')
    {h : List ε} (hC : m.Always C h) : m.Holds R h := by
  intro pre
  induction pre using List.reverseRecOn with
  | nil =>
      intro s _ hs
      rw [run_nil, Option.some.injEq] at hs
      exact hs ▸ hstart
  | append_singleton pre e ih =>
      intro s' hp hs'
      obtain ⟨s, hs, hstep'⟩ := m.run_concat_eq_some.mp hs'
      have hR : R pre s := ih s ((List.prefix_append pre [e]).trans hp) hs
      exact hstep pre s e s' hs hR (hC pre s e s' ⟨hp, hs, hstep'⟩) hstep'

/-- **Invariant**: what the start has and every step keeps, every reachable
state has. -/
theorem invariant {R : List ε → σ → Prop} (hstart : R [] m.start)
    (hstep : ∀ pre s e s', m.run pre = some s → R pre s → m.step s e = some s' →
      R (pre ++ [e]) s')
    {h : List ε} {s : σ} (hs : m.run h = some s) : R h s :=
  holds_of_always (C := fun _ _ _ => True) hstart
    (fun pre s e s' hrun hR _ hst => hstep pre s e s' hrun hR hst)
    (fun _ _ _ _ _ => trivial) h s (List.prefix_refl h) hs

/-- **Exact condition**: when, from a state that satisfies `R`, a step keeps
`R` exactly if it meets `C`, a run stays inside `R` exactly if all its steps
meet `C`. -/
theorem holds_iff_always {C : List ε → σ → ε → Prop} {R : List ε → σ → Prop}
    (hstart : R [] m.start)
    (hstep : ∀ pre s e s', m.run pre = some s → R pre s → m.step s e = some s' →
      (R (pre ++ [e]) s' ↔ C pre s e))
    (h : List ε) : m.Holds R h ↔ m.Always C h := by
  constructor
  · intro hR pre s e s' ht
    have hpre : R pre s := hR pre s ((List.prefix_append pre [e]).trans ht.1) ht.2.1
    exact (hstep pre s e s' ht.2.1 hpre ht.2.2).mp (hR _ s' ht.1 ht.run_eq)
  · exact holds_of_always hstart fun pre s e s' hrun hR hC hst =>
      (hstep pre s e s' hrun hR hst).mpr hC

/-- **Latch**: a fact that is false at the start, and that a step makes true
exactly if it was true before or the step satisfies `J`, holds exactly when
a step satisfying `J` has occurred. -/
theorem latch_iff_occurs {L : σ → Prop} {J : List ε → σ → ε → Prop} (hstart : ¬ L m.start)
    (hstep : ∀ pre s e s', m.run pre = some s → m.step s e = some s' →
      (L s' ↔ L s ∨ J pre s e))
    {h : List ε} {s : σ} (hs : m.run h = some s) : L s ↔ m.Occurs J h := by
  refine m.invariant (R := fun h s => L s ↔ m.Occurs J h) ?_ ?_ hs
  · exact iff_of_false hstart not_occurs_nil
  · intro pre s e s' hrun ih hst
    rw [hstep pre s e s' hrun hst, occurs_concat hrun hst, ih]

/-- **Parts**: when each step of `m` takes the part `f` of the state through
some steps of `m'`, the part is always in a state that `m'` reaches. -/
theorem exists_run_of_part {τ : Type u} {δ : Type v} {m' : Machine τ δ} {f : σ → τ}
    (hstart : f m.start = m'.start)
    (hstep : ∀ s e s', m.step s e = some s' → ∃ d : List δ, d.foldlM m'.step (f s) = some (f s'))
    {h : List ε} {s : σ} (hs : m.run h = some s) : ∃ d, m'.run d = some (f s) := by
  refine m.invariant (R := fun _ s => ∃ d, m'.run d = some (f s)) ?_ ?_ hs
  · exact ⟨[], congrArg some hstart.symm⟩
  · intro pre s e s' _ ih hst
    obtain ⟨d, hd⟩ := ih
    obtain ⟨d', hd'⟩ := hstep s e s' hst
    exact ⟨d ++ d', by rw [run_append, hd, Option.bind_some, hd']⟩

/-- What every step keeps, all later states of a run have. -/
theorem kept_along {L : σ → Prop}
    (hkeep : ∀ s e s', m.step s e = some s' → L s → L s')
    {pre h : List ε} {s t : σ} (hp : pre <+: h) (hs : m.run pre = some s) (hL : L s)
    (ht : m.run h = some t) : L t := by
  induction h using List.reverseRecOn generalizing t with
  | nil =>
      have heq : s = t := by
        rw [List.prefix_nil.mp hp] at hs
        exact Option.some.inj (hs.symm.trans ht)
      exact heq ▸ hL
  | append_singleton h e ih =>
      cases List.prefix_concat_iff.mp hp with
      | inl heq =>
          rw [heq] at hs
          exact Option.some.inj (hs.symm.trans ht) ▸ hL
      | inr hp' =>
          obtain ⟨u, hu, hstep⟩ := m.run_concat_eq_some.mp ht
          exact hkeep u e t hstep (ih hp' hu)

/-- **Once**: a run takes at most one step that finds `L` false and makes it
true, when no step makes `L` false again. -/
theorem Takes.eq_of_latch {L : σ → Prop} {J : σ → ε → Prop}
    (hkeep : ∀ s e s', m.step s e = some s' → L s → L s')
    (hset : ∀ s e s', m.step s e = some s' → J s e → L s') (hfree : ∀ s e, J s e → ¬ L s)
    {h p q : List ε} {s s' t t' : σ} {e f : ε} (hp : m.Takes h p s e s') (hq : m.Takes h q t f t')
    (he : J s e) (hf : J t f) : p = q := by
  have hlt : ∀ {p q : List ε} {s s' t t' : σ} {e f : ε}, m.Takes h p s e s' →
      m.Takes h q t f t' → J s e → J t f → ¬ p.length < q.length := by
    intro p q s s' t t' e f hp hq he hf hlen
    have hpq : p ++ [e] <+: q :=
      List.prefix_of_prefix_length_le hp.1 ((List.prefix_append q [f]).trans hq.1)
        (by rw [List.length_append]; exact hlen)
    have hL : L s' := hset s e s' hp.2.2 he
    exact hfree t f hf (kept_along hkeep hpq hp.run_eq hL hq.2.1)
  have hlen : p.length = q.length :=
    Nat.le_antisymm (Nat.not_lt.mp (hlt hq hp hf he)) (Nat.not_lt.mp (hlt hp hq he hf))
  have hpre : p <+: q :=
    List.prefix_of_prefix_length_le ((List.prefix_append p [e]).trans hp.1)
      ((List.prefix_append q [f]).trans hq.1) (Nat.le_of_eq hlen)
  exact hpre.eq_of_length hlen

end Machine
