import PelionBorderRouter.App.Gate

/-!
# PelionBorderRouter.App.Start

What is left after a mesh start that fails.  `mesh_connect` writes
`Wi-SUN Booting` before it tries, traces a failure and returns nothing;
`main` goes on to wait for the address of a mesh that was never started.
So a failed `connect` or `start` is reported as a start, and nothing leads
back to `mesh_connect`: `start_reported_iff` says that both go well exactly
in the runs in which neither call fails.
-/

namespace PelionBorderRouter

variable {cfg : Config} {boot : Boot}

/-- `mesh_interface->connect()` returns OK, or that it is connected. -/
def ConnectSucceeds (s : App) (e : AppEvent) : Prop :=
  s.main = .connect ∧ ∃ io, e = .main io ∧ (io.connect = .ok ∨ io.connect = .isConnected)

/-- `ws_border_router.start` returns without error. -/
def StartSucceeds (s : App) (e : AppEvent) : Prop :=
  s.main = .startBorderRouter ∧ ∃ io, e = .main io ∧ io.start = .none

/-- One of the two calls of `mesh_connect` fails. -/
def FailsStart (s : App) (e : AppEvent) : Prop :=
  ∃ io, e = .main io ∧ (s.main = .connect ∧ ¬ (io.connect = .ok ∨ io.connect = .isConnected) ∨
    s.main = .startBorderRouter ∧ io.start ≠ .none)

/-- Both calls have succeeded. -/
def MeshStarted (cfg : Config) (boot : Boot) (pre : List AppEvent) : Prop :=
  (app cfg boot).Occurs (fun _ s e => ConnectSucceeds s e) pre ∧
    (app cfg boot).Occurs (fun _ s e => StartSucceeds s e) pre

/-- `mesh_connect` has returned. -/
def MeshConnectReturned (s : App) : Prop := MainPc.startBorderRouter.rank < s.main.rank

/-- Once `mesh_connect` has returned, the cloud reads `Wi-SUN Booting` or
`Wi-SUN Active` only if the mesh was started. -/
def ReportedTruly (cfg : Config) (boot : Boot) (pre : List AppEvent) (s : App) : Prop :=
  MeshConnectReturned s → appResReadCb s .appState = some appStateWisunBooting ∨
    appResReadCb s .appState = some appStateWisunActive → MeshStarted cfg boot pre

/-- Some run that goes on from here enters `mesh_connect`. -/
def CanBeReentered (cfg : Config) (boot : Boot) (pre : List AppEvent) : Prop :=
  ∃ h p t e t', (app cfg boot).Takes h p t e t' ∧ pre <+: p ∧ EntersMeshConnect t e

/-- Once `mesh_connect` has returned without a start, it can be entered
again. -/
def NoDeadEnd (cfg : Config) (boot : Boot) (pre : List AppEvent) (s : App) : Prop :=
  MeshConnectReturned s → ¬ MeshStarted cfg boot pre → CanBeReentered cfg boot pre

/-! ## the way of the main thread -/

/-- `main` goes to the next statement, past the start of the border router if
`connect` has failed. -/
theorem main_mainStep {s s' : App} {io : MainIo} (h : s.mainStep io = some s') :
    s'.main.rank = s.main.rank + 1 ∨
      s.main = .connect ∧ ¬ (io.connect = .ok ∨ io.connect = .isConnected) ∧
        s'.main = .acquireGlobalIp := by
  unfold App.mainStep at h
  cases hpc : s.main with
  | acquireControl =>
      simp only [hpc] at h
      cases hsem : s.meshControlDataFound.acquire? with
      | none => simp [hsem] at h
      | some sem =>
          obtain rfl := by simpa [hsem] using h
          exact Or.inl rfl
  | connect =>
      simp only [hpc] at h
      split at h
      · obtain rfl := Option.some.inj h
        exact Or.inl rfl
      · next hfails =>
          obtain rfl := Option.some.inj h
          exact Or.inr ⟨rfl, hfails, rfl⟩
  | acquireGlobalIp =>
      simp only [hpc] at h
      cases hsem : s.meshGlobalIp.acquire? with
      | none => simp [hsem] at h
      | some sem =>
          obtain rfl := by simpa [hsem] using h
          exact Or.inl rfl
  | dispatchForever => simp [hpc] at h
  | _ =>
      obtain rfl := by simpa [hpc] using h
      exact Or.inl rfl

/-- Only `main` moves `main`. -/
theorem main_eq_of_not_main {s s' : App} {e : AppEvent} (hstep : AppStep cfg s e s')
    (he : ∀ io, e ≠ .main io) : s'.main = s.main := by
  cases hstep with
  | acquireControl hpc hsem => exact absurd rfl (he _)
  | writeBooting hpc => exact absurd rfl (he _)
  | acquireGlobalIp hpc hsem => exact absurd rfl (he _)
  | advance pc started hpc => exact absurd rfl (he _)
  | _ => rfl

/-- The rank of a statement says which one it is. -/
theorem MainPc.rank_injective : Function.Injective MainPc.rank := by
  intro pc pc' h
  cases pc <;> cases pc' <;> simp_all [MainPc.rank]

/-! ## a start that fails -/

/-- Past the acquire there is no way back to it. -/
theorem not_canBeReentered {pre : List AppEvent} {s : App} (hrun : (app cfg boot).run pre = some s)
    (hpassed : s.main.PassedAcquire) : ¬ CanBeReentered cfg boot pre := by
  rintro ⟨h, p, t, e, t', htakes, hp, henters⟩
  have hlater : t.main.PassedAcquire :=
    Machine.kept_along (L := fun s : App => s.main.PassedAcquire)
      (fun s e s' hstep hp => Nat.lt_of_lt_of_le hp (appStep_of_step hstep).rank_le)
      hp hrun hpassed htakes.2.1
  rw [henters.1] at hlater
  exact absurd hlater (by decide)

/-- Once the border router has been started `main` is past that statement. -/
theorem returned_of_startSucceeds {h : List AppEvent} {s : App}
    (hrun : (app cfg boot).run h = some s)
    (hocc : (app cfg boot).Occurs (fun _ s e => StartSucceeds s e) h) : MeshConnectReturned s := by
  obtain ⟨p, t, e, t', htakes, hpc, io, rfl, _⟩ := hocc
  have hreturned : MeshConnectReturned t' := by
    cases main_mainStep htakes.2.2 with
    | inl hnext => simp [MeshConnectReturned, hnext, hpc]
    | inr hfails => simp [MeshConnectReturned, hfails.2.2, MainPc.rank]
  exact Machine.kept_along (L := MeshConnectReturned)
    (fun s e s' hstep hr => Nat.lt_of_lt_of_le hr (appStep_of_step hstep).rank_le)
    htakes.1 htakes.run_eq hreturned hrun

/-- A call that fails makes `mesh_connect` return without a start. -/
theorem returned_of_failsStart {pre : List AppEvent} {s s' : App} {e : AppEvent}
    (hrun : (app cfg boot).run pre = some s) (hstep : (app cfg boot).step s e = some s')
    (hfails : FailsStart s e) :
    MeshConnectReturned s' ∧ ¬ MeshStarted cfg boot (pre ++ [e]) := by
  obtain ⟨io, rfl, hpc⟩ := hfails
  constructor
  · cases main_mainStep hstep with
    | inl hnext =>
        cases hpc with
        | inl hconnect =>
            obtain ⟨hpc, hno⟩ := hconnect
            have hs' : s' = { s with main := .acquireGlobalIp } := by
              have hgoes : s.mainStep io = some s' := hstep
              simpa [App.mainStep, hpc, hno] using hgoes.symm
            simp [hs', MeshConnectReturned, MainPc.rank]
        | inr hstart => simp [MeshConnectReturned, hnext, hstart.1]
    | inr hskip => simp [MeshConnectReturned, hskip.2.2, MainPc.rank]
  · intro hstarted
    cases (Machine.occurs_concat hrun hstep).mp hstarted.2 with
    | inl hbefore =>
        have hr : MeshConnectReturned s := returned_of_startSucceeds hrun hbefore
        cases hpc with
        | inl hconnect => simp [MeshConnectReturned, hconnect.1, MainPc.rank] at hr
        | inr hstart => simp [MeshConnectReturned, hstart.1] at hr
    | inr hnow =>
        obtain ⟨hat, io', heq, hnone⟩ := hnow
        obtain rfl : io = io' := by simpa using heq
        cases hpc with
        | inl hconnect => exact absurd (hconnect.1.symm.trans hat) (by decide)
        | inr hstart => exact hstart.2 hnone

/-! ## a start that succeeds -/

/-- How far `main` is says what has succeeded. -/
structure StartTraced (cfg : Config) (boot : Boot) (pre : List AppEvent) (s : App) : Prop where
  connected : MainPc.connect.rank < s.main.rank →
    (app cfg boot).Occurs (fun _ s e => ConnectSucceeds s e) pre
  started : MainPc.startBorderRouter.rank < s.main.rank →
    (app cfg boot).Occurs (fun _ s e => StartSucceeds s e) pre

/-- What has occurred whenever `main` is past a statement still has after a step
of `main`, when at that statement the step is one. -/
theorem occurs_of_passed {J : App → AppEvent → Prop} {pc : MainPc} {pre : List AppEvent}
    {s s' : App} {e : AppEvent} (hrun : (app cfg boot).run pre = some s)
    (hstep : (app cfg boot).step s e = some s') (hnext : s'.main.rank = s.main.rank + 1)
    (hbefore : pc.rank < s.main.rank → (app cfg boot).Occurs (fun _ s e => J s e) pre)
    (hat : s.main = pc → J s e) (hlt : pc.rank < s'.main.rank) :
    (app cfg boot).Occurs (fun _ s e => J s e) (pre ++ [e]) := by
  by_cases hpc : pc.rank < s.main.rank
  · exact (hbefore hpc).mono (List.prefix_append pre [e])
  · have heq : s.main = pc := MainPc.rank_injective (by omega)
    exact (Machine.occurs_concat hrun hstep).mpr (Or.inr (hat heq))

theorem startTraced_step {pre : List AppEvent} {s s' : App} {e : AppEvent}
    (hs : StartTraced cfg boot pre s) (hsucceeds : ¬ FailsStart s e)
    (hrun : (app cfg boot).run pre = some s) (hstep : (app cfg boot).step s e = some s') :
    StartTraced cfg boot (pre ++ [e]) s' := by
  by_cases he : ∃ io, e = .main io
  · obtain ⟨io, rfl⟩ := he
    have hconnects : s.main = .connect → ConnectSucceeds s (.main io) := fun hat =>
      ⟨hat, io, rfl, by_contra fun hno => hsucceeds ⟨io, rfl, Or.inl ⟨hat, hno⟩⟩⟩
    have hstarts : s.main = .startBorderRouter → StartSucceeds s (.main io) := fun hat =>
      ⟨hat, io, rfl, by_contra fun hno => hsucceeds ⟨io, rfl, Or.inr ⟨hat, hno⟩⟩⟩
    cases main_mainStep hstep with
    | inl hnext =>
        exact ⟨occurs_of_passed hrun hstep hnext hs.connected hconnects,
          occurs_of_passed hrun hstep hnext hs.started hstarts⟩
    | inr hskip => exact absurd ⟨io, rfl, Or.inl ⟨hskip.1, hskip.2.1⟩⟩ hsucceeds
  · have hp : pre <+: pre ++ [e] := List.prefix_append pre [e]
    have happ : AppStep cfg s e s' := appStep_of_step hstep
    have hpc := main_eq_of_not_main happ (not_exists.mp he)
    constructor
    · exact fun hlt => (hs.connected (hpc ▸ hlt)).mono hp
    · exact fun hlt => (hs.started (hpc ▸ hlt)).mono hp

/-- **Mesh start**: in every state of a run the published state is true of
the start, and a failed start is no dead end, exactly when neither call of
`mesh_connect` fails in the run. -/
theorem start_reported_iff (cfg : Config) (boot : Boot) (h : List AppEvent) :
    (app cfg boot).Holds (fun pre s => ReportedTruly cfg boot pre s ∧ NoDeadEnd cfg boot pre s) h ↔
      (app cfg boot).Always (fun _ s e => ¬ FailsStart s e) h := by
  constructor
  · intro hholds pre s e s' htakes hfails
    obtain ⟨hreturned, hnot⟩ := returned_of_failsStart htakes.2.1 htakes.2.2 hfails
    have hpassed : s'.main.PassedAcquire := Nat.lt_trans (by decide) hreturned
    exact not_canBeReentered htakes.run_eq hpassed
      ((hholds _ s' htakes.1 htakes.run_eq).2 hreturned hnot)
  · intro hsucceeds pre s hp hrun
    have hbefore : ¬ MainPc.connect.rank < MainPc.setup.rank ∧
        ¬ MainPc.startBorderRouter.rank < MainPc.setup.rank := by decide
    have hstart : StartTraced cfg boot [] (App.boot cfg boot) :=
      ⟨fun hlt => absurd hlt hbefore.1, fun hlt => absurd hlt hbefore.2⟩
    have htraced := Machine.holds_of_always hstart
      (fun _ _ _ _ hrun hs hc hstep => startTraced_step hs hc hrun hstep) hsucceeds pre s hp hrun
    have hstarted : MeshConnectReturned s → MeshStarted cfg boot pre := fun hreturned =>
      ⟨htraced.connected (Nat.lt_trans (by decide) hreturned), htraced.started hreturned⟩
    exact ⟨fun hreturned _ => hstarted hreturned,
      fun hreturned hnot => absurd (hstarted hreturned) hnot⟩

/-- A permitted start whose `connect` fails. -/
def failedConnect : List AppEvent :=
  [plainRegistration, .main ⟨.ok, .none⟩, .main ⟨.ok, .none⟩, .main ⟨.ok, .none⟩,
    .main ⟨.ok, .none⟩, .main ⟨.other (-1), .none⟩]

/-- The device reads `Wi-SUN Booting`, and no event starts the mesh. -/
theorem failed_connect_reported_as_start :
    ¬ (app .shipped freshBoot).Holds (ReportedTruly .shipped freshBoot) failedConnect ∧
      ¬ (app .shipped freshBoot).Holds (NoDeadEnd .shipped freshBoot) failedConnect := by
  have hrun : ∃ s s', (app .shipped freshBoot).run failedConnect.dropLast = some s ∧
      (app .shipped freshBoot).step s (.main ⟨.other (-1), .none⟩) = some s' ∧
      (app .shipped freshBoot).run failedConnect = some s' ∧
      FailsStart s (.main ⟨.other (-1), .none⟩) ∧
      appResReadCb s' .appState = some appStateWisunBooting :=
    ⟨_, _, rfl, rfl, rfl, ⟨_, rfl, Or.inl ⟨rfl, by decide⟩⟩, by decide⟩
  obtain ⟨s, s', hs, hstep, hs', hfails, hreads⟩ := hrun
  obtain ⟨hreturned, hnot⟩ := returned_of_failsStart hs hstep hfails
  constructor
  · intro hholds
    exact hnot (hholds _ s' (List.prefix_refl _) hs' hreturned (Or.inl hreads))
  · intro hholds
    have hpassed : s'.main.PassedAcquire := Nat.lt_trans (by decide) hreturned
    exact not_canBeReentered hs' hpassed (hholds _ s' (List.prefix_refl _) hs' hreturned hnot)

end PelionBorderRouter
