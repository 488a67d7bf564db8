import PelionBorderRouter.App.Parts
import PelionBorderRouter.App.Published
import PelionBorderRouter.App.Start
import PelionBorderRouter.ControlValue.Persist
import PelionBorderRouter.Lib.Refine

/-!
# PelionBorderRouter.App.Address

The second gate: `main` waits on `mesh_global_ip` before it calls
`cloud_client->setup` again, and one callback releases it, together with
setting `mesh_interface_up` and writing `Wi-SUN Active`.  `address_gate` says
that the semaphore, the flag and the reports of an address keep one account.

Between its two gates `main` can wait, but it is never in a dead end: from
every reachable state permission and an address bring it to
`queue->dispatch_forever`, whatever `connect` and `start` return
(`main_reaches_dispatch`).
-/

namespace PelionBorderRouter

variable {cfg : Config} {boot : Boot}

/-- A `GLOBAL_UP` whose address can be read. -/
def AddressReported (e : AppEvent) : Prop :=
  ∃ ip, e = .meshStatus (.connectionStatusChange .globalUp) (some ip)

/-- `mesh_global_ip.acquire()` has returned. -/
def MainPc.PassedGlobalIp (pc : MainPc) : Prop := MainPc.acquireGlobalIp.rank < pc.rank

instance (pc : MainPc) : Decidable pc.PassedGlobalIp := Nat.decLt _ _

/-- `main` has passed the second acquire, or would not block on it. -/
def AddressGateOpen (s : App) : Prop :=
  s.main.PassedGlobalIp ∨ s.meshGlobalIp.acquire?.isSome

/-- The step that calls `cloud_client->setup` again. -/
def SetsUpAgain (s : App) (e : AppEvent) : Prop := s.main = .setupAgain ∧ ∃ io, e = .main io

/-! ## the gate -/

/-- `main` neither opens nor closes the gate. -/
theorem addressGateOpen_mainStep {s s' : App} {io : MainIo} (h : s.mainStep io = some s') :
    AddressGateOpen s' ↔ AddressGateOpen s := by
  unfold App.mainStep at h
  unfold AddressGateOpen
  cases hpc : s.main with
  | acquireControl =>
      simp only [hpc] at h
      cases hsem : s.meshControlDataFound.acquire? with
      | none => simp [hsem] at h
      | some sem =>
          obtain rfl := by simpa [hsem] using h
          exact or_congr_left (by simp [MainPc.PassedGlobalIp, MainPc.rank])
  | connect =>
      simp only [hpc] at h
      split at h
      · obtain rfl := Option.some.inj h
        exact or_congr_left (by simp [MainPc.PassedGlobalIp, MainPc.rank])
      · obtain rfl := Option.some.inj h
        exact or_congr_left (by simp [MainPc.PassedGlobalIp, MainPc.rank])
  | acquireGlobalIp =>
      simp only [hpc] at h
      cases hsem : s.meshGlobalIp.acquire? with
      | none => simp [hsem] at h
      | some sem =>
          obtain rfl := by simpa [hsem] using h
          have hpassed : MainPc.setupAgain.PassedGlobalIp := by decide
          exact iff_of_true (Or.inl hpassed) (Or.inr (by simp))
  | dispatchForever => simp [hpc] at h
  | _ =>
      obtain rfl := by simpa [hpc] using h
      exact or_congr_left (by simp [MainPc.PassedGlobalIp, MainPc.rank])

/-- A step opens the gate exactly when it reports an address. -/
theorem addressGateOpen_step {s s' : App} {e : AppEvent} (hstep : App.step cfg s e = some s') :
    AddressGateOpen s' ↔ AddressGateOpen s ∨ AddressReported e := by
  by_cases hmain : ∃ io, e = .main io
  · obtain ⟨io, rfl⟩ := hmain
    have hnot : ¬ AddressReported (.main io) := by simp [AddressReported]
    rw [or_iff_left hnot]
    exact addressGateOpen_mainStep hstep
  · have happ : AppStep cfg s e s' := appStep_of_step hstep
    have hreleased : s.meshGlobalIp.release.acquire?.isSome :=
      s.meshGlobalIp.isSome_acquire?_release (by decide)
    cases happ with
    | acquireControl hpc hsem => exact absurd ⟨_, rfl⟩ hmain
    | writeBooting hpc => exact absurd ⟨_, rfl⟩ hmain
    | acquireGlobalIp hpc hsem => exact absurd ⟨_, rfl⟩ hmain
    | advance pc started hpc => exact absurd ⟨_, rfl⟩ hmain
    | @globalUp ip hlisten => exact iff_of_true (Or.inr hreleased) (Or.inr ⟨ip, rfl⟩)
    | @statusTraced event ipAddress hlisten hdown =>
        refine (or_iff_left ?_).symm
        rintro ⟨ip, heq⟩
        obtain ⟨rfl, rfl⟩ := AppEvent.meshStatus.inj heq
        exact absurd (hdown rfl) (by simp)
    | _ => exact (or_iff_left (by simp [AddressReported])).symm

theorem addressGateOpen_iff {h : List AppEvent} {s : App} (hrun : (app cfg boot).run h = some s) :
    AddressGateOpen s ↔ (app cfg boot).Occurs (fun _ _ e => AddressReported e) h := by
  have hclosed : ¬ AddressGateOpen (App.boot cfg boot) := by
    have hpc : ¬ MainPc.setup.PassedGlobalIp := by decide
    exact not_or.mpr ⟨hpc, Semaphore.not_isSome_acquire?_empty⟩
  refine Machine.latch_iff_occurs hclosed ?_ hrun
  intro _ s e s' _ (hstep : App.step cfg s e = some s')
  exact addressGateOpen_step hstep

/-- The flag is set by the same callback. -/
theorem addressGateOpen_iff_up {h : List AppEvent} {s : App}
    (hrun : (app cfg boot).run h = some s) : AddressGateOpen s ↔ s.meshInterfaceUp = true := by
  have hup : s.meshInterfaceUp = true ↔
      (app cfg boot).Occurs (fun _ _ e => AddressReported e) h := by
    refine Machine.latch_iff_occurs (L := fun s => s.meshInterfaceUp = true)
      (by simp [app, App.boot]) ?_ hrun
    intro pre s e s' _ hstep
    have hreport : e.upDownReport = some true ↔ AddressReported e := by
      constructor
      · intro hreport
        unfold AppEvent.upDownReport at hreport
        split at hreport
        · next ipAddress =>
            obtain ⟨ip, rfl⟩ := Option.isSome_iff_exists.mp (Option.some.inj hreport)
            exact ⟨ip, rfl⟩
        · contradiction
        · contradiction
        · contradiction
      · rintro ⟨ip, rfl⟩
        rfl
    rw [meshInterfaceUp_step (appStep_of_step hstep), hreport]
  exact (addressGateOpen_iff hrun).trans hup.symm

/-- At the acquire, `main` goes on exactly when the gate is open. -/
theorem isSome_step_acquireGlobalIp_iff {s : App} (hpc : s.main = .acquireGlobalIp) (io : MainIo) :
    (App.step cfg s (.main io)).isSome ↔ AddressGateOpen s := by
  have hnot : ¬ s.main.PassedGlobalIp := by
    rw [hpc]
    decide
  have hgate : AddressGateOpen s ↔ s.meshGlobalIp.acquire?.isSome := or_iff_right hnot
  rw [hgate]
  simp only [App.step, App.mainStep, hpc]
  cases s.meshGlobalIp.acquire? with
  | none => simp
  | some sem => simp

/-- `cloud_client->setup` is called again once at most. -/
theorem setsUpAgain_unique {h p q : List AppEvent} {s s' t t' : App} {e f : AppEvent}
    (hp : (app cfg boot).Takes h p s e s') (hq : (app cfg boot).Takes h q t f t')
    (he : SetsUpAgain s e) (hf : SetsUpAgain t f) : p = q := by
  refine Machine.Takes.eq_of_latch (L := fun s => MainPc.setupAgain.rank < s.main.rank) ?_ ?_ ?_
    hp hq he hf
  · intro s e s' hstep hlater
    exact Nat.lt_of_lt_of_le hlater (appStep_of_step hstep).rank_le
  · rintro s e s' hstep ⟨hpc, io, rfl⟩
    cases main_mainStep hstep with
    | inl hnext => rw [hnext, hpc]; exact Nat.lt_succ_self _
    | inr hskip => exact absurd (hpc.symm.trans hskip.1) (by decide)
  · intro s e he hlater
    rw [he.1] at hlater
    exact absurd hlater (by decide)

/-- **Address gate**: in every reachable state `main` has passed the second
acquire, or would not block on it, exactly when an address has been reported,
exactly when `mesh_interface_up` is set; past the acquire the device publishes
`Wi-SUN Active`, in a run without a PUT of exactly 16 characters; and
`cloud_client->setup` is called again once at most, after such a report. -/
theorem address_gate (cfg : Config) (boot : Boot) {h : List AppEvent} {s : App}
    (hrun : (app cfg boot).run h = some s) :
    (AddressGateOpen s ↔ (app cfg boot).Occurs (fun _ _ e => AddressReported e) h) ∧
      (AddressGateOpen s ↔ s.meshInterfaceUp = true) ∧
      (s.main = .acquireGlobalIp →
        ∀ io, (App.step cfg s (.main io)).isSome ↔ s.meshInterfaceUp = true) ∧
      ((∀ e ∈ h, StoresInside e) → s.main.PassedGlobalIp →
        appResReadCb s .appState = some appStateWisunActive) ∧
      (∀ p t e t', (app cfg boot).Takes h p t e t' → SetsUpAgain t e →
        (app cfg boot).Occurs (fun _ _ e => AddressReported e) p ∧
          ∀ q u f u', (app cfg boot).Takes h q u f u' → SetsUpAgain u f → p = q) := by
  have hup := addressGateOpen_iff_up hrun
  refine ⟨addressGateOpen_iff hrun, hup, fun hpc io => ?_, fun _ hpassed => ?_, ?_⟩
  · exact (isSome_step_acquireGlobalIp_iff hpc io).trans hup
  · exact (active_of_meshInterfaceUp hrun (hup.mp (Or.inl hpassed))).2
  · intro p t e t' ht he
    have hpassed : t.main.PassedGlobalIp := by
      rw [he.1]
      decide
    exact ⟨(addressGateOpen_iff ht.2.1).mp (Or.inl hpassed),
      fun q u f u' hu hf => setsUpAgain_unique ht hu he hf⟩

/-- The way of a device that is permitted and gets its address. -/
def upRun : List AppEvent :=
  [plainRegistration, .main ⟨.ok, .none⟩, .main ⟨.ok, .none⟩, .main ⟨.ok, .none⟩,
    .main ⟨.ok, .none⟩, .main ⟨.ok, .none⟩, .main ⟨.ok, .none⟩,
    .meshStatus (.connectionStatusChange .globalUp) (some [0xfd]), .main ⟨.ok, .none⟩,
    .main ⟨.ok, .none⟩]

theorem address_gate_up :
    ∃ s, (app .shipped freshBoot).run upRun = some s ∧ s.main = .dispatchForever ∧
      (AddressGateOpen s ↔ s.meshInterfaceUp = true) ∧
      appResReadCb s .appState = some appStateWisunActive := by
  have hinside : ∀ e ∈ upRun, StoresInside e := by
    simp [upRun, StoresInside, plainRegistration, AppEvent.controlEvent?]
  obtain ⟨_, hup, _, hactive, _⟩ := address_gate .shipped freshBoot (h := upRun) rfl
  exact ⟨_, rfl, rfl, hup, hactive hinside (by decide)⟩

/-! ## no dead end -/

/-- What brings `main` on: its own steps, with what `connect` and `start`
return, a PUT of `CONTINUE`, and an address. -/
def Helps (io : MainIo) : AppEvent → Prop
  | .main io' => io' = io
  | .putControl payload _ => payload = some meshIfaceCtrlContinue
  | e => AddressReported e

/-- `main` blocks nowhere but at the two acquires, and at the end. -/
theorem exists_mainStep {s : App} (io : MainIo) (hcontrol : s.main ≠ .acquireControl)
    (haddress : s.main ≠ .acquireGlobalIp) (hend : s.main ≠ .dispatchForever) :
    ∃ s', s.mainStep io = some s' := by
  unfold App.mainStep
  cases hpc : s.main with
  | acquireControl => exact absurd hpc hcontrol
  | acquireGlobalIp => exact absurd hpc haddress
  | dispatchForever => exact absurd hpc hend
  | connect =>
      dsimp only
      split <;> exact ⟨_, rfl⟩
  | _ => exact ⟨_, rfl⟩

/-- Each step of `main` leads on. -/
theorem rank_lt_mainStep {s s' : App} {io : MainIo} (h : s.mainStep io = some s') :
    s.main.rank < s'.main.rank := by
  cases main_mainStep h with
  | inl hnext => omega
  | inr hskip =>
      rw [hskip.1, hskip.2.2]
      decide

theorem rank_le_dispatchForever (pc : MainPc) : pc.rank ≤ MainPc.dispatchForever.rank := by
  cases pc <;> decide

/-- An event that opens the gate `main` is waiting at, and the step through
it. -/
theorem exists_run_through {pre : List AppEvent} {s s' : App} {e : AppEvent} {io : MainIo}
    (hrun : (app cfg boot).run pre = some s) (hstep : App.step cfg s e = some s')
    (hmain : s'.main = s.main) (hopen : (App.step cfg s' (.main io)).isSome) :
    ∃ t, (app cfg boot).run (pre ++ [e, .main io]) = some t ∧ s.main.rank < t.main.rank := by
  obtain ⟨t, ht⟩ := Option.isSome_iff_exists.mp hopen
  refine ⟨t, ?_, hmain ▸ rank_lt_mainStep ht⟩
  have hnext : (app cfg boot).run (pre ++ [e]) = some s' :=
    (app cfg boot).run_concat_eq_some.mpr ⟨s, hrun, hstep⟩
  rw [show pre ++ [e, .main io] = pre ++ [e] ++ [.main io] by simp]
  exact (app cfg boot).run_concat_eq_some.mpr ⟨s', hnext, ht⟩

theorem exists_progress (io : MainIo) {pre : List AppEvent} {s : App}
    (hrun : (app cfg boot).run pre = some s) (hend : s.main ≠ .dispatchForever) :
    ∃ d t, (∀ e ∈ d, Helps io e) ∧ (app cfg boot).run (pre ++ d) = some t ∧
      s.main.rank < t.main.rank := by
  by_cases hcontrol : s.main = .acquireControl
  · -- the mesh cannot be up yet, so a PUT of `CONTINUE` gives permission
    have hdown : s.meshInterfaceUp = false := by
      refine eq_false_of_ne_true fun hup => ?_
      have hlisten := (active_of_meshInterfaceUp hrun hup).1
      rw [hcontrol] at hlisten
      exact absurd hlisten (by decide)
    let e : AppEvent := .putControl (some meshIfaceCtrlContinue) ⟨fun _ => 0, false⟩
    obtain ⟨s', hs'⟩ : ∃ s', App.step cfg s e = some s' := ⟨_, rfl⟩
    have hjust : Justifying cfg boot pre s e := by
      refine ⟨hdown, ?_⟩
      have hvalue : (s.control.update (some meshIfaceCtrlContinue)
          ⟨fun _ => 0, false⟩).value.cstr? = some meshIfaceCtrlContinue :=
        cstr?_update_of_lt s.control _ (by decide)
      intro hbegins
      have hprefix := (controlBlocks_iff_of_cstr? hvalue).mp ((controlBlocks_iff _).mpr hbegins)
      exact absurd hprefix (by decide)
    have hmain : s'.main = s.main := main_eq_of_not_main (appStep_of_step hs') (by simp [e])
    have hopen : (App.step cfg s' (.main io)).isSome :=
      (isSome_step_acquire_iff (hmain.trans hcontrol) io).mpr
        ((gateOpen_step hrun hs').mpr (Or.inr hjust))
    obtain ⟨t, ht, hlt⟩ := exists_run_through hrun hs' hmain hopen
    exact ⟨_, t, by simp [e, Helps], ht, hlt⟩
  · by_cases haddress : s.main = .acquireGlobalIp
    · let e : AppEvent := .meshStatus (.connectionStatusChange .globalUp) (some [])
      have hlisten : s.main.Listening := by
        rw [haddress]
        decide
      obtain ⟨s', hs'⟩ : ∃ s', App.step cfg s e = some s' := ⟨_, if_pos hlisten⟩
      have hmain : s'.main = s.main := main_eq_of_not_main (appStep_of_step hs') (by simp [e])
      have hopen : (App.step cfg s' (.main io)).isSome :=
        (isSome_step_acquireGlobalIp_iff (hmain.trans haddress) io).mpr
          ((addressGateOpen_step hs').mpr (Or.inr ⟨[], rfl⟩))
      obtain ⟨t, ht, hlt⟩ := exists_run_through hrun hs' hmain hopen
      exact ⟨_, t, by simp [e, Helps, AddressReported], ht, hlt⟩
    · obtain ⟨t, ht⟩ := exists_mainStep io hcontrol haddress hend
      exact ⟨[.main io], t, by simp [Helps],
        (app cfg boot).run_concat_eq_some.mpr ⟨s, hrun, ht⟩, rank_lt_mainStep ht⟩

/-- **No dead end**: whatever has happened, and whatever `connect` and `start`
return, `main` comes to `queue->dispatch_forever` by its own steps, PUTs of
`CONTINUE` and reports of an address. -/
theorem main_reaches_dispatch (cfg : Config) (boot : Boot) (io : MainIo) {h : List AppEvent}
    {s : App} (hrun : (app cfg boot).run h = some s) :
    ∃ d t, (∀ e ∈ d, Helps io e) ∧ (app cfg boot).run (h ++ d) = some t ∧
      t.main = .dispatchForever := by
  refine Machine.exists_run_of_progress
    (fun s : App => MainPc.dispatchForever.rank - s.main.rank) ?_ hrun
  intro pre s hrun hend
  obtain ⟨d, t, hd, ht, hlt⟩ := exists_progress io hrun hend
  have hle := rank_le_dispatchForever t.main
  exact ⟨d, t, hd, ht, by omega⟩

end PelionBorderRouter
