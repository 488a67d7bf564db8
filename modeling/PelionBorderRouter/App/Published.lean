import PelionBorderRouter.App.Gate

/-!
# PelionBorderRouter.App.Published

What the cloud reads under 33455/0/14.  The resource is documented to say
`Waiting Permission` before the mesh is started, `Wi-SUN Booting` once it
is, and `Wi-SUN Active` while it is connected.  Three places write it, and
two of them look only at `mesh_interface_up`, which the first `GLOBAL_UP`
with an address sets and nothing clears.  So it is wrong at both ends:

* between the start and that `GLOBAL_UP` a blocked registration brings
  `Waiting Permission` back (`published_forward_iff`);
* after it no loss of the connection is published (`active_connected_iff`).
-/

namespace PelionBorderRouter

variable {cfg : Config} {boot : Boot}

/-- A registration that finds the mesh down and `BLOCK` in the control
value. -/
def RegisteredBlocked (s : App) (e : AppEvent) : Prop :=
  (∃ io, e = .clientRegistered io) ∧ s.meshInterfaceUp = false ∧ BeginsWithBlock s.control.value

/-- `mesh_connect` has written its string, and a GET does not answer
`Waiting Permission` any more. -/
def NotBackToWaiting (s : App) : Prop :=
  s.main.BootingWritten → appResReadCb s .appState ≠ some appStateWaitPermission

/-- The up/down reports of the mesh interface: `some true` is a `GLOBAL_UP`
whose address can be read, `some false` any other. -/
def AppEvent.upDownReport : AppEvent → Option Bool
  | .meshStatus (.connectionStatusChange .globalUp) ipAddress => some ipAddress.isSome
  | .meshStatus (.connectionStatusChange .localUp) _ => some false
  | .meshStatus (.connectionStatusChange .disconnected) _ => some false
  | _ => none

/-- The most recent up/down report was a `GLOBAL_UP` whose address could be
read. -/
def Connected (h : List AppEvent) : Prop :=
  (h.filterMap AppEvent.upDownReport).getLast? = some true

instance (h : List AppEvent) : Decidable (Connected h) := inferInstanceAs (Decidable (_ = _))

/-- The application takes the mesh for connected, and says so. -/
def PublishesActive (s : App) : Prop :=
  s.meshInterfaceUp = true ∧ appResReadCb s .appState = some appStateWisunActive

/-! ## the string -/

/-- Every string the application publishes reads back from its buffer. -/
theorem cstr?_appStateValue_strcpy (b : CharBuf appStateValMaxSize) :
    (b.strcpy appStateWaitPermission).cstr? = some appStateWaitPermission ∧
      (b.strcpy appStateWisunBooting).cstr? = some appStateWisunBooting ∧
      (b.strcpy appStateWisunActive).cstr? = some appStateWisunActive :=
  ⟨b.cstr?_strcpy (by decide), b.cstr?_strcpy (by decide), b.cstr?_strcpy (by decide)⟩

/-- A step brings `Waiting Permission` back exactly when it is a blocked
registration. -/
theorem notBackToWaiting_step {s s' : App} {e : AppEvent} (hs : NotBackToWaiting s)
    (hstep : AppStep cfg s e s') :
    NotBackToWaiting s' ↔ ¬ (s.main.BootingWritten ∧ RegisteredBlocked s e) := by
  obtain ⟨hwait, hbooting, hactive⟩ := cstr?_appStateValue_strcpy s.appStateValue
  cases hstep with
  | acquireControl hpc hsem =>
      have hnot : ¬ MainPc.writeBooting.BootingWritten := by decide
      exact iff_of_true (fun hb => absurd hb hnot) (by simp [RegisteredBlocked])
  | writeBooting hpc =>
      have hreads : (s.appStateValue.strcpy appStateWisunBooting).cstr? ≠
          some appStateWaitPermission := by
        rw [hbooting]
        decide
      exact iff_of_true (fun _ => hreads) (by simp [RegisteredBlocked])
  | acquireGlobalIp hpc hsem =>
      have hb : s.main.BootingWritten := by
        rw [hpc]
        decide
      exact iff_of_true (fun _ => hs hb) (by simp [RegisteredBlocked])
  | advance pc started hpc =>
      exact iff_of_true (fun hb => hs (hpc.2.2.mp hb)) (by simp [RegisteredBlocked])
  | registeredPermitted hup hblock =>
      have hnot := (controlBlocks_eq_false_iff _).mp hblock
      exact iff_of_true hs fun h => hnot h.2.2.2
  | @registeredBlocked io hup hblock =>
      have hbegins : BeginsWithBlock s.control.value := (controlBlocks_iff _).mp hblock
      constructor
      · exact fun h hb => h hb.1 hwait
      · exact fun h hb => absurd ⟨hb, ⟨io, rfl⟩, hup, hbegins⟩ h
  | registeredUp hup =>
      exact iff_of_true hs fun h => absurd (hup.symm.trans h.2.2.1) (by decide)
  | globalUp hlisten =>
      have hreads : (s.appStateValue.strcpy appStateWisunActive).cstr? ≠
          some appStateWaitPermission := by
        rw [hactive]
        decide
      exact iff_of_true (fun _ => hreads) (by simp [RegisteredBlocked])
  | _ => exact iff_of_true hs (by simp [RegisteredBlocked])

/-- **Never back to waiting**: once `mesh_connect` has written
`Wi-SUN Booting`, no state of the run reads `Waiting Permission`, exactly
when no registration since then has found the mesh down and `BLOCK` in the
control value. -/
theorem published_forward_iff (cfg : Config) (boot : Boot) (h : List AppEvent) :
    (app cfg boot).Holds (fun _ s => NotBackToWaiting s) h ↔
      (app cfg boot).Always (fun _ s e => ¬ (s.main.BootingWritten ∧ RegisteredBlocked s e)) h := by
  have hstart : NotBackToWaiting (App.boot cfg boot) := by
    have hnot : ¬ MainPc.setup.BootingWritten := by decide
    exact fun hb => absurd hb hnot
  exact Machine.holds_iff_always hstart
    (fun _ _ _ _ _ hs hstep => notBackToWaiting_step hs (appStep_of_step hstep)) h

/-- Started by its timeout, a device with `BLOCK` registers once more before
the mesh is up: it reads `Waiting Permission` again. -/
theorem waiting_again_after_booting :
    ¬ (app .blocked freshBoot).Holds (fun _ s => NotBackToWaiting s)
      [plainRegistration, .main ⟨.ok, .none⟩, .dispatch 1 fun _ => false, .main ⟨.ok, .none⟩,
        .main ⟨.ok, .none⟩, plainRegistration] := by
  intro hholds
  have hlast := hholds _ _ (List.prefix_refl _) rfl (by decide)
  exact hlast (by decide)

/-! ## the connection -/

/-- The most recent report after one more event. -/
theorem connected_concat (h : List AppEvent) (e : AppEvent) :
    Connected (h ++ [e]) ↔
      e.upDownReport = some true ∨ e.upDownReport = none ∧ Connected h := by
  unfold Connected
  rw [List.filterMap_append, List.getLast?_append]
  cases hreport : e.upDownReport with
  | none => simp [hreport]
  | some b => simp [hreport]

/-- The flag is set by a `GLOBAL_UP` with an address, and never cleared. -/
theorem meshInterfaceUp_step {s s' : App} {e : AppEvent} (hstep : AppStep cfg s e s') :
    s'.meshInterfaceUp = true ↔ s.meshInterfaceUp = true ∨ e.upDownReport = some true := by
  cases hstep with
  | globalUp hlisten => simp [AppEvent.upDownReport]
  | @statusTraced event ipAddress hlisten hdown =>
      have hreport : (AppEvent.meshStatus event ipAddress).upDownReport ≠ some true := by
        cases event with
        | other event => simp [AppEvent.upDownReport]
        | connectionStatusChange status =>
            cases status with
            | globalUp => simp [AppEvent.upDownReport, hdown rfl]
            | _ => simp [AppEvent.upDownReport]
      simp [hreport]
  | _ => simp [AppEvent.upDownReport]

/-- While the flag is set the string is `Wi-SUN Active`: the two writers
that could replace it do not run any more. -/
theorem active_of_meshInterfaceUp {h : List AppEvent} {s : App}
    (hrun : (app cfg boot).run h = some s) :
    s.meshInterfaceUp = true →
      s.main.Listening ∧ appResReadCb s .appState = some appStateWisunActive := by
  refine (app cfg boot).invariant (R := fun _ s => s.meshInterfaceUp = true →
    s.main.Listening ∧ appResReadCb s .appState = some appStateWisunActive) ?_ ?_ hrun
  · exact fun hup => absurd hup (by simp [app, App.boot])
  · intro pre s e s' _ ih hstep hup
    have happ : AppStep cfg s e s' := appStep_of_step hstep
    have hkeep : s.main.Listening → s'.main.Listening :=
      fun hl => Nat.lt_of_lt_of_le hl happ.rank_le
    cases happ with
    | writeBooting hpc =>
        have hl := (ih hup).1
        rw [hpc] at hl
        exact absurd hl (by decide)
    | registeredBlocked hdown hblock => exact absurd (hdown.symm.trans hup) (by decide)
    | globalUp hlisten =>
        exact ⟨hlisten, (cstr?_appStateValue_strcpy s.appStateValue).2.2⟩
    | _ =>
        obtain ⟨hl, hactive⟩ := ih hup
        exact ⟨hkeep hl, hactive⟩

/-- **Active means connected**: at every moment of a run the application
publishes `Wi-SUN Active` exactly while the mesh is connected, exactly when
no report of a lost connection (`DISCONNECTED`, `LOCAL_UP`, or a `GLOBAL_UP`
without an address) comes while `mesh_interface_up` is set. -/
theorem active_connected_iff (cfg : Config) (boot : Boot) (h : List AppEvent) :
    (app cfg boot).Holds (fun pre s => PublishesActive s ↔ Connected pre) h ↔
      (app cfg boot).Always (fun _ s e =>
        ¬ (s.meshInterfaceUp = true ∧ e.upDownReport = some false)) h := by
  have hpublishes : ∀ {pre s}, (app cfg boot).run pre = some s →
      (PublishesActive s ↔ s.meshInterfaceUp = true) := by
    intro pre s hrun
    exact and_iff_left_of_imp fun hup => (active_of_meshInterfaceUp hrun hup).2
  have hstart : PublishesActive (App.boot cfg boot) ↔ Connected [] :=
    iff_of_false (fun hp => absurd hp.1 (by simp [App.boot])) (by decide)
  refine Machine.holds_iff_always hstart ?_ h
  intro pre s e s' hrun hs hstep
  have hup := meshInterfaceUp_step (appStep_of_step hstep)
  have hafter := hpublishes ((app cfg boot).run_concat_eq_some.mpr ⟨s, hrun, hstep⟩)
  rw [hpublishes hrun] at hs
  rw [hafter, hup, connected_concat, ← hs]
  cases hreport : e.upDownReport with
  | none => simp
  | some b =>
      cases b with
      | false => simp
      | true => simp

/-- The mesh comes up and is lost: the device still reads
`Wi-SUN Active`. -/
theorem active_after_disconnect :
    ¬ (app .shipped freshBoot).Holds (fun pre s => PublishesActive s ↔ Connected pre)
      [plainRegistration, .main ⟨.ok, .none⟩, .main ⟨.ok, .none⟩, .main ⟨.ok, .none⟩,
        .main ⟨.ok, .none⟩, .main ⟨.ok, .none⟩, .main ⟨.ok, .none⟩,
        .meshStatus (.connectionStatusChange .globalUp) (some [0xfd]),
        .meshStatus (.connectionStatusChange .disconnected) none] := by
  intro hholds
  have hlast := hholds _ _ (List.prefix_refl _) rfl
  exact absurd (hlast.mp ⟨rfl, by decide⟩) (by decide)

end PelionBorderRouter
