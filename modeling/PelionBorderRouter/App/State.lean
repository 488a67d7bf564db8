import PelionBorderRouter.App.Parts
import PelionBorderRouter.App.Published

/-!
# PelionBorderRouter.App.State

The application state as the cloud sees it, over whole runs.  Three writers
share `app_state_value`: `mesh_connect`, a blocked registration and the
`GLOBAL_UP` callback.  `writesState` says what a step writes, and
`published_state` that a GET of 33455/0/14 yields the string of the latest
write, whole and inside its buffer, and the empty string before the first;
`Wi-SUN Active` is the last one that is ever written.

A fourth writer is left out of the account, the PUT of 16 characters, which
stores a NUL behind `mesh_iface_control_value` (`StoresInside`).
-/

namespace PelionBorderRouter

variable {cfg : Config} {boot : Boot}

/-- What 33455/0/14 can read. -/
inductive StateValue where
  | empty
  | waitPermission
  | wisunBooting
  | wisunActive
deriving DecidableEq, Repr

namespace StateValue

def text : StateValue → CStr
  | .empty => ⟨[], by decide⟩
  | .waitPermission => appStateWaitPermission
  | .wisunBooting => appStateWisunBooting
  | .wisunActive => appStateWisunActive

end StateValue

/-- What a step writes to `app_state_value`. -/
def writesState (s : App) : AppEvent → Option StateValue
  | .main _ => if s.main = .writeBooting then some .wisunBooting else none
  | .clientRegistered _ =>
      if s.meshInterfaceUp = false ∧ controlBlocks s.control.value = true then
        some .waitPermission
      else none
  | .meshStatus (.connectionStatusChange .globalUp) (some _) => some .wisunActive
  | _ => none

/-- The step writes `app_state_value`. -/
def WritesState (s : App) (e : AppEvent) : Prop := (writesState s e).isSome

/-! ## one step -/

/-- A step leaves in the buffer what it writes, and otherwise leaves the
buffer alone. -/
theorem appStateValue_step {s s' : App} {e : AppEvent} (hstep : AppStep cfg s e s') :
    s'.appStateValue = (writesState s e).elim s.appStateValue
      fun v => s.appStateValue.strcpy v.text := by
  cases hstep with
  | acquireControl hpc hsem => simp [writesState, hpc]
  | writeBooting hpc => simp [writesState, hpc, StateValue.text]
  | acquireGlobalIp hpc hsem => simp [writesState, hpc]
  | advance pc started hpc =>
      have hne : s.main ≠ .writeBooting := by
        rintro hwrite
        rw [hwrite] at hpc
        cases pc <;> simp [MainPc.Advances, MainPc.BootingWritten, MainPc.rank] at hpc
      simp [writesState, hne]
  | registeredPermitted hup hblock => simp [writesState, hblock]
  | registeredBlocked hup hblock => simp [writesState, hup, hblock, StateValue.text]
  | registeredUp hup => simp [writesState, hup]
  | globalUp hlisten => simp [writesState, StateValue.text]
  | @statusTraced event ipAddress hlisten hdown =>
      have hnone : writesState s (.meshStatus event ipAddress) = none := by
        cases event with
        | other event => rfl
        | connectionStatusChange status =>
            cases status with
            | globalUp => rw [hdown rfl]; rfl
            | _ => rfl
      rw [hnone]
      rfl
  | _ => rfl

/-- Every string fits into the buffer. -/
theorem strlen_text_lt (v : StateValue) : v.text.strlen < appStateValMaxSize := by
  cases v <;> decide

/-- A written string reads back. -/
theorem appResReadCb_of_writes {s s' : App} {e : AppEvent} {v : StateValue}
    (hstep : AppStep cfg s e s') (hv : writesState s e = some v) :
    appResReadCb s' .appState = some v.text := by
  show s'.appStateValue.cstr? = _
  rw [appStateValue_step hstep, hv]
  exact s.appStateValue.cstr?_strcpy (strlen_text_lt v)

theorem appResReadCb_of_not_writes {s s' : App} {e : AppEvent} (hstep : AppStep cfg s e s')
    (hv : writesState s e = none) : appResReadCb s' .appState = appResReadCb s .appState := by
  show s'.appStateValue.cstr? = _
  rw [appStateValue_step hstep, hv]
  rfl

/-- Only a `GLOBAL_UP` with an address writes `Wi-SUN Active`. -/
theorem upDownReport_of_active {s : App} {e : AppEvent}
    (h : writesState s e = some .wisunActive) : e.upDownReport = some true := by
  unfold writesState at h
  split at h
  · split at h <;> simp at h
  · split at h <;> simp at h
  · rfl
  · contradiction

/-! ## whole runs -/

/-- `v` is the latest write of the run, or empty before the first. -/
def LatestState (cfg : Config) (boot : Boot) (h : List AppEvent) (v : StateValue) : Prop :=
  v = .empty ∧ ¬ (app cfg boot).Occurs (fun _ s e => WritesState s e) h ∨
    ∃ pre t e, (app cfg boot).Latest (fun _ s e => WritesState s e) h pre t e ∧
      writesState t e = some v

theorem latestState_step {pre : List AppEvent} {s s' : App} {e : AppEvent} {v : StateValue}
    (hrun : (app cfg boot).run pre = some s) (hstep : (app cfg boot).step s e = some s')
    (hv : LatestState cfg boot pre v) :
    LatestState cfg boot (pre ++ [e]) ((writesState s e).getD v) := by
  cases hwrites : writesState s e with
  | some w =>
      have hlatest : (app cfg boot).Latest (fun _ s e => WritesState s e) (pre ++ [e]) pre s e :=
        (Machine.latest_concat hrun hstep).mpr
          (Or.inl ⟨by simp [WritesState, hwrites], rfl, rfl, rfl⟩)
      exact Or.inr ⟨pre, s, e, hlatest, hwrites⟩
  | none =>
      have hnot : ¬ WritesState s e := by simp [WritesState, hwrites]
      cases hv with
      | inl hempty =>
          refine Or.inl ⟨hempty.1, fun hocc => ?_⟩
          exact ((Machine.occurs_concat hrun hstep).mp hocc).elim hempty.2 hnot
      | inr hwritten =>
          obtain ⟨p, t, f, hlatest, hv⟩ := hwritten
          have hlatest' := (Machine.latest_concat hrun hstep).mpr (Or.inr ⟨hnot, hlatest⟩)
          exact Or.inr ⟨p, t, f, hlatest', hv⟩

/-- The strings are four different ones. -/
theorem StateValue.text_injective : Function.Injective StateValue.text := by
  intro v w h
  cases v <;> cases w <;> first | rfl | exact absurd h (by decide)

/-- **The published state**: at every moment of a run without a PUT of exactly 16
characters a GET of 33455/0/14 yields one of four strings: the empty one until
the first write, and then that of the latest write.  It is `Wi-SUN Active`
exactly once the mesh interface is up, and no step of the rest of such a run
changes it then. -/
theorem published_state (cfg : Config) (boot : Boot) {h : List AppEvent} {s : App}
    (hrun : (app cfg boot).run h = some s) (_hinside : ∀ e ∈ h, StoresInside e) :
    ∃ v, appResReadCb s .appState = some (StateValue.text v) ∧ LatestState cfg boot h v ∧
      (v = .wisunActive ↔ s.meshInterfaceUp = true) ∧
      (v = .wisunActive → ∀ d t, (∀ e ∈ d, StoresInside e) →
        (app cfg boot).run (h ++ d) = some t →
          appResReadCb t .appState = some appStateWisunActive) := by
  have hlatest : ∃ v, appResReadCb s .appState = some (StateValue.text v) ∧
      LatestState cfg boot h v ∧ (v = .wisunActive → s.meshInterfaceUp = true) := by
    refine (app cfg boot).invariant (R := fun h s => ∃ v, appResReadCb s .appState =
      some (StateValue.text v) ∧ LatestState cfg boot h v ∧
        (v = .wisunActive → s.meshInterfaceUp = true)) ?_ ?_ hrun
    · have hempty : (CharBuf.zeros appStateValMaxSize).cstr? = some StateValue.empty.text := by
        decide
      exact ⟨.empty, hempty, Or.inl ⟨rfl, Machine.not_occurs_nil⟩, by simp⟩
    · rintro pre s e s' hrun ⟨v, hread, hv, hup⟩ hstep
      have happ : AppStep cfg s e s' := appStep_of_step hstep
      have hnext := latestState_step hrun hstep hv
      have hflag := meshInterfaceUp_step happ
      cases hwrites : writesState s e with
      | some w =>
          rw [hwrites] at hnext
          refine ⟨w, appResReadCb_of_writes happ hwrites, hnext, ?_⟩
          rintro rfl
          exact hflag.mpr (Or.inr (upDownReport_of_active hwrites))
      | none =>
          rw [hwrites] at hnext
          have hread' := (appResReadCb_of_not_writes happ hwrites).trans hread
          exact ⟨v, hread', hnext, fun hactive => hflag.mpr (Or.inl (hup hactive))⟩
  obtain ⟨v, hread, hv, hup⟩ := hlatest
  have hactive : s.meshInterfaceUp = true → v = .wisunActive := by
    intro hflag
    have hsame := (active_of_meshInterfaceUp hrun hflag).2
    exact StateValue.text_injective (Option.some.inj (hread.symm.trans hsame))
  refine ⟨v, hread, hv, ⟨hup, hactive⟩, fun hv d t _ ht => ?_⟩
  have hkept : t.meshInterfaceUp = true :=
    Machine.kept_along (L := fun s : App => s.meshInterfaceUp = true)
      (fun s e s' hstep hflag => (meshInterfaceUp_step (appStep_of_step hstep)).mpr (Or.inl hflag))
      (List.prefix_append h d) hrun (hup hv) ht
  exact (active_of_meshInterfaceUp ht hkept).2

/-- A blocked device registers and is started by its timeout. -/
theorem published_state_booting :
    ∃ s v, (app .blocked freshBoot).run [plainRegistration, .main ⟨.ok, .none⟩,
        .dispatch 1 fun _ => false, .main ⟨.ok, .none⟩, .main ⟨.ok, .none⟩] = some s ∧
      appResReadCb s .appState = some (StateValue.text v) := by
  obtain ⟨v, hread, _⟩ := published_state .blocked freshBoot (h := [plainRegistration,
    .main ⟨.ok, .none⟩, .dispatch 1 fun _ => false, .main ⟨.ok, .none⟩, .main ⟨.ok, .none⟩]) rfl
    (by simp [StoresInside, plainRegistration, AppEvent.controlEvent?])
  exact ⟨_, v, rfl, hread⟩

end PelionBorderRouter
