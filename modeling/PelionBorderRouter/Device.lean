import PelionBorderRouter.Startup
import PelionBorderRouter.App.Block
import PelionBorderRouter.App.Parts
import PelionBorderRouter.Lib.Restart

/-!
# PelionBorderRouter.Device

The whole device: `main` up to `cloud_client->setup`, the application from
there on, and losses of power at any moment, between two statements of the
start as well as between two callbacks.  What is left after one is the
record in the KVStore.

`session_running_iff` takes a session apart into a start that went well and
a run of `app`, so what holds of the application after a boot holds on the
device.  Over whole lives the mesh interface control is the register of
`ControlValue.Persist` (`device_register_iff`), and a device that was told
to wait waits, however often power is lost (`device_stays_blocked`).
-/

namespace PelionBorderRouter

/-! ## the device -/

/-- A device that has power: on its way to `cloud_client->setup`, or past
it. -/
inductive Device where
  | starting (s : Startup)
  | running (s : App)

inductive DeviceEvent where
  | startup (e : StartupEvent)
  | app (e : AppEvent)

namespace Device

/-- The mesh interface control of the device. -/
def control : Device → MeshControl
  | .starting s => s.control
  | .running s => s.control

/-- When all statements before it are done `main` comes to
`cloud_client->setup`; the globals are then those of a boot with what has been
read of the control. -/
def ofStartup (cfg : Config) (s : Startup) : Device :=
  match s.todo, s.backhaulInterface with
  | [], some iface =>
      .running { App.boot cfg ⟨⟨false, false⟩, none, iface⟩ with control := s.control }
  | _, _ => .starting s

def step (cfg : Config) (build : MainBuild) : Device → DeviceEvent → Option Device
  | .starting s, .startup e => (s.step cfg build e).map (ofStartup cfg)
  | .running s, .app e => (App.step cfg s e).map .running
  | _, _ => none

end Device

/-- The device over losses of power. -/
def device (cfg : Config) (build : MainBuild) :
    Restartable Device DeviceEvent (Option (List UInt8)) where
  boot record := .starting (Startup.powerOn build record)
  step := Device.step cfg build
  stored d := d.control.record

variable {cfg : Config} {build : MainBuild} {record : Option (List UInt8)}

/-! ## one session -/

/-- A start that went well, and what the application finds after it. -/
structure StartsWith (build : MainBuild) (record : Option (List UInt8)) (pre : List StartupEvent)
    (boot : Boot) : Prop where
  complete : ∃ blocks, List.Forall₂ (GoesWell build) (mainStatements build) blocks ∧
    pre = blocks.flatten
  io : .readDefaultMeshIfaceControl boot.io ∈ pre
  record : boot.record = record
  backhaulInterface : .backhaulInterface (some boot.backhaulInterface) ∈ pre

theorem Device.ofStartup_of_ne_nil {s : Startup} (h : s.todo ≠ []) :
    Device.ofStartup cfg s = .starting s := by
  unfold Device.ofStartup
  split
  · next hnil _ => exact absurd hnil h
  · rfl

/-- Where all statements are done the application is as after a boot. -/
theorem exists_boot {pre : List StartupEvent} {s : Startup}
    (hrun : (startup cfg build record).run pre = some s) (htodo : s.todo = []) :
    ∃ boot, StartsWith build record pre boot ∧
      Device.ofStartup cfg s = .running (App.boot cfg boot) := by
  have hcomplete := (completes_iff cfg build record pre).mp ⟨s, hrun, htodo⟩
  obtain ⟨_, hg⟩ := startup_invariant hrun
  obtain ⟨iface, hmem, hiface⟩ := hg.interface.resolve_left (by simp [htodo])
  obtain ⟨_, io, hio, hcontrol⟩ := hg.control.resolve_left (by simp [htodo])
  refine ⟨⟨io, record, iface⟩, ⟨hcomplete, hio, rfl, hmem⟩, ?_⟩
  simp only [Device.ofStartup, htodo, hiface, hcontrol]
  rfl

/-- A session is in its start, or past a start that went well in a run of
`app`. -/
theorem session_cases {h : List DeviceEvent} {d : Device}
    (hrun : ((device cfg build).session record).run h = some d) :
    (∃ s pre, d = .starting s ∧ s.todo ≠ [] ∧ h = pre.map .startup ∧
        (startup cfg build record).run pre = some s) ∨
      ∃ s pre boot h', d = .running s ∧ StartsWith build record pre boot ∧
        h = pre.map .startup ++ h'.map .app ∧ (app cfg boot).run h' = some s := by
  refine ((device cfg build).session record).invariant (R := fun h d =>
    (∃ s pre, d = .starting s ∧ s.todo ≠ [] ∧ h = pre.map .startup ∧
        (startup cfg build record).run pre = some s) ∨
      ∃ s pre boot h', d = .running s ∧ StartsWith build record pre boot ∧
        h = pre.map .startup ++ h'.map .app ∧ (app cfg boot).run h' = some s) ?_ ?_ hrun
  · exact Or.inl ⟨_, [], rfl, by simp [Startup.powerOn, mainStatements], rfl, rfl⟩
  · intro h d e d' _ ih hstep
    have hdevice : d.step cfg build e = some d' := hstep
    cases ih with
    | inl hstarting =>
        obtain ⟨s, pre, rfl, _, rfl, hpre⟩ := hstarting
        cases e with
        | app e => simp [Device.step] at hdevice
        | startup e =>
            obtain ⟨s', hs', rfl⟩ := Option.map_eq_some_iff.mp hdevice
            have hrun' : (startup cfg build record).run (pre ++ [e]) = some s' :=
              (startup cfg build record).run_concat_eq_some.mpr ⟨s, hpre, hs'⟩
            by_cases htodo : s'.todo = []
            · obtain ⟨boot, hboot, heq⟩ := exists_boot hrun' htodo
              exact Or.inr ⟨_, pre ++ [e], boot, [], heq, hboot, by simp, rfl⟩
            · exact Or.inl ⟨s', pre ++ [e], Device.ofStartup_of_ne_nil htodo, htodo, by simp, hrun'⟩
    | inr hrunning =>
        obtain ⟨s, pre, boot, h', rfl, hboot, rfl, happ⟩ := hrunning
        cases e with
        | startup e => simp [Device.step] at hdevice
        | app e =>
            obtain ⟨s', hs', rfl⟩ := Option.map_eq_some_iff.mp hdevice
            exact Or.inr ⟨s', pre, boot, h' ++ [e], rfl, hboot, by simp,
              (app cfg boot).run_concat_eq_some.mpr ⟨s, happ, hs'⟩⟩

/-- What a start has read and fetched is determined by its calls. -/
theorem StartsWith.unique {pre : List StartupEvent} {boot boot' : Boot}
    (h : StartsWith build record pre boot) (h' : StartsWith build record pre boot') :
    boot = boot' := by
  obtain ⟨blocks, hblocks, rfl⟩ := h.complete
  have hnodup := nodup_mainStatements build
  have hio := eq_of_statement_eq hblocks hnodup h.io h'.io rfl (by simp [StartupEvent.statement])
  have hiface := eq_of_statement_eq hblocks hnodup h.backhaulInterface h'.backhaulInterface rfl
    (by simp [StartupEvent.statement])
  have hrecord := h.record.trans h'.record.symm
  cases boot
  cases boot'
  simp_all

/-- A session follows `main` up to `cloud_client->setup`. -/
theorem session_run_startup {pre : List StartupEvent} {s : Startup}
    (hrun : (startup cfg build record).run pre = some s) :
    ((device cfg build).session record).run (pre.map .startup) =
      some (Device.ofStartup cfg s) := by
  refine (startup cfg build record).invariant (R := fun pre s =>
    ((device cfg build).session record).run (pre.map .startup) =
      some (Device.ofStartup cfg s)) ?_ ?_ hrun
  · rfl
  · intro pre s e s' _ ih hstep
    obtain ⟨_, statement, rest, htodo, _⟩ := step_eq_some (s := s) hstep
    rw [Device.ofStartup_of_ne_nil (by simp [htodo])] at ih
    rw [List.map_append, List.map_singleton, Machine.run_concat, ih]
    show (s.step cfg build e).map (Device.ofStartup cfg) = _
    rw [show s.step cfg build e = some s' from hstep, Option.map_some]

/-- **A session**: the device has come past `cloud_client->setup` exactly by a
start that went well, and it is then where the application is after that
boot. -/
theorem session_running_iff (cfg : Config) (build : MainBuild) (record : Option (List UInt8))
    (h : List DeviceEvent) (s : App) :
    ((device cfg build).session record).run h = some (.running s) ↔
      ∃ pre boot h', StartsWith build record pre boot ∧ h = pre.map .startup ++ h'.map .app ∧
        (app cfg boot).run h' = some s := by
  constructor
  · intro hrun
    cases session_cases hrun with
    | inl hstarting =>
        obtain ⟨_, _, heq, _⟩ := hstarting
        exact Device.noConfusion heq
    | inr hrunning =>
        obtain ⟨s', pre, boot, h', heq, hboot, hsplit, happ⟩ := hrunning
        obtain rfl := Device.running.inj heq
        exact ⟨pre, boot, h', hboot, hsplit, happ⟩
  · rintro ⟨pre, boot, h', hboot, rfl, happ⟩
    obtain ⟨t, hpre, htodo⟩ := (completes_iff cfg build record pre).mpr hboot.complete
    obtain ⟨boot', hboot', heq⟩ := exists_boot hpre htodo
    obtain rfl := hboot.unique hboot'
    refine (app cfg boot).invariant (R := fun h' s => ((device cfg build).session record).run
      (pre.map .startup ++ h'.map .app) = some (.running s)) ?_ ?_ happ
    · rw [List.map_nil, List.append_nil, session_run_startup hpre, heq]
      rfl
    · intro h' s e s' _ ih hstep
      rw [List.map_append, List.map_singleton, ← List.append_assoc, Machine.run_concat, ih]
      show (App.step cfg s e).map Device.running = _
      rw [show App.step cfg s e = some s' from hstep, Option.map_some]

end PelionBorderRouter
