import PelionBorderRouter.App.Address
import PelionBorderRouter.Device.Life

/-!
# PelionBorderRouter.Device.Recover

Nothing that has happened to a device keeps it from working again: not what
it has stored, not where power was lost, not a `main` that has returned `-1`.
`device_recovers` says so for every life of the device.  After one more loss
of power a start whose calls go well leads to the application, and from
wherever the application is then `main` comes to `queue->dispatch_forever` by
its own steps, PUTs of `CONTINUE` and reports of an address, also when
`connect` and `start` keep failing.
-/

namespace PelionBorderRouter

variable {cfg : Config} {build : MainBuild} {record : Option (List UInt8)}

/-- The events of the application, in the life of a device. -/
def appLife (h : List AppEvent) : List (Restart DeviceEvent) := h.map fun e => .event (.app e)

/-- A start, in the life of a device. -/
def startupLife (h : List StartupEvent) : List (Restart DeviceEvent) :=
  h.map fun e => .event (.startup e)

/-- The life of a device goes on as its application does. -/
theorem life_run_appLife {h : List (Restart DeviceEvent)} {s t : App} {h' : List AppEvent}
    (hlife : ((device cfg build).life record).run h = some (.running s))
    (happ : h'.foldlM (App.step cfg) s = some t) :
    ((device cfg build).life record).run (h ++ appLife h') = some (.running t) := by
  induction h' generalizing h s with
  | nil =>
      obtain rfl : s = t := Option.some.inj happ
      rw [appLife, List.map_nil, List.append_nil]
      exact hlife
  | cons e h' ih =>
      rw [List.foldlM_cons] at happ
      obtain ⟨s', hstep, happ'⟩ := Option.bind_eq_some_iff.mp happ
      rw [appLife, List.map_cons, List.append_cons]
      refine ih (((device cfg build).life record).run_concat_eq_some.mpr ⟨_, hlife, ?_⟩) happ'
      show (App.step cfg s e).map Device.running = _
      rw [hstep, Option.map_some]

/-- What a running device is in is a run of its application. -/
theorem exists_app_run {h : List (Restart DeviceEvent)} {s : App}
    (hlife : ((device cfg build).life record).run h = some (.running s)) :
    ∃ boot h', (app cfg boot).run h' = some s := by
  obtain ⟨q, session, hsession, _⟩ := Restartable.exists_session hlife
  obtain ⟨_, boot, h', _, _, happ⟩ := (session_running_iff cfg build q session s).mp hsession
  exact ⟨boot, h', happ⟩

/-- From a running device `main` comes to `queue->dispatch_forever`. -/
theorem life_reaches_dispatch (io : MainIo) {h : List (Restart DeviceEvent)} {s : App}
    (hlife : ((device cfg build).life record).run h = some (.running s)) :
    ∃ h' t, (∀ e ∈ h', Helps io e) ∧
      ((device cfg build).life record).run (h ++ appLife h') = some (.running t) ∧
      t.main = .dispatchForever := by
  obtain ⟨boot, h₀, happ⟩ := exists_app_run hlife
  obtain ⟨h', t, hhelps, ht, hmain⟩ := main_reaches_dispatch cfg boot io happ
  rw [Machine.run_append, happ] at ht
  exact ⟨h', t, hhelps, life_run_appLife hlife ht, hmain⟩

/-- After a loss of power a start that goes well leads to the application. -/
theorem life_run_startupLife {h : List (Restart DeviceEvent)} {d : Device}
    (hlife : ((device cfg build).life record).run h = some d) {blocks : List (List StartupEvent)}
    (hblocks : List.Forall₂ (GoesWell build) (mainStatements build) blocks) :
    ∃ s, ((device cfg build).life record).run (h ++ .powerCycle :: startupLife blocks.flatten) =
      some (.running s) := by
  obtain ⟨s, hrun, htodo⟩ :=
    (completes_iff cfg build d.control.record blocks.flatten).mpr ⟨blocks, hblocks, rfl⟩
  obtain ⟨boot, _, hboot⟩ := exists_boot hrun htodo
  refine ⟨App.boot cfg boot, ?_⟩
  have hevents : startupLife blocks.flatten = (blocks.flatten.map .startup).map .event := by
    rw [List.map_map]
    rfl
  rw [Restartable.run_life_append hlife, hevents, Restartable.run_life_map_event]
  exact hboot ▸ session_run_startup hrun

/-- **Recovery**: from every state of every life of a device, a loss of power
and a start whose calls go well lead to a running application, and `main` of
a running application comes to `queue->dispatch_forever` by its own steps,
PUTs of `CONTINUE` and reports of an address. -/
theorem device_recovers (cfg : Config) (build : MainBuild) (io : MainIo)
    {h : List (Restart DeviceEvent)} {d : Device}
    (hlife : ((device cfg build).life record).run h = some d) :
    (∀ blocks, List.Forall₂ (GoesWell build) (mainStatements build) blocks →
      ∃ h' t, (∀ e ∈ h', Helps io e) ∧ ((device cfg build).life record).run
          (h ++ .powerCycle :: (startupLife blocks.flatten ++ appLife h')) = some (.running t) ∧
        t.main = .dispatchForever) ∧
      ∀ s, d = .running s → ∃ h' t, (∀ e ∈ h', Helps io e) ∧
        ((device cfg build).life record).run (h ++ appLife h') = some (.running t) ∧
        t.main = .dispatchForever := by
  constructor
  · intro blocks hblocks
    obtain ⟨s, hs⟩ := life_run_startupLife hlife hblocks
    obtain ⟨h', t, hhelps, ht, hmain⟩ := life_reaches_dispatch io hs
    refine ⟨h', t, hhelps, ?_, hmain⟩
    rwa [List.append_assoc, List.cons_append] at ht
  · rintro s rfl
    exact life_reaches_dispatch io hlife

/-- Power is lost on a device that has been told to wait, and its start goes on
with a `connect` that fails. -/
theorem device_recovers_blocked :
    ∃ h' t, (∀ e ∈ h', Helps ⟨.other (-1), .none⟩ e) ∧
      ((device .blocked plainBuild).life (some meshIfaceCtrlBlock.toBytes)).run
        (plainStart ++ [.event (.app plainRegistration)] ++ appLife h') = some (.running t) ∧
      t.main = .dispatchForever := by
  obtain ⟨s, hlife⟩ : ∃ s, ((device .blocked plainBuild).life (some meshIfaceCtrlBlock.toBytes)).run
      (plainStart ++ [.event (.app plainRegistration)]) = some (.running s) := ⟨_, rfl⟩
  exact (device_recovers .blocked plainBuild ⟨.other (-1), .none⟩ hlife).2 s rfl

end PelionBorderRouter
