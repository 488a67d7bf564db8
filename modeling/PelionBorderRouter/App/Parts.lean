import PelionBorderRouter.App
import PelionBorderRouter.ControlValue.Buffer

/-!
# PelionBorderRouter.App.Parts

The application contains the mesh interface control and the DNS module.
Each of them only ever does what the machine of its own module does, so what
holds of all runs of `controlMachine` and `dnsMachine` holds inside the
application.
-/

namespace PelionBorderRouter

variable {cfg : Config} {boot : Boot}

/-- What an event is to the mesh interface control. -/
def AppEvent.controlEvent? : AppEvent → Option ControlEvent
  | .putControl payload io => some (.put payload io)
  | _ => none

/-- The event writes nothing behind `mesh_iface_control_value`.  A PUT of exactly
16 characters leaves its NUL there, in a variable that depends on the build and
can be one a GET of 33455/0/14 is served from; the model has no such variable. -/
def StoresInside (e : AppEvent) : Prop := ∀ ce, e.controlEvent? = some ce → NotBufferSized ce

/-- The control sees the PUTs and nothing else. -/
theorem control_step {s s' : App} {e : AppEvent} (hstep : AppStep cfg s e s') :
    s'.control = e.controlEvent?.elim s.control (s.control.next cfg) := by
  cases hstep <;> rfl

/-- The control of the application, after a boot from the record of a
device's life so far, goes on with that life: the boot, and the PUTs of the
run. -/
theorem control_run {first : BootIo} {life : List ControlEvent} {c : MeshControl}
    (hlife : (controlMachine cfg first).run life = some c) (hrecord : boot.record = c.record)
    {h : List AppEvent} {s : App} (hrun : (app cfg boot).run h = some s) :
    (controlMachine cfg first).run (life ++ .boot boot.io :: h.filterMap AppEvent.controlEvent?) =
      some s.control := by
  refine (app cfg boot).invariant (R := fun h s => (controlMachine cfg first).run
    (life ++ .boot boot.io :: h.filterMap AppEvent.controlEvent?) = some s.control) ?_ ?_ hrun
  · have hboot : (app cfg boot).start.control = c.next cfg (.boot boot.io) := by
      show readDefaultMeshIfaceControl cfg boot.io boot.record = _
      rw [hrecord]
      rfl
    rw [List.filterMap_nil, Machine.run_concat, hlife, hboot]
    rfl
  · intro pre s e s' _ ih hstep
    have hcontrol : s'.control = e.controlEvent?.elim s.control (s.control.next cfg) :=
      control_step (appStep_of_step hstep)
    rw [List.filterMap_append, ← List.cons_append, ← List.append_assoc, Machine.run_append, ih,
      hcontrol]
    cases hevent : e.controlEvent? with
    | none => simp [hevent]
    | some ce => simp [hevent, controlMachine, Machine.ofTotal]

/-- A GET of 33455/0/13 finds the end of its string inside the buffer, as
long as no PUT has had the buffer's size. -/
theorem isSome_appResReadCb_control {first : BootIo} {life : List ControlEvent} {c : MeshControl}
    (hlife : (controlMachine cfg first).run life = some c) (hrecord : boot.record = c.record)
    {h : List AppEvent} {s : App} (hrun : (app cfg boot).run h = some s)
    (hsize : ∀ e ∈ life, NotBufferSized e)
    (hinside : ∀ e ∈ h, StoresInside e) :
    (appResReadCb s .meshIfaceControl).isSome := by
  have hall : ∀ e ∈ life ++ .boot boot.io :: h.filterMap AppEvent.controlEvent?,
      NotBufferSized e := by
    intro e he
    cases List.mem_append.mp he with
    | inl hold => exact hsize e hold
    | inr hnew =>
        cases List.mem_cons.mp hnew with
        | inl hboot => exact hboot ▸ trivial
        | inr hput =>
            obtain ⟨a, ha, hevent⟩ := List.mem_filterMap.mp hput
            exact hinside a ha e hevent
  have hlast := holds_lastByteZero cfg first hall _ _ (List.prefix_refl _)
    (control_run hlife hrecord hrun)
  exact (isSome_cstr?_iff s.control).mpr hlast.terminated

/-- The DNS module of the application is in a state the module reaches on
its own. -/
theorem dns_run {h : List AppEvent} {s : App} (hrun : (app cfg boot).run h = some s) :
    ∃ d, dnsMachine.run d = some s.dns := by
  refine Machine.exists_run_of_part (f := App.dns) rfl ?_ hrun
  intro s e s' hstep
  have happ : AppStep cfg s e s' := appStep_of_step hstep
  cases happ with
  | @registeredUp io hup =>
      exact ⟨[.configure wsBorderRouter s.backhaulInterface io.configure,
        .querySet io.resolverAccepts], rfl⟩
  | @querySet id resolverAccepts q queue hq hcb => exact ⟨[.querySet resolverAccepts], rfl⟩
  | @dnsAnswer q result address dns hdns =>
      refine ⟨[.answer q result address], ?_⟩
      simp [dnsMachine, DnsSystem.step, hdns]
  | _ => exact ⟨[], rfl⟩

end PelionBorderRouter
