import PelionBorderRouter.ControlValue.Persist
import PelionBorderRouter.Device

/-!
# PelionBorderRouter.Device.Life

The mesh interface control over whole lives of a device.

`device_control_run` connects the two levels: the control of a running
device is in the state in which `controlMachine` is after the boots and the
PUTs of its life so far, wherever power was lost in between.  So the
results about that machine hold on the device: a GET yields the register
(`device_register_iff`), and a `BLOCK` in the record holds the start of the
mesh back over any number of restarts (`device_stays_blocked`).
-/

namespace PelionBorderRouter

variable {cfg : Config} {build : MainBuild} {record : Option (List UInt8)}

/-! ## boots and PUTs -/

/-- What a call of the start is to the mesh interface control. -/
def StartupEvent.controlEvent? : StartupEvent → Option ControlEvent
  | .readDefaultMeshIfaceControl io => some (.boot io)
  | _ => none

/-- What an event of a device's life is to the mesh interface control. -/
def controlEvent? : Restart DeviceEvent → Option ControlEvent
  | .powerCycle => none
  | .event (.startup e) => e.controlEvent?
  | .event (.app e) => e.controlEvent?

/-- The boots and PUTs of a device's life. -/
def controlEvents (h : List (Restart DeviceEvent)) : List ControlEvent :=
  h.filterMap controlEvent?

/-- `mesh_iface_control_value` has been read since power came. -/
def Device.HasRead : Device → Prop
  | .starting s => .readDefaultMeshIfaceControl ∉ s.todo
  | .running _ => True

@[simp] theorem Device.control_ofStartup (s : Startup) :
    (Device.ofStartup cfg s).control = s.control := by
  unfold Device.ofStartup
  split <;> rfl

theorem Device.hasRead_ofStartup {s : Startup} (h : (Device.ofStartup cfg s).HasRead) :
    .readDefaultMeshIfaceControl ∉ s.todo := by
  unfold Device.ofStartup at h
  split at h
  · next hnil _ => simp [hnil]
  · exact h

/-- A call of the start reads the control, or leaves it alone. -/
theorem startup_control_step {s s' : Startup} {e : StartupEvent}
    (h : s.step cfg build e = some s') :
    s'.control = e.controlEvent?.elim s.control (s.control.next cfg) := by
  obtain ⟨_, statement, rest, _, hcall⟩ := step_eq_some h
  cases call_cases hcall with
  | inl hbackhaul =>
      obtain ⟨c, _, rfl, hstep⟩ := hbackhaul
      obtain rfl | rfl | ⟨b, rfl⟩ := backhaulStep_eq_some hstep <;> rfl
  | inr hother =>
      obtain ⟨_, _, hfails | hwell⟩ := hother
      · obtain ⟨he, rfl⟩ := hfails
        cases e with
        | readDefaultMeshIfaceControl io => exact he.elim
        | _ => rfl
      · obtain ⟨_, _, rfl⟩ := hwell
        cases e <;> rfl

/-- The control counts as read once its call has been made. -/
theorem startup_read_step {s s' : Startup} {e : StartupEvent} (h : s.step cfg build e = some s')
    (hread : .readDefaultMeshIfaceControl ∉ s'.todo) :
    .readDefaultMeshIfaceControl ∉ s.todo ∨ ∃ io, e = .readDefaultMeshIfaceControl io := by
  obtain ⟨_, statement, rest, htodo, hcall⟩ := step_eq_some h
  -- the statements still to be done are the same, or the one of the call is done
  have htail : s'.todo = s.todo ∨ s'.todo = s.todo.tail ∧ e.statement = statement := by
    cases call_cases hcall with
    | inl hbackhaul =>
        obtain ⟨c, rfl, rfl, hstep⟩ := hbackhaul
        obtain rfl | rfl | ⟨b, rfl⟩ := backhaulStep_eq_some hstep
        · exact Or.inl rfl
        · exact Or.inr ⟨rfl, rfl⟩
        · exact Or.inl rfl
    | inr hother =>
        obtain ⟨_, hown, hfails | hwell⟩ := hother
        · exact Or.inl (by rw [hfails.2]; rfl)
        · refine Or.inr ⟨?_, hown⟩
          rw [hwell.2.2, (storeGlobals_eq cfg s.done e).1, Startup.todo_done]
  cases htail with
  | inl hsame => exact Or.inl (hsame ▸ hread)
  | inr htail =>
      obtain ⟨htail, hown⟩ := htail
      by_cases hio : ∃ io, e = .readDefaultMeshIfaceControl io
      · exact Or.inr hio
      · refine Or.inl fun hmem => hread ?_
        rw [htail, htodo]
        refine mem_todo_of_ne htodo hmem ?_
        rintro rfl
        cases e with
        | readDefaultMeshIfaceControl io => exact hio ⟨io, rfl⟩
        | _ => exact absurd hown (by simp [StartupEvent.statement])

/-! ## the control of a life -/

/-- The device is where `controlMachine` is after the boots and PUTs: its
record all the time, its buffer once it has been read. -/
def ControlTraced (cfg : Config) (cs : List ControlEvent) (d : Device) : Prop :=
  cs = [] ∧ d.control.record = none ∧ ¬ d.HasRead ∨
    ∃ io rest c, cs = .boot io :: rest ∧ (controlMachine cfg io).run rest = some c ∧
      d.control.record = c.record ∧ (d.HasRead → d.control = c)

/-- An event that is nothing to the control. -/
theorem ControlTraced.of_eq {cs : List ControlEvent} {d d' : Device} (hd : ControlTraced cfg cs d)
    (hcontrol : d'.control = d.control) (hread : d'.HasRead → d.HasRead) :
    ControlTraced cfg cs d' := by
  cases hd with
  | inl hfresh =>
      exact Or.inl ⟨hfresh.1, (congrArg _ hcontrol).trans hfresh.2.1,
        fun h => hfresh.2.2 (hread h)⟩
  | inr hbooted =>
      obtain ⟨io, rest, c, hcs, hrun, hrecord, hvalue⟩ := hbooted
      exact Or.inr ⟨io, rest, c, hcs, hrun, (congrArg _ hcontrol).trans hrecord,
        fun h => hcontrol.trans (hvalue (hread h))⟩

/-- A boot, which finds the record alone. -/
theorem ControlTraced.boot {cs : List ControlEvent} {d d' : Device} {io : BootIo}
    (hd : ControlTraced cfg cs d)
    (hcontrol : d'.control = readDefaultMeshIfaceControl cfg io d.control.record) :
    ControlTraced cfg (cs ++ [.boot io]) d' := by
  cases hd with
  | inl hfresh =>
      obtain ⟨rfl, hrecord, _⟩ := hfresh
      rw [hrecord] at hcontrol
      exact Or.inr ⟨io, [], _, rfl, rfl, congrArg _ hcontrol, fun _ => hcontrol⟩
  | inr hbooted =>
      obtain ⟨first, rest, c, rfl, hrun, hrecord, _⟩ := hbooted
      rw [hrecord] at hcontrol
      refine Or.inr ⟨first, rest ++ [.boot io], _, rfl, ?_, congrArg _ hcontrol, fun _ => hcontrol⟩
      rw [Machine.run_concat, hrun]
      rfl

/-- A PUT, which a running device serves. -/
theorem ControlTraced.put {cs : List ControlEvent} {d d' : Device} {payload : Option CStr}
    {io : PutIo} (hd : ControlTraced cfg cs d) (hread : d.HasRead)
    (hcontrol : d'.control = d.control.update payload io) :
    ControlTraced cfg (cs ++ [.put payload io]) d' := by
  cases hd with
  | inl hfresh => exact absurd hread hfresh.2.2
  | inr hbooted =>
      obtain ⟨first, rest, c, rfl, hrun, _, hvalue⟩ := hbooted
      rw [hvalue hread] at hcontrol
      refine Or.inr ⟨first, rest ++ [.put payload io], _, rfl, ?_, congrArg _ hcontrol,
        fun _ => hcontrol⟩
      rw [Machine.run_concat, hrun]
      rfl

theorem controlTraced_step {cs : List ControlEvent} {d d' : Device} {e : DeviceEvent}
    (hd : ControlTraced cfg cs d) (hstep : d.step cfg build e = some d') :
    ControlTraced cfg (cs ++ (controlEvent? (.event e)).toList) d' := by
  cases d with
  | starting s =>
      cases e with
      | app e => simp [Device.step] at hstep
      | startup e =>
          obtain ⟨s', hs', rfl⟩ := Option.map_eq_some_iff.mp hstep
          have hcontrol := startup_control_step hs'
          have hread := startup_read_step hs'
          cases e with
          | readDefaultMeshIfaceControl io =>
              exact hd.boot ((Device.control_ofStartup s').trans hcontrol)
          | _ =>
              rw [show controlEvent? (.event _) = none from rfl, Option.toList_none,
                List.append_nil]
              refine hd.of_eq ((Device.control_ofStartup s').trans hcontrol) fun h => ?_
              exact (hread (Device.hasRead_ofStartup h)).resolve_right (by simp)
  | running s =>
      cases e with
      | startup e => simp [Device.step] at hstep
      | app e =>
          obtain ⟨s', hs', rfl⟩ := Option.map_eq_some_iff.mp hstep
          have hcontrol := control_step (appStep_of_step hs')
          cases e with
          | putControl payload io => exact hd.put trivial hcontrol
          | _ =>
              rw [show controlEvent? (.event _) = none from rfl, Option.toList_none,
                List.append_nil]
              exact hd.of_eq hcontrol fun _ => trivial

/-- At every moment of the life of a device that left the factory without a
record, its control is traced. -/
theorem controlTraced {h : List (Restart DeviceEvent)} {d : Device}
    (hrun : ((device cfg build).life none).run h = some d) :
    ControlTraced cfg (controlEvents h) d := by
  have hmem : .readDefaultMeshIfaceControl ∈ mainStatements build := by simp [mainStatements]
  refine ((device cfg build).life none).invariant
    (R := fun h d => ControlTraced cfg (controlEvents h) d) ?_ ?_ hrun
  · exact Or.inl ⟨rfl, rfl, fun hnot => hnot hmem⟩
  · intro h d e d' _ ih hstep
    rw [controlEvents, List.filterMap_append, ← controlEvents]
    cases e with
    | powerCycle =>
        obtain rfl := Option.some.inj hstep
        rw [show List.filterMap controlEvent? [.powerCycle] = [] from rfl, List.append_nil]
        cases ih with
        | inl hfresh => exact Or.inl ⟨hfresh.1, hfresh.2.1, fun hnot => hnot hmem⟩
        | inr hbooted =>
            obtain ⟨io, rest, c, hcs, hrun, hrecord, _⟩ := hbooted
            exact Or.inr ⟨io, rest, c, hcs, hrun, hrecord, fun hnot => absurd hmem hnot⟩
    | event e =>
        have htraced := controlTraced_step ih hstep
        rwa [show List.filterMap controlEvent? [.event e] = (controlEvent? (.event e)).toList by
          cases hce : controlEvent? (.event e) <;> simp [hce]]

/-- **One control**: on a running device the control is in the state of
`controlMachine` after the boots and the PUTs of its life, the first of
which is a boot. -/
theorem device_control_run {h : List (Restart DeviceEvent)} {s : App}
    (hrun : ((device cfg build).life none).run h = some (.running s)) :
    ∃ io rest, controlEvents h = .boot io :: rest ∧
      (controlMachine cfg io).run rest = some s.control := by
  cases controlTraced hrun with
  | inl hfresh => exact absurd trivial hfresh.2.2
  | inr hbooted =>
      obtain ⟨io, rest, c, hcs, hcontrol, _, hvalue⟩ := hbooted
      exact ⟨io, rest, hcs, by rw [hcontrol, ← hvalue trivial]; rfl⟩

/-! ## the register of a device -/

/-- No PUT has a payload of the buffer's size. -/
def NoBufferSizedPut (cfg : Config) (build : MainBuild) (record : Option (List UInt8))
    (h : List (Restart DeviceEvent)) : Prop :=
  ((device cfg build).life record).Always (fun _ _ e => ∀ cval io,
    e = .event (.app (.putControl (some cval) io)) → cval.strlen ≠ meshIfaceCtrlValMaxSize) h

/-- What an event of a run is to the control, the run has dealt with. -/
theorem notBufferSized_of_always {h pre : List (Restart DeviceEvent)} {d : Device}
    (hsize : NoBufferSizedPut cfg build record h)
    (hp : pre <+: h) (hrun : ((device cfg build).life record).run pre = some d) :
    ∀ ce ∈ controlEvents pre, NotBufferSized ce := by
  intro ce hce
  obtain ⟨e, he, hevent⟩ := List.mem_filterMap.mp hce
  obtain ⟨before, after, rfl⟩ := List.append_of_mem he
  have hbefore : before ++ [e] <+: before ++ e :: after := ⟨after, by simp⟩
  obtain ⟨t, t', htakes⟩ := Machine.exists_takes_of_prefix hrun hbefore
  have hput := hsize before t e t' (htakes.mono hp)
  cases ce with
  | boot io => trivial
  | put payload io =>
      cases payload with
      | none => trivial
      | some cval =>
          cases e with
          | powerCycle => simp [controlEvent?] at hevent
          | event e =>
              cases e with
              | startup e => cases e <;> simp [controlEvent?, StartupEvent.controlEvent?] at hevent
              | app e =>
                  cases e with
                  | putControl payload' io' =>
                      obtain ⟨rfl, rfl⟩ : payload' = some cval ∧ io' = io := by
                        simpa [controlEvent?, AppEvent.controlEvent?] using hevent
                      exact hput cval io' rfl
                  | _ => simp [controlEvent?, AppEvent.controlEvent?] at hevent

/-- **The register of a device**: with a KVStore that does not fail, a GET of
33455/0/13 yields at every moment the last payload PUT in the whole life of
the device, cut to 15 characters, or the compiled default, wherever power was
lost since, exactly when no payload has the buffer's size. -/
theorem device_register_iff (cfg : Config) (build : MainBuild) (h : List (Restart DeviceEvent))
    (hkv : ∀ ce ∈ controlEvents h, KvHealthy ce) :
    ((device cfg build).life none).Holds (fun pre d => ∀ s, d = .running s →
        appResReadCb s .meshIfaceControl = some (registerValue cfg (controlEvents pre))) h ↔
      NoBufferSizedPut cfg build none h := by
  constructor
  · rintro hholds pre d e d' htakes cval io rfl hlen
    cases d with
    | starting s =>
        exact absurd htakes.2.2
          (by simp [Restartable.life, Restartable.lifeStep, device, Device.step])
    | running s =>
        have hstep : (App.step cfg s (.putControl (some cval) io)).map Device.running = some d' :=
          htakes.2.2
        obtain ⟨s', hs', rfl⟩ := Option.map_eq_some_iff.mp hstep
        have hafter := hholds _ _ htakes.1 htakes.run_eq s' rfl
        have hcontrol : s'.control = s.control.update (some cval) io :=
          control_step (appStep_of_step hs')
        rw [appResReadCb, hcontrol, cstr?_update_of_eq s.control io hlen] at hafter
        exact absurd hafter (by simp)
  · rintro hsize pre d hp hrun s rfl
    obtain ⟨io, rest, hcs, hcontrol⟩ := device_control_run hrun
    have hnot := notBufferSized_of_always hsize hp hrun
    have hhealthy : ∀ ce ∈ controlEvents pre, KvHealthy ce := by
      intro ce hce
      exact hkv ce ((hp.filterMap controlEvent?).subset hce)
    rw [hcs] at hnot hhealthy ⊢
    obtain ⟨hboot, hrest⟩ := List.forall_mem_cons.mp hhealthy
    exact (holds_holdsValue cfg hboot hrest (List.forall_mem_cons.mp hnot).2 rest s.control
      (List.prefix_refl _) hcontrol).value

/-- A build with neither network manager nor developer mode. -/
def plainBuild : MainBuild := ⟨false, ⟨false, false, false, false⟩⟩

/-- A start of that build in which every call goes well. -/
def plainStart : List (Restart DeviceEvent) :=
  [.mbedTraceInit 0, .kvInitStorageConfig 0, .backhaulInterface (some 1), .meshInterface (some 2),
    .backhaul (.connect .ok), .backhaul (.getIpAddress .ok), .pdmcInit fun _ _ => .success,
    .readDefaultMeshIfaceControl ⟨false, false⟩, .pdmcCreateResource fun _ => true,
    .addObjects].map fun e => .event (.startup e)

/-- `BLOCK` is PUT, power is lost, and the device starts again. -/
theorem device_register_block :
    ((device .shipped plainBuild).life none).Holds (fun pre d => ∀ s, d = .running s →
        appResReadCb s .meshIfaceControl = some (registerValue .shipped (controlEvents pre)))
      (plainStart ++ [.event (.app putBlock), .powerCycle] ++ plainStart) := by
  have hevents : controlEvents (plainStart ++ [.event (.app putBlock), .powerCycle] ++ plainStart) =
      [.boot ⟨false, false⟩, .put (some meshIfaceCtrlBlock) ⟨fun _ => 0, false⟩,
        .boot ⟨false, false⟩] := rfl
  refine (device_register_iff .shipped plainBuild _ ?_).mpr ?_
  · rw [hevents]
    simp [KvHealthy]
  · intro pre d e d' htakes cval io he
    have hmem : ControlEvent.put (some cval) io ∈ controlEvents
        (plainStart ++ [.event (.app putBlock), .powerCycle] ++ plainStart) :=
      List.mem_filterMap.mpr ⟨e, htakes.mem, by rw [he]; rfl⟩
    rw [hevents] at hmem
    obtain ⟨rfl, rfl⟩ : cval = meshIfaceCtrlBlock ∧ io = ⟨fun _ => 0, false⟩ := by
      simpa using hmem
    decide

/-! ## a device that waits -/

/-- The record begins with `BLOCK`. -/
def RecordBlocks (record : Option (List UInt8)) : Prop :=
  ∃ r, record = some r ∧ meshIfaceCtrlBlock.chars <+: r

/-- A boot that reads the record, a PUT of a value that begins with `BLOCK`, or
nothing to the control. -/
def KeepsBlock : DeviceEvent → Prop
  | .startup (.readDefaultMeshIfaceControl io) => io.kvGetFails = false
  | .app (.putControl (some cval) _) => meshIfaceCtrlBlock.chars <+: cval.chars
  | _ => True

theorem blocked_boot {io : BootIo} (hget : io.kvGetFails = false) (hrecord : RecordBlocks record) :
    RecordBlocks (readDefaultMeshIfaceControl cfg io record).record ∧
      BeginsWithBlock (readDefaultMeshIfaceControl cfg io record).value := by
  obtain ⟨r, rfl, hr⟩ := hrecord
  have htake : meshIfaceCtrlBlock.chars <+: r.take meshIfaceCtrlValMaxSize :=
    List.prefix_take_iff.mpr ⟨hr, by decide⟩
  rw [boot_of_read cfg hget]
  refine ⟨?_, CharBuf.prefix_store _ htake (by decide)⟩
  cases io.kvSetFails with
  | true => exact ⟨r, rfl, hr⟩
  | false => exact ⟨_, rfl, htake⟩

theorem recordBlocks_update {c : MeshControl} {cval : CStr} {io : PutIo}
    (hc : RecordBlocks c.record) (h : meshIfaceCtrlBlock.chars <+: cval.chars) :
    RecordBlocks (c.update (some cval) io).record := by
  cases hset : io.kvSetFails with
  | true => rwa [record_update_of_fails c hset]
  | false =>
      by_cases hlt : cval.strlen < meshIfaceCtrlValMaxSize
      · exact ⟨_, record_update_of_lt c hset hlt, h.trans (List.prefix_append _ _)⟩
      · obtain ⟨r, hr, _, htake⟩ := record_update_of_ge c hset (Nat.not_lt.mp hlt)
        have hvalue : meshIfaceCtrlBlock.chars <+: r.take meshIfaceCtrlValMaxSize := by
          rw [htake]
          exact beginsWithBlock_update c io h
        exact ⟨r, hr, hvalue.trans (List.take_prefix _ _)⟩

/-- A run from a blocked boot with PUTs of `BLOCK` leaves a blocked record. -/
theorem recordBlocks_of_puts {boot : Boot} {h : List AppEvent} {s : App}
    (hboot : RecordBlocks (App.boot cfg boot).control.record)
    (hputs : ∀ e ∈ h, KeepsBlock (.app e)) (hrun : (app cfg boot).run h = some s) :
    RecordBlocks s.control.record := by
  have halways : (app cfg boot).Always (fun _ _ e => KeepsBlock (.app e)) h :=
    fun _ _ _ _ ht => hputs _ ht.mem
  refine Machine.holds_of_always (R := fun _ s => RecordBlocks s.control.record) hboot ?_ halways
    h s (List.prefix_refl h) hrun
  intro pre s e s' _ hs he hstep
  rw [control_step (appStep_of_step hstep)]
  cases e with
  | putControl payload io =>
      cases payload with
      | none => exact hs
      | some cval => exact recordBlocks_update hs he
  | _ => exact hs

/-- What such a session leaves in the store. -/
theorem recordBlocks_of_session {h : List DeviceEvent} {d : Device} (hrecord : RecordBlocks record)
    (hkeeps : ∀ e ∈ h, KeepsBlock e)
    (hrun : ((device cfg build).session record).run h = some d) :
    RecordBlocks d.control.record := by
  cases session_cases hrun with
  | inl hstarting =>
      obtain ⟨s, pre, rfl, _, rfl, hpre⟩ := hstarting
      cases (startup_invariant hpre).2.control with
      | inl hunread =>
          show RecordBlocks s.control.record
          rwa [hunread.2]
      | inr hread =>
          obtain ⟨_, io, hmem, hcontrol⟩ := hread
          have hget : io.kvGetFails = false := hkeeps _ (List.mem_map_of_mem hmem)
          show RecordBlocks s.control.record
          rw [hcontrol]
          exact (blocked_boot hget hrecord).1
  | inr hrunning =>
      obtain ⟨s, pre, boot, h', rfl, hboot, rfl, happ⟩ := hrunning
      have hget : boot.io.kvGetFails = false :=
        hkeeps _ (List.mem_append_left _ (List.mem_map_of_mem hboot.io))
      refine recordBlocks_of_puts ?_ (fun e he => ?_) happ
      · exact (blocked_boot hget (hboot.record ▸ hrecord)).1
      · exact hkeeps _ (List.mem_append_right _ (List.mem_map_of_mem he))

/-- With `BLOCK` all the time only a start timeout leads into
`mesh_connect`. -/
theorem startTimeoutExpires_of_puts {boot : Boot} {h : List AppEvent} {s : App}
    (hrun : (app cfg boot).run h = some s)
    (hvalue : (app cfg boot).Holds (fun _ s => BeginsWithBlock s.control.value) h)
    (hpassed : s.main.PassedAcquire) :
    cfg.meshIfaceStartMaxWait ≠ 0 ∧ (app cfg boot).Occurs (StartTimeoutExpires cfg boot) h := by
  obtain ⟨pre, t, e, t', htakes, hj⟩ := (gateOpen_iff hrun).mp (Or.inl hpassed)
  have hpre : pre <+: h := (List.prefix_append pre [e]).trans htakes.1
  cases e with
  | main io => exact hj.elim
  | clientRegistered io => exact absurd (hvalue pre t hpre htakes.2.1) hj.2
  | putControl payload io =>
      cases payload with
      | none => exact hj.elim
      | some cval =>
          have hstep : App.step cfg t (.putControl (some cval) io) = some t' := htakes.2.2
          have hafter : BeginsWithBlock t'.control.value := hvalue _ t' htakes.1 htakes.run_eq
          rw [control_step (appStep_of_step hstep)] at hafter
          exact absurd hafter hj.2
  | dispatch id resolverAccepts =>
      have hexpires : StartTimeoutExpires cfg boot pre t (.dispatch id resolverAccepts) := hj
      obtain ⟨_, _, f, _, _, hqueues⟩ := hj
      cases f with
      | clientRegistered io => exact ⟨hqueues.2.2.1, pre, t, _, t', htakes, hexpires⟩
      | _ => exact hqueues.elim
  | meshStatus event ipAddress => exact hj.elim
  | dnsAnswer q result address => exact hj.elim

/-- **A device that waits**: when the record begins with `BLOCK`, every boot
can read it, and every PUT is of a value that begins with `BLOCK`, then over
any number of restarts the value of a running device begins with `BLOCK`, and
`main` enters `mesh_connect` only after a start timeout of the same session,
which needs one to be configured. -/
theorem device_stays_blocked (cfg : Config) (build : MainBuild) {record : Option (List UInt8)}
    {h : List (Restart DeviceEvent)} {s : App} (hrecord : RecordBlocks record)
    (hkeeps : ∀ e, Restart.event e ∈ h → KeepsBlock e)
    (hrun : ((device cfg build).life record).run h = some (.running s)) :
    BeginsWithBlock s.control.value ∧
      (s.main.PassedAcquire → cfg.meshIfaceStartMaxWait ≠ 0 ∧
        ∃ boot h', h'.map (fun e => Restart.event (.app e)) <:+ h ∧
          (app cfg boot).run h' = some s ∧
          (app cfg boot).Occurs (StartTimeoutExpires cfg boot) h') := by
  obtain ⟨q, session, hq, hkeeps', hsuffix, hsession⟩ :=
    Restartable.exists_session_of_kept (C := KeepsBlock) (J := RecordBlocks) hrecord
      (fun q h d hq hC hrun => recordBlocks_of_session hq hC hrun) hkeeps hrun
  obtain ⟨pre, boot, h', hboot, rfl, happ⟩ :=
    (session_running_iff cfg build q session s).mp hsession
  have hget : boot.io.kvGetFails = false :=
    hkeeps' _ (List.mem_append_left _ (List.mem_map_of_mem hboot.io))
  have hvalue : (app cfg boot).Holds (fun _ s => BeginsWithBlock s.control.value) h' :=
    beginsWithBlock_of_puts (blocked_boot hget (hboot.record ▸ hq)).2 fun cval io hmem =>
      hkeeps' _ (List.mem_append_right _ (List.mem_map_of_mem hmem))
  refine ⟨hvalue h' s (List.prefix_refl _) happ, fun hpassed => ?_⟩
  obtain ⟨hwait, hexpires⟩ := startTimeoutExpires_of_puts happ hvalue hpassed
  refine ⟨hwait, boot, h', List.IsSuffix.trans ?_ hsuffix, happ, hexpires⟩
  rw [List.map_append, List.map_map, List.map_map]
  exact List.suffix_append _ _

/-- A device that has been told to wait loses power and is registered. -/
theorem device_stays_blocked_restart :
    ∃ s, ((device .blocked plainBuild).life (some meshIfaceCtrlBlock.toBytes)).run
        (plainStart ++ [.powerCycle] ++ plainStart ++ [.event (.app plainRegistration)]) =
          some (.running s) ∧ BeginsWithBlock s.control.value := by
  refine ⟨_, rfl, (device_stays_blocked .blocked plainBuild
    (h := plainStart ++ [.powerCycle] ++ plainStart ++ [.event (.app plainRegistration)])
    ⟨_, rfl, by decide⟩ ?_ rfl).1⟩
  simp [plainStart, KeepsBlock, plainRegistration]

end PelionBorderRouter
