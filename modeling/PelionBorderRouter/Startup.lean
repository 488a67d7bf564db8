import Mathlib.Data.List.Forall2
import PelionBorderRouter.App
import PelionBorderRouter.Backhaul
import PelionBorderRouter.Pdmc
import PelionBorderRouter.Resources

/-!
# PelionBorderRouter.Startup

`main` up to the first `cloud_client->setup`: straight-line code in which
every statement that fails makes `main` return `-1`.

The state keeps the statements still to be done.  Each takes one call, and
`backhaul_connect` as many as its loop makes, so a start can stop for good
or be cut off by a loss of power between any two of them.  Which calls make
up a statement that goes well is `GoesWell`; `startup_in_order` says that
what has happened at any moment is a sequence of such statements, in the
order of the source, and part of the one at hand.
-/

namespace PelionBorderRouter

/-! ## main -/

/-- What the functions of the network manager return: `NM_ERROR_NONE`, or
another error. -/
inductive NmError where
  | none
  | other (code : Int)
deriving DecidableEq, Repr

/-- The macros `main` is compiled with.  `MBED_CONF_APP_MESH_IFACE_START_CONTROL`,
which `mbed_app.json` sets, is one of them in all builds that are looked at. -/
structure MainBuild where
  /-- `MBED_CONF_MBED_CLOUD_CLIENT_NETWORK_MANAGER == 1` -/
  networkManager : Bool
  pdmc : PdmcBuild
deriving DecidableEq, Repr

/-- The statements of `main` before `cloud_client->setup`. -/
inductive MainStatement where
  | mbedTraceInit
  | kvInitStorageConfig
  | backhaulInterface
  | meshInterface
  | configureFactoryMacAddress
  | backhaulConnect
  | pdmcInit
  | regAndConfigIface
  | readDefaultMeshIfaceControl
  | pdmcCreateResource
  | createResource
  | addObjects
deriving DecidableEq, Repr

/-- The statements a build has, in order. -/
def mainStatements (build : MainBuild) : List MainStatement :=
  [.mbedTraceInit, .kvInitStorageConfig, .backhaulInterface, .meshInterface] ++
    (if build.networkManager then [.configureFactoryMacAddress] else []) ++
    [.backhaulConnect, .pdmcInit] ++
    (if build.networkManager then [.regAndConfigIface] else []) ++
    [.readDefaultMeshIfaceControl, .pdmcCreateResource] ++
    (if build.networkManager then [.createResource] else []) ++ [.addObjects]

/-- A call `main` makes, with what it returns. -/
inductive StartupEvent where
  | mbedTraceInit (status : Int)
  | kvInitStorageConfig (status : Int)
  | backhaulInterface (iface : Option Handle)
  | meshInterface (iface : Option Handle)
  | configureFactoryMacAddress (error : NmError)
  | backhaul (call : BackhaulCall)
  | pdmcInit (io : FccIo)
  | regAndConfigIface (error : NmError)
  | readDefaultMeshIfaceControl (io : BootIo)
  | pdmcCreateResource (io : ResourceIo)
  | createResource
  | addObjects

/-- The globals `main` sets on its way, and where it is: the statements still to
be done, and the variables of `backhaul_connect` while that is running. -/
structure Startup where
  todo : List MainStatement
  backhaul : Option Backhaul
  /-- `main` has returned `-1` -/
  terminated : Bool
  backhaulInterface : Option Handle
  meshInterface : Option Handle
  control : MeshControl

namespace Startup

/-- Power on, with `record` in the KVStore. -/
def powerOn (build : MainBuild) (record : Option (List UInt8)) : Startup where
  todo := mainStatements build
  backhaul := none
  terminated := false
  backhaulInterface := none
  meshInterface := none
  control := ⟨CharBuf.zeros meshIfaceCtrlValMaxSize, record⟩

/-- `return -1;` -/
def fail (s : Startup) : Startup := { s with terminated := true }

/-- The statement at hand is done. -/
def done (s : Startup) : Startup := { s with todo := s.todo.tail, backhaul := none }

@[simp] theorem todo_done (s : Startup) : s.done.todo = s.todo.tail := rfl
@[simp] theorem backhaul_done (s : Startup) : s.done.backhaul = none := rfl
@[simp] theorem terminated_done (s : Startup) : s.done.terminated = s.terminated := rfl
@[simp] theorem control_done (s : Startup) : s.done.control = s.control := rfl

@[simp] theorem backhaulInterface_done (s : Startup) :
    s.done.backhaulInterface = s.backhaulInterface := rfl

/-- The variables of `backhaul_connect`, which is entered with its first call. -/
def frame (s : Startup) : Backhaul := s.backhaul.getD (Backhaul.enter s.backhaulInterface)

/-- One call inside `backhaul_connect`. -/
def backhaulStep (s : Startup) (call : BackhaulCall) : Option Startup :=
  match s.frame.step call with
  | none => none
  | some b =>
      match b.pc with
      | .returned .fail => some s.fail
      | .returned .success => some s.done
      | _ => some { s with backhaul := some b }

/-- The call at hand, in a build. -/
def call (cfg : Config) (build : MainBuild) (s : Startup) :
    MainStatement → StartupEvent → Option Startup
  | .mbedTraceInit, .mbedTraceInit status => some (if status ≠ 0 then s.fail else s.done)
  | .kvInitStorageConfig, .kvInitStorageConfig status =>
      some (if status ≠ 0 then s.fail else s.done)
  | .backhaulInterface, .backhaulInterface iface =>
      some (if iface = none then s.fail else { s.done with backhaulInterface := iface })
  | .meshInterface, .meshInterface iface =>
      some (if iface = none then s.fail else { s.done with meshInterface := iface })
  | .configureFactoryMacAddress, .configureFactoryMacAddress error =>
      some (if error ≠ .none then s.fail else s.done)
  | .backhaulConnect, .backhaul call => s.backhaulStep call
  | .pdmcInit, .pdmcInit io =>
      some (if (pdmcInit build.pdmc io).1 = .fail then s.fail else s.done)
  | .regAndConfigIface, .regAndConfigIface error =>
      some (if error ≠ .none then s.fail else s.done)
  | .readDefaultMeshIfaceControl, .readDefaultMeshIfaceControl io =>
      some { s.done with control := readDefaultMeshIfaceControl cfg io s.control.record }
  | .pdmcCreateResource, .pdmcCreateResource io =>
      -- a call that follows a `NULL` does not come back
      (pdmcCreateResource io).1.map fun status => if status = .fail then s.fail else s.done
  | .createResource, .createResource => some s.done
  | .addObjects, .addObjects => some s.done
  | _, _ => none

/-- What one call does; `none` when `main` does not make it now. -/
def step (cfg : Config) (build : MainBuild) (s : Startup) (e : StartupEvent) : Option Startup :=
  if s.terminated then none
  else
    match s.todo with
    | [] => none
    | statement :: _ => s.call cfg build statement e

end Startup

/-- `main` from power on to `cloud_client->setup`. -/
def startup (cfg : Config) (build : MainBuild) (record : Option (List UInt8)) :
    Machine Startup StartupEvent :=
  ⟨Startup.powerOn build record, Startup.step cfg build⟩

/-! ## statements that go well -/

/-- The call makes `main` return `-1`. -/
def ReturnsError (build : MainBuild) : StartupEvent → Prop
  | .mbedTraceInit status => status ≠ 0
  | .kvInitStorageConfig status => status ≠ 0
  | .backhaulInterface iface => iface = none
  | .meshInterface iface => iface = none
  | .configureFactoryMacAddress error => error ≠ .none
  | .pdmcInit io => (pdmcInit build.pdmc io).1 = .fail
  | .regAndConfigIface error => error ≠ .none
  | .pdmcCreateResource io => (pdmcCreateResource io).1 = some .fail
  | _ => False

/-- The calls that make up a statement that goes well. -/
def GoesWell (build : MainBuild) : MainStatement → List StartupEvent → Prop
  | .mbedTraceInit, calls => calls = [.mbedTraceInit 0]
  | .kvInitStorageConfig, calls => calls = [.kvInitStorageConfig 0]
  | .backhaulInterface, calls => ∃ iface, calls = [.backhaulInterface (some iface)]
  | .meshInterface, calls => ∃ iface, calls = [.meshInterface (some iface)]
  | .configureFactoryMacAddress, calls => calls = [.configureFactoryMacAddress .none]
  | .backhaulConnect, calls => ∃ failed a, AllFail failed ∧ a.Succeeds ∧
      calls = (callsFrom 0 (failed ++ [a])).map .backhaul
  | .pdmcInit, calls => ∃ io, (pdmcInit build.pdmc io).1 = .success ∧ calls = [.pdmcInit io]
  | .regAndConfigIface, calls => calls = [.regAndConfigIface .none]
  | .readDefaultMeshIfaceControl, calls => ∃ io, calls = [.readDefaultMeshIfaceControl io]
  | .pdmcCreateResource, calls => ∃ io, (pdmcCreateResource io).1 = some .success ∧
      calls = [.pdmcCreateResource io]
  | .createResource, calls => calls = [.createResource]
  | .addObjects, calls => calls = [.addObjects]

/-- The statement a call belongs to. -/
def StartupEvent.statement : StartupEvent → MainStatement
  | .mbedTraceInit _ => .mbedTraceInit
  | .kvInitStorageConfig _ => .kvInitStorageConfig
  | .backhaulInterface _ => .backhaulInterface
  | .meshInterface _ => .meshInterface
  | .configureFactoryMacAddress _ => .configureFactoryMacAddress
  | .backhaul _ => .backhaulConnect
  | .pdmcInit _ => .pdmcInit
  | .regAndConfigIface _ => .regAndConfigIface
  | .readDefaultMeshIfaceControl _ => .readDefaultMeshIfaceControl
  | .pdmcCreateResource _ => .pdmcCreateResource
  | .createResource => .createResource
  | .addObjects => .addObjects

/-- What a call leaves in the globals. -/
def storeGlobals (cfg : Config) (s : Startup) : StartupEvent → Startup
  | .backhaulInterface iface => { s with backhaulInterface := iface }
  | .meshInterface iface => { s with meshInterface := iface }
  | .readDefaultMeshIfaceControl io =>
      { s with control := readDefaultMeshIfaceControl cfg io s.control.record }
  | _ => s

theorem AppStatus.eq_success_iff {status : AppStatus} : status = .success ↔ status ≠ .fail := by
  cases status <;> simp

/-- A call belongs to `backhaul_connect`, or it fails and ends `main`, or it is
the whole of a statement that goes well. -/
theorem call_cases {cfg : Config} {build : MainBuild} {s s' : Startup} {statement : MainStatement}
    {e : StartupEvent} (h : s.call cfg build statement e = some s') :
    (∃ c, statement = .backhaulConnect ∧ e = .backhaul c ∧ s.backhaulStep c = some s') ∨
      statement ≠ .backhaulConnect ∧ e.statement = statement ∧
        (ReturnsError build e ∧ s' = s.fail ∨
          ¬ ReturnsError build e ∧ GoesWell build statement [e] ∧
            s' = storeGlobals cfg s.done e) := by
  unfold Startup.call at h
  split at h
  case h_6 => exact Or.inl ⟨_, rfl, rfl, h⟩
  case h_10 io =>
    obtain ⟨status, hstatus, rfl⟩ := Option.map_eq_some_iff.mp h
    refine Or.inr ⟨by simp, rfl, ?_⟩
    cases status with
    | fail => exact Or.inl ⟨hstatus, rfl⟩
    | success => exact Or.inr ⟨by simp [ReturnsError, hstatus], ⟨io, hstatus, rfl⟩, rfl⟩
  case h_13 => contradiction
  all_goals
    obtain rfl := Option.some.inj h
    refine Or.inr ⟨by simp, rfl, ?_⟩
    simp only [ReturnsError, GoesWell, storeGlobals]
    try split
  all_goals simp_all [AppStatus.eq_success_iff, ← Option.ne_none_iff_exists']

theorem storeGlobals_eq (cfg : Config) (s : Startup) (e : StartupEvent) :
    (storeGlobals cfg s e).todo = s.todo ∧ (storeGlobals cfg s e).backhaul = s.backhaul ∧
      (storeGlobals cfg s e).terminated = s.terminated := by
  cases e <;> exact ⟨rfl, rfl, rfl⟩

/-- What one call of `backhaul_connect` leaves. -/
theorem backhaulStep_eq_some {s s' : Startup} {c : BackhaulCall}
    (h : s.backhaulStep c = some s') :
    s' = s.fail ∨ s' = s.done ∨ ∃ b, s' = { s with backhaul := some b } := by
  unfold Startup.backhaulStep at h
  split at h
  · contradiction
  · split at h
    · exact Or.inl (Option.some.inj h).symm
    · exact Or.inr (Or.inl (Option.some.inj h).symm)
    · exact Or.inr (Or.inr ⟨_, (Option.some.inj h).symm⟩)

/-- One call of `backhaul_connect` leaves it running, or returns with success. -/
theorem backhaulStep_cases {s s' : Startup} {iface : Handle} {calls : List BackhaulCall}
    {c : BackhaulCall} (hrun : (backhaulConnect (some iface)).run calls = some s.frame)
    (h : s.backhaulStep c = some s') :
    ∃ b, (backhaulConnect (some iface)).run (calls ++ [c]) = some b ∧
      ((∀ status, b.pc ≠ .returned status) ∧ s' = { s with backhaul := some b } ∨
        b.pc = .returned .success ∧ s' = s.done) := by
  unfold Startup.backhaulStep at h
  cases hstep : s.frame.step c with
  | none => simp [hstep] at h
  | some b =>
      have hrun' : (backhaulConnect (some iface)).run (calls ++ [c]) = some b :=
        (backhaulConnect (some iface)).run_concat_eq_some.mpr ⟨_, hrun, hstep⟩
      have hpc : b.pc ≠ .returned .fail :=
        (holds_disciplined iface _ _ b (List.prefix_refl _) hrun').pc_ne_fail
      refine ⟨b, hrun', ?_⟩
      simp only [hstep] at h
      split at h
      · next hfail => exact absurd hfail hpc
      · next hsuccess => exact Or.inr ⟨hsuccess, (Option.some.inj h).symm⟩
      · next hfail hsuccess =>
          refine Or.inl ⟨fun status => ?_, (Option.some.inj h).symm⟩
          cases status with
          | fail => exact hpc
          | success => exact hsuccess

/-! ## the order of the statements -/

/-- What has been done of the statement at hand: nothing, some calls of
`backhaul_connect`, or its call, which has returned an error. -/
inductive PartDone (build : MainBuild) (s : Startup) : List StartupEvent → Prop where
  | nothing (hb : s.backhaul = none) (hgoes : s.terminated = false) : PartDone build s []
  | backhaul {iface : Handle} {rest : List MainStatement} {calls : List BackhaulCall} {b : Backhaul}
      (htodo : s.todo = .backhaulConnect :: rest) (hiface : s.backhaulInterface = some iface)
      (hb : s.backhaul = some b) (hrun : (backhaulConnect (some iface)).run calls = some b)
      (hgoes : s.terminated = false) : PartDone build s (calls.map .backhaul)
  | failed {e : StartupEvent} {rest : List MainStatement} (he : ReturnsError build e)
      (htodo : s.todo = e.statement :: rest) (hends : s.terminated = true) : PartDone build s [e]

/-- What has happened is, in order, the statements that are not to be done any
more, each gone well, and part of the one at hand. -/
def InOrder (build : MainBuild) (pre : List StartupEvent) (s : Startup) : Prop :=
  ∃ gone blocks part, mainStatements build = gone ++ s.todo ∧
    List.Forall₂ (GoesWell build) gone blocks ∧ pre = blocks.flatten ++ part ∧
    PartDone build s part

/-- Before `backhaul_connect` the interface has been fetched. -/
theorem backhaulInterface_notMem (build : MainBuild) {gone rest : List MainStatement}
    (h : mainStatements build = gone ++ .backhaulConnect :: rest) :
    .backhaulInterface ∉ .backhaulConnect :: rest := by
  have hdrop : ∀ i < (mainStatements build).length,
      (mainStatements build)[i]? = some .backhaulConnect →
        .backhaulInterface ∉ (mainStatements build).drop i := by
    unfold mainStatements
    cases build.networkManager <;> decide
  have hat := hdrop gone.length (by rw [h]; simp) (by rw [h]; simp)
  rwa [h, List.drop_left] at hat

/-- Inside `backhaul_connect` the calls made so far are a run of it. -/
theorem exists_calls_of_partDone {build : MainBuild} {s : Startup} {part : List StartupEvent}
    {iface : Handle} (hpart : PartDone build s part) (hgoes : s.terminated = false)
    (hiface : s.backhaulInterface = some iface) :
    ∃ calls, part = calls.map .backhaul ∧
      (backhaulConnect (some iface)).run calls = some s.frame := by
  unfold Startup.frame
  cases hpart with
  | nothing hb => exact ⟨[], rfl, by rw [hb, hiface]; rfl⟩
  | @backhaul iface' rest' calls b htodo' hiface' hb hrun =>
      obtain rfl : iface = iface' := Option.some.inj (hiface.symm.trans hiface')
      exact ⟨calls, rfl, by rw [hb]; exact hrun⟩
  | failed he htodo' hends => exact absurd (hgoes.symm.trans hends) (by decide)

/-- Elsewhere nothing has been done of the statement at hand. -/
theorem part_eq_nil {build : MainBuild} {s : Startup} {part : List StartupEvent}
    {statement : MainStatement} {rest : List MainStatement} (hpart : PartDone build s part)
    (htodo : s.todo = statement :: rest) (hgoes : s.terminated = false)
    (hne : statement ≠ .backhaulConnect) : part = [] := by
  cases hpart with
  | nothing hb => rfl
  | backhaul htodo' =>
      rw [htodo] at htodo'
      exact absurd (List.cons.inj htodo').1 hne
  | failed he htodo' hends => exact absurd (hgoes.symm.trans hends) (by decide)

/-- Where the globals come from. -/
structure GlobalsTraced (cfg : Config) (record : Option (List UInt8)) (pre : List StartupEvent)
    (s : Startup) : Prop where
  interface : .backhaulInterface ∈ s.todo ∨
    ∃ iface, .backhaulInterface (some iface) ∈ pre ∧ s.backhaulInterface = some iface
  control : .readDefaultMeshIfaceControl ∈ s.todo ∧
      s.control = ⟨CharBuf.zeros meshIfaceCtrlValMaxSize, record⟩ ∨
    .readDefaultMeshIfaceControl ∉ s.todo ∧ ∃ io, .readDefaultMeshIfaceControl io ∈ pre ∧
      s.control = readDefaultMeshIfaceControl cfg io record

variable {cfg : Config} {build : MainBuild} {record : Option (List UInt8)}

theorem step_eq_some {s s' : Startup} {e : StartupEvent} (h : s.step cfg build e = some s') :
    s.terminated = false ∧ ∃ statement rest, s.todo = statement :: rest ∧
      s.call cfg build statement e = some s' := by
  unfold Startup.step at h
  cases hends : s.terminated with
  | true => simp [hends] at h
  | false =>
      simp only [hends, Bool.false_eq_true, if_false] at h
      cases htodo : s.todo with
      | nil => simp [htodo] at h
      | cons statement rest =>
          rw [htodo] at h
          exact ⟨rfl, statement, rest, rfl, h⟩

/-- A statement that is not the one just done is still to be done. -/
theorem mem_todo_of_ne {statement statement' : MainStatement} {todo rest : List MainStatement}
    (htodo : todo = statement :: rest) (hmem : statement' ∈ todo) (hne : statement' ≠ statement) :
    statement' ∈ rest := by
  rw [htodo] at hmem
  exact (List.mem_cons.mp hmem).resolve_left hne

/-- A step that leaves the globals alone, and is of another statement than the
two that set them. -/
theorem GlobalsTraced.of_eq {pre : List StartupEvent} {s s' : Startup} {e : StartupEvent}
    (hg : GlobalsTraced cfg record pre s) (hiface : s'.backhaulInterface = s.backhaulInterface)
    (hcontrol : s'.control = s.control) (hsub : s'.todo ⊆ s.todo)
    (htodo : ∀ statement ∈ s.todo, statement = .backhaulInterface ∨
      statement = .readDefaultMeshIfaceControl → statement ∈ s'.todo) :
    GlobalsTraced cfg record (pre ++ [e]) s' := by
  constructor
  · cases hg.interface with
    | inl hmem => exact Or.inl (htodo _ hmem (Or.inl rfl))
    | inr hset =>
        obtain ⟨iface, hmem, hset⟩ := hset
        exact Or.inr ⟨iface, List.mem_append_left _ hmem, hiface.trans hset⟩
  · cases hg.control with
    | inl hmem => exact Or.inl ⟨htodo _ hmem.1 (Or.inr rfl), hcontrol.trans hmem.2⟩
    | inr hset =>
        obtain ⟨hnot, io, hmem, hset⟩ := hset
        exact Or.inr ⟨fun h => hnot (hsub h), io, List.mem_append_left _ hmem,
          hcontrol.trans hset⟩

theorem globalsTraced_step {pre : List StartupEvent} {s s' : Startup} {e : StartupEvent}
    (hg : GlobalsTraced cfg record pre s) (hnodup : s.todo.Nodup)
    (h : s.step cfg build e = some s') : GlobalsTraced cfg record (pre ++ [e]) s' := by
  obtain ⟨hgoes, statement, rest, htodo, hcall⟩ := step_eq_some h
  cases call_cases hcall with
  | inl hbackhaul =>
      obtain ⟨c, rfl, rfl, hstep⟩ := hbackhaul
      have hkeeps : ∀ statement ∈ s.todo, statement = .backhaulInterface ∨
          statement = .readDefaultMeshIfaceControl → statement ∈ s.done.todo := by
        intro statement' hmem hor
        rw [Startup.todo_done, htodo]
        refine mem_todo_of_ne htodo hmem ?_
        rintro rfl
        simp at hor
      obtain rfl | rfl | ⟨b, rfl⟩ := backhaulStep_eq_some hstep
      · exact hg.of_eq rfl rfl (List.Subset.refl _) fun _ hmem _ => hmem
      · exact hg.of_eq rfl rfl (List.tail_subset _) hkeeps
      · exact hg.of_eq rfl rfl (List.Subset.refl _) fun _ hmem _ => hmem
  | inr hother =>
      obtain ⟨hne, hown, hfails | hwell⟩ := hother
      · obtain ⟨he, rfl⟩ := hfails
        exact hg.of_eq rfl rfl (List.Subset.refl _) fun _ hmem _ => hmem
      · obtain ⟨hnot, hwell, rfl⟩ := hwell
        have hkeeps : ∀ statement' ∈ s.todo, statement' ≠ e.statement →
            statement' ∈ s.done.todo := by
          intro statement' hmem hne'
          rw [Startup.todo_done, htodo]
          exact mem_todo_of_ne htodo hmem (hown ▸ hne')
        cases e with
        | backhaulInterface iface =>
            obtain ⟨iface, rfl⟩ := Option.ne_none_iff_exists'.mp hnot
            refine ⟨Or.inr ⟨iface, by simp, rfl⟩, ?_⟩
            cases hg.control with
            | inl hmem => exact Or.inl ⟨hkeeps _ hmem.1 (by simp [StartupEvent.statement]), hmem.2⟩
            | inr hset =>
                obtain ⟨hnot, io, hmem, hset⟩ := hset
                exact Or.inr ⟨fun h => hnot (List.tail_subset _ h), io,
                  List.mem_append_left _ hmem, hset⟩
        | readDefaultMeshIfaceControl io =>
            obtain rfl : .readDefaultMeshIfaceControl = statement := hown
            have hfirst : s.control = ⟨CharBuf.zeros meshIfaceCtrlValMaxSize, record⟩ :=
              (hg.control.resolve_right fun hset => hset.1 (htodo ▸ List.mem_cons_self)).2
            constructor
            · cases hg.interface with
              | inl hmem => exact Or.inl (hkeeps _ hmem (by simp [StartupEvent.statement]))
              | inr hset =>
                  obtain ⟨iface, hmem, hset⟩ := hset
                  exact Or.inr ⟨iface, List.mem_append_left _ hmem, hset⟩
            · refine Or.inr ⟨?_, io, by simp, ?_⟩
              · rw [htodo] at hnodup
                show _ ∉ s.todo.tail
                rw [htodo]
                exact (List.nodup_cons.mp hnodup).1
              · show readDefaultMeshIfaceControl cfg io s.control.record = _
                rw [hfirst]
        | _ =>
            refine hg.of_eq rfl rfl (List.tail_subset _) fun statement' hmem hor =>
              hkeeps statement' hmem ?_
            rintro rfl
            simp [StartupEvent.statement] at hor

theorem inOrder_step {pre : List StartupEvent} {s s' : Startup} {e : StartupEvent}
    (hs : InOrder build pre s) (hg : GlobalsTraced cfg record pre s)
    (h : s.step cfg build e = some s') : InOrder build (pre ++ [e]) s' := by
  obtain ⟨hgoes, statement, rest, htodo, hcall⟩ := step_eq_some h
  obtain ⟨gone, blocks, part, hmain, hblocks, rfl, hpart⟩ := hs
  have hnext : mainStatements build = (gone ++ [statement]) ++ rest := by
    rw [hmain, htodo, List.append_assoc]
    rfl
  cases call_cases hcall with
  | inl hbackhaul =>
      obtain ⟨c, rfl, rfl, hstep⟩ := hbackhaul
      obtain ⟨iface, _, hiface⟩ := hg.interface.resolve_left
        (htodo ▸ backhaulInterface_notMem build (htodo ▸ hmain))
      obtain ⟨calls, rfl, hrun⟩ := exists_calls_of_partDone hpart hgoes hiface
      obtain ⟨b, hrun', hgoesOn | hreturns⟩ := backhaulStep_cases hrun hstep
      · obtain ⟨_, rfl⟩ := hgoesOn
        refine ⟨gone, blocks, (calls ++ [c]).map .backhaul, hmain, hblocks, by simp, ?_⟩
        exact .backhaul htodo hiface rfl hrun' hgoes
      · obtain ⟨hpc, rfl⟩ := hreturns
        obtain ⟨failed, a, hfail, ha, hcalls⟩ :=
          (holds_disciplined iface _ _ b (List.prefix_refl _) hrun').succeeded hpc
        have hwell : GoesWell build .backhaulConnect ((calls ++ [c]).map .backhaul) :=
          ⟨failed, a, hfail, ha, by rw [hcalls]⟩
        refine ⟨gone ++ [.backhaulConnect], blocks ++ [(calls ++ [c]).map .backhaul], [], ?_,
          List.rel_append hblocks (.cons hwell .nil), by simp, .nothing rfl hgoes⟩
        rw [Startup.todo_done, htodo]
        exact hnext
  | inr hother =>
      obtain ⟨hne, hown, hfails | hwell⟩ := hother
      · obtain ⟨he, rfl⟩ := hfails
        obtain rfl := part_eq_nil hpart htodo hgoes hne
        have htodo' : s.fail.todo = e.statement :: rest := hown ▸ htodo
        exact ⟨gone, blocks, [e], hmain, hblocks, by simp, .failed he htodo' rfl⟩
      · obtain ⟨_, hwell, rfl⟩ := hwell
        obtain rfl := part_eq_nil hpart htodo hgoes hne
        obtain ⟨htodo', hb, hgoes'⟩ := storeGlobals_eq cfg s.done e
        refine ⟨gone ++ [statement], blocks ++ [[e]], [], ?_,
          List.rel_append hblocks (.cons hwell .nil), by simp, .nothing hb (hgoes'.trans hgoes)⟩
        rw [htodo', Startup.todo_done, htodo]
        exact hnext

theorem nodup_mainStatements (build : MainBuild) : (mainStatements build).Nodup := by
  unfold mainStatements
  cases build.networkManager <;> decide

theorem InOrder.nodup_todo {pre : List StartupEvent} {s : Startup} (hs : InOrder build pre s) :
    s.todo.Nodup := by
  obtain ⟨gone, _, _, hmain, _⟩ := hs
  have hnodup := nodup_mainStatements build
  rw [hmain] at hnodup
  exact hnodup.of_append_right

theorem startup_invariant {h : List StartupEvent} {s : Startup}
    (hrun : (startup cfg build record).run h = some s) :
    InOrder build h s ∧ GlobalsTraced cfg record h s := by
  refine (startup cfg build record).invariant
    (R := fun h s => InOrder build h s ∧ GlobalsTraced cfg record h s) ?_ ?_ hrun
  · have hmem : .backhaulInterface ∈ mainStatements build ∧
        .readDefaultMeshIfaceControl ∈ mainStatements build := by simp [mainStatements]
    exact ⟨⟨[], [], [], rfl, .nil, rfl, .nothing rfl rfl⟩, Or.inl hmem.1, Or.inl ⟨hmem.2, rfl⟩⟩
  · intro pre s e s' _ hs hstep
    exact ⟨inOrder_step hs.1 hs.2 hstep, globalsTraced_step hs.2 hs.1.nodup_todo hstep⟩

/-! ## a start that goes well -/

/-- A function that has returned makes no call. -/
theorem foldlM_of_returned {b b' : Backhaul} {status : AppStatus} {calls : List BackhaulCall}
    (hpc : b.pc = .returned status) (hrun : calls.foldlM Backhaul.step b = some b') : b' = b := by
  cases calls with
  | nil => exact (Option.some.inj hrun).symm
  | cons c calls => simp [Backhaul.step, hpc] at hrun

theorem backhaulStep_of_returned {s : Startup} {b : Backhaul} {c : BackhaulCall}
    (hstep : s.frame.step c = some b) (hpc : b.pc = .returned .success) :
    s.backhaulStep c = some s.done := by
  simp [Startup.backhaulStep, hstep, hpc]

theorem backhaulStep_of_running {s : Startup} {b : Backhaul} {c : BackhaulCall}
    (hstep : s.frame.step c = some b) (hpc : ∀ status, b.pc ≠ .returned status) :
    s.backhaulStep c = some { s with backhaul := some b } := by
  cases hpc' : b.pc with
  | returned status => exact absurd hpc' (hpc status)
  | _ => simp [Startup.backhaulStep, hstep, hpc']

/-- The calls of a `backhaul_connect` that returns with success do its
statement. -/
theorem foldlM_backhaul {s : Startup} {rest : List MainStatement} {calls : List BackhaulCall}
    {b : Backhaul} (htodo : s.todo = .backhaulConnect :: rest) (hgoes : s.terminated = false)
    (hpc : ∀ status, s.frame.pc ≠ .returned status)
    (hrun : calls.foldlM Backhaul.step s.frame = some b) (hb : b.pc = .returned .success) :
    (calls.map StartupEvent.backhaul).foldlM (Startup.step cfg build) s = some s.done := by
  induction calls generalizing s with
  | nil =>
      obtain rfl : s.frame = b := Option.some.inj hrun
      exact absurd hb (hpc _)
  | cons c calls ih =>
      rw [List.foldlM_cons] at hrun
      obtain ⟨b', hstep, hrun'⟩ := Option.bind_eq_some_iff.mp hrun
      have hcall : s.step cfg build (.backhaul c) = s.backhaulStep c := by
        simp [Startup.step, hgoes, htodo, Startup.call]
      rw [List.map_cons, List.foldlM_cons, hcall]
      by_cases hreturned : ∃ status, b'.pc = .returned status
      · obtain ⟨status, hpc'⟩ := hreturned
        obtain rfl := foldlM_of_returned hpc' hrun'
        rw [backhaulStep_of_returned hstep hb]
        cases calls with
        | nil => rfl
        | cons c' calls => simp [Backhaul.step, hpc'] at hrun'
      · have hrunning : ∀ status, b'.pc ≠ .returned status := not_exists.mp hreturned
        rw [backhaulStep_of_running hstep hrunning]
        exact ih (s := { s with backhaul := some b' }) htodo hgoes hrunning hrun'

/-- The call of another statement that goes well does it. -/
theorem call_of_goesWell (cfg : Config) (s : Startup) {statement : MainStatement}
    {calls : List StartupEvent} (hne : statement ≠ .backhaulConnect)
    (hwell : GoesWell build statement calls) :
    ∃ e, calls = [e] ∧ s.call cfg build statement e = some (storeGlobals cfg s.done e) := by
  cases statement with
  | backhaulConnect => exact absurd rfl hne
  | backhaulInterface | meshInterface | readDefaultMeshIfaceControl =>
      obtain ⟨_, rfl⟩ := hwell
      exact ⟨_, rfl, rfl⟩
  | pdmcInit | pdmcCreateResource =>
      obtain ⟨io, hio, rfl⟩ := hwell
      exact ⟨_, rfl, by simp [Startup.call, hio, storeGlobals]⟩
  | _ => exact ⟨_, hwell, rfl⟩

/-- `main` is at the first of `rest`, and nothing of that has been done. -/
structure AtStatement (rest : List MainStatement) (s : Startup) : Prop where
  todo : s.todo = rest
  backhaul : s.backhaul = none
  goes : s.terminated = false

/-- A statement that goes well leads to the next one. -/
theorem AtStatement.next (cfg : Config) {s : Startup} {statement : MainStatement}
    {rest : List MainStatement} {calls : List StartupEvent} (hs : AtStatement (statement :: rest) s)
    (hiface : statement = .backhaulConnect → ∃ iface, s.backhaulInterface = some iface)
    (hwell : GoesWell build statement calls) :
    ∃ s', calls.foldlM (Startup.step cfg build) s = some s' ∧ AtStatement rest s' := by
  by_cases hne : statement = .backhaulConnect
  · subst hne
    obtain ⟨iface, hiface⟩ := hiface rfl
    obtain ⟨failed, a, _, ha, rfl⟩ := hwell
    have hframe : s.frame = Backhaul.enter (some iface) := by
      rw [Startup.frame, hs.backhaul, hiface]
      rfl
    obtain ⟨b, hrun, hb⟩ := exists_foldlM_callsFrom (atLoop_enter iface) (failed ++ [a])
    have hsuccess := hb.mpr ⟨a, by simp, ha⟩
    refine ⟨s.done, foldlM_backhaul hs.todo hs.goes ?_ (hframe ▸ hrun) hsuccess, ?_⟩
    · intro status
      simp [hframe, (atLoop_enter iface).pc]
    · exact ⟨by rw [Startup.todo_done, hs.todo]; rfl, rfl, hs.goes⟩
  · obtain ⟨e, rfl, hcall⟩ := call_of_goesWell cfg s hne hwell
    obtain ⟨htodo, hb, hgoes⟩ := storeGlobals_eq cfg s.done e
    refine ⟨storeGlobals cfg s.done e, ?_, ?_⟩
    · simp [Startup.step, hs.goes, hs.todo, hcall]
    · exact ⟨by rw [htodo, Startup.todo_done, hs.todo]; rfl, hb, hgoes.trans hs.goes⟩

/-- Where `backhaul_connect` is called the interface has been fetched. -/
theorem exists_backhaulInterface {pre : List StartupEvent} {s : Startup}
    {rest : List MainStatement} (hrun : (startup cfg build record).run pre = some s)
    (htodo : s.todo = .backhaulConnect :: rest) :
    ∃ iface, s.backhaulInterface = some iface := by
  obtain ⟨⟨gone, _, _, hmain, _⟩, hg⟩ := startup_invariant hrun
  have hnot := backhaulInterface_notMem build (htodo ▸ hmain)
  obtain ⟨iface, _, hiface⟩ := hg.interface.resolve_left (htodo ▸ hnot)
  exact ⟨iface, hiface⟩

/-- `main` goes through any of its statements that go well. -/
theorem exists_run_of_goesWell {statements : List MainStatement}
    {blocks : List (List StartupEvent)} (hblocks : List.Forall₂ (GoesWell build) statements blocks)
    {pre : List StartupEvent} {s : Startup} (hrun : (startup cfg build record).run pre = some s)
    (hs : AtStatement statements s) :
    ∃ s', (startup cfg build record).run (pre ++ blocks.flatten) = some s' ∧ AtStatement [] s' := by
  induction hblocks generalizing pre s with
  | nil => exact ⟨s, by simpa using hrun, hs⟩
  | @cons statement calls statements blocks hwell hblocks ih =>
      obtain ⟨t, ht, htodo⟩ := hs.next cfg
        (fun hstatement => exists_backhaulInterface hrun (hstatement ▸ hs.todo)) hwell
      have hrun' : (startup cfg build record).run (pre ++ calls) = some t := by
        rw [Machine.run_append, hrun]
        exact ht
      obtain ⟨s', hs', hend⟩ := ih hrun' htodo
      exact ⟨s', by rw [List.flatten_cons, ← List.append_assoc]; exact hs', hend⟩

/-- `main` comes to `cloud_client->setup` by the calls of all its statements,
each gone well, and by nothing else. -/
theorem completes_iff (cfg : Config) (build : MainBuild) (record : Option (List UInt8))
    (h : List StartupEvent) :
    (∃ s, (startup cfg build record).run h = some s ∧ s.todo = []) ↔
      ∃ blocks, List.Forall₂ (GoesWell build) (mainStatements build) blocks ∧
        h = blocks.flatten := by
  constructor
  · rintro ⟨s, hrun, htodo⟩
    obtain ⟨gone, blocks, part, hmain, hblocks, rfl, hpart⟩ := (startup_invariant hrun).1
    rw [htodo, List.append_nil] at hmain
    refine ⟨blocks, hmain ▸ hblocks, ?_⟩
    cases hpart with
    | nothing hb hgoes => rw [List.append_nil]
    | backhaul htodo' => exact absurd (htodo.symm.trans htodo') (by simp)
    | failed he htodo' hends => exact absurd (htodo.symm.trans htodo') (by simp)
  · rintro ⟨blocks, hblocks, rfl⟩
    have hstart : (startup cfg build record).run [] = some (Startup.powerOn build record) := rfl
    obtain ⟨s, hrun, hs⟩ := exists_run_of_goesWell hblocks hstart ⟨rfl, rfl, rfl⟩
    exact ⟨s, hrun, hs.todo⟩

/-! ## calls and statements -/

/-- The calls of a statement that goes well are its own. -/
theorem statement_of_goesWell {statement : MainStatement} {calls : List StartupEvent}
    (h : GoesWell build statement calls) : ∀ e ∈ calls, e.statement = statement := by
  intro e he
  cases statement with
  | backhaulConnect =>
      obtain ⟨failed, a, _, _, rfl⟩ := h
      obtain ⟨c, _, rfl⟩ := List.mem_map.mp he
      rfl
  | backhaulInterface | meshInterface | readDefaultMeshIfaceControl =>
      obtain ⟨_, rfl⟩ := h
      exact List.mem_singleton.mp he ▸ rfl
  | pdmcInit | pdmcCreateResource =>
      obtain ⟨_, _, rfl⟩ := h
      exact List.mem_singleton.mp he ▸ rfl
  | _ =>
      rw [show calls = [_] from h] at he
      exact List.mem_singleton.mp he ▸ rfl

theorem statement_mem {statements : List MainStatement} {blocks : List (List StartupEvent)}
    (hblocks : List.Forall₂ (GoesWell build) statements blocks) {e : StartupEvent}
    (he : e ∈ blocks.flatten) : e.statement ∈ statements := by
  induction hblocks with
  | nil => exact absurd he (by simp)
  | cons hwell _ ih =>
      cases List.mem_append.mp he with
      | inl hfirst => exact statement_of_goesWell hwell e hfirst ▸ List.mem_cons_self
      | inr hrest => exact List.mem_cons_of_mem _ (ih hrest)

/-- A start makes one call for each statement other than
`backhaul_connect`. -/
theorem eq_of_statement_eq {statements : List MainStatement} {blocks : List (List StartupEvent)}
    (hblocks : List.Forall₂ (GoesWell build) statements blocks) (hnodup : statements.Nodup)
    {e e' : StartupEvent} (he : e ∈ blocks.flatten) (he' : e' ∈ blocks.flatten)
    (hsame : e.statement = e'.statement) (hne : e.statement ≠ .backhaulConnect) : e = e' := by
  induction hblocks with
  | nil => exact absurd he (by simp)
  | @cons statement calls statements blocks hwell hblocks ih =>
      obtain ⟨hnot, hnodup⟩ := List.nodup_cons.mp hnodup
      have hown := statement_of_goesWell hwell
      cases List.mem_append.mp he with
      | inl hfirst =>
          cases List.mem_append.mp he' with
          | inl hfirst' =>
              obtain ⟨e₀, rfl, _⟩ := call_of_goesWell .shipped (Startup.powerOn build none)
                (hown e hfirst ▸ hne) hwell
              rw [List.mem_singleton.mp hfirst, List.mem_singleton.mp hfirst']
          | inr hrest' =>
              have hmem := statement_mem hblocks hrest'
              rw [← hsame, hown e hfirst] at hmem
              exact absurd hmem hnot
      | inr hrest =>
          cases List.mem_append.mp he' with
          | inl hfirst' =>
              have hmem := statement_mem hblocks hrest
              rw [hsame, hown e' hfirst'] at hmem
              exact absurd hmem hnot
          | inr hrest' => exact ih hnodup hrest hrest'

/-! ## the whole start -/

/-- A statement that goes well has no failing call. -/
theorem not_returnsError_of_goesWell {statement : MainStatement} {calls : List StartupEvent}
    (hwell : GoesWell build statement calls) : ∀ e ∈ calls, ¬ ReturnsError build e := by
  intro e he
  cases statement with
  | backhaulConnect =>
      obtain ⟨failed, a, _, _, rfl⟩ := hwell
      obtain ⟨c, _, rfl⟩ := List.mem_map.mp he
      exact id
  | backhaulInterface | meshInterface | readDefaultMeshIfaceControl =>
      obtain ⟨_, rfl⟩ := hwell
      obtain rfl := List.mem_singleton.mp he
      simp [ReturnsError]
  | pdmcInit | pdmcCreateResource =>
      obtain ⟨io, hio, rfl⟩ := hwell
      obtain rfl := List.mem_singleton.mp he
      simp [ReturnsError, hio]
  | _ =>
      rw [show calls = [_] from hwell] at he
      obtain rfl := List.mem_singleton.mp he
      simp [ReturnsError]

/-- `main` has returned `-1` exactly when a call has failed. -/
theorem InOrder.terminated_iff {h : List StartupEvent} {s : Startup} (hs : InOrder build h s) :
    s.terminated = true ↔ ∃ e ∈ h, ReturnsError build e := by
  obtain ⟨gone, blocks, part, _, hblocks, rfl, hpart⟩ := hs
  have hgone : ∀ e ∈ blocks.flatten, ¬ ReturnsError build e := by
    intro e he
    obtain ⟨calls, hcalls, he⟩ := List.mem_flatten.mp he
    obtain ⟨i, hi, rfl⟩ := List.mem_iff_getElem.mp hcalls
    exact not_returnsError_of_goesWell (hblocks.get (hblocks.length_eq ▸ hi) hi) e he
  have hpart' : s.terminated = true ↔ ∃ e ∈ part, ReturnsError build e := by
    cases hpart with
    | nothing hb hgoes => simp [hgoes]
    | backhaul htodo hiface hb hrun hgoes => simp [hgoes, ReturnsError]
    | failed he htodo hends => simp [hends, he]
  rw [hpart']
  constructor
  · rintro ⟨e, he, herror⟩
    exact ⟨e, List.mem_append_right _ he, herror⟩
  · rintro ⟨e, he, herror⟩
    cases List.mem_append.mp he with
    | inl hold => exact absurd herror (hgone e hold)
    | inr hnew => exact ⟨e, hnew, herror⟩

/-- **Start-up order**: in a build that reads the control value, with the network
manager or without, `main` has at any moment made the calls of the statements
done, each gone well and in the order of the source, and part of those of the
one at hand; it has returned `-1` exactly when a call has failed; and it comes
to `cloud_client->setup` exactly by the calls of all statements, each gone
well. -/
theorem startup_in_order (cfg : Config) (build : MainBuild) (record : Option (List UInt8))
    (h : List StartupEvent) :
    (startup cfg build record).Holds (fun pre s => InOrder build pre s ∧
        (s.terminated = true ↔ ∃ e ∈ pre, ReturnsError build e)) h ∧
      ((∃ s, (startup cfg build record).run h = some s ∧ s.todo = []) ↔
        ∃ blocks, List.Forall₂ (GoesWell build) (mainStatements build) blocks ∧
          h = blocks.flatten) := by
  refine ⟨fun pre s _ hrun => ?_, completes_iff cfg build record h⟩
  have hs : InOrder build pre s := (startup_invariant hrun).1
  exact ⟨hs, hs.terminated_iff⟩

end PelionBorderRouter
