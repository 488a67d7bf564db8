import PelionBorderRouter.Config
import PelionBorderRouter.Lib.Checklist

/-!
# PelionBorderRouter.Resources

`PDMC_create_resource` of `main_app.cpp`: the resources the device offers to
the cloud, and the callbacks behind them.

What the cloud client answers to a call is `ResourceIo`.  Seven calls are
checked, and the first of them that fails ends the function, which leaves
the object list as it is then; `main` does not register it.  Seven more give
a pointer that the function follows without a look at it: after a `NULL` it
does not return.

`resources_sound` says what the function has done when it ends, whatever the
client has answered, and what a list that is registered looks like.
-/

namespace PelionBorderRouter

/-! ## the calls -/

/-- The static resource pointers of `main_app.cpp`. -/
inductive M2mResource where
  | meshIfaceControl
  | appState
  | m2mGetRes
  | m2mPutRes
  | m2mPostRes
  | m2mDeregisterRes
  | m2mFactoryResetRes
deriving DecidableEq, Repr

/-- `M2MResourceInstance::ResourceType`, as far as it is used. -/
inductive M2mResourceType where
  | string
  | integer
deriving DecidableEq, Repr

/-- `M2MBase::Operation`, as far as it is used. -/
inductive M2mOperation where
  | getAllowed
  | getPutAllowed
  | postAllowed
deriving DecidableEq, Repr

/-- Object, instance and resource id. -/
structure ResourcePath where
  object : Nat
  objectInstance : Nat
  resource : Nat
deriving DecidableEq, Repr

/-- The functions of `main_app.cpp` that are called when the value of a resource
has been set. -/
inductive ValueUpdated where
  | meshIfaceControlCb
  | getResUpdate
  | putResUpdate
deriving DecidableEq, Repr

/-- The functions of `main_app.cpp` that are called for a POST. -/
inductive Execute where
  | executePost
  | deregister
  | factoryReset
deriving DecidableEq, Repr

/-- A call of the cloud client.  The read callback is `app_res_read_cb`, with
the resource itself as its argument. -/
inductive ResourceCall where
  | createResource (res : M2mResource) (path : ResourcePath) (type : M2mResourceType)
      (operation : M2mOperation)
  | createDevice
  | createDeviceResource (res : M2mResource)
  | setValueUpdatedFunction (res : M2mResource) (callback : ValueUpdated)
  | setReadResourceFunction (res : M2mResource)
  | setValue (res : M2mResource) (value : Int)
  | setDelayedResponse (res : M2mResource)
  | setExecuteFunction (res : M2mResource) (callback : Execute)
deriving DecidableEq, Repr

/-- What the client answers: whether a call succeeds, or, when it gives a pointer,
whether that is not `NULL`. -/
abbrev ResourceIo := ResourceCall → Bool

/-! ## PDMC_create_resource -/

/-- The calls made so far; the function ends early with a status, or with
`none` where it follows a `NULL`. -/
abbrev ResourceM := ExceptT (Option AppStatus) (StateM (List ResourceCall))

namespace ResourceM

/-- A call whose answer nothing depends on. -/
def call (c : ResourceCall) : ResourceM Unit := modify (· ++ [c])

/-- `if (c != true) return APP_STATUS_FAIL;` -/
def check (io : ResourceIo) (c : ResourceCall) : ResourceM Unit := do
  call c
  if io c ≠ true then throw (some .fail)

/-- A call for a pointer, which is followed next. -/
def follow (io : ResourceIo) (c : ResourceCall) : ResourceM Unit := do
  call c
  if io c ≠ true then throw none

end ResourceM

open ResourceM in
/-- The statements of `PDMC_create_resource`. -/
def createResources (io : ResourceIo) : ResourceM AppStatus := do
  -- PUT/GET resource 33455/0/13
  follow io (.createResource .meshIfaceControl ⟨33455, 0, 13⟩ .string .getPutAllowed)
  check io (.setValueUpdatedFunction .meshIfaceControl .meshIfaceControlCb)
  call (.setReadResourceFunction .meshIfaceControl)
  -- GET resource 33455/0/14
  follow io (.createResource .appState ⟨33455, 0, 14⟩ .string .getAllowed)
  call (.setReadResourceFunction .appState)
  -- GET resource 3200/0/5501, PUT also allowed for resetting the resource
  follow io (.createResource .m2mGetRes ⟨3200, 0, 5501⟩ .integer .getPutAllowed)
  check io (.setValue .m2mGetRes 0)
  check io (.setValueUpdatedFunction .m2mGetRes .getResUpdate)
  -- PUT resource 3201/0/5853, for which a GET is allowed as well
  follow io (.createResource .m2mPutRes ⟨3201, 0, 5853⟩ .string .getPutAllowed)
  check io (.setValue .m2mPutRes 0)
  check io (.setValueUpdatedFunction .m2mPutRes .putResUpdate)
  -- POST resource 3201/0/5850
  follow io (.createResource .m2mPostRes ⟨3201, 0, 5850⟩ .string .postAllowed)
  check io (.setExecuteFunction .m2mPostRes .executePost)
  -- POST resource 5000/0/1 to trigger deregister, with a delayed response
  follow io (.createResource .m2mDeregisterRes ⟨5000, 0, 1⟩ .integer .postAllowed)
  call (.setDelayedResponse .m2mDeregisterRes)
  check io (.setExecuteFunction .m2mDeregisterRes .deregister)
  -- optional device resource for running factory reset: 3/0/6
  follow io .createDevice
  call (.createDeviceResource .m2mFactoryResetRes)
  if io (.createDeviceResource .m2mFactoryResetRes) = true then
    call (.setExecuteFunction .m2mFactoryResetRes .factoryReset)
  return .success

/-- `PDMC_create_resource`: the return value, `none` when it does not return,
and the calls made. -/
def pdmcCreateResource (io : ResourceIo) : Option AppStatus × List ResourceCall :=
  match (createResources io).run.run [] with
  | (.ok status, done) => (some status, done)
  | (.error status, done) => (status, done)

/-! ## as a checklist -/

/-- The calls up to the factory reset resource, with the ones whose answer
decides whether the function goes on. -/
def resourceChecks : List (Check ResourceCall) :=
  [⟨.createResource .meshIfaceControl ⟨33455, 0, 13⟩ .string .getPutAllowed, true⟩,
    ⟨.setValueUpdatedFunction .meshIfaceControl .meshIfaceControlCb, true⟩,
    ⟨.setReadResourceFunction .meshIfaceControl, false⟩,
    ⟨.createResource .appState ⟨33455, 0, 14⟩ .string .getAllowed, true⟩,
    ⟨.setReadResourceFunction .appState, false⟩,
    ⟨.createResource .m2mGetRes ⟨3200, 0, 5501⟩ .integer .getPutAllowed, true⟩,
    ⟨.setValue .m2mGetRes 0, true⟩,
    ⟨.setValueUpdatedFunction .m2mGetRes .getResUpdate, true⟩,
    ⟨.createResource .m2mPutRes ⟨3201, 0, 5853⟩ .string .getPutAllowed, true⟩,
    ⟨.setValue .m2mPutRes 0, true⟩,
    ⟨.setValueUpdatedFunction .m2mPutRes .putResUpdate, true⟩,
    ⟨.createResource .m2mPostRes ⟨3201, 0, 5850⟩ .string .postAllowed, true⟩,
    ⟨.setExecuteFunction .m2mPostRes .executePost, true⟩,
    ⟨.createResource .m2mDeregisterRes ⟨5000, 0, 1⟩ .integer .postAllowed, true⟩,
    ⟨.setDelayedResponse .m2mDeregisterRes, false⟩,
    ⟨.setExecuteFunction .m2mDeregisterRes .deregister, true⟩,
    ⟨.createDevice, true⟩,
    ⟨.createDeviceResource .m2mFactoryResetRes, false⟩]

/-- The call gives a pointer that is followed without a look at it. -/
def ResourceCall.followed : ResourceCall → Bool
  | .createResource _ _ _ _ => true
  | .createDevice => true
  | _ => false

/-- The call's answer is compared with `true`. -/
def ResourceCall.checked : ResourceCall → Bool
  | .setValueUpdatedFunction _ _ => true
  | .setValue _ _ => true
  | .setExecuteFunction res _ => res ≠ .m2mFactoryResetRes
  | _ => false

/-- How the function ends at a call that does not go well. -/
def ResourceCall.failure (c : ResourceCall) : Option AppStatus :=
  if c.followed then none else some .fail

/-- The calls on the factory reset resource. -/
def factoryResetCalls (io : ResourceIo) : List ResourceCall :=
  if io (.createDeviceResource .m2mFactoryResetRes) = true then
    [.setExecuteFunction .m2mFactoryResetRes .factoryReset]
  else []

namespace ResourceM

/-- A call of a checklist. -/
def make (io : ResourceIo) (c : Check ResourceCall) : ResourceM Unit := do
  call c.call
  if ¬ c.Passes io then throw c.call.failure

theorem call_eq (io : ResourceIo) (c : ResourceCall) : call c = make io ⟨c, false⟩ := by
  simp [make]

theorem check_eq (io : ResourceIo) {c : ResourceCall} (h : c.followed = false) :
    check io c = make io ⟨c, true⟩ := by
  simp [check, make, ResourceCall.failure, h]

theorem follow_eq (io : ResourceIo) {c : ResourceCall} (h : c.followed = true) :
    follow io c = make io ⟨c, true⟩ := by
  simp [follow, make, ResourceCall.failure, h]

/-- The calls of a checklist, one after the other, and then `next`. -/
def makeAll {α : Type} (io : ResourceIo) (cs : List (Check ResourceCall)) (next : ResourceM α) :
    ResourceM α :=
  cs.foldr (fun c next => do make io c; next) next

/-- A call that passes leads on, and one that does not ends the function. -/
theorem run_make {α : Type} (io : ResourceIo) (c : Check ResourceCall) (next : ResourceM α)
    (done : List ResourceCall) :
    (do make io c; next : ResourceM α).run.run done =
      if c.Passes io then next.run.run (done ++ [c.call])
      else (.error c.call.failure, done ++ [c.call]) := by
  unfold make
  by_cases hc : c.Passes io
  · rw [if_pos hc, if_neg (not_not_intro hc)]
    rfl
  · rw [if_neg hc, if_pos hc]
    rfl

theorem run_makeAll {α : Type} (io : ResourceIo) (cs : List (Check ResourceCall))
    (next : ResourceM α) (done : List ResourceCall) :
    (makeAll io cs next).run.run done =
      Check.performThen io (fun done => next.run.run done)
        (fun c done => (.error c.failure, done)) cs done := by
  induction cs generalizing done with
  | nil => rfl
  | cons c cs ih =>
      rw [Check.performThen, ← ih]
      exact run_make io c (makeAll io cs next) done

end ResourceM

/-- The callback of the factory reset resource is set if there is one. -/
def setFactoryReset (io : ResourceIo) : ResourceM AppStatus := do
  if io (.createDeviceResource .m2mFactoryResetRes) = true then
    ResourceM.call (.setExecuteFunction .m2mFactoryResetRes .factoryReset)
  return .success

theorem createResources_eq (io : ResourceIo) :
    createResources io = ResourceM.makeAll io resourceChecks (setFactoryReset io) := by
  simp (disch := decide) only [createResources, setFactoryReset, resourceChecks,
    ResourceM.makeAll, List.foldr_cons, List.foldr_nil, ResourceM.call_eq io, ResourceM.check_eq,
    ResourceM.follow_eq]

/-- The function works off the checklist, and then sets the callback of the
factory reset resource if there is one. -/
theorem pdmcCreateResource_eq (io : ResourceIo) :
    pdmcCreateResource io =
      match (Check.perform io resourceChecks).1 with
      | none => (some .success, (Check.perform io resourceChecks).2 ++ factoryResetCalls io)
      | some c => (c.failure, (Check.perform io resourceChecks).2) := by
  unfold pdmcCreateResource
  rw [createResources_eq, ResourceM.run_makeAll, Check.performThen_eq]
  cases (Check.perform io resourceChecks).1 with
  | some c => rfl
  | none =>
      unfold setFactoryReset factoryResetCalls
      by_cases hreset : io (.createDeviceResource .m2mFactoryResetRes) = true
      · rw [if_pos hreset, if_pos hreset]
        rfl
      · rw [if_neg hreset, if_neg hreset, List.append_nil]
        rfl

/-- All the calls the function can make, in order. -/
def resourceCalls : List ResourceCall :=
  resourceChecks.map Check.call ++ [.setExecuteFunction .m2mFactoryResetRes .factoryReset]

theorem factoryResetCalls_isPrefix (io : ResourceIo) :
    factoryResetCalls io <+: [.setExecuteFunction .m2mFactoryResetRes .factoryReset] := by
  unfold factoryResetCalls
  split
  · exact List.prefix_refl _
  · exact List.nil_prefix

theorem pdmcCreateResource_of_passes {io : ResourceIo} (h : ∀ c ∈ resourceChecks, c.Passes io) :
    pdmcCreateResource io =
      (some .success, resourceChecks.map Check.call ++ factoryResetCalls io) := by
  rw [pdmcCreateResource_eq, Check.perform_fst_iff.mpr h, Check.perform_snd_of_passes h]

/-- The function gets through the checklist, or ends inside it. -/
theorem pdmcCreateResource_cases (io : ResourceIo) :
    (∀ c ∈ resourceChecks, c.Passes io) ∧ pdmcCreateResource io =
        (some .success, resourceChecks.map Check.call ++ factoryResetCalls io) ∨
      ∃ c, (Check.perform io resourceChecks).1 = some c ∧
        pdmcCreateResource io = (c.failure, (Check.perform io resourceChecks).2) := by
  cases hfst : (Check.perform io resourceChecks).1 with
  | none =>
      have hpasses := Check.perform_fst_iff.mp hfst
      exact Or.inl ⟨hpasses, pdmcCreateResource_of_passes hpasses⟩
  | some c => exact Or.inr ⟨c, rfl, by rw [pdmcCreateResource_eq, hfst]⟩

@[simp] theorem ResourceCall.failure_eq_none_iff {c : ResourceCall} :
    c.failure = none ↔ c.followed = true := by
  simp [failure]

@[simp] theorem ResourceCall.failure_eq_fail_iff {c : ResourceCall} :
    c.failure = some .fail ↔ c.followed = false := by
  simp [failure]

@[simp] theorem ResourceCall.failure_ne_success (c : ResourceCall) : c.failure ≠ some .success := by
  unfold failure
  split <;> simp

theorem passes_of_success {io : ResourceIo} (h : (pdmcCreateResource io).1 = some .success) :
    ∀ c ∈ resourceChecks, c.Passes io := by
  cases pdmcCreateResource_cases io with
  | inl hall => exact hall.1
  | inr hends =>
      obtain ⟨c, _, hresult⟩ := hends
      rw [hresult] at h
      exact absurd h c.failure_ne_success

/-- Whatever the client answers, the calls made are the first ones. -/
theorem calls_isPrefix (io : ResourceIo) : (pdmcCreateResource io).2 <+: resourceCalls := by
  cases pdmcCreateResource_cases io with
  | inl hall =>
      rw [hall.2]
      exact (List.prefix_append_right_inj _).mpr (factoryResetCalls_isPrefix io)
  | inr hends =>
      obtain ⟨c, _, hresult⟩ := hends
      rw [hresult]
      exact (Check.perform_snd_prefix _).trans (List.prefix_append _ _)

/-- The checklist has the calls that are checked, and those that are followed. -/
theorem checked_eq : ∀ c ∈ resourceChecks, c.checked = (c.call.checked || c.call.followed) := by
  decide

/-- Without a success the last call made is the one that has not gone well. -/
theorem exists_failure {io : ResourceIo} (h : (pdmcCreateResource io).1 ≠ some .success) :
    ∃ pre c, (pdmcCreateResource io).2 = pre ++ [c] ∧ io c = false ∧
      (c.checked = true ∨ c.followed = true) ∧ (pdmcCreateResource io).1 = c.failure := by
  cases pdmcCreateResource_cases io with
  | inl hall =>
      rw [hall.2] at h
      exact absurd rfl h
  | inr hends =>
      obtain ⟨c, hfst, hresult⟩ := hends
      obtain ⟨before, check, after, hchecks, _, hnot, rfl, hcalls⟩ :=
        Check.firstFailure_of_perform hfst
      obtain ⟨hchecked, hio⟩ := Classical.not_imp.mp hnot
      have hmem : check ∈ resourceChecks := by
        rw [hchecks]
        simp
      rw [hresult]
      refine ⟨before.map Check.call, check.call, hcalls, eq_false_of_ne_true hio, ?_, rfl⟩
      rwa [checked_eq check hmem, Bool.or_eq_true] at hchecked

/-! ## what the resources are for -/

namespace M2mResource

/-- The path a resource is offered under. -/
def path : M2mResource → ResourcePath
  | .meshIfaceControl => ⟨33455, 0, 13⟩
  | .appState => ⟨33455, 0, 14⟩
  | .m2mGetRes => ⟨3200, 0, 5501⟩
  | .m2mPutRes => ⟨3201, 0, 5853⟩
  | .m2mPostRes => ⟨3201, 0, 5850⟩
  | .m2mDeregisterRes => ⟨5000, 0, 1⟩
  | .m2mFactoryResetRes => ⟨3, 0, 6⟩

/-- A GET is answered by `app_res_read_cb`, and not with the value the client
keeps. -/
def readByCallback : M2mResource → Bool
  | .meshIfaceControl => true
  | .appState => true
  | _ => false

/-- What a PUT calls. -/
def valueUpdated? : M2mResource → Option ValueUpdated
  | .meshIfaceControl => some .meshIfaceControlCb
  | .m2mGetRes => some .getResUpdate
  | .m2mPutRes => some .putResUpdate
  | _ => none

/-- What a POST calls. -/
def execute? : M2mResource → Option Execute
  | .m2mPostRes => some .executePost
  | .m2mDeregisterRes => some .deregister
  | .m2mFactoryResetRes => some .factoryReset
  | _ => none

end M2mResource

/-- A request of the cloud. -/
inductive M2mRequest where
  | get
  | put
  | post
deriving DecidableEq, Repr

namespace ResourceCall

/-- The resource a call creates. -/
def creates? : ResourceCall → Option M2mResource
  | .createResource res _ _ _ => some res
  | .createDeviceResource res => some res
  | _ => none

/-- The resource a call sets something of. -/
def sets? : ResourceCall → Option M2mResource
  | .setValueUpdatedFunction res _ => some res
  | .setReadResourceFunction res => some res
  | .setValue res _ => some res
  | .setDelayedResponse res => some res
  | .setExecuteFunction res _ => some res
  | _ => none

/-- The path of the resource a call creates; that of the device object is fixed. -/
def path? : ResourceCall → Option ResourcePath
  | .createResource _ path _ _ => some path
  | .createDeviceResource _ => some ⟨3, 0, 6⟩
  | _ => none

/-- The requests the resource a call creates allows. -/
def allows : ResourceCall → M2mRequest → Bool
  | .createResource _ _ _ .getAllowed, .get => true
  | .createResource _ _ _ .getPutAllowed, .get => true
  | .createResource _ _ _ .getPutAllowed, .put => true
  | .createResource _ _ _ .postAllowed, .post => true
  | .createDeviceResource _, .post => true
  | _, _ => false

/-- The call gives its resource the path and the callback that are meant for it,
and `0` where the client keeps the value. -/
def FitsResource : ResourceCall → Prop
  | .createResource res path _ _ => path = res.path
  | .createDevice => True
  | .createDeviceResource res => res = .m2mFactoryResetRes
  | .setValueUpdatedFunction res callback => res.valueUpdated? = some callback
  | .setReadResourceFunction res => res.readByCallback = true
  | .setValue res value => res.readByCallback = false ∧ value = 0
  | .setDelayedResponse res => res = .m2mDeregisterRes
  | .setExecuteFunction res callback => res.execute? = some callback

instance : DecidablePred FitsResource := by
  intro c
  cases c <;> unfold FitsResource <;> infer_instance

end ResourceCall

/-- A request finds what is meant to answer it, and the client has taken that:
the read callback or the value, the callback of a PUT, the callback of a POST.
Whether it takes the one of the factory reset is not looked at. -/
def Served (io : ResourceIo) (done : List ResourceCall) (res : M2mResource) : M2mRequest → Prop
  | .get =>
      if res.readByCallback then .setReadResourceFunction res ∈ done
      else .setValue res 0 ∈ done ∧ io (.setValue res 0) = true
  | .put => ∃ callback, res.valueUpdated? = some callback ∧
      .setValueUpdatedFunction res callback ∈ done ∧
      io (.setValueUpdatedFunction res callback) = true
  | .post => ∃ callback, res.execute? = some callback ∧
      .setExecuteFunction res callback ∈ done ∧
      (res ≠ .m2mFactoryResetRes → io (.setExecuteFunction res callback) = true) ∧
      (res = .m2mDeregisterRes → .setDelayedResponse res ∈ done)

/-- How the function can end, and what holds of the calls in any case. -/
structure ResourcesSound (io : ResourceIo) (result : Option AppStatus × List ResourceCall) :
    Prop where
  /-- A resource is there before anything is set of it. -/
  created : ∀ pre c post, result.2 = pre ++ c :: post → ∀ res, c.sets? = some res →
    ∃ c' ∈ pre, c'.creates? = some res ∧ io c' = true
  /-- Every path and every callback is that of its resource. -/
  fits : ∀ c ∈ result.2, c.FitsResource
  /-- No two resources have one path. -/
  paths : (result.2.filterMap ResourceCall.path?).Nodup
  /-- A call that is checked or followed and does not go well is the last one. -/
  ended : ∀ pre c post, result.2 = pre ++ c :: post → c.checked = true ∨ c.followed = true →
    io c = false → post = []
  /-- A failure is that of the last call, which is checked. -/
  failed : result.1 = some .fail →
    ∃ pre c, result.2 = pre ++ [c] ∧ c.checked = true ∧ io c = false
  /-- Without a return value the last call has given a `NULL`. -/
  null : result.1 = none →
    ∃ pre c, result.2 = pre ++ [c] ∧ c.followed = true ∧ io c = false
  /-- After a success all resources have been asked for, and all but the factory
  reset are there. -/
  complete : result.1 = some .success → ∀ res, ∃ c ∈ result.2, c.creates? = some res ∧
    (res ≠ .m2mFactoryResetRes → io c = true)
  /-- And each that is there is served the requests it allows. -/
  served : result.1 = some .success → ∀ c ∈ result.2, ∀ res, c.creates? = some res →
    io c = true → ∀ request, c.allows request = true → Served io result.2 res request

/-! ## what is registered -/

theorem fits_resourceCalls : ∀ c ∈ resourceCalls, c.FitsResource := by decide

theorem nodup_path_resourceCalls : (resourceCalls.filterMap ResourceCall.path?).Nodup := by decide

/-- Before a call that is made the calls of the checklist have passed. -/
theorem passes_before {io : ResourceIo} {pre post : List ResourceCall} {c : ResourceCall}
    (h : (pdmcCreateResource io).2 = pre ++ c :: post) :
    ∀ c' ∈ resourceChecks.take pre.length, c'.Passes io := by
  cases pdmcCreateResource_cases io with
  | inl hall => exact fun c' hc' => hall.1 c' (List.mem_of_mem_take hc')
  | inr hends =>
      obtain ⟨x, _, hresult⟩ := hends
      rw [hresult] at h
      exact Check.passes_of_perform h

/-- The callback of the factory reset resource is set only if the client has made
that resource. -/
theorem factoryReset_of_made {io : ResourceIo}
    (h : .setExecuteFunction .m2mFactoryResetRes .factoryReset ∈ (pdmcCreateResource io).2) :
    io (.createDeviceResource .m2mFactoryResetRes) = true := by
  have hnot : .setExecuteFunction .m2mFactoryResetRes .factoryReset ∉
      resourceChecks.map Check.call := by decide
  cases pdmcCreateResource_cases io with
  | inl hall =>
      rw [hall.2] at h
      have hreset := (List.mem_append.mp h).resolve_left hnot
      unfold factoryResetCalls at hreset
      by_contra hio
      rw [if_neg hio] at hreset
      exact absurd hreset List.not_mem_nil
  | inr hends =>
      obtain ⟨x, _, hresult⟩ := hends
      rw [hresult] at h
      exact absurd ((Check.perform_snd_prefix _).subset h) hnot

/-- In front of every call that sets something of a resource stands the one that
creates it, which is checked, or whose answer is looked at for the factory
reset. -/
theorem creates_before : ∀ i : Fin resourceCalls.length, ∀ res ∈ (resourceCalls.get i).sets?,
    ∃ c ∈ resourceCalls.take i, c.creates? = some res ∧
      (⟨c, true⟩ ∈ resourceChecks.take i ∨ c = .createDeviceResource .m2mFactoryResetRes ∧
        resourceCalls.get i = .setExecuteFunction .m2mFactoryResetRes .factoryReset) := by
  decide +kernel

/-- All calls that are checked or followed are on the checklist. -/
theorem checks_before : ∀ i : Fin resourceCalls.length,
    (resourceCalls.get i).checked = true ∨ (resourceCalls.get i).followed = true →
      ⟨resourceCalls.get i, true⟩ ∈ resourceChecks.take (i + 1) := by
  decide +kernel

/-- The calls made are those at their places. -/
theorem get_of_made {io : ResourceIo} {pre post : List ResourceCall} {c : ResourceCall}
    (h : (pdmcCreateResource io).2 = pre ++ c :: post) :
    resourceCalls.take pre.length = pre ∧
      ∃ i : Fin resourceCalls.length, i.val = pre.length ∧ resourceCalls.get i = c := by
  obtain ⟨rest, hrest⟩ := calls_isPrefix io
  rw [h, List.append_assoc, List.cons_append] at hrest
  have hlt : pre.length < resourceCalls.length := by
    rw [← hrest]
    simp
  exact ⟨by rw [← hrest, List.take_left], ⟨pre.length, hlt⟩, rfl, by simp [← hrest]⟩

theorem created_of_made {io : ResourceIo} {pre post : List ResourceCall} {c : ResourceCall}
    (h : (pdmcCreateResource io).2 = pre ++ c :: post) {res : M2mResource}
    (hres : c.sets? = some res) : ∃ c' ∈ pre, c'.creates? = some res ∧ io c' = true := by
  obtain ⟨htake, i, hi, rfl⟩ := get_of_made h
  obtain ⟨c', hc', hcreates, hwhy⟩ := creates_before i res hres
  rw [hi] at hc' hwhy
  refine ⟨c', htake ▸ hc', hcreates, ?_⟩
  cases hwhy with
  | inl hchecked => exact passes_before h _ hchecked rfl
  | inr hreset =>
      obtain ⟨rfl, hset⟩ := hreset
      refine factoryReset_of_made ?_
      rw [h, hset]
      simp

/-- A call that another one comes after has gone well, if it is checked or
followed. -/
theorem goesWell_of_made {io : ResourceIo} {pre post : List ResourceCall} {c c' : ResourceCall}
    (h : (pdmcCreateResource io).2 = pre ++ c :: c' :: post)
    (hc : c.checked = true ∨ c.followed = true) : io c = true := by
  have hnext : (pdmcCreateResource io).2 = (pre ++ [c]) ++ c' :: post := by simpa using h
  obtain ⟨_, i, hi, rfl⟩ := get_of_made h
  have hmem := checks_before i hc
  rw [hi] at hmem
  exact passes_before hnext _ (by simpa using hmem) rfl

/-- Every resource has a call that creates it, checked unless it is the factory
reset. -/
theorem creates_every (res : M2mResource) : ∃ c ∈ resourceChecks, c.call.creates? = some res ∧
    (res ≠ .m2mFactoryResetRes → c.checked = true) := by
  cases res <;> decide

/-- The calls a request needs are on the checklist, those that can be refused
checked; that of the factory reset comes after it. -/
def OnChecklist (res : M2mResource) : M2mRequest → Prop
  | .get =>
      if res.readByCallback then ⟨.setReadResourceFunction res, false⟩ ∈ resourceChecks
      else ⟨.setValue res 0, true⟩ ∈ resourceChecks
  | .put => ∃ callback ∈ res.valueUpdated?,
      ⟨.setValueUpdatedFunction res callback, true⟩ ∈ resourceChecks
  | .post => ∃ callback ∈ res.execute?,
      (if res = .m2mFactoryResetRes then callback = .factoryReset
        else ⟨.setExecuteFunction res callback, true⟩ ∈ resourceChecks) ∧
      (res = .m2mDeregisterRes → ⟨.setDelayedResponse res, false⟩ ∈ resourceChecks)

instance (res : M2mResource) : DecidablePred (OnChecklist res) := by
  intro request
  cases request <;> unfold OnChecklist <;> infer_instance

theorem onChecklist_of_allows : ∀ c ∈ resourceCalls, ∀ res ∈ c.creates?, ∀ request,
    c.allows request = true → OnChecklist res request := by
  intro c hc res hres request
  revert c
  cases request <;> cases res <;> decide +kernel

/-- What is on the checklist has been done when the function returns with success. -/
theorem served_of_onChecklist {io : ResourceIo} (hpasses : ∀ c ∈ resourceChecks, c.Passes io)
    {res : M2mResource} {request : M2mRequest} (h : OnChecklist res request)
    (hreset : res = .m2mFactoryResetRes → io (.createDeviceResource res) = true) :
    Served io (pdmcCreateResource io).2 res request := by
  have hmade : ∀ c ∈ resourceChecks, c.call ∈ (pdmcCreateResource io).2 := by
    intro c hc
    rw [pdmcCreateResource_of_passes hpasses]
    exact List.mem_append_left _ (List.mem_map_of_mem hc)
  have htaken : ∀ c, ⟨c, true⟩ ∈ resourceChecks → io c = true := fun c hc => hpasses _ hc rfl
  cases request with
  | get =>
      simp only [OnChecklist] at h
      simp only [Served]
      by_cases hread : res.readByCallback = true
      · rw [if_pos hread] at h ⊢
        exact hmade _ h
      · rw [if_neg hread] at h ⊢
        exact ⟨hmade _ h, htaken _ h⟩
  | put =>
      obtain ⟨callback, hcallback, hset⟩ := h
      exact ⟨callback, hcallback, hmade _ hset, htaken _ hset⟩
  | post =>
      obtain ⟨callback, hcallback, hset, hdelayed⟩ := h
      refine ⟨callback, hcallback, ?_, fun hne => ?_, fun hres => hmade _ (hdelayed hres)⟩
      · split at hset
        case isTrue hres =>
          subst hres hset
          rw [pdmcCreateResource_of_passes hpasses, factoryResetCalls, if_pos (hreset rfl)]
          simp
        case isFalse => exact hmade _ hset
      · rw [if_neg hne] at hset
        exact htaken _ hset

/-- Only `createDeviceResource` creates the factory reset resource. -/
theorem createsReset_eq : ∀ c ∈ resourceCalls, c.creates? = some .m2mFactoryResetRes →
    c = .createDeviceResource .m2mFactoryResetRes := by decide

/-- **Resources**: whatever the client answers, a resource exists before anything
is set of it and has its own path and its own callbacks, no two have one path, the
function ends with the first call that fails or gives a `NULL` it follows, and after
a success all resources have been asked for and each of those there is served the
requests it allows. -/
theorem resources_sound (io : ResourceIo) : ResourcesSound io (pdmcCreateResource io) where
  created pre c post h res hres := created_of_made h hres
  fits c hc := fits_resourceCalls c ((calls_isPrefix io).subset hc)
  paths :=
    nodup_path_resourceCalls.sublist ((calls_isPrefix io).sublist.filterMap ResourceCall.path?)
  ended pre c post h hc hio := by
    cases post with
    | nil => rfl
    | cons c' post => exact absurd (hio.symm.trans (goesWell_of_made h hc)) (by decide)
  failed h := by
    obtain ⟨pre, c, hcalls, hio, hc, hend⟩ := exists_failure (by rw [h]; decide)
    have hfollowed : c.followed = false :=
      ResourceCall.failure_eq_fail_iff.mp (hend.symm.trans h)
    exact ⟨pre, c, hcalls, hc.resolve_right (by simp [hfollowed]), hio⟩
  null h := by
    obtain ⟨pre, c, hcalls, hio, _, hend⟩ := exists_failure (by rw [h]; decide)
    exact ⟨pre, c, hcalls, ResourceCall.failure_eq_none_iff.mp (hend.symm.trans h), hio⟩
  complete h res := by
    have hpasses := passes_of_success h
    obtain ⟨c, hc, hcreates, hchecked⟩ := creates_every res
    refine ⟨c.call, ?_, hcreates, fun hne => hpasses c hc (hchecked hne)⟩
    rw [pdmcCreateResource_of_passes hpasses]
    exact List.mem_append_left _ (List.mem_map_of_mem hc)
  served h c hc res hres hio request hallows := by
    have hmem : c ∈ resourceCalls := (calls_isPrefix io).subset hc
    refine served_of_onChecklist (passes_of_success h)
      (onChecklist_of_allows c hmem res hres request hallows) ?_
    rintro rfl
    rw [← createsReset_eq c hmem hres]
    exact hio

end PelionBorderRouter
