import Mathlib.Data.List.Basic
import PelionBorderRouter.Config

/-!
# PelionBorderRouter.Pdmc

`PDMC_init` of `main_app.cpp` with `verify_cloud_config` and
`platform_reset_storage` of `cloud_client_helper.cpp`: provision the device
and construct the cloud client.

The factory configurator client is outside.  `FccIo` says what each of its
calls returns, and the functions return the actions they take, in order.
The storage is deleted for two reasons: the device is not configured, or
the developer credentials could not be loaded, and the comment in the code
speaks of the first one only (`credentials_guarded_iff`).
-/

namespace PelionBorderRouter

/-! ## the factory configurator client -/

/-- What its functions return, as far as this program tells it apart:
`FCC_STATUS_SUCCESS`, `FCC_STATUS_EXPIRED_CERTIFICATE`,
`FCC_STATUS_KCM_FILE_EXIST_ERROR`, or another status. -/
inductive FccStatus where
  | success
  | expiredCertificate
  | kcmFileExistError
  | other (code : Int)
deriving DecidableEq, Repr

inductive FccFunction where
  | fccInit
  | fccDeveloperFlow
  | fccVerifyDeviceConfigured4mbedCloud
  | fccStorageDelete
deriving DecidableEq, Repr

/-- What each call of a function returns, counted from `0`. -/
abbrev FccIo := FccFunction → Nat → FccStatus

/-- An action: a call of the client, the return of `verify_cloud_config`, or
the construction of the cloud client. -/
inductive PdmcAction where
  | fcc (f : FccFunction) (status : FccStatus)
  | verified (result : Int)
  | newCloudClient
deriving DecidableEq, Repr

/-- The action is a call of `f`. -/
def PdmcAction.calls (f : FccFunction) : PdmcAction → Bool
  | .fcc g _ => g = f
  | _ => false

/-- Call `f` after the actions of `done`. -/
def fccCall (io : FccIo) (f : FccFunction) (done : List PdmcAction) :
    FccStatus × List PdmcAction :=
  let status := io f (done.countP (PdmcAction.calls f))
  (status, done ++ [.fcc f status])

/-! ## PDMC_init -/

/-- The macros the functions are compiled with. -/
structure PdmcBuild where
  /-- `MBED_CONF_APP_DEVELOPER_MODE == 1` -/
  developerMode : Bool
  /-- `RESET_STORAGE` -/
  resetStorage : Bool
  /-- `MCC_MINIMAL` -/
  mccMinimal : Bool
  /-- `MBED_CONF_APP_MCC_NO_AUTO_FORMAT` -/
  mccNoAutoFormat : Bool
deriving DecidableEq, Repr

/-- Developer mode with nothing else set. -/
@[simps] def PdmcBuild.developer : PdmcBuild := ⟨true, false, false, false⟩

/-- `platform_reset_storage`. -/
def platformResetStorage (build : PdmcBuild) (io : FccIo) (done : List PdmcAction) :
    FccStatus × List PdmcAction :=
  if build.developerMode then fccCall io .fccStorageDelete done else (.success, done)

/-- `verify_cloud_config`. -/
def verifyCloudConfig (build : PdmcBuild) (io : FccIo) (done : List PdmcAction) :
    Int × List PdmcAction :=
  if build.developerMode then
    let (status, done) := fccCall io .fccDeveloperFlow done
    let result := if status = .kcmFileExistError then 0 else if status ≠ .success then -1 else 0
    let (status, done) := fccCall io .fccVerifyDeviceConfigured4mbedCloud done
    let result := if status ≠ .success ∧ status ≠ .expiredCertificate then -1 else result
    (result, done ++ [.verified result])
  else (0, done ++ [.verified 0])

/-- The end of `PDMC_init`: the cloud client is constructed. -/
def newCloudClient (done : List PdmcAction) : AppStatus × List PdmcAction :=
  (.success, done ++ [.newCloudClient])

/-- `PDMC_init`: the return value, and the actions taken. -/
def pdmcInit (build : PdmcBuild) (io : FccIo) : AppStatus × List PdmcAction :=
  if build.developerMode then
    -- run developer flow
    let (status, done) := fccCall io .fccInit []
    if status ≠ .success then (.fail, done)
    else
      let (status, done) :=
        if build.resetStorage then platformResetStorage build io done else (.success, done)
      if status ≠ .success then (.fail, done)
      else
        let (result, done) := verifyCloudConfig build io done
        if result ≠ 0 then
          if build.mccMinimal then newCloudClient done
          else if build.mccNoAutoFormat then (.fail, done)
          else
            -- no valid certificates: format the storage
            let (status, done) := platformResetStorage build io done
            if status ≠ .success then (.fail, done)
            else
              let (result, done) := verifyCloudConfig build io done
              if result = AppStatus.fail.value then (.fail, done) else newCloudClient done
        else newCloudClient done
  else newCloudClient []

/-! ## one call of verify_cloud_config -/

/-- The developer credentials are there. -/
def Loaded (status : FccStatus) : Prop := status = .success ∨ status = .kcmFileExistError

/-- The device is configured, if with an expired certificate. -/
def Configured (status : FccStatus) : Prop := status = .success ∨ status = .expiredCertificate

instance (status : FccStatus) : Decidable (Loaded status) := instDecidableOr

instance (status : FccStatus) : Decidable (Configured status) := instDecidableOr

/-- What `verify_cloud_config` makes of the two statuses. -/
def verifyResult (flow verify : FccStatus) : Int :=
  if Loaded flow ∧ Configured verify then 0 else -1

/-- The actions of a call of `verify_cloud_config`. -/
def verifyActions (flow verify : FccStatus) : List PdmcAction :=
  [.fcc .fccDeveloperFlow flow, .fcc .fccVerifyDeviceConfigured4mbedCloud verify,
    .verified (verifyResult flow verify)]

/-- The actions of the `n`-th call of `verify_cloud_config`. -/
def verifyRound (io : FccIo) (n : Nat) : List PdmcAction :=
  verifyActions (io .fccDeveloperFlow n) (io .fccVerifyDeviceConfigured4mbedCloud n)

/-- The `n`-th call of `verify_cloud_config` comes out well. -/
def Provisioned (io : FccIo) (n : Nat) : Prop :=
  Loaded (io .fccDeveloperFlow n) ∧ Configured (io .fccVerifyDeviceConfigured4mbedCloud n)

instance (io : FccIo) (n : Nat) : Decidable (Provisioned io n) := instDecidableAnd

theorem verifyCloudConfig_eq (io : FccIo) (n : Nat) (done : List PdmcAction)
    (hflow : done.countP (PdmcAction.calls .fccDeveloperFlow) = n)
    (hverify : done.countP (PdmcAction.calls .fccVerifyDeviceConfigured4mbedCloud) = n) :
    verifyCloudConfig .developer io done =
      (verifyResult (io .fccDeveloperFlow n) (io .fccVerifyDeviceConfigured4mbedCloud n),
        done ++ verifyRound io n) := by
  have hresult : ∀ flow verify : FccStatus,
      (if verify ≠ .success ∧ verify ≠ .expiredCertificate then (-1 : Int)
        else if flow = .kcmFileExistError then 0 else if flow ≠ .success then -1 else 0) =
        verifyResult flow verify := by
    intro flow verify
    unfold verifyResult Loaded Configured
    cases flow <;> cases verify <;> simp
  have hnext : (done ++ [PdmcAction.fcc .fccDeveloperFlow (io .fccDeveloperFlow n)]).countP
      (PdmcAction.calls .fccVerifyDeviceConfigured4mbedCloud) = n := by
    simp [PdmcAction.calls, hverify]
  unfold verifyCloudConfig
  simp only [fccCall, PdmcBuild.developer_developerMode, hflow, hnext, verifyRound, verifyActions,
    List.append_assoc, List.cons_append, List.nil_append, if_true, ← hresult]

/-! ## PDMC_init, way by way -/

theorem verifyResult_eq_zero (io : FccIo) (n : Nat) :
    verifyResult (io .fccDeveloperFlow n) (io .fccVerifyDeviceConfigured4mbedCloud n) = 0 ↔
      Provisioned io n := by
  simp [verifyResult, Provisioned]

theorem verifyResult_eq_fail (io : FccIo) (n : Nat) :
    verifyResult (io .fccDeveloperFlow n) (io .fccVerifyDeviceConfigured4mbedCloud n) =
      AppStatus.fail.value ↔ ¬ Provisioned io n := by
  rw [← verifyResult_eq_zero]
  unfold verifyResult
  split_ifs <;> simp [AppStatus.value]

/-- `PDMC_init` in developer mode, by what the client returns. -/
theorem pdmcInit_developer (io : FccIo) :
    pdmcInit .developer io =
      if io .fccInit 0 ≠ .success then (.fail, [.fcc .fccInit (io .fccInit 0)])
      else if Provisioned io 0 then
        (.success, .fcc .fccInit .success :: verifyRound io 0 ++ [.newCloudClient])
      else if io .fccStorageDelete 0 ≠ .success then
        (.fail, .fcc .fccInit .success :: verifyRound io 0 ++
          .fcc .fccStorageDelete (io .fccStorageDelete 0) :: [])
      else if Provisioned io 1 then
        (.success, .fcc .fccInit .success :: verifyRound io 0 ++
          .fcc .fccStorageDelete .success :: (verifyRound io 1 ++ [.newCloudClient]))
      else
        (.fail, .fcc .fccInit .success :: verifyRound io 0 ++
          .fcc .fccStorageDelete .success :: verifyRound io 1) := by
  have hround : verifyCloudConfig .developer io [.fcc .fccInit .success] = _ :=
    verifyCloudConfig_eq io 0 _ (by simp [PdmcAction.calls]) (by simp [PdmcAction.calls])
  have hround' : verifyCloudConfig .developer io
      (.fcc .fccInit .success :: (verifyRound io 0 ++ [.fcc .fccStorageDelete .success])) = _ :=
    verifyCloudConfig_eq io 1 _ (by simp [verifyRound, verifyActions, PdmcAction.calls])
      (by simp [verifyRound, verifyActions, PdmcAction.calls])
  have hdelete : (verifyRound io 0).countP (PdmcAction.calls .fccStorageDelete) = 0 := by
    simp [verifyRound, verifyActions, PdmcAction.calls]
  by_cases hinit : io .fccInit 0 = .success
  · by_cases hfirst : Provisioned io 0
    · simp [pdmcInit, fccCall, hinit, hround, verifyResult_eq_zero, hfirst, newCloudClient]
    · by_cases hwipe : io .fccStorageDelete 0 = .success
      · by_cases hsecond : Provisioned io 1 <;>
          simp [pdmcInit, platformResetStorage, fccCall, PdmcAction.calls, hinit, hround,
            verifyResult_eq_zero, hfirst, hdelete, hwipe, hround', verifyResult_eq_fail, hsecond,
            newCloudClient]
      · simp [pdmcInit, platformResetStorage, fccCall, PdmcAction.calls, hinit, hround,
          verifyResult_eq_zero, hfirst, hdelete, hwipe]
  · simp [pdmcInit, fccCall, hinit]

/-! ## the guard -/

/-- What a call of `verify_cloud_config` returned. -/
def PdmcAction.result? : PdmcAction → Option Int
  | .verified result => some result
  | _ => none

/-- Credentials are wiped only when the device is not configured, and the
cloud client is constructed only on a configured device. -/
structure CredentialsGuarded (done : List PdmcAction) : Prop where
  /-- The storage is deleted at most once. -/
  once : done.countP (PdmcAction.calls .fccStorageDelete) ≤ 1
  /-- Before that a verification has found the device not configured. -/
  unconfigured : ∀ pre status post, done = pre ++ .fcc .fccStorageDelete status :: post →
    ∃ verify, .fcc .fccVerifyDeviceConfigured4mbedCloud verify ∈ pre ∧ ¬ Configured verify
  /-- The client is constructed after a good `verify_cloud_config`, and after
  no failed deletion. -/
  client : ∀ pre post, done = pre ++ .newCloudClient :: post →
    (pre.filterMap PdmcAction.result?).getLast? = some 0 ∧
      ∀ status, .fcc .fccStorageDelete status ∈ pre → status = .success

@[simp] theorem storageDelete_notMem_verifyRound (io : FccIo) (n : Nat) (status : FccStatus) :
    .fcc .fccStorageDelete status ∉ verifyRound io n := by
  simp [verifyRound, verifyActions]

@[simp] theorem newCloudClient_notMem_verifyRound (io : FccIo) (n : Nat) :
    .newCloudClient ∉ verifyRound io n := by
  simp [verifyRound, verifyActions]

theorem countP_storageDelete_le (io : FccIo) :
    (pdmcInit .developer io).2.countP (PdmcAction.calls .fccStorageDelete) ≤ 1 := by
  rw [pdmcInit_developer]
  split_ifs <;> simp [verifyRound, verifyActions, PdmcAction.calls]

/-- When the storage is deleted, and after which actions. -/
theorem storageDelete_iff (io : FccIo) (pre : List PdmcAction) :
    (∃ status post, (pdmcInit .developer io).2 = pre ++ .fcc .fccStorageDelete status :: post) ↔
      pre = .fcc .fccInit .success :: verifyRound io 0 ∧ io .fccInit 0 = .success ∧
        ¬ Provisioned io 0 := by
  have hdeleted (wiped : FccStatus) (rest : List PdmcAction)
      (hrest : ∀ status, .fcc .fccStorageDelete status ∉ rest) :
      (∃ status post, .fcc .fccInit .success :: verifyRound io 0 ++
        .fcc .fccStorageDelete wiped :: rest = pre ++ .fcc .fccStorageDelete status :: post) ↔
        pre = .fcc .fccInit .success :: verifyRound io 0 := by
    constructor
    · rintro ⟨status, post, h⟩
      exact ((List.append_cons_inj_of_notMem (by simp) (hrest status)).mp h).1.symm
    · rintro rfl
      exact ⟨wiped, rest, rfl⟩
  rw [pdmcInit_developer]
  split_ifs with hinit hfirst hwipe hsecond
  · simp [List.cons_eq_append_iff, hinit]
  · simp only [hfirst, not_true, and_false, iff_false]
    rintro ⟨status, post, h⟩
    have hmem : .fcc .fccStorageDelete status ∈ pre ++ .fcc .fccStorageDelete status :: post := by
      simp
    simp [← h] at hmem
  · simpa [not_not.mp hinit, hfirst] using hdeleted _ [] (by simp)
  · simpa [not_not.mp hinit, hfirst] using
      hdeleted _ (verifyRound io 1 ++ [.newCloudClient]) (by simp)
  · simpa [not_not.mp hinit, hfirst] using hdeleted _ (verifyRound io 1) (by simp)

theorem verified_of_newCloudClient (io : FccIo) (pre post : List PdmcAction)
    (h : (pdmcInit .developer io).2 = pre ++ .newCloudClient :: post) :
    (pre.filterMap PdmcAction.result?).getLast? = some 0 ∧
      ∀ status, .fcc .fccStorageDelete status ∈ pre → status = .success := by
  have hmem : .newCloudClient ∈ (pdmcInit .developer io).2 := by simp [h]
  have hpre (done : List PdmcAction) (hdone : .newCloudClient ∉ done)
      (heq : done ++ [.newCloudClient] = pre ++ .newCloudClient :: post) : pre = done :=
    ((List.append_cons_inj_of_notMem hdone (by simp)).mp heq).1.symm
  have hresult (n : Nat) (done : List PdmcAction) (hn : Provisioned io n) :
      ((done ++ verifyRound io n).filterMap PdmcAction.result?).getLast? = some 0 := by
    have hzero := (verifyResult_eq_zero io n).mpr hn
    simp [verifyRound, verifyActions, PdmcAction.result?, List.findSome?, hzero]
  rw [pdmcInit_developer] at h hmem
  split_ifs at h hmem with hinit hfirst hwipe hsecond
  · simp at hmem
  · rw [hpre _ (by simp) h]
    exact ⟨hresult 0 [.fcc .fccInit .success] hfirst, by simp⟩
  · simp at hmem
  · rw [hpre (.fcc .fccInit .success :: verifyRound io 0 ++
      .fcc .fccStorageDelete .success :: verifyRound io 1) (by simp) (by simpa using h)]
    refine ⟨?_, by simp⟩
    rw [List.append_cons]
    exact hresult 1 _ hsecond
  · simp at hmem

/-- **The credentials are guarded** exactly when the developer flow does not
fail on a configured device: then the storage is deleted all the same. -/
theorem credentials_guarded_iff (io : FccIo) :
    CredentialsGuarded (pdmcInit .developer io).2 ↔
      (io .fccInit 0 = .success → ¬ Loaded (io .fccDeveloperFlow 0) →
        ¬ Configured (io .fccVerifyDeviceConfigured4mbedCloud 0)) := by
  constructor
  · intro hguarded hinit hflow
    have hfirst : ¬ Provisioned io 0 := fun h => hflow h.1
    obtain ⟨status, post, h⟩ := (storageDelete_iff io _).mpr ⟨rfl, hinit, hfirst⟩
    obtain ⟨verify, hmem, hverify⟩ := hguarded.unconfigured _ status post h
    have heq : verify = io .fccVerifyDeviceConfigured4mbedCloud 0 := by
      simpa [verifyRound, verifyActions] using hmem
    exact heq ▸ hverify
  · intro hcond
    refine ⟨countP_storageDelete_le io, ?_, verified_of_newCloudClient io⟩
    intro pre status post h
    obtain ⟨rfl, hinit, hfirst⟩ := (storageDelete_iff io pre).mp ⟨status, post, h⟩
    refine ⟨io .fccVerifyDeviceConfigured4mbedCloud 0, by simp [verifyRound, verifyActions], ?_⟩
    intro hverify
    exact hcond hinit (fun hflow => hfirst ⟨hflow, hverify⟩) hverify

/-- The developer flow fails with an error code, everything else succeeds. -/
theorem credentials_not_guarded :
    ¬ CredentialsGuarded (pdmcInit .developer
      fun f _ => if f = .fccDeveloperFlow then .other 1 else .success).2 := by
  intro hguarded
  obtain ⟨verify, hmem, hverify⟩ := hguarded.unconfigured
    [.fcc .fccInit .success, .fcc .fccDeveloperFlow (.other 1),
      .fcc .fccVerifyDeviceConfigured4mbedCloud .success, .verified (-1)]
    .success _ rfl
  have heq : verify = .success := by simpa using hmem
  exact hverify (Or.inl heq)

end PelionBorderRouter
