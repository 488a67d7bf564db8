import PelionBorderRouter.Pdmc

/-!
# PelionBorderRouter.Pdmc.Builds

`PDMC_init` in all of its sixteen builds.  The macros take calls out
(no developer flow), put one in (`RESET_STORAGE`), or say what follows a
verification that fails: the storage is formatted and the device verified
once more, or the start is given up (`MCC_NO_AUTO_FORMAT`), or it goes on
(`MCC_MINIMAL`).

`PdmcWay` lists the ways through the function, and `pdmc_builds` says what
they have in common: `MCC_MINIMAL` is the only build with the developer flow
that constructs the client of a device it has not found configured.
-/

namespace PelionBorderRouter

variable {build : PdmcBuild} {io : FccIo} {result : AppStatus × List PdmcAction}

/-- The call of `fcc_storage_delete` that formats the storage. -/
def PdmcBuild.formatCall (build : PdmcBuild) : Nat := if build.resetStorage then 1 else 0

/-- How often the build may delete the storage. -/
def PdmcBuild.deletions (build : PdmcBuild) : Nat :=
  if build.developerMode then
    (if build.resetStorage then 1 else 0) +
      if build.mccMinimal || build.mccNoAutoFormat then 0 else 1
  else 0

/-- The actions before the first verification. -/
def opening (build : PdmcBuild) : List PdmcAction :=
  .fcc .fccInit .success ::
    if build.resetStorage then [.fcc .fccStorageDelete .success] else []

/-- They succeed. -/
def Opens (build : PdmcBuild) (io : FccIo) : Prop :=
  io .fccInit 0 = .success ∧ (build.resetStorage = true → io .fccStorageDelete 0 = .success)

/-- The actions that format the storage and verify the device again. -/
def formatRound (io : FccIo) : List PdmcAction :=
  .fcc .fccStorageDelete .success :: verifyRound io 1

/-- The client gets constructed. -/
def Ready (build : PdmcBuild) (io : FccIo) : Prop :=
  build.developerMode = true → Opens build io ∧
    (Provisioned io 0 ∨ build.mccMinimal = true ∨
      build.mccNoAutoFormat = false ∧ io .fccStorageDelete build.formatCall = .success ∧
        Provisioned io 1)

/-! ## the ways through the function -/

/-- What `PDMC_init` returns and does, by the branches it takes. -/
inductive PdmcWay (build : PdmcBuild) (io : FccIo) : AppStatus × List PdmcAction → Prop where
  | noDeveloperFlow (hmode : build.developerMode = false) :
      PdmcWay build io (.success, [.newCloudClient])
  | initFails (hmode : build.developerMode = true) (hinit : io .fccInit 0 ≠ .success) :
      PdmcWay build io (.fail, [.fcc .fccInit (io .fccInit 0)])
  | resetFails (hmode : build.developerMode = true) (hinit : io .fccInit 0 = .success)
      (hreset : build.resetStorage = true) (hdelete : io .fccStorageDelete 0 ≠ .success) :
      PdmcWay build io
        (.fail, [.fcc .fccInit .success, .fcc .fccStorageDelete (io .fccStorageDelete 0)])
  | verified (hmode : build.developerMode = true) (hopens : Opens build io)
      (hfirst : Provisioned io 0 ∨ build.mccMinimal = true) :
      PdmcWay build io (.success, opening build ++ verifyRound io 0 ++ [.newCloudClient])
  | givenUp (hmode : build.developerMode = true) (hopens : Opens build io)
      (hfirst : ¬ Provisioned io 0) (hminimal : build.mccMinimal = false)
      (hformat : build.mccNoAutoFormat = true) :
      PdmcWay build io (.fail, opening build ++ verifyRound io 0)
  | formatFails (hmode : build.developerMode = true) (hopens : Opens build io)
      (hfirst : ¬ Provisioned io 0) (hminimal : build.mccMinimal = false)
      (hformat : build.mccNoAutoFormat = false)
      (hdelete : io .fccStorageDelete build.formatCall ≠ .success) :
      PdmcWay build io (.fail, opening build ++ verifyRound io 0 ++
        [.fcc .fccStorageDelete (io .fccStorageDelete build.formatCall)])
  | formatted (hmode : build.developerMode = true) (hopens : Opens build io)
      (hfirst : ¬ Provisioned io 0) (hminimal : build.mccMinimal = false)
      (hformat : build.mccNoAutoFormat = false)
      (hdelete : io .fccStorageDelete build.formatCall = .success)
      (hsecond : Provisioned io 1) :
      PdmcWay build io
        (.success, opening build ++ verifyRound io 0 ++ formatRound io ++ [.newCloudClient])
  | notConfigured (hmode : build.developerMode = true) (hopens : Opens build io)
      (hfirst : ¬ Provisioned io 0) (hminimal : build.mccMinimal = false)
      (hformat : build.mccNoAutoFormat = false)
      (hdelete : io .fccStorageDelete build.formatCall = .success)
      (hsecond : ¬ Provisioned io 1) :
      PdmcWay build io (.fail, opening build ++ verifyRound io 0 ++ formatRound io)

theorem verifyCloudConfig_of_developerMode (hmode : build.developerMode = true)
    (done : List PdmcAction) :
    verifyCloudConfig build io done = verifyCloudConfig .developer io done := by
  simp [verifyCloudConfig, hmode]

/-- From the first verification on. -/
theorem pdmcInit_of_opens (hmode : build.developerMode = true) (hopens : Opens build io) :
    pdmcInit build io =
      (let (result, done) := verifyCloudConfig .developer io (opening build)
      if result ≠ 0 then
        if build.mccMinimal then newCloudClient done
        else if build.mccNoAutoFormat then (.fail, done)
        else
          let (status, done) := platformResetStorage build io done
          if status ≠ .success then (.fail, done)
          else
            let (result, done) := verifyCloudConfig .developer io done
            if result = AppStatus.fail.value then (.fail, done) else newCloudClient done
      else newCloudClient done) := by
  obtain ⟨hinit, hreset⟩ := hopens
  cases hstorage : build.resetStorage with
  | false => simp [pdmcInit, hmode, fccCall, hinit, hstorage, opening,
      verifyCloudConfig_of_developerMode hmode]
  | true => simp [pdmcInit, hmode, fccCall, hinit, hstorage, opening, platformResetStorage,
      PdmcAction.calls, hreset hstorage, verifyCloudConfig_of_developerMode hmode]

theorem countP_opening (f : FccFunction) :
    (opening build).countP (PdmcAction.calls f) =
      (if f = .fccInit then 1 else 0) +
        if f = .fccStorageDelete then build.formatCall else 0 := by
  unfold opening PdmcBuild.formatCall
  cases f <;> cases build.resetStorage <;> simp [PdmcAction.calls]

theorem countP_verifyRound (f : FccFunction) (n : Nat) :
    (verifyRound io n).countP (PdmcAction.calls f) =
      if f = .fccDeveloperFlow ∨ f = .fccVerifyDeviceConfigured4mbedCloud then 1 else 0 := by
  cases f <;> simp [verifyRound, verifyActions, PdmcAction.calls]

/-- The ways on from the first verification. -/
theorem pdmcInit_way_of_opens (hmode : build.developerMode = true) (hopens : Opens build io) :
    PdmcWay build io (pdmcInit build io) := by
  have hround := verifyCloudConfig_eq io 0 (opening build) (by simp [countP_opening])
    (by simp [countP_opening])
  have hcalls : (opening build ++ verifyRound io 0).countP (PdmcAction.calls .fccStorageDelete) =
      build.formatCall := by
    simp [countP_opening, countP_verifyRound]
  have hround' := verifyCloudConfig_eq io 1
    (opening build ++ verifyRound io 0 ++ [.fcc .fccStorageDelete .success])
    (by simp [countP_opening, countP_verifyRound, PdmcAction.calls])
    (by simp [countP_opening, countP_verifyRound, PdmcAction.calls])
  have heq := pdmcInit_of_opens hmode hopens
  simp only [hround, platformResetStorage, hmode, if_true, fccCall, hcalls] at heq
  by_cases hfirst : Provisioned io 0
  · rw [(verifyResult_eq_zero io 0).mpr hfirst] at heq
    exact heq ▸ .verified hmode hopens (Or.inl hfirst)
  rw [if_pos (mt (verifyResult_eq_zero io 0).mp hfirst)] at heq
  cases hminimal : build.mccMinimal with
  | true =>
      rw [hminimal] at heq
      exact heq ▸ .verified hmode hopens (Or.inr hminimal)
  | false =>
      cases hformat : build.mccNoAutoFormat with
      | true =>
          rw [hminimal, hformat] at heq
          exact heq ▸ .givenUp hmode hopens hfirst hminimal hformat
      | false =>
          simp only [hminimal, hformat, Bool.false_eq_true, if_false] at heq
          by_cases hdelete : io .fccStorageDelete build.formatCall = .success
          · rw [hdelete] at heq
            simp only [hround', ne_eq, not_true, if_false, verifyResult_eq_fail] at heq
            by_cases hsecond : Provisioned io 1
            · rw [if_neg (not_not.mpr hsecond)] at heq
              have hway : PdmcWay build io _ :=
                .formatted hmode hopens hfirst hminimal hformat hdelete hsecond
              simpa [heq, formatRound, newCloudClient] using hway
            · rw [if_pos hsecond] at heq
              have hway : PdmcWay build io _ :=
                .notConfigured hmode hopens hfirst hminimal hformat hdelete hsecond
              simpa [heq, formatRound] using hway
          · rw [if_pos hdelete] at heq
            exact heq ▸ .formatFails hmode hopens hfirst hminimal hformat hdelete

/-- `PDMC_init` goes one of the ways. -/
theorem pdmcInit_way (build : PdmcBuild) (io : FccIo) : PdmcWay build io (pdmcInit build io) := by
  cases hmode : build.developerMode with
  | false =>
      have heq : pdmcInit build io = (.success, [.newCloudClient]) := by
        simp [pdmcInit, hmode, newCloudClient]
      exact heq ▸ .noDeveloperFlow hmode
  | true =>
      by_cases hinit : io .fccInit 0 = .success
      · cases hreset : build.resetStorage with
        | false => exact pdmcInit_way_of_opens hmode ⟨hinit, by simp [hreset]⟩
        | true =>
            by_cases hdelete : io .fccStorageDelete 0 = .success
            · exact pdmcInit_way_of_opens hmode ⟨hinit, fun _ => hdelete⟩
            · have heq : pdmcInit build io = (.fail, [.fcc .fccInit .success,
                  .fcc .fccStorageDelete (io .fccStorageDelete 0)]) := by
                simp [pdmcInit, hmode, fccCall, hinit, hreset, platformResetStorage,
                  PdmcAction.calls, hdelete]
              exact heq ▸ .resetFails hmode hinit hreset hdelete
      · have heq : pdmcInit build io = (.fail, [.fcc .fccInit (io .fccInit 0)]) := by
          simp [pdmcInit, hmode, fccCall, hinit]
        exact heq ▸ .initFails hmode hinit

/-! ## what the ways have in common -/

/-- The action is a call that fails, or a verification that does. -/
def PdmcAction.Failed : PdmcAction → Prop
  | .fcc _ status => status ≠ .success
  | .verified result => result ≠ 0
  | .newCloudClient => False

/-- What a caller of `PDMC_init` can rely on. -/
structure PdmcSound (build : PdmcBuild) (io : FccIo)
    (result : AppStatus × List PdmcAction) : Prop where
  ready : result.1 = .success ↔ Ready build io
  /-- On success the client is constructed, last of all and once. -/
  client : result.1 = .success →
    ∃ pre, result.2 = pre ++ [.newCloudClient] ∧ .newCloudClient ∉ pre
  /-- A failure is that of the last action, and there is no client. -/
  failed : result.1 = .fail →
    ∃ pre a, result.2 = pre ++ [a] ∧ a.Failed ∧ .newCloudClient ∉ pre
  deletions : result.2.countP (PdmcAction.calls .fccStorageDelete) ≤ build.deletions
  /-- Nothing follows a deletion that fails. -/
  stops : ∀ pre status post, result.2 = pre ++ .fcc .fccStorageDelete status :: post →
    status ≠ .success → post = []
  /-- With the developer flow, and without `MCC_MINIMAL`, the client is that of
  a device that has been verified since the last deletion. -/
  verified : build.developerMode = true → build.mccMinimal = false → result.1 = .success →
    ∃ pre post, result.2 = pre ++ .verified 0 :: post ∧
      ∀ status, .fcc .fccStorageDelete status ∉ post

theorem newCloudClient_notMem_opening : .newCloudClient ∉ opening build := by
  unfold opening
  cases build.resetStorage <;> simp

theorem eq_success_of_mem_opening {f : FccFunction} {status : FccStatus}
    (h : .fcc f status ∈ opening build) : status = .success := by
  unfold opening at h
  cases hreset : build.resetStorage <;> simp [hreset] at h
  · exact h.2
  · exact h.elim And.right And.right

/-- The last action of a verification is its result; the ones before are
calls. -/
theorem exists_verifyRound_eq (io : FccIo) (n : Nat) :
    ∃ pre r, verifyRound io n = pre ++ [.verified r] ∧ .newCloudClient ∉ pre ∧
      (r = 0 ↔ Provisioned io n) :=
  ⟨[_, _], _, rfl, by simp, verifyResult_eq_zero io n⟩

/-- Nothing comes after the first `x` when that is the last of all. -/
theorem eq_nil_of_concat_eq {front pre post : List PdmcAction} {a x : PdmcAction}
    (h : front ++ [a] = pre ++ x :: post) (hx : x ∉ front) : post = [] := by
  cases List.eq_nil_or_concat post with
  | inl hnil => exact hnil
  | inr hconcat =>
      obtain ⟨post', b, rfl⟩ := hconcat
      have hassoc : front ++ [a] = (pre ++ x :: post') ++ [b] := by simpa using h
      have hfront : front = pre ++ x :: post' := (List.append_inj' hassoc rfl).1
      exact absurd (hfront ▸ by simp) hx

namespace PdmcWay

theorem ready (h : PdmcWay build io result) : result.1 = .success ↔ Ready build io := by
  cases h with
  | noDeveloperFlow hmode => exact iff_of_true rfl fun h => absurd h (by simp [hmode])
  | initFails hmode hinit => exact iff_of_false (by simp) fun h => hinit (h hmode).1.1
  | resetFails hmode hinit hreset hdelete =>
      exact iff_of_false (by simp) fun h => hdelete ((h hmode).1.2 hreset)
  | verified hmode hopens hfirst =>
      exact iff_of_true rfl fun _ => ⟨hopens, hfirst.imp_right Or.inl⟩
  | givenUp hmode hopens hfirst hminimal hformat =>
      exact iff_of_false (by simp) fun h => by simpa [hfirst, hminimal, hformat] using (h hmode).2
  | formatFails hmode hopens hfirst hminimal hformat hdelete =>
      exact iff_of_false (by simp) fun h => by simpa [hfirst, hminimal, hdelete] using (h hmode).2
  | formatted hmode hopens hfirst hminimal hformat hdelete hsecond =>
      exact iff_of_true rfl fun _ => ⟨hopens, Or.inr (Or.inr ⟨hformat, hdelete, hsecond⟩)⟩
  | notConfigured hmode hopens hfirst hminimal hformat hdelete hsecond =>
      exact iff_of_false (by simp) fun h => by simpa [hfirst, hminimal, hsecond] using (h hmode).2

theorem client (h : PdmcWay build io result) (hsuccess : result.1 = .success) :
    ∃ pre, result.2 = pre ++ [.newCloudClient] ∧ .newCloudClient ∉ pre := by
  cases h with
  | noDeveloperFlow hmode => exact ⟨[], rfl, by simp⟩
  | verified hmode hopens hfirst => exact ⟨_, rfl, by simp [newCloudClient_notMem_opening]⟩
  | formatted hmode hopens hfirst hminimal hformat hdelete hsecond =>
      exact ⟨_, rfl, by simp [newCloudClient_notMem_opening, formatRound]⟩
  | _ => cases hsuccess

theorem failed (h : PdmcWay build io result) (hfail : result.1 = .fail) :
    ∃ pre a, result.2 = pre ++ [a] ∧ a.Failed ∧ .newCloudClient ∉ pre := by
  cases h with
  | initFails hmode hinit => exact ⟨[], _, rfl, hinit, by simp⟩
  | resetFails hmode hinit hreset hdelete => exact ⟨[_], _, rfl, hdelete, by simp⟩
  | givenUp hmode hopens hfirst hminimal hformat =>
      obtain ⟨pre, r, hround, hnot, hr⟩ := exists_verifyRound_eq io 0
      refine ⟨opening build ++ pre, .verified r, by rw [hround, List.append_assoc],
        mt hr.mp hfirst, ?_⟩
      simp [newCloudClient_notMem_opening, hnot]
  | formatFails hmode hopens hfirst hminimal hformat hdelete =>
      exact ⟨_, _, rfl, hdelete, by simp [newCloudClient_notMem_opening]⟩
  | notConfigured hmode hopens hfirst hminimal hformat hdelete hsecond =>
      obtain ⟨pre, r, hround, hnot, hr⟩ := exists_verifyRound_eq io 1
      refine ⟨opening build ++ verifyRound io 0 ++ .fcc .fccStorageDelete .success :: pre,
        .verified r, by simp [formatRound, hround], mt hr.mp hsecond, ?_⟩
      simp [newCloudClient_notMem_opening, hnot]
  | _ => cases hfail

theorem deletions (h : PdmcWay build io result) :
    result.2.countP (PdmcAction.calls .fccStorageDelete) ≤ build.deletions := by
  cases h with
  | noDeveloperFlow hmode => simp [PdmcBuild.deletions, hmode, PdmcAction.calls]
  | initFails hmode hinit => simp [PdmcAction.calls]
  | resetFails hmode hinit hreset hdelete =>
      simp [PdmcBuild.deletions, hmode, hreset, PdmcAction.calls]
  | verified hmode hopens hfirst =>
      simp [PdmcBuild.deletions, hmode, countP_opening, countP_verifyRound, PdmcBuild.formatCall,
        PdmcAction.calls]
  | givenUp hmode hopens hfirst hminimal hformat =>
      simp [PdmcBuild.deletions, hmode, countP_opening, countP_verifyRound, PdmcBuild.formatCall]
  | formatFails hmode hopens hfirst hminimal hformat hdelete =>
      simp [PdmcBuild.deletions, hmode, hminimal, hformat, countP_opening, countP_verifyRound,
        PdmcBuild.formatCall, PdmcAction.calls]
  | formatted hmode hopens hfirst hminimal hformat hdelete hsecond =>
      simp [PdmcBuild.deletions, hmode, hminimal, hformat, countP_opening, countP_verifyRound,
        PdmcBuild.formatCall, PdmcAction.calls, formatRound]
  | notConfigured hmode hopens hfirst hminimal hformat hdelete hsecond =>
      simp [PdmcBuild.deletions, hmode, hminimal, hformat, countP_opening, countP_verifyRound,
        PdmcBuild.formatCall, PdmcAction.calls, formatRound]

theorem stops (h : PdmcWay build io result) {pre post : List PdmcAction} {status : FccStatus}
    (hdone : result.2 = pre ++ .fcc .fccStorageDelete status :: post)
    (hstatus : status ≠ .success) : post = [] := by
  have hopening : .fcc .fccStorageDelete status ∉ opening build :=
    fun hmem => hstatus (eq_success_of_mem_opening hmem)
  have hmem : .fcc .fccStorageDelete status ∈ result.2 := by simp [hdone]
  cases h with
  | resetFails hmode hinit hreset hdelete =>
      have hsplit : [PdmcAction.fcc .fccInit .success] ++ [_] = _ := hdone
      exact eq_nil_of_concat_eq hsplit (by simp)
  | formatFails hmode hopens hfirst hminimal hformat hdelete =>
      exact eq_nil_of_concat_eq hdone (by simp [hopening])
  | _ => simp [hopening, hstatus, formatRound] at hmem

theorem verified_last (h : PdmcWay build io result) (hmode : build.developerMode = true)
    (hminimal : build.mccMinimal = false) (hsuccess : result.1 = .success) :
    ∃ pre post, result.2 = pre ++ .verified 0 :: post ∧
      ∀ status, .fcc .fccStorageDelete status ∉ post := by
  cases h with
  | noDeveloperFlow hmode' => exact absurd hmode (by simp [hmode'])
  | verified _ hopens hfirst =>
      obtain ⟨pre, r, hround, _, hr⟩ := exists_verifyRound_eq io 0
      obtain rfl : r = 0 := hr.mpr (hfirst.resolve_right (by simp [hminimal]))
      exact ⟨opening build ++ pre, [.newCloudClient], by simp [hround], by simp⟩
  | formatted _ hopens hfirst _ hformat hdelete hsecond =>
      obtain ⟨pre, r, hround, _, hr⟩ := exists_verifyRound_eq io 1
      obtain rfl : r = 0 := hr.mpr hsecond
      exact ⟨opening build ++ verifyRound io 0 ++ .fcc .fccStorageDelete .success :: pre,
        [.newCloudClient], by simp [formatRound, hround], by simp⟩
  | _ => cases hsuccess

end PdmcWay

/-- **Every build**: whatever the factory configurator client returns,
`PDMC_init` is sound. -/
theorem pdmc_builds (build : PdmcBuild) (io : FccIo) : PdmcSound build io (pdmcInit build io) where
  ready := (pdmcInit_way build io).ready
  client := (pdmcInit_way build io).client
  failed := (pdmcInit_way build io).failed
  deletions := (pdmcInit_way build io).deletions
  stops := fun _ _ _ => (pdmcInit_way build io).stops
  verified := (pdmcInit_way build io).verified_last

end PelionBorderRouter
