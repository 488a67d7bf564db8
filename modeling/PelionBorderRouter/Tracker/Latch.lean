import PelionBorderRouter.Tracker

/-!
# PelionBorderRouter.Tracker.Latch

The error latch of the tracker.  `error_on_memory_tracker` is set for good
when a library call fails, and the allocating wrappers stop reporting.  The
other entry points do not look at it: the free wrapper asks for
`tracker_disabled`, which nothing ever sets, and the timer steps the
analysis without asking.  So the library is told to free blocks it was
never told of.  `latch_disables_iff` says that this is all there is to it:
the latch does its work exactly in the runs in which, once it is set, no
block is freed and no analysis step is due.
-/

namespace PelionBorderRouter

variable {cfg : TrackerConfig}

/-- The step makes the library call `c`. -/
def Calls (cfg : TrackerConfig) (c : LibCall) (t : Tracker) (e : TrackerEvent) : Prop :=
  ∃ t' calls, Tracker.step cfg t e = some t' ∧ t'.libCalls = t.libCalls ++ calls ∧ c ∈ calls

/-- Once the error is latched, the step makes no library call. -/
def NoCallAfterError (cfg : TrackerConfig) (t : Tracker) (e : TrackerEvent) : Prop :=
  t.errorOnMemoryTracker = true → ∀ t', Tracker.step cfg t e = some t' → t'.libCalls = t.libCalls

/-- An allocating wrapper returns `block`. -/
def ReturnsBlock (block : Handle) (e : TrackerEvent) : Prop :=
  ∃ heap site allocSize io, e = .alloc heap site allocSize io ∧ io.block = some block

/-- A block the step passes to `ns_dyn_mem_tracker_lib_free` was, when it was
allocated last, passed to `ns_dyn_mem_tracker_lib_alloc`. -/
def FreedWasReported (cfg : TrackerConfig) (pre : List TrackerEvent) (t : Tracker)
    (e : TrackerEvent) : Prop :=
  ∀ site block, Calls cfg (.free site (some block)) t e →
    ∀ p u f, (tracker cfg).Latest (fun _ _ e => ReturnsBlock block e) pre p u f →
      ∃ site allocSize, Calls cfg (.alloc site (some block) allocSize) u f

/-- Once the error is latched, the step is no free, and no timer callback with
an analysis step due. -/
def QuietAfterError (t : Tracker) : TrackerEvent → Prop
  | .free _ _ _ => t.errorOnMemoryTracker = false
  | .timer _ => t.errorOnMemoryTracker = true → 0 < t.secondsToStep
  | _ => True

/-! ## one step -/

/-- The calls of a step are the ones `callsOf` lists. -/
theorem calls_iff {c : LibCall} {t t' : Tracker} {e : TrackerEvent}
    (hstep : Tracker.step cfg t e = some t') : Calls cfg c t e ↔ c ∈ callsOf cfg t e := by
  have hcalls := (tracker_step hstep).1
  constructor
  · rintro ⟨t'', calls, hstep', hlog, hc⟩
    obtain rfl : t' = t'' := Option.some.inj (hstep.symm.trans hstep')
    obtain rfl : callsOf cfg t e = calls := List.append_cancel_left (hcalls.symm.trans hlog)
    exact hc
  · exact fun hc => ⟨t', callsOf cfg t e, hstep, hcalls, hc⟩

/-- With the latch set, a step makes no call exactly when it is quiet. -/
theorem noCallAfterError_iff {t t' : Tracker} {e : TrackerEvent}
    (hstep : Tracker.step cfg t e = some t') (hdisabled : t.trackerDisabled = false) :
    NoCallAfterError cfg t e ↔ QuietAfterError t e := by
  have hnone : NoCallAfterError cfg t e ↔
      (t.errorOnMemoryTracker = true → callsOf cfg t e = []) := by
    have hcalls := (tracker_step hstep).1
    simp [NoCallAfterError, hstep, hcalls]
  rw [hnone]
  cases e with
  | init io => simp [callsOf, QuietAfterError]
  | alloc heap site allocSize io => simp +contextual [callsOf, QuietAfterError]
  | free site block libFree => simp [callsOf, QuietAfterError, hdisabled]
  | timer io => simp +contextual [callsOf, QuietAfterError, Nat.pos_iff_ne_zero]

/-- A block that is freed before any error was reported when it was
allocated. -/
theorem freedWasReported_of_quiet {pre : List TrackerEvent} {t t' : Tracker} {e : TrackerEvent}
    (hrun : (tracker cfg).run pre = some t) (hstep : Tracker.step cfg t e = some t')
    (hquiet : QuietAfterError t e) : FreedWasReported cfg pre t e := by
  intro site block hfree p u f hlatest
  obtain ⟨⟨u', htakes⟩, ⟨heap, site', allocSize, io, rfl, hblock⟩, _⟩ := hlatest
  have hnow : t.errorOnMemoryTracker = false := by
    have hmem := (calls_iff hstep).mp hfree
    cases e with
    | init io => simp [callsOf] at hmem
    | alloc heap site allocSize io => simp [callsOf] at hmem
    | free site block libFree => exact hquiet
    | timer io => simp [callsOf] at hmem
  -- the latch was not set at the allocation either
  have hthen : u.errorOnMemoryTracker = false := by
    by_contra hset
    have hset' : u.errorOnMemoryTracker = true := by simpa using hset
    have hlater : t.errorOnMemoryTracker = true :=
      Machine.kept_along (L := fun t : Tracker => t.errorOnMemoryTracker = true)
        (fun _ _ _ hstep herror => errorOnMemoryTracker_stays hstep herror)
        ((List.prefix_append p _).trans htakes.1) htakes.2.1 hset' hrun
    simp [hnow] at hlater
  have hgoes : Tracker.step cfg u (.alloc heap site' allocSize io) = some u' := htakes.2.2
  refine ⟨site', allocSize, (calls_iff hgoes).mpr ?_⟩
  simp [callsOf, hthen, hblock]

/-- **The latch**: in a run no wrapper call and no timer callback makes a
library call once the error is latched, and no block is freed in the
library that was not reported to it, exactly when after the latch no block
is freed and no analysis step is due. -/
theorem latch_disables_iff (cfg : TrackerConfig) (h : List TrackerEvent) :
    (tracker cfg).Always
        (fun pre t e => NoCallAfterError cfg t e ∧ FreedWasReported cfg pre t e) h ↔
      (tracker cfg).Always (fun _ t e => QuietAfterError t e) h := by
  constructor
  · intro hlatch pre t e t' htakes
    have hdisabled := trackerDisabled_eq_false htakes.2.1
    exact (noCallAfterError_iff htakes.2.2 hdisabled).mp (hlatch pre t e t' htakes).1
  · intro hquiet pre t e t' htakes
    have hdisabled := trackerDisabled_eq_false htakes.2.1
    have hq := hquiet pre t e t' htakes
    exact ⟨(noCallAfterError_iff htakes.2.2 hdisabled).mpr hq,
      freedWasReported_of_quiet htakes.2.1 htakes.2.2 hq⟩

/-- The library refuses the block `1`; the block `2` comes after the error. -/
def allocAfterError : List TrackerEvent :=
  [.alloc .nsDynMemAlloc mainSite 8 ⟨some 1, -1⟩, .alloc .nsDynMemAlloc mainSite 8 ⟨some 2, 0⟩]

/-- The block `2` was never reported, and the library is told to free it. -/
theorem unreported_block_freed :
    ¬ (tracker .default).Always (fun _ t e => NoCallAfterError .default t e)
        (allocAfterError ++ [.free mainSite (some 2) 0]) ∧
      ¬ (tracker .default).Always (fun pre t e => FreedWasReported .default pre t e)
        (allocAfterError ++ [.free mainSite (some 2) 0]) := by
  obtain ⟨u, t, hu, ht, hut, huerr, hterr, hdisabled⟩ : ∃ u t,
      (tracker .default).run allocAfterError.dropLast = some u ∧
      (tracker .default).run allocAfterError = some t ∧
      Tracker.step .default u (.alloc .nsDynMemAlloc mainSite 8 ⟨some 2, 0⟩) = some t ∧
      u.errorOnMemoryTracker = true ∧ t.errorOnMemoryTracker = true ∧
      t.trackerDisabled = false := ⟨_, _, rfl, rfl, rfl, rfl, rfl, rfl⟩
  have hgoes : Tracker.step .default t (.free mainSite (some 2) 0) =
      some (nsDynMemTrackerDynMemFree t mainSite (some 2) 0) := rfl
  have htakes : (tracker .default).Takes (allocAfterError ++ [.free mainSite (some 2) 0])
      allocAfterError t (.free mainSite (some 2) 0)
      (nsDynMemTrackerDynMemFree t mainSite (some 2) 0) := ⟨List.prefix_refl _, ht, hgoes⟩
  constructor
  · intro halways
    have hquiet := (noCallAfterError_iff hgoes hdisabled).mp (halways _ _ _ _ htakes)
    simp [QuietAfterError, hterr] at hquiet
  · intro halways
    have hfree : Calls .default (.free mainSite (some 2)) t (.free mainSite (some 2) 0) :=
      (calls_iff hgoes).mpr (by simp [callsOf, hdisabled])
    have hstep : (tracker .default).step u (.alloc .nsDynMemAlloc mainSite 8 ⟨some 2, 0⟩) =
        some t := hut
    have hlatest : (tracker .default).Latest (fun _ _ e => ReturnsBlock 2 e) allocAfterError
        allocAfterError.dropLast u (.alloc .nsDynMemAlloc mainSite 8 ⟨some 2, 0⟩) :=
      (Machine.latest_concat hu hstep).mpr
        (Or.inl ⟨⟨_, _, _, _, rfl, rfl⟩, rfl, rfl, rfl⟩)
    obtain ⟨site, allocSize, hcalls⟩ := halways _ _ _ _ htakes mainSite 2 hfree _ _ _ hlatest
    have hmem := (calls_iff hut).mp hcalls
    simp [callsOf, huerr] at hmem

end PelionBorderRouter
