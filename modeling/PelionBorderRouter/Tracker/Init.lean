import PelionBorderRouter.Tracker

/-!
# PelionBorderRouter.Tracker.Init

What a return value of `ns_dyn_mem_tracker_init` is worth.  The function sets
its done-flag before the five things that can fail, and a later call looks
at nothing else: it returns `0` and leaves what is missing missing.  So a
call reports truly, and finishes what it can, exactly when no call before
it has failed (`init_sound_iff`).
-/

namespace PelionBorderRouter

variable {cfg : TrackerConfig}

/-- The lists are allocated, the event queue is there, and exactly one timer
is registered. -/
def InitComplete (t : Tracker) : Prop :=
  (∀ list, t.allocators list ≠ none) ∧ t.equeue ≠ none ∧
    t.queue.count .nsDynMemTrackerTimerCallback = 1

/-- Everything the function asks for is available. -/
def InitIo.Available (io : InitIo) : Prop :=
  (∀ list, io.malloc list ≠ none) ∧ io.mbedEventQueue ≠ none ∧ io.callEvery = true

/-- The call returns `0` exactly if the tracker is complete afterwards, keeps
the lists that are allocated, and completes the tracker when it gets what
it asks for. -/
def InitSound (t : Tracker) (io : InitIo) : Prop :=
  ((nsDynMemTrackerInit t io).1 = 0 ↔ InitComplete (nsDynMemTrackerInit t io).2) ∧
    (∀ list p, t.allocators list = some p →
      (nsDynMemTrackerInit t io).2.allocators list = some p) ∧
    (io.Available → InitComplete (nsDynMemTrackerInit t io).2)

/-- The first call of the function, and something it asks for is not
available. -/
def FailsInit (t : Tracker) (e : TrackerEvent) : Prop :=
  t.trackerInitDone = false ∧ ∃ io, e = .init io ∧ ¬ io.Available

theorem AllocatorList.forall_iff {P : AllocatorList → Prop} :
    (∀ list, P list) ↔ P .top ∧ P .permanent ∧ P .toPermanent := by
  constructor
  · exact fun h => ⟨h .top, h .permanent, h .toPermanent⟩
  · intro h list
    cases list with
    | top => exact h.1
    | permanent => exact h.2.1
    | toPermanent => exact h.2.2

/-! ## one call -/

/-- A call after the first one does nothing. -/
theorem nsDynMemTrackerInit_of_done {t : Tracker} (h : t.trackerInitDone = true) (io : InitIo) :
    nsDynMemTrackerInit t io = (0, t) := if_pos h

/-- Without an event queue the end of the function fails. -/
theorem startTimer_of_no_queue (t : Tracker) {io : InitIo} (h : io.mbedEventQueue = none) :
    startTimer t io = (-1, { t with equeue := none, errorOnMemoryTracker := true }) := by
  simp [startTimer, h, Tracker.latch]

/-- With one it registers the timer, if the queue has memory for it. -/
theorem startTimer_of_queue {t : Tracker} {io : InitIo} {q : Handle}
    (h : io.mbedEventQueue = some q) (hnext : t.queue.nextId ≠ 0) :
    startTimer t io =
      if io.callEvery = true then
        (0, { t with
          equeue := some q
          equeueEventIdentifier := t.queue.nextId
          queue := t.queue.push .nsDynMemTrackerTimerCallback 1000 true })
      else (-1, { t with
        equeue := some q
        equeueEventIdentifier := 0
        errorOnMemoryTracker := true }) := by
  unfold startTimer Tracker.callEvery EventQueue.callEvery Tracker.latch
  cases hcall : io.callEvery with
  | false => simp [h]
  | true => simp [h, hnext]

/-- The end of a first call: it succeeds exactly when the timer is registered. -/
theorem startTimer_of_fresh {t : Tracker} (hqueue : t.queue = EventQueue.empty TrackerCallback)
    (hlists : ∀ list, t.allocators list ≠ none) (io : InitIo) :
    (startTimer t io).2.trackerInitDone = t.trackerInitDone ∧
      ((startTimer t io).1 = 0 ↔ io.mbedEventQueue ≠ none ∧ io.callEvery = true) ∧
      (InitComplete (startTimer t io).2 ↔ io.mbedEventQueue ≠ none ∧ io.callEvery = true) := by
  have hnext : t.queue.nextId ≠ 0 := by rw [hqueue]; decide
  have hcount : t.queue.count .nsDynMemTrackerTimerCallback = 0 := by
    rw [hqueue, EventQueue.count_empty]
  cases hequeue : io.mbedEventQueue with
  | none =>
      rw [startTimer_of_no_queue t hequeue]
      simp [InitComplete]
  | some q =>
      rw [startTimer_of_queue hequeue hnext]
      have hkept : ∀ list, Tracker.allocators { t with
          equeue := some q
          equeueEventIdentifier := t.queue.nextId
          queue := t.queue.push .nsDynMemTrackerTimerCallback 1000 true } list ≠ none := hlists
      cases hcall : io.callEvery with
      | false => simp [InitComplete, hcount]
      | true => simp [InitComplete, hkept, EventQueue.count_push, hcount]

/-- A first call asks for the three lists, one after the other, and then for the
timer. -/
theorem nsDynMemTrackerInit_first {t : Tracker} (hdone : t.trackerInitDone = false)
    (hlists : ∀ list, t.allocators list = none) (io : InitIo) :
    nsDynMemTrackerInit t io =
      let t₁ := { t with trackerInitDone := true, topAllocators := io.malloc .top }
      let t₂ := { t₁ with permanentAllocators := io.malloc .permanent }
      let t₃ := { t₂ with toPermanentAllocators := io.malloc .toPermanent }
      if io.malloc .top = none then (-1, t₁.latch)
      else if io.malloc .permanent = none then (-1, t₂.latch)
      else if io.malloc .toPermanent = none then (-1, t₃.latch) else startTimer t₃ io := by
  obtain ⟨htop, hperm, htoPerm⟩ := AllocatorList.forall_iff.mp hlists
  have htop' : t.topAllocators = none := htop
  have hperm' : t.permanentAllocators = none := hperm
  have htoPerm' : t.toPermanentAllocators = none := htoPerm
  simp [nsDynMemTrackerInit, hdone, Tracker.allocateList, Tracker.allocators,
    Tracker.setAllocators, htop', hperm', htoPerm']

/-- A first call succeeds exactly when it gets what it asks for, and then
exactly the tracker is complete. -/
theorem nsDynMemTrackerInit_of_fresh {t : Tracker} (hdone : t.trackerInitDone = false)
    (hlists : ∀ list, t.allocators list = none)
    (hqueue : t.queue = EventQueue.empty TrackerCallback) (io : InitIo) :
    (nsDynMemTrackerInit t io).2.trackerInitDone = true ∧
      ((nsDynMemTrackerInit t io).1 = 0 ↔ io.Available) ∧
      (InitComplete (nsDynMemTrackerInit t io).2 ↔ io.Available) := by
  rw [nsDynMemTrackerInit_first hdone hlists io]
  -- the first list that gets no memory ends the call
  by_cases htop : io.malloc .top = none
  · simp [htop, Tracker.latch, InitComplete, InitIo.Available, AllocatorList.forall_iff,
      Tracker.allocators]
  by_cases hperm : io.malloc .permanent = none
  · simp [htop, hperm, Tracker.latch, InitComplete, InitIo.Available, AllocatorList.forall_iff,
      Tracker.allocators]
  by_cases htoPerm : io.malloc .toPermanent = none
  · simp [htop, hperm, htoPerm, Tracker.latch, InitComplete, InitIo.Available,
      AllocatorList.forall_iff, Tracker.allocators]
  have hmalloc : ∀ list, io.malloc list ≠ none :=
    AllocatorList.forall_iff.mpr ⟨htop, hperm, htoPerm⟩
  let t' := { t with
    trackerInitDone := true
    topAllocators := io.malloc .top
    permanentAllocators := io.malloc .permanent
    toPermanentAllocators := io.malloc .toPermanent }
  have hlists' : ∀ list, t'.allocators list ≠ none :=
    AllocatorList.forall_iff.mpr ⟨htop, hperm, htoPerm⟩
  obtain ⟨hdone', hret, hcomplete⟩ := startTimer_of_fresh (t := t') hqueue hlists' io
  have havailable : io.Available ↔ io.mbedEventQueue ≠ none ∧ io.callEvery = true :=
    and_iff_right hmalloc
  simp only [htop, hperm, htoPerm, if_false]
  exact ⟨hdone', hret.trans havailable.symm, hcomplete.trans havailable.symm⟩

/-! ## one step -/

/-- Only init changes what it sets up. -/
theorem setup_step {t t' : Tracker} {e : TrackerEvent} (hstep : Tracker.step cfg t e = some t')
    (he : ∀ io, e ≠ .init io) :
    t'.trackerInitDone = t.trackerInitDone ∧ t'.queue = t.queue ∧
      t'.allocators = t.allocators ∧ t'.equeue = t.equeue := by
  cases e with
  | init io => exact absurd rfl (he io)
  | alloc heap site allocSize io =>
      obtain ⟨_, rfl⟩ := step_alloc_eq_some.mp hstep
      rw [trackedAlloc_eq]
      exact ⟨rfl, rfl, rfl, rfl⟩
  | free site block libFree =>
      obtain rfl : nsDynMemTrackerDynMemFree t site block libFree = t' := Option.some.inj hstep
      rw [nsDynMemTrackerDynMemFree_eq]
      exact ⟨rfl, rfl, rfl, rfl⟩
  | timer io =>
      obtain rfl : t.nsDynMemTrackerTimerCallback cfg io = t' := Option.some.inj hstep
      have hrest := atRest_nsDynMemTrackerTimerCallback cfg t io
      have hdone := congrArg Tracker.trackerInitDone hrest
      have hqueue := congrArg Tracker.queue hrest
      have hlists := congrArg Tracker.allocators hrest
      have hequeue := congrArg Tracker.equeue hrest
      exact ⟨hdone, hqueue, hlists, hequeue⟩

/-- What the calls of init have left. -/
structure InitTraced (cfg : TrackerConfig) (pre : List TrackerEvent) (t : Tracker) : Prop where
  fresh : t.trackerInitDone = false →
    (∀ list, t.allocators list = none) ∧ t.queue = EventQueue.empty TrackerCallback
  failed : t.trackerInitDone = true ∧ ¬ InitComplete t ↔
    (tracker cfg).Occurs (fun _ t e => FailsInit t e) pre

theorem initTraced_step {pre : List TrackerEvent} {t t' : Tracker} {e : TrackerEvent}
    (ht : InitTraced cfg pre t) (hrun : (tracker cfg).run pre = some t)
    (hstep : (tracker cfg).step t e = some t') : InitTraced cfg (pre ++ [e]) t' := by
  have hoccurs := Machine.occurs_concat (J := fun _ t e => FailsInit t e) hrun hstep
  by_cases he : ∃ io, e = .init io
  · obtain ⟨io, rfl⟩ := he
    obtain rfl : (nsDynMemTrackerInit t io).2 = t' := Option.some.inj hstep
    cases hdone : t.trackerInitDone with
    | true =>
        have hno : ¬ FailsInit t (.init io) := by simp [FailsInit, hdone]
        rw [nsDynMemTrackerInit_of_done hdone] at *
        exact ⟨ht.fresh, by rw [hoccurs, or_iff_left hno, ht.failed]⟩
    | false =>
        obtain ⟨hlists, hqueue⟩ := ht.fresh hdone
        obtain ⟨hdone', _, hcomplete⟩ := nsDynMemTrackerInit_of_fresh hdone hlists hqueue io
        have hbefore : ¬ (tracker cfg).Occurs (fun _ t e => FailsInit t e) pre := by
          rw [← ht.failed, hdone]
          simp
        have hfails : FailsInit t (.init io) ↔ ¬ io.Available := by simp [FailsInit, hdone]
        refine ⟨fun h => absurd (hdone'.symm.trans h) (by decide), ?_⟩
        rw [hoccurs, or_iff_right hbefore, hfails, hcomplete]
        exact and_iff_right hdone'
  · obtain ⟨hdone, hqueue, hlists, hequeue⟩ := setup_step hstep (not_exists.mp he)
    have hno : ¬ FailsInit t e := fun h => he (h.2.imp fun _ h => h.1)
    have hsame : InitComplete t' ↔ InitComplete t := by
      simp only [InitComplete, hlists, hqueue, hequeue]
    constructor
    · rw [hdone, hlists, hqueue]
      exact ht.fresh
    · rw [hdone, hsame, hoccurs, or_iff_left hno]
      exact ht.failed

theorem initTraced {pre : List TrackerEvent} {t : Tracker} (hrun : (tracker cfg).run pre = some t) :
    InitTraced cfg pre t := by
  refine (tracker cfg).invariant (R := InitTraced cfg) ?_
    (fun _ _ _ _ hrun ht hstep => initTraced_step ht hrun hstep) hrun
  have hfresh : ∀ list, Tracker.init.allocators list = none := by
    simp [AllocatorList.forall_iff, Tracker.init, Tracker.allocators]
  exact ⟨fun _ => ⟨hfresh, rfl⟩, iff_of_false (by simp [tracker, Tracker.init])
    Machine.not_occurs_nil⟩

/-! ## every call -/

/-- A call is sound exactly when it is the first one, or finds the tracker
complete. -/
theorem initSound_call_iff {pre : List TrackerEvent} {t : Tracker} (ht : InitTraced cfg pre t)
    (io : InitIo) : InitSound t io ↔ ¬ (t.trackerInitDone = true ∧ ¬ InitComplete t) := by
  unfold InitSound
  cases hdone : t.trackerInitDone with
  | true =>
      rw [nsDynMemTrackerInit_of_done hdone]
      simp +contextual
  | false =>
      obtain ⟨hlists, hqueue⟩ := ht.fresh hdone
      obtain ⟨_, hret, hcomplete⟩ := nsDynMemTrackerInit_of_fresh hdone hlists hqueue io
      rw [hret, hcomplete]
      simp [hlists]

/-- **Initialisation**: every call of `ns_dyn_mem_tracker_init` in a run is
sound exactly when none comes after one that failed. -/
theorem init_sound_iff (cfg : TrackerConfig) (h : List TrackerEvent) :
    (tracker cfg).Always (fun _ t e => ∀ io, e = .init io → InitSound t io) h ↔
      (tracker cfg).Always (fun pre _ e => (∃ io, e = .init io) →
        ¬ (tracker cfg).Occurs (fun _ t e => FailsInit t e) pre) h := by
  have hcall : ∀ pre t io, (tracker cfg).run pre = some t → (InitSound t io ↔
      ¬ (tracker cfg).Occurs (fun _ t e => FailsInit t e) pre) := by
    intro pre t io hrun
    have ht := initTraced hrun
    rw [initSound_call_iff ht, ht.failed]
  constructor
  · intro hsound pre t e t' htakes
    rintro ⟨io, rfl⟩
    exact (hcall pre t io htakes.2.1).mp (hsound pre t _ t' htakes io rfl)
  · intro hfirst pre t e t' htakes io he
    exact (hcall pre t io htakes.2.1).mpr (hfirst pre t e t' htakes ⟨io, he⟩)

/-- The first call gets no memory; the second one gets everything, and returns
`0` with nothing set up. -/
theorem second_init_reports_success :
    ¬ (tracker .default).Always (fun _ t e => ∀ io, e = .init io → InitSound t io)
      [.init ⟨fun _ => none, some 1, true⟩, .init ⟨fun _ => some 2, some 1, true⟩] := by
  intro hsound
  have hlast := hsound [.init ⟨fun _ => none, some 1, true⟩] _
    (.init ⟨fun _ => some 2, some 1, true⟩) _ ⟨List.prefix_refl _, rfl, rfl⟩ _ rfl
  have hcomplete := hlast.1.mp rfl
  exact hcomplete.1 .top rfl

end PelionBorderRouter
