import Mathlib.Data.List.Basic
import PelionBorderRouter.Tracker

/-!
# PelionBorderRouter.Tracker.Mirror

What the library believes to be allocated.  `tracked` replays the calls the
library got: the pointers reported as allocated and not yet as freed.  They
are to be the blocks live on the heap, each once, whatever addresses are
reused.  But the wrappers do not look at what they report: the `NULL` of an
exhausted heap is handed to the library as an allocated block, and the
`NULL` a client frees as a freed one.  `mirrors_step_iff` says which steps
break the correspondence, and `tracked_mirror_live_iff` that in a run in
which the library refuses nothing these are the only ones, up to a failed
`ns_dyn_mem_tracker_init`, which stops the reporting.
-/

namespace PelionBorderRouter

variable {cfg : TrackerConfig}

/-- What a call changes in the pointers the library holds. -/
def LibCall.track (held : List (Option Handle)) : LibCall → List (Option Handle)
  | .alloc _ block _ => block :: held
  | .free _ block => held.erase block
  | .step => held
  | .allocatorListsUpdate => held

/-- The pointers handed to `ns_dyn_mem_tracker_lib_alloc` and not yet handed to
`ns_dyn_mem_tracker_lib_free`. -/
def tracked (calls : List LibCall) : List (Option Handle) := calls.foldl LibCall.track []

/-- The call hands `NULL` to the library. -/
def LibCall.HandsNull : LibCall → Prop
  | .alloc _ block _ => block = none
  | .free _ block => block = none
  | .step => False
  | .allocatorListsUpdate => False

/-- The tracked pointers are the live blocks, each once, and `NULL` was never
handed over. -/
structure Mirrors (t : Tracker) : Prop where
  perm : (tracked t.libCalls).Perm (t.live.map some)
  once : (tracked t.libCalls).Nodup
  noNull : ∀ c ∈ t.libCalls, ¬ c.HandsNull

/-- The library refuses a call of the step. -/
def LibRefuses (cfg : TrackerConfig) (t : Tracker) : TrackerEvent → Prop
  | .init _ => False
  | .alloc _ _ _ io => t.errorOnMemoryTracker = false ∧ io.libAlloc < 0
  | .free _ _ libFree => t.trackerDisabled = false ∧ libFree < 0
  | .timer io => t.counter = cfg.printInterval - 4 ∧ t.errorOnMemoryTracker = false ∧
      io.listsUpdate < 0

/-- A call of `ns_dyn_mem_tracker_init` that fails. -/
def InitReturnsError (t : Tracker) (e : TrackerEvent) : Prop :=
  ∃ io, e = .init io ∧ (nsDynMemTrackerInit t io).1 ≠ 0

/-- An allocation that fails, or gets a block once the reporting has stopped;
or a free of `NULL`. -/
def Unmirrored (stopped : Prop) : TrackerEvent → Prop
  | .alloc _ _ _ io => io.block = none ↔ ¬ stopped
  | .free _ block _ => block = none
  | _ => False

/-! ## what is tracked -/

theorem tracked_append (calls calls' : List LibCall) :
    tracked (calls ++ calls') = calls'.foldl LibCall.track (tracked calls) :=
  List.foldl_append

/-- What new calls have to keep. -/
theorem mirrors_append_iff {t t' : Tracker} {calls : List LibCall} (ht : Mirrors t)
    (hcalls : t'.libCalls = t.libCalls ++ calls) :
    Mirrors t' ↔ (calls.foldl LibCall.track (tracked t.libCalls)).Perm (t'.live.map some) ∧
      (calls.foldl LibCall.track (tracked t.libCalls)).Nodup ∧ ∀ c ∈ calls, ¬ c.HandsNull := by
  rw [← tracked_append, ← hcalls]
  constructor
  · intro ht'
    refine ⟨ht'.perm, ht'.once, fun c hc => ht'.noNull c ?_⟩
    rw [hcalls]
    exact List.mem_append_right _ hc
  · rintro ⟨hperm, honce, hnew⟩
    refine ⟨hperm, honce, fun c hc => ?_⟩
    rw [hcalls] at hc
    cases List.mem_append.mp hc with
    | inl hold => exact ht.noNull c hold
    | inr hc => exact hnew c hc

/-- Calls that track nothing break nothing. -/
theorem mirrors_of_live_eq {t t' : Tracker} {calls : List LibCall} (ht : Mirrors t)
    (hcalls : t'.libCalls = t.libCalls ++ calls) (hlive : t'.live = t.live)
    (htrack : ∀ c ∈ calls, c = .step ∨ c = .allocatorListsUpdate) : Mirrors t' := by
  have hfold : ∀ held, calls.foldl LibCall.track held = held := by
    clear hcalls
    induction calls with
    | nil => exact fun _ => rfl
    | cons c calls ih =>
        intro held
        have hc : LibCall.track held c = held := by
          cases htrack c (by simp) with
          | inl heq => rw [heq, LibCall.track]
          | inr heq => rw [heq, LibCall.track]
        rw [List.foldl_cons, hc]
        exact ih (fun c' hc' => htrack c' (List.mem_cons_of_mem c hc')) held
  have hnull : ∀ c ∈ calls, ¬ c.HandsNull := by
    intro c hc
    cases htrack c hc with
    | inl heq => simp [heq, LibCall.HandsNull]
    | inr heq => simp [heq, LibCall.HandsNull]
  rw [mirrors_append_iff ht hcalls, hfold, hlive]
  exact ⟨ht.perm, ht.once, hnull⟩

/-! ## one step -/

theorem mem_callsOf_timer {t : Tracker} {io : TimerIo} {c : LibCall}
    (hc : c ∈ callsOf cfg t (.timer io)) : c = .step ∨ c = .allocatorListsUpdate := by
  simp only [callsOf, List.mem_append] at hc
  cases hc with
  | inl hstep =>
      split at hstep
      · simp at hstep
      · exact Or.inl (List.mem_singleton.mp hstep)
  | inr hupdate =>
      split at hupdate
      · exact Or.inr (List.mem_singleton.mp hupdate)
      · simp at hupdate

/-- An allocation keeps the correspondence when its block is reported, or
nothing is allocated and nothing reported. -/
theorem mirrors_alloc_iff {t t' : Tracker} {heap : HeapAlloc} {site : CallSite} {allocSize : Nat}
    {io : AllocIo} (ht : Mirrors t)
    (hstep : Tracker.step cfg t (.alloc heap site allocSize io) = some t') :
    Mirrors t' ↔ ¬ (io.block = none ↔ ¬ t.errorOnMemoryTracker = true) := by
  have hcalls := (tracker_step hstep).1
  obtain ⟨hfresh, rfl⟩ := step_alloc_eq_some.mp hstep
  have hlive : (trackedAlloc t site allocSize io).2.live = io.block.toList ++ t.live := by
    rw [trackedAlloc_eq]
  rw [mirrors_append_iff ht hcalls, hlive, callsOf]
  cases herr : t.errorOnMemoryTracker with
  | true =>
      cases hblock : io.block with
      | none => exact iff_of_true ⟨ht.perm, ht.once, by simp⟩ (by simp)
      | some b =>
          refine iff_of_false (fun hmirrors => ?_) (by simp)
          have hlen := hmirrors.1.length_eq.symm.trans ht.perm.length_eq
          simp at hlen
  | false =>
      cases hblock : io.block with
      | none =>
          refine iff_of_false (fun hmirrors => ?_) (by simp)
          simp [LibCall.HandsNull] at hmirrors
      | some b =>
          have hnew : some b ∉ tracked t.libCalls := by
            rw [ht.perm.mem_iff]
            simpa using hfresh b hblock
          refine iff_of_true ⟨ht.perm.cons (some b), ?_, ?_⟩ (by simp)
          · exact List.nodup_cons.mpr ⟨hnew, ht.once⟩
          · simp [LibCall.HandsNull]

/-- A free keeps the correspondence unless it is one of `NULL`. -/
theorem mirrors_free_iff {t : Tracker} {site : CallSite} {block : Option Handle} {libFree : Int}
    (ht : Mirrors t) (hdisabled : t.trackerDisabled = false) :
    Mirrors (nsDynMemTrackerDynMemFree t site block libFree) ↔ block ≠ none := by
  have hcalls : (nsDynMemTrackerDynMemFree t site block libFree).libCalls =
      t.libCalls ++ [.free site block] := by
    rw [nsDynMemTrackerDynMemFree_eq, hdisabled]
    rfl
  have hlive : (nsDynMemTrackerDynMemFree t site block libFree).live =
      block.elim t.live t.live.erase := by
    rw [nsDynMemTrackerDynMemFree_eq]
  rw [mirrors_append_iff ht hcalls, hlive]
  cases block with
  | none =>
      refine iff_of_false (fun hmirrors => ?_) (by simp)
      simp [LibCall.HandsNull] at hmirrors
  | some b =>
      have hperm : ((tracked t.libCalls).erase (some b)).Perm ((t.live.erase b).map some) := by
        rw [List.map_erase fun _ _ heq => Option.some.inj heq]
        exact ht.perm.erase (some b)
      refine iff_of_true ⟨hperm, ht.once.erase (some b), ?_⟩ (by simp)
      simp [LibCall.HandsNull]

/-- Exactly the steps that are not mirrored break the correspondence. -/
theorem mirrors_step_iff {t t' : Tracker} {e : TrackerEvent} (ht : Mirrors t)
    (hdisabled : t.trackerDisabled = false) (hstep : Tracker.step cfg t e = some t') :
    Mirrors t' ↔ ¬ Unmirrored (t.errorOnMemoryTracker = true) e := by
  have hcalls := (tracker_step hstep).1
  cases e with
  | init io =>
      obtain rfl : (nsDynMemTrackerInit t io).2 = t' := Option.some.inj hstep
      have hlive := congrArg Tracker.live (nsDynMemTrackerInit_eq t io).1
      exact iff_of_true (mirrors_of_live_eq ht hcalls hlive (by simp [callsOf])) id
  | alloc heap site allocSize io => exact mirrors_alloc_iff ht hstep
  | free site block libFree =>
      obtain rfl : nsDynMemTrackerDynMemFree t site block libFree = t' := Option.some.inj hstep
      exact mirrors_free_iff ht hdisabled
  | timer io =>
      obtain rfl : t.nsDynMemTrackerTimerCallback cfg io = t' := Option.some.inj hstep
      have hlive := congrArg Tracker.live (atRest_nsDynMemTrackerTimerCallback cfg t io)
      exact iff_of_true
        (mirrors_of_live_eq ht hcalls hlive fun c hc => mem_callsOf_timer hc) id

/-- Without a refusal of the library only init reports an error. -/
theorem reportsError_iff_initReturnsError {t : Tracker} {e : TrackerEvent}
    (herror : t.errorOnMemoryTracker = false) (hdisabled : t.trackerDisabled = false)
    (hlib : ¬ LibRefuses cfg t e) : reportsError cfg t e = true ↔ InitReturnsError t e := by
  cases e with
  | init io => simp [reportsError, InitReturnsError]
  | alloc heap site allocSize io =>
      simpa [reportsError, InitReturnsError, LibRefuses, herror] using hlib
  | free site block libFree =>
      simpa [reportsError, InitReturnsError, LibRefuses, hdisabled] using hlib
  | timer io => simpa [reportsError, InitReturnsError, LibRefuses, herror] using hlib

/-! ## whole runs -/

/-- In a run in which the library refuses nothing, the error is latched exactly
when a call of init has failed. -/
theorem holds_error_iff_initReturnsError {h : List TrackerEvent}
    (hlib : (tracker cfg).Always (fun _ t e => ¬ LibRefuses cfg t e) h) :
    (tracker cfg).Holds (fun pre t => t.errorOnMemoryTracker = true ↔
      (tracker cfg).Occurs (fun _ t e => InitReturnsError t e) pre) h := by
  refine Machine.holds_of_always ?_ ?_ hlib
  · exact iff_of_false (by simp [tracker, Tracker.init]) Machine.not_occurs_nil
  · intro pre t e t' hrun ih hlib hstep
    rw [(tracker_step hstep).2.1, Bool.or_eq_true, Machine.occurs_concat hrun hstep, ← ih]
    cases herror : t.errorOnMemoryTracker with
    | true => simp
    | false =>
        rw [reportsError_iff_initReturnsError herror (trackerDisabled_eq_false hrun) hlib]

/-- **Mirror**: in a run in which the library refuses nothing, the tracked
pointers are in every state the live blocks, each once, with no `NULL`
handed over, exactly when every allocation gets a block, up to a failed init
and none from then on, and no client frees `NULL`. -/
theorem tracked_mirror_live_iff (cfg : TrackerConfig) {h : List TrackerEvent}
    (hlib : (tracker cfg).Always (fun _ t e => ¬ LibRefuses cfg t e) h) :
    (tracker cfg).Holds (fun _ t => Mirrors t) h ↔
      (tracker cfg).Always (fun pre _ e =>
        ¬ Unmirrored ((tracker cfg).Occurs (fun _ t e => InitReturnsError t e) pre) e) h := by
  have hstart : Mirrors Tracker.init :=
    ⟨List.Perm.refl _, List.nodup_nil, fun c hc => absurd hc List.not_mem_nil⟩
  rw [Machine.holds_iff_always (C := fun _ t e =>
    ¬ Unmirrored (t.errorOnMemoryTracker = true) e) hstart fun pre t e t' hrun ht hstep =>
      mirrors_step_iff ht (trackerDisabled_eq_false hrun) hstep]
  have hlatch := holds_error_iff_initReturnsError hlib
  have hbefore : ∀ {pre t e t'}, (tracker cfg).Takes h pre t e t' →
      (t.errorOnMemoryTracker = true ↔
        (tracker cfg).Occurs (fun _ t e => InitReturnsError t e) pre) :=
    fun htakes => hlatch _ _ ((List.prefix_append _ _).trans htakes.1) htakes.2.1
  constructor
  · intro hsome pre t e t' htakes
    rw [← hbefore htakes]
    exact hsome pre t e t' htakes
  · intro hsome pre t e t' htakes
    rw [hbefore htakes]
    exact hsome pre t e t' htakes

/-- The address of a block that is freed is handed out again. -/
theorem tracked_mirror_live_reuse :
    (tracker .default).Holds (fun _ t => Mirrors t)
      [.alloc .nsDynMemAlloc mainSite 8 ⟨some 1, 0⟩, .free mainSite (some 1) 0,
        .alloc .nsDynMemTemporaryAlloc mainSite 4 ⟨some 1, 0⟩] := by
  refine (tracked_mirror_live_iff .default ?_).mpr ?_
  · intro pre t e t' htakes
    have hmem := htakes.mem
    simp only [List.mem_cons, List.not_mem_nil, or_false] at hmem
    rcases hmem with rfl | rfl | rfl <;> simp [LibRefuses]
  · intro pre t e t' htakes
    have hinit : ¬ (tracker .default).Occurs (fun _ t e => InitReturnsError t e) pre := by
      rintro ⟨_, _, _, _, htakes', io, rfl, _⟩
      have hmem := htakes.1.subset (List.mem_append_left [e] htakes'.mem)
      simp at hmem
    have hmem := htakes.mem
    simp only [List.mem_cons, List.not_mem_nil, or_false] at hmem
    rcases hmem with rfl | rfl | rfl <;> simp [Unmirrored, hinit]

/-- The heap is exhausted, and the library is told of a block at `NULL`. -/
theorem null_block_tracked :
    (tracker .default).Always (fun _ t e => ¬ LibRefuses .default t e)
        [.alloc .nsDynMemAlloc mainSite 8 ⟨none, 0⟩] ∧
      ¬ (tracker .default).Holds (fun _ t => Mirrors t)
        [.alloc .nsDynMemAlloc mainSite 8 ⟨none, 0⟩] := by
  constructor
  · intro pre t e t' htakes
    obtain rfl := List.mem_singleton.mp htakes.mem
    simp [LibRefuses]
  · intro hholds
    have hlast := (hholds _ _ (List.prefix_refl _) rfl).noNull (.alloc mainSite none 8)
    exact hlast (by decide) rfl

end PelionBorderRouter
