import Mathlib.Data.Nat.ModEq
import PelionBorderRouter.Tracker.Latch
import PelionBorderRouter.Tracker.Report

/-!
# PelionBorderRouter.Tracker.Timer

The timer of the tracker.  `ns_dyn_mem_tracker_timer_callback` is called
once a second and counts twice: `seconds_to_step` down to the next analysis
step, and `counter` up to the next report.  Both counts take one callback
more than they are set to, the one that resets them:

* `libCalls_count_step` — an analysis step comes every 11 callbacks, not
  every `ONE_STEP_IN_SECONDS`;
* `timers_of_summary` — a report comes every `PRINT_INTERVAL + 1`
  callbacks.
-/

namespace PelionBorderRouter

variable {cfg : TrackerConfig}

/-- How a step moves the two counters. -/
theorem counters_step {t t' : Tracker} {e : TrackerEvent}
    (hstep : Tracker.step cfg t e = some t') :
    t'.counter =
        (if e.isTimer then if t.counter = cfg.printInterval then 0 else t.counter + 1
        else t.counter) ∧
      t'.secondsToStep =
        if e.isTimer then if 0 < t.secondsToStep then t.secondsToStep - 1 else oneStepInSeconds
        else t.secondsToStep := by
  cases he : e.isTimer with
  | false =>
      obtain ⟨hcounter, hseconds, _⟩ := step_of_not_isTimer hstep he
      exact ⟨hcounter, hseconds⟩
  | true =>
      obtain ⟨io, rfl⟩ := exists_eq_timer he
      obtain rfl : t.nsDynMemTrackerTimerCallback cfg io = t' := Option.some.inj hstep
      obtain ⟨hcounter, hseconds, _⟩ := nsDynMemTrackerTimerCallback_report cfg t io
      exact ⟨hcounter, hseconds⟩

/-! ## the analysis steps -/

/-- A step of the run makes an analysis step when the timer calls back with
nothing left of `seconds_to_step`. -/
theorem callsOf_count_step (t : Tracker) (e : TrackerEvent) :
    (callsOf cfg t e).count .step = if e.isTimer ∧ t.secondsToStep = 0 then 1 else 0 := by
  cases e with
  | init io => simp [callsOf, TrackerEvent.isTimer]
  | alloc heap site allocSize io =>
      cases herr : t.errorOnMemoryTracker <;> simp [callsOf, TrackerEvent.isTimer, herr]
  | free site block libFree =>
      cases hdis : t.trackerDisabled <;> simp [callsOf, TrackerEvent.isTimer, hdis]
  | timer io =>
      have hupdate : (if t.counter = cfg.printInterval - 4 ∧ t.errorOnMemoryTracker = false then
          [LibCall.allocatorListsUpdate] else []).count .step = 0 := by
        split <;> simp
      simp only [callsOf, List.count_append, hupdate, TrackerEvent.isTimer]
      cases t.secondsToStep <;> simp

/-- The countdown: `seconds_to_step` callbacks are left of the 11 of this
step. -/
theorem timers_add_secondsToStep {h : List TrackerEvent} {t : Tracker}
    (hrun : (tracker cfg).run h = some t) :
    timers h + t.secondsToStep =
        (oneStepInSeconds + 1) * t.libCalls.count .step + oneStepInSeconds ∧
      t.secondsToStep ≤ oneStepInSeconds := by
  refine (tracker cfg).invariant (R := fun h t => timers h + t.secondsToStep =
    (oneStepInSeconds + 1) * t.libCalls.count .step + oneStepInSeconds ∧
      t.secondsToStep ≤ oneStepInSeconds) ⟨rfl, le_refl _⟩ ?_ hrun
  intro pre t e t' _ ih hstep
  obtain ⟨hcount, hle⟩ := ih
  have hcalls : t'.libCalls = t.libCalls ++ callsOf cfg t e := (tracker_step hstep).1
  rw [timers_concat, hcalls, List.count_append, callsOf_count_step, (counters_step hstep).2]
  unfold oneStepInSeconds at *
  cases e.isTimer with
  | false => simpa using ⟨hcount, hle⟩
  | true =>
      by_cases hzero : t.secondsToStep = 0
      · simp [hzero] at hcount ⊢
        omega
      · simp [hzero, Nat.pos_of_ne_zero hzero]
        omega

/-- After `n` callbacks `n / 11` analysis steps are done. -/
theorem libCalls_count_step {h : List TrackerEvent} {t : Tracker}
    (hrun : (tracker cfg).run h = some t) :
    t.libCalls.count .step = timers h / (oneStepInSeconds + 1) := by
  obtain ⟨hcount, hle⟩ := timers_add_secondsToStep hrun
  unfold oneStepInSeconds at *
  omega

/-- **One step in seconds**: the analysis steps of a run number a tenth of the
callbacks exactly as long as the callbacks lost on resetting the countdown do
not add up to a whole step. -/
theorem steps_eq_iff (cfg : TrackerConfig) (h : List TrackerEvent) :
    (tracker cfg).Holds (fun pre t =>
      t.libCalls.count .step = timers pre / oneStepInSeconds ↔
        timers pre / oneStepInSeconds ≤ timers pre % oneStepInSeconds) h := by
  intro pre t _ hrun
  have hcount := libCalls_count_step hrun
  unfold oneStepInSeconds at *
  omega

/-- A callback that finds the lists empty. -/
def idleTimer : TrackerEvent :=
  .timer ⟨0, ⟨0, 0, 0, 0⟩, fun _ _ => ⟨none, 0, 0, 0, mainSite.function, 0⟩⟩

theorem timers_idle (n : Nat) : timers (List.replicate n idleTimer) = n := by
  have hidle : idleTimer.isTimer = true := rfl
  simp [timers, List.countP_replicate, hidle]

/-- The timer can always call back. -/
theorem exists_run_idle (cfg : TrackerConfig) (n : Nat) :
    ∃ t, (tracker cfg).run (List.replicate n idleTimer) = some t := by
  induction n with
  | zero => exact ⟨_, rfl⟩
  | succ n ih =>
      obtain ⟨t, hrun⟩ := ih
      rw [List.replicate_succ', Machine.run_concat, hrun]
      exact ⟨_, rfl⟩

/-- After ten callbacks the first analysis step is still due. -/
theorem first_step_late :
    ¬ (tracker .default).Holds (fun pre t =>
      t.libCalls.count .step = timers pre / oneStepInSeconds) (List.replicate 10 idleTimer) := by
  intro hholds
  obtain ⟨t, hrun⟩ := exists_run_idle .default 10
  have hcount : t.libCalls.count .step = timers (List.replicate 10 idleTimer) / oneStepInSeconds :=
    hholds _ t (List.prefix_refl _) hrun
  rw [libCalls_count_step hrun, timers_idle] at hcount
  exact absurd hcount (by decide)

/-! ## the report -/

/-- How many callbacks after the summary a list is printed. -/
def AllocatorList.turn : AllocatorList → Nat
  | .toPermanent => 1
  | .top => 2
  | .permanent => 3

/-- The step prints a line of `phase`. -/
def Prints (cfg : TrackerConfig) (phase : TimerPhase) (t : Tracker) (e : TrackerEvent) : Prop :=
  ∃ t' lines line, Tracker.step cfg t e = some t' ∧ t'.trace = t.trace ++ lines ∧
    line ∈ lines ∧ line.phase? = some phase

/-- The step prints `list`: the lines its trace function prints, with the
budget there is, and no other line of a list. -/
def TracesList (cfg : TrackerConfig) (list : AllocatorList) (t : Tracker)
    (e : TrackerEvent) : Prop :=
  ∃ io t', e = .timer io ∧ Tracker.step cfg t e = some t' ∧
    t'.maxLinesToPrint = (list.trace cfg (io.entries list) t.maxLinesToPrint).1 ∧
    t'.trace = t.trace ++
      (disabledLine t ++ (list.trace cfg (io.entries list) t.maxLinesToPrint).2)

/-- The summary the step comes after is the one after `p`. -/
def LatestSummary (cfg : TrackerConfig) (pre p : List TrackerEvent) : Prop :=
  ∃ u f, (tracker cfg).Latest (fun _ => Prints cfg .summary) pre p u f

/-- The report is periodic: a summary comes `PRINT_INTERVAL` callbacks after
the last one, with an update of the lists when no error is latched, and the
lists follow it in their turn and at no other time. -/
structure PeriodicReport (cfg : TrackerConfig) (pre : List TrackerEvent) (t : Tracker)
    (e : TrackerEvent) : Prop where
  period : ∀ p, Prints cfg .summary t e → LatestSummary cfg pre p →
    (timers pre : Int) = timers p + cfg.printInterval
  update : Prints cfg .summary t e →
    (Calls cfg .allocatorListsUpdate t e ↔ t.errorOnMemoryTracker = false)
  inTurn : ∀ p list, e.isTimer = true → LatestSummary cfg pre p →
    timers pre = timers p + list.turn → TracesList cfg list t e
  once : ∀ list, Prints cfg (.list list) t e →
    ∃ p, LatestSummary cfg pre p ∧ timers pre = timers p + list.turn

theorem timerPhase_eq_list {counter : Int} {list : AllocatorList} :
    timerPhase cfg counter = .list list ↔ counter = cfg.printInterval - 4 + list.turn := by
  unfold timerPhase
  cases list <;> split_ifs <;> simp [AllocatorList.turn] <;> omega

/-- What is printed tells the phase. -/
theorem phase_of_prints {t : Tracker} {e : TrackerEvent} {phase : TimerPhase}
    (hprints : Prints cfg phase t e) : e.isTimer = true ∧ timerPhase cfg t.counter = phase := by
  obtain ⟨t', lines, line, hstep, htrace, hmem, hline⟩ := hprints
  cases report_step hstep with
  | inl htimer =>
      obtain ⟨io, rfl, _, htrace'⟩ := htimer
      obtain rfl := List.append_cancel_left (htrace'.symm.trans htrace)
      exact ⟨rfl, phase_of_mem_timerReport hmem hline⟩
  | inr hother =>
      obtain ⟨_, _, htrace'⟩ := hother
      have hlines : lines = [] := by simpa [htrace'] using htrace
      simp [hlines] at hmem

/-- The summary phase prints a summary. -/
theorem prints_summary_iff {t t' : Tracker} {e : TrackerEvent}
    (hstep : Tracker.step cfg t e = some t') :
    Prints cfg .summary t e ↔ e.isTimer = true ∧ timerPhase cfg t.counter = .summary := by
  refine ⟨phase_of_prints, fun h => ?_⟩
  cases report_step hstep with
  | inl htimer =>
      obtain ⟨io, rfl, _, htrace⟩ := htimer
      obtain ⟨lines, error, hlines⟩ := timerReport_summary io h.2
      rw [hlines] at htrace
      exact ⟨t', _, .summary io.usage error, hstep, htrace,
        List.mem_append_right lines List.mem_cons_self, rfl⟩
  | inr hother => cases hother.1.symm.trans h.1

/-- In its phase a list is printed. -/
theorem tracesList_of_phase {t t' : Tracker} {e : TrackerEvent} {list : AllocatorList}
    (hstep : Tracker.step cfg t e = some t') (he : e.isTimer = true)
    (hphase : timerPhase cfg t.counter = .list list) : TracesList cfg list t e := by
  cases report_step hstep with
  | inl htimer =>
      obtain ⟨io, rfl, hlines, htrace⟩ := htimer
      have hreport : timerReport cfg t io = list.trace cfg (io.entries list) t.maxLinesToPrint := by
        unfold timerReport
        rw [hphase]
      rw [hreport] at hlines htrace
      exact ⟨io, t', rfl, hstep, hlines, htrace⟩
  | inr hother => cases hother.1.symm.trans he

/-- A summary comes with an update of the lists unless an error is latched. -/
theorem calls_update_iff {t t' : Tracker} {e : TrackerEvent}
    (hstep : Tracker.step cfg t e = some t') (hsummary : Prints cfg .summary t e) :
    Calls cfg .allocatorListsUpdate t e ↔ t.errorOnMemoryTracker = false := by
  obtain ⟨he, hphase⟩ := phase_of_prints hsummary
  obtain ⟨io, rfl⟩ := exists_eq_timer he
  rw [calls_iff hstep]
  simp [callsOf, timerPhase_eq_summary.mp hphase]

/-! ## its period -/

theorem succ_mod_succ (n P : Nat) :
    (n + 1) % (P + 1) = if n % (P + 1) = P then 0 else n % (P + 1) + 1 := by
  have hlt : n % (P + 1) < P + 1 := Nat.mod_lt n (Nat.succ_pos P)
  rw [← Nat.mod_add_mod]
  split <;> rename_i hlast
  · rw [hlast, Nat.mod_self]
  · exact Nat.mod_eq_of_lt (by omega)

theorem timers_le_of_prefix {h h' : List TrackerEvent} (hp : h <+: h') : timers h ≤ timers h' :=
  hp.sublist.countP_le

section

variable {P : Nat} (hP : cfg.printInterval = P)
include hP

/-- `counter` counts the callbacks, modulo one more than the interval. -/
theorem counter_eq_mod {h : List TrackerEvent} {t : Tracker} (hrun : (tracker cfg).run h = some t) :
    t.counter = (timers h % (P + 1) : Nat) := by
  refine (tracker cfg).invariant (R := fun h t => t.counter = (timers h % (P + 1) : Nat))
    (by simp [tracker, Tracker.init, timers]) ?_ hrun
  intro pre t e t' _ ih hstep
  rw [(counters_step hstep).1, timers_concat, ih, hP]
  cases e.isTimer with
  | false => rfl
  | true =>
      rw [if_pos rfl, if_pos rfl, succ_mod_succ]
      by_cases hlast : timers pre % (P + 1) = P
      · rw [if_pos hlast, if_pos (congrArg Nat.cast hlast)]
        rfl
      · rw [if_neg hlast, if_neg (fun h => hlast (Int.ofNat_inj.mp h))]
        rfl

variable (h10 : 10 ≤ P)
include h10

theorem prints_summary_iff_mod {pre : List TrackerEvent} {t t' : Tracker} {e : TrackerEvent}
    (hrun : (tracker cfg).run pre = some t) (hstep : Tracker.step cfg t e = some t') :
    Prints cfg .summary t e ↔ e.isTimer = true ∧ timers pre % (P + 1) = P - 4 := by
  rw [prints_summary_iff hstep, timerPhase_eq_summary, counter_eq_mod hP hrun, hP]
  refine and_congr_right fun _ => ?_
  omega

/-- How far back the latest summary is. -/
theorem timers_latest {pre p : List TrackerEvent} {t : Tracker}
    (hrun : (tracker cfg).run pre = some t) (hlatest : LatestSummary cfg pre p) :
    timers p % (P + 1) = P - 4 ∧ timers p < timers pre ∧ timers pre ≤ timers p + (P + 1) := by
  obtain ⟨u, f, ⟨u', htakes⟩, hsummary, hmax⟩ := hlatest
  have hfirst := (prints_summary_iff_mod hP h10 htakes.2.1 htakes.2.2).mp hsummary
  refine ⟨hfirst.2, ?_, ?_⟩
  · have hle := timers_le_of_prefix htakes.1
    rw [timers_concat, if_pos hfirst.1] at hle
    exact hle
  · by_contra hlt
    -- the summary after it would be the latest one
    obtain ⟨q, v, g, v', hq, hg, hcount⟩ :=
      (tracker cfg).exists_takes_of_lt_countP hrun (Nat.lt_of_not_le hlt)
    have hnext : Prints cfg .summary v g := by
      refine (prints_summary_iff_mod hP h10 hq.2.1 hq.2.2).mpr ⟨hg, ?_⟩
      rw [show timers q = timers p + (P + 1) from hcount, Nat.add_mod_right, hfirst.2]
    have hle := timers_le_of_prefix (hmax q v g v' hq hnext)
    rw [show timers q = timers p + (P + 1) from hcount] at hle
    omega

/-- Consecutive summaries are one callback more than the interval apart. -/
theorem timers_of_summary {pre p : List TrackerEvent} {t t' : Tracker} {e : TrackerEvent}
    (hrun : (tracker cfg).run pre = some t) (hstep : Tracker.step cfg t e = some t')
    (hsummary : Prints cfg .summary t e) (hlatest : LatestSummary cfg pre p) :
    timers pre = timers p + (P + 1) := by
  obtain ⟨hmod, hlt, hle⟩ := timers_latest hP h10 hrun hlatest
  have hnow := ((prints_summary_iff_mod hP h10 hrun hstep).mp hsummary).2
  have hclass : timers pre ≡ timers p + (P + 1) [MOD P + 1] := by
    rw [Nat.ModEq, Nat.add_mod_right, hnow, hmod]
  exact hclass.eq_of_abs_lt (abs_lt.mpr ⟨by omega, by omega⟩)

/-- There is a summary from the callback `PRINT_INTERVAL - 4` on. -/
theorem exists_latestSummary {pre : List TrackerEvent} {t : Tracker}
    (hrun : (tracker cfg).run pre = some t) (hlt : P - 4 < timers pre) :
    ∃ p, LatestSummary cfg pre p := by
  obtain ⟨q, v, g, v', hq, hg, hcount⟩ := (tracker cfg).exists_takes_of_lt_countP hrun hlt
  have hsummary : Prints cfg .summary v g := by
    refine (prints_summary_iff_mod hP h10 hq.2.1 hq.2.2).mpr ⟨hg, ?_⟩
    rw [show timers q = P - 4 from hcount, Nat.mod_eq_of_lt (by omega)]
  have hoccurs : (tracker cfg).Occurs (fun _ => Prints cfg .summary) pre :=
    ⟨q, v, g, v', hq, hsummary⟩
  exact (tracker cfg).exists_latest_of_occurs hrun hoccurs

/-- A list has its turn in its phase. -/
theorem phase_at_turn {pre p : List TrackerEvent} {t : Tracker} {list : AllocatorList}
    (hrun : (tracker cfg).run pre = some t) (hlatest : LatestSummary cfg pre p)
    (hturn : timers pre = timers p + list.turn) : timerPhase cfg t.counter = .list list := by
  obtain ⟨hmod, _, _⟩ := timers_latest hP h10 hrun hlatest
  have hsmall : list.turn ≤ 3 := by cases list <;> decide
  rw [timerPhase_eq_list, counter_eq_mod hP hrun, hP, hturn, ← Nat.mod_add_mod, hmod,
    Nat.mod_eq_of_lt (by omega)]
  omega

/-- A list is printed in its turn only. -/
theorem turn_of_prints {pre : List TrackerEvent} {t : Tracker} {e : TrackerEvent}
    {list : AllocatorList} (hrun : (tracker cfg).run pre = some t)
    (hprints : Prints cfg (.list list) t e) :
    ∃ p, LatestSummary cfg pre p ∧ timers pre = timers p + list.turn := by
  have hphase := (phase_of_prints hprints).2
  rw [timerPhase_eq_list, counter_eq_mod hP hrun, hP] at hphase
  have hturn : 0 < list.turn ∧ list.turn ≤ 3 := by cases list <;> decide
  have hnow : timers pre % (P + 1) = P - 4 + list.turn := by omega
  have hle := Nat.mod_le (timers pre) (P + 1)
  obtain ⟨p, hlatest⟩ := exists_latestSummary hP h10 hrun (by omega)
  obtain ⟨hmod, hlt, hlast⟩ := timers_latest hP h10 hrun hlatest
  have hclass : timers pre ≡ timers p + list.turn [MOD P + 1] := by
    rw [Nat.ModEq, hnow, ← Nat.mod_add_mod, hmod, Nat.mod_eq_of_lt (by omega)]
  exact ⟨p, hlatest, hclass.eq_of_abs_lt (abs_lt.mpr ⟨by omega, by omega⟩)⟩

/-- A run with a periodic report is over before its second summary. -/
theorem timers_lt_of_periodicReport {h : List TrackerEvent}
    (hperiodic : (tracker cfg).Always (PeriodicReport cfg) h) :
    (tracker cfg).Always (fun pre _ e => e.isTimer = true →
      (timers pre : Int) < 2 * cfg.printInterval - 3) h := by
  intro pre t e t' htakes he
  by_contra hge
  -- the callback that prints the second summary
  have hcount : 2 * P - 3 < timers (pre ++ [e]) := by
    rw [timers_concat, if_pos he]
    omega
  obtain ⟨q, v, g, v', hq, hg, hq'⟩ :=
    (tracker cfg).exists_takes_of_lt_countP htakes.run_eq hcount
  have hsecond : timers q = P - 4 + (P + 1) := by
    have heq : timers q = 2 * P - 3 := hq'
    omega
  have hsummary : Prints cfg .summary v g := by
    refine (prints_summary_iff_mod hP h10 hq.2.1 hq.2.2).mpr ⟨hg, ?_⟩
    rw [hsecond, Nat.add_mod_right, Nat.mod_eq_of_lt (by omega)]
  obtain ⟨p, hlatest⟩ := exists_latestSummary hP h10 hq.2.1 (by omega)
  have hlate := timers_of_summary hP h10 hq.2.1 hq.2.2 hsummary hlatest
  have hperiod := (hperiodic q v g v' (hq.mono htakes.1)).period p hsummary hlatest
  omega

end

/-- **The period**: the report is periodic exactly in the runs that end before
the second summary, as that comes a callback late. -/
theorem report_periodic_iff (cfg : TrackerConfig) (h10 : 10 ≤ cfg.printInterval)
    (h : List TrackerEvent) :
    (tracker cfg).Always (PeriodicReport cfg) h ↔
      (tracker cfg).Always (fun pre _ e => e.isTimer = true →
        (timers pre : Int) < 2 * cfg.printInterval - 3) h := by
  obtain ⟨P, hP⟩ := Int.eq_ofNat_of_zero_le (show 0 ≤ cfg.printInterval by omega)
  have hP10 : 10 ≤ P := by omega
  refine ⟨timers_lt_of_periodicReport hP hP10, fun hshort pre t e t' htakes => ?_⟩
  refine ⟨fun p hsummary hlatest => ?_, calls_update_iff htakes.2.2, ?_, ?_⟩
  · -- no second summary
    have hsecond := timers_of_summary hP hP10 htakes.2.1 htakes.2.2 hsummary hlatest
    have hfirst := (timers_latest hP hP10 htakes.2.1 hlatest).1
    have hle := Nat.mod_le (timers p) (P + 1)
    have hlt := hshort pre t e t' htakes (phase_of_prints hsummary).1
    omega
  · intro p list he hlatest hturn
    exact tracesList_of_phase htakes.2.2 he (phase_at_turn hP hP10 htakes.2.1 hlatest hturn)
  · exact fun list hprints => turn_of_prints hP hP10 htakes.2.1 hprints

/-- The default interval: up to the callback before the second summary. -/
theorem report_periodic_to_second_summary :
    (tracker .default).Always (PeriodicReport .default) (List.replicate 597 idleTimer) := by
  refine (report_periodic_iff .default (by decide) _).mpr fun pre t e t' htakes he => ?_
  have hle := timers_le_of_prefix htakes.1
  rw [timers_concat, if_pos he, timers_idle] at hle
  show (timers pre : Int) < 597
  omega

/-- At the default interval the second summary comes with the callback 598, one
callback late. -/
theorem second_summary_late :
    ¬ (tracker .default).Always (PeriodicReport .default) (List.replicate 598 idleTimer) := by
  intro hperiodic
  obtain ⟨t, hrun⟩ := exists_run_idle .default 598
  have hcount : 597 < (List.replicate 598 idleTimer).countP TrackerEvent.isTimer := by
    rw [show List.countP _ _ = 598 from timers_idle 598]
    decide
  obtain ⟨q, u, e, u', hq, he, hcount⟩ :=
    (tracker .default).exists_takes_of_lt_countP hrun hcount
  have hlt : (timers q : Int) < 597 :=
    timers_lt_of_periodicReport (P := 300) rfl (by decide) hperiodic q u e u' hq he
  rw [show timers q = 597 from hcount] at hlt
  omega

end PelionBorderRouter
