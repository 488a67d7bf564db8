import PelionBorderRouter.Tracker

/-!
# PelionBorderRouter.Tracker.Report

The report the timer prints.  A callback first takes care of the analysis
and then does what `counter` says (`timerPhase`): it prints the summary and
sets the line budget, prints one of the lists, or waits.

The three trace functions share the budget.  Each prints its list up to the
first empty entry and as far as the budget reaches, and hands the rest on
(`trace_eq`); what is printed and what is left stay within the limit in every
run (`report_within_budget`).
-/

namespace PelionBorderRouter

/-! ## what a callback prints -/

/-- The lines left after a callback, and the lines it adds to the report. -/
def timerReport (cfg : TrackerConfig) (t : Tracker) (io : TimerIo) : Nat × List TraceLine :=
  match timerPhase cfg t.counter with
  | .summary =>
      (cfg.maxLinesToPrintOnInterval,
        (if t.errorOnMemoryTracker = false ∧ io.listsUpdate < 0 then [.listsUpdateError] else []) ++
          [.summary io.usage (t.errorOnMemoryTracker || decide (io.listsUpdate < 0))])
  | .list list => list.trace cfg (io.entries list) t.maxLinesToPrint
  | .startAgain => (t.maxLinesToPrint, [])
  | .wait => (t.maxLinesToPrint, [])

/-- The line of the analysis half of a callback. -/
def disabledLine (t : Tracker) : List TraceLine :=
  if t.secondsToStep = 0 ∧ t.errorOnMemoryTracker = true then [.disabled] else []

theorem stepAnalyzer_report (t : Tracker) :
    t.stepAnalyzer.maxLinesToPrint = t.maxLinesToPrint ∧
      t.stepAnalyzer.trace = t.trace ++ disabledLine t ∧
      t.stepAnalyzer.secondsToStep =
        if 0 < t.secondsToStep then t.secondsToStep - 1 else oneStepInSeconds := by
  unfold Tracker.stepAnalyzer Tracker.call Tracker.print disabledLine
  split <;> rename_i hsec
  · simp [Nat.pos_iff_ne_zero.mp hsec]
  · cases herr : t.errorOnMemoryTracker <;> simp_all

theorem updateLists_report (t : Tracker) (io : TimerIo) :
    (t.updateLists io).counter = t.counter ∧
      (t.updateLists io).secondsToStep = t.secondsToStep ∧
      (t.updateLists io).trace = t.trace ++
        if t.errorOnMemoryTracker = false ∧ io.listsUpdate < 0 then [.listsUpdateError]
        else [] := by
  unfold Tracker.updateLists Tracker.call Tracker.print Tracker.latch
  cases herr : t.errorOnMemoryTracker with
  | true => simp
  | false =>
      by_cases hlists : io.listsUpdate < 0
      · simp [hlists]
      · simp [hlists]

theorem report_eq (cfg : TrackerConfig) (t : Tracker) (io : TimerIo) :
    (t.report cfg io).counter = (if t.counter = cfg.printInterval then 0 else t.counter + 1) ∧
      (t.report cfg io).secondsToStep = t.secondsToStep ∧
      (t.report cfg io).maxLinesToPrint = (timerReport cfg t io).1 ∧
      (t.report cfg io).trace = t.trace ++ (timerReport cfg t io).2 := by
  have hagain : t.counter = cfg.printInterval ↔ timerPhase cfg t.counter = .startAgain :=
    timerPhase_eq_startAgain.symm
  unfold Tracker.report timerReport
  simp only [hagain]
  cases timerPhase cfg t.counter with
  | summary =>
      obtain ⟨hcounter, hseconds, htrace⟩ := updateLists_report t io
      obtain ⟨_, herror⟩ := updateLists_eq t io
      simp [Tracker.print, hcounter, hseconds, htrace, herror]
  | list list => simp [Tracker.printList, Tracker.print]
  | startAgain => simp
  | wait => simp

/-- What a callback does to its counters and to the report. -/
theorem nsDynMemTrackerTimerCallback_report (cfg : TrackerConfig) (t : Tracker) (io : TimerIo) :
    (t.nsDynMemTrackerTimerCallback cfg io).counter =
        (if t.counter = cfg.printInterval then 0 else t.counter + 1) ∧
      (t.nsDynMemTrackerTimerCallback cfg io).secondsToStep =
        (if 0 < t.secondsToStep then t.secondsToStep - 1 else oneStepInSeconds) ∧
      (t.nsDynMemTrackerTimerCallback cfg io).maxLinesToPrint = (timerReport cfg t io).1 ∧
      (t.nsDynMemTrackerTimerCallback cfg io).trace =
        t.trace ++ (disabledLine t ++ (timerReport cfg t io).2) := by
  obtain ⟨hcounter, herror, _⟩ := stepAnalyzer_eq t
  obtain ⟨hlines, htrace, hseconds⟩ := stepAnalyzer_report t
  have hreport : timerReport cfg t.stepAnalyzer io = timerReport cfg t io := by
    unfold timerReport
    rw [hcounter, herror, hlines]
  obtain ⟨hcounter', hseconds', hlines', htrace'⟩ := report_eq cfg t.stepAnalyzer io
  rw [nsDynMemTrackerTimerCallback_eq, hcounter', hseconds', hlines', htrace', hreport, hcounter,
    hseconds, htrace, List.append_assoc]
  exact ⟨rfl, rfl, rfl, rfl⟩

/-! ## one step -/

/-- The event is a timer callback. -/
def TrackerEvent.isTimer : TrackerEvent → Bool
  | .timer _ => true
  | _ => false

/-- How often the timer has called back. -/
def timers (h : List TrackerEvent) : Nat := h.countP TrackerEvent.isTimer

theorem timers_concat (h : List TrackerEvent) (e : TrackerEvent) :
    timers (h ++ [e]) = timers h + if e.isTimer then 1 else 0 := by
  simp [timers]

/-- Nothing but the timer touches its counters and the report. -/
theorem step_of_not_isTimer {cfg : TrackerConfig} {t t' : Tracker} {e : TrackerEvent}
    (hstep : Tracker.step cfg t e = some t') (he : e.isTimer = false) :
    t'.counter = t.counter ∧ t'.secondsToStep = t.secondsToStep ∧
      t'.maxLinesToPrint = t.maxLinesToPrint ∧ t'.trace = t.trace := by
  cases e with
  | init io =>
      obtain rfl : (nsDynMemTrackerInit t io).2 = t' := Option.some.inj hstep
      have hkeep := (nsDynMemTrackerInit_eq t io).1
      have hcounter := congrArg Tracker.counter hkeep
      have hseconds := congrArg Tracker.secondsToStep hkeep
      have hlines := congrArg Tracker.maxLinesToPrint hkeep
      have htrace := congrArg Tracker.trace hkeep
      exact ⟨hcounter, hseconds, hlines, htrace⟩
  | alloc heap site allocSize io =>
      obtain ⟨_, rfl⟩ := step_alloc_eq_some.mp hstep
      rw [trackedAlloc_eq]
      exact ⟨rfl, rfl, rfl, rfl⟩
  | free site block libFree =>
      obtain rfl : nsDynMemTrackerDynMemFree t site block libFree = t' := Option.some.inj hstep
      rw [nsDynMemTrackerDynMemFree_eq]
      exact ⟨rfl, rfl, rfl, rfl⟩
  | timer io => cases he

theorem exists_eq_timer {e : TrackerEvent} (he : e.isTimer = true) : ∃ io, e = .timer io := by
  cases e with
  | timer io => exact ⟨io, rfl⟩
  | init io => cases he
  | alloc heap site allocSize io => cases he
  | free site block libFree => cases he

variable {cfg : TrackerConfig}

/-- What a step does to the budget and to the report. -/
theorem report_step {t t' : Tracker} {e : TrackerEvent} (hstep : Tracker.step cfg t e = some t') :
    (∃ io, e = .timer io ∧ t'.maxLinesToPrint = (timerReport cfg t io).1 ∧
        t'.trace = t.trace ++ (disabledLine t ++ (timerReport cfg t io).2)) ∨
      e.isTimer = false ∧ t'.maxLinesToPrint = t.maxLinesToPrint ∧ t'.trace = t.trace := by
  cases he : e.isTimer with
  | false =>
      obtain ⟨_, _, hlines, htrace⟩ := step_of_not_isTimer hstep he
      exact Or.inr ⟨rfl, hlines, htrace⟩
  | true =>
      obtain ⟨io, rfl⟩ := exists_eq_timer he
      obtain rfl : t.nsDynMemTrackerTimerCallback cfg io = t' := Option.some.inj hstep
      obtain ⟨_, _, hlines, htrace⟩ := nsDynMemTrackerTimerCallback_report cfg t io
      exact Or.inl ⟨io, rfl, hlines, htrace⟩

/-! ## the trace functions -/

/-- The entries from `listIndex` on before the first empty one, among the next
`remaining`. -/
def filledFrom (entries : Nat → Allocator) (listIndex remaining : Nat) : List Allocator :=
  ((List.range' listIndex remaining).map entries).takeWhile fun a => a.callerAddr ≠ none

/-- The entries of a list before the first empty one. -/
def filled (cfg : TrackerConfig) (list : AllocatorList) (entries : Nat → Allocator) :
    List Allocator :=
  filledFrom entries 0 (cfg.allocatorsCount list)

/-- The line of an entry. -/
def entryLine (list : AllocatorList) (a : Allocator) : TraceLine :=
  .allocator list a (a.minLifetime * oneStepInSeconds.toUInt32)

theorem filledFrom_succ (entries : Nat → Allocator) (listIndex remaining : Nat) :
    filledFrom entries listIndex (remaining + 1) =
      if (entries listIndex).callerAddr = none then []
      else entries listIndex :: filledFrom entries (listIndex + 1) remaining := by
  simp [filledFrom, List.range'_succ, List.takeWhile_cons]

/-- The title of a list of which `printed` entries are printed. -/
def titleLine (list : AllocatorList) (printed : Nat) : List TraceLine :=
  if printed = 0 then [] else [.listTitle list]

theorem traceFrom_eq (list : AllocatorList) (entries : Nat → Allocator)
    (listIndex remaining counter : Nat) :
    traceFrom list entries listIndex remaining counter =
      let found := filledFrom entries listIndex remaining
      let printed := min counter found.length
      (counter - printed, (if listIndex = 0 then titleLine list printed else []) ++
        (found.take printed).map (entryLine list)) := by
  induction remaining generalizing listIndex counter with
  | zero => simp [traceFrom, filledFrom, titleLine]
  | succ remaining ih =>
      rw [filledFrom_succ]
      unfold traceFrom
      cases haddr : (entries listIndex).callerAddr with
      | none => simp [haddr, titleLine]
      | some addr =>
          cases counter with
          | zero => simp [haddr, titleLine]
          | succ counter =>
              simp [haddr, titleLine, ih, entryLine, Nat.add_sub_add_right, Nat.succ_min_succ]

/-- **A trace function** prints its list up to the first empty entry, as far as
the budget reaches, and returns what is left. -/
theorem trace_eq (list : AllocatorList) (cfg : TrackerConfig) (entries : Nat → Allocator)
    (budget : Nat) :
    list.trace cfg entries budget =
      let printed := min budget (filled cfg list entries).length
      (budget - printed, titleLine list printed ++
        ((filled cfg list entries).take printed).map (entryLine list)) := by
  have htrace : list.trace = traceAllocators list := by cases list <;> rfl
  rw [htrace]
  unfold traceAllocators
  rw [traceFrom_eq]
  simp [filled]

/-- The phase a line is printed in. -/
def TraceLine.phase? : TraceLine → Option TimerPhase
  | .summary _ _ => some .summary
  | .listTitle list => some (.list list)
  | .allocator list _ _ => some (.list list)
  | .disabled => none
  | .listsUpdateError => none

/-- A trace function prints lines of its list only. -/
theorem phase?_of_mem_trace {list : AllocatorList} {entries : Nat → Allocator} {budget : Nat}
    {line : TraceLine} (hline : line ∈ (list.trace cfg entries budget).2) :
    line.phase? = some (.list list) := by
  rw [trace_eq] at hline
  cases List.mem_append.mp hline with
  | inl htitle =>
      unfold titleLine at htitle
      split at htitle
      · cases htitle
      · rw [List.mem_singleton.mp htitle]
        rfl
  | inr hentry =>
      obtain ⟨a, _, rfl⟩ := List.mem_map.mp hentry
      rfl

/-- A callback prints lines of its own phase only. -/
theorem phase_of_mem_timerReport {t : Tracker} {io : TimerIo} {line : TraceLine}
    {phase : TimerPhase} (hmem : line ∈ disabledLine t ++ (timerReport cfg t io).2)
    (hline : line.phase? = some phase) : timerPhase cfg t.counter = phase := by
  have hdisabled : line ∉ disabledLine t := by
    unfold disabledLine
    split
    · intro hmem
      rw [List.mem_singleton.mp hmem] at hline
      cases hline
    · exact List.not_mem_nil
  have hreport := (List.mem_append.mp hmem).resolve_left hdisabled
  unfold timerReport at hreport
  cases hphase : timerPhase cfg t.counter with
  | summary =>
      rw [hphase] at hreport
      cases List.mem_append.mp hreport with
      | inl herror =>
          split at herror
          · rw [List.mem_singleton.mp herror] at hline
            cases hline
          · cases herror
      | inr hsummary =>
          rw [List.mem_singleton.mp hsummary] at hline
          exact Option.some.inj hline
  | list list =>
      rw [hphase] at hreport
      exact Option.some.inj ((phase?_of_mem_trace hreport).symm.trans hline)
  | startAgain => simp [hphase] at hreport
  | wait => simp [hphase] at hreport

/-- The summary phase prints a summary, and prints it last. -/
theorem timerReport_summary {t : Tracker} (io : TimerIo)
    (hphase : timerPhase cfg t.counter = .summary) :
    ∃ lines error, disabledLine t ++ (timerReport cfg t io).2 =
      lines ++ [.summary io.usage error] := by
  unfold timerReport
  rw [hphase]
  exact ⟨_, _, (List.append_assoc _ _ _).symm⟩

/-! ## the budget -/

/-- The line is one of an entry. -/
def TraceLine.isEntry : TraceLine → Bool
  | .allocator _ _ _ => true
  | _ => false

/-- The entry lines since the latest summary, after a line. -/
def TraceLine.count (printed : Nat) : TraceLine → Nat
  | .summary _ _ => 0
  | .allocator _ _ _ => printed + 1
  | _ => printed

/-- The entry lines since the latest summary. -/
def entriesSinceSummary (trace : List TraceLine) : Nat := trace.foldl TraceLine.count 0

/-- The step spends the budget as it should: the summary resets it, a list
prints its first entries and hands on what is left, and nothing else prints
an entry or touches it. -/
def SpendsBudget (cfg : TrackerConfig) (t : Tracker) (e : TrackerEvent) : Prop :=
  ∀ t', Tracker.step cfg t e = some t' → ∃ lines, t'.trace = t.trace ++ lines ∧
    match e with
    | .timer io =>
        match timerPhase cfg t.counter with
        | .summary =>
            lines.filter TraceLine.isEntry = [] ∧
              t'.maxLinesToPrint = cfg.maxLinesToPrintOnInterval
        | .list list =>
            let found := filled cfg list (io.entries list)
            let printed := min t.maxLinesToPrint found.length
            lines.filter TraceLine.isEntry = (found.take printed).map (entryLine list) ∧
              t'.maxLinesToPrint = t.maxLinesToPrint - printed
        | _ => lines.filter TraceLine.isEntry = [] ∧ t'.maxLinesToPrint = t.maxLinesToPrint
    | _ => lines = [] ∧ t'.maxLinesToPrint = t.maxLinesToPrint

@[simp] theorem filter_isEntry_disabledLine (t : Tracker) :
    (disabledLine t).filter TraceLine.isEntry = [] := by
  unfold disabledLine
  split <;> rfl

@[simp] theorem filter_isEntry_titleLine (list : AllocatorList) (printed : Nat) :
    (titleLine list printed).filter TraceLine.isEntry = [] := by
  unfold titleLine
  split <;> rfl

@[simp] theorem filter_isEntry_map_entryLine (list : AllocatorList) (found : List Allocator) :
    (found.map (entryLine list)).filter TraceLine.isEntry = found.map (entryLine list) := by
  simp [List.filter_eq_self, TraceLine.isEntry, entryLine]

/-- What a callback adds to the report keeps to the budget. -/
theorem timerReport_budget (cfg : TrackerConfig) (t : Tracker) (io : TimerIo) :
    match timerPhase cfg t.counter with
    | .summary =>
        (timerReport cfg t io).2.filter TraceLine.isEntry = [] ∧
          (timerReport cfg t io).1 = cfg.maxLinesToPrintOnInterval
    | .list list =>
        let found := filled cfg list (io.entries list)
        let printed := min t.maxLinesToPrint found.length
        (timerReport cfg t io).2.filter TraceLine.isEntry =
            (found.take printed).map (entryLine list) ∧
          (timerReport cfg t io).1 = t.maxLinesToPrint - printed
    | _ =>
        (timerReport cfg t io).2.filter TraceLine.isEntry = [] ∧
          (timerReport cfg t io).1 = t.maxLinesToPrint := by
  unfold timerReport
  cases timerPhase cfg t.counter with
  | summary =>
      refine ⟨?_, rfl⟩
      dsimp only
      split <;> rfl
  | list list =>
      dsimp only
      rw [trace_eq, List.filter_append, filter_isEntry_titleLine, filter_isEntry_map_entryLine]
      exact ⟨rfl, rfl⟩
  | startAgain => exact ⟨rfl, rfl⟩
  | wait => exact ⟨rfl, rfl⟩

theorem spendsBudget (cfg : TrackerConfig) (t : Tracker) (e : TrackerEvent) :
    SpendsBudget cfg t e := by
  intro t' hstep
  cases report_step hstep with
  | inl htimer =>
      obtain ⟨io, rfl, hlines, htrace⟩ := htimer
      refine ⟨_, htrace, ?_⟩
      simp only [List.filter_append, filter_isEntry_disabledLine, List.nil_append, hlines]
      exact timerReport_budget cfg t io
  | inr hother =>
      obtain ⟨he, hlines, htrace⟩ := hother
      refine ⟨[], by rw [htrace, List.append_nil], ?_⟩
      cases e with
      | timer io => cases he
      | init io => exact ⟨rfl, hlines⟩
      | alloc heap site allocSize io => exact ⟨rfl, hlines⟩
      | free site block libFree => exact ⟨rfl, hlines⟩

/-- Without a summary line the entry lines add up. -/
theorem foldl_count (printed : Nat) (lines : List TraceLine)
    (hlines : ∀ usage error, .summary usage error ∉ lines) :
    lines.foldl TraceLine.count printed = printed + (lines.filter TraceLine.isEntry).length := by
  induction lines generalizing printed with
  | nil => rfl
  | cons line lines ih =>
      have htail : ∀ usage error, .summary usage error ∉ lines :=
        fun usage error hmem => hlines usage error (List.mem_cons_of_mem _ hmem)
      rw [List.foldl_cons, ih _ htail]
      cases line with
      | summary usage error => exact absurd List.mem_cons_self (hlines usage error)
      | allocator list a lifetime =>
          rw [List.filter_cons_of_pos rfl, List.length_cons]
          show printed + 1 + _ = _
          omega
      | listTitle list => rfl
      | disabled => rfl
      | listsUpdateError => rfl

theorem entriesSinceSummary_append {trace lines : List TraceLine}
    (hlines : ∀ usage error, .summary usage error ∉ lines) :
    entriesSinceSummary (trace ++ lines) =
      entriesSinceSummary trace + (lines.filter TraceLine.isEntry).length := by
  unfold entriesSinceSummary
  rw [List.foldl_append]
  exact foldl_count _ lines hlines

/-- A summary line starts a new count. -/
theorem entriesSinceSummary_summary (trace : List TraceLine) (usage : TrackerUsage)
    (error : Bool) : entriesSinceSummary (trace ++ [.summary usage error]) = 0 := by
  simp [entriesSinceSummary, TraceLine.count]

/-- What is printed and what is left stay within the limit. -/
theorem entriesSinceSummary_add_le {h : List TrackerEvent} {t : Tracker}
    (hrun : (tracker cfg).run h = some t) :
    entriesSinceSummary t.trace + t.maxLinesToPrint ≤ cfg.maxLinesToPrintOnInterval := by
  refine (tracker cfg).invariant (R := fun _ t =>
    entriesSinceSummary t.trace + t.maxLinesToPrint ≤ cfg.maxLinesToPrintOnInterval)
    (Nat.zero_le _) ?_ hrun
  intro pre t e t' _ ih hstep
  cases report_step hstep with
  | inr hother =>
      obtain ⟨_, hlines, htrace⟩ := hother
      rw [hlines, htrace]
      exact ih
  | inl htimer =>
      obtain ⟨io, _, hlines, htrace⟩ := htimer
      have hbudget := timerReport_budget cfg t io
      -- outside the summary phase the entries add to the ones printed before
      have hsince (hphase : timerPhase cfg t.counter ≠ .summary) :
          entriesSinceSummary t'.trace = entriesSinceSummary t.trace +
            ((timerReport cfg t io).2.filter TraceLine.isEntry).length := by
        have hnone : ∀ usage error,
            .summary usage error ∉ disabledLine t ++ (timerReport cfg t io).2 :=
          fun _ _ hmem => hphase (phase_of_mem_timerReport hmem rfl)
        rw [htrace, entriesSinceSummary_append hnone, List.filter_append,
          filter_isEntry_disabledLine, List.nil_append]
      rw [hlines]
      cases hphase : timerPhase cfg t.counter with
      | summary =>
          obtain ⟨lines, error, hlast⟩ := timerReport_summary io hphase
          rw [hphase] at hbudget
          rw [htrace, hlast, ← List.append_assoc, entriesSinceSummary_summary, hbudget.2,
            Nat.zero_add]
      | list list =>
          rw [hphase] at hbudget hsince
          rw [hsince (by simp), hbudget.1, hbudget.2, List.length_map, List.length_take]
          omega
      | startAgain =>
          rw [hphase] at hbudget hsince
          rw [hsince (by simp), hbudget.1, hbudget.2]
          exact ih
      | wait =>
          rw [hphase] at hbudget hsince
          rw [hsince (by simp), hbudget.1, hbudget.2]
          exact ih

/-- **The line budget**: the trace functions print the first entries of their
lists and hand on what they leave of the budget, in every step of a run the
budget is spent this way, and no report prints more entries than the limit. -/
theorem report_within_budget (cfg : TrackerConfig) (h : List TrackerEvent) :
    (∀ list entries budget, list.trace cfg entries budget =
      let printed := min budget (filled cfg list entries).length
      (budget - printed, titleLine list printed ++
        ((filled cfg list entries).take printed).map (entryLine list))) ∧
    (tracker cfg).Always (fun _ t e => SpendsBudget cfg t e) h ∧
    (tracker cfg).Holds (fun _ t =>
      entriesSinceSummary t.trace ≤ cfg.maxLinesToPrintOnInterval) h := by
  refine ⟨fun list entries budget => trace_eq list cfg entries budget,
    fun _ t e _ _ => spendsBudget cfg t e, fun pre t _ hrun => ?_⟩
  have hle := entriesSinceSummary_add_le hrun
  omega

end PelionBorderRouter
