import PelionBorderRouter.Config
import PelionBorderRouter.Lib.Rtos
import PelionBorderRouter.Lib.Run

/-!
# PelionBorderRouter.Tracker

`nanostack_dynmemtracker.cpp`: the dynamic memory tracker.  The wrappers
stand in front of the nanostack heap and report each block to the tracker
library; a timer steps the analysis of the library and prints its lists.

The library and the heap are outside: what they return is in the events, and
the calls they get are logged.  A heap does not hand out a block that is
live.  `nsDynMemTrackerAllocateMemBlocks`, which the library calls back, is
in `PelionBorderRouter.Tracker.Table`.
-/

namespace PelionBorderRouter

/-! ## settings -/

/-- `ONE_STEP_IN_SECONDS`. -/
def oneStepInSeconds : Nat := 10

/-- The lists of allocators the library fills. -/
inductive AllocatorList where
  | top
  | permanent
  | toPermanent
deriving DecidableEq, Repr

/-- What `mbed_app.json` sets for the tracker. -/
structure TrackerConfig where
  /-- `MBED_CONF_APP_NSDYNMEMTRACKER_TOP_ALLOCATORS` -/
  topAllocators : Nat
  /-- `MBED_CONF_APP_NSDYNMEMTRACKER_PRINT_INTERVAL`, in seconds -/
  printInterval : Int
  /-- `MBED_CONF_APP_NSDYNMEMTRACKER_EXT_BLOCKS_SIZE` -/
  extBlocksSize : Nat
deriving DecidableEq, Repr

namespace TrackerConfig

/-- The defaults: 5 allocators, 5 minutes, 2047 extended blocks. -/
def default : TrackerConfig := ⟨5, 300, 1⟩

/-- `TOP_ALLOCATOR_COUNT`, `PERMANENT_ALLOCATORS_COUNT` and
`TO_PERMANENT_ALLOCATORS_COUNT`. -/
def allocatorsCount (cfg : TrackerConfig) : AllocatorList → Nat
  | .top => cfg.topAllocators
  | .permanent => cfg.topAllocators
  | .toPermanent => cfg.topAllocators * 2

/-- `MAX_LINES_TO_PRINT_ON_INTERVAL`. -/
def maxLinesToPrintOnInterval (cfg : TrackerConfig) : Nat := cfg.topAllocators * 3

/-- `EXT_MEM_BLOCKS_COUNT`. -/
def extMemBlocksCount (cfg : TrackerConfig) : Nat := (1024 <<< cfg.extBlocksSize) - 1

end TrackerConfig

/-! ## what is outside -/

/-- What a wrapper tells the library about its caller. -/
structure CallSite where
  callerAddr : Handle
  function : CStr
  line : Nat
deriving DecidableEq, Repr

/-- A wrapper call from `main`. -/
def mainSite : CallSite := ⟨1, ⟨['m', 'a', 'i', 'n'].map Char.toUInt8, by decide⟩, 1⟩

/-- A call of a library operation on `conf`. -/
inductive LibCall where
  | alloc (site : CallSite) (block : Option Handle) (allocSize : Nat)
  | free (site : CallSite) (block : Option Handle)
  | step
  | allocatorListsUpdate
deriving DecidableEq, Repr

/-- An entry of an allocator list; `callerAddr` is `none` in an empty one. -/
structure Allocator where
  callerAddr : Option Handle
  allocCount : Nat
  totalMemory : Nat
  minLifetime : UInt32
  function : CStr
  line : Nat
deriving DecidableEq, Repr

/-- The counters of `conf` that the summary prints. -/
structure TrackerUsage where
  allocatedMemory : Nat
  memBlocksCount : Nat
  extMemBlocksCount : Nat
  lastMemBlockIndex : Nat
deriving DecidableEq, Repr

/-- A line of the periodic report.  The lifetime of an allocator is printed in
seconds, modulo `2 ^ 32`. -/
inductive TraceLine where
  | disabled
  | listsUpdateError
  | summary (usage : TrackerUsage) (error : Bool)
  | listTitle (list : AllocatorList)
  | allocator (list : AllocatorList) (a : Allocator) (lifetime : UInt32)
deriving DecidableEq, Repr

/-- The callback the tracker posts to the event queue. -/
inductive TrackerCallback where
  | nsDynMemTrackerTimerCallback
deriving DecidableEq, Repr

/-! ## the state -/

/-- The statics of the module, the shared event queue, the blocks live on the
nanostack heap, and what the library and the trace have got so far. -/
structure Tracker where
  topAllocators : Option Handle
  permanentAllocators : Option Handle
  toPermanentAllocators : Option Handle
  equeue : Option Handle
  trackerInitDone : Bool
  trackerDisabled : Bool
  errorOnMemoryTracker : Bool
  equeueEventIdentifier : Nat
  counter : Int
  secondsToStep : Nat
  maxLinesToPrint : Nat
  queue : EventQueue TrackerCallback
  live : List Handle
  libCalls : List LibCall
  trace : List TraceLine

namespace Tracker

/-- The initial values. -/
def init : Tracker where
  topAllocators := none
  permanentAllocators := none
  toPermanentAllocators := none
  equeue := none
  trackerInitDone := false
  trackerDisabled := false
  errorOnMemoryTracker := false
  equeueEventIdentifier := 0
  counter := 0
  secondsToStep := oneStepInSeconds
  maxLinesToPrint := 0
  queue := EventQueue.empty TrackerCallback
  live := []
  libCalls := []
  trace := []

def allocators (t : Tracker) : AllocatorList → Option Handle
  | .top => t.topAllocators
  | .permanent => t.permanentAllocators
  | .toPermanent => t.toPermanentAllocators

def setAllocators (t : Tracker) (list : AllocatorList) (p : Option Handle) : Tracker :=
  match list with
  | .top => { t with topAllocators := p }
  | .permanent => { t with permanentAllocators := p }
  | .toPermanent => { t with toPermanentAllocators := p }

/-- `error_on_memory_tracker = true`. -/
def latch (t : Tracker) : Tracker := { t with errorOnMemoryTracker := true }

/-- The library gets a call. -/
def call (t : Tracker) (c : LibCall) : Tracker := { t with libCalls := t.libCalls ++ [c] }

def print (t : Tracker) (lines : List TraceLine) : Tracker := { t with trace := t.trace ++ lines }

/-- The heap hands out `block`. -/
def heapAlloc (t : Tracker) (block : Option Handle) : Tracker :=
  { t with live := block.toList ++ t.live }

/-- The heap takes `block` back. -/
def heapFree (t : Tracker) (block : Option Handle) : Tracker :=
  { t with live := block.elim t.live t.live.erase }

end Tracker

/-! ## ns_dyn_mem_tracker_init -/

/-- What a call of `ns_dyn_mem_tracker_init` gets, should it come to ask for
it: memory for each list, the event queue, and whether the queue has memory
for the timer. -/
structure InitIo where
  malloc : AllocatorList → Option Handle
  mbedEventQueue : Option Handle
  callEvery : Bool

/-- Allocate a list that is not allocated yet. -/
def Tracker.allocateList (t : Tracker) (io : InitIo) (list : AllocatorList) : Tracker :=
  if t.allocators list = none then t.setAllocators list (io.malloc list) else t

/-- Call every second: `call_every` returns the id of the event, `0` when the
queue refuses it. -/
def Tracker.callEvery (t : Tracker) (accepted : Bool) : Tracker := { t with
  equeueEventIdentifier := if accepted then t.queue.nextId else 0
  queue := t.queue.callEvery accepted 1000 .nsDynMemTrackerTimerCallback }

/-- The end of `ns_dyn_mem_tracker_init`: the event queue and the timer. -/
def startTimer (t : Tracker) (io : InitIo) : Int × Tracker :=
  let t := { t with equeue := io.mbedEventQueue }
  if t.equeue = none then (-1, t.latch)
  else
    let t := t.callEvery io.callEvery
    if t.equeueEventIdentifier = 0 then (-1, t.latch) else (0, t)

/-- `ns_dyn_mem_tracker_init`: the return value, and the state then. -/
def nsDynMemTrackerInit (t : Tracker) (io : InitIo) : Int × Tracker :=
  if t.trackerInitDone then (0, t)
  else
    let t := { t with trackerInitDone := true }
    let t := t.allocateList io .top
    if t.topAllocators = none then (-1, t.latch)
    else
      let t := t.allocateList io .permanent
      if t.permanentAllocators = none then (-1, t.latch)
      else
        let t := t.allocateList io .toPermanent
        if t.toPermanentAllocators = none then (-1, t.latch) else startTimer t io

/-! ## the wrappers -/

/-- The heap function behind a wrapper. -/
inductive HeapAlloc where
  | nsDynMemAlloc
  | nsDynMemTemporaryAlloc
deriving DecidableEq, Repr

/-- What the heap function returns, and then `ns_dyn_mem_tracker_lib_alloc`. -/
structure AllocIo where
  block : Option Handle
  libAlloc : Int
deriving DecidableEq, Repr

/-- The body the two allocating wrappers share. -/
def trackedAlloc (t : Tracker) (site : CallSite) (allocSize : Nat) (io : AllocIo) :
    Option Handle × Tracker :=
  let t := t.heapAlloc io.block
  if t.errorOnMemoryTracker then (io.block, t)
  else
    let t := t.call (.alloc site io.block allocSize)
    (io.block, if io.libAlloc < 0 then t.latch else t)

/-- `ns_dyn_mem_tracker_dyn_mem_alloc`, in front of `ns_dyn_mem_alloc`. -/
def nsDynMemTrackerDynMemAlloc :
    Tracker → CallSite → Nat → AllocIo → Option Handle × Tracker := trackedAlloc

/-- `ns_dyn_mem_tracker_dyn_mem_temporary_alloc`, in front of
`ns_dyn_mem_temporary_alloc`. -/
def nsDynMemTrackerDynMemTemporaryAlloc :
    Tracker → CallSite → Nat → AllocIo → Option Handle × Tracker := trackedAlloc

/-- `ns_dyn_mem_tracker_dyn_mem_free`; `libFree` is what the library returns. -/
def nsDynMemTrackerDynMemFree (t : Tracker) (site : CallSite) (block : Option Handle)
    (libFree : Int) : Tracker :=
  if t.trackerDisabled then t.heapFree block
  else
    let t := t.call (.free site block)
    let t := if libFree < 0 then t.latch else t
    t.heapFree block

/-! ## the report -/

/-- The loop of the trace functions, from `listIndex` on with `remaining` more
entries to look at: the lines left of `counter`, and the lines printed. -/
def traceFrom (list : AllocatorList) (entries : Nat → Allocator) (listIndex : Nat) :
    (remaining counter : Nat) → Nat × List TraceLine
  | 0, counter => (counter, [])
  | remaining + 1, counter =>
      let a := entries listIndex
      if a.callerAddr = none then (counter, [])
      else if counter = 0 then (0, [])
      else
        let (left, lines) := traceFrom list entries (listIndex + 1) remaining (counter - 1)
        let title := if listIndex = 0 then [TraceLine.listTitle list] else []
        (left, title ++ .allocator list a (a.minLifetime * oneStepInSeconds.toUInt32) :: lines)

/-- The body the three trace functions share. -/
def traceAllocators (list : AllocatorList) (cfg : TrackerConfig) (entries : Nat → Allocator)
    (counter : Nat) : Nat × List TraceLine :=
  traceFrom list entries 0 (cfg.allocatorsCount list) counter

/-- `ns_dyn_mem_tracker_trace_top_allocators`. -/
def nsDynMemTrackerTraceTopAllocators :
    TrackerConfig → (Nat → Allocator) → Nat → Nat × List TraceLine := traceAllocators .top

/-- `ns_dyn_mem_tracker_trace_to_permanent_allocators`. -/
def nsDynMemTrackerTraceToPermanentAllocators :
    TrackerConfig → (Nat → Allocator) → Nat → Nat × List TraceLine := traceAllocators .toPermanent

/-- `ns_dyn_mem_tracker_trace_permanent_allocators`. -/
def nsDynMemTrackerTracePermanentAllocators :
    TrackerConfig → (Nat → Allocator) → Nat → Nat × List TraceLine := traceAllocators .permanent

/-! ## ns_dyn_mem_tracker_timer_callback -/

/-- What a timer callback finds: what the lists update returns, the counters,
and the lists. -/
structure TimerIo where
  listsUpdate : Int
  usage : TrackerUsage
  entries : AllocatorList → Nat → Allocator

namespace Tracker

/-- Step the memory analyzer. -/
def stepAnalyzer (t : Tracker) : Tracker :=
  if 0 < t.secondsToStep then { t with secondsToStep := t.secondsToStep - 1 }
  else
    let t := { t.call .step with secondsToStep := oneStepInSeconds }
    if t.errorOnMemoryTracker then t.print [.disabled] else t

/-- Calculate memory block usages. -/
def updateLists (t : Tracker) (io : TimerIo) : Tracker :=
  if t.errorOnMemoryTracker then t
  else
    let t := t.call .allocatorListsUpdate
    if io.listsUpdate < 0 then t.latch.print [.listsUpdateError] else t

/-- Take over what a trace function has printed. -/
def printList (t : Tracker) (printed : Nat × List TraceLine) : Tracker :=
  { t.print printed.2 with maxLinesToPrint := printed.1 }

/-- `ns_dyn_mem_tracker_timer_callback`. -/
def nsDynMemTrackerTimerCallback (cfg : TrackerConfig) (t : Tracker) (io : TimerIo) : Tracker :=
  let t := t.stepAnalyzer
  if t.counter = cfg.printInterval - 4 then
    let t := t.updateLists io
    let t := { t with maxLinesToPrint := cfg.maxLinesToPrintOnInterval }
    { t.print [.summary io.usage t.errorOnMemoryTracker] with counter := t.counter + 1 }
  else if t.counter = cfg.printInterval - 3 then
    let t := t.printList (nsDynMemTrackerTraceToPermanentAllocators cfg (io.entries .toPermanent)
      t.maxLinesToPrint)
    { t with counter := t.counter + 1 }
  else if t.counter = cfg.printInterval - 2 then
    let t := t.printList (nsDynMemTrackerTraceTopAllocators cfg (io.entries .top)
      t.maxLinesToPrint)
    { t with counter := t.counter + 1 }
  else if t.counter = cfg.printInterval - 1 then
    let t := t.printList (nsDynMemTrackerTracePermanentAllocators cfg (io.entries .permanent)
      t.maxLinesToPrint)
    { t with counter := t.counter + 1 }
  else if t.counter = cfg.printInterval then
    -- Start again
    { t with counter := 0 }
  else { t with counter := t.counter + 1 }

end Tracker

/-! ## the tracker as a machine -/

/-- What can happen next. -/
inductive TrackerEvent where
  | init (io : InitIo)
  | alloc (heap : HeapAlloc) (site : CallSite) (allocSize : Nat) (io : AllocIo)
  | free (site : CallSite) (block : Option Handle) (libFree : Int)
  | timer (io : TimerIo)

/-- The wrapper in front of a heap function. -/
def HeapAlloc.wrapper : HeapAlloc → Tracker → CallSite → Nat → AllocIo → Option Handle × Tracker
  | .nsDynMemAlloc => nsDynMemTrackerDynMemAlloc
  | .nsDynMemTemporaryAlloc => nsDynMemTrackerDynMemTemporaryAlloc

/-- What one event does; `none` for a heap that would hand out a live block. -/
def Tracker.step (cfg : TrackerConfig) (t : Tracker) : TrackerEvent → Option Tracker
  | .init io => some (nsDynMemTrackerInit t io).2
  | .alloc heap site allocSize io =>
      if ∀ b ∈ io.block, b ∉ t.live then some (heap.wrapper t site allocSize io).2 else none
  | .free site block libFree => some (nsDynMemTrackerDynMemFree t site block libFree)
  | .timer io => some (t.nsDynMemTrackerTimerCallback cfg io)

/-- The tracker from its initial values on. -/
def tracker (cfg : TrackerConfig) : Machine Tracker TrackerEvent := ⟨Tracker.init, Tracker.step cfg⟩

/-! ## what the wrappers do -/

@[simp] theorem HeapAlloc.wrapper_eq (heap : HeapAlloc) : heap.wrapper = trackedAlloc := by
  cases heap <;> rfl

/-- An allocation is reported while no error is latched, and latches the error
when the library refuses it. -/
theorem trackedAlloc_eq (t : Tracker) (site : CallSite) (allocSize : Nat) (io : AllocIo) :
    trackedAlloc t site allocSize io = (io.block, { t with
      live := io.block.toList ++ t.live
      libCalls :=
        if t.errorOnMemoryTracker then t.libCalls
        else t.libCalls ++ [.alloc site io.block allocSize]
      errorOnMemoryTracker := t.errorOnMemoryTracker || decide (io.libAlloc < 0) }) := by
  unfold trackedAlloc Tracker.heapAlloc Tracker.call Tracker.latch
  cases herr : t.errorOnMemoryTracker with
  | true => simp
  | false =>
      by_cases hlib : io.libAlloc < 0
      · simp [hlib]
      · simp [hlib]

/-- A free is reported unless the tracker is disabled. -/
theorem nsDynMemTrackerDynMemFree_eq (t : Tracker) (site : CallSite) (block : Option Handle)
    (libFree : Int) :
    nsDynMemTrackerDynMemFree t site block libFree = { t with
      live := block.elim t.live t.live.erase
      libCalls := if t.trackerDisabled then t.libCalls else t.libCalls ++ [.free site block]
      errorOnMemoryTracker :=
        t.errorOnMemoryTracker || (!t.trackerDisabled && decide (libFree < 0)) } := by
  unfold nsDynMemTrackerDynMemFree Tracker.heapFree Tracker.call Tracker.latch
  cases hdis : t.trackerDisabled with
  | true => simp
  | false =>
      by_cases hlib : libFree < 0
      · simp [hlib]
      · simp [hlib]

/-! ## the timer callback, phase by phase -/

/-- What the callback does for the report, by `counter`. -/
inductive TimerPhase where
  | summary
  | list (list : AllocatorList)
  | startAgain
  | wait
deriving DecidableEq, Repr

/-- The phase a callback finds. -/
def timerPhase (cfg : TrackerConfig) (counter : Int) : TimerPhase :=
  if counter = cfg.printInterval - 4 then .summary
  else if counter = cfg.printInterval - 3 then .list .toPermanent
  else if counter = cfg.printInterval - 2 then .list .top
  else if counter = cfg.printInterval - 1 then .list .permanent
  else if counter = cfg.printInterval then .startAgain
  else .wait

/-- The trace function of a list. -/
def AllocatorList.trace :
    AllocatorList → TrackerConfig → (Nat → Allocator) → Nat → Nat × List TraceLine
  | .top => nsDynMemTrackerTraceTopAllocators
  | .permanent => nsDynMemTrackerTracePermanentAllocators
  | .toPermanent => nsDynMemTrackerTraceToPermanentAllocators

theorem timerPhase_eq_startAgain {cfg : TrackerConfig} {counter : Int} :
    timerPhase cfg counter = .startAgain ↔ counter = cfg.printInterval := by
  unfold timerPhase
  split_ifs <;> simp <;> omega

theorem timerPhase_eq_summary {cfg : TrackerConfig} {counter : Int} :
    timerPhase cfg counter = .summary ↔ counter = cfg.printInterval - 4 := by
  unfold timerPhase
  split_ifs <;> simp <;> omega

/-- The half of the callback after the analysis. -/
def Tracker.report (cfg : TrackerConfig) (t : Tracker) (io : TimerIo) : Tracker :=
  match timerPhase cfg t.counter with
  | .summary =>
      let t := t.updateLists io
      let t := { t with maxLinesToPrint := cfg.maxLinesToPrintOnInterval }
      { t.print [.summary io.usage t.errorOnMemoryTracker] with counter := t.counter + 1 }
  | .list list =>
      { t.printList (list.trace cfg (io.entries list) t.maxLinesToPrint) with
        counter := t.counter + 1 }
  | .startAgain => { t with counter := 0 }
  | .wait => { t with counter := t.counter + 1 }

theorem nsDynMemTrackerTimerCallback_eq (cfg : TrackerConfig) (t : Tracker) (io : TimerIo) :
    t.nsDynMemTrackerTimerCallback cfg io = t.stepAnalyzer.report cfg io := by
  unfold Tracker.nsDynMemTrackerTimerCallback Tracker.report timerPhase
  dsimp only
  split
  · rfl
  · split
    · rfl
    · split
      · rfl
      · split
        · rfl
        · split <;> rfl

/-! ## what the timer does -/

/-- The state without what the timer writes: its counters, the report, the
calls and the error. -/
def Tracker.atRest (t : Tracker) : Tracker := { t with
  errorOnMemoryTracker := false
  counter := 0
  secondsToStep := 0
  maxLinesToPrint := 0
  libCalls := []
  trace := [] }

/-- The timer writes nothing else. -/
theorem atRest_nsDynMemTrackerTimerCallback (cfg : TrackerConfig) (t : Tracker) (io : TimerIo) :
    (t.nsDynMemTrackerTimerCallback cfg io).atRest = t.atRest := by
  have hstep : t.stepAnalyzer.atRest = t.atRest := by
    unfold Tracker.stepAnalyzer
    split
    · rfl
    · simp only
      split <;> rfl
  have hlists : ∀ t : Tracker, (t.updateLists io).atRest = t.atRest := by
    intro t
    unfold Tracker.updateLists
    split
    · rfl
    · simp only
      split <;> rfl
  rw [nsDynMemTrackerTimerCallback_eq, ← hstep]
  unfold Tracker.report
  cases timerPhase cfg t.stepAnalyzer.counter with
  | summary => exact hlists t.stepAnalyzer
  | list list => rfl
  | startAgain => rfl
  | wait => rfl

/-- What the first half of the callback leaves the second one. -/
theorem stepAnalyzer_eq (t : Tracker) : t.stepAnalyzer.counter = t.counter ∧
    t.stepAnalyzer.errorOnMemoryTracker = t.errorOnMemoryTracker ∧
    t.stepAnalyzer.libCalls = t.libCalls ++ if 0 < t.secondsToStep then [] else [.step] := by
  unfold Tracker.stepAnalyzer Tracker.call Tracker.print
  split
  · simp
  · simp only
    split <;> simp

/-- The lists are updated while no error is latched, and latch the error when
that fails. -/
theorem updateLists_eq (t : Tracker) (io : TimerIo) :
    (t.updateLists io).libCalls =
        t.libCalls ++ (if t.errorOnMemoryTracker then [] else [.allocatorListsUpdate]) ∧
      (t.updateLists io).errorOnMemoryTracker =
        (t.errorOnMemoryTracker || decide (io.listsUpdate < 0)) := by
  unfold Tracker.updateLists Tracker.call Tracker.print Tracker.latch
  cases herr : t.errorOnMemoryTracker with
  | true => simp [herr]
  | false =>
      by_cases hlists : io.listsUpdate < 0
      · simp [hlists]
      · simp [hlists]

/-- The calls of a timer callback, and the error it leaves. -/
theorem libCalls_nsDynMemTrackerTimerCallback (cfg : TrackerConfig) (t : Tracker) (io : TimerIo) :
    (t.nsDynMemTrackerTimerCallback cfg io).libCalls =
        (t.libCalls ++ if 0 < t.secondsToStep then [] else [.step]) ++
          (if t.counter = cfg.printInterval - 4 ∧ t.errorOnMemoryTracker = false then
            [.allocatorListsUpdate] else []) ∧
      (t.nsDynMemTrackerTimerCallback cfg io).errorOnMemoryTracker =
        (t.errorOnMemoryTracker ||
          (decide (t.counter = cfg.printInterval - 4) && decide (io.listsUpdate < 0))) := by
  obtain ⟨hcounter, herror, hcalls⟩ := stepAnalyzer_eq t
  obtain ⟨hcalls', herror'⟩ := updateLists_eq t.stepAnalyzer io
  rw [herror, hcalls] at hcalls'
  rw [herror] at herror'
  have hat : t.counter = cfg.printInterval - 4 ↔ timerPhase cfg t.counter = .summary :=
    timerPhase_eq_summary.symm
  rw [nsDynMemTrackerTimerCallback_eq]
  unfold Tracker.report
  simp only [hat, hcounter]
  cases timerPhase cfg t.counter with
  | summary =>
      cases herr : t.errorOnMemoryTracker with
      | true => simp [Tracker.print, hcalls', herror', herr]
      | false => simp [Tracker.print, hcalls', herror', herr]
  | list list => simp [Tracker.printList, Tracker.print, hcalls, herror]
  | startAgain => simp [hcalls, herror]
  | wait => simp [hcalls, herror]

/-! ## what init does -/

/-- The state without what `ns_dyn_mem_tracker_init` writes: the lists, the
event queue, its timer and flag, and the error. -/
def Tracker.besidesInit (t : Tracker) : Tracker := { t with
  topAllocators := none
  permanentAllocators := none
  toPermanentAllocators := none
  equeue := none
  trackerInitDone := false
  errorOnMemoryTracker := false
  equeueEventIdentifier := 0
  queue := EventQueue.empty TrackerCallback }

/-- Allocating a list writes nothing but the list. -/
theorem allocateList_eq (t : Tracker) (io : InitIo) (list : AllocatorList) :
    (t.allocateList io list).besidesInit = t.besidesInit ∧
      (t.allocateList io list).errorOnMemoryTracker = t.errorOnMemoryTracker := by
  unfold Tracker.allocateList
  split
  · cases list <;> exact ⟨rfl, rfl⟩
  · exact ⟨rfl, rfl⟩

theorem startTimer_eq (t : Tracker) (io : InitIo) :
    (startTimer t io).2.besidesInit = t.besidesInit ∧
      (startTimer t io).2.errorOnMemoryTracker =
        (t.errorOnMemoryTracker || decide ((startTimer t io).1 ≠ 0)) := by
  unfold startTimer
  simp only
  split
  · exact ⟨rfl, by simp [Tracker.latch]⟩
  · split
    · exact ⟨rfl, by simp [Tracker.latch]⟩
    · exact ⟨rfl, by simp [Tracker.callEvery]⟩

/-- A call of init writes nothing else, and latches the error exactly when it
fails. -/
theorem nsDynMemTrackerInit_eq (t : Tracker) (io : InitIo) :
    (nsDynMemTrackerInit t io).2.besidesInit = t.besidesInit ∧
      (nsDynMemTrackerInit t io).2.errorOnMemoryTracker =
        (t.errorOnMemoryTracker || decide ((nsDynMemTrackerInit t io).1 ≠ 0)) := by
  unfold nsDynMemTrackerInit
  simp only
  split
  · exact ⟨rfl, by simp⟩
  · obtain ⟨hkeep₁, herr₁⟩ := allocateList_eq { t with trackerInitDone := true } io .top
    generalize ({ t with trackerInitDone := true } : Tracker).allocateList io .top = t₁ at *
    obtain ⟨hkeep₂, herr₂⟩ := allocateList_eq t₁ io .permanent
    generalize t₁.allocateList io .permanent = t₂ at *
    obtain ⟨hkeep₃, herr₃⟩ := allocateList_eq t₂ io .toPermanent
    generalize t₂.allocateList io .toPermanent = t₃ at *
    obtain ⟨hkeep₄, herr₄⟩ := startTimer_eq t₃ io
    split
    · exact ⟨hkeep₁, by simp [Tracker.latch]⟩
    · split
      · exact ⟨hkeep₂.trans hkeep₁, by simp [Tracker.latch]⟩
      · split
        · exact ⟨hkeep₃.trans (hkeep₂.trans hkeep₁), by simp [Tracker.latch]⟩
        · exact ⟨hkeep₄.trans (hkeep₃.trans (hkeep₂.trans hkeep₁)),
            by rw [herr₄, herr₃, herr₂, herr₁]⟩

/-! ## one step -/

theorem step_alloc_eq_some {cfg : TrackerConfig} {t t' : Tracker} {heap : HeapAlloc}
    {site : CallSite} {allocSize : Nat} {io : AllocIo} :
    Tracker.step cfg t (.alloc heap site allocSize io) = some t' ↔
      (∀ b ∈ io.block, b ∉ t.live) ∧ t' = (trackedAlloc t site allocSize io).2 := by
  simp only [Tracker.step, HeapAlloc.wrapper_eq]
  by_cases hfresh : ∀ b ∈ io.block, b ∉ t.live
  · rw [if_pos hfresh, Option.some.injEq, eq_comm]
    exact (and_iff_right hfresh).symm
  · rw [if_neg hfresh]
    exact iff_of_false (by simp) fun h => hfresh h.1

/-- The library calls a step makes. -/
def callsOf (cfg : TrackerConfig) (t : Tracker) : TrackerEvent → List LibCall
  | .init _ => []
  | .alloc _ site allocSize io =>
      if t.errorOnMemoryTracker then [] else [.alloc site io.block allocSize]
  | .free site block _ => if t.trackerDisabled then [] else [.free site block]
  | .timer _ =>
      (if 0 < t.secondsToStep then [] else [.step]) ++
        (if t.counter = cfg.printInterval - 4 ∧ t.errorOnMemoryTracker = false then
          [.allocatorListsUpdate] else [])

/-- The step reports an error. -/
def reportsError (cfg : TrackerConfig) (t : Tracker) : TrackerEvent → Bool
  | .init io => decide ((nsDynMemTrackerInit t io).1 ≠ 0)
  | .alloc _ _ _ io => decide (io.libAlloc < 0)
  | .free _ _ libFree => !t.trackerDisabled && decide (libFree < 0)
  | .timer io => decide (t.counter = cfg.printInterval - 4) && decide (io.listsUpdate < 0)

/-- Each step adds its calls to the log, latches an error it reports, and does
not touch `tracker_disabled`. -/
theorem tracker_step {cfg : TrackerConfig} {t t' : Tracker} {e : TrackerEvent}
    (hstep : Tracker.step cfg t e = some t') :
    t'.libCalls = t.libCalls ++ callsOf cfg t e ∧
      t'.errorOnMemoryTracker = (t.errorOnMemoryTracker || reportsError cfg t e) ∧
      t'.trackerDisabled = t.trackerDisabled := by
  cases e with
  | init io =>
      obtain rfl : (nsDynMemTrackerInit t io).2 = t' := Option.some.inj hstep
      obtain ⟨hkeep, herror⟩ := nsDynMemTrackerInit_eq t io
      have hcalls := congrArg Tracker.libCalls hkeep
      have hdisabled := congrArg Tracker.trackerDisabled hkeep
      exact ⟨hcalls.trans (List.append_nil _).symm, herror, hdisabled⟩
  | alloc heap site allocSize io =>
      obtain ⟨_, rfl⟩ := step_alloc_eq_some.mp hstep
      rw [trackedAlloc_eq]
      cases herr : t.errorOnMemoryTracker with
      | true => simp [callsOf, reportsError, herr]
      | false => simp [callsOf, reportsError, herr]
  | free site block libFree =>
      obtain rfl : nsDynMemTrackerDynMemFree t site block libFree = t' := Option.some.inj hstep
      rw [nsDynMemTrackerDynMemFree_eq]
      cases hdis : t.trackerDisabled with
      | true => simp [callsOf, reportsError, hdis]
      | false => simp [callsOf, reportsError, hdis]
  | timer io =>
      obtain rfl : t.nsDynMemTrackerTimerCallback cfg io = t' := Option.some.inj hstep
      obtain ⟨hcalls, herror⟩ := libCalls_nsDynMemTrackerTimerCallback cfg t io
      have hrest := atRest_nsDynMemTrackerTimerCallback cfg t io
      have hdisabled := congrArg Tracker.trackerDisabled hrest
      exact ⟨hcalls.trans (List.append_assoc _ _ _), herror, hdisabled⟩

/-- Nothing ever sets `tracker_disabled`. -/
theorem trackerDisabled_eq_false {cfg : TrackerConfig} {h : List TrackerEvent} {t : Tracker}
    (hrun : (tracker cfg).run h = some t) : t.trackerDisabled = false := by
  refine (tracker cfg).invariant (R := fun _ t => t.trackerDisabled = false) rfl ?_ hrun
  intro pre t e t' _ ih hstep
  have hkeep : t'.trackerDisabled = t.trackerDisabled := (tracker_step hstep).2.2
  rw [hkeep, ih]

/-- Nothing resets `error_on_memory_tracker`. -/
theorem errorOnMemoryTracker_stays {cfg : TrackerConfig} {t t' : Tracker} {e : TrackerEvent}
    (hstep : Tracker.step cfg t e = some t') (herror : t.errorOnMemoryTracker = true) :
    t'.errorOnMemoryTracker = true := by
  rw [(tracker_step hstep).2.1, herror, Bool.true_or]

end PelionBorderRouter
