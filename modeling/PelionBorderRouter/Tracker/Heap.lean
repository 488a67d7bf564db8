import PelionBorderRouter.Lib.Refine
import PelionBorderRouter.Tracker

/-!
# PelionBorderRouter.Tracker.Heap

The tracker as its clients see it: not at all.  `heap` is the nanostack heap
on its own.  The tracker in front of it contains it exactly, as a projection
of its state and events, so a client that calls the wrappers gets the same
blocks, can make the same calls, and leaves the same blocks behind, whatever
the library answers, whether an error is latched, and whenever the timer
fires (`tracker_transparent`).
-/

namespace PelionBorderRouter

variable {cfg : TrackerConfig}

/-- A call of the nanostack heap. -/
inductive HeapEvent where
  | alloc (block : Option Handle)
  | free (block : Option Handle)
deriving DecidableEq, Repr

/-- The live blocks after a call; `none` for a heap that would hand out a live
block. -/
def heapStep (live : List Handle) : HeapEvent → Option (List Handle)
  | .alloc block => if ∀ b ∈ block, b ∉ live then some (block.toList ++ live) else none
  | .free block => some (block.elim live live.erase)

/-- The heap without a tracker in front of it. -/
def heap : Machine (List Handle) HeapEvent := ⟨[], heapStep⟩

/-- The heap calls behind an event of the tracker. -/
def TrackerEvent.heapEvents : TrackerEvent → List HeapEvent
  | .init _ => []
  | .alloc _ _ _ io => [.alloc io.block]
  | .free _ block _ => [.free block]
  | .timer _ => []

/-- A wrapper returns what the heap has handed out. -/
theorem block_wrapper (heap : HeapAlloc) (t : Tracker) (site : CallSite) (allocSize : Nat)
    (io : AllocIo) : (heap.wrapper t site allocSize io).1 = io.block := by
  rw [HeapAlloc.wrapper_eq, trackedAlloc_eq]

/-- Each event does to the live blocks what its heap calls do. -/
theorem live_step (t : Tracker) (e : TrackerEvent) :
    (t.step cfg e).map Tracker.live = e.heapEvents.foldlM heapStep t.live := by
  cases e with
  | init io =>
      have hkeep := congrArg Tracker.live (nsDynMemTrackerInit_eq t io).1
      exact congrArg some hkeep
  | alloc heap site allocSize io =>
      simp only [Tracker.step, HeapAlloc.wrapper_eq, trackedAlloc_eq, TrackerEvent.heapEvents,
        List.foldlM_cons, List.foldlM_nil, heapStep]
      split <;> rfl
  | free site block libFree =>
      simp only [Tracker.step, nsDynMemTrackerDynMemFree_eq]
      rfl
  | timer io =>
      have hrest := congrArg Tracker.live (atRest_nsDynMemTrackerTimerCallback cfg t io)
      exact congrArg some hrest

/-- The heap within the tracker. -/
def heapProjection (cfg : TrackerConfig) : Machine.Projection (tracker cfg) heap where
  state := Tracker.live
  events := TrackerEvent.heapEvents
  start := rfl
  step := live_step

/-- **Transparency**: over every run the live blocks behind the tracker are
those of the bare heap after the same heap calls, and the run is blocked
exactly where the bare heap is; and every allocation of the run returns the
block the heap has handed out, whatever the library returns and whether an
error is latched or not. -/
theorem tracker_transparent (cfg : TrackerConfig) (h : List TrackerEvent) :
    ((tracker cfg).run h).map Tracker.live = heap.run (h.flatMap TrackerEvent.heapEvents) ∧
      ∀ pre t t' wrapper site allocSize io,
        (tracker cfg).Takes h pre t (.alloc wrapper site allocSize io) t' →
          HeapAlloc.wrapper wrapper t site allocSize io = (io.block, t') := by
  refine ⟨(heapProjection cfg).run_eq h, fun pre t t' wrapper site allocSize io htakes => ?_⟩
  have hstep : t.step cfg (.alloc wrapper site allocSize io) = some t' := htakes.2.2
  have hblock := block_wrapper wrapper t site allocSize io
  simp only [Tracker.step] at hstep
  split at hstep
  · exact Prod.ext hblock (Option.some.inj hstep)
  · contradiction

end PelionBorderRouter
