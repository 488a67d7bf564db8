import PelionBorderRouter.App.Gate

/-!
# PelionBorderRouter.App.Timeout

The start timers over whole runs.  Where a timeout is configured, a
registration that finds `BLOCK` queues one and forgets its id: nothing
cancels it, and later registrations queue more.  `start_timer_once` follows
each of them through a run, whatever registrations, PUTs and other timers
come between: it stays in the queue with the configured time until it
expires, it can expire as long as it has not, it opens the gate then, and it
never expires again.
-/

namespace PelionBorderRouter

variable {cfg : Config} {boot : Boot}

/-- The start timer `id`. -/
def startMaxWait (cfg : Config) (id : Nat) : Queued AppCallback :=
  ⟨id, .meshIfaceStartMaxWaitCb, cfg.meshIfaceStartMaxWait, false⟩

/-- The event dispatches `id`. -/
def Dispatches (id : Nat) : AppEvent → Prop
  | .dispatch id' _ => id' = id
  | _ => False

/-! ## one step -/

/-- An id can be dispatched exactly when an event is pending under it. -/
theorem isSome_step_dispatch_iff (s : App) (id : Nat) (resolverAccepts : Server → Bool) :
    (App.step cfg s (.dispatch id resolverAccepts)).isSome ↔ ∃ q ∈ s.queue.pending, q.id = id := by
  rw [← EventQueue.isSome_dispatch_iff]
  cases hq : s.queue.dispatch id with
  | none => simp [App.step, hq]
  | some taken => simp [App.step, hq]

/-- What is dispatched has been pending. -/
theorem id_lt_of_dispatches {s s' : App} {e : AppEvent} {id : Nat}
    (hstep : App.step cfg s e = some s') (he : Dispatches id e) : id < s.queue.nextId := by
  cases e with
  | dispatch id' resolverAccepts =>
      obtain rfl : id' = id := he
      obtain ⟨q, hq, rfl⟩ :=
        (isSome_step_dispatch_iff s id' resolverAccepts).mp (Option.isSome_of_eq_some hstep)
      exact s.queue.id_lt q hq
  | _ => exact he.elim

/-- Ids are given out in increasing order. -/
theorem nextId_le_step {s s' : App} {e : AppEvent} (hstep : App.step cfg s e = some s') :
    s.queue.nextId ≤ s'.queue.nextId := by
  cases appStep_of_step hstep with
  | registeredBlocked hup hblock => exact EventQueue.nextId_le_callIn _ _ _ _
  | registeredUp hup => exact EventQueue.nextId_le_callEvery _ _ _ _
  | startMaxWait hq hcb => exact Nat.le_of_eq (EventQueue.nextId_of_dispatch hq).symm
  | querySet hq hcb => exact Nat.le_of_eq (EventQueue.nextId_of_dispatch hq).symm
  | _ => exact Nat.le_refl _

/-- A start timer is pending after a step when it was before and is not
dispatched, or when the step queues it. -/
theorem startMaxWait_mem_step {s s' : App} {e : AppEvent} (hstep : AppStep cfg s e s')
    (id : Nat) : startMaxWait cfg id ∈ s'.queue.pending ↔
      startMaxWait cfg id ∈ s.queue.pending ∧ ¬ Dispatches id e ∨ QueuesStartTimer cfg id s e := by
  have hdispatch : ∀ {id' : Nat} {q : Queued AppCallback} {queue : EventQueue AppCallback},
      s.queue.dispatch id' = some (q, queue) → (startMaxWait cfg id ∈ queue.pending ↔
        startMaxWait cfg id ∈ s.queue.pending ∧ ¬ id' = id ∨ False) := by
    intro id' q queue hq
    rw [or_false, eq_comm (a := id')]
    exact EventQueue.mem_pending_dispatch_iff_of_once hq rfl
  cases hstep with
  | registeredPermitted hup hblock =>
      have hnot := (controlBlocks_eq_false_iff _).mp hblock
      simp [QueuesStartTimer, Dispatches, hnot]
  | @registeredBlocked io hup hblock =>
      have hbegins : BeginsWithBlock s.control.value := (controlBlocks_iff _).mp hblock
      have hqueues : QueuesStartTimer cfg id s (.clientRegistered io) ↔
          (decide (cfg.meshIfaceStartMaxWait ≠ 0) && io.queueAccepts) = true ∧
            id = s.queue.nextId := by
        simp [QueuesStartTimer, hup, hbegins, and_assoc]
      rw [hqueues]
      cases decide (cfg.meshIfaceStartMaxWait ≠ 0) && io.queueAccepts with
      | false => simp [EventQueue.callIn, Dispatches]
      | true => simp [EventQueue.callIn, Dispatches, startMaxWait, or_comm]
  | @registeredUp io hup =>
      have hnot : ¬ QueuesStartTimer cfg id s (.clientRegistered io) :=
        fun hq => absurd (hup.symm.trans hq.1) (by decide)
      cases haccepts : io.queueAccepts with
      | false => simp [EventQueue.callEvery, Dispatches, hnot]
      | true => simp [EventQueue.callEvery, Dispatches, startMaxWait, hnot]
  | startMaxWait hq hcb => exact hdispatch hq
  | querySet hq hcb => exact hdispatch hq
  | _ => simp [QueuesStartTimer, Dispatches]

/-! ## whole runs -/

/-- Only ids given out are dispatched. -/
theorem id_lt_of_occurs_dispatches {h : List AppEvent} {s : App} {id : Nat}
    (hrun : (app cfg boot).run h = some s)
    (hocc : (app cfg boot).Occurs (fun _ _ e => Dispatches id e) h) : id < s.queue.nextId := by
  obtain ⟨pre, t, e, t', ht, he⟩ := hocc
  have hlt : id < t.queue.nextId := id_lt_of_dispatches ht.2.2 he
  exact Machine.kept_along (L := fun s => id < s.queue.nextId)
    (fun _ _ _ hstep hle => Nat.lt_of_lt_of_le hle (nextId_le_step hstep))
    ((List.prefix_append pre [e]).trans ht.1) ht.2.1 hlt hrun

/-- A start timer is queued under a new id. -/
theorem not_dispatched_of_queuesStartTimer {pre : List AppEvent} {s : App} {e : AppEvent}
    {id : Nat} (hpre : (app cfg boot).run pre = some s) (hq : QueuesStartTimer cfg id s e) :
    ¬ ((app cfg boot).Occurs (fun _ _ e => Dispatches id e) pre ∨ Dispatches id e) := by
  cases e with
  | clientRegistered io =>
      rintro (hocc | he)
      · have hlt := id_lt_of_occurs_dispatches hpre hocc
        exact absurd hq.2.2.2.2 (Nat.ne_of_lt hlt)
      · exact he
  | _ => exact hq.elim

/-- A start timer is pending exactly when it has been queued and has not
expired. -/
theorem startMaxWait_mem_iff {h : List AppEvent} {s : App} (hrun : (app cfg boot).run h = some s)
    (id : Nat) : startMaxWait cfg id ∈ s.queue.pending ↔
      (app cfg boot).Occurs (fun _ s e => QueuesStartTimer cfg id s e) h ∧
        ¬ (app cfg boot).Occurs (fun _ _ e => Dispatches id e) h := by
  refine (app cfg boot).invariant (R := fun h s => startMaxWait cfg id ∈ s.queue.pending ↔
    (app cfg boot).Occurs (fun _ s e => QueuesStartTimer cfg id s e) h ∧
      ¬ (app cfg boot).Occurs (fun _ _ e => Dispatches id e) h) ?_ ?_ hrun
  · exact iff_of_false List.not_mem_nil fun hocc => Machine.not_occurs_nil hocc.1
  · intro pre s e s' hpre ih hstep
    rw [startMaxWait_mem_step (appStep_of_step hstep) id, Machine.occurs_concat hpre hstep,
      Machine.occurs_concat hpre hstep, ih]
    by_cases hq : QueuesStartTimer cfg id s e
    · exact iff_of_true (Or.inr hq) ⟨Or.inr hq, not_dispatched_of_queuesStartTimer hpre hq⟩
    · rw [or_iff_left hq, or_iff_left hq, and_assoc, not_or]

/-- Every pending event of the start timeout is one of the start timers. -/
theorem eq_startMaxWait {h : List AppEvent} {s : App} (hrun : (app cfg boot).run h = some s) :
    ∀ q ∈ s.queue.pending, q.callback = .meshIfaceStartMaxWaitCb → q = startMaxWait cfg q.id := by
  refine (app cfg boot).invariant (R := fun _ s => ∀ q ∈ s.queue.pending,
    q.callback = .meshIfaceStartMaxWaitCb → q = startMaxWait cfg q.id) ?_ ?_ hrun
  · exact fun q hq => absurd hq List.not_mem_nil
  · intro pre s e s' _ ih hstep
    cases appStep_of_step hstep with
    | @registeredBlocked io hup hblock =>
        intro q hq hcb
        cases haccepts : decide (cfg.meshIfaceStartMaxWait ≠ 0) && io.queueAccepts with
        | false =>
            rw [haccepts] at hq
            exact ih q hq hcb
        | true =>
            rw [haccepts] at hq
            cases List.mem_cons.mp hq with
            | inl hnew => exact hnew ▸ rfl
            | inr hold => exact ih q hold hcb
    | registeredUp hup =>
        intro q hq hcb
        cases EventQueue.mem_pending_of_callEvery hq with
        | inl hold => exact ih q hold hcb
        | inr hnew => exact absurd (hnew.1.symm.trans hcb) (by decide)
    | startMaxWait hq hcb => exact fun p hp => ih p (EventQueue.mem_pending_of_dispatch hq hp)
    | querySet hq hcb => exact fun p hp => ih p (EventQueue.mem_pending_of_dispatch hq hp)
    | _ => exact ih

/-- What is pending under the id of a start timer is that timer. -/
theorem eq_startMaxWait_of_queued {h : List AppEvent} {s : App} {q : Queued AppCallback}
    (hrun : (app cfg boot).run h = some s) (hq : q ∈ s.queue.pending)
    (hqueued : (app cfg boot).Occurs (fun _ s e => QueuesStartTimer cfg q.id s e) h) :
    q = startMaxWait cfg q.id := by
  cases hcb : q.callback with
  | meshIfaceStartMaxWaitCb => exact eq_startMaxWait hrun q hq hcb
  | networkDnsOptQuerySet => exact absurd hqueued ((timersTraced hrun).other q hq hcb)

/-- Once a start timer has expired the gate is open. -/
theorem gateOpen_of_expired {h : List AppEvent} {s : App} {id : Nat}
    (hrun : (app cfg boot).run h = some s)
    (hqueued : (app cfg boot).Occurs (fun _ s e => QueuesStartTimer cfg id s e) h)
    (hexpired : (app cfg boot).Occurs (fun _ _ e => Dispatches id e) h) : GateOpen s := by
  revert hqueued hexpired
  refine (app cfg boot).invariant (R := fun h s =>
    (app cfg boot).Occurs (fun _ s e => QueuesStartTimer cfg id s e) h →
      (app cfg boot).Occurs (fun _ _ e => Dispatches id e) h → GateOpen s) ?_ ?_ hrun
  · exact fun hqueued => absurd hqueued Machine.not_occurs_nil
  · intro pre s e s' hpre ih hstep hqueued hexpired
    rw [Machine.occurs_concat hpre hstep] at hqueued hexpired
    rw [gateOpen_step hpre hstep]
    cases hqueued with
    | inr hq => exact absurd hexpired (not_dispatched_of_queuesStartTimer hpre hq)
    | inl hqueued =>
        cases hexpired with
        | inl hexpired => exact Or.inl (ih hqueued hexpired)
        | inr he =>
            cases e with
            | dispatch id' resolverAccepts =>
                obtain rfl : id' = id := he
                exact Or.inr hqueued
            | _ => exact he.elim

/-- No two registrations queue the same start timer. -/
theorem queuesStartTimer_unique {h p q : List AppEvent} {s s' t t' : App} {e f : AppEvent}
    {id : Nat} (hp : (app cfg boot).Takes h p s e s') (hq : (app cfg boot).Takes h q t f t')
    (he : QueuesStartTimer cfg id s e) (hf : QueuesStartTimer cfg id t f) : p = q := by
  have hid : ∀ (s : App) (e : AppEvent), QueuesStartTimer cfg id s e → id = s.queue.nextId := by
    intro s e he
    cases e with
    | clientRegistered io => exact he.2.2.2.2
    | _ => exact he.elim
  refine Machine.Takes.eq_of_latch (L := fun s => id < s.queue.nextId)
    (J := QueuesStartTimer cfg id) ?_ ?_ ?_ hp hq he hf
  · exact fun s e s' hstep hlt => Nat.lt_of_lt_of_le hlt (nextId_le_step hstep)
  · intro s e s' hstep he
    exact s'.queue.id_lt _ ((startMaxWait_mem_step (appStep_of_step hstep) id).mpr (Or.inr he))
  · exact fun s e he hlt => absurd (hid s e he) (Nat.ne_of_lt hlt)

/-- **Start timers**: a start timer is queued by one registration only, and
is pending, with the configured time, until it expires.  It can expire as
long as it has not, which opens the gate; after that it cannot, and the gate
is open for good. -/
theorem start_timer_once (cfg : Config) (boot : Boot) {h : List AppEvent} {s : App} {id : Nat}
    (hrun : (app cfg boot).run h = some s)
    (hqueued : (app cfg boot).Occurs (fun _ s e => QueuesStartTimer cfg id s e) h) :
    (∀ p t e t' q u f u', (app cfg boot).Takes h p t e t' → (app cfg boot).Takes h q u f u' →
        QueuesStartTimer cfg id t e → QueuesStartTimer cfg id u f → p = q) ∧
      (¬ (app cfg boot).Occurs (fun _ _ e => Dispatches id e) h →
        startMaxWait cfg id ∈ s.queue.pending ∧
        ∀ resolverAccepts, ∃ s', App.step cfg s (.dispatch id resolverAccepts) = some s' ∧
          GateOpen s') ∧
      ((app cfg boot).Occurs (fun _ _ e => Dispatches id e) h →
        (∀ resolverAccepts, App.step cfg s (.dispatch id resolverAccepts) = none) ∧
          GateOpen s) := by
  refine ⟨fun p t e t' q u f u' hp hq => queuesStartTimer_unique hp hq, fun hwaits => ?_,
    fun hexpired => ?_⟩
  · have hmem := (startMaxWait_mem_iff hrun id).mpr ⟨hqueued, hwaits⟩
    refine ⟨hmem, fun resolverAccepts => ?_⟩
    obtain ⟨s', hs'⟩ := Option.isSome_iff_exists.mp
      ((isSome_step_dispatch_iff s id resolverAccepts).mpr ⟨_, hmem, rfl⟩)
    exact ⟨s', hs', (gateOpen_step hrun hs').mpr (Or.inr hqueued)⟩
  · refine ⟨fun resolverAccepts => ?_, gateOpen_of_expired hrun hqueued hexpired⟩
    rw [← Option.not_isSome_iff_eq_none, isSome_step_dispatch_iff]
    rintro ⟨q, hq, rfl⟩
    have hmem := eq_startMaxWait_of_queued hrun hq hqueued ▸ hq
    exact ((startMaxWait_mem_iff hrun q.id).mp hmem).2 hexpired

/-- A blocked device registers, and its timer expires. -/
theorem start_timer_once_blocked :
    ∃ s, (app .blocked freshBoot).run [plainRegistration, .dispatch 1 fun _ => false] = some s ∧
      (∀ resolverAccepts, App.step .blocked s (.dispatch 1 resolverAccepts) = none) ∧
        GateOpen s := by
  have hblock : BeginsWithBlock (App.boot .blocked freshBoot).control.value :=
    (controlBlocks_iff _).mp rfl
  have hqueued : (app .blocked freshBoot).Occurs (fun _ s e => QueuesStartTimer .blocked 1 s e)
      [plainRegistration] :=
    ⟨[], _, plainRegistration, _, ⟨List.prefix_refl _, rfl, rfl⟩, rfl, hblock, by decide, rfl, rfl⟩
  have hexpired : (app .blocked freshBoot).Occurs (fun _ _ e => Dispatches 1 e)
      [plainRegistration, .dispatch 1 fun _ => false] :=
    ⟨[plainRegistration], _, _, _, ⟨List.prefix_refl _, rfl, rfl⟩, rfl⟩
  obtain ⟨s, hrun⟩ : ∃ s, (app .blocked freshBoot).run
      [plainRegistration, .dispatch 1 fun _ => false] = some s := ⟨_, rfl⟩
  have honce := start_timer_once .blocked freshBoot hrun (hqueued.mono (List.prefix_append _ [_]))
  exact ⟨s, hrun, honce.2.2 hexpired⟩

end PelionBorderRouter
