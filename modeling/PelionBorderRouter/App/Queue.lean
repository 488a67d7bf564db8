import PelionBorderRouter.App.Gate

/-!
# PelionBorderRouter.App.Queue

How many events the application keeps in the shared queue.  Every
registration posts one: with the mesh down and `BLOCK` in the control value
the start timer, with the mesh up the 12-hour refresh of the DNS queries.
Neither looks for an event of its kind that is pending already, and the
refresh is periodic: it stays for good.  So one of each is the most the
queue holds exactly as long as the cloud does not register again
(`queue_bounded_iff`).
-/

namespace PelionBorderRouter

variable {cfg : Config} {boot : Boot}

/-- A registration that queues a refresh: the mesh is up, and the queue
takes the event. -/
def QueuesRefresh (s : App) : AppEvent → Prop
  | .clientRegistered io => s.meshInterfaceUp = true ∧ io.queueAccepts = true
  | _ => False

/-- At most one refresh and one start timer are pending. -/
def QueueBounded (s : App) : Prop :=
  s.queue.count .networkDnsOptQuerySet ≤ 1 ∧ s.queue.count .meshIfaceStartMaxWaitCb ≤ 1

/-- The registration queues no second event: none has queued a refresh
before it, and no start timer is pending. -/
def FirstOfItsKind (cfg : Config) (boot : Boot) (pre : List AppEvent) (s : App)
    (e : AppEvent) : Prop :=
  (QueuesRefresh s e → ¬ (app cfg boot).Occurs (fun _ s e => QueuesRefresh s e) pre) ∧
    (QueuesStartTimer cfg s.queue.nextId s e → s.queue.count .meshIfaceStartMaxWaitCb = 0)

/-! ## refreshes stay -/

/-- Every refresh in the queue is periodic. -/
theorem refresh_periodic {h : List AppEvent} {s : App} (hrun : (app cfg boot).run h = some s) :
    ∀ q ∈ s.queue.pending, q.callback = .networkDnsOptQuerySet → q.periodic = true := by
  refine (app cfg boot).invariant (R := fun _ s => ∀ q ∈ s.queue.pending,
    q.callback = .networkDnsOptQuerySet → q.periodic = true) ?_ ?_ hrun
  · exact fun q hq => absurd hq List.not_mem_nil
  · intro pre s e s' _ ih hstep
    have happ : AppStep cfg s e s' := appStep_of_step hstep
    cases happ with
    | registeredBlocked hup hblock =>
        intro q hq hcb
        cases EventQueue.mem_pending_of_callIn hq with
        | inl hold => exact ih q hold hcb
        | inr hnew => exact absurd (hnew.1.symm.trans hcb) (by decide)
    | registeredUp hup =>
        intro q hq hcb
        cases EventQueue.mem_pending_of_callEvery hq with
        | inl hold => exact ih q hold hcb
        | inr hnew => exact hnew.2
    | startMaxWait hq hcb =>
        exact fun p hp => ih p (EventQueue.mem_pending_of_dispatch hq hp)
    | querySet hq hcb =>
        exact fun p hp => ih p (EventQueue.mem_pending_of_dispatch hq hp)
    | _ => exact ih

/-- A step adds a refresh exactly when it queues one, and takes none
away. -/
theorem count_refresh_step {pre : List AppEvent} {s s' : App} {e : AppEvent}
    (hrun : (app cfg boot).run pre = some s) (hstep : AppStep cfg s e s') :
    (QueuesRefresh s e →
        s'.queue.count .networkDnsOptQuerySet = s.queue.count .networkDnsOptQuerySet + 1) ∧
      (¬ QueuesRefresh s e →
        s'.queue.count .networkDnsOptQuerySet = s.queue.count .networkDnsOptQuerySet) := by
  cases hstep with
  | registeredPermitted hup hblock =>
      exact ⟨fun h => absurd (hup.symm.trans h.1) (by decide), fun _ => rfl⟩
  | registeredBlocked hup hblock =>
      refine ⟨fun h => absurd (hup.symm.trans h.1) (by decide), fun _ => ?_⟩
      simp [EventQueue.count_callIn]
  | registeredUp hup => simp [QueuesRefresh, EventQueue.count_callEvery, hup]
  | startMaxWait hq hcb =>
      have hcount := EventQueue.count_of_dispatch hq .networkDnsOptQuerySet
      refine ⟨fun h => h.elim, fun _ => ?_⟩
      simpa [hcb] using hcount.symm
  | querySet hq hcb =>
      have hcount := EventQueue.count_of_dispatch hq .networkDnsOptQuerySet
      have hperiodic := refresh_periodic hrun _ (EventQueue.mem_of_dispatch hq).1 hcb
      refine ⟨fun h => h.elim, fun _ => ?_⟩
      simpa [hperiodic] using hcount.symm
  | _ => exact ⟨fun h => h.elim, fun _ => rfl⟩

/-- A step adds a start timer exactly when it queues one. -/
theorem count_startTimer_step {s s' : App} {e : AppEvent} (hstep : AppStep cfg s e s') :
    (QueuesStartTimer cfg s.queue.nextId s e →
        s'.queue.count .meshIfaceStartMaxWaitCb = s.queue.count .meshIfaceStartMaxWaitCb + 1) ∧
      (¬ QueuesStartTimer cfg s.queue.nextId s e →
        s'.queue.count .meshIfaceStartMaxWaitCb ≤ s.queue.count .meshIfaceStartMaxWaitCb) := by
  cases hstep with
  | registeredPermitted hup hblock =>
      have hnot := (controlBlocks_eq_false_iff _).mp hblock
      exact ⟨fun h => absurd h.2.1 hnot, fun _ => Nat.le_refl _⟩
  | @registeredBlocked io hup hblock =>
      have hbegins : BeginsWithBlock s.control.value := (controlBlocks_iff _).mp hblock
      have hqueues : QueuesStartTimer cfg s.queue.nextId s (.clientRegistered io) ↔
          cfg.meshIfaceStartMaxWait ≠ 0 ∧ io.queueAccepts = true := by
        simp [QueuesStartTimer, hup, hbegins]
      rw [hqueues, EventQueue.count_callIn]
      constructor
      · intro h
        simp [h]
      · intro h
        simp [h]
  | registeredUp hup =>
      refine ⟨fun h => absurd (hup.symm.trans h.1) (by decide), fun _ => ?_⟩
      simp [EventQueue.count_callEvery]
  | startMaxWait hq hcb => exact ⟨fun h => h.elim, fun _ => EventQueue.count_le_of_dispatch hq _⟩
  | querySet hq hcb => exact ⟨fun h => h.elim, fun _ => EventQueue.count_le_of_dispatch hq _⟩
  | _ => exact ⟨fun h => h.elim, fun _ => Nat.le_refl _⟩

/-- A refresh is pending exactly when some registration has queued one. -/
theorem count_refresh_pos_iff {h : List AppEvent} {s : App}
    (hrun : (app cfg boot).run h = some s) :
    0 < s.queue.count .networkDnsOptQuerySet ↔
      (app cfg boot).Occurs (fun _ s e => QueuesRefresh s e) h := by
  have hempty := EventQueue.count_empty AppCallback.networkDnsOptQuerySet
  refine Machine.latch_iff_occurs (L := fun s => 0 < s.queue.count .networkDnsOptQuerySet)
    (Nat.not_lt.mpr (Nat.le_of_eq hempty)) ?_ hrun
  intro pre s e s' hs hstep
  have hcount := count_refresh_step hs (appStep_of_step hstep)
  by_cases hq : QueuesRefresh s e
  · have hone := hcount.1 hq
    exact iff_of_true (by omega) (Or.inr hq)
  · rw [hcount.2 hq]
    exact (or_iff_left hq).symm

/-! ## the bound -/

/-- **Bounded queue**: in every state of a run at most one refresh and one
start timer are pending exactly when no registration of the run queues a
second one. -/
theorem queue_bounded_iff (cfg : Config) (boot : Boot) (h : List AppEvent) :
    (app cfg boot).Holds (fun _ s => QueueBounded s) h ↔
      (app cfg boot).Always (FirstOfItsKind cfg boot) h := by
  have hstart : QueueBounded (App.boot cfg boot) := by
    have hrefresh := EventQueue.count_empty AppCallback.networkDnsOptQuerySet
    have htimer := EventQueue.count_empty AppCallback.meshIfaceStartMaxWaitCb
    exact ⟨hrefresh.trans_le (Nat.zero_le 1), htimer.trans_le (Nat.zero_le 1)⟩
  refine Machine.holds_iff_always hstart ?_ h
  intro pre s e s' hrun hs hstep
  have happ : AppStep cfg s e s' := appStep_of_step hstep
  have hrefresh := count_refresh_step hrun happ
  have htimer := count_startTimer_step happ
  have hbefore := count_refresh_pos_iff hrun
  obtain ⟨hone, htwo⟩ := hs
  apply and_congr
  · by_cases hq : QueuesRefresh s e
    · rw [hrefresh.1 hq, ← hbefore]
      simp only [hq, forall_const]
      omega
    · rw [hrefresh.2 hq]
      exact iff_of_true hone fun h => absurd h hq
  · by_cases hq : QueuesStartTimer cfg s.queue.nextId s e
    · rw [htimer.1 hq]
      simp only [hq, forall_const]
      omega
    · have hle := htimer.2 hq
      exact iff_of_true (by omega) fun h => absurd h hq

/-- Two registrations with `BLOCK` leave two start timers; two with the mesh
up would leave two refreshes. -/
theorem second_registration_queues_twice :
    ¬ (app .blocked freshBoot).Holds (fun _ s => QueueBounded s)
        [plainRegistration, plainRegistration] ∧
      ¬ (app .shipped freshBoot).Holds (fun _ s => QueueBounded s)
        [plainRegistration, .main ⟨.ok, .none⟩, .main ⟨.ok, .none⟩, .main ⟨.ok, .none⟩,
          .main ⟨.ok, .none⟩, .main ⟨.ok, .none⟩, .main ⟨.ok, .none⟩,
          .meshStatus (.connectionStatusChange .globalUp) (some [0xfd]), plainRegistration,
          plainRegistration] := by
  constructor
  · intro hholds
    have hlast := (hholds _ _ (List.prefix_refl _) rfl).2
    exact absurd hlast (by decide)
  · intro hholds
    have hlast := (hholds _ _ (List.prefix_refl _) rfl).1
    exact absurd hlast (by decide)

end PelionBorderRouter
