import PelionBorderRouter.App

/-!
# PelionBorderRouter.App.Gate

The gate before `mesh_connect`: `main` waits on `mesh_control_data_found`,
and three callbacks release it.  `Justifying` says which events may open the
gate, in the words of the interface: a permitted registration, a permitting
PUT, the timeout of a blocked registration.  It does not look at the
semaphore.  `start_gate` says that the semaphore keeps exactly this account,
however the callbacks and the main thread interleave.

A timeout is traced back to the registration that queued it through the id
the event queue gave out (`TimersTraced`).
-/

namespace PelionBorderRouter

/-- A registration that queues the start timer `id`: the mesh is down, the
value is `BLOCK`, a timeout is configured, and the queue takes the event. -/
def QueuesStartTimer (cfg : Config) (id : Nat) (s : App) : AppEvent → Prop
  | .clientRegistered io =>
      s.meshInterfaceUp = false ∧ BeginsWithBlock s.control.value ∧
        cfg.meshIfaceStartMaxWait ≠ 0 ∧ io.queueAccepts = true ∧ id = s.queue.nextId
  | _ => False

/-- The event gives permission to start the mesh. -/
def Justifying (cfg : Config) (boot : Boot) (pre : List AppEvent) (s : App) : AppEvent → Prop
  | .clientRegistered _ => s.meshInterfaceUp = false ∧ ¬ BeginsWithBlock s.control.value
  | .putControl (some cval) io =>
      s.meshInterfaceUp = false ∧ ¬ BeginsWithBlock (s.control.update (some cval) io).value
  | .dispatch id _ => (app cfg boot).Occurs (fun _ s e => QueuesStartTimer cfg id s e) pre
  | _ => False

/-- `main` has passed the acquire, or would not block on it. -/
def GateOpen (s : App) : Prop :=
  s.main.PassedAcquire ∨ s.meshControlDataFound.acquire?.isSome

/-- The step that passes the acquire and enters `mesh_connect`. -/
def EntersMeshConnect (s : App) (e : AppEvent) : Prop :=
  s.main = .acquireControl ∧ ∃ io, e = .main io

/-! ## where a timeout comes from -/

/-- The timers pending in the queue are those that blocked registrations
have queued; the other pending events have ids of their own. -/
structure TimersTraced (cfg : Config) (boot : Boot) (h : List AppEvent) (s : App) : Prop where
  origin : ∀ q ∈ s.queue.pending, q.callback = .meshIfaceStartMaxWaitCb →
    (app cfg boot).Occurs (fun _ s e => QueuesStartTimer cfg q.id s e) h
  other : ∀ q ∈ s.queue.pending, q.callback = .networkDnsOptQuerySet →
    ¬ (app cfg boot).Occurs (fun _ s e => QueuesStartTimer cfg q.id s e) h
  fresh : ∀ id, (app cfg boot).Occurs (fun _ s e => QueuesStartTimer cfg id s e) h →
    id < s.queue.nextId

/-- A step that queues nothing keeps the account. -/
theorem TimersTraced.of_no_push {cfg : Config} {boot : Boot} {h : List AppEvent} {s s' : App}
    {e : AppEvent} (ht : TimersTraced cfg boot h s) (hrun : (app cfg boot).run h = some s)
    (hstep : App.step cfg s e = some s')
    (hpending : ∀ q ∈ s'.queue.pending, q ∈ s.queue.pending)
    (hnext : s'.queue.nextId = s.queue.nextId) (he : ∀ id, ¬ QueuesStartTimer cfg id s e) :
    TimersTraced cfg boot (h ++ [e]) s' := by
  have hsame : ∀ id, (app cfg boot).Occurs (fun _ s e => QueuesStartTimer cfg id s e) (h ++ [e]) ↔
      (app cfg boot).Occurs (fun _ s e => QueuesStartTimer cfg id s e) h := by
    intro id
    rw [Machine.occurs_concat hrun hstep]
    exact or_iff_left (he id)
  constructor
  · intro q hq hcb
    exact (hsame q.id).mpr (ht.origin q (hpending q hq) hcb)
  · intro q hq hcb hocc
    exact ht.other q (hpending q hq) hcb ((hsame q.id).mp hocc)
  · intro id hocc
    rw [hnext]
    exact ht.fresh id ((hsame id).mp hocc)

/-- A step that posts one event keeps the account when it is a blocked
registration exactly if the event is a start timer. -/
theorem TimersTraced.of_push {cfg : Config} {boot : Boot} {h : List AppEvent} {s s' : App}
    {e : AppEvent} (ht : TimersTraced cfg boot h s) (hrun : (app cfg boot).run h = some s)
    (hstep : App.step cfg s e = some s') {callback : AppCallback} {delay : Nat} {periodic : Bool}
    (hqueue : s'.queue = s.queue.push callback delay periodic)
    (he : ∀ id, QueuesStartTimer cfg id s e ↔
      callback = .meshIfaceStartMaxWaitCb ∧ id = s.queue.nextId) :
    TimersTraced cfg boot (h ++ [e]) s' := by
  have hocc : ∀ id, (app cfg boot).Occurs (fun _ s e => QueuesStartTimer cfg id s e) (h ++ [e]) ↔
      (app cfg boot).Occurs (fun _ s e => QueuesStartTimer cfg id s e) h ∨
        callback = .meshIfaceStartMaxWaitCb ∧ id = s.queue.nextId := by
    intro id
    rw [Machine.occurs_concat hrun hstep, he id]
  have hmem : ∀ q ∈ s'.queue.pending,
      q = ⟨s.queue.nextId, callback, delay, periodic⟩ ∨ q ∈ s.queue.pending := by
    simp [hqueue]
  constructor
  · intro q hq hcb
    rw [hocc]
    cases hmem q hq with
    | inl hnew => exact Or.inr (by rw [hnew] at hcb ⊢; exact ⟨hcb, rfl⟩)
    | inr hold => exact Or.inl (ht.origin q hold hcb)
  · intro q hq hcb
    rw [hocc]
    cases hmem q hq with
    | inl hnew =>
        rw [hnew] at hcb ⊢
        have hfresh := ht.fresh s.queue.nextId
        have hne : callback ≠ .meshIfaceStartMaxWaitCb := by
          rw [show callback = .networkDnsOptQuerySet from hcb]
          decide
        simp only [hne, false_and, or_false]
        exact fun h => Nat.lt_irrefl _ (hfresh h)
    | inr hold =>
        have hlt := s.queue.id_lt q hold
        have hne : q.id ≠ s.queue.nextId := Nat.ne_of_lt hlt
        simp only [hne, and_false, or_false]
        exact ht.other q hold hcb
  · intro id hid
    have hnext : s'.queue.nextId = s.queue.nextId + 1 := by rw [hqueue]; rfl
    rw [hnext]
    cases (hocc id).mp hid with
    | inl h => exact Nat.lt_succ_of_lt (ht.fresh id h)
    | inr h => exact h.2 ▸ Nat.lt_succ_self _

/-- Every step keeps the account. -/
theorem timersTraced_step {cfg : Config} {boot : Boot} {h : List AppEvent} {s s' : App}
    {e : AppEvent} (ht : TimersTraced cfg boot h s) (hrun : (app cfg boot).run h = some s)
    (hstep : App.step cfg s e = some s') : TimersTraced cfg boot (h ++ [e]) s' := by
  cases appStep_of_step hstep with
  | registeredPermitted hup hblock =>
      have hnot := (controlBlocks_eq_false_iff _).mp hblock
      exact ht.of_no_push hrun hstep (fun _ hq => hq) rfl fun id hq => hnot hq.2.1
  | @registeredBlocked io hup hblock =>
      have hbegins : BeginsWithBlock s.control.value := (controlBlocks_iff _).mp hblock
      by_cases hpost : cfg.meshIfaceStartMaxWait ≠ 0 ∧ io.queueAccepts = true
      · refine ht.of_push hrun hstep (if_pos (by simpa using hpost)) fun id => ?_
        simp [QueuesStartTimer, hup, hbegins, hpost]
      · have hsame : s.queue.callIn (decide (cfg.meshIfaceStartMaxWait ≠ 0) && io.queueAccepts)
            cfg.meshIfaceStartMaxWait .meshIfaceStartMaxWaitCb = s.queue :=
          if_neg (by simpa using hpost)
        exact ht.of_no_push hrun hstep (fun q hq => by simpa only [hsame] using hq)
          (by simp only [hsame]) fun id hq => hpost ⟨hq.2.2.1, hq.2.2.2.1⟩
  | @registeredUp io hup =>
      have hnot : ∀ id, ¬ QueuesStartTimer cfg id s (.clientRegistered io) := by
        intro id hq
        exact absurd (hup.symm.trans hq.1) (by decide)
      by_cases hpost : io.queueAccepts = true
      · exact ht.of_push hrun hstep (if_pos hpost) fun id => by simp [hnot id]
      · have hsame : s.queue.callEvery io.queueAccepts dnsQuerySetPeriod .networkDnsOptQuerySet =
            s.queue := if_neg hpost
        exact ht.of_no_push hrun hstep (fun q hq => by simpa only [hsame] using hq)
          (by simp only [hsame]) hnot
  | startMaxWait hq hcb =>
      exact ht.of_no_push hrun hstep (fun _ hp => EventQueue.mem_pending_of_dispatch hq hp)
        (EventQueue.nextId_of_dispatch hq) fun id h => h
  | querySet hq hcb =>
      exact ht.of_no_push hrun hstep (fun _ hp => EventQueue.mem_pending_of_dispatch hq hp)
        (EventQueue.nextId_of_dispatch hq) fun id h => h
  | _ => exact ht.of_no_push hrun hstep (fun _ hq => hq) rfl fun id h => h

theorem timersTraced {cfg : Config} {boot : Boot} {h : List AppEvent} {s : App}
    (hrun : (app cfg boot).run h = some s) : TimersTraced cfg boot h s := by
  refine (app cfg boot).invariant (R := fun h s => TimersTraced cfg boot h s) ?_ ?_ hrun
  · constructor
    · exact fun q hq => absurd hq List.not_mem_nil
    · exact fun q hq => absurd hq List.not_mem_nil
    · exact fun id hid => absurd hid Machine.not_occurs_nil
  · exact fun pre s e s' hrun ht hstep => timersTraced_step ht hrun hstep

/-! ## the gate -/

/-- A step opens the gate exactly when it is justifying, and none closes
it. -/
theorem gateOpen_step {cfg : Config} {boot : Boot} {pre : List AppEvent} {s s' : App}
    {e : AppEvent} (hrun : (app cfg boot).run pre = some s) (hstep : App.step cfg s e = some s') :
    GateOpen s' ↔ GateOpen s ∨ Justifying cfg boot pre s e := by
  have ht : TimersTraced cfg boot pre s := timersTraced hrun
  have hreleased : s.meshControlDataFound.release.acquire?.isSome :=
    s.meshControlDataFound.isSome_acquire?_release (by decide)
  cases appStep_of_step hstep with
  | acquireControl hpc hsem =>
      have hbefore : GateOpen s := Or.inr (by simp [hsem])
      have hpassed : MainPc.writeBooting.PassedAcquire := by decide
      exact iff_of_true (Or.inl hpassed) (Or.inl hbefore)
  | writeBooting hpc =>
      have hbefore : GateOpen s := Or.inl (by rw [hpc]; decide)
      have hpassed : MainPc.addEventListener.PassedAcquire := by decide
      exact iff_of_true (Or.inl hpassed) (Or.inl hbefore)
  | acquireGlobalIp hpc hsem =>
      have hbefore : GateOpen s := Or.inl (by rw [hpc]; decide)
      have hpassed : MainPc.setupAgain.PassedAcquire := by decide
      exact iff_of_true (Or.inl hpassed) (Or.inl hbefore)
  | advance pc started hpc =>
      have hsame : GateOpen { s with main := pc, borderRouterStarted := started } ↔ GateOpen s :=
        or_congr_left hpc.2.1
      exact hsame.trans (or_iff_left id).symm
  | registeredPermitted hup hblock =>
      have hnot := (controlBlocks_eq_false_iff _).mp hblock
      exact iff_of_true (Or.inr hreleased) (Or.inr ⟨hup, hnot⟩)
  | registeredBlocked hup hblock =>
      have hbegins : BeginsWithBlock s.control.value := (controlBlocks_iff _).mp hblock
      exact (or_iff_left fun hj => hj.2 hbegins).symm
  | registeredUp hup =>
      exact (or_iff_left fun hj => absurd (hup.symm.trans hj.1) (by decide)).symm
  | putPermitted hup hblock =>
      have hnot := (controlBlocks_eq_false_iff _).mp hblock
      exact iff_of_true (Or.inr hreleased) (Or.inr ⟨hup, hnot⟩)
  | putStored hstored =>
      refine (or_iff_left fun hj => ?_).symm
      cases hstored with
      | inl hup => exact absurd (hup.symm.trans hj.1) (by decide)
      | inr hblock => exact hj.2 ((controlBlocks_iff _).mp hblock)
  | startMaxWait hq hcb =>
      obtain ⟨hmem, hid⟩ := EventQueue.mem_of_dispatch hq
      have horigin := ht.origin _ hmem hcb
      rw [hid] at horigin
      exact iff_of_true (Or.inr hreleased) (Or.inr horigin)
  | querySet hq hcb =>
      obtain ⟨hmem, hid⟩ := EventQueue.mem_of_dispatch hq
      have hother := ht.other _ hmem hcb
      rw [hid] at hother
      exact (or_iff_left hother).symm
  | _ => exact (or_iff_left id).symm

theorem gateOpen_iff {cfg : Config} {boot : Boot} {h : List AppEvent} {s : App}
    (hrun : (app cfg boot).run h = some s) :
    GateOpen s ↔ (app cfg boot).Occurs (Justifying cfg boot) h := by
  have hclosed : ¬ GateOpen (App.boot cfg boot) := by
    have hpc : ¬ MainPc.setup.PassedAcquire := by decide
    have hempty : ¬ (Semaphore.empty semaphoreTokenLimit).acquire?.isSome :=
      Semaphore.not_isSome_acquire?_empty
    exact not_or.mpr ⟨hpc, hempty⟩
  exact Machine.latch_iff_occurs hclosed (fun _ _ _ _ hs hstep => gateOpen_step hs hstep) hrun

/-- At the acquire, `main` goes on exactly when the gate is open. -/
theorem isSome_step_acquire_iff {cfg : Config} {s : App} (hpc : s.main = .acquireControl)
    (io : MainIo) : (App.step cfg s (.main io)).isSome ↔ GateOpen s := by
  have hnot : ¬ s.main.PassedAcquire := by
    rw [hpc]
    decide
  have hgate : GateOpen s ↔ s.meshControlDataFound.acquire?.isSome := or_iff_right hnot
  rw [hgate]
  simp only [App.step, App.mainStep, hpc]
  cases s.meshControlDataFound.acquire? with
  | none => simp
  | some sem => simp

/-- `mesh_connect` is entered once at most. -/
theorem entersMeshConnect_unique {cfg : Config} {boot : Boot} {h p q : List AppEvent}
    {s s' t t' : App} {e f : AppEvent} (hp : (app cfg boot).Takes h p s e s')
    (hq : (app cfg boot).Takes h q t f t') (he : EntersMeshConnect s e)
    (hf : EntersMeshConnect t f) : p = q := by
  refine Machine.Takes.eq_of_latch (L := fun s => s.main.PassedAcquire) ?_ ?_ ?_ hp hq he hf
  · intro s e s' hstep hpassed
    exact Nat.lt_of_lt_of_le hpassed (appStep_of_step hstep).rank_le
  · intro s e s' hstep he
    obtain ⟨hpc, io, rfl⟩ := he
    have happ : AppStep cfg s (.main io) s' := appStep_of_step hstep
    cases happ with
    | acquireControl _ hsem =>
        have hpassed : MainPc.writeBooting.PassedAcquire := by decide
        exact hpassed
    | writeBooting hpc' => exact absurd (hpc.symm.trans hpc') (by decide)
    | acquireGlobalIp hpc' hsem => exact absurd (hpc.symm.trans hpc') (by decide)
    | advance pc started hadvances =>
        rw [hpc] at hadvances
        exact hadvances.1
  · intro s e he hpassed
    rw [he.1] at hpassed
    exact absurd hpassed (by decide)

/-! ## a value that stays blocked -/

/-- With `BLOCK` at boot and in every PUT, the value begins with `BLOCK` all
the time. -/
theorem beginsWithBlock_of_puts {cfg : Config} {boot : Boot} {h : List AppEvent}
    (hboot : BeginsWithBlock (App.boot cfg boot).control.value)
    (hputs : ∀ cval io, AppEvent.putControl (some cval) io ∈ h →
      meshIfaceCtrlBlock.chars <+: cval.chars) :
    (app cfg boot).Holds (fun _ s => BeginsWithBlock s.control.value) h := by
  have halways : (app cfg boot).Always (fun _ _ e => ∀ cval io,
      e = .putControl (some cval) io → meshIfaceCtrlBlock.chars <+: cval.chars) h :=
    fun _ _ _ _ ht cval io he => hputs cval io (he ▸ ht.mem)
  refine Machine.holds_of_always hboot ?_ halways
  intro pre s e s' _ hs he hstep
  have happ : AppStep cfg s e s' := appStep_of_step hstep
  cases happ with
  | putPermitted hup hblock => exact beginsWithBlock_update _ _ (he _ _ rfl)
  | putStored hstored => exact beginsWithBlock_update _ _ (he _ _ rfl)
  | _ => exact hs

/-- Without a timeout such a run has no justifying event. -/
theorem not_passedAcquire_of_puts {cfg : Config} {boot : Boot} {h : List AppEvent} {s : App}
    (hrun : (app cfg boot).run h = some s) (hwait : cfg.meshIfaceStartMaxWait = 0)
    (hboot : BeginsWithBlock (App.boot cfg boot).control.value)
    (hputs : ∀ cval io, AppEvent.putControl (some cval) io ∈ h →
      meshIfaceCtrlBlock.chars <+: cval.chars) : ¬ s.main.PassedAcquire := by
  intro hpassed
  have hvalue := beginsWithBlock_of_puts hboot hputs
  obtain ⟨pre, t, e, t', htakes, hj⟩ := (gateOpen_iff hrun).mp (Or.inl hpassed)
  have hpre : pre <+: h := (List.prefix_append pre [e]).trans htakes.1
  cases e with
  | main io => exact hj
  | clientRegistered io => exact hj.2 (hvalue pre t hpre htakes.2.1)
  | putControl payload io =>
      cases payload with
      | none => exact hj
      | some cval => exact hj.2 (beginsWithBlock_update _ _ (hputs cval io htakes.mem))
  | dispatch id resolverAccepts =>
      obtain ⟨pre', u, f, u', htakes', hqueues⟩ := hj
      cases f with
      | clientRegistered io => exact hqueues.2.2.1 hwait
      | _ => exact hqueues
  | meshStatus event ipAddress => exact hj
  | dnsAnswer q result address => exact hj

/-! ## no start without permission, no lost permission -/

/-- **Start gate**: in every reachable state `main` has passed the acquire,
or would not block on it, exactly when a justifying event has occurred; it
enters `mesh_connect` once at most; and without a timeout, and with `BLOCK`
as boot value and in every PUT, it never does. -/
theorem start_gate (cfg : Config) (boot : Boot) {h : List AppEvent} {s : App}
    (hrun : (app cfg boot).run h = some s) :
    (GateOpen s ↔ (app cfg boot).Occurs (Justifying cfg boot) h) ∧
      (s.main = .acquireControl → ∀ io, (App.step cfg s (.main io)).isSome ↔ GateOpen s) ∧
      (∀ p q t t' u u' e f, (app cfg boot).Takes h p t e t' → (app cfg boot).Takes h q u f u' →
        EntersMeshConnect t e → EntersMeshConnect u f → p = q) ∧
      (cfg.meshIfaceStartMaxWait = 0 → BeginsWithBlock (App.boot cfg boot).control.value →
        (∀ cval io, AppEvent.putControl (some cval) io ∈ h →
          meshIfaceCtrlBlock.chars <+: cval.chars) →
        ¬ s.main.PassedAcquire) := by
  have honce : ∀ p q t t' u u' e f, (app cfg boot).Takes h p t e t' →
      (app cfg boot).Takes h q u f u' → EntersMeshConnect t e → EntersMeshConnect u f → p = q :=
    fun _ _ _ _ _ _ _ _ hp hq he hf => entersMeshConnect_unique hp hq he hf
  exact ⟨gateOpen_iff hrun, fun hpc io => isSome_step_acquire_iff hpc io, honce,
    fun hwait hboot hputs => not_passedAcquire_of_puts hrun hwait hboot hputs⟩

/-- A registration with memory for its event, and nothing to resolve. -/
def plainRegistration : AppEvent :=
  .clientRegistered ⟨true, ⟨false, fun _ => none, fun _ => false⟩, fun _ => false⟩

/-- A device without a record, behind the backhaul interface `1`. -/
def freshBoot : Boot := ⟨⟨false, false⟩, none, 1⟩

/-- A blocked device is registered, its timer expires, and `main` enters
`mesh_connect`. -/
theorem start_gate_timeout :
    ∃ s, (app .blocked freshBoot).run [plainRegistration, .main ⟨.ok, .none⟩,
        .dispatch 1 fun _ => false, .main ⟨.ok, .none⟩] = some s ∧ s.main = .writeBooting ∧
      (GateOpen s ↔ (app .blocked freshBoot).Occurs (Justifying .blocked freshBoot)
        [plainRegistration, .main ⟨.ok, .none⟩, .dispatch 1 fun _ => false,
          .main ⟨.ok, .none⟩]) :=
  ⟨_, rfl, rfl, (start_gate .blocked freshBoot rfl).1⟩

end PelionBorderRouter
