import PelionBorderRouter.App.Gate

/-!
# PelionBorderRouter.App.Block

A `BLOCK` that comes while permission is already waiting.  The control value
is looked at where permission is given, in the callbacks; `main` passes the
acquire on the token alone, at a later moment, and looks at nothing.  A PUT
of `BLOCK` in between is stored and read back, but the token is still there.

`block_honoured_of_puts` says that `mesh_connect` is entered with a
permitting value, or after a start timeout, in every run without such a
PUT, and that any such PUT leads to a state from which `main` can enter
against the value.
-/

namespace PelionBorderRouter

variable {cfg : Config} {boot : Boot}

/-- A start timeout that a blocked registration has queued expires. -/
def StartTimeoutExpires (cfg : Config) (boot : Boot) (pre : List AppEvent) (_ : App) :
    AppEvent → Prop
  | .dispatch id _ => (app cfg boot).Occurs (fun _ s e => QueuesStartTimer cfg id s e) pre
  | _ => False

/-- `main` has not passed the acquire, and nothing keeps it from doing so. -/
def CanEnter (s : App) : Prop :=
  ¬ s.main.PassedAcquire ∧ s.meshControlDataFound.acquire?.isSome

/-- The control value permits the start, or a start timeout has expired. -/
def BlockHonoured (cfg : Config) (boot : Boot) (pre : List AppEvent) (s : App) : Prop :=
  ¬ BeginsWithBlock s.control.value ∨ (app cfg boot).Occurs (StartTimeoutExpires cfg boot) pre

/-- No PUT of a value that begins with `BLOCK` comes while `main` can enter,
unless a start timeout has expired before. -/
def NoLateBlock (cfg : Config) (boot : Boot) (pre : List AppEvent) (s : App) : AppEvent → Prop
  | .putControl (some cval) io =>
      BeginsWithBlock (s.control.update (some cval) io).value → CanEnter s →
        (app cfg boot).Occurs (StartTimeoutExpires cfg boot) pre
  | _ => True

/-! ## one step -/

/-- The timeout is dispatched under an id that a blocked registration has
queued it with. -/
theorem startTimeoutExpires_of_dispatch {pre : List AppEvent} {s : App} {id : Nat}
    {resolverAccepts : Server → Bool} {q : Queued AppCallback} {queue : EventQueue AppCallback}
    (hrun : (app cfg boot).run pre = some s) (hq : s.queue.dispatch id = some (q, queue))
    (hcb : q.callback = .meshIfaceStartMaxWaitCb) :
    StartTimeoutExpires cfg boot pre s (.dispatch id resolverAccepts) := by
  obtain ⟨hmem, hid⟩ := EventQueue.mem_of_dispatch hq
  have horigin := (timersTraced hrun).origin q hmem hcb
  rwa [hid] at horigin

/-- As long as `main` enters only on an honoured value, a step leaves it so
exactly when it is no late `BLOCK`. -/
theorem blockHonoured_step {pre : List AppEvent} {s s' : App} {e : AppEvent}
    (hs : CanEnter s → BlockHonoured cfg boot pre s) (hrun : (app cfg boot).run pre = some s)
    (hstep : (app cfg boot).step s e = some s') :
    (CanEnter s' → BlockHonoured cfg boot (pre ++ [e]) s') ↔ NoLateBlock cfg boot pre s e := by
  have happ : AppStep cfg s e s' := appStep_of_step hstep
  have hmono : (app cfg boot).Occurs (StartTimeoutExpires cfg boot) pre →
      (app cfg boot).Occurs (StartTimeoutExpires cfg boot) (pre ++ [e]) :=
    fun h => h.mono (List.prefix_append pre [e])
  -- a step that neither gives permission nor touches the value
  have hkeep : (CanEnter s' → CanEnter s) → s'.control = s.control → CanEnter s' →
      BlockHonoured cfg boot (pre ++ [e]) s' := by
    intro hcan hvalue henter
    have hbefore := hs (hcan henter)
    rw [BlockHonoured, hvalue]
    exact hbefore.imp_right hmono
  cases happ with
  | acquireControl hpc hsem =>
      have hpassed : MainPc.writeBooting.PassedAcquire := by decide
      exact iff_of_true (fun henter => absurd hpassed henter.1) trivial
  | writeBooting hpc =>
      have hpassed : MainPc.addEventListener.PassedAcquire := by decide
      exact iff_of_true (fun henter => absurd hpassed henter.1) trivial
  | acquireGlobalIp hpc hsem =>
      have hpassed : MainPc.setupAgain.PassedAcquire := by decide
      exact iff_of_true (fun henter => absurd hpassed henter.1) trivial
  | advance pc started hpc =>
      have hback : ¬ pc.PassedAcquire → ¬ s.main.PassedAcquire := fun h hp => h (hpc.2.1.mpr hp)
      exact iff_of_true (hkeep (fun henter => ⟨hback henter.1, henter.2⟩) rfl) trivial
  | registeredPermitted hup hblock =>
      have hnot := (controlBlocks_eq_false_iff _).mp hblock
      exact iff_of_true (fun _ => Or.inl hnot) trivial
  | putPermitted hup hblock =>
      have hnot := (controlBlocks_eq_false_iff _).mp hblock
      exact iff_of_true (fun _ => Or.inl hnot) fun hbegins => absurd hbegins hnot
  | @putStored cval io hstored =>
      have hocc : (app cfg boot).Occurs (StartTimeoutExpires cfg boot)
          (pre ++ [.putControl (some cval) io]) ↔
          (app cfg boot).Occurs (StartTimeoutExpires cfg boot) pre :=
        (Machine.occurs_concat hrun hstep).trans (or_iff_left id)
      unfold BlockHonoured
      rw [hocc, ← imp_iff_not_or]
      exact imp.swap
  | @startMaxWait id resolverAccepts q queue hq hcb =>
      have hexpires : StartTimeoutExpires cfg boot pre s (.dispatch id resolverAccepts) :=
        startTimeoutExpires_of_dispatch hrun hq hcb
      have hocc := (Machine.occurs_concat hrun hstep).mpr (Or.inr hexpires)
      exact iff_of_true (fun _ => Or.inr hocc) trivial
  | _ => exact iff_of_true (hkeep id rfl) trivial

/-- A step that enters `mesh_connect` finds a token. -/
theorem canEnter_of_enters {s s' : App} {e : AppEvent} (he : EntersMeshConnect s e)
    (hstep : App.step cfg s e = some s') : CanEnter s := by
  obtain ⟨hpc, io, rfl⟩ := he
  have hnot : ¬ s.main.PassedAcquire := by
    rw [hpc]
    decide
  have hgoes : (App.step cfg s (.main io)).isSome := by simp [hstep]
  have hopen : GateOpen s := (isSome_step_acquire_iff hpc io).mp hgoes
  exact ⟨hnot, hopen.resolve_left hnot⟩

/-! ## whole runs -/

/-- In every state of a run, if `main` can enter, the control value permits
the start or a start timeout has expired, exactly when no late `BLOCK`
comes. -/
theorem canEnter_honoured_iff (cfg : Config) (boot : Boot) (h : List AppEvent) :
    (app cfg boot).Holds (fun pre s => CanEnter s → BlockHonoured cfg boot pre s) h ↔
      (app cfg boot).Always (NoLateBlock cfg boot) h := by
  have hstart : CanEnter (App.boot cfg boot) → BlockHonoured cfg boot [] (App.boot cfg boot) :=
    fun henter => absurd henter.2 Semaphore.not_isSome_acquire?_empty
  exact Machine.holds_iff_always hstart
    (fun _ _ _ _ hrun hs hstep => blockHonoured_step hs hrun hstep) h

/-- **An accepted `BLOCK`**: in every run without a late `BLOCK`, at the
moment `main` enters `mesh_connect` the control value does not begin with
`BLOCK` or a start timeout has expired.  And the runs without a late `BLOCK`
are those in which this holds of every moment at which `main` can enter. -/
theorem block_honoured_of_puts (cfg : Config) (boot : Boot) (h : List AppEvent) :
    ((app cfg boot).Always (NoLateBlock cfg boot) h →
        (app cfg boot).Always
          (fun pre s e => EntersMeshConnect s e → BlockHonoured cfg boot pre s) h) ∧
      ((app cfg boot).Holds (fun pre s => CanEnter s → BlockHonoured cfg boot pre s) h ↔
        (app cfg boot).Always (NoLateBlock cfg boot) h) := by
  refine ⟨fun hputs pre s e s' htakes henters => ?_, canEnter_honoured_iff cfg boot h⟩
  have hcan := canEnter_of_enters henters htakes.2.2
  have hpre : pre <+: h := (List.prefix_append pre [e]).trans htakes.1
  exact (canEnter_honoured_iff cfg boot h).mpr hputs pre s hpre htakes.2.1 hcan

/-- A PUT of `BLOCK` to 33455/0/13. -/
def putBlock : AppEvent := .putControl (some meshIfaceCtrlBlock) ⟨fun _ => 0, false⟩

/-- The registration finds `CONTINUE` and gives permission; `BLOCK` is PUT
before `main` comes to the acquire, and `main` enters `mesh_connect`. -/
theorem block_after_permission_not_honoured :
    ¬ (app .shipped freshBoot).Always
        (fun pre s e => EntersMeshConnect s e → BlockHonoured .shipped freshBoot pre s)
        [plainRegistration, .main ⟨.ok, .none⟩, putBlock, .main ⟨.ok, .none⟩] := by
  intro halways
  have hlast := halways [plainRegistration, .main ⟨.ok, .none⟩, putBlock] _ (.main ⟨.ok, .none⟩) _
    ⟨List.prefix_refl _, rfl, rfl⟩ ⟨rfl, _, rfl⟩
  cases hlast with
  | inl hnot => exact hnot (beginsWithBlock_update _ _ (List.prefix_refl _))
  | inr hocc =>
      obtain ⟨p, t, f, t', htakes, hexpires⟩ := hocc
      have hmem : f ∈ [plainRegistration, .main ⟨.ok, .none⟩, putBlock] := htakes.mem
      simp only [List.mem_cons, List.not_mem_nil, or_false] at hmem
      rcases hmem with rfl | rfl | rfl <;> exact hexpires

end PelionBorderRouter
