import Mathlib.Algebra.Order.Group.Nat
import PelionBorderRouter.App.Address
import PelionBorderRouter.App.Queue
import PelionBorderRouter.App.Resolver
import PelionBorderRouter.Lib.Account

/-!
# PelionBorderRouter.App.Refresh

The refreshes of the DNS queries over whole runs.  Each registration that
finds the mesh up posts one for good, so there are exactly as many as there
have been such registrations, each with its own period of 12 hours.  None is
ever lost, whatever else the queue dispatches, and each one asks for both
names as they are then (`refreshes_kept`).
-/

namespace PelionBorderRouter

variable {cfg : Config} {boot : Boot}

/-- The refreshes a step posts. -/
def refreshesPosted (s : App) : AppEvent → Nat
  | .clientRegistered io => if s.meshInterfaceUp && io.queueAccepts then 1 else 0
  | _ => 0

/-- A refresh is set up when there is an interface to ask through. -/
structure RefreshSetUp (s : App) (q : Queued AppCallback) : Prop where
  periodic : q.periodic = true
  period : q.delay = dnsQuerySetPeriod
  interface : s.dns.dns.backboneInterface ≠ none

/-! ## one step -/

theorem refreshesPosted_step {pre : List AppEvent} {s s' : App} {e : AppEvent}
    (hrun : (app cfg boot).run pre = some s) (hstep : AppStep cfg s e s') :
    s'.queue.count .networkDnsOptQuerySet =
      s.queue.count .networkDnsOptQuerySet + refreshesPosted s e := by
  obtain ⟨hposts, hnone⟩ := count_refresh_step hrun hstep
  by_cases hq : QueuesRefresh s e
  · rw [hposts hq]
    cases e with
    | clientRegistered io => simp [refreshesPosted, hq.1, hq.2]
    | _ => exact hq.elim
  · rw [hnone hq]
    cases e with
    | clientRegistered io =>
        have hnot : ¬ (s.meshInterfaceUp && io.queueAccepts) = true := by
          rwa [Bool.and_eq_true]
        simp only [refreshesPosted, if_neg hnot, Nat.add_zero]
    | _ => rfl

/-- The interface stays, once it is installed. -/
theorem backboneInterface_step {s s' : App} {e : AppEvent} (hstep : AppStep cfg s e s')
    (hs : s.dns.dns.backboneInterface ≠ none) : s'.dns.dns.backboneInterface ≠ none := by
  cases dns_step hstep with
  | inl hconf =>
      obtain ⟨io, rfl, _, hdns⟩ := hconf
      rw [hdns, backboneInterface_configure]
      exact Option.some_ne_none _
  | inr hsame => exact hsame.2 ▸ hs

/-- A refresh of a later state is an old one, or the one just posted. -/
theorem mem_pending_step {s s' : App} {e : AppEvent} (hstep : AppStep cfg s e s')
    {q : Queued AppCallback} (hq : q ∈ s'.queue.pending)
    (hcb : q.callback = .networkDnsOptQuerySet) :
    q ∈ s.queue.pending ∨ q.periodic = true ∧ q.delay = dnsQuerySetPeriod ∧
      s'.dns.dns.backboneInterface ≠ none := by
  cases hstep with
  | registeredBlocked hup hblock =>
      cases EventQueue.mem_pending_of_callIn hq with
      | inl hold => exact Or.inl hold
      | inr hnew => exact absurd (hnew.1.symm.trans hcb) (by decide)
  | @registeredUp io hup =>
      have hiface : (networkDnsOptConfigure s.dns.dns wsBorderRouter s.backhaulInterface
          io.configure).backboneInterface ≠ none := by
        simp [backboneInterface_configure]
      cases haccepts : io.queueAccepts with
      | false =>
          rw [haccepts] at hq
          exact Or.inl hq
      | true =>
          rw [haccepts] at hq
          cases List.mem_cons.mp hq with
          | inl hnew => exact Or.inr (hnew ▸ ⟨rfl, rfl, hiface⟩)
          | inr hold => exact Or.inl hold
  | startMaxWait hdispatch _ => exact Or.inl (EventQueue.mem_pending_of_dispatch hdispatch hq)
  | querySet hdispatch _ => exact Or.inl (EventQueue.mem_pending_of_dispatch hdispatch hq)
  | _ => exact Or.inl hq

/-- No step takes a periodic event off the queue. -/
theorem mem_pending_step_of_periodic {s s' : App} {e : AppEvent} (hstep : AppStep cfg s e s')
    {q : Queued AppCallback} (hq : q ∈ s.queue.pending) (hperiodic : q.periodic = true) :
    q ∈ s'.queue.pending := by
  cases hstep with
  | registeredBlocked hup hblock => exact EventQueue.mem_callIn hq _ _ _
  | registeredUp hup => exact EventQueue.mem_callEvery hq _ _ _
  | startMaxWait hdispatch _ =>
      exact EventQueue.mem_pending_dispatch_of_periodic hdispatch hq hperiodic
  | querySet hdispatch _ =>
      exact EventQueue.mem_pending_dispatch_of_periodic hdispatch hq hperiodic
  | _ => exact hq

/-! ## whole runs -/

theorem refreshSetUp {h : List AppEvent} {s : App} (hrun : (app cfg boot).run h = some s) :
    ∀ q ∈ s.queue.pending, q.callback = .networkDnsOptQuerySet → RefreshSetUp s q := by
  refine (app cfg boot).invariant (R := fun _ s => ∀ q ∈ s.queue.pending,
    q.callback = .networkDnsOptQuerySet → RefreshSetUp s q) ?_ ?_ hrun
  · exact fun q hq => absurd hq List.not_mem_nil
  · intro pre s e s' _ ih hstep q hq hcb
    have happ : AppStep cfg s e s' := appStep_of_step hstep
    cases mem_pending_step happ hq hcb with
    | inl hold =>
        obtain ⟨hperiodic, hperiod, hiface⟩ := ih q hold hcb
        exact ⟨hperiodic, hperiod, backboneInterface_step happ hiface⟩
    | inr hnew => exact ⟨hnew.1, hnew.2.1, hnew.2.2⟩

/-- **Refreshes for good**: at every moment there are as many refreshes as
registrations have posted.  Each one has a period of 12 hours, can be
dispatched, which calls `network_dns_opt_query_set` and does nothing else,
passes both names as they are then to the resolver, and is there in all later
states. -/
theorem refreshes_kept (cfg : Config) (boot : Boot) {h : List AppEvent} {s : App}
    (hrun : (app cfg boot).run h = some s) :
    s.queue.count .networkDnsOptQuerySet = (app cfg boot).total refreshesPosted h ∧
      ∀ q ∈ s.queue.pending, q.callback = .networkDnsOptQuerySet →
        q.delay = dnsQuerySetPeriod ∧
        (∀ resolverAccepts,
          App.step cfg s (.dispatch q.id resolverAccepts) =
            some { s with dns := s.dns.querySet resolverAccepts } ∧
          queriesPassed cfg s (.dispatch q.id resolverAccepts) =
            [⟨.bootstrap, nameCStr? s.dns.dns.bootstrapServerName⟩,
              ⟨.lwm2m, nameCStr? s.dns.dns.lwm2mServerName⟩]) ∧
        ∀ d t, (app cfg boot).run (h ++ d) = some t → q ∈ t.queue.pending := by
  constructor
  · have hbalance := Machine.total_add_potential_eq (f := fun _ _ => 0) (a := refreshesPosted)
      (Φ := fun s : App => s.queue.count .networkDnsOptQuerySet)
      (fun _ _ _ _ hpre hstep =>
        (Nat.zero_add _).trans (refreshesPosted_step hpre (appStep_of_step hstep))) hrun
    rw [Machine.total_zero hrun, Nat.zero_add] at hbalance
    exact hbalance.trans (Nat.zero_add _)
  · intro q hq hcb
    obtain ⟨hperiodic, hperiod, hiface⟩ := refreshSetUp hrun q hq hcb
    have hdispatch := EventQueue.dispatch_of_periodic hq hperiodic
    refine ⟨hperiod, fun resolverAccepts => ?_, fun d t ht => ?_⟩
    · constructor
      · simp [App.step, hdispatch, runCallback, hcb]
      · obtain ⟨iface, hsome⟩ := Option.ne_none_iff_exists'.mp hiface
        rw [queriesPassed_dispatch cfg hdispatch, if_pos hcb]
        simp [networkDnsOptQuerySet, hsome]
    · refine Machine.kept_along (L := fun s : App => q ∈ s.queue.pending) ?_
        (List.prefix_append h d) hrun hq ht
      intro s e s' hstep hmem
      exact mem_pending_step_of_periodic (appStep_of_step hstep) hmem hperiodic

/-- The cloud registers twice with the mesh up. -/
theorem refreshes_kept_twice :
    (app .shipped freshBoot).total refreshesPosted
      (upRun ++ [plainRegistration, plainRegistration]) = 2 := by
  obtain ⟨s, hrun, hcount⟩ : ∃ s, (app .shipped freshBoot).run
      (upRun ++ [plainRegistration, plainRegistration]) = some s ∧
        s.queue.count .networkDnsOptQuerySet = 2 := ⟨_, rfl, rfl⟩
  exact (refreshes_kept .shipped freshBoot hrun).1.symm.trans hcount

end PelionBorderRouter
