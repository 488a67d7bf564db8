import PelionBorderRouter.App.Published
import PelionBorderRouter.Dns.Answers

/-!
# PelionBorderRouter.App.Resolver

The DNS module inside the application: what goes out to the resolver, and
what comes back to the border router.

* A result reaches the border router only after the mesh has come up: the
  border router is installed by a registration that finds
  `mesh_interface_up` set (`dns_results_after_up`).
* The names that go out are those of the latest `network_dns_opt_configure`
  call as long as every such call stores both (`hosts_current_iff`): the
  call reports no failure, and `network_dns_opt_query_set` looks at no name.
-/

namespace PelionBorderRouter

variable {cfg : Config} {boot : Boot}

/-- A registration that calls `network_dns_opt_configure`. -/
def Configures (s : App) (e : AppEvent) : Prop :=
  s.meshInterfaceUp = true ∧ ∃ io, e = .clientRegistered io

/-- A registration whose `network_dns_opt_configure` call installs the border
router `wsBr`. -/
def InstallsBorderRouter (wsBr : Handle) (s : App) : AppEvent → Prop
  | .clientRegistered io => s.meshInterfaceUp = true ∧
      (networkDnsOptConfigure s.dns.dns wsBorderRouter s.backhaulInterface io.configure).wsBr =
        some wsBr
  | _ => False

/-- A registration whose `network_dns_opt_configure` call stores `host` for the
server. -/
def ConfigureStores (server : Server) (host : List UInt8) (s : App) : AppEvent → Prop
  | .clientRegistered io =>
      s.meshInterfaceUp = true ∧ Stores s.dns.dns io.configure server host
  | _ => False

/-- The event with a resolver that takes every query. -/
def AppEvent.accepting : AppEvent → AppEvent
  | .clientRegistered io => .clientRegistered { io with resolverAccepts := fun _ => true }
  | .dispatch id _ => .dispatch id fun _ => true
  | e => e

/-- The queries a step passes to `gethostbyname_async`: those it leaves with a
resolver that takes them all. -/
def queriesPassed (cfg : Config) (s : App) (e : AppEvent) : List Query :=
  match App.step cfg s e.accepting with
  | none => []
  | some s' => s'.dns.outstanding.drop s.dns.outstanding.length

/-- A step gives the border router a result only when it is a successful
answer, after a `GLOBAL_UP` with an address, through a border router that a
registration has installed. -/
def ResultAfterUp (cfg : Config) (boot : Boot) (pre : List AppEvent) (s : App)
    (e : AppEvent) : Prop :=
  ∀ s', App.step cfg s e = some s' → s'.dns.published = s.dns.published ∨
    ∃ q address call, e = .dnsAnswer q .ok address ∧
      s'.dns.published = s.dns.published ++ [⟨call, q⟩] ∧
      (app cfg boot).Occurs (fun _ _ e => e.upDownReport = some true) pre ∧
      (app cfg boot).Occurs (fun _ s e => InstallsBorderRouter call.wsBr s e) pre

/-- Every host a step passes to the resolver is a string that the latest
configure call has stored. -/
def HostsCurrent (cfg : Config) (boot : Boot) (pre : List AppEvent) (s : App)
    (e : AppEvent) : Prop :=
  ∀ q ∈ queriesPassed cfg s e, ∃ host c p t f, q.host = some c ∧ readCStr? (host ++ [0]) = some c ∧
    (app cfg boot).Latest (fun _ s e => Configures s e) (pre ++ [e]) p t f ∧
    ConfigureStores q.server host t f

/-- If the step is a configure call, it stores both names. -/
def StoresBothNames (s : App) (e : AppEvent) : Prop :=
  Configures s e → ∀ server, ∃ host, ConfigureStores server host s e

/-! ## one step -/

/-- Only a configure call changes the globals of the DNS module. -/
theorem dns_step {s s' : App} {e : AppEvent} (hstep : AppStep cfg s e s') :
    (∃ io, e = .clientRegistered io ∧ s.meshInterfaceUp = true ∧ s'.dns.dns =
        networkDnsOptConfigure s.dns.dns wsBorderRouter s.backhaulInterface io.configure) ∨
      (¬ Configures s e ∧ s'.dns.dns = s.dns.dns) := by
  cases hstep with
  | registeredPermitted hup hblock => exact Or.inr ⟨by simp [Configures, hup], rfl⟩
  | registeredBlocked hup hblock => exact Or.inr ⟨by simp [Configures, hup], rfl⟩
  | @registeredUp io hup => exact Or.inl ⟨io, rfl, hup, rfl⟩
  | dnsAnswer hdns => exact Or.inr ⟨by simp [Configures], (answer_eq_some hdns).2.1⟩
  | _ => exact Or.inr ⟨by simp [Configures], rfl⟩

theorem drop_outstanding_querySet (d : DnsSystem) :
    (d.querySet fun _ => true).outstanding.drop d.outstanding.length =
      networkDnsOptQuerySet d.dns := by
  simp [DnsSystem.querySet]

theorem dns_clientRegistered_of_down {s : App} (hup : s.meshInterfaceUp = false)
    (io : RegisteredIo) : (clientRegistered cfg s io).dns = s.dns := by
  have happ := appStep_clientRegistered cfg s io
  generalize clientRegistered cfg s io = s' at happ ⊢
  cases happ with
  | registeredUp hup' => exact absurd (hup.symm.trans hup') (by decide)
  | _ => rfl

/-- A registration passes the queries of the names it has just read, if the mesh is
up. -/
theorem queriesPassed_clientRegistered (cfg : Config) (s : App) (io : RegisteredIo) :
    queriesPassed cfg s (.clientRegistered io) =
      if s.meshInterfaceUp = true then
        networkDnsOptQuerySet
          (networkDnsOptConfigure s.dns.dns wsBorderRouter s.backhaulInterface io.configure)
      else [] := by
  simp only [queriesPassed, AppEvent.accepting, App.step]
  cases hup : s.meshInterfaceUp with
  | true =>
      simp only [clientRegistered, hup]
      exact drop_outstanding_querySet
        (s.dns.configure wsBorderRouter s.backhaulInterface io.configure)
  | false =>
      rw [dns_clientRegistered_of_down hup]
      simp

/-- A refresh passes the queries of the names as they are. -/
theorem queriesPassed_dispatch {s : App} {id : Nat} {q : Queued AppCallback}
    {queue : EventQueue AppCallback} (cfg : Config) (hq : s.queue.dispatch id = some (q, queue))
    (resolverAccepts : Server → Bool) :
    queriesPassed cfg s (.dispatch id resolverAccepts) =
      if q.callback = .networkDnsOptQuerySet then networkDnsOptQuerySet s.dns.dns else [] := by
  simp only [queriesPassed, AppEvent.accepting, App.step, hq]
  cases hcb : q.callback with
  | meshIfaceStartMaxWaitCb => simp [runCallback, meshIfaceStartMaxWaitCb]
  | networkDnsOptQuerySet => exact drop_outstanding_querySet s.dns

/-- No other step passes any. -/
theorem queriesPassed_eq_nil {s : App} {e : AppEvent} (hreg : ∀ io, e ≠ .clientRegistered io)
    (hdisp : ∀ id accepts, e ≠ .dispatch id accepts) : queriesPassed cfg s e = [] := by
  have hsame : e.accepting = e := by
    cases e with
    | clientRegistered io => exact absurd rfl (hreg io)
    | dispatch id accepts => exact absurd rfl (hdisp id accepts)
    | _ => rfl
  unfold queriesPassed
  rw [hsame]
  cases hstep : App.step cfg s e with
  | none => rfl
  | some s' =>
      refine List.drop_eq_nil_of_le ?_
      have happ : AppStep cfg s e s' := appStep_of_step hstep
      cases happ with
      | registeredUp hup => exact absurd rfl (hreg _)
      | querySet hq hcb => exact absurd rfl (hdisp _ _)
      | dnsAnswer hdns =>
          rw [outstanding_answer hdns]
          exact List.length_erase_le
      | _ => exact Nat.le_refl _

/-- The queries a step passes are those of the names it leaves. -/
theorem mem_querySet_of_mem_passed {s s' : App} {e : AppEvent} (hstep : AppStep cfg s e s')
    {q : Query} (hq : q ∈ queriesPassed cfg s e) : q ∈ networkDnsOptQuerySet s'.dns.dns := by
  cases hstep with
  | registeredPermitted hup hblock => simp [queriesPassed_clientRegistered, hup] at hq
  | registeredBlocked hup hblock => simp [queriesPassed_clientRegistered, hup] at hq
  | registeredUp hup => simpa [queriesPassed_clientRegistered, hup] using hq
  | startMaxWait hdispatch hcb => simp [queriesPassed_dispatch cfg hdispatch, hcb] at hq
  | querySet hdispatch hcb => simpa [queriesPassed_dispatch cfg hdispatch, hcb] using hq
  | _ =>
      rw [queriesPassed_eq_nil (by simp) (by simp)] at hq
      exact absurd hq List.not_mem_nil

/-- A query that waits for its answer has been passed. -/
theorem mem_passed_of_mem_outstanding {s s' : App} {e : AppEvent} (hstep : AppStep cfg s e s')
    {q : Query} (hq : q ∈ s'.dns.outstanding) :
    q ∈ s.dns.outstanding ∨ q ∈ queriesPassed cfg s e := by
  cases hstep with
  | @registeredUp io hup =>
      rw [queriesPassed_clientRegistered, if_pos hup]
      cases List.mem_append.mp hq with
      | inl hold => exact Or.inl hold
      | inr hnew => exact Or.inr (List.mem_filter.mp hnew).1
  | querySet hdispatch hcb =>
      rw [queriesPassed_dispatch cfg hdispatch, if_pos hcb]
      cases List.mem_append.mp hq with
      | inl hold => exact Or.inl hold
      | inr hnew => exact Or.inr (List.mem_filter.mp hnew).1
  | dnsAnswer hdns => exact Or.inl (mem_answer_outstanding hdns hq)
  | _ => exact Or.inl hq

/-! ## results for the border router -/

/-- The flag is set exactly after a `GLOBAL_UP` whose address was read. -/
theorem meshInterfaceUp_iff {h : List AppEvent} {s : App} (hrun : (app cfg boot).run h = some s) :
    s.meshInterfaceUp = true ↔
      (app cfg boot).Occurs (fun _ _ e => e.upDownReport = some true) h := by
  have hdown : ¬ (App.boot cfg boot).meshInterfaceUp = true := by simp [App.boot]
  refine Machine.latch_iff_occurs (L := fun s => s.meshInterfaceUp = true) hdown ?_ hrun
  intro pre s e s' _ hstep
  have happ : AppStep cfg s e s' := appStep_of_step hstep
  exact meshInterfaceUp_step happ

/-- The border router of the DNS module was installed by a registration, with
the mesh up. -/
theorem occurs_installs_of_wsBr {h : List AppEvent} {s : App}
    (hrun : (app cfg boot).run h = some s) :
    ∀ wsBr, s.dns.dns.wsBr = some wsBr → s.meshInterfaceUp = true ∧
      (app cfg boot).Occurs (fun _ s e => InstallsBorderRouter wsBr s e) h := by
  refine (app cfg boot).invariant (R := fun h s => ∀ wsBr, s.dns.dns.wsBr = some wsBr →
    s.meshInterfaceUp = true ∧
      (app cfg boot).Occurs (fun _ s e => InstallsBorderRouter wsBr s e) h) ?_ ?_ hrun
  · simp [app, App.boot, DnsSystem.init, Dns.init]
  · intro pre s e s' hrun ih hstep wsBr hwsBr
    have happ : AppStep cfg s e s' := appStep_of_step hstep
    have hstays : s.meshInterfaceUp = true → s'.meshInterfaceUp = true :=
      fun hup => (meshInterfaceUp_step happ).mpr (Or.inl hup)
    rw [Machine.occurs_concat hrun hstep]
    cases dns_step happ with
    | inl hconf =>
        obtain ⟨io, rfl, hup, hdns⟩ := hconf
        exact ⟨hstays hup, Or.inr ⟨hup, hdns ▸ hwsBr⟩⟩
    | inr hsame =>
        obtain ⟨hup, hocc⟩ := ih wsBr (hsame.2 ▸ hwsBr)
        exact ⟨hstays hup, Or.inl hocc⟩

/-- **No result before the mesh is up**: in every run, a step that gives the
border router a result is the successful answer of a query, comes after a
`GLOBAL_UP` whose address was read, and goes through the border router that
a `network_dns_opt_configure` call has installed. -/
theorem dns_results_after_up (cfg : Config) (boot : Boot) (h : List AppEvent) :
    (app cfg boot).Always (ResultAfterUp cfg boot) h := by
  intro pre s e _ htakes s' hstep
  have hrun : (app cfg boot).run pre = some s := htakes.2.1
  have happ : AppStep cfg s e s' := appStep_of_step hstep
  cases happ with
  | @dnsAnswer q result address dns hdns =>
      obtain ⟨_, _, hpublished⟩ := answer_eq_some hdns
      show dns.published = _ ∨ _
      unfold addrCb at hpublished
      cases hwsBr : s.dns.dns.wsBr with
      | none => exact Or.inl (by simpa [hwsBr] using hpublished)
      | some wsBr =>
          obtain ⟨hup, hinstalled⟩ := occurs_installs_of_wsBr hrun wsBr hwsBr
          by_cases hok : result = .ok
          · have hcall : dns.published = s.dns.published ++
                [⟨⟨wsBr, address, nameCStr? (s.dns.dns.serverName q.server)⟩, q⟩] := by
              simpa [hwsBr, hok] using hpublished
            exact Or.inr ⟨q, address, _, by rw [hok], hcall, (meshInterfaceUp_iff hrun).mp hup,
              hinstalled⟩
          · exact Or.inl (by simpa [hwsBr, hok] using hpublished)
  | _ => exact Or.inl rfl

/-- A registration that finds `coap://h:1` for both servers. -/
def registrationWithNames : AppEvent :=
  .clientRegistered ⟨true, ⟨true, fun _ => some ⟨['c', 'o', 'a', 'p', ':', '/', '/', 'h', ':',
    '1'].map Char.toUInt8, by decide⟩, fun _ => true⟩, fun _ => true⟩

-- the mesh comes up, the names go out, and an answer reaches the border router
example : ∃ s, (app .shipped freshBoot).run [plainRegistration, .main ⟨.ok, .none⟩,
      .main ⟨.ok, .none⟩, .main ⟨.ok, .none⟩, .main ⟨.ok, .none⟩, .main ⟨.ok, .none⟩,
      .main ⟨.ok, .none⟩, .meshStatus (.connectionStatusChange .globalUp) (some [0xfd]),
      registrationWithNames,
      .dnsAnswer ⟨.lwm2m, some ⟨['h'].map Char.toUInt8, by decide⟩⟩ .ok [0xfd]] = some s ∧
    s.dns.published.length = 1 := ⟨_, rfl, rfl⟩

/-! ## names for the resolver -/

/-- Once queries can go out, every name is the one the latest configure call
has stored. -/
def NamesLatest (cfg : Config) (boot : Boot) (h : List AppEvent) (s : App) : Prop :=
  s.dns.dns.backboneInterface ≠ none → ∀ server, ∃ host p t f,
    nameCStr? (s.dns.dns.serverName server) = readCStr? (host ++ [0]) ∧
      (app cfg boot).Latest (fun _ s e => Configures s e) h p t f ∧
      ConfigureStores server host t f

/-- A step that stores both names, if it is a configure call, leaves the
latest names. -/
theorem namesLatest_step {pre : List AppEvent} {s s' : App} {e : AppEvent}
    (hs : NamesLatest cfg boot pre s) (hboth : StoresBothNames s e)
    (hrun : (app cfg boot).run pre = some s) (hstep : (app cfg boot).step s e = some s') :
    NamesLatest cfg boot (pre ++ [e]) s' := by
  intro hiface server
  have happ : AppStep cfg s e s' := appStep_of_step hstep
  cases dns_step happ with
  | inl hconf =>
      obtain ⟨io, rfl, hup, hdns⟩ := hconf
      have hconfigures : Configures s (.clientRegistered io) := ⟨hup, io, rfl⟩
      obtain ⟨host, hstores⟩ := hboth hconfigures server
      have hname := nameCStr?_configure_of_stores hstores.2 wsBorderRouter s.backhaulInterface
      refine ⟨host, pre, s, .clientRegistered io, by rw [hdns, hname], ?_, hstores⟩
      exact (Machine.latest_concat hrun hstep).mpr (Or.inl ⟨hconfigures, rfl, rfl, rfl⟩)
  | inr hsame =>
      obtain ⟨hnot, hdns⟩ := hsame
      rw [hdns] at hiface ⊢
      obtain ⟨host, p, t, f, hname, hlatest, hstores⟩ := hs hiface server
      exact ⟨host, p, t, f, hname,
        (Machine.latest_concat hrun hstep).mpr (Or.inr ⟨hnot, hlatest⟩), hstores⟩

/-- With the latest names, the hosts passed are current. -/
theorem hostsCurrent_of_namesLatest {pre : List AppEvent} {s s' : App} {e : AppEvent}
    (hstep : AppStep cfg s e s') (hs' : NamesLatest cfg boot (pre ++ [e]) s') :
    HostsCurrent cfg boot pre s e := by
  intro q hq
  obtain ⟨hiface, hhost⟩ := mem_networkDnsOptQuerySet.mp (mem_querySet_of_mem_passed hstep hq)
  obtain ⟨host, p, t, f, hname, hlatest, hstores⟩ := hs' hiface q.server
  have hread : (readCStr? (host ++ [0])).isSome := isSome_readCStr?_iff.mpr (by simp)
  obtain ⟨c, hc⟩ := Option.isSome_iff_exists.mp hread
  exact ⟨host, c, p, t, f, by rw [hhost, hname, hc], hc, hlatest, hstores⟩

/-- A configure call whose hosts are current has stored both names. -/
theorem storesBothNames_of_hostsCurrent {pre : List AppEvent} {s s' : App} {e : AppEvent}
    (hs : HostsCurrent cfg boot pre s e) (hrun : (app cfg boot).run pre = some s)
    (hstep : (app cfg boot).step s e = some s') : StoresBothNames s e := by
  intro hconf server
  obtain ⟨hup, io, rfl⟩ := hconf
  let d := networkDnsOptConfigure s.dns.dns wsBorderRouter s.backhaulInterface io.configure
  have hiface : d.backboneInterface ≠ none := by simp [d, backboneInterface_configure]
  have hmem : ⟨server, nameCStr? (d.serverName server)⟩ ∈ networkDnsOptQuerySet d :=
    mem_networkDnsOptQuerySet.mpr ⟨hiface, rfl⟩
  have hpassed : ⟨server, nameCStr? (d.serverName server)⟩ ∈
      queriesPassed cfg s (.clientRegistered io) := by
    rwa [queriesPassed_clientRegistered, if_pos hup]
  obtain ⟨host, c, p, t, f, _, _, hlatest, hstores⟩ := hs _ hpassed
  cases (Machine.latest_concat hrun hstep).mp hlatest with
  | inl hlast =>
      obtain ⟨_, rfl, rfl, rfl⟩ := hlast
      exact ⟨host, hstores⟩
  | inr hnot => exact absurd ⟨hup, io, rfl⟩ hnot.1

/-- **Current names**: every host string that the steps of a run pass to the
resolver is one that the latest configure call has stored exactly when
every configure call of the run stores both names. -/
theorem hosts_current_iff (cfg : Config) (boot : Boot) (h : List AppEvent) :
    (app cfg boot).Always (HostsCurrent cfg boot) h ↔
      (app cfg boot).Always (fun _ s e => StoresBothNames s e) h := by
  constructor
  · intro hcurrent pre s e s' htakes
    exact storesBothNames_of_hostsCurrent (hcurrent pre s e s' htakes) htakes.2.1 htakes.2.2
  · intro hboth pre s e s' htakes
    have hstart : NamesLatest cfg boot [] (App.boot cfg boot) := fun hiface => absurd rfl hiface
    have hnames := Machine.holds_of_always hstart
      (fun _ _ _ _ hrun hs hb hstep => namesLatest_step hs hb hrun hstep) hboth
    have happ : AppStep cfg s e s' := appStep_of_step htakes.2.2
    exact hostsCurrent_of_namesLatest happ (hnames _ s' htakes.1 htakes.run_eq)

/-- A mesh that is up, and a registration that gets no memory to read the URIs
into. -/
def registrationWithoutNames : List AppEvent :=
  [plainRegistration, .main ⟨.ok, .none⟩, .main ⟨.ok, .none⟩, .main ⟨.ok, .none⟩,
    .main ⟨.ok, .none⟩, .main ⟨.ok, .none⟩, .main ⟨.ok, .none⟩,
    .meshStatus (.connectionStatusChange .globalUp) (some [0xfd]), plainRegistration]

/-- The names have never been read, and the resolver is called with `NULL`. -/
theorem null_host_passed :
    ¬ (app .shipped freshBoot).Always (HostsCurrent .shipped freshBoot)
      registrationWithoutNames := by
  intro hcurrent
  have hlast := hcurrent (registrationWithoutNames.dropLast) _ plainRegistration _
    ⟨List.prefix_refl _, rfl, rfl⟩ ⟨.bootstrap, none⟩ (by decide)
  obtain ⟨host, c, p, t, f, hc, _⟩ := hlast
  contradiction

end PelionBorderRouter
