import PelionBorderRouter.App.Answers
import PelionBorderRouter.Dns.Host

/-!
# PelionBorderRouter.App.Hosts

The whole way of a server's host through the application: from the stored
URI through `parse_address` and the name buffer to the resolver, and with the
answer to the border router, whatever registrations, refreshes and answers
come between.

`hosts_published` is for a session in which the stored URIs stay what they
are and `parse_address` finds their hosts (`HostFound`).  Then the buffers
are never too small and the names never change under a query, which is what
`names_fit_iff` and `answers_right_iff` ask of any session.
-/

namespace PelionBorderRouter

variable {cfg : Config} {boot : Boot} {u : Server → ServerUri}

/-- A configure call reads no other URIs than those of `u`. -/
def ReadsUris (u : Server → ServerUri) (io : ConfigureIo) : Prop :=
  ∀ server uri, io.uri server = some uri → uri.bytes = (u server).text

/-- If the event is a registration, it reads no other URIs. -/
def KeepsUris (u : Server → ServerUri) : AppEvent → Prop
  | .clientRegistered io => ReadsUris u io.configure
  | _ => True

/-- A registration that reads the URIs of `u`, gets the memory it asks for, and
whose queries the resolver takes. -/
structure FetchesHosts (u : Server → ServerUri) (io : RegisteredIo) : Prop where
  uri : ∀ server, ∃ uri, io.configure.uri server = some uri ∧ uri.bytes = (u server).text
  malloc : ∀ server, io.configure.nameMalloc server = true
  accepted : ∀ server, io.resolverAccepts server = true

/-- Every name stored is that of its URI, in an allocation of its size. -/
def NamesOf (u : Server → ServerUri) (d : Dns) : Prop :=
  ∀ server b, d.serverName server = some b →
    IsServerName (u server).text b.copied ∧ b.capacity = b.copied.length + 1

/-- The result a query with the host string `c` leads to. -/
def publicationOf (server : Server) (c : CStr) (address : SocketAddress) : Publication :=
  ⟨⟨wsBorderRouter, address, some c⟩, ⟨server, some c⟩⟩

/-! ## the names -/

theorem exists_isServerName {uri : ServerUri} (h : HostFound uri) :
    ∃ name, IsServerName uri.text name := by
  cases h.2 with
  | inl hcolon => exact ⟨_, isServerName_host hcolon⟩
  | inr hagain =>
      obtain ⟨name, hname, _⟩ := hagain
      exact ⟨name, isServerName_of_suffix hname⟩

/-- The server name reads back as the host. -/
theorem chars_readCStr?_of_hostFound {uri : ServerUri} (h : HostFound uri) {name : List UInt8}
    (hname : IsServerName uri.text name) :
    (readCStr? (name ++ [0])).map CStr.chars = some uri.host := by
  refine map_chars_readCStr?_eq_some_iff.mpr ⟨h.1, ?_⟩
  cases h.2 with
  | inl hcolon =>
      rw [hname.unique (isServerName_host hcolon)]
  | inr hagain =>
      obtain ⟨name', hname', hprefix⟩ := hagain
      rw [hname.unique (isServerName_of_suffix hname')]
      exact hprefix

theorem NamesOf.chars_nameCStr? {d : Dns} (hd : NamesOf u d) {server : Server}
    (hfound : HostFound (u server)) (hne : d.serverName server ≠ none) :
    (nameCStr? (d.serverName server)).map CStr.chars = some (u server).host := by
  obtain ⟨b, hb⟩ := Option.ne_none_iff_exists'.mp hne
  rw [hb]
  exact chars_readCStr?_of_hostFound hfound (hd server b hb).1

theorem NamesOf.fits {d : Dns} (hd : NamesOf u d) : NamesFit d := by
  intro server b hb
  rw [NameBuf.fits_iff, (hd server b hb).2]
  exact Nat.lt_succ_self _

theorem namesOf_configure {d : Dns} (hd : NamesOf u d) {io : ConfigureIo} (hio : ReadsUris u io)
    (wisunBr backboneIface : Handle) :
    NamesOf u (networkDnsOptConfigure d wisunBr backboneIface io) := by
  intro server b hb
  rw [serverName_configure] at hb
  cases huri : io.uri server with
  | none =>
      rw [huri] at hb
      exact hd server b hb
  | some uri =>
      simp only [huri] at hb
      have htext := hio server uri huri
      by_cases hname : ∃ host, IsServerName uri.bytes host
      · obtain ⟨host, hhost⟩ := hname
        rw [parseAddress_of_isServerName hhost] at hb
        cases hp : d.serverName server with
        | some b₀ =>
            -- the same name once more, into an allocation of its size
            obtain ⟨hname₀, hcapacity⟩ := hd server b₀ hp
            obtain rfl : b₀.copied = host := hname₀.unique (htext ▸ hhost)
            rw [hp] at hb
            obtain rfl := Option.some.inj hb
            exact ⟨hname₀, hcapacity⟩
        | none =>
            rw [hp] at hb
            cases hmalloc : io.nameMalloc server with
            | false => simp [hmalloc] at hb
            | true =>
                obtain rfl : ⟨host.length + 1, host⟩ = b := by simpa [hmalloc] using hb
                exact ⟨htext ▸ hhost, rfl⟩
      · rw [parseAddress_of_not (not_exists.mp hname)] at hb
        exact hd server b hb

/-- A name that has been stored stays. -/
theorem serverName_ne_none_configure {d : Dns} {server : Server} (h : d.serverName server ≠ none)
    (wisunBr backboneIface : Handle) (io : ConfigureIo) :
    (networkDnsOptConfigure d wisunBr backboneIface io).serverName server ≠ none := by
  obtain ⟨b, hb⟩ := Option.ne_none_iff_exists'.mp h
  by_cases hstores : ∃ host, Stores d io server host
  · obtain ⟨host, ⟨uri, huri, hhost⟩, _⟩ := hstores
    rw [serverName_configure, huri]
    show (parseAddress uri.bytes uri.bytes.length _ _).2 ≠ none
    rw [hb, parseAddress_of_isServerName hhost]
    exact Option.some_ne_none _
  · rw [serverName_configure_of_not_stores (not_exists.mp hstores)]
    exact h

/-! ## one step -/

/-- The names are those of the URIs, and every query that waits with a host
string has that of its server, which is stored. -/
structure HostsKept (u : Server → ServerUri) (s : App) : Prop where
  names : NamesOf u s.dns.dns
  outstanding : ∀ q ∈ s.dns.outstanding, ∀ c, q.host = some c →
    c.chars = (u q.server).host ∧ s.dns.dns.serverName q.server ≠ none

theorem hostsKept_boot : HostsKept u (App.boot cfg boot) where
  names := by
    intro server b hb
    cases server <;> exact absurd hb (by simp [App.boot, DnsSystem.init, Dns.init, Dns.serverName])
  outstanding := fun q hq => absurd hq List.not_mem_nil

/-- What a step passes to the resolver then. -/
theorem HostsKept.passed (hfound : ∀ server, HostFound (u server)) {s s' : App} {e : AppEvent}
    (hstep : AppStep cfg s e s') (hnames : NamesOf u s'.dns.dns) {q : Query}
    (hq : q ∈ queriesPassed cfg s e) {c : CStr} (hc : q.host = some c) :
    c.chars = (u q.server).host ∧ s'.dns.dns.serverName q.server ≠ none := by
  obtain ⟨_, hhost⟩ := mem_networkDnsOptQuerySet.mp (mem_querySet_of_mem_passed hstep hq)
  have hname : nameCStr? (s'.dns.dns.serverName q.server) = some c := hhost.symm.trans hc
  have hne : s'.dns.dns.serverName q.server ≠ none := by
    intro hnone
    rw [hnone] at hname
    cases hname
  have hchars := hnames.chars_nameCStr? (hfound q.server) hne
  rw [hname] at hchars
  exact ⟨Option.some.inj hchars, hne⟩

theorem hostsKept_step (hfound : ∀ server, HostFound (u server)) {s s' : App} {e : AppEvent}
    (hs : HostsKept u s) (hkeeps : KeepsUris u e) (hstep : AppStep cfg s e s') :
    HostsKept u s' := by
  have hnames : NamesOf u s'.dns.dns ∧ ∀ server, s.dns.dns.serverName server ≠ none →
      s'.dns.dns.serverName server ≠ none := by
    cases dns_step hstep with
    | inl hconf =>
        obtain ⟨io, rfl, _, hdns⟩ := hconf
        rw [hdns]
        exact ⟨namesOf_configure hs.names hkeeps _ _,
          fun server hne => serverName_ne_none_configure hne _ _ _⟩
    | inr hsame =>
        rw [hsame.2]
        exact ⟨hs.names, fun _ => id⟩
  refine ⟨hnames.1, fun q hq c hc => ?_⟩
  cases mem_passed_of_mem_outstanding hstep hq with
  | inl hold =>
      obtain ⟨hchars, hne⟩ := hs.outstanding q hold c hc
      exact ⟨hchars, hnames.2 _ hne⟩
  | inr hpassed => exact HostsKept.passed hfound hstep hnames.1 hpassed hc

/-- A query that went out with a host string brings the border router its
result under that string. -/
theorem published_hosts_step (hfound : ∀ server, HostFound (u server)) {s s' : App} {e : AppEvent}
    (hs : HostsKept u s) (hwired : Wired s) (hstep : AppStep cfg s e s')
    (hpub : ∀ p ∈ s.dns.published, ∀ c, p.query.host = some c →
      p = publicationOf p.query.server c p.call.address ∧ c.chars = (u p.query.server).host) :
    ∀ p ∈ s'.dns.published, ∀ c, p.query.host = some c →
      p = publicationOf p.query.server c p.call.address ∧ c.chars = (u p.query.server).host := by
  cases hstep with
  | @dnsAnswer q result address dns hdns =>
      obtain ⟨hmem, _, hpublished⟩ := answer_eq_some hdns
      have hwsBr := hwired (Or.inr (List.ne_nil_of_mem hmem))
      intro p hp c hc
      rw [hpublished] at hp
      cases List.mem_append.mp hp with
      | inl hold => exact hpub p hold c hc
      | inr hnew =>
          obtain ⟨call, hcall, rfl⟩ : ∃ call,
              addrCb q.server s.dns.dns result address = some call ∧ ⟨call, q⟩ = p := by
            simpa using hnew
          obtain ⟨hchars, hne⟩ := hs.outstanding q hmem c hc
          have hname : nameCStr? (s.dns.dns.serverName q.server) = some c := by
            refine Option.map_injective (fun c c' => CStr.ext) ?_
            rw [hs.names.chars_nameCStr? (hfound _) hne, Option.map_some, hchars]
          refine ⟨?_, hchars⟩
          obtain ⟨server, host⟩ := q
          obtain rfl : host = some c := hc
          simp only [addrCb, hwsBr, hname] at hcall
          split at hcall
          · obtain rfl := Option.some.inj hcall
            rfl
          · contradiction
  | _ => exact hpub

/-! ## a registration and its answers -/

/-- The answer of a query for the name its server has. -/
theorem exists_step_dnsAnswer (cfg : Config) {s : App} {server : Server} {c : CStr}
    (hmem : ⟨server, some c⟩ ∈ s.dns.outstanding) (hwsBr : s.dns.dns.wsBr = some wsBorderRouter)
    (hname : nameCStr? (s.dns.dns.serverName server) = some c) (address : SocketAddress) :
    ∃ s', App.step cfg s (.dnsAnswer ⟨server, some c⟩ .ok address) = some s' ∧
      s'.dns.dns = s.dns.dns ∧ s'.dns.outstanding = s.dns.outstanding.erase ⟨server, some c⟩ ∧
      s'.dns.published = s.dns.published ++ [publicationOf server c address] := by
  refine ⟨{ s with dns := { s.dns with
    outstanding := s.dns.outstanding.erase ⟨server, some c⟩
    published := s.dns.published ++ [publicationOf server c address] } }, ?_, rfl, rfl, rfl⟩
  simp [App.step, DnsSystem.answer?, hmem, Query.callback_eq, addrCb, hwsBr, hname, publicationOf]

/-- What a registration leaves that gets everything: both names, and both
queries with the resolver. -/
theorem dns_of_fetchesHosts (cfg : Config) (hfound : ∀ server, HostFound (u server)) {s : App}
    (hs : HostsKept u s) (hup : s.meshInterfaceUp = true) {io : RegisteredIo}
    (hio : FetchesHosts u io) :
    ∃ host : Server → CStr, (∀ server, (host server).chars = (u server).host) ∧
      (∀ server, nameCStr? ((clientRegistered cfg s io).dns.dns.serverName server) =
        some (host server)) ∧
      ∀ server, ⟨server, some (host server)⟩ ∈ (clientRegistered cfg s io).dns.outstanding := by
  have hreads : ReadsUris u io.configure := by
    intro server uri huri
    obtain ⟨uri', huri', htext⟩ := hio.uri server
    obtain rfl : uri' = uri := Option.some.inj (huri'.symm.trans huri)
    exact htext
  have hdns : (clientRegistered cfg s io).dns =
      (s.dns.configure wsBorderRouter s.backhaulInterface io.configure).querySet
        io.resolverAccepts := by
    simp [clientRegistered, hup]
  have hnames := namesOf_configure hs.names hreads wsBorderRouter s.backhaulInterface
  have hne : ∀ server, (networkDnsOptConfigure s.dns.dns wsBorderRouter s.backhaulInterface
      io.configure).serverName server ≠ none := by
    intro server
    obtain ⟨uri, huri, htext⟩ := hio.uri server
    obtain ⟨name, hname⟩ := exists_isServerName (hfound server)
    rw [serverName_configure, huri]
    show (parseAddress uri.bytes uri.bytes.length _ _).2 ≠ none
    rw [htext, parseAddress_of_isServerName hname, hio.malloc]
    cases s.dns.dns.serverName server <;> exact Option.some_ne_none _
  have hhost : ∀ server, ∃ c, nameCStr? ((networkDnsOptConfigure s.dns.dns wsBorderRouter
      s.backhaulInterface io.configure).serverName server) = some c ∧
        c.chars = (u server).host := fun server =>
    Option.map_eq_some_iff.mp (hnames.chars_nameCStr? (hfound server) (hne server))
  choose host hhost using hhost
  refine ⟨host, fun server => (hhost server).2, fun server => ?_, fun server => ?_⟩
  · rw [hdns]
    exact (hhost server).1
  · rw [hdns]
    refine List.mem_append_right _ (List.mem_filter.mpr ⟨?_, hio.accepted server⟩)
    refine mem_networkDnsOptQuerySet.mpr ⟨?_, (hhost server).1.symm⟩
    simp [DnsSystem.configure, backboneInterface_configure]

/-- The two queries are answered, in either order. -/
theorem exists_run_of_fetchesHosts (hfound : ∀ server, HostFound (u server)) {h : List AppEvent}
    {s : App} (hrun : (app cfg boot).run h = some s) (hs : HostsKept u s)
    (hup : s.meshInterfaceUp = true) {io : RegisteredIo} (hio : FetchesHosts u io)
    (address : Server → SocketAddress) :
    ∃ host : Server → CStr, (∀ server, (host server).chars = (u server).host) ∧
      ∀ first second, first ≠ second → ∃ t,
        (app cfg boot).run (h ++ [.clientRegistered io,
          .dnsAnswer ⟨first, some (host first)⟩ .ok (address first),
          .dnsAnswer ⟨second, some (host second)⟩ .ok (address second)]) = some t ∧
        t.dns.published = s.dns.published ++
          [publicationOf first (host first) (address first),
            publicationOf second (host second) (address second)] := by
  obtain ⟨host, hchars, hname, hmem⟩ := dns_of_fetchesHosts cfg hfound hs hup hio
  have hwsBr : (clientRegistered cfg s io).dns.dns.wsBr = some wsBorderRouter := by
    simp [clientRegistered, hup, DnsSystem.configure, wsBr_configure]
  have hpublished : (clientRegistered cfg s io).dns.published = s.dns.published := by
    simp [clientRegistered, hup, DnsSystem.configure, DnsSystem.querySet]
  refine ⟨host, hchars, fun first second hne => ?_⟩
  obtain ⟨t, ht, hdns, hout, hpub⟩ :=
    exists_step_dnsAnswer cfg (hmem first) hwsBr (hname first) (address first)
  have hsecond : ⟨second, some (host second)⟩ ∈ t.dns.outstanding := by
    rw [hout, List.mem_erase_of_ne fun heq => hne (congrArg Query.server heq).symm]
    exact hmem second
  obtain ⟨t', ht', _, _, hpub'⟩ := exists_step_dnsAnswer cfg hsecond (hdns ▸ hwsBr)
    (hdns ▸ hname second) (address second)
  refine ⟨t', ?_, ?_⟩
  · rw [List.append_cons, List.append_cons]
    have hregistered : (app cfg boot).run (h ++ [.clientRegistered io]) =
        some (clientRegistered cfg s io) :=
      (app cfg boot).run_concat_eq_some.mpr ⟨s, hrun, rfl⟩
    refine (app cfg boot).run_concat_eq_some.mpr ⟨t, ?_, ht'⟩
    exact (app cfg boot).run_concat_eq_some.mpr ⟨_, hregistered, ht⟩
  · rw [hpub', hpub, hpublished, List.append_assoc]
    rfl

/-! ## whole runs -/

theorem holds_hostsKept (hfound : ∀ server, HostFound (u server)) {h : List AppEvent}
    (hkeeps : ∀ e ∈ h, KeepsUris u e) : (app cfg boot).Holds (fun _ s => HostsKept u s) h := by
  refine Machine.holds_of_always (C := fun _ _ e => KeepsUris u e) hostsKept_boot ?_ ?_
  · exact fun pre s e s' _ hs hk hstep => hostsKept_step hfound hs hk (appStep_of_step hstep)
  · exact fun pre s e s' ht => hkeeps e ht.mem

/-- **Hosts, from end to end**: as long as the stored URIs stay what they are
and `parse_address` finds their hosts, every name lies inside its allocation,
every host string passed to the resolver is the host of its server's URI, and
the result of its query goes to `ws_border_router` under that string; and once
the mesh is up, a registration and two answers bring the border router both
hosts with their addresses. -/
theorem hosts_published (cfg : Config) (boot : Boot) (hfound : ∀ server, HostFound (u server))
    {h : List AppEvent} {s : App} (hrun : (app cfg boot).run h = some s)
    (hkeeps : ∀ e ∈ h, KeepsUris u e) :
    NamesFit s.dns.dns ∧
      (∀ p t e t', (app cfg boot).Takes h p t e t' → ∀ q ∈ queriesPassed cfg t e, ∀ c,
        q.host = some c → c.chars = (u q.server).host) ∧
      (∀ p ∈ s.dns.published, ∀ c, p.query.host = some c →
        p = publicationOf p.query.server c p.call.address ∧ c.chars = (u p.query.server).host) ∧
      (s.meshInterfaceUp = true → ∀ io, FetchesHosts u io →
        ∀ address : Server → SocketAddress, ∃ host : Server → CStr,
          (∀ server, (host server).chars = (u server).host) ∧
          ∀ first second, first ≠ second → ∃ t,
            (app cfg boot).run (h ++ [.clientRegistered io,
              .dnsAnswer ⟨first, some (host first)⟩ .ok (address first),
              .dnsAnswer ⟨second, some (host second)⟩ .ok (address second)]) = some t ∧
            t.dns.published = s.dns.published ++
              [publicationOf first (host first) (address first),
                publicationOf second (host second) (address second)]) := by
  have hkept : (app cfg boot).Holds (fun _ s => HostsKept u s) h := holds_hostsKept hfound hkeeps
  have hs : HostsKept u s := hkept h s (List.prefix_refl h) hrun
  refine ⟨hs.names.fits, ?_, ?_, ?_⟩
  · intro p t e t' ht q hq c hc
    have hs' : HostsKept u t' := hkept _ t' ht.1 ht.run_eq
    exact (HostsKept.passed hfound (appStep_of_step ht.2.2) hs'.names hq hc).1
  · have hpub : (app cfg boot).Holds (fun _ s => ∀ p ∈ s.dns.published, ∀ c,
        p.query.host = some c → p = publicationOf p.query.server c p.call.address ∧
          c.chars = (u p.query.server).host) h := by
      refine Machine.holds_of_always (C := fun _ s _ => HostsKept u s) ?_ ?_ ?_
      · exact fun p hp => absurd hp List.not_mem_nil
      · exact fun pre s e s' hpre ih hs hstep =>
          published_hosts_step hfound hs (wired hpre) (appStep_of_step hstep) ih
      · exact fun pre s e s' ht => hkept pre s ((List.prefix_append pre [e]).trans ht.1) ht.2.1
    exact hpub h s (List.prefix_refl h) hrun
  · exact fun hup io hio address => exists_run_of_fetchesHosts hfound hrun hs hup hio address

/-- `coap://h:1`. -/
def plainUri : ServerUri := { colonInPath with suffix := [], suffix_start := nofun }

/-- A registration that reads it for both servers. -/
def plainFetch : RegisteredIo :=
  ⟨true, ⟨true, fun _ => some ⟨plainUri.text, by decide⟩, fun _ => true⟩, fun _ => true⟩

/-- The mesh comes up, and the two hosts are resolved, the second one first. -/
theorem hosts_published_plain :
    ∃ (host : Server → CStr) (t : App), (∀ server, (host server).chars = plainUri.host) ∧
      (app .shipped freshBoot).run (upRun ++ [.clientRegistered plainFetch,
        .dnsAnswer ⟨.lwm2m, some (host .lwm2m)⟩ .ok [0xfd],
        .dnsAnswer ⟨.bootstrap, some (host .bootstrap)⟩ .ok [0xfd]]) = some t := by
  have hkeeps : ∀ e ∈ upRun, KeepsUris (fun _ => plainUri) e := by
    simp [upRun, plainRegistration, KeepsUris, ReadsUris, ConfigureIo.uri]
  have hfetches : FetchesHosts (fun _ => plainUri) plainFetch :=
    ⟨fun _ => ⟨_, rfl, rfl⟩, fun _ => rfl, fun _ => rfl⟩
  have hfound : Server → HostFound plainUri := fun _ => ⟨by decide, Or.inl (by decide)⟩
  obtain ⟨s, hrun, hup⟩ : ∃ s, (app .shipped freshBoot).run upRun = some s ∧
      s.meshInterfaceUp = true := ⟨_, rfl, rfl⟩
  obtain ⟨host, hchars, hanswers⟩ :=
    (hosts_published .shipped freshBoot hfound hrun hkeeps).2.2.2 hup plainFetch hfetches
      fun _ => [0xfd]
  obtain ⟨t, ht, _⟩ := hanswers .lwm2m .bootstrap (by decide)
  exact ⟨host, t, hchars, ht⟩

end PelionBorderRouter
