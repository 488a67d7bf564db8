import PelionBorderRouter.Dns.Names

/-!
# PelionBorderRouter.Dns.Answers

Which name a DNS answer is published under.  The callbacks get the result
and the address, but not the query: they publish whatever name the server
has *now*, in the buffer that every configure call overwrites in place.  So
an answer goes out under the name it was resolved for as long as that name
has not been replaced while the query was outstanding, and
`answers_right_iff` says that nothing less will do.
-/

namespace PelionBorderRouter

/-- The call stores `host` for the server: its URI names that host, and
there is an allocation for it. -/
def Stores (d : Dns) (io : ConfigureIo) (server : Server) (host : List UInt8) : Prop :=
  (∃ uri, io.uri server = some uri ∧ IsServerName uri.bytes host) ∧
    (d.serverName server ≠ none ∨ io.nameMalloc server = true)

/-- The name after a call that stores one. -/
theorem nameCStr?_configure_of_stores {d : Dns} {io : ConfigureIo} {server : Server}
    {host : List UInt8} (h : Stores d io server host) (wisunBr backboneIface : Handle) :
    nameCStr? ((networkDnsOptConfigure d wisunBr backboneIface io).serverName server) =
      readCStr? (host ++ [0]) := by
  obtain ⟨⟨uri, huri, hhost⟩, hroom⟩ := h
  rw [serverName_configure, huri]
  change nameCStr? (parseAddress uri.bytes uri.bytes.length _ _).2 = _
  rw [parseAddress_of_isServerName hhost]
  cases hp : d.serverName server with
  | some b => rfl
  | none =>
      have hmalloc : io.nameMalloc server = true := by simpa [hp] using hroom
      rw [hmalloc]
      rfl

/-- A call that stores none leaves the name alone. -/
theorem serverName_configure_of_not_stores {d : Dns} {io : ConfigureIo} {server : Server}
    (h : ∀ host, ¬ Stores d io server host) (wisunBr backboneIface : Handle) :
    (networkDnsOptConfigure d wisunBr backboneIface io).serverName server =
      d.serverName server := by
  rw [serverName_configure]
  cases huri : io.uri server with
  | none => rfl
  | some uri =>
      change (parseAddress uri.bytes uri.bytes.length _ _).2 = _
      by_cases hname : ∃ host, IsServerName uri.bytes host
      · obtain ⟨host, hhost⟩ := hname
        have hroom : ¬ (d.serverName server ≠ none ∨ io.nameMalloc server = true) :=
          fun hroom => h host ⟨⟨uri, huri, hhost⟩, hroom⟩
        obtain ⟨hnull, hmalloc⟩ := not_or.mp hroom
        have hfails : io.nameMalloc server = false := by simpa using hmalloc
        rw [parseAddress_of_isServerName hhost, not_not.mp hnull, hfails]
        rfl
      · rw [parseAddress_of_not (not_exists.mp hname)]

/-- The result went out under the host string its query was issued with. -/
def Publication.Right (p : Publication) : Prop := p.call.name = p.query.host

/-- All results so far went out right, and so would the answer of any
outstanding query if it came now. -/
def AnswersRight (s : DnsSystem) : Prop :=
  (∀ p ∈ s.published, p.Right) ∧
    ∀ q result address s', s.answer? q result address = some s' → ∀ p ∈ s'.published, p.Right

/-- A configure call stores no other name for a server while a query for it
is outstanding. -/
def NameKept (s : DnsSystem) : DnsEvent → Prop
  | .configure _ _ io => ∀ q ∈ s.outstanding, ∀ host, Stores s.dns io q.server host →
      readCStr? (host ++ [0]) = q.host
  | _ => True

/-- Every outstanding query was issued with the name its server has. -/
def QueriesCurrent (s : DnsSystem) : Prop :=
  ∀ q ∈ s.outstanding, q.host = nameCStr? (s.dns.serverName q.server)

/-! ## answers now -/

/-- Queries are issued only after a configure call, which installs the
border router. -/
theorem outstanding_of_wsBr_none {h : List DnsEvent} {s : DnsSystem}
    (hs : dnsMachine.run h = some s) :
    s.dns.wsBr = none → s.dns.backboneInterface = none ∧ s.outstanding = [] := by
  refine dnsMachine.invariant (R := fun _ s => s.dns.wsBr = none →
    s.dns.backboneInterface = none ∧ s.outstanding = []) (fun _ => ⟨rfl, rfl⟩) ?_ hs
  intro pre s e s' _ ih hstep hnone
  cases e with
  | configure wisunBr backboneIface io =>
      obtain rfl : s.configure wisunBr backboneIface io = s' := Option.some.inj hstep
      exact absurd hnone (by simp [DnsSystem.configure, wsBr_configure])
  | querySet accepted =>
      obtain rfl : s.querySet accepted = s' := Option.some.inj hstep
      obtain ⟨hiface, hout⟩ := ih hnone
      exact ⟨hiface, by simp [DnsSystem.querySet, networkDnsOptQuerySet, hiface, hout]⟩
  | answer q result address =>
      obtain ⟨hq, hdns, _⟩ := answer_eq_some hstep
      rw [hdns] at hnone
      rw [(ih hnone).2] at hq
      contradiction

/-- With the border router installed, answers are right now exactly when the
queries are current. -/
theorem answersRight_iff {s : DnsSystem} (hbr : s.dns.wsBr = none → s.outstanding = []) :
    AnswersRight s ↔ (∀ p ∈ s.published, p.Right) ∧ QueriesCurrent s := by
  constructor
  · rintro ⟨hpub, hans⟩
    refine ⟨hpub, fun q hq => ?_⟩
    cases hwsBr : s.dns.wsBr with
    | none => exact absurd hq (by rw [hbr hwsBr]; simp)
    | some br =>
        -- let the resolver answer this query
        have hstep := hans q .ok [] _ (by rw [DnsSystem.answer?, if_pos hq])
          ⟨⟨br, [], nameCStr? (s.dns.serverName q.server)⟩, q⟩
          (by simp [Query.callback_eq, addrCb, hwsBr])
        exact hstep.symm
  · rintro ⟨hpub, hcur⟩
    refine ⟨hpub, fun q result address s' hstep p hp => ?_⟩
    obtain ⟨hq, _, hpublished⟩ := answer_eq_some hstep
    rw [hpublished, List.mem_append] at hp
    cases hp with
    | inl hold => exact hpub p hold
    | inr hnew =>
        have hcall : ∃ call, addrCb q.server s.dns result address = some call ∧ ⟨call, q⟩ = p := by
          simpa using hnew
        obtain ⟨call, hcb, rfl⟩ := hcall
        change call.name = q.host
        rw [hcur q hq]
        unfold addrCb at hcb
        split at hcb
        · contradiction
        · split at hcb
          · obtain rfl := Option.some.inj hcb
            rfl
          · contradiction

/-! ## one step -/

theorem queriesCurrent_configure_iff {s : DnsSystem} (hs : QueriesCurrent s)
    (wisunBr backboneIface : Handle) (io : ConfigureIo) :
    QueriesCurrent (s.configure wisunBr backboneIface io) ↔
      NameKept s (.configure wisunBr backboneIface io) := by
  constructor
  · intro h q hq host hstores
    exact (nameCStr?_configure_of_stores hstores wisunBr backboneIface).symm.trans (h q hq).symm
  · intro h q hq
    change q.host = nameCStr? ((networkDnsOptConfigure s.dns wisunBr backboneIface io).serverName
      q.server)
    by_cases hstores : ∃ host, Stores s.dns io q.server host
    · obtain ⟨host, hhost⟩ := hstores
      rw [nameCStr?_configure_of_stores hhost]
      exact (h q hq host hhost).symm
    · rw [serverName_configure_of_not_stores (not_exists.mp hstores)]
      exact hs q hq

theorem queriesCurrent_querySet {s : DnsSystem} (hs : QueriesCurrent s)
    (accepted : Server → Bool) : QueriesCurrent (s.querySet accepted) := by
  intro q hq
  cases List.mem_append.mp hq with
  | inl hold => exact hs q hold
  | inr hnew => exact (mem_networkDnsOptQuerySet.mp (List.mem_filter.mp hnew).1).2

/-! ## whole runs -/

/-- **Published names**: at every moment of a run the answers are published
under the names they were resolved for, those given so far and any that
could come now, exactly when no configure call of the run replaces a name
while a query for it is outstanding. -/
theorem answers_right_iff (h : List DnsEvent) :
    dnsMachine.Holds (fun _ s => AnswersRight s) h ↔
      dnsMachine.Always (fun _ s e => NameKept s e) h := by
  refine Machine.holds_iff_always ?_ ?_ h
  · exact (answersRight_iff fun _ => rfl).mpr
      ⟨fun _ hp => absurd hp List.not_mem_nil, fun _ hq => absurd hq List.not_mem_nil⟩
  · intro pre s e s' hrun hs hstep
    have hbr : s.dns.wsBr = none → s.outstanding = [] := fun hn =>
      (outstanding_of_wsBr_none hrun hn).2
    have hbr' : s'.dns.wsBr = none → s'.outstanding = [] := fun hn =>
      (outstanding_of_wsBr_none (dnsMachine.run_concat_eq_some.mpr ⟨s, hrun, hstep⟩) hn).2
    obtain ⟨hpub, hcur⟩ := (answersRight_iff hbr).mp hs
    rw [answersRight_iff hbr']
    cases e with
    | configure wisunBr backboneIface io =>
        obtain rfl : s.configure wisunBr backboneIface io = s' := Option.some.inj hstep
        rw [← queriesCurrent_configure_iff hcur]
        exact and_iff_right hpub
    | querySet accepted =>
        obtain rfl : s.querySet accepted = s' := Option.some.inj hstep
        exact iff_of_true ⟨hpub, queriesCurrent_querySet hcur accepted⟩ trivial
    | answer q result address =>
        refine iff_of_true ⟨hs.2 q result address s' hstep, fun q' hq' => ?_⟩ trivial
        rw [(answer_eq_some hstep).2.1]
        exact hcur q' (mem_answer_outstanding hstep hq')

/-- A re-registration with another URI while the first query is out: the
address resolved for `a` is published under the name `bb`. -/
theorem answer_published_under_other_name :
    ∃ s p, dnsMachine.run [configureWith shortUri, .querySet fun _ => true, configureWith longUri,
        .answer ⟨.bootstrap, some ⟨['a'].map Char.toUInt8, by decide⟩⟩ .ok [0xfd]] = some s ∧
      s.published = [p] ∧ p.call.address = [0xfd] ∧
      p.query.host = some ⟨['a'].map Char.toUInt8, by decide⟩ ∧
      p.call.name = some ⟨['b', 'b'].map Char.toUInt8, by decide⟩ :=
  ⟨_, _, rfl, rfl, by decide, by decide, by decide⟩

end PelionBorderRouter
