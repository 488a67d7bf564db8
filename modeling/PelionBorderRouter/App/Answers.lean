import Mathlib.Algebra.Order.Group.Multiset
import PelionBorderRouter.App.Address
import PelionBorderRouter.App.Resolver
import PelionBorderRouter.Lib.Account

/-!
# PelionBorderRouter.App.Answers

The account of the DNS queries over whole runs.  Queries go out with each
registration and each refresh and may overtake each other; their answers
come back in any order, after any delay, between any other events.
`dns_answers_once` says that none is lost and none counted twice: the
queries the resolver has taken are the answered ones and the outstanding
ones, each as often as it was asked, and the border router has got the
successful answers, each once and in the order in which they came.
-/

namespace PelionBorderRouter

variable {cfg : Config} {boot : Boot}

/-- The queries of a step that the resolver takes. -/
def queriesTaken (cfg : Config) (s : App) : AppEvent → List Query
  | .clientRegistered io =>
      (queriesPassed cfg s (.clientRegistered io)).filter fun q => io.resolverAccepts q.server
  | .dispatch id resolverAccepts =>
      (queriesPassed cfg s (.dispatch id resolverAccepts)).filter fun q => resolverAccepts q.server
  | _ => []

/-- The query a step answers. -/
def queriesAnswered : AppEvent → List Query
  | .dnsAnswer q _ _ => [q]
  | _ => []

/-- A successful answer: its query, and the address. -/
def AppEvent.resolved? : AppEvent → Option (Query × SocketAddress)
  | .dnsAnswer q .ok address => some (q, address)
  | _ => none

/-- What a result of the border router answers, and with which address. -/
def Publication.answer (p : Publication) : Query × SocketAddress := (p.query, p.call.address)

/-- While queries can go out or come back, `ws_border_router` is installed. -/
def Wired (s : App) : Prop :=
  s.dns.dns.backboneInterface ≠ none ∨ s.dns.outstanding ≠ [] →
    s.dns.dns.wsBr = some wsBorderRouter

/-! ## one step -/

theorem wired_step {s s' : App} {e : AppEvent} (hs : Wired s) (hstep : AppStep cfg s e s') :
    Wired s' := by
  cases hstep with
  | registeredUp hup => exact fun _ => wsBr_configure _ _ _ _
  | @querySet id resolverAccepts q queue hq hcb =>
      by_cases hiface : s.dns.dns.backboneInterface = none
      · have hsame : s.dns.querySet resolverAccepts = s.dns := by
          simp [DnsSystem.querySet, networkDnsOptQuerySet, hiface]
        exact fun hor => hs (by simpa only [hsame] using hor)
      · exact fun _ => hs (Or.inl hiface)
  | @dnsAnswer q result address dns hdns =>
      obtain ⟨hmem, hdns', _⟩ := answer_eq_some hdns
      intro _
      show dns.dns.wsBr = _
      rw [hdns']
      exact hs (Or.inr (List.ne_nil_of_mem hmem))
  | _ => exact hs

theorem wired {h : List AppEvent} {s : App} (hrun : (app cfg boot).run h = some s) : Wired s := by
  refine (app cfg boot).invariant (R := fun _ s => Wired s) ?_ ?_ hrun
  · exact fun hor => hor.elim (absurd rfl) (absurd rfl)
  · exact fun pre s e s' _ hs hstep => wired_step hs (appStep_of_step hstep)

/-- A successful answer reaches `ws_border_router`, and nothing else does. -/
theorem published_step {s s' : App} {e : AppEvent} (hs : Wired s) (hstep : AppStep cfg s e s') :
    ∃ new : List Publication, s'.dns.published = s.dns.published ++ new ∧
      new.map Publication.answer = e.resolved?.toList ∧
      ∀ p ∈ new, p.call.wsBr = wsBorderRouter := by
  cases hstep with
  | @dnsAnswer q result address dns hdns =>
      obtain ⟨hmem, _, hpublished⟩ := answer_eq_some hdns
      have hwsBr := hs (Or.inr (List.ne_nil_of_mem hmem))
      refine ⟨_, hpublished, ?_⟩
      cases result with
      | ok => simp [addrCb, hwsBr, AppEvent.resolved?, Publication.answer]
      | _ => simp [addrCb, hwsBr, AppEvent.resolved?]
  | _ => exact ⟨[], (List.append_nil _).symm, rfl, by simp⟩

/-- What a step answers and what is outstanding then is what was outstanding
and what the step asks. -/
theorem queries_step {s s' : App} {e : AppEvent} (hstep : AppStep cfg s e s') :
    (queriesAnswered e : Multiset Query) + (s'.dns.outstanding : Multiset Query) =
      (s.dns.outstanding : Multiset Query) + (queriesTaken cfg s e : Multiset Query) := by
  cases hstep with
  | registeredPermitted hup hblock =>
      simp [queriesAnswered, queriesTaken, queriesPassed_clientRegistered, hup]
  | registeredBlocked hup hblock =>
      simp [queriesAnswered, queriesTaken, queriesPassed_clientRegistered, hup]
  | registeredUp hup =>
      simp [queriesAnswered, queriesTaken, queriesPassed_clientRegistered, hup,
        DnsSystem.querySet, DnsSystem.configure]
  | startMaxWait hq hcb =>
      simp [queriesAnswered, queriesTaken, queriesPassed_dispatch cfg hq, hcb]
  | querySet hq hcb =>
      simp [queriesAnswered, queriesTaken, queriesPassed_dispatch cfg hq, hcb,
        DnsSystem.querySet]
  | @dnsAnswer q result address dns hdns =>
      obtain ⟨hmem, _, _⟩ := answer_eq_some hdns
      have hcons : (q ::ₘ (dns.outstanding : Multiset Query)) = s.dns.outstanding := by
        rw [outstanding_answer hdns, Multiset.cons_coe, Multiset.coe_eq_coe]
        exact (List.perm_cons_erase hmem).symm
      simpa [queriesAnswered, queriesTaken] using hcons
  | _ => simp [queriesAnswered, queriesTaken]

/-! ## the account -/

/-- **Answers, once each**: at every moment of a run the queries the resolver
has taken are, each as often as it was asked, those it has answered and those
it still has; and the results given to the border router, all of them to
`ws_border_router`, are the successful answers of the run, each once and in
the order in which they came. -/
theorem dns_answers_once (cfg : Config) (boot : Boot) {h : List AppEvent} {s : App}
    (hrun : (app cfg boot).run h = some s) :
    (app cfg boot).total (fun _ e => (queriesAnswered e : Multiset Query)) h +
        (s.dns.outstanding : Multiset Query) =
      (app cfg boot).total (fun s e => (queriesTaken cfg s e : Multiset Query)) h ∧
    s.dns.published.map Publication.answer = h.filterMap AppEvent.resolved? ∧
    ∀ p ∈ s.dns.published, p.call.wsBr = wsBorderRouter := by
  constructor
  · have hbalance := Machine.total_add_potential_eq
      (f := fun _ e => (queriesAnswered e : Multiset Query))
      (a := fun s e => (queriesTaken cfg s e : Multiset Query))
      (Φ := fun s : App => (s.dns.outstanding : Multiset Query))
      (fun _ _ _ _ _ hstep => queries_step (appStep_of_step hstep)) hrun
    have hstart : ((app cfg boot).start.dns.outstanding : Multiset Query) = 0 := rfl
    rwa [hstart, zero_add] at hbalance
  · refine (app cfg boot).invariant (R := fun h s =>
      s.dns.published.map Publication.answer = h.filterMap AppEvent.resolved? ∧
        ∀ p ∈ s.dns.published, p.call.wsBr = wsBorderRouter) ?_ ?_ hrun
    · exact ⟨rfl, fun p hp => absurd hp List.not_mem_nil⟩
    · rintro pre s e s' hrun ⟨hmap, hwsBr⟩ hstep
      obtain ⟨new, hpublished, hnew, hnewBr⟩ :=
        published_step (wired hrun) (appStep_of_step hstep)
      rw [hpublished, List.map_append, hmap, hnew, List.filterMap_append]
      constructor
      · cases hresolved : e.resolved? <;> simp [hresolved]
      · intro p hp
        cases List.mem_append.mp hp with
        | inl hold => exact hwsBr p hold
        | inr hlast => exact hnewBr p hlast

/-- The mesh comes up, both names go out, and one answer comes back. -/
theorem dns_answers_once_lwm2m :
    ∃ s, (app .shipped freshBoot).run (upRun ++ [registrationWithNames,
        .dnsAnswer ⟨.lwm2m, some ⟨['h'].map Char.toUInt8, by decide⟩⟩ .ok [0xfd]]) = some s ∧
      s.dns.published.map Publication.answer =
        [(⟨.lwm2m, some ⟨['h'].map Char.toUInt8, by decide⟩⟩, [0xfd])] :=
  ⟨_, rfl, (dns_answers_once .shipped freshBoot (h := upRun ++ [registrationWithNames,
    .dnsAnswer ⟨.lwm2m, some ⟨['h'].map Char.toUInt8, by decide⟩⟩ .ok [0xfd]]) rfl).2.1⟩

end PelionBorderRouter
