import PelionBorderRouter.Config
import PelionBorderRouter.Dns.Address
import PelionBorderRouter.Lib.Run

/-!
# PelionBorderRouter.Dns

`network_dns_optimization.cpp`: the module resolves the names of the two
cloud servers over the backbone and hands the answers to the Wi-SUN border
router, which spares the mesh those queries.

`Dns` are the module's globals; each of the two servers has a name buffer
that `network_dns_opt_configure` fills from the stored URI.  `DnsSystem`
adds what is outside: the queries the resolver has accepted and not yet
answered, and the results the border router was given.  The resolver copies
the host string when a query is issued, and answers the queries in any
order, each at most once.
-/

namespace PelionBorderRouter

/-- The two servers whose names are resolved. -/
inductive Server where
  | bootstrap
  | lwm2m
deriving DecidableEq, Repr

/-! ## the module's globals -/

/-- `ws_br`, `backbone_interface` and the two server names; `none` is
`NULL`. -/
structure Dns where
  wsBr : Option Handle
  backboneInterface : Option Handle
  bootstrapServerName : Option NameBuf
  lwm2mServerName : Option NameBuf
deriving DecidableEq, Repr

namespace Dns

def init : Dns := ⟨none, none, none, none⟩

def serverName (d : Dns) : Server → Option NameBuf
  | .bootstrap => d.bootstrapServerName
  | .lwm2m => d.lwm2mServerName

def setServerName (d : Dns) (server : Server) (p : Option NameBuf) : Dns :=
  match server with
  | .bootstrap => { d with bootstrapServerName := p }
  | .lwm2m => { d with lwm2mServerName := p }

@[simp] theorem serverName_setServerName (d : Dns) (server server' : Server)
    (p : Option NameBuf) : (d.setServerName server p).serverName server' =
      if server' = server then p else d.serverName server' := by
  cases server <;> cases server' <;> rfl

@[simp] theorem wsBr_setServerName (d : Dns) (server : Server) (p : Option NameBuf) :
    (d.setServerName server p).wsBr = d.wsBr := by
  cases server <;> rfl

end Dns

/-! ## network_dns_opt_configure -/

/-- A configuration item as `ccs_get_item` delivers it into the 256-byte
buffer. -/
structure CcsItem where
  bytes : List UInt8
  length_le : bytes.length ≤ 256

/-- How one configure call goes: whether the read buffer is allocated, what
`ccs_get_item` delivers for each URI, and whether an allocation of a name
would succeed. -/
structure ConfigureIo where
  bufferMalloc : Bool
  item : Server → Option CcsItem
  nameMalloc : Server → Bool

/-- The URI of a server the call gets to see. -/
def ConfigureIo.uri (io : ConfigureIo) (server : Server) : Option CcsItem :=
  if io.bufferMalloc then io.item server else none

/-- One half of `get_server_name`: read the URI of a server and parse it
into the server's name. -/
def readServerName (io : ConfigureIo) (d : Dns) (server : Server) : Dns :=
  match io.item server with
  | none => d
  | some uri =>
      let (_, p) := parseAddress uri.bytes uri.bytes.length (d.serverName server)
        (io.nameMalloc server)
      d.setServerName server p

/-- `get_server_name`: the bootstrap server, then the LWM2M server. -/
def getServerName (d : Dns) (io : ConfigureIo) : Dns :=
  if io.bufferMalloc then readServerName io (readServerName io d .bootstrap) .lwm2m else d

/-- `network_dns_opt_configure`. -/
def networkDnsOptConfigure (d : Dns) (wisunBr backboneIface : Handle) (io : ConfigureIo) : Dns :=
  getServerName { d with wsBr := some wisunBr, backboneInterface := some backboneIface } io

/-! ## queries and answers -/

/-- A query handed to `gethostbyname_async`: whose callback it carries, and
the host string, `none` for `NULL`. -/
structure Query where
  server : Server
  host : Option CStr
deriving DecidableEq, Repr

/-- `network_dns_opt_query_set`: the queries it issues, in order. -/
def networkDnsOptQuerySet (d : Dns) : List Query :=
  match d.backboneInterface with
  | none => []
  | some _ =>
      [⟨.bootstrap, nameCStr? d.bootstrapServerName⟩, ⟨.lwm2m, nameCStr? d.lwm2mServerName⟩]

/-- A call `ws_br->set_dns_query_result(address, name)`. -/
structure DnsQueryResult where
  wsBr : Handle
  address : SocketAddress
  name : Option CStr
deriving DecidableEq, Repr

/-- The body the two callbacks share, on the name of `server`. -/
def addrCb (server : Server) (d : Dns) (result : NsapiError) (address : SocketAddress) :
    Option DnsQueryResult :=
  match d.wsBr with
  | none => none
  | some wsBr =>
      if result = .ok then some ⟨wsBr, address, nameCStr? (d.serverName server)⟩ else none

/-- `bootstrap_addr_cb`. -/
def bootstrapAddrCb : Dns → NsapiError → SocketAddress → Option DnsQueryResult := addrCb .bootstrap

/-- `lwm2m_addr_cb`. -/
def lwm2mAddrCb : Dns → NsapiError → SocketAddress → Option DnsQueryResult := addrCb .lwm2m

/-- The callback a query was issued with. -/
def Query.callback (q : Query) : Dns → NsapiError → SocketAddress → Option DnsQueryResult :=
  match q.server with
  | .bootstrap => bootstrapAddrCb
  | .lwm2m => lwm2mAddrCb

theorem Query.callback_eq (q : Query) : q.callback = addrCb q.server := by
  unfold Query.callback
  cases q.server <;> rfl

/-! ## the module and its surroundings -/

/-- A result the border router was given, with the query it answers. -/
structure Publication where
  call : DnsQueryResult
  query : Query
deriving DecidableEq, Repr

/-- The globals, the queries waiting for their answer, and the results given
to the border router so far. -/
structure DnsSystem where
  dns : Dns
  outstanding : List Query
  published : List Publication
deriving DecidableEq, Repr

namespace DnsSystem

def init : DnsSystem := ⟨Dns.init, [], []⟩

def configure (s : DnsSystem) (wisunBr backboneIface : Handle) (io : ConfigureIo) : DnsSystem :=
  { s with dns := networkDnsOptConfigure s.dns wisunBr backboneIface io }

/-- Issue the queries; the resolver takes the ones it `accepted`. -/
def querySet (s : DnsSystem) (accepted : Server → Bool) : DnsSystem :=
  { s with
    outstanding := s.outstanding ++ (networkDnsOptQuerySet s.dns).filter fun q => accepted q.server }

@[simp] theorem dns_configure (s : DnsSystem) (wisunBr backboneIface : Handle)
    (io : ConfigureIo) : (s.configure wisunBr backboneIface io).dns =
      networkDnsOptConfigure s.dns wisunBr backboneIface io := rfl

@[simp] theorem dns_querySet (s : DnsSystem) (accepted : Server → Bool) :
    (s.querySet accepted).dns = s.dns := rfl

/-- Deliver the answer of an outstanding query. -/
def answer? (s : DnsSystem) (q : Query) (result : NsapiError) (address : SocketAddress) :
    Option DnsSystem :=
  if q ∈ s.outstanding then
    some { s with
      outstanding := s.outstanding.erase q
      published := s.published ++
        ((q.callback s.dns result address).map fun call => ⟨call, q⟩).toList }
  else none

end DnsSystem

/-- What happens to the module. -/
inductive DnsEvent where
  | configure (wisunBr backboneIface : Handle) (io : ConfigureIo)
  | querySet (accepted : Server → Bool)
  | answer (q : Query) (result : NsapiError) (address : SocketAddress)

def DnsSystem.step (s : DnsSystem) : DnsEvent → Option DnsSystem
  | .configure wisunBr backboneIface io => some (s.configure wisunBr backboneIface io)
  | .querySet accepted => some (s.querySet accepted)
  | .answer q result address => s.answer? q result address

/-- The module from its initial globals on. -/
def dnsMachine : Machine DnsSystem DnsEvent := ⟨DnsSystem.init, DnsSystem.step⟩

/-! ## what configure and answers do -/

theorem serverName_readServerName (io : ConfigureIo) (d : Dns) (server server' : Server) :
    (readServerName io d server).serverName server' =
      if server' = server then
        match io.item server with
        | none => d.serverName server
        | some uri => (parseAddress uri.bytes uri.bytes.length (d.serverName server)
            (io.nameMalloc server)).2
      else d.serverName server' := by
  unfold readServerName
  cases io.item server with
  | none =>
      by_cases h : server' = server
      · simp [h]
      · simp [h]
  | some uri => simp

/-- A configure call installs the border router it is given. -/
theorem wsBr_configure (d : Dns) (wisunBr backboneIface : Handle) (io : ConfigureIo) :
    (networkDnsOptConfigure d wisunBr backboneIface io).wsBr = some wisunBr := by
  have hread : ∀ (d : Dns) (server : Server), (readServerName io d server).wsBr = d.wsBr := by
    intro d server
    unfold readServerName
    cases io.item server <;> simp
  unfold networkDnsOptConfigure getServerName
  split
  · rw [hread, hread]
  · rfl

theorem backboneInterface_configure (d : Dns) (wisunBr backboneIface : Handle)
    (io : ConfigureIo) :
    (networkDnsOptConfigure d wisunBr backboneIface io).backboneInterface =
      some backboneIface := by
  have hset : ∀ (d : Dns) (server : Server) (p : Option NameBuf),
      (d.setServerName server p).backboneInterface = d.backboneInterface := by
    intro d server p
    cases server <;> rfl
  have hread : ∀ (d : Dns) (server : Server),
      (readServerName io d server).backboneInterface = d.backboneInterface := by
    intro d server
    unfold readServerName
    cases io.item server <;> simp [hset]
  unfold networkDnsOptConfigure getServerName
  split
  · rw [hread, hread]
  · rfl

/-- Each name after a configure call comes from its own URI alone. -/
theorem serverName_configure (d : Dns) (wisunBr backboneIface : Handle) (io : ConfigureIo)
    (server : Server) :
    (networkDnsOptConfigure d wisunBr backboneIface io).serverName server =
      match io.uri server with
      | none => d.serverName server
      | some uri => (parseAddress uri.bytes uri.bytes.length (d.serverName server)
          (io.nameMalloc server)).2 := by
  have hd : ({ d with
      wsBr := some wisunBr
      backboneInterface := some backboneIface } : Dns).serverName server = d.serverName server := by
    cases server <;> rfl
  unfold networkDnsOptConfigure getServerName ConfigureIo.uri
  cases io.bufferMalloc with
  | false => exact hd
  | true =>
      rw [if_pos rfl, if_pos rfl, serverName_readServerName]
      cases server with
      | bootstrap =>
          rw [if_neg (by decide), serverName_readServerName, if_pos rfl, hd]
      | lwm2m =>
          rw [if_pos rfl, serverName_readServerName, if_neg (by decide), hd]

/-- Once there is an interface the queries are those for the two names. -/
theorem mem_networkDnsOptQuerySet {d : Dns} {q : Query} :
    q ∈ networkDnsOptQuerySet d ↔
      d.backboneInterface ≠ none ∧ q.host = nameCStr? (d.serverName q.server) := by
  obtain ⟨server, host⟩ := q
  unfold networkDnsOptQuerySet
  cases d.backboneInterface with
  | none => simp
  | some iface => cases server <;> simp [Dns.serverName]

theorem outstanding_answer {s s' : DnsSystem} {q : Query} {result : NsapiError}
    {address : SocketAddress} (h : s.answer? q result address = some s') :
    s'.outstanding = s.outstanding.erase q := by
  unfold DnsSystem.answer? at h
  split at h
  · exact Option.some.inj h ▸ rfl
  · contradiction

theorem mem_answer_outstanding {s s' : DnsSystem} {q q' : Query} {result : NsapiError}
    {address : SocketAddress} (h : s.answer? q result address = some s')
    (hq : q' ∈ s'.outstanding) : q' ∈ s.outstanding := by
  rw [outstanding_answer h] at hq
  exact List.mem_of_mem_erase hq

/-- An answer is a publication of the query's callback at most. -/
theorem answer_eq_some {s s' : DnsSystem} {q : Query} {result : NsapiError}
    {address : SocketAddress} (h : s.answer? q result address = some s') :
    q ∈ s.outstanding ∧ s'.dns = s.dns ∧
      s'.published = s.published ++
        ((addrCb q.server s.dns result address).map fun call => ⟨call, q⟩).toList := by
  unfold DnsSystem.answer? at h
  split at h
  · next hmem =>
      obtain rfl := Option.some.inj h
      exact ⟨hmem, rfl, by rw [Query.callback_eq]⟩
  · contradiction

end PelionBorderRouter
