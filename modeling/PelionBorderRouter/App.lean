import PelionBorderRouter.ControlValue
import PelionBorderRouter.Dns
import PelionBorderRouter.Lib.Rtos

/-!
# PelionBorderRouter.App

`main_app.cpp` from the first `cloud_client->setup` on: the main thread on
its way through `mesh_connect`, and the callbacks of the cloud client, the
event queue and the network stack around it.

A callback runs to its end before the next one starts, and the main thread
goes on one statement at a time, at any moment.  What a step finds outside
of the application is in its event: what `connect` returns, whether the
event queue has memory, whether the mesh address can be read.

The byte a PUT of 16 characters writes behind `mesh_iface_control_value`
goes to no variable of this model.
-/

namespace PelionBorderRouter

/-! ## the main thread -/

/-- The statement `main` runs next, from the first `cloud_client->setup` to
`queue->dispatch_forever`; those of `mesh_connect` are the four from
`writeBooting` on. -/
inductive MainPc where
  | setup
  | acquireControl
  | writeBooting
  | addEventListener
  | connect
  | startBorderRouter
  | acquireGlobalIp
  | setupAgain
  | dispatchForever
deriving DecidableEq, Repr

namespace MainPc

/-- How far a statement is from the first one. -/
def rank : MainPc → Nat
  | .setup => 0
  | .acquireControl => 1
  | .writeBooting => 2
  | .addEventListener => 3
  | .connect => 4
  | .startBorderRouter => 5
  | .acquireGlobalIp => 6
  | .setupAgain => 7
  | .dispatchForever => 8

/-- `mesh_control_data_found.acquire()` has returned, and `mesh_connect` has
been entered. -/
def PassedAcquire (pc : MainPc) : Prop := MainPc.acquireControl.rank < pc.rank

/-- `mesh_connect` has written `Wi-SUN Booting`. -/
def BootingWritten (pc : MainPc) : Prop := MainPc.writeBooting.rank < pc.rank

/-- `mesh_connect` has added the event listener. -/
def Listening (pc : MainPc) : Prop := MainPc.addEventListener.rank < pc.rank

instance (pc : MainPc) : Decidable pc.PassedAcquire := Nat.decLt _ _
instance (pc : MainPc) : Decidable pc.BootingWritten := Nat.decLt _ _
instance (pc : MainPc) : Decidable pc.Listening := Nat.decLt _ _

/-- `pc'` comes after `pc`, with no acquire of the gate and no write of
`Wi-SUN Booting` between them. -/
def Advances (pc pc' : MainPc) : Prop :=
  pc.rank < pc'.rank ∧ (pc'.PassedAcquire ↔ pc.PassedAcquire) ∧
    (pc'.BootingWritten ↔ pc.BootingWritten)

instance (pc pc' : MainPc) : Decidable (pc.Advances pc') := instDecidableAnd

end MainPc

/-- What the calls `main` makes in `mesh_connect` return. -/
structure MainIo where
  connect : NsapiError
  start : MeshError
deriving DecidableEq, Repr

/-! ## the state -/

/-- The callbacks the application posts to the event queue. -/
inductive AppCallback where
  | meshIfaceStartMaxWaitCb
  | networkDnsOptQuerySet
deriving DecidableEq, Repr

/-- The address of the static `ws_border_router`. -/
def wsBorderRouter : Handle := 0

/-- The globals of `main_app.cpp` that outlive a callback, and what they
refer to. -/
structure App where
  main : MainPc
  control : MeshControl
  appStateValue : CharBuf appStateValMaxSize
  meshInterfaceUp : Bool
  meshControlDataFound : Semaphore semaphoreTokenLimit
  meshGlobalIp : Semaphore semaphoreTokenLimit
  queue : EventQueue AppCallback
  backhaulInterface : Handle
  /-- whether a `ws_border_router.start` has returned without error -/
  borderRouterStarted : Bool
  dns : DnsSystem

/-- What `main` finds before its first `cloud_client->setup`. -/
structure Boot where
  io : BootIo
  record : Option (List UInt8)
  backhaulInterface : Handle
deriving DecidableEq, Repr

/-- The application when `main` comes to `cloud_client->setup`. -/
def App.boot (cfg : Config) (boot : Boot) : App where
  main := .setup
  control := readDefaultMeshIfaceControl cfg boot.io boot.record
  appStateValue := CharBuf.zeros appStateValMaxSize
  meshInterfaceUp := false
  meshControlDataFound := Semaphore.empty semaphoreTokenLimit
  meshGlobalIp := Semaphore.empty semaphoreTokenLimit
  queue := EventQueue.empty AppCallback
  backhaulInterface := boot.backhaulInterface
  borderRouterStarted := false
  dns := DnsSystem.init

/-- The next statement of `main`; `none` while it blocks. -/
def App.mainStep (s : App) (io : MainIo) : Option App :=
  match s.main with
  | .setup => some { s with main := .acquireControl }
  | .acquireControl =>
      match s.meshControlDataFound.acquire? with
      | none => none
      | some sem => some { s with main := .writeBooting, meshControlDataFound := sem }
  | .writeBooting =>
      some { s with
        main := .addEventListener
        appStateValue := s.appStateValue.strcpy appStateWisunBooting }
  | .addEventListener => some { s with main := .connect }
  | .connect =>
      if io.connect = .ok ∨ io.connect = .isConnected then
        some { s with main := .startBorderRouter }
      else some { s with main := .acquireGlobalIp }
  | .startBorderRouter =>
      some { s with
        main := .acquireGlobalIp
        borderRouterStarted := s.borderRouterStarted || io.start = .none }
  | .acquireGlobalIp =>
      match s.meshGlobalIp.acquire? with
      | none => none
      | some sem => some { s with main := .setupAgain, meshGlobalIp := sem }
  | .setupAgain => some { s with main := .dispatchForever }
  | .dispatchForever => none

/-! ## callbacks of the cloud client -/

/-- What a registration finds: whether the event queue has memory for the
event it posts, and, for the DNS queries, what `network_dns_opt_configure`
reads and which queries the resolver takes. -/
structure RegisteredIo where
  queueAccepts : Bool
  configure : ConfigureIo
  resolverAccepts : Server → Bool

/-- `check_mesh_iface_control`. -/
def checkMeshIfaceControl (cfg : Config) (s : App) (queueAccepts : Bool) : App :=
  if controlBlocks s.control.value = false then
    { s with meshControlDataFound := s.meshControlDataFound.release }
  else
    let s := { s with appStateValue := s.appStateValue.strcpy appStateWaitPermission }
    if cfg.meshIfaceStartMaxWait ≠ 0 then
      { s with
        queue := s.queue.callIn queueAccepts cfg.meshIfaceStartMaxWait .meshIfaceStartMaxWaitCb }
    else s

/-- `client_registered`. -/
def clientRegistered (cfg : Config) (s : App) (io : RegisteredIo) : App :=
  if s.meshInterfaceUp = false then checkMeshIfaceControl cfg s io.queueAccepts
  else
    { s with
      dns := (s.dns.configure wsBorderRouter s.backhaulInterface io.configure).querySet
        io.resolverAccepts
      queue := s.queue.callEvery io.queueAccepts dnsQuerySetPeriod .networkDnsOptQuerySet }

/-- `mesh_iface_control_cb`; the payload is `none` when `c_str` is `NULL`. -/
def meshIfaceControlCb (s : App) (payload : Option CStr) (io : PutIo) : App :=
  match payload with
  | none => s
  | some _ =>
      let s := { s with control := s.control.update payload io }
      if s.meshInterfaceUp = false then
        if controlBlocks s.control.value = false then
          { s with meshControlDataFound := s.meshControlDataFound.release }
        else s
      else s

/-- The resources `app_res_read_cb` serves: 33455/0/13 and 33455/0/14. -/
inductive AppResource where
  | meshIfaceControl
  | appState
deriving DecidableEq, Repr

/-- `app_res_read_cb`: the string a GET is answered with; `none` where
`strlen` finds no NUL in the buffer. -/
def appResReadCb (s : App) : AppResource → Option CStr
  | .meshIfaceControl => s.control.value.cstr?
  | .appState => s.appStateValue.cstr?

/-! ## callbacks of the event queue -/

/-- `mesh_iface_start_max_wait_cb`. -/
def meshIfaceStartMaxWaitCb (s : App) : App :=
  { s with meshControlDataFound := s.meshControlDataFound.release }

/-- Run a callback the queue has dispatched. -/
def runCallback (s : App) (resolverAccepts : Server → Bool) : AppCallback → App
  | .meshIfaceStartMaxWaitCb => meshIfaceStartMaxWaitCb s
  | .networkDnsOptQuerySet => { s with dns := s.dns.querySet resolverAccepts }

/-! ## callbacks of the network stack -/

/-- The parameter of `NSAPI_EVENT_CONNECTION_STATUS_CHANGE`. -/
inductive ConnectionStatus where
  | globalUp
  | localUp
  | disconnected
  | connecting
  | errorUnsupported
  | other (param : Int)
deriving DecidableEq, Repr

/-- An event of the mesh interface. -/
inductive NsapiEvent where
  | connectionStatusChange (status : ConnectionStatus)
  | other (event : Int)
deriving DecidableEq, Repr

/-- `mesh_interface_status_callback`; `ipAddress` is what `get_ip_address`
yields, `none` when it fails. -/
def meshInterfaceStatusCallback (s : App) (event : NsapiEvent) (ipAddress : Option SocketAddress) :
    App :=
  match event with
  | .other _ => s
  | .connectionStatusChange status =>
      match status with
      | .globalUp =>
          match ipAddress with
          | none => s
          | some _ =>
              { s with
                meshInterfaceUp := true
                appStateValue := s.appStateValue.strcpy appStateWisunActive
                meshGlobalIp := s.meshGlobalIp.release }
      | .localUp => s
      | .disconnected => s
      | .connecting => s
      | .errorUnsupported => s
      | .other _ => s

/-! ## the application as a machine -/

/-- What can happen next. -/
inductive AppEvent where
  | main (io : MainIo)
  | clientRegistered (io : RegisteredIo)
  | putControl (payload : Option CStr) (io : PutIo)
  | dispatch (id : Nat) (resolverAccepts : Server → Bool)
  | meshStatus (event : NsapiEvent) (ipAddress : Option SocketAddress)
  | dnsAnswer (q : Query) (result : NsapiError) (address : SocketAddress)

/-- What one event does; `none` when it cannot happen: the main thread
blocks, the queue has no such event, nobody listens to the mesh interface,
or no such query is outstanding. -/
def App.step (cfg : Config) (s : App) : AppEvent → Option App
  | .main io => s.mainStep io
  | .clientRegistered io => some (clientRegistered cfg s io)
  | .putControl payload io => some (meshIfaceControlCb s payload io)
  | .dispatch id resolverAccepts =>
      match s.queue.dispatch id with
      | none => none
      | some (q, queue) => some (runCallback { s with queue := queue } resolverAccepts q.callback)
  | .meshStatus event ipAddress =>
      if s.main.Listening then some (meshInterfaceStatusCallback s event ipAddress) else none
  | .dnsAnswer q result address =>
      match s.dns.answer? q result address with
      | none => none
      | some dns => some { s with dns := dns }

/-- The application after a boot. -/
def app (cfg : Config) (boot : Boot) : Machine App AppEvent := ⟨App.boot cfg boot, App.step cfg⟩

/-! ## what a step can do -/

/-- The steps of the application, by the branch of the source they take. -/
inductive AppStep (cfg : Config) (s : App) : AppEvent → App → Prop where
  | acquireControl {io sem} (hpc : s.main = .acquireControl)
      (hsem : s.meshControlDataFound.acquire? = some sem) :
      AppStep cfg s (.main io) { s with main := .writeBooting, meshControlDataFound := sem }
  | writeBooting {io} (hpc : s.main = .writeBooting) :
      AppStep cfg s (.main io) { s with
        main := .addEventListener
        appStateValue := s.appStateValue.strcpy appStateWisunBooting }
  | acquireGlobalIp {io sem} (hpc : s.main = .acquireGlobalIp)
      (hsem : s.meshGlobalIp.acquire? = some sem) :
      AppStep cfg s (.main io) { s with main := .setupAgain, meshGlobalIp := sem }
  | advance {io} (pc : MainPc) (started : Bool) (hpc : s.main.Advances pc) :
      AppStep cfg s (.main io) { s with main := pc, borderRouterStarted := started }
  | registeredPermitted {io} (hup : s.meshInterfaceUp = false)
      (hblock : controlBlocks s.control.value = false) :
      AppStep cfg s (.clientRegistered io)
        { s with meshControlDataFound := s.meshControlDataFound.release }
  | registeredBlocked {io} (hup : s.meshInterfaceUp = false)
      (hblock : controlBlocks s.control.value = true) :
      AppStep cfg s (.clientRegistered io) { s with
        appStateValue := s.appStateValue.strcpy appStateWaitPermission
        queue := s.queue.callIn (decide (cfg.meshIfaceStartMaxWait ≠ 0) && io.queueAccepts)
          cfg.meshIfaceStartMaxWait .meshIfaceStartMaxWaitCb }
  | registeredUp {io} (hup : s.meshInterfaceUp = true) :
      AppStep cfg s (.clientRegistered io) { s with
        dns := (s.dns.configure wsBorderRouter s.backhaulInterface io.configure).querySet
          io.resolverAccepts
        queue := s.queue.callEvery io.queueAccepts dnsQuerySetPeriod .networkDnsOptQuerySet }
  | putNull {io} : AppStep cfg s (.putControl none io) s
  | putPermitted {cval io} (hup : s.meshInterfaceUp = false)
      (hblock : controlBlocks (s.control.update (some cval) io).value = false) :
      AppStep cfg s (.putControl (some cval) io) { s with
        control := s.control.update (some cval) io
        meshControlDataFound := s.meshControlDataFound.release }
  | putStored {cval io} (hup : s.meshInterfaceUp = true ∨
        controlBlocks (s.control.update (some cval) io).value = true) :
      AppStep cfg s (.putControl (some cval) io)
        { s with control := s.control.update (some cval) io }
  | startMaxWait {id resolverAccepts q queue} (hq : s.queue.dispatch id = some (q, queue))
      (hcb : q.callback = .meshIfaceStartMaxWaitCb) :
      AppStep cfg s (.dispatch id resolverAccepts)
        { s with queue := queue, meshControlDataFound := s.meshControlDataFound.release }
  | querySet {id resolverAccepts q queue} (hq : s.queue.dispatch id = some (q, queue))
      (hcb : q.callback = .networkDnsOptQuerySet) :
      AppStep cfg s (.dispatch id resolverAccepts)
        { s with queue := queue, dns := s.dns.querySet resolverAccepts }
  | globalUp {ip} (hlisten : s.main.Listening) :
      AppStep cfg s (.meshStatus (.connectionStatusChange .globalUp) (some ip)) { s with
        meshInterfaceUp := true
        appStateValue := s.appStateValue.strcpy appStateWisunActive
        meshGlobalIp := s.meshGlobalIp.release }
  | statusTraced {event ipAddress} (hlisten : s.main.Listening)
      (hdown : event = .connectionStatusChange .globalUp → ipAddress = none) :
      AppStep cfg s (.meshStatus event ipAddress) s
  | dnsAnswer {q result address dns} (hdns : s.dns.answer? q result address = some dns) :
      AppStep cfg s (.dnsAnswer q result address) { s with dns := dns }

theorem appStep_main {cfg : Config} {s s' : App} {io : MainIo} (h : s.mainStep io = some s') :
    AppStep cfg s (.main io) s' := by
  unfold App.mainStep at h
  cases hpc : s.main with
  | setup =>
      simp only [hpc, Option.some.injEq] at h
      subst h
      exact AppStep.advance .acquireControl s.borderRouterStarted (by rw [hpc]; decide)
  | acquireControl =>
      simp only [hpc] at h
      cases hsem : s.meshControlDataFound.acquire? with
      | none => simp [hsem] at h
      | some sem =>
          simp only [hsem, Option.some.injEq] at h
          subst h
          exact AppStep.acquireControl hpc hsem
  | writeBooting =>
      simp only [hpc, Option.some.injEq] at h
      subst h
      exact AppStep.writeBooting hpc
  | addEventListener =>
      simp only [hpc, Option.some.injEq] at h
      subst h
      exact AppStep.advance .connect s.borderRouterStarted (by rw [hpc]; decide)
  | connect =>
      simp only [hpc] at h
      split at h
      · obtain rfl := Option.some.inj h
        exact AppStep.advance .startBorderRouter s.borderRouterStarted (by rw [hpc]; decide)
      · obtain rfl := Option.some.inj h
        exact AppStep.advance .acquireGlobalIp s.borderRouterStarted (by rw [hpc]; decide)
  | startBorderRouter =>
      simp only [hpc, Option.some.injEq] at h
      subst h
      exact AppStep.advance .acquireGlobalIp _ (by rw [hpc]; decide)
  | acquireGlobalIp =>
      simp only [hpc] at h
      cases hsem : s.meshGlobalIp.acquire? with
      | none => simp [hsem] at h
      | some sem =>
          simp only [hsem, Option.some.injEq] at h
          subst h
          exact AppStep.acquireGlobalIp hpc hsem
  | setupAgain =>
      simp only [hpc, Option.some.injEq] at h
      subst h
      exact AppStep.advance .dispatchForever s.borderRouterStarted (by rw [hpc]; decide)
  | dispatchForever => simp [hpc] at h

theorem appStep_clientRegistered (cfg : Config) (s : App) (io : RegisteredIo) :
    AppStep cfg s (.clientRegistered io) (clientRegistered cfg s io) := by
  by_cases hup : s.meshInterfaceUp = false
  · rw [clientRegistered, if_pos hup]
    unfold checkMeshIfaceControl
    by_cases hblock : controlBlocks s.control.value = false
    · rw [if_pos hblock]
      exact AppStep.registeredPermitted hup hblock
    · have hstep : AppStep cfg s (.clientRegistered io) _ :=
        AppStep.registeredBlocked hup (eq_true_of_ne_false hblock)
      rw [if_neg hblock]
      by_cases hwait : cfg.meshIfaceStartMaxWait = 0
      · simpa [hwait, EventQueue.callIn] using hstep
      · simpa [hwait] using hstep
  · rw [clientRegistered, if_neg hup]
    exact AppStep.registeredUp (eq_true_of_ne_false hup)

theorem appStep_putControl (cfg : Config) (s : App) (payload : Option CStr) (io : PutIo) :
    AppStep cfg s (.putControl payload io) (meshIfaceControlCb s payload io) := by
  unfold meshIfaceControlCb
  cases payload with
  | none => exact AppStep.putNull
  | some cval =>
      dsimp only
      by_cases hup : s.meshInterfaceUp = false
      · rw [if_pos hup]
        by_cases hblock : controlBlocks (s.control.update (some cval) io).value = false
        · rw [if_pos hblock]
          exact AppStep.putPermitted hup hblock
        · rw [if_neg hblock]
          exact AppStep.putStored (Or.inr (eq_true_of_ne_false hblock))
      · rw [if_neg hup]
        exact AppStep.putStored (Or.inl (eq_true_of_ne_false hup))

theorem appStep_meshStatus {cfg : Config} {s : App} (hlisten : s.main.Listening)
    (event : NsapiEvent) (ipAddress : Option SocketAddress) :
    AppStep cfg s (.meshStatus event ipAddress)
      (meshInterfaceStatusCallback s event ipAddress) := by
  unfold meshInterfaceStatusCallback
  cases event with
  | other event => exact AppStep.statusTraced hlisten (by simp)
  | connectionStatusChange status =>
      cases status with
      | globalUp =>
          cases ipAddress with
          | none => exact AppStep.statusTraced hlisten fun _ => rfl
          | some ip => exact AppStep.globalUp hlisten
      | _ => exact AppStep.statusTraced hlisten (by simp)

/-- **Inversion**: every step is one of the branches. -/
theorem appStep_of_step {cfg : Config} {s s' : App} {e : AppEvent}
    (h : App.step cfg s e = some s') : AppStep cfg s e s' := by
  cases e with
  | main io => exact appStep_main h
  | clientRegistered io => exact Option.some.inj h ▸ appStep_clientRegistered cfg s io
  | putControl payload io => exact Option.some.inj h ▸ appStep_putControl cfg s payload io
  | dispatch id resolverAccepts =>
      simp only [App.step] at h
      cases hq : s.queue.dispatch id with
      | none => simp [hq] at h
      | some p =>
          obtain ⟨q, queue⟩ := p
          simp only [hq, Option.some.injEq] at h
          subst h
          cases hcb : q.callback with
          | meshIfaceStartMaxWaitCb => exact AppStep.startMaxWait hq hcb
          | networkDnsOptQuerySet => exact AppStep.querySet hq hcb
  | meshStatus event ipAddress =>
      simp only [App.step] at h
      split at h
      · next hlisten => exact Option.some.inj h ▸ appStep_meshStatus hlisten event ipAddress
      · contradiction
  | dnsAnswer q result address =>
      simp only [App.step] at h
      cases hdns : s.dns.answer? q result address with
      | none => simp [hdns] at h
      | some dns =>
          simp only [hdns, Option.some.injEq] at h
          subst h
          exact AppStep.dnsAnswer hdns

/-- The main thread never goes back. -/
theorem AppStep.rank_le {cfg : Config} {s s' : App} {e : AppEvent} (h : AppStep cfg s e s') :
    s.main.rank ≤ s'.main.rank := by
  cases h with
  | acquireControl hpc hsem => simp [hpc, MainPc.rank]
  | writeBooting hpc => simp [hpc, MainPc.rank]
  | acquireGlobalIp hpc hsem => simp [hpc, MainPc.rank]
  | advance pc started hpc => exact Nat.le_of_lt hpc.1
  | _ => exact Nat.le_refl _

end PelionBorderRouter
