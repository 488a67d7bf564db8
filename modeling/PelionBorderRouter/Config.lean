import PelionBorderRouter.Lib.CString

/-!
# PelionBorderRouter.Config

The compile-time constants of `main_app.cpp` and the values `mbed_app.json`
sets for it.  `Config` keeps what an integrator may change there: the
default of the mesh interface control and the start timeout.
-/

namespace PelionBorderRouter

/-! ## macros of main_app.cpp -/

/-- `DNS_QUERY_SET_PERIOD`, in milliseconds: 12 hours. -/
def dnsQuerySetPeriod : Nat := 12 * 60 * 60 * 1000

/-- `MESH_IFACE_CTRL_VAL_MAX_SIZE`. -/
abbrev meshIfaceCtrlValMaxSize : Nat := 16

/-- `APP_STATE_VAL_MAX_SIZE`. -/
abbrev appStateValMaxSize : Nat := 32

/-- `MESH_IFACE_CTRL_CONTINUE`. -/
def meshIfaceCtrlContinue : CStr :=
  ⟨['C', 'O', 'N', 'T', 'I', 'N', 'U', 'E'].map Char.toUInt8, by decide⟩

/-- `MESH_IFACE_CTRL_BLOCK`. -/
def meshIfaceCtrlBlock : CStr := ⟨['B', 'L', 'O', 'C', 'K'].map Char.toUInt8, by decide⟩

/-- `APP_STATE_WAIT_PERMISSION`. -/
def appStateWaitPermission : CStr :=
  ⟨['W', 'a', 'i', 't', 'i', 'n', 'g', ' ', 'P', 'e', 'r', 'm', 'i', 's', 's', 'i', 'o', 'n'].map
    Char.toUInt8, by decide⟩

/-- `APP_STATE_WISUN_BOOTING`. -/
def appStateWisunBooting : CStr :=
  ⟨['W', 'i', '-', 'S', 'U', 'N', ' ', 'B', 'o', 'o', 't', 'i', 'n', 'g'].map Char.toUInt8,
    by decide⟩

/-- `APP_STATE_WISUN_ACTIVE`. -/
def appStateWisunActive : CStr :=
  ⟨['W', 'i', '-', 'S', 'U', 'N', ' ', 'A', 'c', 't', 'i', 'v', 'e'].map Char.toUInt8, by decide⟩

/-- `app_status_t`. -/
inductive AppStatus where
  | fail
  | success
deriving DecidableEq, Repr

/-- The value of a status: `APP_STATUS_FAIL` is `-1`, `APP_STATUS_SUCCESS` is
`0`. -/
def AppStatus.value : AppStatus → Int
  | .fail => -1
  | .success => 0

/-- `BACKHAUL_CONNECTION_RETRY_TIMEOUT`, in milliseconds. -/
def backhaulConnectionRetryTimeout : Int32 := 1000

/-- `BACKHAUL_CONNECTION_RETRY_TIMEOUT_MAX`, in milliseconds: 5 minutes. -/
def backhaulConnectionRetryTimeoutMax : Int32 := 300 * 1000

/-! ## the network API -/

/-- An object behind a pointer that is not `NULL`. -/
abbrev Handle := Nat

/-- An address as the network stack delivers it. -/
abbrev SocketAddress := List UInt8

/-- What network calls return, as far as this program tells it apart:
`NSAPI_ERROR_OK`, `NSAPI_ERROR_IS_CONNECTED`, or another error. -/
inductive NsapiError where
  | ok
  | isConnected
  | other (code : Int)
deriving DecidableEq, Repr

/-- What `ws_border_router.start` returns: `MESH_ERROR_NONE`, or another
error. -/
inductive MeshError where
  | none
  | other (code : Int)
deriving DecidableEq, Repr

/-- The most tokens an `rtos::Semaphore` holds when it is built without a
limit. -/
abbrev semaphoreTokenLimit : Nat := 0xffff

/-! ## values of mbed_app.json -/

/-- The configured build.  The default of the control value fits the buffer
it is copied into, as both values `mbed_app.json` allows do. -/
structure Config where
  /-- `MBED_CONF_APP_MESH_IFACE_START_CONTROL` -/
  meshIfaceStartControl : CStr
  meshIfaceStartControl_fits : meshIfaceStartControl.strlen < meshIfaceCtrlValMaxSize
  /-- `MBED_CONF_APP_MESH_IFACE_START_TIMEOUT`, in seconds -/
  meshIfaceStartTimeout : Nat

/-- `MESH_IFACE_START_MAX_WAIT`, in milliseconds; `0` waits for ever. -/
def Config.meshIfaceStartMaxWait (cfg : Config) : Nat := cfg.meshIfaceStartTimeout * 1000

/-- The values `mbed_app.json` ships. -/
def Config.shipped : Config := ⟨meshIfaceCtrlContinue, by decide, 600⟩

/-- The other documented default: the mesh starts only on permission. -/
def Config.blocked : Config := ⟨meshIfaceCtrlBlock, by decide, 600⟩

end PelionBorderRouter
