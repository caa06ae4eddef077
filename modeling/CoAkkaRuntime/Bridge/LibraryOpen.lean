import CoAkkaRuntime.Session.AskTicket
import CoAkkaRuntime.Throwing.Ends

/-!
# Bridge — `coakka_swift_runtime_library_open`

The loading of the Core module (`coakka_runtime_bridge.c`). A module is what the platform loader
finds in it: whether it can be opened, and which names it exports. Opening it fills one slot of the
library block after the other; what is opened and allocated on the way, and what is given back, is
recorded. The symbols of the two lanes are looked up later, each time a lane function is called.

* `openLibrary` — the opening as the source writes it, with every early return.
* `loadOrder` — the slots in the order in which they are filled, `mem_loadOrder` that all of them
  are.
* `OpenState` — the block, the message of the last error and the record of loader calls.

What the opening means for the functions that are called later is in `SymbolSet`.
-/

namespace CoAkka.Bridge

open Session (Address)
open Throwing

/-! ## The module and the library block -/

/-- A shared library, as the platform loader answers about it. -/
structure CoreModule where
  /-- `platform_library_open`. -/
  handle : Option Address
  /-- `platform_library_symbol`, by name. -/
  exports : String → Option Address

/-- The function slots of a `runtime_library_t`. -/
inductive Slot where
  | getAbiVersion
  | createNative
  | getStartup
  | getDelivery
  | closeHandles
  | readerCreate
  | readerRead
  | ownedData
  | ownedSize
  | ownedRelease
  | readerDestroy
  | ticketCancel
  | copyPayload
  | copyDispatch
  | getInfo
  | runtimeCreate
  | runtimeDestroy
  | applyNetworkOptions
  | getHostHandles
  | runtimeStart
  | runtimeStop
  | applySnapshot
  | submitEnvelope
  | getConfig
  | getHealth
  | getStats
  | getCapabilities
  | applyTcpConnectionOptions
  | getTcpConnectionConfig
  | applyTcpSecurityOptions
  | getTcpSecurityInfo
  | transportApplyReasonName
  | deadletterReasonName
  | askClientCreate
  | askClientDestroy
  | askClientBegin
  | askTicketAwait
  | askTicketMessageID
  | askTicketDestroy
  | buildRawRequest
  | buildRawReply
  | clientBytesRelease
  deriving DecidableEq, Repr

namespace Slot

/-- The name that `LOAD_SYMBOL` looks up for the slot. -/
def symbol : Slot → String
  | .getAbiVersion => "coakka_v2_runtime_get_abi_version"
  | .createNative => "coakka_v2_runtime_create_native"
  | .getStartup => "coakka_v2_runtime_get_startup_config"
  | .getDelivery => "coakka_v2_runtime_get_delivery_config"
  | .closeHandles => "coakka_v2_host_handles_close"
  | .readerCreate => "coakka_v2_runtime_request_reader_create"
  | .readerRead => "coakka_v2_request_reader_read"
  | .ownedData => "coakka_v2_owned_frame_data"
  | .ownedSize => "coakka_v2_owned_frame_size"
  | .ownedRelease => "coakka_v2_owned_frame_release"
  | .readerDestroy => "coakka_v2_request_reader_destroy"
  | .ticketCancel => "coakka_v2_ask_ticket_cancel"
  | .copyPayload => "coakka_v2_client_copy_envelope_payload"
  | .copyDispatch => "coakka_v2_client_copy_request_dispatch"
  | .getInfo => "coakka_v2_runtime_get_info"
  | .runtimeCreate => "coakka_v2_runtime_create"
  | .runtimeDestroy => "coakka_v2_runtime_destroy"
  | .applyNetworkOptions => "coakka_v2_runtime_apply_network_options"
  | .getHostHandles => "coakka_v2_runtime_get_host_handles"
  | .runtimeStart => "coakka_v2_runtime_start"
  | .runtimeStop => "coakka_v2_runtime_stop"
  | .applySnapshot => "coakka_v2_runtime_apply_control_snapshot"
  | .submitEnvelope => "coakka_v2_runtime_submit_envelope"
  | .getConfig => "coakka_v2_runtime_get_config"
  | .getHealth => "coakka_v2_runtime_get_health"
  | .getStats => "coakka_v2_runtime_get_stats"
  | .getCapabilities => "coakka_v2_runtime_get_capabilities"
  | .applyTcpConnectionOptions => "coakka_v2_runtime_apply_tcp_connection_options_ex"
  | .getTcpConnectionConfig => "coakka_v2_runtime_get_tcp_connection_config"
  | .applyTcpSecurityOptions => "coakka_v2_runtime_apply_tcp_security_options_ex"
  | .getTcpSecurityInfo => "coakka_v2_runtime_get_tcp_security_info"
  | .transportApplyReasonName => "coakka_v2_transport_apply_reason_name"
  | .deadletterReasonName => "coakka_v2_deadletter_reason_name"
  | .askClientCreate => "coakka_v2_ask_client_create"
  | .askClientDestroy => "coakka_v2_ask_client_destroy"
  | .askClientBegin => "coakka_v2_ask_client_begin"
  | .askTicketAwait => "coakka_v2_ask_ticket_await"
  | .askTicketMessageID => "coakka_v2_ask_ticket_message_id"
  | .askTicketDestroy => "coakka_v2_ask_ticket_destroy"
  | .buildRawRequest => "coakka_v2_client_build_raw_request"
  | .buildRawReply => "coakka_v2_client_build_raw_reply"
  | .clientBytesRelease => "coakka_v2_client_bytes_release"

/-- The slots in the order in which they are loaded. -/
def loadOrder : List Slot :=
  [.getAbiVersion, .createNative, .getStartup, .getDelivery, .closeHandles, .readerCreate,
    .readerRead, .ownedData, .ownedSize, .ownedRelease, .readerDestroy, .ticketCancel, .copyPayload,
    .copyDispatch, .getInfo, .runtimeCreate, .runtimeDestroy, .applyNetworkOptions, .getHostHandles,
    .runtimeStart, .runtimeStop, .applySnapshot, .submitEnvelope, .getConfig, .getHealth, .getStats,
    .getCapabilities, .applyTcpConnectionOptions, .getTcpConnectionConfig, .applyTcpSecurityOptions,
    .getTcpSecurityInfo, .transportApplyReasonName, .deadletterReasonName, .askClientCreate,
    .askClientDestroy, .askClientBegin, .askTicketAwait, .askTicketMessageID, .askTicketDestroy,
    .buildRawRequest, .buildRawReply, .clientBytesRelease]

/-- Every slot is in the load order. -/
theorem mem_loadOrder (slot : Slot) : slot ∈ loadOrder := by
  cases slot <;> decide

end Slot

/-- `runtime_library_t`, as `calloc` leaves it. -/
structure RuntimeLibrary where
  handle : Option Address := none
  slots : Slot → Option Address := fun _ => none

/-! ## The opening -/

/-- The arguments of an opening, and what the platform answers besides the module: the block of
`calloc`, and the text of the loader's error. `errorBuf` is the length of a buffer that is there. -/
structure OpenCall where
  path : Option String
  hasOutLibrary : Bool
  errorBuf : Option Nat
  block : Option Address
  loaderError : String

/-- The resources of an opening, in order. -/
inductive LoaderEvent where
  | calloc (block : Option Address)
  | libraryOpen (handle : Option Address)
  | librarySymbol (name : String) (symbol : Option Address)
  | libraryClose (handle : Address)
  | free (block : Address)
  deriving DecidableEq, Repr

structure OpenState where
  /-- `*out_library`. -/
  outLibrary : Option Address
  /-- The contents of the block. -/
  library : RuntimeLibrary := {}
  /-- The bytes in `error_buf`, before their NUL. -/
  error : List UInt8 := []
  log : List LoaderEvent := []

namespace OpenState

variable (s : OpenState) (events : List LoaderEvent)

def logged : OpenState := { s with log := s.log ++ events }

@[simp] theorem logged_outLibrary : (s.logged events).outLibrary = s.outLibrary := rfl

@[simp] theorem logged_library : (s.logged events).library = s.library := rfl

@[simp] theorem logged_error : (s.logged events).error = s.error := rfl

@[simp] theorem logged_log : (s.logged events).log = s.log ++ events := rfl

end OpenState

abbrev OpenM := ExceptT Int32 (StateM OpenState)

def note (event : LoaderEvent) : OpenM Unit := modify fun s => s.logged [event]

/-- `set_error`: `snprintf` cuts the text to the buffer. -/
def setError (call : OpenCall) (cause value : String) : OpenM Unit :=
  match call.errorBuf with
  | none | some 0 => pure ()
  | some (len + 1) => modify fun s => { s with
      error := ((cause ++ value).toByteArray.data.toList).take len }

/-- `platform_library_close`. -/
def platformLibraryClose (handle : Option Address) : OpenM Unit :=
  match handle with
  | none => pure ()
  | some handle => note (.libraryClose handle)

/-- `LOAD_SYMBOL`: a missing symbol gives back the handle and the block. -/
def loadSymbol (call : OpenCall) (m : CoreModule) (block : Address) (slot : Slot) :
    OpenM Unit := do
  note (.librarySymbol slot.symbol (m.exports slot.symbol))
  match m.exports slot.symbol with
  | none =>
    setError call "missing symbol: " slot.symbol
    platformLibraryClose (← get).library.handle
    note (.free block)
    throw Status.symbol
  | some symbol =>
    modify fun s => { s with library := { s.library with
      slots := fun other => if other = slot then some symbol else s.library.slots other } }

def openLibrary (call : OpenCall) (m : CoreModule) : OpenM Unit := do
  if call.path.isNone || !call.hasOutLibrary then
    setError call "invalid runtime library path" ""
    throw Status.invalidArg
  else
    modify fun s => { s with outLibrary := none }
    note (.calloc call.block)
    match call.block with
    | none =>
      setError call "out of memory" ""
      throw Status.noMem
    | some block =>
      note (.libraryOpen m.handle)
      modify fun s => { s with library := { handle := m.handle } }
      match m.handle with
      | none =>
        setError call "failed to open runtime library: " call.loaderError
        note (.free block)
        throw Status.load
      | some _ =>
        Slot.loadOrder.forM (loadSymbol call m block)
        modify fun s => { s with outLibrary := some block }

/-- `coakka_swift_runtime_library_open` of the module at the path: its status, and what it leaves.
`before` is what `*out_library` was. -/
def runtimeLibraryOpen (call : OpenCall) (m : CoreModule) (before : Option Address) :
    Int32 × OpenState :=
  match exec (openLibrary call m) { outLibrary := before } with
  | (.ok (), s) => (Status.ok, s)
  | (.error status, s) => (status, s)

/-- `coakka_swift_runtime_library_close`. -/
def runtimeLibraryClose (library : Option (Address × RuntimeLibrary)) : List LoaderEvent :=
  match library with
  | none => []
  | some (block, library) =>
    (library.handle.toList.map .libraryClose) ++ [.free block]

end CoAkka.Bridge
