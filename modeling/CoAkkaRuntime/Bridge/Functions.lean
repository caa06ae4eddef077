import CoAkkaRuntime.Bridge.LibraryOpen

/-!
# Bridge — the functions of the bridge

Every function of `coakka_runtime_bridge.h` that reaches Core, up to the call it makes there: which
function of Core it calls, which of its pointers it wants, and what it does without them. A runtime
or client function calls through a slot of the library block, which the opening has filled. A lane
function asks the loader for its symbol at each call (`CHECKED_CORE_LOADER`), and where there is
none it answers `COAKKA_SWIFT_ERR_SYMBOL` or, if it returns nothing, does nothing.

* `BridgeFunction` — what one function checks and which symbols it wants.
* `BridgeFunction.answer` — its answer for a library block, a module and its arguments.
* `bridgeFunctions` — all of them, in the order of the header.

Each function is that record under the name it has in the header, without the leading
`coakka_swift_`. The parameters it refuses when they are null are given by name; what it does with
the values behind them is Core's.
-/

namespace CoAkka.Bridge

open Session (Address)

/-! ## The symbols of the lanes -/

/-- The functions of Core that are looked up by `CHECKED_CORE_LOADER`. -/
inductive LaneSymbol where
  | fileLaneCancelTransfer
  | fileLaneForgetTransfer
  | fileLaneCreate
  | fileLaneCreateOwned
  | fileLaneDestroy
  | fileLaneGetTransfer
  | fileLaneGetBoundPort
  | fileLanePrepareReceive
  | fileLanePrepareReceiveGrant
  | fileSha256Path
  | fileLaneStart
  | fileLaneStop
  | fileLaneGetStats
  | fileLaneSubmitSend
  | fileLaneWaitTransfer
  | streamLaneCancelSession
  | streamLaneForgetSession
  | streamLaneCreate
  | streamLaneCreateOwned
  | streamLaneDestroy
  | streamLaneGetSession
  | streamLaneGetBoundPort
  | streamLaneGetPressure
  | streamLanePreparePublish
  | streamLanePreparePublishGrant
  | streamLaneStart
  | streamLaneStop
  | streamLaneGetStats
  | streamLaneSubscribe
  | streamLaneWaitSession
  | streamLaneWaitPressure
  deriving DecidableEq, Repr

/-- The name that is looked up. -/
def LaneSymbol.name : LaneSymbol → String
  | .fileLaneCancelTransfer => "coakka_v2_file_lane_cancel_transfer"
  | .fileLaneForgetTransfer => "coakka_v2_file_lane_forget_transfer"
  | .fileLaneCreate => "coakka_v2_file_lane_create_ex"
  | .fileLaneCreateOwned => "coakka_v2_file_lane_create_owned_ex"
  | .fileLaneDestroy => "coakka_v2_file_lane_destroy"
  | .fileLaneGetTransfer => "coakka_v2_file_lane_get_transfer"
  | .fileLaneGetBoundPort => "coakka_v2_file_lane_get_bound_port"
  | .fileLanePrepareReceive => "coakka_v2_file_lane_prepare_receive"
  | .fileLanePrepareReceiveGrant => "coakka_v2_file_lane_prepare_receive_grant"
  | .fileSha256Path => "coakka_v2_file_sha256_path"
  | .fileLaneStart => "coakka_v2_file_lane_start"
  | .fileLaneStop => "coakka_v2_file_lane_stop"
  | .fileLaneGetStats => "coakka_v2_file_lane_get_stats"
  | .fileLaneSubmitSend => "coakka_v2_file_lane_submit_send"
  | .fileLaneWaitTransfer => "coakka_v2_file_lane_wait_transfer"
  | .streamLaneCancelSession => "coakka_v2_stream_lane_cancel_session"
  | .streamLaneForgetSession => "coakka_v2_stream_lane_forget_session"
  | .streamLaneCreate => "coakka_v2_stream_lane_create_ex"
  | .streamLaneCreateOwned => "coakka_v2_stream_lane_create_owned_ex"
  | .streamLaneDestroy => "coakka_v2_stream_lane_destroy"
  | .streamLaneGetSession => "coakka_v2_stream_lane_get_session"
  | .streamLaneGetBoundPort => "coakka_v2_stream_lane_get_bound_port"
  | .streamLaneGetPressure => "coakka_v2_stream_lane_get_pressure"
  | .streamLanePreparePublish => "coakka_v2_stream_lane_prepare_publish"
  | .streamLanePreparePublishGrant => "coakka_v2_stream_lane_prepare_publish_grant"
  | .streamLaneStart => "coakka_v2_stream_lane_start"
  | .streamLaneStop => "coakka_v2_stream_lane_stop"
  | .streamLaneGetStats => "coakka_v2_stream_lane_get_stats"
  | .streamLaneSubscribe => "coakka_v2_stream_lane_subscribe"
  | .streamLaneWaitSession => "coakka_v2_stream_lane_wait_session"
  | .streamLaneWaitPressure => "coakka_v2_stream_lane_wait_pressure"

/-! ## Three kinds of functions

A function of the bridge reaches Core through a slot, through the loader, or asks only whether a
feature is there.
-/

/-- The pointers that some function of the bridge checks for `NULL`, other than `library`. -/
inductive Parameter where
  | runtime
  | out
  | outAvailable
  | outInfo
  | outHandles
  | handles
  | outConfig
  | outHealth
  | outStats
  | outCapabilities
  | options
  | outResult
  | client
  | outTicket
  | ticket
  | outResultKind
  | outBuf
  | outLen
  | spec
  | buf
  | sha
  deriving DecidableEq, Repr

/-- What a call of a bridge function comes to. -/
inductive BridgeAnswer where
  /-- Core's function at this address is called. -/
  | core (function : Address)
  | status (status : Int32)
  | null
  | zero
  | text (value : String)
  /-- The function returns nothing, and did nothing. -/
  | skipped
  /-- A call through a `NULL` slot. -/
  | crash
  deriving DecidableEq, Repr

/-- How a bridge function finds the function of Core that it calls. -/
inductive CoreUse where
  /-- Through a slot that the opening has filled. -/
  | slot (slot : Slot)
  /-- `core_feature_available`, which looks whether the slot of `get_info` is filled. -/
  | feature
  | lane (symbol : LaneSymbol)
  deriving DecidableEq, Repr

/-- A bridge function: the pointers it wants, and its answer without one of them. -/
structure BridgeFunction where
  core : CoreUse
  checked : List Parameter := []
  refusal : BridgeAnswer := .status Status.invalidArg
  deriving DecidableEq, Repr

/-- The name of the symbol of Core that is needed. -/
def CoreUse.symbol : CoreUse → String
  | .slot s => s.symbol
  | .feature => Slot.getInfo.symbol
  | .lane s => s.name

/-- A call of the function on a library, where `given` tells which pointers are not `NULL`. -/
def BridgeFunction.answer (f : BridgeFunction) (m : CoreModule) (library : Option RuntimeLibrary)
    (given : Parameter → Bool) : BridgeAnswer :=
  match library with
  | none => f.refusal
  | some library =>
    match f.core with
    | .slot slot =>
      if f.checked.all given then
        match library.slots slot with
        | some function => .core function
        | none => .crash
      else f.refusal
    | .feature =>
      if f.checked.all given then
        match library.slots .getInfo with
        | some function => .core function
        | none => .status Status.symbol
      else f.refusal
    | .lane symbol =>
      -- a missing symbol and a missing pointer are answered alike
      match m.exports symbol.name with
      | some function => if f.checked.all given then .core function else f.refusal
      | none => f.refusal

/-! ## The functions -/

def runtimeCreateNative : BridgeFunction := { core := .slot .createNative, checked := [.out] }
def runtimeGetStartupConfig : BridgeFunction := { core := .slot .getStartup }
def runtimeGetDeliveryConfig : BridgeFunction := { core := .slot .getDelivery }
def runtimeRequestReaderCreate : BridgeFunction := { core := .slot .readerCreate }
def requestReaderRead : BridgeFunction := { core := .slot .readerRead }
def ownedFrameData : BridgeFunction := { core := .slot .ownedData, refusal := .null }
def ownedFrameSize : BridgeFunction := { core := .slot .ownedSize, refusal := .zero }
def ownedFrameRelease : BridgeFunction := { core := .slot .ownedRelease, refusal := .skipped }
def requestReaderDestroy : BridgeFunction := { core := .slot .readerDestroy, refusal := .skipped }
def askTicketCancel : BridgeFunction := { core := .slot .ticketCancel, refusal := .skipped }
def copyEnvelopePayload : BridgeFunction := { core := .slot .copyPayload }
def copyRequestDispatch : BridgeFunction := { core := .slot .copyDispatch }
def laneOwnerGrantsAvailable : BridgeFunction := { core := .feature, checked := [.outAvailable] }
def fileLaneAvailable : BridgeFunction := { core := .feature, checked := [.outAvailable] }
def streamAvailable : BridgeFunction := { core := .feature, checked := [.outAvailable] }
def runtimeGetAbiVersion : BridgeFunction := { core := .slot .getAbiVersion, refusal := .zero }
def runtimeGetInfo : BridgeFunction := { core := .slot .getInfo, checked := [.outInfo] }
def runtimeCreate : BridgeFunction := { core := .slot .runtimeCreate, refusal := .null }

def runtimeDestroy : BridgeFunction where
  core := .slot .runtimeDestroy
  checked := [.runtime]
  refusal := .skipped

def runtimeApplyNetwork : BridgeFunction where
  core := .slot .applyNetworkOptions
  checked := [.runtime]

def runtimeGetHostHandles : BridgeFunction where
  core := .slot .getHostHandles
  checked := [.runtime, .outHandles]

def hostHandlesClose : BridgeFunction where
  core := .slot .closeHandles
  checked := [.handles]
  refusal := .skipped

def runtimeStart : BridgeFunction := { core := .slot .runtimeStart, checked := [.runtime] }
def runtimeStop : BridgeFunction := { core := .slot .runtimeStop, checked := [.runtime] }
def runtimeApplySnapshot : BridgeFunction := { core := .slot .applySnapshot }

def runtimeSubmitEnvelope : BridgeFunction where
  core := .slot .submitEnvelope
  checked := [.runtime]

def runtimeGetConfig : BridgeFunction where
  core := .slot .getConfig
  checked := [.runtime, .outConfig]

def runtimeGetHealth : BridgeFunction where
  core := .slot .getHealth
  checked := [.runtime, .outHealth]

def runtimeGetStats : BridgeFunction where
  core := .slot .getStats
  checked := [.runtime, .outStats]

def runtimeGetCapabilities : BridgeFunction where
  core := .slot .getCapabilities
  checked := [.outCapabilities]

def runtimeApplyTcpConnectionOptions : BridgeFunction where
  core := .slot .applyTcpConnectionOptions
  checked := [.runtime, .options, .outResult]

def runtimeGetTcpConnectionConfig : BridgeFunction where
  core := .slot .getTcpConnectionConfig
  checked := [.runtime, .outConfig]

def runtimeApplyTcpSecurityOptions : BridgeFunction where
  core := .slot .applyTcpSecurityOptions
  checked := [.runtime, .options, .outResult]

def runtimeGetTcpSecurityInfo : BridgeFunction where
  core := .slot .getTcpSecurityInfo
  checked := [.runtime, .outInfo]

def transportApplyReasonName : BridgeFunction where
  core := .slot .transportApplyReasonName
  refusal := .text "UNKNOWN"

def deadletterReasonName : BridgeFunction where
  core := .slot .deadletterReasonName
  refusal := .null

def askClientCreate : BridgeFunction where
  core := .slot .askClientCreate
  checked := [.runtime, .handles]
  refusal := .null

def askClientDestroy : BridgeFunction where
  core := .slot .askClientDestroy
  checked := [.client]
  refusal := .skipped

def askClientBegin : BridgeFunction where
  core := .slot .askClientBegin
  checked := [.client, .outTicket]

def askTicketAwait : BridgeFunction where
  core := .slot .askTicketAwait
  checked := [.ticket, .outResultKind, .outBuf, .outLen]

def askTicketMessageID : BridgeFunction where
  core := .slot .askTicketMessageID
  checked := [.ticket]
  refusal := .text ""

def askTicketDestroy : BridgeFunction where
  core := .slot .askTicketDestroy
  checked := [.ticket]
  refusal := .skipped

def buildRawRequest : BridgeFunction where
  core := .slot .buildRawRequest
  checked := [.spec, .outBuf, .outLen]

def buildRawReply : BridgeFunction where
  core := .slot .buildRawReply
  checked := [.spec, .outBuf, .outLen]

def clientBytesRelease : BridgeFunction where
  core := .slot .clientBytesRelease
  checked := [.buf]
  refusal := .skipped

/-! ### The lanes -/

def fileLaneCreate : BridgeFunction where
  core := .lane .fileLaneCreate
  refusal := .status Status.symbol

def fileLaneCreateOwned : BridgeFunction where
  core := .lane .fileLaneCreateOwned
  refusal := .status Status.symbol

def fileLaneDestroy : BridgeFunction := { core := .lane .fileLaneDestroy, refusal := .skipped }

def fileLaneStart : BridgeFunction where
  core := .lane .fileLaneStart
  refusal := .status Status.symbol

def fileLaneStop : BridgeFunction where
  core := .lane .fileLaneStop
  refusal := .status Status.symbol

def fileLaneGetBoundPort : BridgeFunction where
  core := .lane .fileLaneGetBoundPort
  refusal := .status Status.symbol

def fileLanePrepareReceive : BridgeFunction where
  core := .lane .fileLanePrepareReceive
  checked := [.sha]
  refusal := .status Status.symbol

def fileLanePrepareReceiveGrant : BridgeFunction where
  core := .lane .fileLanePrepareReceiveGrant
  checked := [.sha, .out]
  refusal := .status Status.symbol

def fileLaneSubmitSend : BridgeFunction where
  core := .lane .fileLaneSubmitSend
  checked := [.sha]
  refusal := .status Status.symbol

def fileLaneGetTransfer : BridgeFunction where
  core := .lane .fileLaneGetTransfer
  refusal := .status Status.symbol

def fileLaneWaitTransfer : BridgeFunction where
  core := .lane .fileLaneWaitTransfer
  refusal := .status Status.symbol

def fileLaneCancel : BridgeFunction where
  core := .lane .fileLaneCancelTransfer
  refusal := .status Status.symbol

def fileLaneForget : BridgeFunction where
  core := .lane .fileLaneForgetTransfer
  refusal := .status Status.symbol

def fileLaneGetStats : BridgeFunction where
  core := .lane .fileLaneGetStats
  refusal := .status Status.symbol

def fileSha256Path : BridgeFunction where
  core := .lane .fileSha256Path
  refusal := .status Status.symbol

def streamCreate : BridgeFunction where
  core := .lane .streamLaneCreate
  refusal := .status Status.symbol

def streamCreateOwned : BridgeFunction where
  core := .lane .streamLaneCreateOwned
  refusal := .status Status.symbol

def streamDestroy : BridgeFunction := { core := .lane .streamLaneDestroy, refusal := .skipped }

def streamStart : BridgeFunction where
  core := .lane .streamLaneStart
  refusal := .status Status.symbol

def streamStop : BridgeFunction where
  core := .lane .streamLaneStop
  refusal := .status Status.symbol

def streamBoundPort : BridgeFunction where
  core := .lane .streamLaneGetBoundPort
  refusal := .status Status.symbol

def streamPreparePublish : BridgeFunction where
  core := .lane .streamLanePreparePublish
  refusal := .status Status.symbol

def streamPreparePublishGrant : BridgeFunction where
  core := .lane .streamLanePreparePublishGrant
  checked := [.out]
  refusal := .status Status.symbol

def streamSubscribe : BridgeFunction where
  core := .lane .streamLaneSubscribe
  refusal := .status Status.symbol

def streamGetSession : BridgeFunction where
  core := .lane .streamLaneGetSession
  refusal := .status Status.symbol

def streamWaitSession : BridgeFunction where
  core := .lane .streamLaneWaitSession
  refusal := .status Status.symbol

def streamGetPressure : BridgeFunction where
  core := .lane .streamLaneGetPressure
  refusal := .status Status.symbol

def streamWaitPressure : BridgeFunction where
  core := .lane .streamLaneWaitPressure
  refusal := .status Status.symbol

def streamCancel : BridgeFunction where
  core := .lane .streamLaneCancelSession
  refusal := .status Status.symbol

def streamForget : BridgeFunction where
  core := .lane .streamLaneForgetSession
  refusal := .status Status.symbol

def streamStats : BridgeFunction where
  core := .lane .streamLaneGetStats
  refusal := .status Status.symbol

/-- The functions of the bridge that call Core. -/
def bridgeFunctions : List BridgeFunction :=
  [runtimeCreateNative, runtimeGetStartupConfig, runtimeGetDeliveryConfig,
    runtimeRequestReaderCreate, requestReaderRead, ownedFrameData, ownedFrameSize,
    ownedFrameRelease, requestReaderDestroy, askTicketCancel, copyEnvelopePayload,
    copyRequestDispatch, laneOwnerGrantsAvailable, fileLaneAvailable, streamAvailable,
    runtimeGetAbiVersion, runtimeGetInfo, runtimeCreate, runtimeDestroy, runtimeApplyNetwork,
    runtimeGetHostHandles, hostHandlesClose, runtimeStart, runtimeStop, runtimeApplySnapshot,
    runtimeSubmitEnvelope, runtimeGetConfig, runtimeGetHealth, runtimeGetStats,
    runtimeGetCapabilities, runtimeApplyTcpConnectionOptions, runtimeGetTcpConnectionConfig,
    runtimeApplyTcpSecurityOptions, runtimeGetTcpSecurityInfo, transportApplyReasonName,
    deadletterReasonName, askClientCreate, askClientDestroy, askClientBegin, askTicketAwait,
    askTicketMessageID, askTicketDestroy, buildRawRequest, buildRawReply, clientBytesRelease,
    fileLaneCreate, fileLaneCreateOwned, fileLaneDestroy, fileLaneStart, fileLaneStop,
    fileLaneGetBoundPort, fileLanePrepareReceive, fileLanePrepareReceiveGrant, fileLaneSubmitSend,
    fileLaneGetTransfer, fileLaneWaitTransfer, fileLaneCancel, fileLaneForget, fileLaneGetStats,
    fileSha256Path, streamCreate, streamCreateOwned, streamDestroy, streamStart, streamStop,
    streamBoundPort, streamPreparePublish, streamPreparePublishGrant, streamSubscribe,
    streamGetSession, streamWaitSession, streamGetPressure, streamWaitPressure, streamCancel,
    streamForget, streamStats]

end CoAkka.Bridge
