import MidnightSdk.Network.NodeWaits
import MidnightSdk.Production.StateBackend

/-!
# How far the local state has come

A backend tells whether there is a local state, how old it is and what it lacks, and
brings it up to date. The local backend looks at files, the managed one asks a service.
-/

namespace MidnightSdk.Production

open Cpp FileTree Ledger Network Util

inductive StateBackendMode where
  | localCache
  | snapshot
  | managed
  deriving DecidableEq, Repr

def stateBackendModeToString : StateBackendMode → String
  | .snapshot => "snapshot"
  | .managed => "managed"
  | .localCache => "local-cache"

structure StateStatus where
  success : Bool := false
  ready : Bool := false
  stale : Bool := false
  backendMode : StateBackendMode := .localCache
  sourceMode : SourceMode := .auto
  network : String := ""
  fetchCachePath : String := ""
  ledgerStatePath : String := ""
  fetchCacheAvailable : Bool := false
  ledgerStateAvailable : Bool := false
  fetchCacheBytes : UInt64 := 0
  ledgerStateBytes : UInt64 := 0
  localCheckpoint : UInt64 := 0
  localCheckpointAvailable : Bool := false
  remoteTipHeight : UInt64 := 0
  lagBlocks : UInt64 := 0
  error : String := ""
  detail : String := ""
  raw : Json := .object []

structure StateRefreshOptions where
  maxLagBlocks : UInt64 := 100
  force : Bool := false
  allowSourceFetch : Bool := true
  timeoutMs : UInt64 := 0
  deriving DecidableEq, Repr

structure StateRefreshResult where
  success : Bool := false
  skipped : Bool := false
  before : StateStatus := {}
  after : StateStatus := {}
  syncResult : BuildResult := {}
  error : SdkError := {}

/-- A `0ull` default reads at a type of its own, at which truth values count as numbers. -/
def getCount : Json → Throws UInt64
  | .bool b => .ok (if b then 1 else 0)
  | value => value.getUInt64

def statusFromJson (value : Json) (mode : StateBackendMode) (source : SourceConfig) :
    Throws StateStatus := do
  let success ← value.valueBool "success" true
  let ready ← value.valueBool "ready" false
  let stale ← value.valueBool "stale" false
  let network ← value.valueString "network" ""
  let fetchCachePath ←
    value.valueString "fetch_cache_path" (LocalStateBackend.stripRedbPrefix source.fetchCache)
  let ledgerStatePath ← value.valueString "ledger_state_path" source.ledgerStateDb
  let fetchCacheAvailable ← value.valueBool "fetch_cache_available" false
  let ledgerStateAvailable ← value.valueBool "ledger_state_available" false
  let fetchCacheBytes ← value.value getCount "fetch_cache_bytes" 0
  let ledgerStateBytes ← value.value getCount "ledger_state_bytes" 0
  let localCheckpoint ← value.value getCount "local_checkpoint" 0
  let localCheckpointAvailable ←
    value.valueBool "local_checkpoint_available" (0 < localCheckpoint)
  let remoteTipHeight ← value.value getCount "remote_tip_height" 0
  let lagBlocks ← value.value getCount "lag_blocks" 0
  let error ← value.valueString "error" ""
  let detail ← value.valueString "detail" ""
  return {
    success, ready, stale, backendMode := mode, sourceMode := source.sourceMode, network,
    fetchCachePath, ledgerStatePath, fetchCacheAvailable, ledgerStateAvailable,
    fetchCacheBytes, ledgerStateBytes, localCheckpoint, localCheckpointAvailable,
    remoteTipHeight, lagBlocks, error, detail, raw := value }

def StateStatus.members (status : StateStatus) : Json.Fields := [
  ("success", .bool status.success),
  ("ready", .bool status.ready),
  ("stale", .bool status.stale),
  ("backend_mode", .string (stateBackendModeToString status.backendMode)),
  ("source_mode", .string (LocalStateBackend.sourceModeToString status.sourceMode)),
  ("network", .string status.network),
  ("fetch_cache_path", .string status.fetchCachePath),
  ("ledger_state_path", .string status.ledgerStatePath),
  ("fetch_cache_available", .bool status.fetchCacheAvailable),
  ("ledger_state_available", .bool status.ledgerStateAvailable),
  ("fetch_cache_bytes", .unsigned status.fetchCacheBytes),
  ("ledger_state_bytes", .unsigned status.ledgerStateBytes),
  ("local_checkpoint", .unsigned status.localCheckpoint),
  ("local_checkpoint_available", .bool status.localCheckpointAvailable),
  ("remote_tip_height", .unsigned status.remoteTipHeight),
  ("lag_blocks", .unsigned status.lagBlocks),
  ("error", .string status.error),
  ("detail", .string status.detail)]

def statusToJson (status : StateStatus) : Json := .ofFields status.members

/-- A status read back is the one written, apart from what the reader fills in. -/
theorem statusFromJson_statusToJson (status : StateStatus) (mode : StateBackendMode)
    (source : SourceConfig) :
    statusFromJson (statusToJson status) mode source =
      .ok { status with
        backendMode := mode, sourceMode := source.sourceMode, raw := statusToJson status } := by
  have distinct : (status.members.map (·.1)).Nodup := by simp [StateStatus.members]
  simp only [statusFromJson, statusToJson, Json.valueBool, Json.valueString,
    Json.value_ofFields _ _ _ distinct]
  simp [StateStatus.members, Json.lookup, Json.getBool, Json.getString, getCount, Json.getUInt64,
    ok_bind, pure, Except.pure]

/-! ## The local backend -/

namespace LocalStateBackend

variable (platform : Platform)

/-- The constructor keeps the managed mode for the other backend. -/
def keptMode (mode : StateBackendMode) : StateBackendMode :=
  if mode = .managed then .localCache else mode

def isRemotePath (path : String) : Bool :=
  contains path "://" && !("redb:".toList).isPrefixOf path.toList

/-- The bytes at a path on this machine. -/
def localBytes (disk : Disk) (path : String) : UInt64 :=
  if path ≠ "" && !isRemotePath path then pathSize disk (platform.resolve path) else 0

def status (mode : StateBackendMode) (disk : Disk) (source : SourceConfig)
    (remoteTipHeight : Option UInt64) : StateStatus :=
  let fetchCachePath := stripRedbPrefix source.fetchCache
  let fetchCacheBytes := localBytes platform disk fetchCachePath
  let ledgerStateBytes := localBytes platform disk source.ledgerStateDb
  let ready : Bool := 0 < ledgerStateBytes
  let status : StateStatus := {
    success := true, backendMode := keptMode mode, sourceMode := source.sourceMode, fetchCachePath,
    ledgerStatePath := source.ledgerStateDb, fetchCacheBytes,
    fetchCacheAvailable := 0 < fetchCacheBytes, ledgerStateBytes, ledgerStateAvailable := ready,
    ready, remoteTipHeight := remoteTipHeight.getD 0, stale := !ready }
  { status with raw := statusToJson status }

/-- `sync_ledger_state`, and the disk it leaves behind. -/
abbrev LedgerSync : Type := SyncLedgerStateParams → Disk → BuildResult × Disk

/-- Without a cache to start from, the source is read from its beginning. -/
def coldSync (source : SourceConfig) : SourceConfig :=
  if source.sourceMode = .auto || source.sourceMode = .localCache then
    { source with sourceMode := .coldSync, fetchOnlyCached := false }
  else source

def refresh (mode : StateBackendMode) (ledgerBackend : Option LedgerSync) (disk : Disk)
    (params : SyncLedgerStateParams) (options : StateRefreshOptions) : StateRefreshResult :=
  let before := status platform mode disk params.source none
  match ledgerBackend with
  | none =>
    { before, after := before,
      error := ⟨.ledgerBackendError, "Local state refresh requires a ledger backend", ""⟩ }
  | some syncLedgerState =>
    if !options.force && before.ready && !options.allowSourceFetch then
      { success := true, skipped := true, before, after := before }
    else if !options.allowSourceFetch && !before.ready then
      { before, after := before,
        error := ⟨.ledgerBuildError,
          "Local state cache is not ready and source fetch is disabled", ""⟩ }
    else
      let syncParams : SyncLedgerStateParams := { params with
        source := coldSync params.source
        timeoutMs := if params.timeoutMs = 0 then options.timeoutMs else params.timeoutMs }
      let (syncResult, disk) := syncLedgerState syncParams disk
      { success := syncResult.success, before, syncResult,
        after := status platform mode disk syncParams.source none,
        error :=
          if syncResult.success then {}
          else ⟨.ledgerBuildError, "Local state refresh failed", syncResult.error⟩ }

end LocalStateBackend

/-! ## The managed backend -/

/-- What the service answers at one moment to a request, or what making it throws. -/
abbrev ServiceAnswers : Type := String → Json → Throws Json

namespace ManagedStateBackend

variable (typeErrorText : Nat → String) (baseUrl : String)

/-- `e.what()`; what the JSON library says of a type error is not looked at. -/
def what : Exception → String
  | .runtimeError what | .overflowError what | .lengthError what | .invalidArgument what
  | .outOfRange what => what
  | .typeError id => typeErrorText id

def statusFailure (source : SourceConfig) (error detail : String) : StateStatus :=
  let status : StateStatus :=
    { backendMode := .managed, sourceMode := source.sourceMode, error, detail }
  { status with raw := statusToJson status }

def status (service : ServiceAnswers) (source : SourceConfig) (remoteTipHeight : Option UInt64) :
    StateStatus :=
  if baseUrl = "" then
    statusFailure source "Managed state service URL is not configured" ""
  else
    let response := service "/v1/state/status" (.ofFields [
      ("source", LocalStateBackend.sourceToJson source),
      ("remote_tip_height", (remoteTipHeight.map Json.unsigned).getD .null)])
    match response >>= fun response => statusFromJson response .managed source with
    | .ok status =>
      { status with remoteTipHeight := remoteTipHeight.getD status.remoteTipHeight }
    | .error e => statusFailure source "Managed state status request failed" (what typeErrorText e)

/-- The service at the requests of a refresh, which come one after the other. -/
structure RefreshAnswers where
  before : ServiceAnswers
  refreshed : ServiceAnswers
  after : ServiceAnswers

def refreshRequest (params : SyncLedgerStateParams) (options : StateRefreshOptions) : Json :=
  .ofFields [
    ("source", LocalStateBackend.sourceToJson params.source),
    ("wallet_seeds", .array (params.walletSeeds.map fun seed =>
      .string (String.ofList (seed.map fun b => Char.ofNat b.toNat)))),
    ("timeout_ms", .unsigned params.timeoutMs),
    ("options", .ofFields [
      ("max_lag_blocks", .unsigned options.maxLagBlocks),
      ("force", .bool options.force),
      ("allow_source_fetch", .bool options.allowSourceFetch),
      ("timeout_ms", .unsigned options.timeoutMs)])]

def refreshedStatus (service : ServiceAnswers) (response : Json) (source : SourceConfig) :
    Throws StateStatus :=
  match response.find? "status" with
  | some (.object fields) => statusFromJson (.object fields) .managed source
  | _ => .ok (status typeErrorText baseUrl service source none)

def refreshError (success : Bool) (response : Json) : Throws SdkError :=
  if success then .ok {}
  else do
    let error ← response.valueString "error" "Managed state refresh failed"
    let detail ← response.valueString "detail" ""
    return ⟨.ledgerBuildError, error, detail⟩

def refresh (service : RefreshAnswers) (params : SyncLedgerStateParams)
    (options : StateRefreshOptions) : StateRefreshResult :=
  let before := status typeErrorText baseUrl service.before params.source none
  -- flags that were read stay when something behind them throws
  let requestFailed (success skipped : Bool) (e : Exception) : StateRefreshResult :=
    { success, skipped, before, after := before,
      error := ⟨.nodeRpcError, "Managed state refresh request failed", what typeErrorText e⟩ }
  if baseUrl = "" then
    { before, after := before,
      error := ⟨.unsupportedOperation, "Managed state service URL is not configured", ""⟩ }
  else
    match service.refreshed "/v1/state/refresh" (refreshRequest params options) with
    | .error e => requestFailed false false e
    | .ok response =>
      match response.valueBool "success" false with
      | .error e => requestFailed false false e
      | .ok success =>
        match response.valueBool "skipped" false with
        | .error e => requestFailed success false e
        | .ok skipped =>
          match refreshedStatus typeErrorText baseUrl service.after response params.source with
          | .error e => requestFailed success skipped e
          | .ok after =>
            match refreshError success response with
            | .error e => requestFailed success skipped e
            | .ok error => { success, skipped, before, after, error }

end ManagedStateBackend

end MidnightSdk.Production
