import MidnightSdk.Ledger.TransactionTypes
import MidnightSdk.Library.PlainJson

/-!
# Requests to the native ledger library

What the parameters of each call are in JSON. Texts are bytes, a byte being the
character of its code, and need not be UTF-8.
-/

namespace MidnightSdk.Ledger

open PlainJson

def SourceMode.toText : SourceMode → String
  | .localCache => "local-cache"
  | .coldSync => "cold-sync"
  | .bounded => "bounded"
  | .auto => "auto"

def sourceToJson (source : SourceConfig) : PlainJson := ofFields [
  ("source_mode", string source.sourceMode.toText),
  ("src_url", string source.srcUrl),
  ("src_files", array string source.srcFiles),
  ("fetch_only_cached", boolean source.fetchOnlyCached),
  ("require_ledger_state_cache", boolean source.requireLedgerStateCache),
  ("ignore_block_context", boolean source.ignoreBlockContext),
  ("dust_warp", boolean source.dustWarp),
  ("fetch_cache", string source.fetchCache),
  ("ledger_state_db", string source.ledgerStateDb),
  ("fetch_concurrency", word32 source.fetchConcurrency),
  ("fetch_compute_concurrency", optional word32 source.fetchComputeConcurrency),
  ("fetch_retry_count", word32 source.fetchRetryCount),
  ("fetch_retry_delay_ms", word64 source.fetchRetryDelayMs),
  ("from_block", optional word64 source.fromBlock),
  ("to_block", optional word64 source.toBlock),
  ("transaction_hashes", array bytes source.transactionHashes)]

def transferToJson (params : TransferNightParams) : PlainJson := ofFields [
  ("source", sourceToJson params.source),
  ("proof_server", optional string params.proofServer),
  ("source_seed", bytes params.sourceSeed),
  ("funding_seed", optional bytes params.fundingSeed),
  ("destination_addresses", array bytes params.destinationAddresses),
  ("amount", bytes params.amount),
  ("token_type", bytes params.tokenType),
  ("input_utxos", array string params.inputUtxos),
  ("rng_seed", optional bytes params.rngSeed),
  ("coin_selection", string params.coinSelection)]

def registerDustToJson (params : RegisterDustParams) : PlainJson := ofFields [
  ("source", sourceToJson params.source),
  ("proof_server", optional string params.proofServer),
  ("wallet_seed", bytes params.walletSeed),
  ("funding_seed", optional bytes params.fundingSeed),
  ("destination_dust_address", optional bytes params.destinationDustAddress),
  ("rng_seed", optional bytes params.rngSeed)]

def deregisterDustToJson (params : DeregisterDustParams) : PlainJson := ofFields [
  ("source", sourceToJson params.source),
  ("proof_server", optional string params.proofServer),
  ("wallet_seed", bytes params.walletSeed),
  ("funding_seed", bytes params.fundingSeed),
  ("rng_seed", optional bytes params.rngSeed)]

def deployToJson (params : SimpleContractDeployParams) : PlainJson := ofFields [
  ("source", sourceToJson params.source),
  ("proof_server", optional string params.proofServer),
  ("funding_seed", bytes params.fundingSeed),
  ("authority_seeds", array bytes params.authoritySeeds),
  ("authority_threshold", optional word32 params.authorityThreshold),
  ("rng_seed", optional bytes params.rngSeed)]

def callToJson (params : SimpleContractCallParams) : PlainJson := ofFields [
  ("source", sourceToJson params.source),
  ("proof_server", optional string params.proofServer),
  ("funding_seed", bytes params.fundingSeed),
  ("contract_address", bytes params.contractAddress),
  ("call_key", string params.callKey),
  ("fee", bytes params.fee),
  ("rng_seed", optional bytes params.rngSeed)]

def customToJson (params : CustomContractIntentParams) : PlainJson := ofFields [
  ("source", sourceToJson params.source),
  ("proof_server", optional string params.proofServer),
  ("funding_seed", bytes params.fundingSeed),
  ("compiled_contract_dirs", array string params.compiledContractDirs),
  ("intent_files", array string params.intentFiles),
  ("input_utxos", array string params.inputUtxos),
  ("zswap_state_file", optional string params.zswapStateFile),
  ("shielded_destinations", array string params.shieldedDestinations),
  ("rng_seed", optional bytes params.rngSeed)]

def syncToJson (params : SyncLedgerStateParams) : PlainJson := ofFields [
  ("source", sourceToJson params.source),
  ("wallet_seeds", array bytes params.walletSeeds),
  ("timeout_ms", word64 params.timeoutMs)]

def walletSummaryToJson (params : WalletSummaryParams) : PlainJson := ofFields [
  ("source", sourceToJson params.source),
  ("wallet_seed", bytes params.walletSeed),
  ("timeout_ms", word64 params.timeoutMs)]

/-- The calls that go through `call_backend`: those that build a transaction, and two that
read the ledger. -/
inductive LedgerCall where
  | build (request : BuildRequest)
  | syncLedgerState (params : SyncLedgerStateParams)
  | walletSummary (params : WalletSummaryParams)
  deriving DecidableEq, Repr

namespace LedgerCall

def operation : LedgerCall → String
  | build (.transferNight _) => "transfer_night"
  | build (.registerDust _) => "register_dust"
  | build (.deregisterDust _) => "deregister_dust"
  | build (.simpleContractDeploy _) => "deploy_simple_contract"
  | build (.simpleContractCall _) => "call_simple_contract"
  | build (.customContractTransaction _) => "custom_contract_transaction"
  | syncLedgerState _ => "sync_ledger_state"
  | walletSummary _ => "wallet_summary"

def params : LedgerCall → PlainJson
  | build (.transferNight params) => transferToJson params
  | build (.registerDust params) => registerDustToJson params
  | build (.deregisterDust params) => deregisterDustToJson params
  | build (.simpleContractDeploy params) => deployToJson params
  | build (.simpleContractCall params) => callToJson params
  | build (.customContractTransaction params) => customToJson params
  | syncLedgerState params => syncToJson params
  | walletSummary params => walletSummaryToJson params

/-- What `call_backend` asks the library. -/
def request (call : LedgerCall) : PlainJson := ofFields [
  ("operation", string call.operation),
  ("params", call.params)]

theorem utf8_operation (call : LedgerCall) : JsonTree.utf8 call.operation.toList = true := by
  apply JsonTree.utf8_of_ascii
  cases call with
  | build request => cases request <;> simp [operation]
  | syncLedgerState params => simp [operation]
  | walletSummary params => simp [operation]

/-- The request can be written when the parameters can. -/
theorem writable_request (call : LedgerCall) :
    call.request.writable = true ↔ call.params.writable = true := by
  rw [request, writable_ofFields (by simp)]
  simp only [List.forall_mem_cons, List.not_mem_nil, false_implies, implies_true, and_true]
  constructor
  · exact fun h => h.2.2
  · intro h
    exact ⟨⟨JsonTree.utf8_of_ascii (by simp), call.utf8_operation⟩,
      JsonTree.utf8_of_ascii (by simp), h⟩

end LedgerCall

end MidnightSdk.Ledger
