import MidnightSdk.Production.Environment
import MidnightSdk.Production.Validation

/-!
# Parameters of the operations

Every operation checks where the ledger's history comes from, then its own fields in
order; the first check that fails is the answer. Before a transaction is built, the
source is put into the form the backend takes.
-/

namespace MidnightSdk.Production

open Cpp Interaction Ledger Validation

structure SubmitResult where
  success : Bool := false
  extrinsicHash : String := ""
  error : String := ""
  errorInfo : SdkError := {}
  deriving DecidableEq, Repr

structure BuildSubmitResult where
  success : Bool := false
  build : BuildResult := {}
  submit : SubmitResult := {}
  error : String := ""
  errorInfo : SdkError := {}
  deriving DecidableEq, Repr

def makeError (code : ErrorCode) (message : String) (detail : String := "") : SdkError :=
  { code, message, detail }

def validationFailure (code : ErrorCode) (message : String) (detail : String := "") :
    BuildSubmitResult :=
  { error := message, errorInfo := makeError code message detail, build := { error := message } }

/-! ## Sources -/

def isBoundedSource (source : SourceConfig) : Bool :=
  source.fromBlock.isSome || source.toBlock.isSome

def normalizeSourceForTransactionBuild (source : SourceConfig) : SourceConfig :=
  match source.sourceMode with
  | .localCache => { source with fetchOnlyCached := true }
  | .coldSync => { source with fetchOnlyCached := false }
  | .bounded => { source with fetchOnlyCached := false }
  | .auto =>
    if isBoundedSource source then { source with sourceMode := .bounded }
    else if source.srcFiles.isEmpty then
      { source with sourceMode := .localCache, fetchOnlyCached := true }
    else source

def normalizeParamsForTransactionBuild {P : Type} [BuildParams P] (params : P) : P :=
  BuildParams.withSource params (normalizeSourceForTransactionBuild (BuildParams.source params))

def text (value : List UInt8) : String := String.ofList (chars value)

/-- `from_block && to_block && *from_block > *to_block` -/
def isReversed (source : SourceConfig) : Bool :=
  match source.fromBlock, source.toBlock with
  | some fromBlock, some toBlock => decide (fromBlock > toBlock)
  | _, _ => false

def validateSource (source : SourceConfig) : Client BuildSubmitResult := do
  if !hasSourceInput source.srcUrl source.srcFiles then
    return validationFailure .ledgerBuildError "Ledger build source requires src_url or src_files"
  if source.sourceMode = .bounded && (source.fromBlock.isNone || source.toBlock.isNone) then
    return validationFailure .ledgerBuildError
      "Bounded ledger source mode requires from_block and to_block"
  if (source.fromBlock.isSome && source.toBlock.isNone) ||
      (source.fromBlock.isNone && source.toBlock.isSome) then
    return validationFailure .ledgerBuildError
      "Ledger bounded source requires both from_block and to_block"
  if isReversed source then
    return validationFailure .ledgerBuildError
      "Ledger bounded source from_block must be <= to_block"
  match source.transactionHashes.find? fun hash => !isTxHash hash with
  | some hash =>
    return validationFailure .invalidHash
      "Ledger source transaction_hashes must contain 32-byte transaction hashes" (text hash)
  | none =>
    if source.requireLedgerStateCache && source.fetchOnlyCached &&
        source.sourceMode = .localCache then
      let synced ← cachePathHasData source.ledgerStateDb
      if !synced then
        return validationFailure .ledgerBuildError "Local ledger state cache is not synced"
          ("Run sync_ledger_state first, import a cache snapshot, or set " ++
            "source_mode=ColdSync to opt into a full RPC source fetch")
    return {}

/-! ## Fields -/

/-- `if (failed) return validation_failure(...)` -/
def refuse (failed : Bool) (code : ErrorCode) (message : String) (detail : String := "") :
    BuildSubmitResult :=
  if failed then validationFailure code message detail else {}

def firstInvalid : List BuildSubmitResult → BuildSubmitResult
  | [] => {}
  | check :: rest => if check.errorInfo.isSet then check else firstInvalid rest

/-- The source is checked first; the other checks ask nothing. -/
def validateWith (source : SourceConfig) (checks : List BuildSubmitResult) :
    Client BuildSubmitResult := do
  let invalid ← validateSource source
  if invalid.errorInfo.isSet then return invalid
  return firstInvalid checks

def validateSeed (seed : List UInt8) (field : String) : BuildSubmitResult :=
  refuse (!isWalletSeedOrMnemonic seed) .invalidAddress
    (field ++ " must be a Midnight WalletSeed hex value or BIP39 mnemonic")

/-- A seed that need not be given. -/
def validateSomeSeed (seed : Option (List UInt8)) (field : String) : BuildSubmitResult :=
  (seed.map fun seed => validateSeed seed field).getD {}

def validateRngSeed (rngSeed : Option (List UInt8)) : BuildSubmitResult :=
  (rngSeed.map fun seed =>
    refuse (!isFixedHex seed 32) .invalidHash "rng_seed must be 32-byte hex" (text seed)).getD {}

def allUnshieldedAddresses (addresses : List (List UInt8)) : Bool :=
  addresses.all isUnshieldedNightAddress

def validateTransferParams (params : TransferNightParams) : Client BuildSubmitResult :=
  validateWith params.source [
    validateSeed params.sourceSeed "Transfer source_seed",
    validateSomeSeed params.fundingSeed "Transfer funding_seed",
    refuse (params.destinationAddresses.isEmpty ||
        !allUnshieldedAddresses params.destinationAddresses)
      .invalidAddress "NIGHT transfer destinations must be mn_addr_* unshielded addresses",
    refuse (!isU128Decimal params.amount) .invalidAmount
      "NIGHT transfer amount must be a u128 decimal string" (text params.amount),
    refuse (!isTokenTypeHex params.tokenType) .invalidTokenType
      "Token type must be a 32-byte hex value" (text params.tokenType),
    validateRngSeed params.rngSeed]

def validateRegisterDustParams (params : RegisterDustParams) : Client BuildSubmitResult :=
  validateWith params.source [
    validateSeed params.walletSeed "DUST registration wallet_seed",
    validateSomeSeed params.fundingSeed "DUST registration funding_seed",
    (params.destinationDustAddress.map fun address =>
      refuse (!isDustAddress address) .invalidAddress
        "DUST registration destination must be an mn_dust_* address" (text address)).getD {},
    validateRngSeed params.rngSeed]

def validateDeregisterDustParams (params : DeregisterDustParams) : Client BuildSubmitResult :=
  validateWith params.source [
    validateSeed params.walletSeed "DUST deregistration wallet_seed",
    validateSeed params.fundingSeed "DUST deregistration funding_seed",
    validateRngSeed params.rngSeed]

def validateDeployParams (params : SimpleContractDeployParams) : Client BuildSubmitResult :=
  validateWith params.source (
    [validateSeed params.fundingSeed "Contract deploy funding_seed"] ++
    params.authoritySeeds.map (fun seed => validateSeed seed "Contract deploy authority_seed") ++
    [refuse params.authoritySeeds.isEmpty .invalidAddress
      "Contract deploy requires at least one authority seed",
    refuse (params.authorityThreshold.any fun threshold =>
        params.authoritySeeds.length < threshold.toNat)
      .invalidAmount "Contract authority threshold cannot exceed authority seed count",
    validateRngSeed params.rngSeed])

def validateCallParams (params : SimpleContractCallParams) : Client BuildSubmitResult :=
  validateWith params.source [
    validateSeed params.fundingSeed "Contract call funding_seed",
    refuse (!isContractAddressHex params.contractAddress) .invalidContractAddress
      "Contract call requires a 32-byte contract hex address" (text params.contractAddress),
    refuse (!isU128Decimal params.fee) .invalidAmount
      "Contract call fee must be a u128 decimal string" (text params.fee),
    validateRngSeed params.rngSeed]

def validateCustomContractParams (params : CustomContractIntentParams) :
    Client BuildSubmitResult :=
  validateWith params.source [
    validateSeed params.fundingSeed "Custom contract funding_seed",
    refuse params.intentFiles.isEmpty .ledgerBuildError
      "Custom contract transaction requires intent files",
    validateRngSeed params.rngSeed]

end MidnightSdk.Production
