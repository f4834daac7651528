import MidnightSdk.Production.BuildParameters

/-!
# Building and submitting

Six operations build a transaction and hand it to the node. Each checks what it was
given, and the build checks it again with the source normalised; the backend builds,
the context of the result is checked against the node, and its bytes are sent as hex.
-/

namespace MidnightSdk.Production

open Cpp Interaction Ledger Network Util Tx

structure ClientConfig where
  nodeUrl : String
  proofServerUrl : String := ""
  deriving DecidableEq, Repr

/-! ## Building -/

def buildValidationFailure (validation : BuildSubmitResult) : BuildResult :=
  { error :=
      if validation.errorInfo.detail = "" then validation.errorInfo.message
      else validation.errorInfo.message ++ ": " ++ validation.errorInfo.detail }

def trimmedCopy (value : List UInt8) : List UInt8 :=
  ((value.dropWhile isSpace).reverse.dropWhile isSpace).reverse

def withConfiguredProofServer {P : Type} [BuildParams P] (params : P) (config : ClientConfig) : P :=
  if (BuildParams.proofServer params).isNone && config.proofServerUrl ≠ "" then
    BuildParams.withProofServer params (some config.proofServerUrl)
  else params

/-- There is a proof server where its address is configured. -/
def proofServerCompatibilityError (config : ClientConfig) : Client (Option BuildResult) := do
  if config.proofServerUrl = "" then return none
  let allowed ← envValue "MIDNIGHT_ALLOW_PROOF_SERVER_VERSION_MISMATCH"
  if allowed = "1" then return none
  let reports ← ask .canReportBackendInfo
  if !reports then return none
  let answer ← ask .backendInfo
  let info ← Program.orThrow answer
  let expected := trimmedCopy info.ledger
  if !info.success || expected.isEmpty then return none
  let version ← ask .serverVersion
  match version with
  | .error e => return some { error := "Proof server version check failed: " ++ e }
  | .ok version =>
    let actual := trimmedCopy version
    if actual.isEmpty then
      return some {
        error := "Proof server version check failed: /version returned an empty response" }
    else if actual ≠ expected then
      return some {
        error :=
          "Proof server version mismatch: expected ledger/proof-server " ++ text expected ++
            ", got " ++ text actual ++
            ". Start a proof server built from the same midnight-ledger version as the SDK." }
    else return none

/-- What the six builds share. -/
def buildWith {P : Type} [BuildParams P] (config : ClientConfig)
    (validate : P → Client BuildSubmitResult) (params : P) : Client BuildResult := do
  let normalized := normalizeParamsForTransactionBuild params
  let invalid ← validate normalized
  if invalid.errorInfo.isSet then return buildValidationFailure invalid
  let proofError ← proofServerCompatibilityError config
  match proofError with
  | some error => return error
  | none =>
    let built ← ask (.build (BuildParams.request (withConfiguredProofServer normalized config)))
    Program.orThrow built

def buildTransferNight (config : ClientConfig) : TransferNightParams → Client BuildResult :=
  buildWith config validateTransferParams

def buildRegisterDust (config : ClientConfig) : RegisterDustParams → Client BuildResult :=
  buildWith config validateRegisterDustParams

def buildDeregisterDust (config : ClientConfig) : DeregisterDustParams → Client BuildResult :=
  buildWith config validateDeregisterDustParams

def buildSimpleContractDeploy (config : ClientConfig) :
    SimpleContractDeployParams → Client BuildResult :=
  buildWith config validateDeployParams

def buildSimpleContractCall (config : ClientConfig) :
    SimpleContractCallParams → Client BuildResult :=
  buildWith config validateCallParams

def buildCustomContractTransaction (config : ClientConfig) :
    CustomContractIntentParams → Client BuildResult :=
  buildWith config validateCustomContractParams

/-! ## Contexts -/

/-- The hashes found, and the set of those seen. -/
structure ParentHashes where
  hashes : List (List Char) := []
  seen : List (List Char) := []
  deriving DecidableEq, Repr

/-- A hash stored under `parentBlockHash` in an object, unless it was seen. -/
def noteParent (fields : Json.Fields) (found : ParentHashes) : ParentHashes :=
  match Json.lookup "parentBlockHash" fields with
  | some (.string s) =>
    let hash := stripHexPrefix s.toList
    if !hash.isEmpty && !found.seen.contains hash then
      { hashes := found.hashes ++ [hash], seen := hash :: found.seen }
    else found
  | _ => found

mutual

def collectParentBlockHashes : Json → ParentHashes → ParentHashes
  | .object fields, found => collectMembers fields (noteParent fields found)
  | .array xs, found => collectElements xs found
  | _, found => found

/-- The loop over an object's members. -/
def collectMembers : List (String × Json) → ParentHashes → ParentHashes
  | [], found => found
  | (_, value) :: rest, found => collectMembers rest (collectParentBlockHashes value found)

/-- The loop over an array. -/
def collectElements : List Json → ParentHashes → ParentHashes
  | [], found => found
  | value :: rest, found => collectElements rest (collectParentBlockHashes value found)

end

/-- The loop over the hashes. -/
def checkParents (config : ClientConfig) : List (List Char) → Client SdkError
  | [] => return {}
  | parentHash :: rest => do
    if parentHash.length ≠ 64 || !isHexString parentHash then
      return makeError .ledgerStateMismatch
        "Midnight transaction context contains an invalid parentBlockHash"
        (String.ofList parentHash)
    let known ← blockHashExists parentHash
    match known with
    | .error e =>
      return makeError .nodeRpcError
        "Could not validate Midnight transaction context against node" e
    | .ok false =>
      return makeError .ledgerStateMismatch
        "Midnight transaction was built from a non-canonical ledger context"
        ("Transaction context parentBlockHash " ++ String.ofList (ensureHexPrefix parentHash) ++
          " is not known by node " ++ config.nodeUrl ++
          ". The local source/fetch cache is stale, corrupted, or from a non-canonical fork. " ++
          "Back up and rebuild the source fetch cache before submitting.")
    | .ok true => checkParents config rest

section
variable (parse : String → Except String Json)

def validateBuiltTransactionContext (config : ClientConfig) (build : BuildResult) :
    Client SdkError := do
  let skipped ← envValue "MIDNIGHT_SKIP_CONTEXT_CANONICALITY_CHECK"
  if skipped = "1" then return {}
  if build.rawOutput = "" then return {}
  match parse build.rawOutput with
  | .error e =>
    return makeError .ledgerBuildError "Could not validate Midnight transaction context"
      ("Ledger backend raw_output is not valid JSON: " ++ e)
  | .ok raw => checkParents config (collectParentBlockHashes raw {}).hashes

end

/-! ## Submitting -/

def submitMidnightTransactionHex (transactionHex : List Char) : Client SubmitResult := do
  let hex := stripHexPrefix transactionHex
  if hex.isEmpty || hex.length % 2 != 0 || !isHexString hex then
    return { error := "Midnight transaction must be even-length hex bytes",
             errorInfo := makeError .invalidHash "Midnight transaction must be even-length hex bytes" }
  let answer ← ask (.submitTransaction transactionHex)
  match answer with
  | .error e =>
    return { error := e,
             errorInfo := makeError .nodeRejectedTx "Midnight transaction submission failed" e }
  | .ok extrinsicHash =>
    if extrinsicHash = "" then
      return { error := "Node returned an empty extrinsic hash",
               errorInfo := makeError .nodeRejectedTx "Node returned an empty extrinsic hash" }
    else return { success := true, extrinsicHash }

def submitMidnightTransaction (transactionBytes : List UInt8) : Client SubmitResult :=
  if transactionBytes.isEmpty then
    return { error := "Midnight transaction bytes cannot be empty",
             errorInfo := makeError .invalidHash "Midnight transaction bytes cannot be empty" }
  else submitMidnightTransactionHex (bytesToHex transactionBytes)

section
variable (parse : String → Except String Json)

def submitBuiltTransaction (config : ClientConfig) (build : BuildResult) :
    Client BuildSubmitResult := do
  if !build.success then
    let code :=
      if contains build.error "native Midnight ledger backend" || contains build.error "FFI" then
        ErrorCode.ledgerBackendError
      else .ledgerBuildError
    let error := if build.error = "" then "Transaction build failed" else build.error
    return { build, error, errorInfo := makeError code "Transaction build failed" error }
  if build.transactionBytes.isEmpty then
    return { build, error := "Ledger backend returned no Midnight transaction bytes",
             errorInfo := makeError .ledgerBuildError
               "Ledger backend returned no Midnight transaction bytes" }
  let contextError ← validateBuiltTransactionContext parse config build
  if contextError.isSet then
    return { build, error := contextError.message, errorInfo := contextError }
  let submit ← submitMidnightTransaction build.transactionBytes
  if submit.success then return { success := true, build, submit }
  let error := if submit.error = "" then "Transaction submission failed" else submit.error
  return { build, submit, error,
           errorInfo :=
            if submit.errorInfo.isSet then submit.errorInfo
            else makeError .submissionRejected error }

def submitBuildResult (config : ClientConfig) (build : BuildResult) : Client BuildSubmitResult :=
  submitBuiltTransaction parse config build

/-! ## Operations -/

/-- What the six operations share. -/
def buildAndSubmit {P : Type} (config : ClientConfig) (validate : P → Client BuildSubmitResult)
    (build : P → Client BuildResult) (params : P) : Client BuildSubmitResult := do
  let invalid ← validate params
  if invalid.errorInfo.isSet then return invalid
  let result ← build params
  submitBuildResult parse config result

def transferNight (config : ClientConfig) : TransferNightParams → Client BuildSubmitResult :=
  buildAndSubmit parse config validateTransferParams (buildTransferNight config)

def registerDust (config : ClientConfig) : RegisterDustParams → Client BuildSubmitResult :=
  buildAndSubmit parse config validateRegisterDustParams (buildRegisterDust config)

def deregisterDust (config : ClientConfig) : DeregisterDustParams → Client BuildSubmitResult :=
  buildAndSubmit parse config validateDeregisterDustParams (buildDeregisterDust config)

def deploySimpleContract (config : ClientConfig) :
    SimpleContractDeployParams → Client BuildSubmitResult :=
  buildAndSubmit parse config validateDeployParams (buildSimpleContractDeploy config)

def callSimpleContract (config : ClientConfig) :
    SimpleContractCallParams → Client BuildSubmitResult :=
  buildAndSubmit parse config validateCallParams (buildSimpleContractCall config)

def submitCustomContractIntents (config : ClientConfig) :
    CustomContractIntentParams → Client BuildSubmitResult :=
  buildAndSubmit parse config validateCustomContractParams (buildCustomContractTransaction config)

end

end MidnightSdk.Production
