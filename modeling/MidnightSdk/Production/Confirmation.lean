import MidnightSdk.Library.Stoull
import MidnightSdk.Production.MidnightClient

/-!
# Waiting for a transaction

The indexer is asked for a transaction over and over until the deadline; what it
answers to the queries made in time is given as a list. A pipeline saves the build,
submits it and then waits, as far as its options say.
-/

namespace MidnightSdk.Production

open Cpp Interaction Ledger Network Util

structure ConfirmationResult where
  success : Bool := false
  found : Bool := false
  transactionHash : String := ""
  transactionId : UInt64 := 0
  blockHeight : UInt64 := 0
  blockHash : String := ""
  transaction : Json := .object []
  error : SdkError := {}
  deriving Repr

/-! ## Reading a transaction -/

/-- A text is read in base ten, whatever its prefix. -/
def parseJsonU64 : Json → Throws UInt64
  | .unsigned n => .ok n
  | .integer n => .ok (if n < 0 then 0 else n.toUInt64)
  | .string s => Stoull.stoull 10 s.toList
  | _ => .ok 0

/-- A member that is there and not null; one that cannot be read leaves the zero. -/
def heightMember (key : String) (j : Json) : UInt64 :=
  match j.find? key with
  | none | some .null => 0
  | some v => (parseJsonU64 v).toOption.getD 0

/-- A member that is a text replaces what was there. -/
def textMember (key : String) (before : String) (j : Json) : String :=
  match j.find? key with
  | some (.string s) => s
  | _ => before

/-- The members of a block count when it is an object. -/
def blockMember (tx : Json) : Json :=
  match tx.find? "block" with
  | some (.object fields) => .object fields
  | _ => .null

/-- `!tx.empty() && tx.is_object()` -/
def isFound : Json → Bool
  | .object fields => !fields.isEmpty
  | _ => false

def confirmationFromTransaction (hash : String) (tx : Json) : ConfirmationResult :=
  if !isFound tx then { transactionHash := hash, transaction := tx }
  else
    { success := true
      found := true
      transactionHash := textMember "hash" hash tx
      transactionId := heightMember "id" tx
      blockHeight := heightMember "height" (blockMember tx)
      blockHash := textMember "hash" "" (blockMember tx)
      transaction := tx }

/-! ## Waiting -/

def utf8 (text : String) : List UInt8 := text.toUTF8.data.toList

/-- The loop over the queries made in time. -/
def inclusionLoop (transactionHash : String) :
    ConfirmationResult → List (Except String Json) → ConfirmationResult
  | result, [] =>
    if result.error.isSet then result
    else
      { result with
        error := makeError .confirmationTimeout "Timed out waiting for transaction confirmation"
          transactionHash }
  | result, poll :: polls =>
    match poll with
    | .ok tx =>
      let result := confirmationFromTransaction transactionHash tx
      if result.success then result else inclusionLoop transactionHash result polls
    | .error e =>
      inclusionLoop transactionHash
        { result with error := makeError .indexerError "Indexer transaction query failed" e } polls

def waitForInclusion (transactionHash : String) (polls : List (Except String Json)) :
    ConfirmationResult :=
  if !Validation.isTxHash (utf8 transactionHash) then
    { transactionHash
      error := makeError .invalidHash "Transaction hash must be a 32-byte hex value"
        transactionHash }
  else inclusionLoop transactionHash { transactionHash } polls

def waitForTransaction (transactionHash : String) (polls : List (Except String Json)) :
    ConfirmationResult :=
  waitForInclusion transactionHash polls

/-! ## Pipelines -/

structure PipelineOptions where
  saveArtifacts : Bool := true
  waitForConfirmation : Bool := true
  deriving DecidableEq, Repr

structure ArtifactSaveResult where
  success : Bool := false
  directory : String := ""
  files : List String := []
  error : SdkError := {}
  deriving DecidableEq, Repr

structure PipelineResult where
  success : Bool := false
  transaction : BuildSubmitResult := {}
  confirmation : ConfirmationResult := {}
  artifacts : ArtifactSaveResult := {}
  error : SdkError := {}
  deriving Repr

def confirmationHashFor (tx : BuildSubmitResult) : String :=
  if tx.build.transactionHash ≠ "" then tx.build.transactionHash else tx.submit.extrinsicHash

/-- Saving a build never throws; `saveBuildResult` is what it came to. -/
def pipelineFromBuildSubmit (saveBuildResult : BuildResult → ArtifactSaveResult)
    (polls : List (Except String Json)) (options : PipelineOptions) (tx : BuildSubmitResult) :
    PipelineResult :=
  let artifacts := if options.saveArtifacts then saveBuildResult tx.build else {}
  if !tx.success then
    { transaction := tx
      artifacts
      error :=
        if tx.errorInfo.isSet then tx.errorInfo
        else makeError .submissionRejected
          (if tx.error = "" then "Transaction submission failed" else tx.error) }
  else if options.waitForConfirmation then
    let confirmation := waitForTransaction (confirmationHashFor tx) polls
    { success := confirmation.success
      transaction := tx
      confirmation
      artifacts
      error := if confirmation.success then {} else confirmation.error }
  else { success := true, transaction := tx, artifacts }

end MidnightSdk.Production
