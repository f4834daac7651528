import MidnightSdk.Ledger.TransactionTypes
import MidnightSdk.Library.Interaction
import MidnightSdk.Network.MidnightNodeRpc

/-!
# What the client asks

The client reads variables and files, and calls the ledger backend, the proof server
and the node. Nothing is known of the answers; each of them may change from one
question to the next.
-/

namespace MidnightSdk.Production

open Cpp Interaction Ledger Network Util

inductive ErrorCode where
  | none
  | invalidAddress
  | invalidContractAddress
  | invalidTokenType
  | invalidAmount
  | invalidHash
  | indexerSchemaError
  | ledgerBackendError
  | ledgerBuildError
  | ledgerStateMismatch
  | proofServerError
  | nodeRpcError
  | nodeRejectedTx
  | indexerError
  | submissionRejected
  | confirmationTimeout
  | finalityTimeout
  | artifactError
  | unsupportedOperation
  deriving DecidableEq, Repr

structure SdkError where
  code : ErrorCode := .none
  message : String := ""
  detail : String := ""
  deriving DecidableEq, Repr

/-- `explicit operator bool` -/
def SdkError.isSet (error : SdkError) : Bool :=
  error.code ≠ .none || error.message ≠ "" || error.detail ≠ ""

/-- A file or directory met on the way through a directory: whether it is a regular
file, whether finding out failed, and its size unless that fails. -/
structure DirectoryEntry where
  regularFile : Bool
  failed : Bool
  fileSize : Option Nat
  deriving DecidableEq, Repr

/-- What a directory iterator goes through, and what it throws behind that. -/
structure Listing where
  entries : List DirectoryEntry
  thrown : Option Exception
  deriving DecidableEq, Repr

inductive Question where
  | getenv (name : String)
  | pathExists (path : String)
  | isRegularFile (path : String)
  | fileSize (path : String)
  | isDirectory (path : String)
  | directoryEntries (path : String)
  | canReportBackendInfo
  | backendInfo
  | serverVersion
  | build (request : BuildRequest)
  | rpcCall (method : String) (params : Json)
  | submitTransaction (txHex : List Char)

/-- An error in an answer is the text of an exception. -/
abbrev Answer : Question → Type
  | .getenv _ => Option String
  | .pathExists _ => Bool
  | .isRegularFile _ => Bool
  | .fileSize _ => Option Nat
  | .isDirectory _ => Bool
  | .directoryEntries _ => Listing
  | .canReportBackendInfo => Bool
  | .backendInfo => Throws LedgerBackendInfo
  | .serverVersion => Except String (List UInt8)
  | .build _ => Throws BuildResult
  | .rpcCall _ _ => Except String Json
  | .submitTransaction _ => Except String String

abbrev Client : Type → Type := Program Question Answer Exception

def ask (q : Question) : Client (Answer q) := Program.question q

/-- A variable that is not set reads as nothing. -/
def envValue (name : String) : Client String := do
  let value ← ask (.getenv name)
  return value.getD ""

/-! ## Caches -/

/-- The loop over a directory. An error stays for the next round, and the size of a
file that has none is the largest number. -/
def entryLoop (thrown : Option Exception) : List DirectoryEntry → Bool → Throws Bool
  | [], _ =>
    match thrown with
    | none => .ok false
    | some e => .error e
  | entry :: rest, ec =>
    if ec then .ok false
    else if entry.regularFile then
      match entry.fileSize with
      | none => .ok true
      | some size => if 0 < size then .ok true else entryLoop thrown rest false
    else entryLoop thrown rest entry.failed

def cachePathHasData (path : String) : Client Bool := do
  if path = "" || contains path "://" then return true
  let found ← ask (.pathExists path)
  if !found then return false
  let regular ← ask (.isRegularFile path)
  if regular then
    let size ← ask (.fileSize path)
    return decide (0 < size.getD 0)
  let directory ← ask (.isDirectory path)
  if !directory then return false
  let listing ← ask (.directoryEntries path)
  Program.orThrow (entryLoop listing.thrown listing.entries false)

/-! ## Blocks -/

def is64HexChars (value : List Char) : Bool := value.length == 64 && value.all isXDigit

def getBlockHeader (blockHashInput : List Char) : Client (Except String Json) :=
  let blockHash := stripHexPrefix blockHashInput
  if !is64HexChars blockHash then return .error "Block hash must be a 32-byte hex string"
  else ask (.rpcCall "chain_getHeader" (.array [.string (String.ofList (ensureHexPrefix blockHash))]))

/-- `header.is_object() && !header.empty()` -/
def isBlockHeader : Json → Bool
  | .object fields => !fields.isEmpty
  | _ => false

def blockHashExists (blockHash : List Char) : Client (Except String Bool) := do
  let header ← getBlockHeader blockHash
  return header.map isBlockHeader

end MidnightSdk.Production
