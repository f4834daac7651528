import MidnightSdk.Library.Cpp

/-!
# Requests to the ledger backend

What a transaction is built from and what comes back. Texts that the client checks
byte by byte are lists of bytes; texts it only hands on are strings.
-/

namespace MidnightSdk.Ledger

open Cpp

inductive SourceMode where
  | auto
  | localCache
  | coldSync
  | bounded
  deriving DecidableEq, Repr

structure SourceConfig where
  sourceMode : SourceMode := .auto
  srcUrl : String := ""
  srcFiles : List String := []
  fetchOnlyCached : Bool := false
  requireLedgerStateCache : Bool := true
  ignoreBlockContext : Bool := false
  dustWarp : Bool := false
  fetchCache : String := "redb:midnight_cache/fetch_cache.db"
  ledgerStateDb : String := "midnight_cache/ledger_cache_db"
  fetchConcurrency : UInt32 := 4
  fetchComputeConcurrency : Option UInt32 := none
  fetchRetryCount : UInt32 := 3
  fetchRetryDelayMs : UInt64 := 5000
  fromBlock : Option UInt64 := none
  toBlock : Option UInt64 := none
  transactionHashes : List (List UInt8) := []
  deriving DecidableEq, Repr

structure BuildResult where
  success : Bool := false
  transactionBytes : List UInt8 := []
  transactionHex : String := ""
  transactionHash : String := ""
  contractAddress : String := ""
  outputFile : String := ""
  intentPath : String := ""
  privateStatePath : String := ""
  zswapStatePath : String := ""
  onchainStatePath : String := ""
  resultPath : String := ""
  rawOutput : String := ""
  command : String := ""
  log : String := ""
  error : String := ""
  deriving DecidableEq, Repr

structure TransferNightParams where
  source : SourceConfig
  proofServer : Option String := none
  sourceSeed : List UInt8
  fundingSeed : Option (List UInt8) := none
  destinationAddresses : List (List UInt8)
  amount : List UInt8
  tokenType : List UInt8 := List.replicate 64 48
  inputUtxos : List String := []
  rngSeed : Option (List UInt8) := none
  coinSelection : String := "largest-first"
  deriving DecidableEq, Repr

structure RegisterDustParams where
  source : SourceConfig
  proofServer : Option String := none
  walletSeed : List UInt8
  fundingSeed : Option (List UInt8) := none
  destinationDustAddress : Option (List UInt8) := none
  rngSeed : Option (List UInt8) := none
  deriving DecidableEq, Repr

structure DeregisterDustParams where
  source : SourceConfig
  proofServer : Option String := none
  walletSeed : List UInt8
  fundingSeed : List UInt8
  rngSeed : Option (List UInt8) := none
  deriving DecidableEq, Repr

structure SimpleContractDeployParams where
  source : SourceConfig
  proofServer : Option String := none
  fundingSeed : List UInt8
  authoritySeeds : List (List UInt8)
  authorityThreshold : Option UInt32 := none
  rngSeed : Option (List UInt8) := none
  deriving DecidableEq, Repr

structure SimpleContractCallParams where
  source : SourceConfig
  proofServer : Option String := none
  fundingSeed : List UInt8
  contractAddress : List UInt8
  callKey : String := "store"
  fee : List UInt8 := literal "1300000"
  rngSeed : Option (List UInt8) := none
  deriving DecidableEq, Repr

structure CustomContractIntentParams where
  source : SourceConfig
  proofServer : Option String := none
  fundingSeed : List UInt8
  compiledContractDirs : List String := []
  intentFiles : List String
  inputUtxos : List String := []
  zswapStateFile : Option String := none
  shieldedDestinations : List String := []
  rngSeed : Option (List UInt8) := none
  deriving DecidableEq, Repr

structure SyncLedgerStateParams where
  source : SourceConfig
  walletSeeds : List (List UInt8)
  timeoutMs : UInt64 := 0
  deriving DecidableEq, Repr

structure WalletSummaryParams where
  source : SourceConfig
  walletSeed : List UInt8
  timeoutMs : UInt64 := 0
  deriving DecidableEq, Repr

/-- The calls of the backend that build a transaction, with what they are given. -/
inductive BuildRequest where
  | transferNight (params : TransferNightParams)
  | registerDust (params : RegisterDustParams)
  | deregisterDust (params : DeregisterDustParams)
  | simpleContractDeploy (params : SimpleContractDeployParams)
  | simpleContractCall (params : SimpleContractCallParams)
  | customContractTransaction (params : CustomContractIntentParams)
  deriving DecidableEq, Repr

structure LedgerBackendInfo where
  success : Bool := false
  ledger : List UInt8 := []
  deriving DecidableEq, Repr

/-- The parts every kind of parameters has: where the ledger's history comes from, the
server that proves, and the call that builds from them. -/
class BuildParams (P : Type) where
  source : P → SourceConfig
  withSource : P → SourceConfig → P
  proofServer : P → Option String
  withProofServer : P → Option String → P
  request : P → BuildRequest

instance : BuildParams TransferNightParams where
  source params := params.source
  withSource params source := { params with source }
  proofServer params := params.proofServer
  withProofServer params proofServer := { params with proofServer }
  request := .transferNight

instance : BuildParams RegisterDustParams where
  source params := params.source
  withSource params source := { params with source }
  proofServer params := params.proofServer
  withProofServer params proofServer := { params with proofServer }
  request := .registerDust

instance : BuildParams DeregisterDustParams where
  source params := params.source
  withSource params source := { params with source }
  proofServer params := params.proofServer
  withProofServer params proofServer := { params with proofServer }
  request := .deregisterDust

instance : BuildParams SimpleContractDeployParams where
  source params := params.source
  withSource params source := { params with source }
  proofServer params := params.proofServer
  withProofServer params proofServer := { params with proofServer }
  request := .simpleContractDeploy

instance : BuildParams SimpleContractCallParams where
  source params := params.source
  withSource params source := { params with source }
  proofServer params := params.proofServer
  withProofServer params proofServer := { params with proofServer }
  request := .simpleContractCall

instance : BuildParams CustomContractIntentParams where
  source params := params.source
  withSource params source := { params with source }
  proofServer params := params.proofServer
  withProofServer params proofServer := { params with proofServer }
  request := .customContractTransaction

end MidnightSdk.Ledger
