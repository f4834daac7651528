import MidnightSdk.Library.Words
import MidnightSdk.Library.Prefixes
import MidnightSdk.Library.Cpp
import MidnightSdk.Library.Comparators
import MidnightSdk.Library.Runs
import MidnightSdk.Library.SharedCounter
import MidnightSdk.Library.LittleEndian
import MidnightSdk.Library.Compact
import MidnightSdk.Library.HexText
import MidnightSdk.Library.Stoul
import MidnightSdk.Library.Stoull
import MidnightSdk.Library.PolyChecksum
import MidnightSdk.Library.Regroup
import MidnightSdk.Library.ByteReader
import MidnightSdk.Library.Json
import MidnightSdk.Library.BinarySearch
import MidnightSdk.Library.PaddedMerkle
import MidnightSdk.Library.Interaction
import MidnightSdk.Library.FinalizingChain
import MidnightSdk.Library.Kept
import MidnightSdk.Library.Tally
import MidnightSdk.Library.OrderedMap
import MidnightSdk.Library.Differences
import MidnightSdk.Util.Hex
import MidnightSdk.Util.HexDecoders
import MidnightSdk.Codec.ScaleEncoder
import MidnightSdk.Codec.ScaleDecoder
import MidnightSdk.Codec.RoundTrip
import MidnightSdk.Codec.CallSafety
import MidnightSdk.Crypto.StateEncryption
import MidnightSdk.Crypto.MerkleTree
import MidnightSdk.Tx.ExtrinsicBuilder
import MidnightSdk.Tx.SignedExtrinsic
import MidnightSdk.Network.MidnightNodeRpc
import MidnightSdk.UtxoTransactions.Outpoints
import MidnightSdk.UtxoTransactions.Reservations
import MidnightSdk.UtxoTransactions.UtxoSetManager
import MidnightSdk.UtxoTransactions.TransactionValidator
import MidnightSdk.UtxoTransactions.UtxoSelector
import MidnightSdk.Wallet.Coins
import MidnightSdk.Wallet.RandomImprove
import MidnightSdk.Wallet.ShuffleOrders
import MidnightSdk.Wallet.Transactions
import MidnightSdk.Wallet.MergeTransactions
import MidnightSdk.Wallet.Balancing
import MidnightSdk.Wallet.BalanceFinalized
import MidnightSdk.Wallet.BalanceInPlace
import MidnightSdk.Wallet.Bech32m
import MidnightSdk.Wallet.Bech32mTexts
import MidnightSdk.Wallet.Addresses
import MidnightSdk.Wallet.ShieldedAddress
import MidnightSdk.Wallet.Bech32mEncoder
import MidnightSdk.Wallet.Bip39Wordlist
import MidnightSdk.Wallet.Bip39
import MidnightSdk.Wallet.HdWallet
import MidnightSdk.Util.Bech32m
import MidnightSdk.Blockchain.MidnightAdapter
import MidnightSdk.Wallet.Facade
import MidnightSdk.Wallet.SelectCoins
import MidnightSdk.Wallet.FacadeRuns
import MidnightSdk.Wallet.SyncRuns
import MidnightSdk.Wallet.Base64
import MidnightSdk.Wallet.Persistence
import MidnightSdk.Wallet.EncryptedSave
import MidnightSdk.Ledger.TransactionTypes
import MidnightSdk.Production.Validation
import MidnightSdk.Production.Environment
import MidnightSdk.Production.BuildParameters
import MidnightSdk.Production.MidnightClient
import MidnightSdk.Production.SubmitOrder
import MidnightSdk.Production.Confirmation
import MidnightSdk.Production.PipelineResults
import MidnightSdk.Production.ContextCheck
import MidnightSdk.Production.Finality
import MidnightSdk.Network.NodeAnswers
import MidnightSdk.Network.NodeWaits
import MidnightSdk.Network.IndexerClient
import MidnightSdk.Network.WalletScan
import MidnightSdk.Network.GraphqlSubscription
import MidnightSdk.Network.RunningBalances
import MidnightSdk.Network.RealtimeIndexer
import MidnightSdk.Network.IndexerSubscription
import MidnightSdk.MonitoringFinality.Rpc
import MidnightSdk.MonitoringFinality.FinalizedHeight
import MidnightSdk.MonitoringFinality.BlockMonitor
import MidnightSdk.MonitoringFinality.Inclusion
import MidnightSdk.Library.Base128
import MidnightSdk.Protocols.MqttProtocol
import MidnightSdk.Library.Chunked
import MidnightSdk.Protocols.MqttReceive
import MidnightSdk.Protocols.MqttPublishQos1
import MidnightSdk.Protocols.MqttIdentifiers
import MidnightSdk.Protocols.MqttWaiters
import MidnightSdk.Protocols.MqttQos2
import MidnightSdk.Protocols.MqttExactlyOnce
import MidnightSdk.Protocols.MqttSocketMutex
import MidnightSdk.Library.DeltaOptions
import MidnightSdk.Protocols.CoapMessage
import MidnightSdk.Protocols.CoapReadBack
import MidnightSdk.Protocols.CoapClient
import MidnightSdk.Library.FileTree
import MidnightSdk.Production.StateBackend
import MidnightSdk.Production.Snapshots
import MidnightSdk.Library.TextSearch
import MidnightSdk.Crypto.EncryptedKey
import MidnightSdk.Library.Handle
import MidnightSdk.Crypto.KeyEncryption
import MidnightSdk.Crypto.TagChecks
import MidnightSdk.Crypto.KeyRoundTrip
import MidnightSdk.Library.BigEndian
import MidnightSdk.Library.StreamHex
import MidnightSdk.Library.CurveGroup
import MidnightSdk.Library.PrattPrimes
import MidnightSdk.Library.ShortWeierstrass
import MidnightSdk.Library.Sha256
import MidnightSdk.Crypto.Secp256k1
import MidnightSdk.Crypto.Bip340Signer
import MidnightSdk.Crypto.Bip340Keys
import MidnightSdk.Crypto.Bip340Signatures
import MidnightSdk.Crypto.Bip340Rule
import MidnightSdk.Crypto.Bip340DerivedKeys
import MidnightSdk.Signing.KeyManager
import MidnightSdk.Signing.KeyFiles
import MidnightSdk.Signing.TransactionSigner
import MidnightSdk.Library.DerIntegers
import MidnightSdk.Crypto.EcdsaSigner
import MidnightSdk.Crypto.EcdsaSignatures
import MidnightSdk.Library.Sha512
import MidnightSdk.Library.Edwards25519
import MidnightSdk.Library.Ed25519
import MidnightSdk.Crypto.Sr25519Signer
import MidnightSdk.Signing.SignatureVerifier
import MidnightSdk.Crypto.SealedStates
import MidnightSdk.Zk.SecretKeyStore
import MidnightSdk.Errors.WalletErrors
import MidnightSdk.Zk.ProofServerUrls
import MidnightSdk.Library.JsonTree
import MidnightSdk.Zk.ProofTypes
import MidnightSdk.Blockchain.WalletManager
import MidnightSdk.Blockchain.WalletStore
import MidnightSdk.Blockchain.EncryptedWallets
import MidnightSdk.Blockchain.WalletFiles
import MidnightSdk.Library.SharedMutex
import MidnightSdk.Blockchain.ChainManager
import MidnightSdk.Library.PlainJson
import MidnightSdk.Ledger.FfiRequests
import MidnightSdk.Ledger.FfiLedgerBackend
import MidnightSdk.Wallet.Bech32mErrors
import MidnightSdk.Library.MortalEra
import MidnightSdk.Codec.MortalEra
import MidnightSdk.Wallet.SplitChange
import MidnightSdk.UtxoTransactions.DustAccounting
import MidnightSdk.Wallet.RevertTransaction
import MidnightSdk.UtxoTransactions.RefusedCalls
import MidnightSdk.Library.DecimalDigits
import MidnightSdk.Codec.DecimalText
import MidnightSdk.Signing.FinalityVotes
import MidnightSdk.Library.TreeWalk
import MidnightSdk.Production.ArtifactManager
import MidnightSdk.Library.DigitOrder
import MidnightSdk.Wallet.GenerateMnemonic
import MidnightSdk.Library.Places
import MidnightSdk.Crypto.MerkleProofJson
import MidnightSdk.Network.HeightReaders
import MidnightSdk.Library.CountedLoop
import MidnightSdk.MonitoringFinality.BlockRanges
import MidnightSdk.MonitoringFinality.ErrorMessages
import MidnightSdk.Library.Binary64
import MidnightSdk.Network.EventNumbers
import MidnightSdk.Wallet.PendingTransactions
import MidnightSdk.Production.StateStatus
import MidnightSdk.Production.StateFreshness
import MidnightSdk.Protocols.CoapResponses
import MidnightSdk.Protocols.MqttLengths
import MidnightSdk.Protocols.WebSocketClient
import MidnightSdk.Blockchain.WalletWrites
import MidnightSdk.Blockchain.WalletCreation
import MidnightSdk.Wallet.Bip32
import MidnightSdk.Crypto.KeyImports
import MidnightSdk.Blockchain.BlockHashes
import MidnightSdk.Network.CircuitBreaker
import MidnightSdk.Library.Actions
import MidnightSdk.Network.SubstrateRpc
import MidnightSdk.Network.RpcCalls
import MidnightSdk.Network.DeadNode
import MidnightSdk.Network.SignedSubmissions
import MidnightSdk.Library.Items
import MidnightSdk.Protocols.MqttControlPackets
import MidnightSdk.Network.IndexerCaches
import MidnightSdk.Network.NodePaths
import MidnightSdk.Contract.Submissions
import MidnightSdk.Network.Endpoints
import MidnightSdk.Signing.TransactionSubmitter
import MidnightSdk.Zk.WitnessContexts
import MidnightSdk.Library.Records
import MidnightSdk.Network.AccountInfo
