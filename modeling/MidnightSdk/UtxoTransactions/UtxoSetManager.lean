import MidnightSdk.UtxoTransactions.Reservations

/-!
# The set of outputs

What the manager makes of an indexer's answer about one output. The indexer is
asked once a call and may answer differently each time.
-/

namespace MidnightSdk.UtxoTransactions

open Util

structure Utxo where
  txHash : List Char
  outputIndex : UInt32 := 0
  address : List Char := []
  tokenType : String := ""
  value : String := ""
  intentHash : List Char := []
  ctime : UInt64 := 0
  registeredForDust : Bool := false
  amountCommitment : List Char := []
  confirmedHeight : UInt32 := 0
  finalityDepth : UInt32 := 0
  isSpent : Bool := false
  spendingTxHash : String := ""
  deriving DecidableEq, Repr

/-- A member of `unshieldedCreatedOutputs`, read with the defaults of a missing
field. -/
structure CreatedOutput where
  owner : List Char := []
  tokenType : String := ""
  value : String := "0"
  outputIndex : UInt32 := 0
  intentHash : List Char := []
  ctime : UInt64 := 0
  registeredForDustGeneration : Bool := false
  spentAtTransaction : Option String := none
  deriving DecidableEq, Repr

/-- A member of `transactions`; the outputs may be missing. -/
structure IndexedTransaction where
  hash : List Char := []
  unshieldedCreatedOutputs : Option (List CreatedOutput) := none
  deriving DecidableEq, Repr

/-- `answer n txHash` is what the n-th query about a hash returns: the
transactions it lists, none for a query that throws. `now n` is the n-th
reading of the clock. -/
structure UtxoSetManager where
  answer : Nat → List Char → Option (List IndexedTransaction)
  now : Nat → UInt64

/-- `handle_tx` -/
def handleTx (txHash : List Char) (outputIndex : UInt32) (tx : IndexedTransaction) : Option Utxo := do
  let outputs ← tx.unshieldedCreatedOutputs
  let u ← outputs.find? (·.outputIndex == outputIndex)
  return {
    txHash := if tx.hash.isEmpty then txHash else tx.hash
    outputIndex := u.outputIndex
    address := u.owner
    tokenType := u.tokenType
    value := u.value
    intentHash := u.intentHash
    ctime := u.ctime
    registeredForDust := u.registeredForDustGeneration
    amountCommitment := u.intentHash
    isSpent := u.spentAtTransaction.isSome
    spendingTxHash := u.spentAtTransaction.getD "" }

/-- The n-th query. -/
def UtxoSetManager.queryUtxo (manager : UtxoSetManager) (n : Nat) (txHash : List Char)
    (outputIndex : UInt32) : Option Utxo := do
  let asked := ensureHexPrefix (cleanHash txHash)
  let txs ← manager.answer n asked
  txs.findSome? (handleTx asked outputIndex)

def UtxoSetManager.isSpent (manager : UtxoSetManager) (n : Nat) (txHash : List Char)
    (outputIndex : UInt32) : Option Bool :=
  (manager.queryUtxo n txHash outputIndex).map (·.isSpent)

/-- Inputs the indexer is asked alike about are one output to it. -/
theorem queryUtxo_congr (manager : UtxoSetManager) (n : Nat) {a b : UtxoInput}
    (h : a.queried = b.queried) :
    manager.queryUtxo n a.outpoint a.outputIndex = manager.queryUtxo n b.outpoint b.outputIndex := by
  obtain ⟨hhash, hindex⟩ := Prod.mk.inj h
  rw [UtxoSetManager.queryUtxo, UtxoSetManager.queryUtxo, hhash, hindex]

end MidnightSdk.UtxoTransactions
