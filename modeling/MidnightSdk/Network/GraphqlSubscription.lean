import MidnightSdk.Library.Runs
import MidnightSdk.Library.Stoull
import MidnightSdk.Network.IndexerClient

/-!
# Subscribing to transactions

Each message of the indexer names outputs created and outputs spent. The client keeps
running balances, the created outputs added first and the spent ones taken off behind
them, and calls back what is listening.
-/

namespace MidnightSdk.Network

open Cpp Util

structure UtxoEvent where
  utxoHash : String := ""
  txHash : String := ""
  outputIndex : UInt32 := 0
  amount : UInt64 := 0
  tokenType : String := "NIGHT"
  owner : String := ""
  isSpent : Bool := false
  registeredForDustGeneration : Bool := false
  initialNonce : String := ""
  ctime : Int64 := 0
  deriving DecidableEq, Repr

structure UnshieldedTxEvent where
  transactionId : UInt64 := 0
  created : List UtxoEvent
  spent : List UtxoEvent
  deriving DecidableEq, Repr

structure GraphQLSubscriptionClient where
  nightBalance : UInt64 := 0
  dustBalance : UInt64 := 0
  utxoCount : UInt64 := 0
  lastState : WalletState := {}
  deriving DecidableEq, Repr

def currentBalance (client : GraphQLSubscriptionClient) (tokenType : String) : UInt64 :=
  if tokenType = "DUST" || tokenType = "dust" then client.dustBalance else client.nightBalance

/-- What is called back; a callback for a transaction can ask the client. -/
structure Callbacks (ρ : Type) where
  balance : String → UInt64 → ρ → ρ
  unshieldedTx : GraphQLSubscriptionClient → UnshieldedTxEvent → ρ → ρ
  progress : UInt64 → ρ → ρ

/-- A client and what listens to it. -/
structure Watched (ρ : Type) where
  client : GraphQLSubscriptionClient
  listener : ρ

/-! ## Reading outputs -/

/-- A number is read through a `double`: how the number is rounded on the way is left
open. -/
abbrev ThroughDouble : Type := Int → UInt64

section Reading

variable (throughDouble : ThroughDouble)

mutual

def parseAmount : Json → UInt64
  | .unsigned n => throughDouble n.toNat
  | .integer n => throughDouble n.toInt
  | .string s => (Stoull.stoull 10 s.toList).toOption.getD 0
  | .object fields => parseAmountMember fields
  | _ => 0

/-- The amount of the member `value`, if there is one. -/
def parseAmountMember : List (String × Json) → UInt64
  | [] => 0
  | (key, value) :: rest => if key = "value" then parseAmount value else parseAmountMember rest

end

/-- An amount that is a decimal text is read in full; one that does not fit counts as
zero. -/
theorem parseAmount_repr (n : Nat) :
    parseAmount throughDouble (.string n.repr) = if 2 ^ 64 ≤ n then 0 else UInt64.ofNat n := by
  rw [parseAmount, Stoull.stoull_ten_repr]
  split <;> rfl

def normalizeTokenType (tokenType : String) : String :=
  let raw := (stripHexPrefix tokenType.toList).map Char.toLower
  if raw.isEmpty || raw = List.replicate 64 '0' then "NIGHT" else tokenType

/-- The members read of an output, created or spent. -/
def readUtxoEvent (utxoHash : Int32 → String) (txHash : String) (isSpent : Bool) (out : Json) :
    Throws UtxoEvent := do
  let outputIndex ← out.valueInt32 "outputIndex" 0
  let amount ← out.value .ok "value" (.object [])
  let tokenType ← out.valueString "tokenType" "NIGHT"
  let owner ← out.valueString "owner" ""
  let ctime ← out.value .ok "ctime" (.unsigned 0)
  let initialNonce ← out.valueString "initialNonce" ""
  let registeredForDustGeneration ← out.valueBool "registeredForDustGeneration" false
  return {
    utxoHash := utxoHash outputIndex, txHash, outputIndex := outputIndex.toUInt32
    amount := parseAmount throughDouble amount, tokenType := normalizeTokenType tokenType, owner
    isSpent, registeredForDustGeneration, initialNonce
    ctime := (parseAmount throughDouble ctime).toInt64 }

def readCreated (txHash : String) (out : Json) : Throws UtxoEvent :=
  readUtxoEvent throughDouble (fun index => txHash ++ ":" ++ toString index.toInt) txHash false out

/-- A spent output belongs to the transaction that created it. -/
def readSpent (txHash : String) (out : Json) : Throws UtxoEvent := do
  let createdTx ← out.value .ok "createdAtTransaction" (.object [])
  let createdHash ← createdTx.valueString "hash" txHash
  readUtxoEvent throughDouble (fun _ => "") createdHash true out

end Reading

/-! ## Running balances -/

namespace Watched

variable {ρ : Type} (calls : Callbacks ρ)

def isNight (utxo : UtxoEvent) : Bool := utxo.tokenType = "NIGHT" || utxo.tokenType = ""

/-- A created output is added to its balance, and the balance called back. -/
def credit (w : Watched ρ) (utxo : UtxoEvent) : Watched ρ :=
  let count := w.client.utxoCount + 1
  if isNight utxo then
    let night := w.client.nightBalance + utxo.amount
    { client := { w.client with nightBalance := night, utxoCount := count }
      listener := calls.balance "NIGHT" night w.listener }
  else if utxo.tokenType = "DUST" then
    let dust := w.client.dustBalance + utxo.amount
    { client := { w.client with dustBalance := dust, utxoCount := count }
      listener := calls.balance "DUST" dust w.listener }
  else { w with client := { w.client with utxoCount := count } }

/-- A spent output is taken off its balance, which is not called back. -/
def debit (w : Watched ρ) (utxo : UtxoEvent) : Watched ρ :=
  let client := w.client
  let count := if client.utxoCount > 0 then client.utxoCount - 1 else 0
  if isNight utxo then
    let night := if client.nightBalance > utxo.amount then client.nightBalance - utxo.amount else 0
    { w with client := { client with nightBalance := night, utxoCount := count } }
  else if utxo.tokenType = "DUST" then
    let dust := if client.dustBalance > utxo.amount then client.dustBalance - utxo.amount else 0
    { w with client := { client with dustBalance := dust, utxoCount := count } }
  else { w with client := { client with utxoCount := count } }

/-- The last state shows the running values, and the transaction is called back. -/
def publish (evt : UnshieldedTxEvent) (w : Watched ρ) : Watched ρ :=
  let client := { w.client with
    lastState := { w.client.lastState with
      availableUtxoCount := w.client.utxoCount
      unshieldedBalance := toString w.client.nightBalance.toNat
      dustBalance := toString w.client.dustBalance.toNat
      synced := true } }
  { client, listener := calls.unshieldedTx client evt w.listener }

def progress (highestId : UInt64) (w : Watched ρ) : Watched ρ :=
  { client := { w.client with lastState := { w.client.lastState with synced := true } }
    listener := calls.progress highestId w.listener }

end Watched

section Handling

variable {ρ : Type} (calls : Callbacks ρ) (throughDouble : ThroughDouble)

/-- The outputs are read once for the balances, and once more for the event. -/
def parseUnshieldedTransactionEvent (w : Watched ρ) (data : Json) : Throws (Watched ρ) :=
  match member? "unshieldedTransactions" data with
  | none => .ok w
  | some wrapper => do
    let typeName ← wrapper.valueString "__typename" ""
    if typeName = "UnshieldedTransactionsProgress" then
      let highestId ← wrapper.valueInt32 "highestTransactionId" 0
      return w.progress calls highestId.toInt64.toUInt64
    else if typeName ≠ "UnshieldedTransaction" then return w
    else
      let txInfo ← wrapper.value .ok "transaction" (.object [])
      let txHash ← txInfo.valueString "hash" ""
      let txId ← txInfo.valueInt32 "id" 0
      let blk ← txInfo.value .ok "block" (.object [])
      let _ ← blk.valueInt32 "height" 0
      let createdArr ← wrapper.value .ok "createdUtxos" (.array [])
      let w ← createdArr.elements.foldlM
        (fun w out => return w.credit calls (← readCreated throughDouble txHash out)) w
      let spentArr ← wrapper.value .ok "spentUtxos" (.array [])
      let w ← spentArr.elements.foldlM
        (fun w out => return w.debit (← readSpent throughDouble txHash out)) w
      if createdArr.elements.isEmpty && spentArr.elements.isEmpty then return w
      else
        let created ← createdArr.elements.mapM (readCreated throughDouble txHash)
        let spent ← spentArr.elements.mapM (readSpent throughDouble txHash)
        return w.publish calls { transactionId := txId.toInt64.toUInt64, created, spent }

/-- The messages one after the other; one that cannot be read ends the program. -/
def handleMessages (w : Watched ρ) (datas : List Json) : Throws (Watched ρ) :=
  datas.foldlM (parseUnshieldedTransactionEvent calls throughDouble) w

end Handling

/-! ## Messages -/

inductive Message where
  | other
  | progress (highestId : UInt64)
  | transaction (evt : UnshieldedTxEvent)
  deriving DecidableEq, Repr

section Messages

variable (throughDouble : ThroughDouble)

def readTransaction (wrapper : Json) : Throws UnshieldedTxEvent := do
  let txInfo ← wrapper.value .ok "transaction" (.object [])
  let txHash ← txInfo.valueString "hash" ""
  let txId ← txInfo.valueInt32 "id" 0
  let blk ← txInfo.value .ok "block" (.object [])
  let _ ← blk.valueInt32 "height" 0
  let createdArr ← wrapper.value .ok "createdUtxos" (.array [])
  let created ← createdArr.elements.mapM (readCreated throughDouble txHash)
  let spentArr ← wrapper.value .ok "spentUtxos" (.array [])
  let spent ← spentArr.elements.mapM (readSpent throughDouble txHash)
  return { transactionId := txId.toInt64.toUInt64, created, spent }

def readMessage (data : Json) : Throws Message :=
  match member? "unshieldedTransactions" data with
  | none => .ok .other
  | some wrapper => do
    let typeName ← wrapper.valueString "__typename" ""
    if typeName = "UnshieldedTransactionsProgress" then
      let highestId ← wrapper.valueInt32 "highestTransactionId" 0
      return .progress highestId.toInt64.toUInt64
    else if typeName ≠ "UnshieldedTransaction" then return .other
    else return .transaction (← readTransaction throughDouble wrapper)

variable {ρ : Type} (calls : Callbacks ρ)

/-- What a message does, once it is read. -/
def Message.apply (w : Watched ρ) : Message → Watched ρ
  | .other => w
  | .progress highestId => w.progress calls highestId
  | .transaction evt =>
    let moved := evt.spent.foldl Watched.debit (evt.created.foldl (Watched.credit calls) w)
    if evt.created.isEmpty && evt.spent.isEmpty then moved else moved.publish calls evt

/-- Reading while the balances move, and again for the event, does what reading the
whole message first does. -/
theorem parseUnshieldedTransactionEvent_eq (w : Watched ρ) (data : Json) :
    parseUnshieldedTransactionEvent calls throughDouble w data =
      Message.apply calls w <$> readMessage throughDouble data := by
  unfold parseUnshieldedTransactionEvent readMessage
  cases member? "unshieldedTransactions" data with
  | none => rfl
  | some wrapper =>
    simp only [map_bind]
    apply bind_congr
    intro typeName
    split
    · simp only [map_bind, map_pure]
      rfl
    · split
      · rfl
      · simp only [readTransaction, map_bind, bind_assoc, pure_bind, map_pure, foldlM_read,
          bind_map_left]
        refine bind_congr fun txInfo => bind_congr fun txHash => bind_congr fun txId => ?_
        refine bind_congr fun blk => bind_congr fun height => bind_congr fun createdArr => ?_
        cases hcreated : createdArr.elements.mapM (readCreated throughDouble txHash) with
        | error e => rfl
        | ok created =>
          simp only [ok_bind]
          refine bind_congr fun spentArr => ?_
          cases hspent : spentArr.elements.mapM (readSpent throughDouble txHash) with
          | error e => rfl
          | ok spent =>
            simp only [ok_bind, Message.apply, isEmpty_of_mapM hcreated, isEmpty_of_mapM hspent]
            split <;> rfl

end Messages

end MidnightSdk.Network
