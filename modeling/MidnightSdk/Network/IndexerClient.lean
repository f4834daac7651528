import MidnightSdk.Library.Json
import MidnightSdk.Library.Kept
import MidnightSdk.Library.Words
import MidnightSdk.Util.Hex

/-!
# Scanning blocks for outputs

The indexer is asked for one block after the other, and the unspent outputs created for
an address are collected and added up. A query that throws ends the scan, and what was
collected so far is the answer.
-/

namespace MidnightSdk.Network

open Cpp Util

structure Utxo where
  txHash : String
  outputIndex : UInt32
  address : String
  amountCommitment : String
  value : UInt64
  tokenType : String
  blockHeight : UInt32
  ctime : UInt64
  initialNonce : String
  registeredForDustGeneration : Bool
  deriving DecidableEq, Repr

structure WalletState where
  address : String := ""
  unshieldedBalance : String := "0"
  shieldedBalance : String := "0"
  dustBalance : String := "0"
  availableUtxoCount : UInt64 := 0
  dustRegisteredUtxoCount : UInt64 := 0
  sessionId : String := ""
  synced : Bool := false
  error : String := ""
  deriving DecidableEq, Repr

/-! ## Reading outputs -/

def kNightTokenType : List Char := List.replicate 64 '0'

def toLowerCopy (s : String) : List Char := s.toList.map Char.toLower

def isNightTokenType (tokenType : String) : Bool :=
  tokenType = "" || (stripHexPrefix tokenType.toList).map Char.toLower = kNightTokenType

/-- `std::from_chars` of a whole text in base ten. -/
def fromChars (text : List Char) : Option UInt64 :=
  if !text.isEmpty && text.all Char.isDigit && Nat.ofDigitChars 10 text 0 < 2 ^ 64 then
    some (UInt64.ofNat (Nat.ofDigitChars 10 text 0))
  else none

/-- A text that is no number of 64 bits throws; what is no number and no text is zero. -/
def parseU64String : Json → Throws UInt64
  | .unsigned n => .ok n
  | .integer n => .ok (if n < 0 then 0 else n.toUInt64)
  | .string s =>
    if s = "" then .ok 0
    else
      match fromChars s.toList with
      | some n => .ok n
      | none => .error (.outOfRange ("u128 value does not fit in uint64_t: " ++ s))
  | _ => .ok 0

/-- `j.contains(key) && !j[key].is_null()`, with what is there. -/
def member? (key : String) (j : Json) : Option Json :=
  match j.find? key with
  | none | some .null => none
  | some v => some v

/-- An output that is the address's and unspent. -/
def readOutput (address txHash : String) (blockHeight : UInt32) (out : Json) :
    Throws (Option Utxo) := do
  let owner ← out.valueString "owner" ""
  if toLowerCopy owner ≠ toLowerCopy address then return none
  if (member? "spentAtTransaction" out).isSome then return none
  let outputIndex ← out.valueUInt32 "outputIndex" 0
  let amount ← out.value .ok "value" (.string "0")
  let value ← parseU64String amount
  let outputOwner ← out.valueString "owner" address
  let tokenType ← out.valueString "tokenType" ""
  let amountCommitment ← out.valueString "intentHash" ""
  let created ← out.value .ok "ctime" (.unsigned 0)
  let ctime ← parseU64String created
  let initialNonce ← out.valueString "initialNonce" ""
  let registeredForDustGeneration ← out.valueBool "registeredForDustGeneration" false
  return some {
    txHash, outputIndex, address := outputOwner, amountCommitment, value, tokenType, blockHeight,
    ctime, initialNonce, registeredForDustGeneration }

/-- What `append_utxos_from_transaction_json` pushes back. -/
def appendUtxosFromTransactionJson (address : String) (tx : Json) (fallbackBlockHeight : UInt32) :
    Kept Utxo :=
  match member? "unshieldedCreatedOutputs" tx with
  | none => .nothing
  | some outputs =>
    let header : Throws (UInt32 × String) := do
      let blockHeight ←
        match tx.find? "block" with
        | some (.object fields) => do
          let height ← (Json.object fields).valueUInt64 "height" 0
          pure height.toUInt32
        | _ => pure fallbackBlockHeight
      let txHash ← tx.valueString "hash" ""
      return (blockHeight, txHash)
    match header with
    | .error e => .ofStep (.error e)
    | .ok (blockHeight, txHash) =>
      .each (fun out => .ofStep (readOutput address txHash blockHeight out)) outputs.elements

/-! ## Scanning -/

/-- The transactions of a block that was found. -/
def transactionList (result : Json) : List Json :=
  match member? "block" result with
  | none => []
  | some blockData =>
    match member? "transactions" blockData with
    | none => []
    | some (.array txns) => txns
    | some txn => [txn]

/-- The loop that counts the outputs of the address. -/
def readOwners : List Json → Throws Unit
  | [] => .ok ()
  | out :: rest => do
    let _ ← out.valueString "owner" ""
    readOwners rest

/-- The owners are all read before anything is collected. -/
def scanTransaction (address : String) (h : UInt32) (tx : Json) : Kept Utxo :=
  match member? "unshieldedCreatedOutputs" tx with
  | none => .nothing
  | some outputs =>
    match readOwners outputs.elements with
    | .error e => .ofStep (.error e)
    | .ok _ => appendUtxosFromTransactionJson address tx h

/-- The loop over the heights, given what the queries return or throw one after the
other; nothing while the loop has not ended with them. -/
def scanLoop (address : String) (toBlock : UInt32) :
    UInt32 → List (Throws Json) → Option (List Utxo)
  | h, [] => if h ≤ toBlock then none else some []
  | h, answer :: rest =>
    if h ≤ toBlock then
      match answer with
      | .error _ => some []
      | .ok result =>
        let scanned := Kept.each (scanTransaction address h) (transactionList result)
        match scanned.ended with
        | .error _ => some scanned.items
        | .ok _ => (scanLoop address toBlock (h + 1) rest).map (scanned.items ++ ·)
    else some []

def scanUtxosInternal (address : String) (fromBlock toBlock : UInt32)
    (answers : List (Throws Json)) : Option (List Utxo) :=
  scanLoop address toBlock fromBlock answers

def queryUtxos (address : String) (fromBlock toBlock : UInt32) (answers : List (Throws Json)) :
    Option (List Utxo) :=
  scanUtxosInternal address fromBlock toBlock answers

/-! ## Adding up -/

def isNight (utxo : Utxo) : Bool := isNightTokenType utxo.tokenType || utxo.tokenType = "NIGHT"

/-- The amounts added up in 64 bits. -/
def totalOf (utxos : List Utxo) : UInt64 := Words.wrapSum (utxos.map Utxo.value)

def walletStateFromUtxos (address : String) (utxos : List Utxo) : WalletState :=
  { address
    unshieldedBalance := toString (totalOf (utxos.filter isNight)).toNat
    dustBalance :=
      toString (totalOf (utxos.filter fun utxo => !isNight utxo && utxo.tokenType = "DUST")).toNat
    availableUtxoCount := (UInt32.ofNat utxos.length).toUInt64
    dustRegisteredUtxoCount :=
      UInt64.ofNat (utxos.countP fun utxo => utxo.registeredForDustGeneration)
    synced := true }

/-- The state for a range of blocks. -/
def queryWalletState (address : String) (fromBlock toBlock : UInt32)
    (answers : List (Throws Json)) : Option WalletState :=
  (queryUtxos address fromBlock toBlock answers).map (walletStateFromUtxos address)

end MidnightSdk.Network
