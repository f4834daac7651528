import MidnightSdk.Network.MidnightNodeRpc
import MidnightSdk.Network.NodeAnswers

/-!
# Waiting at the node

Both clients of the node wait for a transaction by looking into the pending pool, round
after round, and take its absence for an inclusion. A wait is given by the round in which
it returns true, if one does so in time.
-/

namespace MidnightSdk.Network

open Cpp

section
variable {ρ : Type} (answers : ρ → NodeAnswers)

/-! ## `SubstrateRPC` -/

def getPendingExtrinsics (node : NodeAnswers) : Throws (List String) := do
  let result ← rpcCall node "author_pendingExtrinsics" (.array [])
  match result with
  | .array pending => return pending.filterMap fun ext => ext.getString.toOption
  | _ => return []

/-- `tx_hash.substr(2)` is taken for each extrinsic until one has it. -/
def foundIn (txHash : String) (pending : List String) : Throws Bool :=
  if pending.isEmpty then .ok false
  else if txHash.toList.length < 2 then .error (.outOfRange "basic_string::substr")
  else .ok (pending.any fun ext => contains ext (String.ofList (txHash.toList.drop 2)))

/-- Whether the pool shows the transaction, unless looking fails. -/
def poolShows (node : NodeAnswers) (txHash : String) : Throws Bool := do
  let pending ← getPendingExtrinsics node
  foundIn txHash pending

/-- The pool is looked into and does not show the transaction. -/
def poolMisses (node : NodeAnswers) (txHash : String) : Bool :=
  match poolShows node txHash with
  | .ok found => !found
  | .error _ => false

def waitForFinalization (txHash : String) (rounds : List ρ) : Option ρ :=
  rounds.find? fun round => poolMisses (answers round) txHash

/-! ## `MidnightNodeRPC` -/

/-- The height of a header, when there is none under its own key. -/
def tipNumber (response : Json) : UInt64 :=
  match response.find? "number" with
  | some (.string s) => (Stoull.stoull 0 s.toList).toOption.getD 0
  | some (.unsigned n) => n
  | _ => 0

def getChainTip (node : NodeAnswers) : Throws (UInt64 × String) := do
  let response ←
    match rpcCall node "getChainTip" (.object []) with
    | .ok response => .ok response
    | .error _ => rpcCall node "chain_getHeader" (.array [])
  let height ← response.valueUInt64 "height" 0
  let hash ← response.valueString "hash" ""
  let head :=
    match rpcCall node "chain_getFinalizedHead" (.array []) with
    | .ok (.string finalizedHead) => finalizedHead
    | _ => ""
  return (if height = 0 then tipNumber response else height, if hash = "" then head else hash)

/-- A pool that is no list shows nothing. -/
def isPending (txId : String) : Json → Bool
  | .array pending =>
    pending.any fun
      | .string raw =>
        raw = txId || (['0', 'x'].isPrefixOf txId.toList && 10 < txId.toList.length &&
          contains raw (String.ofList (txId.toList.drop 2)))
      | _ => false
  | _ => false

/-- The chain has grown by as many blocks as were to be waited for. -/
def tipReached (node : NodeAnswers) (maxBlocks : UInt32) (startHeight : UInt64) : Bool :=
  match getChainTip node with
  | .ok (height, _) => height ≥ startHeight + maxBlocks.toUInt64
  | .error _ => false

/-- Whether the pool shows the transaction, where the call is answered. -/
def pendingAt (node : NodeAnswers) (txId : String) : Option Bool :=
  match rpcCall node "author_pendingExtrinsics" (.array []) with
  | .ok pending => some (isPending txId pending)
  | .error _ => none

/-- The loop, with what was seen in the pool so far. -/
def confirmationLoop (txId : String) (maxBlocks : UInt32) (startHeight : UInt64) :
    Bool → List ρ → Option ρ
  | _, [] => none
  | seenInPendingPool, round :: rest =>
    let pending := pendingAt (answers round) txId
    if pending = some false && seenInPendingPool then some round
    else if maxBlocks > 0 && tipReached (answers round) maxBlocks startHeight then none
    else
      confirmationLoop txId maxBlocks startHeight (seenInPendingPool || pending = some true) rest

/-- The first calls are about the height the wait starts from. -/
def waitForConfirmation (txId : String) (maxBlocks : UInt32) (start : NodeAnswers)
    (rounds : List ρ) : Option ρ :=
  if txId = "" then none
  else
    let startHeight :=
      match getChainTip start with
      | .ok (height, _) => height
      | .error _ => 0
    confirmationLoop answers txId maxBlocks startHeight false
      (if maxBlocks = 0 then rounds else rounds.take maxBlocks.toNat)

end

end MidnightSdk.Network
