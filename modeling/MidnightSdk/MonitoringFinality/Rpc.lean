import MidnightSdk.Network.MidnightNodeRpc
import MidnightSdk.Network.NodeAnswers

/-!
# Calls of the monitors

The monitors read a height off a header, look for a transaction in the pending pool and
ask how far the chain is finalized. A call that fails is never an error of theirs: it
reads as zero, as absent, or leads to a guess.
-/

namespace MidnightSdk.MonitoringFinality

open Cpp Network

/-- A number that cannot be read counts as zero. -/
def parseBlockHeight (header : Json) : UInt32 :=
  match header.find? "number" with
  | some (.string s) => ((Stoull.stoull 0 s.toList).toOption.getD 0).toUInt32
  | some (.unsigned n) => n.toUInt32
  | some (.integer n) => if n < 0 then 0 else n.toUInt64.toUInt32
  | _ => 0

/-- The hash without a `0x` in front. -/
def needleOf (txHash : String) : String :=
  if ['0', 'x'].isPrefixOf txHash.toList then String.ofList (txHash.toList.drop 2) else txHash

def isTxInPendingExtrinsics (node : NodeAnswers) (txHash : String) : Bool :=
  if txHash = "" then false
  else
    match rpcCall node "author_pendingExtrinsics" (.array []) with
    | .ok (.array pending) =>
      pending.any fun
        | .string raw =>
          raw = txHash || (needleOf txHash ≠ "" && contains raw (needleOf txHash))
        | _ => false
    | _ => false

/-! ## The finalized height -/

/-- The height of the finalized head, unless its hash is no text. -/
def readFinalizedHeight (node : NodeAnswers) : Throws (Option UInt32) := do
  let finalizedHead ← rpcCall node "chain_getFinalizedHead" (.array [])
  match finalizedHead with
  | .string hash =>
    let header ← rpcCall node "chain_getHeader" (.array [.string hash])
    return some (parseBlockHeight header)
  | _ => return none

/-- `best > 2 ? best - 2 : best` -/
def guessFinalizedHeight (best : UInt32) : UInt32 := if best > 2 then best - 2 else best

def getFinalizedHeightFromRpc (node : NodeAnswers) : UInt32 :=
  match readFinalizedHeight node with
  | .ok (some height) => height
  | _ =>
    match rpcCall node "chain_getHeader" (.array []) with
    | .ok head => guessFinalizedHeight (parseBlockHeight head)
    | .error _ => 0

/-! ## Heights that are stated -/

/-- A stated height is read as it is, or cut off where it does not fit. -/
theorem parseBlockHeight_le {header : Json} {height : Nat} (h : HexHeight header height) :
    (parseBlockHeight header).toNat ≤ height := by
  obtain ⟨text, ds, hnumber, hsome, hdigits, rfl⟩ := h
  simp only [parseBlockHeight, hnumber, String.toList_ofList,
    Stoull.stoull_zero_of_hex hsome hdigits]
  split
  · exact Nat.zero_le _
  · simp only [Except.toOption, Option.getD_some, UInt64.toNat_toUInt32, UInt64.toNat_ofNat']
    exact Nat.le_trans (Nat.mod_le _ _) (Nat.mod_le _ _)

theorem parseBlockHeight_eq {header : Json} {height : Nat} (h : HexHeight header height)
    (hfits : height < 2 ^ 32) : (parseBlockHeight header).toNat = height := by
  obtain ⟨text, ds, hnumber, hsome, hdigits, rfl⟩ := h
  have fits : ¬2 ^ 64 ≤ Stoul.ofDigits ds := by omega
  simp only [parseBlockHeight, hnumber, String.toList_ofList,
    Stoull.stoull_zero_of_hex hsome hdigits, if_neg fits, Except.toOption, Option.getD_some,
    UInt64.toNat_toUInt32, UInt64.toNat_ofNat']
  omega

end MidnightSdk.MonitoringFinality
