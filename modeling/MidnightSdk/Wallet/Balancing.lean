import MidnightSdk.Wallet.RandomImprove
import MidnightSdk.Wallet.Transactions

/-!
# What the balancing routines share

The recipe they return, the shortfall they compute, the coins they select for
it and the entries they write for those coins.
-/

namespace MidnightSdk.Wallet

open Cpp Words Prefixes Json

inductive BalancingType where
  | finalized
  | unbound
  | unproven
  deriving DecidableEq, Repr

structure TokenKindsToBalance where
  shouldBalanceUnshielded : Bool := true
  shouldBalanceShielded : Bool := true
  shouldBalanceDust : Bool := true
  deriving DecidableEq, Repr

structure SimpleBalancingRecipe where
  type : BalancingType
  transactions : List Json := []
  needsProof : Bool := false
  needsSignature : Bool := false
  totalFee : UInt64 := 0
  success : Bool := false
  error : String := ""
  deriving Repr

/-- The shortfall of a transaction. It is positive when the inputs exceed the
outputs, the other way round from what its name says. -/
def shortfallOf (tx : Json) : Throws UInt64 := do
  let inputTotal ← extractTotalFromInputs tx
  let outputTotal ← extractTotalFromOutputs tx
  return if inputTotal > outputTotal then inputTotal - outputTotal else 0

def TransactionBalancer.selectUtxos (b : TransactionBalancer) (fc : FeeConstants)
    (shuffle : Shuffle UtxoWithMeta) (amount : UInt64) : UtxoSelectionResult :=
  b.randomImproveSelect shuffle amount (fc.perInputSize * fc.feePerByte)
    (fc.perOutputSize * fc.feePerByte)

def inputEntry (utxo : UtxoWithMeta) : Json :=
  .ofFields [("utxo_hash", .string utxo.utxoHash), ("amount", .unsigned utxo.amount),
    ("token_type", .string utxo.tokenType)]

/-- The fee of a transaction spending these coins into one output. -/
def FeeConstants.spendingFee (fc : FeeConstants) (coins : List UtxoWithMeta) : UInt64 :=
  fc.calculateFee (UInt64.ofNat coins.length) 1 false

/-- Whole seconds of a time point held in nanoseconds. -/
def ttlSeconds (ttl : Int64) : Int64 := ttl / 1000000000

/-! ## The coins a call takes -/

/-- The first coins, in the order given, that the selection accepts for an
amount; none if it accepts no prefix. -/
def coveringPrefix (fc : FeeConstants) (amount : UInt64) (coins : List UtxoWithMeta) :
    List UtxoWithMeta :=
  (shortestPrefix (Accepts amount (fc.perInputSize * fc.feePerByte)
    (fc.perOutputSize * fc.feePerByte)) coins).getD []

theorem coveringPrefix_accepts {fc : FeeConstants} {amount : UInt64} {coins order : List UtxoWithMeta}
    (h : coins = coveringPrefix fc amount order) (hne : coins ≠ []) :
    Accepts amount (fc.perInputSize * fc.feePerByte) (fc.perOutputSize * fc.feePerByte) coins := by
  unfold coveringPrefix at h
  cases hs : shortestPrefix (Accepts amount (fc.perInputSize * fc.feePerByte)
      (fc.perOutputSize * fc.feePerByte)) order with
  | none => exact absurd (by simp [h, hs]) hne
  | some p =>
    rw [hs, Option.getD_some] at h
    rw [h]
    exact (shortestPrefix_isShortest hs).passes

theorem selectUtxos_selected (b : TransactionBalancer) (fc : FeeConstants)
    (shuffle : Shuffle UtxoWithMeta) (amount : UInt64) :
    (b.selectUtxos fc shuffle amount).selected =
      coveringPrefix fc amount (shuffle.run b.filterByTokenType) := by
  rw [TransactionBalancer.selectUtxos, randomImproveSelect_eq, coveringPrefix]
  split <;> simp [resultOf, *]

theorem selectUtxos_total (b : TransactionBalancer) (fc : FeeConstants)
    (shuffle : Shuffle UtxoWithMeta) (amount : UInt64) :
    (b.selectUtxos fc shuffle amount).totalAmount =
      wrapSum (amounts (coveringPrefix fc amount (shuffle.run b.filterByTokenType))) := by
  rw [TransactionBalancer.selectUtxos, randomImproveSelect_eq, coveringPrefix]
  split <;> simp [resultOf, *, amounts]

@[simp] theorem inputEntry_amount (utxo : UtxoWithMeta) :
    (inputEntry utxo).valueUInt64 "amount" 0 = .ok utxo.amount := by
  simp [inputEntry, ofFields, valueUInt64, value, getUInt64]

/-- The entries written for coins list their amounts. -/
theorem entryAmounts_inputs (coins : List UtxoWithMeta) :
    entryAmounts (coins.map inputEntry) = .ok (amounts coins) := by
  induction coins with
  | nil => rfl
  | cons c coins ih =>
    rw [entryAmounts] at ih ⊢
    rw [List.map_cons, List.mapM_cons, inputEntry_amount, ih]
    rfl

end MidnightSdk.Wallet
