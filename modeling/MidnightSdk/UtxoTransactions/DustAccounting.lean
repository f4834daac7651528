import MidnightSdk.UtxoTransactions.TransactionValidator
import MidnightSdk.UtxoTransactions.UtxoSelector

/-!
# DUST accounting

Both routines compute with 64-bit words that come from outside. The balance check
is right as long as the sum it compares with fits, and also where what is left of
a sum that does not fit still exceeds the input. The fee is right as long as the
exact one fits and is not negative; the overhead it adds counts the outputs in 32
bits.
-/

namespace MidnightSdk.UtxoTransactions

namespace DustAccounting

def calculateDustFee (inputDust outputDust outputCount : UInt64) (hasWitnesses : Bool)
    (context : TransactionBuilderContext) : UInt64 :=
  let fees := context.feeModel
  let baseFee := outputCount * fees.baseDustPerOutput
  let baseFee := if hasWitnesses then baseFee + outputCount * fees.witnessDustPerOutput else baseFee
  let commitmentOverhead := commitmentDustOverhead outputCount.toUInt32 context
  let totalDustNeeded := inputDust - outputDust + baseFee + commitmentOverhead
  if totalDustNeeded > 0 then totalDustNeeded else baseFee

/-! ## Over the integers -/

/-- What the outputs and the fees of a transaction come to, with 128 for each
commitment. -/
def owed (tx : Transaction) : Nat := tx.outputDust.toNat + tx.fees.toNat + 128 * tx.outputs.length

def baseFee (outputCount : Nat) (hasWitnesses : Bool) (fees : FeeModelConfig) : Nat :=
  outputCount * (fees.baseDustPerOutput.toNat +
    if hasWitnesses then fees.witnessDustPerOutput.toNat else 0)

/-- What the commitment of one output costs. -/
def commitmentCost (context : TransactionBuilderContext) : Nat :=
  context.feeModel.commitmentBytesPerOutput.toNat *
    max 1 (context.protocolParams.utxoCostPerByte.toNat / 1024)

def overhead (outputCount : Nat) (context : TransactionBuilderContext) : Nat :=
  outputCount * commitmentCost context

def needed (inputDust outputDust outputCount : UInt64) (hasWitnesses : Bool)
    (context : TransactionBuilderContext) : Int :=
  inputDust.toNat - outputDust.toNat + baseFee outputCount.toNat hasWitnesses context.feeModel +
    overhead outputCount.toNat context

/-- The check tells whether the input covers what is owed. -/
def BalanceLaw (tx : Transaction) : Prop :=
  verifyDustBalance tx = true ↔ owed tx ≤ tx.inputDust.toNat

/-- The fee is what is needed where that is positive, else the base fee. -/
def FeeLaw (inputDust outputDust outputCount : UInt64) (hasWitnesses : Bool)
    (context : TransactionBuilderContext) : Prop :=
  ((calculateDustFee inputDust outputDust outputCount hasWitnesses context).toNat : Int) =
    if 0 < needed inputDust outputDust outputCount hasWitnesses context then
      needed inputDust outputDust outputCount hasWitnesses context
    else baseFee outputCount.toNat hasWitnesses context.feeModel

/-! ## When the words are right -/

/-- The sum fits, or the words hold a rest of it that the input does not cover either. -/
def BalanceFits (tx : Transaction) : Prop :=
  owed tx < 18446744073709551616 ∨ tx.inputDust.toNat < owed tx % 18446744073709551616

/-- The overhead of the outputs that 32 bits do not count. -/
def uncounted (outputCount : UInt64) (context : TransactionBuilderContext) : Nat :=
  overhead (outputCount.toNat / 4294967296 * 4294967296) context

/-- No overhead is lost and what is needed fits; or some is lost, and it makes up for
nothing else being owed but a base fee that happens to agree with it. -/
def FeeFits (inputDust outputDust outputCount : UInt64) (hasWitnesses : Bool)
    (context : TransactionBuilderContext) : Prop :=
  let need := needed inputDust outputDust outputCount hasWitnesses context
  let base := baseFee outputCount.toNat hasWitnesses context.feeModel
  let lost := uncounted outputCount context % 18446744073709551616
  lost = 0 ∧ 0 ≤ need ∧ need < 18446744073709551616 ∨
    lost ≠ 0 ∧ inputDust.toNat + overhead outputCount.toNat context = outputDust.toNat ∧
      base = lost

/-! ## The check -/

theorem balanceLaw_iff (tx : Transaction) : BalanceLaw tx ↔ BalanceFits tx := by
  have sum : (tx.outputDust + tx.fees + UInt64.ofNat tx.outputs.length * 128).toNat =
      owed tx % 18446744073709551616 := by
    rw [UInt64.toNat_add, UInt64.toNat_add, UInt64.toNat_mul, UInt64.toNat_ofNat', owed]
    change (_ + _ % 2 ^ 64 * 128 % 2 ^ 64) % 2 ^ 64 = _
    omega
  have checked : verifyDustBalance tx = true ↔
      owed tx % 18446744073709551616 ≤ tx.inputDust.toNat := by
    rw [verifyDustBalance, decide_eq_true_iff, ge_iff_le, UInt64.le_iff_toNat_le, sum]
  have small := tx.inputDust.toNat_lt
  rw [BalanceLaw, checked, BalanceFits]
  omega

/-! ## The fee -/

theorem toNat_baseFee (outputCount : UInt64) (hasWitnesses : Bool) (fees : FeeModelConfig) :
    (if hasWitnesses then
        outputCount * fees.baseDustPerOutput + outputCount * fees.witnessDustPerOutput
      else outputCount * fees.baseDustPerOutput).toNat =
      baseFee outputCount.toNat hasWitnesses fees % 18446744073709551616 := by
  cases hasWitnesses with
  | false =>
    rw [baseFee, if_neg (by decide), if_neg (by decide), UInt64.toNat_mul]
    rfl
  | true =>
    rw [baseFee, if_pos rfl, if_pos rfl, UInt64.toNat_add, UInt64.toNat_mul, UInt64.toNat_mul,
      Nat.mul_add]
    omega

theorem toNat_commitmentDustOverhead (outputCount : UInt32) (context : TransactionBuilderContext) :
    (commitmentDustOverhead outputCount context).toNat =
      overhead outputCount.toNat context % 18446744073709551616 := by
  have scaled : (larger 1 (context.protocolParams.utxoCostPerByte / 1024)).toNat =
      max 1 (context.protocolParams.utxoCostPerByte.toNat / 1024) := by
    have cost : (context.protocolParams.utxoCostPerByte / 1024).toNat =
        context.protocolParams.utxoCostPerByte.toNat / 1024 := UInt64.toNat_div _ _
    have one : UInt64.toNat 1 = 1 := rfl
    unfold larger
    split
    · rename_i above
      have above := UInt64.lt_iff_toNat_lt.mp above
      omega
    · rename_i below
      have below := UInt64.le_iff_toNat_le.mp (UInt64.not_lt.mp below)
      omega
  rw [commitmentDustOverhead, UInt64.toNat_mul, UInt64.toNat_mul, scaled, UInt32.toNat_toUInt64,
    Nat.mod_mul_mod, Nat.mul_assoc]
  rfl

/-- The counted and the uncounted outputs have the overhead between them. -/
theorem overhead_split (outputCount : UInt64) (context : TransactionBuilderContext) :
    overhead outputCount.toNat context =
      overhead outputCount.toUInt32.toNat context + uncounted outputCount context := by
  have count : outputCount.toNat =
      outputCount.toUInt32.toNat + outputCount.toNat / 4294967296 * 4294967296 := by
    rw [UInt64.toNat_toUInt32]
    omega
  rw [uncounted, overhead, overhead, overhead, ← Nat.add_mul, ← count]

theorem feeLaw_iff (inputDust outputDust outputCount : UInt64) (hasWitnesses : Bool)
    (context : TransactionBuilderContext) :
    FeeLaw inputDust outputDust outputCount hasWitnesses context ↔
      FeeFits inputDust outputDust outputCount hasWitnesses context := by
  have base := toNat_baseFee outputCount hasWitnesses context.feeModel
  have counted := toNat_commitmentDustOverhead outputCount.toUInt32 context
  have split := overhead_split outputCount context
  have hinput := inputDust.toNat_lt
  have houtput := outputDust.toNat_lt
  unfold FeeLaw FeeFits needed calculateDustFee
  dsimp only
  generalize (if hasWitnesses then
        outputCount * context.feeModel.baseDustPerOutput +
          outputCount * context.feeModel.witnessDustPerOutput
      else outputCount * context.feeModel.baseDustPerOutput) = baseWord at base ⊢
  generalize commitmentDustOverhead outputCount.toUInt32 context = overheadWord at counted ⊢
  have total : (inputDust - outputDust + baseWord + overheadWord).toNat =
      (18446744073709551616 - outputDust.toNat + inputDust.toNat + baseWord.toNat +
        overheadWord.toNat) % 18446744073709551616 := by
    rw [UInt64.toNat_add, UInt64.toNat_add, UInt64.toNat_sub]
    omega
  generalize inputDust - outputDust + baseWord + overheadWord = totalWord at total ⊢
  generalize baseFee outputCount.toNat hasWitnesses context.feeModel = B at base ⊢
  generalize overhead outputCount.toUInt32.toNat context = V at counted split
  generalize uncounted outputCount context = U at split ⊢
  generalize overhead outputCount.toNat context = W at split ⊢
  have zero : totalWord > 0 ↔ 0 < totalWord.toNat := UInt64.lt_iff_toNat_lt
  by_cases hzero : totalWord > 0
  · rw [if_pos hzero]
    have positive : 0 < totalWord.toNat := zero.mp hzero
    split <;> omega
  · rw [if_neg hzero]
    have nothing : totalWord.toNat = 0 := Nat.eq_zero_of_not_pos fun h => hzero (zero.mpr h)
    split <;> omega

instance (tx : Transaction) : Decidable (BalanceFits tx) := inferInstanceAs (Decidable (_ ∨ _))

instance (inputDust outputDust outputCount : UInt64) (hasWitnesses : Bool)
    (context : TransactionBuilderContext) :
    Decidable (FeeFits inputDust outputDust outputCount hasWitnesses context) :=
  inferInstanceAs (Decidable (_ ∨ _))

/-- **When the accounting is exact**, the balance check and the fee. -/
theorem dustAccounting_iff (tx : Transaction) (inputDust outputDust outputCount : UInt64)
    (hasWitnesses : Bool) (context : TransactionBuilderContext) :
    (BalanceLaw tx ↔ BalanceFits tx) ∧
      (FeeLaw inputDust outputDust outputCount hasWitnesses context ↔
        FeeFits inputDust outputDust outputCount hasWitnesses context) := by
  constructor
  · exact balanceLaw_iff tx
  · exact feeLaw_iff inputDust outputDust outputCount hasWitnesses context

/-- A transaction without input owes `2 ^ 64` and passes the check; and 2000 spent
without input cost more than there is. -/
theorem dustAccounting_wraps :
    ¬BalanceLaw { outputDust := 18446744073709551615, fees := 1 } ∧
      ¬FeeLaw 0 2000 1 false {} := by
  rw [balanceLaw_iff, feeLaw_iff]
  constructor <;> decide

example : FeeFits 3000 1000 2 true {} := by decide

end DustAccounting

end MidnightSdk.UtxoTransactions
