import MidnightSdk.Library.Comparators
import MidnightSdk.Library.Prefixes
import MidnightSdk.UtxoTransactions.UtxoSetManager

/-!
# Selecting outputs

Amounts are hidden, so the selector counts: it takes outputs in a fixed order
until there are as many as it wants and their estimated DUST covers the fee of
the fewest inputs it wants.
-/

namespace MidnightSdk.UtxoTransactions

open Cpp Prefixes

structure ProtocolParams where
  minFeeA : UInt64 := 44
  minFeeB : UInt64 := 155381
  utxoCostPerByte : UInt64 := 4310
  deriving DecidableEq, Repr

structure FeeModelConfig where
  useProtocolMinFee : Bool := true
  baseTxSizeBytes : UInt32 := 64
  bytesPerInput : UInt32 := 96
  bytesPerOutput : UInt32 := 80
  bytesPerProof : UInt32 := 128
  baseDustPerOutput : UInt64 := 1000
  witnessDustPerOutput : UInt64 := 500
  commitmentBytesPerOutput : UInt64 := 128
  estimatedDustPerUtxo : UInt64 := 0
  defaultProofSize : UInt64 := 128
  deriving DecidableEq, Repr

structure TransactionBuilderContext where
  protocolParams : ProtocolParams := {}
  feeModel : FeeModelConfig := {}
  deriving DecidableEq, Repr

/-! ## Fees -/

/-- `std::max` -/
def larger (a b : UInt64) : UInt64 := if a < b then b else a

def ProtocolParams.calculateMinFee (params : ProtocolParams) (txSizeBytes : UInt32) : UInt64 :=
  txSizeBytes.toUInt64 * params.minFeeA + params.minFeeB

def estimateTxSizeBytes (inputCount outputCount : UInt32) (proofSize : UInt64)
    (context : TransactionBuilderContext) : UInt32 :=
  let fees := context.feeModel
  let estimated := fees.baseTxSizeBytes.toUInt64 +
    inputCount.toUInt64 * fees.bytesPerInput.toUInt64 +
    outputCount.toUInt64 * fees.bytesPerOutput.toUInt64 + proofSize
  if 0xFFFFFFFF < estimated then 0xFFFFFFFF else estimated.toUInt32

def commitmentDustOverhead (outputCount : UInt32) (context : TransactionBuilderContext) : UInt64 :=
  let scaledUtxoCost := larger 1 (context.protocolParams.utxoCostPerByte / 1024)
  outputCount.toUInt64 * context.feeModel.commitmentBytesPerOutput * scaledUtxoCost

/-- None where the division by the bytes of a proof traps. -/
def estimateFee (inputCount outputCount : UInt32) (proofSize : UInt64)
    (context : TransactionBuilderContext) : Option UInt64 :=
  let fees := context.feeModel
  let params := context.protocolParams
  let estimatedSize := estimateTxSizeBytes inputCount outputCount proofSize context
  let protocolFee :=
    if fees.useProtocolMinFee then params.calculateMinFee estimatedSize
    else estimatedSize.toUInt64 * params.minFeeA
  let bytesPerProof := fees.bytesPerProof.toUInt64
  if bytesPerProof = 0 then none
  else
    let proofChunks := (proofSize + bytesPerProof - 1) / bytesPerProof
    let proofOverhead := proofChunks * (params.minFeeA * 4)
    let baseDust := outputCount.toUInt64 * fees.baseDustPerOutput
    let commitmentFee := commitmentDustOverhead outputCount context
    some (protocolFee + proofOverhead + baseDust + commitmentFee)

def deriveEstimatedDustPerUtxo (context : TransactionBuilderContext) : UInt64 :=
  if context.feeModel.estimatedDustPerUtxo > 0 then context.feeModel.estimatedDustPerUtxo
  else larger 1000 (context.protocolParams.minFeeB / 2)

/-- The estimate for a number of outputs. -/
def dustOf (count : Nat) (context : TransactionBuilderContext) : UInt64 :=
  UInt64.ofNat count * deriveEstimatedDustPerUtxo context

def estimateDustAvailable (utxos : List Utxo) (context : TransactionBuilderContext) : UInt64 :=
  dustOf utxos.length context

/-! ## The selector -/

/-- `operator<` of strings -/
def textLess : List Char → List Char → Bool := sequenceLess fun a b => a.toNat < b.toNat

/-- The comparison `std::sort` is given. -/
def preferred (lhs rhs : Utxo) : Bool :=
  if lhs.finalityDepth ≠ rhs.finalityDepth then
    rhs.finalityDepth.toNat < lhs.finalityDepth.toNat
  else if lhs.confirmedHeight ≠ rhs.confirmedHeight then
    lhs.confirmedHeight.toNat < rhs.confirmedHeight.toNat
  else if lhs.txHash ≠ rhs.txHash then textLess lhs.txHash rhs.txHash
  else if lhs.outputIndex ≠ rhs.outputIndex then lhs.outputIndex.toNat < rhs.outputIndex.toNat
  else if lhs.address ≠ rhs.address then textLess lhs.address rhs.address
  else textLess lhs.amountCommitment rhs.amountCommitment

def minInputs (outputCount : UInt32) (needsWitnesses : Bool) : Nat :=
  if needsWitnesses then max 2 outputCount.toNat else max 1 outputCount.toNat

def proofSizeHint (needsWitnesses : Bool) (context : TransactionBuilderContext) : UInt64 :=
  if needsWitnesses then context.feeModel.defaultProofSize else 0

/-- The fee of a transaction with this many inputs. -/
def feeOf (count : Nat) (outputCount : UInt32) (needsWitnesses : Bool)
    (context : TransactionBuilderContext) : Option UInt64 :=
  estimateFee (UInt32.ofNat count) outputCount (proofSizeHint needsWitnesses context) context

/-- The loop stops with so many outputs. -/
def Enough (minInputs : Nat) (requiredDust : UInt64) (context : TransactionBuilderContext)
    (count : Nat) : Prop :=
  minInputs ≤ count ∧ requiredDust ≤ dustOf count context

instance (minInputs : Nat) (requiredDust : UInt64) (context : TransactionBuilderContext) :
    DecidablePred (Enough minInputs requiredDust context) :=
  fun _ => inferInstanceAs (Decidable (_ ∧ _))

/-- The selection, if there is one, once the fee is known. -/
def selectOrdered (ordered : List Utxo) (minInputs : Nat) (requiredDust : UInt64)
    (context : TransactionBuilderContext) : Option (List Utxo) :=
  match shortestPrefix (fun selected => Enough minInputs requiredDust context selected.length)
      ordered with
  | some selected => some selected
  | none => if estimateDustAvailable ordered context < requiredDust then none else some ordered

/-- Nothing where the fee cannot be computed, else what the call returns. -/
def selectUtxos (sorter : Sorter Utxo) (available : List Utxo) (outputCount : UInt32)
    (needsWitnesses : Bool) (context : TransactionBuilderContext) : Option (Option (List Utxo)) :=
  if available.isEmpty then some none
  else if outputCount = 0 then some none
  else do
    let minInputs := minInputs outputCount needsWitnesses
    let requiredDust ← feeOf minInputs outputCount needsWitnesses context
    return selectOrdered (sorter.run preferred available) minInputs requiredDust context

/-! ## What a selection should be -/

structure Sound (selected : List Utxo) (outputCount : UInt32) (needsWitnesses : Bool)
    (context : TransactionBuilderContext) : Prop where
  supplied : minInputs outputCount needsWitnesses ≤ selected.length
  unspent : ∀ u ∈ selected, u.isSpent = false
  once : (selected.map fun u => (u.txHash, u.outputIndex)).Nodup
  paid : ∃ fee, feeOf selected.length outputCount needsWitnesses context = some fee ∧
    fee ≤ estimateDustAvailable selected context

/-- What the inputs have to meet. Too few outputs must not cover the fee; else
the first of them in the selector's order, as many as first cover it, are unspent
and different, and cover the fee for their own number if that is not the least. -/
structure Selectable (ordered : List Utxo) (outputCount : UInt32) (needsWitnesses : Bool)
    (context : TransactionBuilderContext) (requiredDust : UInt64) : Prop where
  short : ordered.length < minInputs outputCount needsWitnesses →
    dustOf ordered.length context < requiredDust
  taken : ∀ count ≤ ordered.length,
    Enough (minInputs outputCount needsWitnesses) requiredDust context count →
    (∀ fewer < count, ¬Enough (minInputs outputCount needsWitnesses) requiredDust context fewer) →
    (∀ u ∈ ordered.take count, u.isSpent = false) ∧
      ((ordered.take count).map fun u => (u.txHash, u.outputIndex)).Nodup ∧
      (count = minInputs outputCount needsWitnesses ∨
        ∃ fee, feeOf count outputCount needsWitnesses context = some fee ∧
          fee ≤ dustOf count context)

/-! ## The order -/

/-- The fields the comparison looks at. -/
def Utxo.compared (u : Utxo) :
    UInt32 × UInt32 × List Char × UInt32 × List Char × List Char :=
  (u.finalityDepth, u.confirmedHeight, u.txHash, u.outputIndex, u.address, u.amountCommitment)

def comparedLess : UInt32 × UInt32 × List Char × UInt32 × List Char × List Char →
    UInt32 × UInt32 × List Char × UInt32 × List Char × List Char → Bool :=
  lexicographic (fun a b => b.toNat < a.toNat) <| lexicographic (fun a b => a.toNat < b.toNat) <|
    lexicographic textLess <| lexicographic (fun a b => a.toNat < b.toNat) <|
    lexicographic textLess textLess

theorem preferred_eq : preferred = fun lhs rhs => comparedLess lhs.compared rhs.compared := by
  funext lhs rhs
  simp only [preferred, comparedLess, lexicographic, Utxo.compared, ite_not]
  rfl

theorem comparedLess_total : StrictTotal comparedLess := by
  have index : StrictTotal fun a b : UInt32 => decide (a.toNat < b.toNat) :=
    .ofNat fun _ _ => UInt32.toNat_inj.mp
  have character : StrictTotal fun a b : Char => decide (a.toNat < b.toNat) :=
    .ofNat fun _ _ => Char.toNat_inj.mp
  have text : StrictTotal textLess := character.sequenceLess
  exact index.flip.lexicographic <| index.lexicographic <| text.lexicographic <|
    index.lexicographic <| text.lexicographic text

/-- The order of the list does not matter, nor does the way it is sorted. -/
theorem selectUtxos_perm (sorter sorter' : Sorter Utxo) {available available' : List Utxo}
    (hperm : available'.Perm available) (hfields : (available.map Utxo.compared).Nodup)
    (outputCount : UInt32) (needsWitnesses : Bool) (context : TransactionBuilderContext) :
    selectUtxos sorter' available' outputCount needsWitnesses context =
      selectUtxos sorter available outputCount needsWitnesses context := by
  have sorted : sorter'.run preferred available' = sorter.run preferred available := by
    rw [preferred_eq]
    exact Sorter.run_eq sorter' sorter comparedLess_total hperm hfields
  rw [selectUtxos, selectUtxos, sorted, hperm.isEmpty_eq]

/-! ## The selection -/

theorem minInputs_pos (outputCount : UInt32) (needsWitnesses : Bool) :
    0 < minInputs outputCount needsWitnesses := by
  unfold minInputs
  split <;> omega

/-- The loop stops at the least count that is enough; the fallback returns
everything where that is too few. -/
theorem selectOrdered_eq_some {ordered selected : List Utxo} {minInputs : Nat}
    {requiredDust : UInt64} {context : TransactionBuilderContext} (hmin : 0 < minInputs) :
    selectOrdered ordered minInputs requiredDust context = some selected ↔
      (∃ count ≤ ordered.length, selected = ordered.take count ∧
        Enough minInputs requiredDust context count ∧
        ∀ fewer < count, ¬Enough minInputs requiredDust context fewer) ∨
      ordered.length < minInputs ∧ requiredDust ≤ dustOf ordered.length context ∧
        selected = ordered := by
  have hzero : ¬Enough minInputs requiredDust context 0 := fun h => absurd h.1 (by omega)
  rw [← isShortest_of_length hzero, ← shortestPrefix_eq_some, selectOrdered]
  cases hloop : shortestPrefix (fun q => Enough minInputs requiredDust context q.length) ordered with
  | some p =>
    have stopped := shortestPrefix_isShortest hloop
    have enough : minInputs ≤ ordered.length :=
      Nat.le_trans stopped.passes.1 stopped.isPrefix.length_le
    refine (or_iff_left ?_).symm
    rintro ⟨hshort, -, -⟩
    omega
  | none =>
    have never := shortestPrefix_eq_none.mp hloop
    simp only [reduceCtorEq, false_or]
    by_cases hpaid : estimateDustAvailable ordered context < requiredDust
    · rw [if_pos hpaid]
      exact ⟨nofun, fun h => absurd hpaid (UInt64.not_lt.mpr h.2.1)⟩
    · rw [if_neg hpaid, Option.some.injEq]
      have covered : requiredDust ≤ dustOf ordered.length context := UInt64.not_lt.mp hpaid
      refine ⟨fun h => ⟨?_, covered, h.symm⟩, fun h => h.2.2.symm⟩
      by_contra hlong
      have nonempty : ordered ≠ [] := by
        rintro rfl
        exact hlong hmin
      exact never ordered nonempty List.prefix_rfl ⟨Nat.le_of_not_lt hlong, covered⟩

theorem selectUtxos_eq_some {sorter : Sorter Utxo} {available selected : List Utxo}
    {outputCount : UInt32} {needsWitnesses : Bool} {context : TransactionBuilderContext} :
    selectUtxos sorter available outputCount needsWitnesses context = some (some selected) ↔
      available ≠ [] ∧ outputCount ≠ 0 ∧ ∃ requiredDust,
        feeOf (minInputs outputCount needsWitnesses) outputCount needsWitnesses context =
          some requiredDust ∧
        selectOrdered (sorter.run preferred available) (minInputs outputCount needsWitnesses)
          requiredDust context = some selected := by
  unfold selectUtxos
  by_cases hempty : available = []
  · simp [hempty]
  · by_cases hzero : outputCount = 0
    · simp [hzero]
    · rw [if_neg (by simpa using hempty), if_neg hzero]
      simp [hempty, hzero, Option.bind_eq_some_iff]

/-- The count a selection has to stop at for its fee to be covered. -/
theorem sound_take_iff {ordered : List Utxo} {outputCount : UInt32} {needsWitnesses : Bool}
    {context : TransactionBuilderContext} {requiredDust : UInt64} {count : Nat}
    (hfee : feeOf (minInputs outputCount needsWitnesses) outputCount needsWitnesses context =
      some requiredDust) (hcount : count ≤ ordered.length)
    (henough : Enough (minInputs outputCount needsWitnesses) requiredDust context count) :
    Sound (ordered.take count) outputCount needsWitnesses context ↔
      (∀ u ∈ ordered.take count, u.isSpent = false) ∧
        ((ordered.take count).map fun u => (u.txHash, u.outputIndex)).Nodup ∧
        (count = minInputs outputCount needsWitnesses ∨
          ∃ fee, feeOf count outputCount needsWitnesses context = some fee ∧
            fee ≤ dustOf count context) := by
  have length : (ordered.take count).length = count := List.length_take_of_le hcount
  constructor
  · rintro ⟨-, unspent, once, paid⟩
    rw [length, estimateDustAvailable, length] at paid
    exact ⟨unspent, once, .inr paid⟩
  · rintro ⟨unspent, once, paid⟩
    refine ⟨length.symm ▸ henough.1, unspent, once, ?_⟩
    rw [length, estimateDustAvailable, length]
    rcases paid with rfl | paid
    · exact ⟨requiredDust, hfee, henough.2⟩
    · exact paid

/-- **Which inputs get a sound selection.** And a selection never depends on the
order of a list whose compared fields differ. -/
theorem selectUtxos_sound_iff (sorter : Sorter Utxo) (available : List Utxo) (outputCount : UInt32)
    (needsWitnesses : Bool) (context : TransactionBuilderContext) :
    ((∀ selected, selectUtxos sorter available outputCount needsWitnesses context =
        some (some selected) → Sound selected outputCount needsWitnesses context) ↔
      (available ≠ [] → outputCount ≠ 0 → ∀ requiredDust,
        feeOf (minInputs outputCount needsWitnesses) outputCount needsWitnesses context =
          some requiredDust →
        Selectable (sorter.run preferred available) outputCount needsWitnesses context
          requiredDust)) ∧
    ∀ (sorter' : Sorter Utxo) (available' : List Utxo), available'.Perm available →
      (available.map Utxo.compared).Nodup →
      selectUtxos sorter' available' outputCount needsWitnesses context =
        selectUtxos sorter available outputCount needsWitnesses context := by
  refine ⟨?_, fun sorter' available' hperm hfields =>
    selectUtxos_perm sorter sorter' hperm hfields outputCount needsWitnesses context⟩
  have hmin := minInputs_pos outputCount needsWitnesses
  constructor
  · intro sound hne hzero requiredDust hfee
    have returned (selected : List Utxo)
        (h : selectOrdered (sorter.run preferred available)
          (minInputs outputCount needsWitnesses) requiredDust context = some selected) :
        Sound selected outputCount needsWitnesses context :=
      sound selected (selectUtxos_eq_some.mpr ⟨hne, hzero, requiredDust, hfee, h⟩)
    constructor
    · intro hshort
      by_contra hpaid
      have all := returned _ ((selectOrdered_eq_some hmin).mpr
        (.inr ⟨hshort, UInt64.not_lt.mp hpaid, rfl⟩))
      exact absurd all.supplied (Nat.not_le_of_lt hshort)
    · intro count hcount henough hfirst
      exact (sound_take_iff hfee hcount henough).mp (returned _ ((selectOrdered_eq_some hmin).mpr
        (.inl ⟨count, hcount, rfl, henough, hfirst⟩)))
  · intro selectable selected hselected
    obtain ⟨hne, hzero, requiredDust, hfee, hordered⟩ := selectUtxos_eq_some.mp hselected
    obtain ⟨short, taken⟩ := selectable hne hzero requiredDust hfee
    rcases (selectOrdered_eq_some hmin).mp hordered with
      ⟨count, hcount, rfl, henough, hfirst⟩ | ⟨hshort, hpaid, rfl⟩
    · exact (sound_take_iff hfee hcount henough).mpr (taken count hcount henough hfirst)
    · exact absurd (short hshort) (UInt64.not_lt.mpr hpaid)

/-- Three outputs out of four, whichever way round they are listed. -/
theorem selectUtxos_sound_four :
    let utxo (index : UInt32) : Utxo := { txHash := ['a'], outputIndex := index }
    selectUtxos (Sorter.merge Utxo) [utxo 3, utxo 1, utxo 0, utxo 2] 1 false {} =
      selectUtxos (Sorter.merge Utxo) [utxo 0, utxo 1, utxo 2, utxo 3] 1 false {} := by
  intro utxo
  refine (selectUtxos_sound_iff (Sorter.merge Utxo) _ 1 false {}).2 (Sorter.merge Utxo) _ ?_ ?_
  · decide
  · simp [Utxo.compared, utxo]

/-- Three copies of one spent output; one input where the function wants two; and
two inputs that pay for one. -/
theorem selectUtxos_unsound :
    let spent : Utxo := { txHash := ['a'], isSpent := true }
    let utxo (index : UInt32) : Utxo := { txHash := ['a'], outputIndex := index }
    let rich : TransactionBuilderContext := { feeModel := { estimatedDustPerUtxo := 1000000 } }
    let tight : TransactionBuilderContext := {
      protocolParams := { minFeeA := 1 }
      feeModel := {
        useProtocolMinFee := false
        baseTxSizeBytes := 5
        bytesPerInput := 9
        bytesPerOutput := 0
        baseDustPerOutput := 0
        commitmentBytesPerOutput := 0
        estimatedDustPerUtxo := 10 } }
    (selectUtxos (Sorter.merge Utxo) [spent, spent, spent] 1 false {} =
        some (some [spent, spent, spent]) ∧ ¬Sound [spent, spent, spent] 1 false {}) ∧
    (selectUtxos (Sorter.merge Utxo) [utxo 0] 2 false rich = some (some [utxo 0]) ∧
      ¬Sound [utxo 0] 2 false rich) ∧
    (selectUtxos (Sorter.merge Utxo) [utxo 0, utxo 1] 1 false tight = some (some [utxo 0, utxo 1]) ∧
      ¬Sound [utxo 0, utxo 1] 1 false tight) := by
  intro spent utxo rich tight
  refine ⟨⟨?_, ?_⟩, ⟨?_, ?_⟩, ?_, ?_⟩
  · rw [selectUtxos, Sorter.merge_of_sorted (by decide)]
    decide
  · intro sound
    exact absurd (sound.unspent spent (List.mem_cons_self ..)) (by decide)
  · rw [selectUtxos, Sorter.merge_of_sorted (by decide)]
    decide
  · intro sound
    exact absurd sound.supplied (by decide)
  · rw [selectUtxos, Sorter.merge_of_sorted (by decide)]
    decide
  · intro sound
    obtain ⟨fee, hfee, hpaid⟩ := sound.paid
    have fee_eq : feeOf 2 1 false tight = some 23 := by decide
    obtain rfl := Option.some.inj (hfee.symm.trans fee_eq)
    exact absurd hpaid (by decide)

end MidnightSdk.UtxoTransactions
