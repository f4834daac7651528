import MidnightSdk.Wallet.Balancing

/-!
# Balancing a finalized transaction

`balanceFinalized` leaves the transaction alone and adds one that spends the
selected coins back to the sender. Its first output already returns everything
but the fee; when the change passes the dust threshold it is appended as a
second output, after the hash was taken.
-/

namespace MidnightSdk.Wallet

open Cpp Words Prefixes Json

variable (env : Env) (fc : FeeConstants) (shuffle : Shuffle UtxoWithMeta)

/-- Steps 1 to 3 of the routine. -/
structure FinalizedPlan where
  shortfall : UInt64
  selection : UtxoSelectionResult
  actualFee : UInt64
  changeAmount : UInt64

def TransactionBalancer.finalizedPlan (b : TransactionBalancer) (tx : Json) :
    Throws FinalizedPlan := do
  let shortfall ← shortfallOf tx
  let feeEstimate ← fc.estimateFeeFromTx tx
  let totalNeeded := shortfall + feeEstimate
  let selection := b.selectUtxos fc shuffle totalNeeded
  let actualFee := fc.spendingFee selection.selected
  let changeAmount := selection.totalAmount - shortfall - actualFee
  return { shortfall, selection, actualFee, changeAmount }

/-- The output returning the selected coins to the sender. -/
def TransactionBalancer.senderOutput (b : TransactionBalancer) (sender : String)
    (amount : UInt64) : Json :=
  .ofFields [("receiver", .string sender), ("amount", .unsigned amount),
    ("token_type", .string b.tokenType)]

/-- The members of the balancing transaction when its hash is taken. -/
def TransactionBalancer.finalizedBody (b : TransactionBalancer) (plan : FinalizedPlan)
    (originalHash sender : String) (ttl : Int64) : Fields :=
  let outputs :=
    if sender.isEmpty then []
    else [b.senderOutput sender (plan.selection.totalAmount - plan.actualFee)]
  [("type", Json.string "balancing_transaction"),
    ("original_tx_hash", .string originalHash),
    ("balancing_type", .string "finalized"),
    ("fee", .unsigned plan.actualFee),
    ("inputs", .array (plan.selection.selected.map inputEntry)),
    ("outputs", .array outputs),
    ("ttl", .integer (ttlSeconds ttl))].foldl (fun fields p => assign p.1 p.2 fields) []

def TransactionBalancer.changeOutput (b : TransactionBalancer) (sender : String)
    (changeAmount : UInt64) : Json :=
  .ofFields [("receiver", .string sender), ("amount", .unsigned changeAmount),
    ("token_type", .string b.tokenType), ("is_change", .bool true)]

/-- Step 5: change of at least the dust threshold is appended to the outputs. -/
def TransactionBalancer.addChangeOutput (b : TransactionBalancer) (plan : FinalizedPlan)
    (sender : String) (balTx : Json) : Throws Json :=
  if plan.changeAmount ≥ fc.minDustOutput ∧ ¬ sender.isEmpty then do
    let outputs ← ((balTx.find? "outputs").getD .null).pushBack
      (b.changeOutput sender plan.changeAmount)
    balTx.set "outputs" outputs
  else .ok balTx

def TransactionBalancer.balanceFinalized (b : TransactionBalancer) (finalizedTx : Json)
    (_kinds : TokenKindsToBalance) (ttl : Int64) : Throws SimpleBalancingRecipe := do
  let plan ← b.finalizedPlan fc shuffle finalizedTx
  if plan.selection.selected.isEmpty ∧ plan.shortfall > 0 then
    return { type := .finalized, error := "Insufficient UTXOs to balance finalized transaction" }
  else do
    let originalHash ← finalizedTx.valueString "tx_hash" ""
    let sender ← finalizedTx.valueString "sender" ""
    let body := Json.object (b.finalizedBody plan originalHash sender ttl)
    let balTx ← body.set "tx_hash" (.string (env.hashTransaction body))
    let balTx ← b.addChangeOutput fc plan sender balTx
    return { type := .finalized, transactions := [finalizedTx, balTx], needsSignature := true,
             totalFee := plan.actualFee, success := true }

/-! ## The balancing transaction -/

variable {env fc shuffle} {b : TransactionBalancer}

@[simp] theorem senderOutput_amount (sender : String) (amount : UInt64) :
    (b.senderOutput sender amount).valueUInt64 "amount" 0 = .ok amount := by
  simp [TransactionBalancer.senderOutput, ofFields, valueUInt64, value, getUInt64]

@[simp] theorem changeOutput_amount (sender : String) (amount : UInt64) :
    (b.changeOutput sender amount).valueUInt64 "amount" 0 = .ok amount := by
  simp [TransactionBalancer.changeOutput, ofFields, valueUInt64, value, getUInt64]

section Body
variable (plan : FinalizedPlan) (originalHash sender : String) (ttl : Int64)

theorem finalizedBody_inputs :
    lookup "inputs" (b.finalizedBody plan originalHash sender ttl) =
      some (.array (plan.selection.selected.map inputEntry)) := by
  simp [TransactionBalancer.finalizedBody]

theorem finalizedBody_outputs :
    lookup "outputs" (b.finalizedBody plan originalHash sender ttl) =
      some (.array (if sender.isEmpty then []
        else [b.senderOutput sender (plan.selection.totalAmount - plan.actualFee)])) := by
  simp [TransactionBalancer.finalizedBody]

theorem finalizedBody_fee :
    lookup "fee" (b.finalizedBody plan originalHash sender ttl) = some (.unsigned plan.actualFee) := by
  simp [TransactionBalancer.finalizedBody]

theorem finalizedBody_hash :
    lookup "tx_hash" (b.finalizedBody plan originalHash sender ttl) = none := by
  simp [TransactionBalancer.finalizedBody, lookup]

end Body

/-- A balancing transaction conserves value: its inputs pay for its outputs and
its fee, no subtraction behind an output wrapped, and its hash is that of the
transaction as returned. -/
structure FinalizedConserves (env : Env) (tx balTx : Json) : Prop where
  conserved : exactTotal "inputs" balTx = exactTotal "outputs" balTx + feeOf balTx
  senderUnwrapped : 0 < countOutputs balTx → feeOf balTx ≤ totalOf "inputs" balTx
  changeUnwrapped : 1 < countOutputs balTx → ∀ shortfall, shortfallOf tx = .ok shortfall →
    shortfall.toNat + feeOf balTx ≤ totalOf "inputs" balTx
  hash : txHash? balTx = some (env.hashTransaction (balTx.erase "tx_hash"))

/-- When the routine conserves value, in terms of the coins it selects: with a
sender, their sum and the fee fit and the change stays below the dust
threshold, so that no second output is appended; without one, the fee uses
them up. -/
def FinalizedFits (fc : FeeConstants) (shuffle : Shuffle UtxoWithMeta) (b : TransactionBalancer)
    (tx : Json) : Prop :=
  ∃ shortfall estimate sender, shortfallOf tx = .ok shortfall ∧
    fc.estimateFeeFromTx tx = .ok estimate ∧ tx.valueString "sender" "" = .ok sender ∧
    let coins := coveringPrefix fc (shortfall + estimate) (shuffle.run b.filterByTokenType)
    let fee := fc.spendingFee coins
    if sender.isEmpty then worth coins = fee.toNat
    else worth coins < 2 ^ 64 ∧ fee.toNat ≤ worth coins ∧
      wrapSum (amounts coins) - shortfall - fee < fc.minDustOutput

theorem finalizedPlan_ok {tx : Json} {plan : FinalizedPlan}
    (h : b.finalizedPlan fc shuffle tx = .ok plan) :
    ∃ estimate, shortfallOf tx = .ok plan.shortfall ∧ fc.estimateFeeFromTx tx = .ok estimate ∧
      plan.selection = b.selectUtxos fc shuffle (plan.shortfall + estimate) ∧
      plan.actualFee = fc.spendingFee plan.selection.selected ∧
      plan.changeAmount = plan.selection.totalAmount - plan.shortfall - plan.actualFee := by
  obtain ⟨shortfall, hs, h⟩ := bind_eq_ok.mp h
  obtain ⟨estimate, he, h⟩ := bind_eq_ok.mp h
  cases h
  exact ⟨estimate, hs, he, rfl, rfl, rfl⟩

/-- What a successful call returns: the hash covers the body before any change
was appended. -/
theorem balanceFinalized_ok {tx : Json} {kinds : TokenKindsToBalance} {ttl : Int64}
    {recipe : SimpleBalancingRecipe}
    (h : b.balanceFinalized env fc shuffle tx kinds ttl = .ok recipe)
    (hs : recipe.success = true) :
    ∃ plan originalHash sender balTx, b.finalizedPlan fc shuffle tx = .ok plan ∧
      tx.valueString "sender" "" = .ok sender ∧ recipe.transactions = [tx, balTx] ∧
      b.addChangeOutput fc plan sender (.object (assign "tx_hash"
        (.string (env.hashTransaction (.object (b.finalizedBody plan originalHash sender ttl))))
        (b.finalizedBody plan originalHash sender ttl))) = .ok balTx := by
  obtain ⟨plan, hplan, h⟩ := bind_eq_ok.mp h
  split at h
  · cases h
    cases hs
  · obtain ⟨originalHash, -, h⟩ := bind_eq_ok.mp h
    obtain ⟨sender, hsender, h⟩ := bind_eq_ok.mp h
    obtain ⟨hashed, hhashed, h⟩ := bind_eq_ok.mp h
    cases hhashed
    obtain ⟨balTx, hbal, h⟩ := bind_eq_ok.mp h
    cases h
    exact ⟨plan, originalHash, sender, balTx, hplan, hsender, rfl, hbal⟩

/-- The coins of a plan are the covering prefix for its need. -/
theorem finalizedPlan_coins {tx : Json} {plan : FinalizedPlan}
    (h : b.finalizedPlan fc shuffle tx = .ok plan) :
    ∃ estimate, shortfallOf tx = .ok plan.shortfall ∧ fc.estimateFeeFromTx tx = .ok estimate ∧
      plan.selection.selected =
        coveringPrefix fc (plan.shortfall + estimate) (shuffle.run b.filterByTokenType) ∧
      plan.selection.totalAmount = wrapSum (amounts plan.selection.selected) ∧
      plan.actualFee = fc.spendingFee plan.selection.selected ∧
      plan.changeAmount = plan.selection.totalAmount - plan.shortfall - plan.actualFee := by
  obtain ⟨estimate, hs, he, hsel, hfee, hchange⟩ := finalizedPlan_ok h
  refine ⟨estimate, hs, he, ?_, ?_, hfee, hchange⟩
  · rw [hsel, selectUtxos_selected]
  · rw [hsel, selectUtxos_total, selectUtxos_selected]

/-! ## What it is worth -/

/-- The members of a balancing transaction that its value depends on. -/
structure Pays (m : Fields) (coins : List UtxoWithMeta) (outputs : List Json) (fee : UInt64) :
    Prop where
  inputs : lookup "inputs" m = some (.array (coins.map inputEntry))
  outputs : lookup "outputs" m = some (.array outputs)
  fee : lookup "fee" m = some (.unsigned fee)

variable {m : Fields} {coins : List UtxoWithMeta} {outputs : List Json} {fee : UInt64}

theorem Pays.sideAmounts_inputs (h : Pays m coins outputs fee) :
    sideAmounts "inputs" (.object m) = .ok (amounts coins) := by
  simp [sideAmounts, h.inputs, entryAmounts_inputs]

theorem Pays.exactTotal_inputs (h : Pays m coins outputs fee) :
    exactTotal "inputs" (.object m) = worth coins := by
  simp only [exactTotal, h.sideAmounts_inputs, worth]

theorem Pays.totalOf_inputs (h : Pays m coins outputs fee) :
    totalOf "inputs" (.object m) = (wrapSum (amounts coins)).toNat := by
  simp only [totalOf, extractTotal_eq, h.sideAmounts_inputs, Except.map]

theorem Pays.feeOf (h : Pays m coins outputs fee) : feeOf (.object m) = fee.toNat :=
  recordedFee_eq h.fee

theorem Pays.exactTotal_outputs (h : Pays m coins outputs fee) (xs : List UInt64)
    (hx : entryAmounts outputs = .ok xs) : exactTotal "outputs" (.object m) = exactSum xs := by
  simp only [exactTotal, sideAmounts, find?_object, h.outputs, hx]

theorem Pays.countOutputs (h : Pays m coins outputs fee) :
    countOutputs (.object m) = UInt64.ofNat outputs.length := by
  simp only [Wallet.countOutputs, countSide, find?_object, h.outputs]

/-- Writing another member changes nothing the value depends on. -/
theorem Pays.assign_tx_hash (h : Pays m coins outputs fee) (v : Json) :
    Pays (assign "tx_hash" v m) coins outputs fee :=
  ⟨by rw [lookup_assign_of_ne (by decide), h.inputs],
    by rw [lookup_assign_of_ne (by decide), h.outputs],
    by rw [lookup_assign_of_ne (by decide), h.fee]⟩

theorem Pays.assign_outputs (h : Pays m coins outputs fee) (outputs' : List Json) :
    Pays (assign "outputs" (.array outputs') m) coins outputs' fee :=
  ⟨by rw [lookup_assign_of_ne (by decide), h.inputs], lookup_assign_self _ _ _,
    by rw [lookup_assign_of_ne (by decide), h.fee]⟩

/-- Change is paid twice when it is appended: the sender's output already
contains it. -/
theorem appended_change_not_conserved {tx : Json} {sender : String} {change : UInt64}
    (h : Pays m coins [b.senderOutput sender (wrapSum (amounts coins) - fee),
      b.changeOutput sender change] fee) (hpos : 0 < change) :
    ¬ FinalizedConserves env tx (.object m) := by
  rintro ⟨conserved, unwrapped, -, -⟩
  rw [h.exactTotal_inputs, h.feeOf, h.exactTotal_outputs
    [wrapSum (amounts coins) - fee, change] (by
      simp [entryAmounts, List.mapM_cons, bind, Except.bind, pure, Except.pure])] at conserved
  rw [h.countOutputs, h.feeOf, h.totalOf_inputs] at unwrapped
  have hle : fee ≤ wrapSum (amounts coins) := UInt64.le_iff_toNat_le.mpr (unwrapped (by simp))
  have hsum : (wrapSum (amounts coins)).toNat = worth coins % 2 ^ 64 := toNat_wrapSum _
  have := UInt64.lt_iff_toNat_lt.mp hpos
  have := change.toNat_lt
  have := UInt64.le_iff_toNat_le.mp hle
  simp only [exactSum_cons, exactSum_nil, UInt64.toNat_sub_of_le _ _ hle, UInt64.toNat_zero] at *
  omega

/-- With no change appended, a sender gets back exactly what the fee leaves. -/
theorem sender_output_conserves_iff {tx : Json} {sender : String}
    (h : Pays m coins [b.senderOutput sender (wrapSum (amounts coins) - fee)] fee)
    (hhash : txHash? (.object m) = some (env.hashTransaction ((Json.object m).erase "tx_hash"))) :
    FinalizedConserves env tx (.object m) ↔ worth coins < 2 ^ 64 ∧ fee.toNat ≤ worth coins := by
  have outputs : exactTotal "outputs" (.object m) = (wrapSum (amounts coins) - fee).toNat := by
    rw [h.exactTotal_outputs [wrapSum (amounts coins) - fee] (by
      simp [entryAmounts, List.mapM_cons, bind, Except.bind, pure, Except.pure])]
    simp
  have hsum : (wrapSum (amounts coins)).toNat = worth coins % 2 ^ 64 := toNat_wrapSum _
  constructor
  · rintro ⟨conserved, unwrapped, -, -⟩
    rw [h.countOutputs, h.feeOf, h.totalOf_inputs] at unwrapped
    have hle : fee ≤ wrapSum (amounts coins) := UInt64.le_iff_toNat_le.mpr (unwrapped (by simp))
    rw [h.exactTotal_inputs, h.feeOf, outputs, UInt64.toNat_sub_of_le _ _ hle] at conserved
    have := UInt64.le_iff_toNat_le.mp hle
    omega
  · rintro ⟨hfits, hpaid⟩
    have hle : fee ≤ wrapSum (amounts coins) := by
      rw [UInt64.le_iff_toNat_le]
      omega
    refine ⟨?_, ?_, ?_, hhash⟩
    · rw [h.exactTotal_inputs, h.feeOf, outputs, UInt64.toNat_sub_of_le _ _ hle]
      omega
    · intro _
      rw [h.feeOf, h.totalOf_inputs]
      exact UInt64.le_iff_toNat_le.mp hle
    · intro hcount
      rw [h.countOutputs] at hcount
      exact absurd hcount (by simp)

/-- With no sender there is no output, so the fee must use up the coins. -/
theorem no_output_conserves_iff {tx : Json} (h : Pays m coins [] fee)
    (hhash : txHash? (.object m) = some (env.hashTransaction ((Json.object m).erase "tx_hash"))) :
    FinalizedConserves env tx (.object m) ↔ worth coins = fee.toNat := by
  have outputs : exactTotal "outputs" (.object m) = 0 := h.exactTotal_outputs [] rfl
  have none_paid (k : UInt64) : ¬ k < Wallet.countOutputs (.object m) := by
    rw [h.countOutputs]
    exact UInt64.not_lt_zero
  constructor
  · intro hc
    have := hc.conserved
    rwa [h.exactTotal_inputs, h.feeOf, outputs, Nat.zero_add] at this
  · intro hw
    refine ⟨?_, fun hcount => absurd hcount (none_paid 0), fun hcount => absurd hcount (none_paid 1), hhash⟩
    rw [h.exactTotal_inputs, h.feeOf, outputs, hw, Nat.zero_add]

/-! ## When a call conserves value -/

/-- The hash written under `tx_hash` is that of the rest of the members. -/
theorem txHash?_assign (env : Env) {m : Fields} (hnone : lookup "tx_hash" m = none) :
    let hashed := Json.object (assign "tx_hash" (.string (env.hashTransaction (.object m))) m)
    txHash? hashed = some (env.hashTransaction (hashed.erase "tx_hash")) := by
  simp [txHash?, asString, erase, remove_assign_self, remove_of_lookup_none hnone]

theorem addChangeOutput_object {plan : FinalizedPlan} {sender : String}
    (h : lookup "outputs" m = some (.array outputs)) :
    b.addChangeOutput fc plan sender (.object m) =
      .ok (if plan.changeAmount ≥ fc.minDustOutput ∧ ¬ sender.isEmpty then
        .object (assign "outputs" (.array (outputs ++ [b.changeOutput sender plan.changeAmount])) m)
      else .object m) := by
  simp only [TransactionBalancer.addChangeOutput, find?_object, h]
  split <;> rfl

theorem finalizedBody_pays (plan : FinalizedPlan) (originalHash sender : String) (ttl : Int64) :
    Pays (b.finalizedBody plan originalHash sender ttl) plan.selection.selected
      (if sender.isEmpty then []
        else [b.senderOutput sender (plan.selection.totalAmount - plan.actualFee)]) plan.actualFee :=
  ⟨finalizedBody_inputs plan originalHash sender ttl, finalizedBody_outputs plan originalHash sender ttl,
    finalizedBody_fee plan originalHash sender ttl⟩

/-- The condition, read off the plan of the call. -/
theorem finalizedFits_iff {tx : Json} {plan : FinalizedPlan} {sender : String}
    (hplan : b.finalizedPlan fc shuffle tx = .ok plan) (hsender : tx.valueString "sender" "" = .ok sender) :
    FinalizedFits fc shuffle b tx ↔
      if sender.isEmpty then worth plan.selection.selected = plan.actualFee.toNat
      else worth plan.selection.selected < 2 ^ 64 ∧
        plan.actualFee.toNat ≤ worth plan.selection.selected ∧
        plan.changeAmount < fc.minDustOutput := by
  obtain ⟨estimate, hshort, hest, hcoins, htotal, hfee, hchange⟩ := finalizedPlan_coins hplan
  rw [hchange, htotal, hfee, hcoins]
  constructor
  · rintro ⟨shortfall', estimate', sender', hshort', hest', hsender', hfits⟩
    cases hshort.symm.trans hshort'
    cases hest.symm.trans hest'
    cases hsender.symm.trans hsender'
    exact hfits
  · exact fun hfits => ⟨_, _, _, hshort, hest, hsender, hfits⟩

/-- **A successful call conserves value exactly when its change is not paid
twice.** The sender's output already returns all that the fee leaves, so value
is conserved when the change stays below the dust threshold and nothing wraps,
and, with no sender, when the fee uses up the coins. -/
theorem finalized_conserves_iff {tx : Json} {kinds : TokenKindsToBalance} {ttl : Int64}
    {recipe : SimpleBalancingRecipe}
    (h : b.balanceFinalized env fc shuffle tx kinds ttl = .ok recipe)
    (hs : recipe.success = true) :
    (∃ balTx, recipe.transactions = [tx, balTx] ∧ FinalizedConserves env tx balTx) ↔
      FinalizedFits fc shuffle b tx := by
  obtain ⟨plan, originalHash, sender, balTx, hplan, hsender, htxs, hbal⟩ := balanceFinalized_ok h hs
  obtain ⟨-, -, -, -, htotal, -, -⟩ := finalizedPlan_coins hplan
  rw [finalizedFits_iff hplan hsender]
  have theOne : (∃ balTx, recipe.transactions = [tx, balTx] ∧ FinalizedConserves env tx balTx) ↔
      FinalizedConserves env tx balTx := by
    rw [htxs]
    exact ⟨fun ⟨_, he, hc⟩ => by cases he; exact hc, fun hc => ⟨_, rfl, hc⟩⟩
  rw [theOne]
  have pays := (finalizedBody_pays (b := b) plan originalHash sender ttl).assign_tx_hash
    (.string (env.hashTransaction (.object (b.finalizedBody plan originalHash sender ttl))))
  have hash := txHash?_assign env (finalizedBody_hash (b := b) plan originalHash sender ttl)
  rw [addChangeOutput_object pays.outputs] at hbal
  by_cases hempty : sender.isEmpty
  · simp only [hempty, ↓reduceIte, not_true_eq_false, and_false, Except.ok.injEq] at hbal pays ⊢
    subst hbal
    exact no_output_conserves_iff pays hash
  · simp only [hempty, Bool.false_eq_true, ↓reduceIte, not_false_eq_true, and_true,
      Except.ok.injEq, ge_iff_le, htotal] at hbal pays ⊢
    by_cases hchange : fc.minDustOutput ≤ plan.changeAmount
    · rw [if_pos hchange] at hbal
      subst hbal
      have twice : ¬ FinalizedConserves env tx _ := appended_change_not_conserved
        (pays.assign_outputs [b.senderOutput sender (wrapSum (amounts plan.selection.selected) -
          plan.actualFee), b.changeOutput sender plan.changeAmount])
        (UInt64.lt_of_lt_of_le fc.dust_pos hchange)
      exact iff_of_false twice fun hfits => UInt64.not_lt.mpr hchange hfits.2.2
    · rw [if_neg hchange] at hbal
      subst hbal
      have below : plan.changeAmount < fc.minDustOutput := UInt64.not_le.mp hchange
      rw [sender_output_conserves_iff pays hash, ← and_assoc, and_iff_left below]

/-- A coin of 1200 pays the fee of 240; the change of 954 is below the threshold. -/
theorem finalized_conserves_small_change :
    let tx : Json := .object [("inputs", .array [.object [("amount", .unsigned 10)]]),
      ("outputs", .array [.object [("amount", .unsigned 4)]]), ("sender", .string "alice")]
    let env : Env := ⟨fun _ => [], fun _ => [], false⟩
    let b : TransactionBalancer := ⟨[{ utxoHash := "a", amount := 1200 }], 0, "NIGHT"⟩
    ∃ recipe, b.balanceFinalized env feeConstants ⟨id, fun l => .refl l⟩ tx {} 0 = .ok recipe ∧
      ∃ balTx, recipe.transactions = [tx, balTx] ∧ FinalizedConserves env tx balTx := by
  refine ⟨_, rfl, (@finalized_conserves_iff _ feeConstants ⟨id, fun l => .refl l⟩
    ⟨[{ utxoHash := "a", amount := 1200 }], 0, "NIGHT"⟩ _ {} 0 _ rfl rfl).mpr
    ⟨6, 240, "alice", rfl, rfl, rfl, ?_⟩⟩
  rw [if_neg (by decide)]
  exact ⟨by decide, by decide, by decide⟩

/-- A coin of 5000 pays the fee of 240: the sender's output returns 4760, and
the change of 4754 is paid out again. -/
theorem finalized_pays_change_twice :
    let tx : Json := .object [("inputs", .array [.object [("amount", .unsigned 10)]]),
      ("outputs", .array [.object [("amount", .unsigned 4)]]), ("sender", .string "alice")]
    let env : Env := ⟨fun _ => [], fun _ => [], false⟩
    let b : TransactionBalancer := ⟨[{ utxoHash := "a", amount := 5000 }], 0, "NIGHT"⟩
    ∃ recipe, b.balanceFinalized env feeConstants ⟨id, fun l => .refl l⟩ tx {} 0 = .ok recipe ∧
      recipe.success = true ∧
      ¬ ∃ balTx, recipe.transactions = [tx, balTx] ∧ FinalizedConserves env tx balTx := by
  refine ⟨_, rfl, rfl, ?_⟩
  rintro ⟨balTx, he, hc⟩
  cases he
  exact absurd hc.conserved (by decide)

end MidnightSdk.Wallet
