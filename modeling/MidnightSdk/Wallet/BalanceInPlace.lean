import MidnightSdk.Wallet.Balancing

/-!
# Balancing in place

`balanceUnbound` and `balanceUnproven` change the base transaction itself. Both
add coins only when its inputs exceed its outputs and write no change output.
The first leaves the old hash standing and puts shielded and dust balancing into
transactions of their own; the second records everything in the base.
-/

namespace MidnightSdk.Wallet

open Cpp Words Prefixes Json

variable (env : Env) (fc : FeeConstants) (shuffle : Shuffle UtxoWithMeta)

/-! ## The routines -/

/-- Append the selected coins to the inputs and mark the transaction balanced.
Inputs that are not an array are replaced. -/
def addSelected (tx : Json) (selected : List UtxoWithMeta) (actualFee : UInt64) : Throws Json := do
  let held := match tx.find? "inputs" with
    | some (.array xs) => xs
    | _ => []
  let tx ← tx.set "inputs" (.array (held ++ selected.map inputEntry))
  let tx ← tx.set "balanced_unshielded" (.bool true)
  tx.set "balancing_fee_unshielded" (.unsigned actualFee)

/-- The base transaction with coins for the shortfall, and the fee of spending
them; nothing when no coins cover it. -/
def TransactionBalancer.coverShortfall (b : TransactionBalancer) (tx : Json)
    (shortfall : UInt64) : Throws (Option (Json × UInt64)) :=
  if shortfall > 0 then do
    let feeEstimate ← fc.estimateFeeFromTx tx
    let selection := b.selectUtxos fc shuffle (shortfall + feeEstimate)
    if selection.selected.isEmpty then return none
    else do
      let actualFee := fc.spendingFee selection.selected
      let modifiedTx ← addSelected tx selection.selected actualFee
      return some (modifiedTx, actualFee)
  else .ok (some (tx, 0))

/-- A member copied from the original transaction if it is there. -/
def copied (key : String) (originalTx : Json) : List (String × Json) :=
  (originalTx.find? key).toList.map fun v => (key, v)

def Env.createBalancingTransaction (originalTx : Json) (sender : String) (fee : UInt64)
    (balancingType : String) (ttl : Int64) : Throws Json := do
  let originalHash ← originalTx.valueString "tx_hash" ""
  let balTx := Json.ofFields ([("type", Json.string "balancing_transaction"),
    ("original_tx_hash", .string originalHash), ("sender", .string sender),
    ("fee", .unsigned fee), ("balancing_type", .string balancingType),
    ("ttl", .integer (ttlSeconds ttl))] ++ copied "inputs" originalTx ++ copied "outputs" originalTx)
  balTx.set "tx_hash" (.string (env.hashTransaction balTx))

def FeeConstants.shieldedFee (fc : FeeConstants) : UInt64 := fc.calculateFee 1 1 true

def FeeConstants.dustFee (fc : FeeConstants) : UInt64 := fc.calculateFee 1 1 false

def Env.shieldedSide (tx : Json) (kinds : TokenKindsToBalance) (ttl : Int64) : Throws (List Json) :=
  if kinds.shouldBalanceShielded then do
    let sender ← tx.valueString "sender" ""
    return [← env.createBalancingTransaction tx sender fc.shieldedFee "shielded" ttl]
  else .ok []

def Env.dustSide (tx : Json) (kinds : TokenKindsToBalance) (ttl : Int64) : Throws (List Json) :=
  if kinds.shouldBalanceDust then do
    let sender ← tx.valueString "sender" ""
    let receiver ← tx.valueString "dust_receiver" sender
    return [← env.createBalancingTransaction tx receiver fc.dustFee "dust_fee" ttl]
  else .ok []

/-- The log line reads the hash of the transaction, which can throw. -/
def Env.logHash (tx : Json) : Throws Unit :=
  if env.logger then (tx.valueString "tx_hash" "?").map fun _ => () else .ok ()

def TransactionBalancer.balanceUnbound (b : TransactionBalancer) (unboundTx : Json)
    (kinds : TokenKindsToBalance) (ttl : Int64) : Throws SimpleBalancingRecipe := do
  let shortfall ← shortfallOf unboundTx
  let base ← b.coverShortfall fc shuffle unboundTx
    (if kinds.shouldBalanceUnshielded then shortfall else 0)
  match base with
  | none => return { type := .unbound, error := "Insufficient UTXOs for unshielded balancing" }
  | some (modifiedTx, actualFee) => do
    let shielded ← env.shieldedSide fc unboundTx kinds ttl
    let dust ← env.dustSide fc unboundTx kinds ttl
    env.logHash unboundTx
    return { type := .unbound, transactions := modifiedTx :: (shielded ++ dust),
             needsProof := kinds.shouldBalanceShielded, totalFee := actualFee, success := true }

/-- Record a balancing kind in the transaction and add its fee to the total. -/
def markKind (requested : Bool) (flag feeKey : String) (fee : UInt64) (tx : Json)
    (totalFee : UInt64) : Throws (Json × UInt64) :=
  if requested then do
    let totalFee ← safeAdd totalFee fee
    let tx ← tx.set flag (.bool true)
    let tx ← tx.set feeKey (.unsigned fee)
    return (tx, totalFee)
  else .ok (tx, totalFee)

/-- The totals are read only when unshielded balancing is requested. -/
def requestedShortfall (tx : Json) (kinds : TokenKindsToBalance) : Throws UInt64 :=
  if kinds.shouldBalanceUnshielded then shortfallOf tx else .ok 0

def TransactionBalancer.balanceUnproven (b : TransactionBalancer) (unprovenTx : Json)
    (kinds : TokenKindsToBalance) (_ttl : Int64) : Throws SimpleBalancingRecipe := do
  let shortfall ← requestedShortfall unprovenTx kinds
  let base ← b.coverShortfall fc shuffle unprovenTx shortfall
  match base with
  | none => return { type := .unproven, error := "Insufficient UTXOs for unshielded balancing" }
  | some (mergedTx, unshieldedFee) => do
    let totalFee ← safeAdd 0 unshieldedFee
    let shielded ← markKind kinds.shouldBalanceShielded "needs_shielded_proof" "shielded_fee"
      fc.shieldedFee mergedTx totalFee
    let dust ← markKind kinds.shouldBalanceDust "needs_dust_fee" "dust_fee"
      fc.dustFee shielded.1 shielded.2
    let mergedTx ← dust.1.set "total_fee" (.unsigned dust.2)
    let mergedTx ← mergedTx.set "tx_hash" (.string (env.hashTransaction mergedTx))
    return { type := .unproven, transactions := [mergedTx],
             needsProof := kinds.shouldBalanceShielded, totalFee := dust.2, success := true }

/-! ## The base transaction -/

variable {env fc shuffle} {b : TransactionBalancer}

/-- The members after coins were added. -/
def toppedUp (m : Fields) (xs : List Json) (coins : List UtxoWithMeta) (fee : UInt64) : Fields :=
  assign "balancing_fee_unshielded" (.unsigned fee)
    (assign "balanced_unshielded" (.bool true)
      (assign "inputs" (.array (xs ++ coins.map inputEntry)) m))

/-- The base transaction for a shortfall, with the coins added to it and the
fee of spending them: the transaction itself, or topped up with the first coins
that cover the shortfall and the estimated fee. -/
inductive Base (fc : FeeConstants) (shuffle : Shuffle UtxoWithMeta) (b : TransactionBalancer)
    (m : Fields) (xs : List Json) (shortfall : UInt64) :
    List UtxoWithMeta → UInt64 → Fields → Prop where
  | unchanged : shortfall = 0 → Base fc shuffle b m xs shortfall [] 0 m
  | covered {estimate : UInt64} {coins : List UtxoWithMeta} : 0 < shortfall →
      fc.estimateFeeFromTx (.object m) = .ok estimate →
      coins = coveringPrefix fc (shortfall + estimate) (shuffle.run b.filterByTokenType) →
      coins ≠ [] →
      Base fc shuffle b m xs shortfall coins (fc.spendingFee coins)
        (toppedUp m xs coins (fc.spendingFee coins))

section Base
variable {m m' : Fields} {xs : List Json} {shortfall fee : UInt64} {coins : List UtxoWithMeta}

/-- What the shared step returns. -/
theorem coverShortfall_ok (hin : lookup "inputs" m = some (.array xs)) {base : Json}
    (h : b.coverShortfall fc shuffle (.object m) shortfall = .ok (some (base, fee))) :
    ∃ coins m', base = .object m' ∧ Base fc shuffle b m xs shortfall coins fee m' := by
  unfold TransactionBalancer.coverShortfall at h
  split at h
  · rename_i hpos
    obtain ⟨estimate, he, h⟩ := bind_eq_ok.mp h
    dsimp only at h
    split at h
    · cases h
    · rename_i hne
      obtain ⟨modified, hadd, h⟩ := bind_eq_ok.mp h
      cases h
      simp only [addSelected, find?_object, hin] at hadd
      cases hadd
      rw [selectUtxos_selected, List.isEmpty_iff] at hne
      rw [selectUtxos_selected]
      exact ⟨_, _, rfl, .covered hpos he rfl hne⟩
  · rename_i hzero
    cases h
    exact ⟨[], m, rfl, .unchanged (UInt64.not_lt.mp hzero |> UInt64.le_zero_iff.mp)⟩

theorem Base.unique {coins' : List UtxoWithMeta} {fee' : UInt64} {m'' : Fields}
    (h : Base fc shuffle b m xs shortfall coins fee m')
    (h' : Base fc shuffle b m xs shortfall coins' fee' m'') :
    coins = coins' ∧ fee = fee' ∧ m' = m'' := by
  cases h with
  | unchanged hz =>
    cases h' with
    | unchanged _ => exact ⟨rfl, rfl, rfl⟩
    | covered hpos _ _ _ => exact absurd hpos (by simp [hz])
  | covered hpos he hc _ =>
    cases h' with
    | unchanged hz => exact absurd hpos (by simp [hz])
    | covered _ he' hc' _ =>
      cases he.symm.trans he'
      cases hc
      cases hc'
      exact ⟨rfl, rfl, rfl⟩

/-- Nothing but the inputs and the two marks changes. -/
theorem Base.frame (h : Base fc shuffle b m xs shortfall coins fee m') {key : String}
    (hin : key ≠ "inputs") (hmark : key ≠ "balanced_unshielded")
    (hfee : key ≠ "balancing_fee_unshielded") : lookup key m' = lookup key m := by
  cases h with
  | unchanged _ => rfl
  | covered _ _ _ _ => simp [toppedUp, hin, hmark, hfee]

theorem Base.inputs (h : Base fc shuffle b m xs shortfall coins fee m')
    (hin : lookup "inputs" m = some (.array xs)) :
    lookup "inputs" m' = some (.array (xs ++ coins.map inputEntry)) := by
  cases h with
  | unchanged _ => simp [hin]
  | covered _ _ _ _ => simp [toppedUp]

/-- The inputs are worth what they were and the coins. -/
theorem Base.exactTotal_inputs (h : Base fc shuffle b m xs shortfall coins fee m')
    (hin : lookup "inputs" m = some (.array xs)) {amountsIn : List UInt64}
    (hread : entryAmounts xs = .ok amountsIn) :
    exactTotal "inputs" (.object m') = exactTotal "inputs" (.object m) + worth coins := by
  have both : entryAmounts (xs ++ coins.map inputEntry) = .ok (amountsIn ++ amounts coins) := by
    rw [entryAmounts_append, hread, entryAmounts_inputs]
    rfl
  simp [exactTotal, sideAmounts, h.inputs hin, hin, both, hread, worth]

end Base

/-! ## Side transactions and recorded fees -/

/-- The fee of a kind, if it is requested. -/
def requestedFee (requested : Bool) (fee : UInt64) : UInt64 := if requested then fee else 0

/-- The fees of the shielded and dust balancing requested. -/
def sideFees (fc : FeeConstants) (kinds : TokenKindsToBalance) : Nat :=
  (requestedFee kinds.shouldBalanceShielded fc.shieldedFee).toNat +
    (requestedFee kinds.shouldBalanceDust fc.dustFee).toNat

theorem createBalancingTransaction_fee {originalTx balTx : Json} {sender balancingType : String}
    {fee : UInt64} {ttl : Int64}
    (h : env.createBalancingTransaction originalTx sender fee balancingType ttl = .ok balTx) :
    feeOf balTx = fee.toNat := by
  obtain ⟨originalHash, -, h⟩ := bind_eq_ok.mp h
  cases h
  apply recordedFee_eq
  rw [lookup_assign_of_ne (by decide)]
  unfold copied
  cases originalTx.find? "inputs" <;> cases originalTx.find? "outputs" <;> simp

theorem shieldedSide_fees {tx : Json} {kinds : TokenKindsToBalance} {ttl : Int64}
    {sides : List Json} (h : env.shieldedSide fc tx kinds ttl = .ok sides) :
    (sides.map feeOf).sum = (requestedFee kinds.shouldBalanceShielded fc.shieldedFee).toNat := by
  unfold Env.shieldedSide at h
  unfold requestedFee
  split at h
  · obtain ⟨sender, -, h⟩ := bind_eq_ok.mp h
    obtain ⟨balTx, hbal, h⟩ := bind_eq_ok.mp h
    cases h
    simp [createBalancingTransaction_fee hbal, *]
  · cases h
    simp [*]

theorem dustSide_fees {tx : Json} {kinds : TokenKindsToBalance} {ttl : Int64}
    {sides : List Json} (h : env.dustSide fc tx kinds ttl = .ok sides) :
    (sides.map feeOf).sum = (requestedFee kinds.shouldBalanceDust fc.dustFee).toNat := by
  unfold Env.dustSide at h
  unfold requestedFee
  split at h
  · obtain ⟨sender, -, h⟩ := bind_eq_ok.mp h
    obtain ⟨receiver, -, h⟩ := bind_eq_ok.mp h
    obtain ⟨balTx, hbal, h⟩ := bind_eq_ok.mp h
    cases h
    simp [createBalancingTransaction_fee hbal, *]
  · cases h
    simp [*]

/-- The members after a kind was recorded. -/
def marked (requested : Bool) (flag feeKey : String) (fee : UInt64) (m : Fields) : Fields :=
  if requested then assign feeKey (.unsigned fee) (assign flag (.bool true) m) else m

theorem lookup_marked {requested : Bool} {key flag feeKey : String} {fee : UInt64} {m : Fields}
    (hflag : key ≠ flag) (hfee : key ≠ feeKey) :
    lookup key (marked requested flag feeKey fee m) = lookup key m := by
  unfold marked
  split
  · rw [lookup_assign_of_ne hfee, lookup_assign_of_ne hflag]
  · rfl

theorem markKind_ok {requested : Bool} {flag feeKey : String} {fee total total' : UInt64}
    {m : Fields} {tx' : Json}
    (h : markKind requested flag feeKey fee (.object m) total = .ok (tx', total')) :
    tx' = .object (marked requested flag feeKey fee m) ∧
      total' = total + requestedFee requested fee ∧
      total'.toNat = total.toNat + (requestedFee requested fee).toNat := by
  unfold markKind at h
  unfold marked requestedFee
  split at h
  · obtain ⟨sum, hsum, h⟩ := bind_eq_ok.mp h
    cases h
    simpa [*] using ⟨safeAdd_eq hsum, safeAdd_ok hsum⟩
  · cases h
    simp [*]

/-- The members of an unproven transaction when its hash is taken. -/
def unprovenBody (fc : FeeConstants) (kinds : TokenKindsToBalance) (fee : UInt64) (m : Fields) :
    Fields :=
  assign "total_fee" (.unsigned (fee + requestedFee kinds.shouldBalanceShielded fc.shieldedFee +
      requestedFee kinds.shouldBalanceDust fc.dustFee))
    (marked kinds.shouldBalanceDust "needs_dust_fee" "dust_fee" fc.dustFee
      (marked kinds.shouldBalanceShielded "needs_shielded_proof" "shielded_fee" fc.shieldedFee m))

/-! ## When the base transaction balances -/

/-- A recipe whose base transaction balances: its inputs pay for its outputs
and the fees recorded for it, its hash is that of its final content, and the
total fee is that of all transactions. -/
structure InPlaceBalanced (env : Env) (feeKey : String) (recipe : SimpleBalancingRecipe)
    (base : Json) (sides : List Json) : Prop where
  transactions : recipe.transactions = base :: sides
  conserved : exactTotal "inputs" base = exactTotal "outputs" base + recordedFee feeKey base
  hash : txHash? base = some (env.hashTransaction (base.erase "tx_hash"))
  totalFee : recipe.totalFee.toNat = recordedFee feeKey base + (sides.map feeOf).sum

section Runs
variable {m : Fields} {xs : List Json} {kinds : TokenKindsToBalance} {ttl : Int64}
  {recipe : SimpleBalancingRecipe}

theorem balanceUnbound_ok (hin : lookup "inputs" m = some (.array xs))
    (hkind : kinds.shouldBalanceUnshielded = true)
    (h : b.balanceUnbound env fc shuffle (.object m) kinds ttl = .ok recipe)
    (hs : recipe.success = true) :
    ∃ shortfall coins m' sides, shortfallOf (.object m) = .ok shortfall ∧
      Base fc shuffle b m xs shortfall coins recipe.totalFee m' ∧
      recipe.transactions = .object m' :: sides ∧ (sides.map feeOf).sum = sideFees fc kinds := by
  obtain ⟨shortfall, hshort, h⟩ := bind_eq_ok.mp h
  obtain ⟨base, hbase, h⟩ := bind_eq_ok.mp h
  rw [if_pos hkind] at hbase
  cases base with
  | none =>
    cases h
    cases hs
  | some pair =>
    obtain ⟨base, fee⟩ := pair
    obtain ⟨coins, m', rfl, hb⟩ := coverShortfall_ok hin hbase
    obtain ⟨shielded, hshielded, h⟩ := bind_eq_ok.mp h
    obtain ⟨dust, hdust, h⟩ := bind_eq_ok.mp h
    obtain ⟨-, -, h⟩ := bind_eq_ok.mp h
    cases h
    refine ⟨shortfall, coins, m', _, hshort, hb, rfl, ?_⟩
    rw [List.map_append, List.sum_append, shieldedSide_fees hshielded, dustSide_fees hdust]
    rfl

theorem balanceUnproven_ok (hin : lookup "inputs" m = some (.array xs))
    (hkind : kinds.shouldBalanceUnshielded = true)
    (h : b.balanceUnproven env fc shuffle (.object m) kinds ttl = .ok recipe)
    (hs : recipe.success = true) :
    ∃ shortfall coins fee m', shortfallOf (.object m) = .ok shortfall ∧
      Base fc shuffle b m xs shortfall coins fee m' ∧
      recipe.transactions = [.object (assign "tx_hash"
        (.string (env.hashTransaction (.object (unprovenBody fc kinds fee m'))))
        (unprovenBody fc kinds fee m'))] ∧
      lookup "total_fee" (unprovenBody fc kinds fee m') = some (.unsigned recipe.totalFee) ∧
      recipe.totalFee.toNat = fee.toNat + sideFees fc kinds := by
  obtain ⟨shortfall, hshort, h⟩ := bind_eq_ok.mp h
  rw [requestedShortfall, if_pos hkind] at hshort
  obtain ⟨base, hbase, h⟩ := bind_eq_ok.mp h
  cases base with
  | none =>
    cases h
    cases hs
  | some pair =>
    obtain ⟨base, fee⟩ := pair
    obtain ⟨coins, m', rfl, hb⟩ := coverShortfall_ok hin hbase
    obtain ⟨total, htotal, h⟩ := bind_eq_ok.mp h
    obtain ⟨shielded, hshielded, h⟩ := bind_eq_ok.mp h
    obtain ⟨htx, hsum, hsumNat⟩ := markKind_ok hshielded
    obtain ⟨dust, hdust, h⟩ := bind_eq_ok.mp h
    rw [htx] at hdust
    obtain ⟨hdtx, hdsum, hdsumNat⟩ := markKind_ok hdust
    rw [hdtx] at h
    cases h
    have first : total = fee := by simpa using safeAdd_eq htotal
    subst first
    have body : unprovenBody fc kinds total m' = assign "total_fee" (.unsigned dust.2)
        (marked kinds.shouldBalanceDust "needs_dust_fee" "dust_fee" fc.dustFee
          (marked kinds.shouldBalanceShielded "needs_shielded_proof" "shielded_fee"
            fc.shieldedFee m')) := by
      rw [unprovenBody, hdsum, hsum]
    refine ⟨shortfall, coins, total, m', hshort, hb, by rw [body], by simp [body], ?_⟩
    simp only [sideFees]
    omega

/-- No sum behind a selection reaches 2^64: neither side of the transaction, the
coins, nor the shortfall with all its fees. -/
structure SumsFit (fc : FeeConstants) (m : Fields) (shortfall : UInt64)
    (coins : List UtxoWithMeta) : Prop where
  inputsFit : exactTotal "inputs" (.object m) < 2 ^ 64
  outputsFit : exactTotal "outputs" (.object m) < 2 ^ 64
  coinsFit : worth coins < 2 ^ 64
  needFits : ∃ needsProof, (Json.object m).valueBool "needs_proof" false = .ok needsProof ∧
    shortfall.toNat + fc.exactFee (countInputs (.object m)).toNat (countOutputs (.object m)).toNat
      needsProof + (coins.length * fc.perInputSize.toNat + fc.perOutputSize.toNat) *
        fc.feePerByte.toNat < 2 ^ 64

/-- When an unbound transaction balances: no side transaction carries a fee,
the fee recorded is the one paid, the transaction with its coins already
balances, and it already holds the hash of the result. Topped up, it can only
balance when a sum overflows. -/
structure UnboundFits (env : Env) (fc : FeeConstants) (m : Fields) (kinds : TokenKindsToBalance)
    (shortfall : UInt64) (coins : List UtxoWithMeta) (fee : UInt64) (m' : Fields) : Prop where
  overflows : 0 < shortfall → ¬ SumsFit fc m shortfall coins
  sides : sideFees fc kinds = 0
  recorded : recordedFee "balancing_fee_unshielded" (.object m') = fee.toNat
  paid : exactTotal "inputs" (.object m) + worth coins = exactTotal "outputs" (.object m) + fee.toNat
  hash : txHash? (.object m) = some (env.hashTransaction ((Json.object m').erase "tx_hash"))

/-- When an unproven transaction balances: the shortfall and the coins are worth
exactly the fees, and no old hash is part of what is hashed, unless the hash
comes out the same. -/
structure UnprovenFits (env : Env) (fc : FeeConstants) (m : Fields) (kinds : TokenKindsToBalance)
    (coins : List UtxoWithMeta) (fee : UInt64) (m' : Fields) : Prop where
  paid : exactTotal "inputs" (.object m) + worth coins =
    exactTotal "outputs" (.object m) + fee.toNat + sideFees fc kinds
  hash : lookup "tx_hash" m = none ∨
    env.hashTransaction (.object (unprovenBody fc kinds fee m')) =
      env.hashTransaction ((Json.object (unprovenBody fc kinds fee m')).erase "tx_hash")

theorem entries_readable (hin : lookup "inputs" m = some (.array xs)) {shortfall : UInt64}
    (h : shortfallOf (.object m) = .ok shortfall) : ∃ amountsIn, entryAmounts xs = .ok amountsIn := by
  obtain ⟨inputTotal, hi, -⟩ := bind_eq_ok.mp h
  rw [extractTotalFromInputs, extractTotal_eq, sideAmounts, find?_object, hin] at hi
  cases hx : entryAmounts xs with
  | error e => simp [hx, Except.map] at hi
  | ok amountsIn => exact ⟨amountsIn, rfl⟩

/-- With no overflow a positive shortfall is what the inputs exceed the outputs by. -/
theorem shortfall_exact {shortfall : UInt64} (h : shortfallOf (.object m) = .ok shortfall)
    (hpos : 0 < shortfall) (hin : exactTotal "inputs" (.object m) < 2 ^ 64)
    (hout : exactTotal "outputs" (.object m) < 2 ^ 64) :
    exactTotal "inputs" (.object m) = exactTotal "outputs" (.object m) + shortfall.toNat := by
  obtain ⟨inputTotal, hi, h⟩ := bind_eq_ok.mp h
  obtain ⟨outputTotal, ho, h⟩ := bind_eq_ok.mp h
  have hi := extractTotal_ok hi
  have ho := extractTotal_ok ho
  rw [Nat.mod_eq_of_lt hin] at hi
  rw [Nat.mod_eq_of_lt hout] at ho
  cases h
  split at hpos
  · rename_i hgt
    have hle := UInt64.le_of_lt hgt
    have := UInt64.le_iff_toNat_le.mp hle
    simp only [gt_iff_lt, hgt, ↓reduceIte, UInt64.toNat_sub_of_le _ _ hle]
    omega
  · exact absurd hpos (by simp)

/-- Coins that cover a shortfall and its fees are worth more than the fee of
spending them leaves to balance. -/
theorem covered_exceeds {shortfall estimate : UInt64} {coins : List UtxoWithMeta}
    (he : fc.estimateFeeFromTx (.object m) = .ok estimate) (hne : coins ≠ [])
    (hc : coins = coveringPrefix fc (shortfall + estimate) (shuffle.run b.filterByTokenType))
    (hfit : SumsFit fc m shortfall coins) :
    shortfall.toNat + (fc.spendingFee coins).toNat ≤ worth coins := by
  have accepts := coveringPrefix_accepts hc hne
  obtain ⟨needsProof, hproof, hneed⟩ := hfit.needFits
  have hcoins := hfit.coinsFit
  obtain ⟨needsProof', hproof', he⟩ := bind_eq_ok.mp he
  cases hproof.symm.trans hproof'
  cases he
  have one : 1 ≤ coins.length := List.length_pos_iff.mpr hne
  simp only [Accepts, need, UInt64.toNat_add, UInt64.toNat_mul, toNat_calculateFee] at accepts
  have spending : (fc.spendingFee coins).toNat ≤
      fc.baseTxSize.toNat * fc.feePerByte.toNat +
        (coins.length * fc.perInputSize.toNat + fc.perOutputSize.toNat) * fc.feePerByte.toNat := by
    rw [FeeConstants.spendingFee, toNat_calculateFee, FeeConstants.exactFee, ← Nat.add_mul]
    apply (Nat.mod_le _ _).trans
    apply Nat.mul_le_mul_right
    have := Nat.mul_le_mul_right fc.perInputSize.toNat (Nat.mod_le coins.length (2 ^ 64))
    simp only [UInt64.toNat_ofNat', UInt64.toNat_one, Bool.false_eq_true, ↓reduceIte]
    omega
  have base : fc.baseTxSize.toNat * fc.feePerByte.toNat ≤
      fc.exactFee (countInputs (.object m)).toNat (countOutputs (.object m)).toNat needsProof := by
    apply Nat.mul_le_mul_right
    omega
  -- the products are the atoms of what is left
  rw [Nat.add_mul, Nat.mul_assoc] at hneed spending
  have single := Nat.mul_le_mul_right (fc.perInputSize.toNat * fc.feePerByte.toNat) one
  rw [Nat.mod_eq_of_lt (show fc.perInputSize.toNat * fc.feePerByte.toNat < 2 ^ 64 by omega),
    Nat.mod_eq_of_lt (show fc.perOutputSize.toNat * fc.feePerByte.toNat < 2 ^ 64 by omega)] at accepts
  omega

/-- The total fee covers the recorded one and the sides only when the sides are free. -/
theorem Base.sides_free {shortfall fee : UInt64} {coins : List UtxoWithMeta} {m' : Fields} {sides : Nat}
    (h : Base fc shuffle b m xs shortfall coins fee m')
    (hfee : fee.toNat = recordedFee "balancing_fee_unshielded" (.object m') + sides) :
    sides = 0 ∧ recordedFee "balancing_fee_unshielded" (.object m') = fee.toNat := by
  cases h with
  | unchanged _ =>
    have : recordedFee "balancing_fee_unshielded" (.object m) + sides = 0 := by simpa using hfee.symm
    constructor
    · omega
    · rw [UInt64.toNat_zero]
      omega
  | covered _ _ _ _ =>
    have recorded : recordedFee "balancing_fee_unshielded"
        (.object (toppedUp m xs coins (fc.spendingFee coins))) = (fc.spendingFee coins).toNat :=
      recordedFee_eq (by simp [toppedUp])
    exact ⟨by omega, recorded⟩

/-- Topped up without overflow, the inputs are worth more than outputs and fee. -/
theorem Base.surplus {shortfall fee : UInt64} {coins : List UtxoWithMeta} {m' : Fields}
    (h : Base fc shuffle b m xs shortfall coins fee m')
    (hshort : shortfallOf (.object m) = .ok shortfall) (hpos : 0 < shortfall)
    (hfit : SumsFit fc m shortfall coins) :
    exactTotal "outputs" (.object m) + fee.toNat <
      exactTotal "inputs" (.object m) + worth coins := by
  cases h with
  | unchanged hzero => exact absurd hpos (by simp [hzero])
  | covered _ he hc hne =>
    have exceeds := covered_exceeds he hne hc hfit
    have total := shortfall_exact hshort hpos hfit.inputsFit hfit.outputsFit
    have := UInt64.lt_iff_toNat_lt.mp hpos
    rw [UInt64.toNat_zero] at this
    omega

/-- The two sides and the hash of the base transaction, in terms of the
transaction it was made from. -/
theorem Base.totals {shortfall fee : UInt64} {coins : List UtxoWithMeta} {m' : Fields}
    (h : Base fc shuffle b m xs shortfall coins fee m') (hin : lookup "inputs" m = some (.array xs))
    (hshort : shortfallOf (.object m) = .ok shortfall) :
    exactTotal "inputs" (.object m') = exactTotal "inputs" (.object m) + worth coins ∧
      exactTotal "outputs" (.object m') = exactTotal "outputs" (.object m) ∧
      txHash? (.object m') = txHash? (.object m) := by
  obtain ⟨amountsIn, hread⟩ := entries_readable hin hshort
  refine ⟨h.exactTotal_inputs hin hread, exactTotal_congr ?_, ?_⟩
  · exact h.frame (by decide) (by decide) (by decide)
  · rw [txHash?, txHash?, find?_object, find?_object, h.frame (by decide) (by decide) (by decide)]

theorem unbound_balanced_iff (hin : lookup "inputs" m = some (.array xs))
    (hkind : kinds.shouldBalanceUnshielded = true)
    (h : b.balanceUnbound env fc shuffle (.object m) kinds ttl = .ok recipe)
    (hs : recipe.success = true) :
    (∃ base sides, InPlaceBalanced env "balancing_fee_unshielded" recipe base sides) ↔
      ∃ shortfall coins fee m', shortfallOf (.object m) = .ok shortfall ∧
        Base fc shuffle b m xs shortfall coins fee m' ∧
        UnboundFits env fc m kinds shortfall coins fee m' := by
  obtain ⟨shortfall, coins, m', sides, hshort, hbase, htxs, hsides⟩ := balanceUnbound_ok hin hkind h hs
  obtain ⟨hinputs, houtputs, hhash⟩ := hbase.totals hin hshort
  constructor
  · rintro ⟨base, sides', hb⟩
    cases htxs.symm.trans hb.transactions
    have conserved := hb.conserved
    obtain ⟨free, recorded⟩ := hbase.sides_free (hsides ▸ hb.totalFee)
    rw [hinputs, houtputs, recorded] at conserved
    refine ⟨shortfall, coins, _, m', hshort, hbase, ?_, free, recorded, conserved, hhash ▸ hb.hash⟩
    intro hpos hfit
    have := hbase.surplus hshort hpos hfit
    omega
  · rintro ⟨shortfall', coins', fee', m'', hshort', hbase', hfits⟩
    cases hshort.symm.trans hshort'
    obtain ⟨rfl, hfee, rfl⟩ := hbase.unique hbase'
    refine ⟨_, sides, htxs, ?_, ?_, ?_⟩
    · rw [hinputs, houtputs, hfits.recorded, hfits.paid]
    · rw [hhash, hfits.hash]
    · rw [hfits.recorded, hsides, hfits.sides, hfee, Nat.add_zero]

theorem lookup_unprovenBody {fee : UInt64} {key : String} (h : key = "inputs" ∨ key = "outputs" ∨ key = "tx_hash") :
    lookup key (unprovenBody fc kinds fee m) = lookup key m := by
  rcases h with rfl | rfl | rfl <;>
    rw [unprovenBody, lookup_assign_of_ne (by decide), lookup_marked (by decide) (by decide),
      lookup_marked (by decide) (by decide)]

theorem unproven_balanced_iff (hin : lookup "inputs" m = some (.array xs))
    (hkind : kinds.shouldBalanceUnshielded = true)
    (h : b.balanceUnproven env fc shuffle (.object m) kinds ttl = .ok recipe)
    (hs : recipe.success = true) :
    (∃ base sides, InPlaceBalanced env "total_fee" recipe base sides) ↔
      ∃ shortfall coins fee m', shortfallOf (.object m) = .ok shortfall ∧
        Base fc shuffle b m xs shortfall coins fee m' ∧
        UnprovenFits env fc m kinds coins fee m' := by
  obtain ⟨shortfall, coins, fee, m', hshort, hbase, htxs, hrecorded, htotal⟩ :=
    balanceUnproven_ok hin hkind h hs
  obtain ⟨hinputs, houtputs, -⟩ := hbase.totals hin hshort
  have final {key : String} (hk : key = "inputs" ∨ key = "outputs") (v : Json) :
      exactTotal key (.object (assign "tx_hash" v (unprovenBody fc kinds fee m'))) =
        exactTotal key (.object m') := by
    apply exactTotal_congr
    rcases hk with rfl | rfl <;>
      rw [find?_object, find?_object, lookup_assign_of_ne (by decide), lookup_unprovenBody (by simp)]
  have recorded (v : Json) : recordedFee "total_fee"
      (.object (assign "tx_hash" v (unprovenBody fc kinds fee m'))) = recipe.totalFee.toNat :=
    recordedFee_eq (by rw [lookup_assign_of_ne (by decide), hrecorded])
  have rehash : (lookup "tx_hash" m = none ∨
      env.hashTransaction (.object (unprovenBody fc kinds fee m')) =
        env.hashTransaction ((Json.object (unprovenBody fc kinds fee m')).erase "tx_hash")) ↔
      env.hashTransaction (.object (unprovenBody fc kinds fee m')) =
        env.hashTransaction ((Json.object (unprovenBody fc kinds fee m')).erase "tx_hash") := by
    rw [or_iff_right_of_imp]
    intro hnone
    rw [erase, remove_of_lookup_none]
    rw [lookup_unprovenBody (by simp), hbase.frame (by decide) (by decide) (by decide), hnone]
  constructor
  · rintro ⟨base, sides, hb⟩
    cases htxs.symm.trans hb.transactions
    have conserved := hb.conserved
    have hash := hb.hash
    rw [final (by simp), final (by simp), recorded, hinputs, houtputs, htotal] at conserved
    simp only [txHash?, find?_object, lookup_assign_self, Option.bind_some, asString, erase,
      remove_assign_self, Option.some.injEq] at hash
    exact ⟨shortfall, coins, fee, m', hshort, hbase, by omega, rehash.mpr hash⟩
  · rintro ⟨shortfall', coins', fee', m'', hshort', hbase', hfits⟩
    cases hshort.symm.trans hshort'
    obtain ⟨rfl, rfl, rfl⟩ := hbase.unique hbase'
    refine ⟨_, [], htxs, ?_, ?_, ?_⟩
    · rw [final (by simp), final (by simp), recorded, hinputs, houtputs, htotal, hfits.paid]
      omega
    · simp only [txHash?, find?_object, lookup_assign_self, Option.bind_some, asString, erase,
        remove_assign_self, Option.some.injEq]
      exact rehash.mp hfits.hash
    · rw [recorded]
      rfl

end Runs

/-- **When balancing in place balances.** No change is ever returned and an
excess of outputs never topped up, so success balances the base transaction
only when its inputs, with the coins added, already match its outputs and fees. -/
theorem in_place_balanced_iff {m : Fields} {xs : List Json} {kinds : TokenKindsToBalance} {ttl : Int64}
    (hin : lookup "inputs" m = some (.array xs)) (hkind : kinds.shouldBalanceUnshielded = true) :
    (∀ recipe, b.balanceUnbound env fc shuffle (.object m) kinds ttl = .ok recipe →
      recipe.success = true →
      ((∃ base sides, InPlaceBalanced env "balancing_fee_unshielded" recipe base sides) ↔
        ∃ shortfall coins fee m', shortfallOf (.object m) = .ok shortfall ∧
          Base fc shuffle b m xs shortfall coins fee m' ∧
          UnboundFits env fc m kinds shortfall coins fee m')) ∧
    (∀ recipe, b.balanceUnproven env fc shuffle (.object m) kinds ttl = .ok recipe →
      recipe.success = true →
      ((∃ base sides, InPlaceBalanced env "total_fee" recipe base sides) ↔
        ∃ shortfall coins fee m', shortfallOf (.object m) = .ok shortfall ∧
          Base fc shuffle b m xs shortfall coins fee m' ∧
          UnprovenFits env fc m kinds coins fee m')) :=
  ⟨fun _ h hs => unbound_balanced_iff hin hkind h hs,
    fun _ h hs => unproven_balanced_iff hin hkind h hs⟩

/-- A transaction of 10 in and 10 out that no kind charges for stays balanced. -/
theorem in_place_balanced_even :
    let m : Fields := [("inputs", .array [.object [("amount", .unsigned 10)]]),
      ("outputs", .array [.object [("amount", .unsigned 10)]]), ("tx_hash", .string "")]
    let env : Env := ⟨fun _ => [], fun _ => [], false⟩
    let b : TransactionBalancer := ⟨[], 0, "NIGHT"⟩
    ∃ unbound unproven,
      b.balanceUnbound env feeConstants ⟨id, fun l => .refl l⟩ (.object m) ⟨true, false, false⟩ 0 =
        .ok unbound ∧
      b.balanceUnproven env feeConstants ⟨id, fun l => .refl l⟩ (.object m) ⟨true, false, false⟩ 0 =
        .ok unproven ∧
      (∃ base sides, InPlaceBalanced env "balancing_fee_unshielded" unbound base sides) ∧
      ∃ base sides, InPlaceBalanced env "total_fee" unproven base sides := by
  have both := @in_place_balanced_iff ⟨fun _ => [], fun _ => [], false⟩ feeConstants
    ⟨id, fun l => .refl l⟩ ⟨[], 0, "NIGHT"⟩ _ _ ⟨true, false, false⟩ 0
    (show lookup "inputs" [("inputs", .array [.object [("amount", .unsigned 10)]]),
      ("outputs", .array [.object [("amount", .unsigned 10)]]), ("tx_hash", .string "")] = some _
      from rfl) rfl
  refine ⟨_, _, rfl, rfl, (both.1 _ rfl rfl).mpr ?_, (both.2 _ rfl rfl).mpr ?_⟩
  · exact ⟨0, [], 0, _, rfl, .unchanged rfl, fun h => absurd h (by decide), rfl, rfl, rfl, rfl⟩
  · exact ⟨0, [], 0, _, rfl, .unchanged rfl, rfl, Or.inr rfl⟩

/-- A transaction of 5 in and 10 out gets no coins from either routine. -/
theorem in_place_not_topped_up :
    let m : Fields := [("inputs", .array [.object [("amount", .unsigned 5)]]),
      ("outputs", .array [.object [("amount", .unsigned 10)]])]
    let env : Env := ⟨fun _ => [], fun _ => [], false⟩
    let b : TransactionBalancer := ⟨[{ utxoHash := "a", amount := 5000 }], 0, "NIGHT"⟩
    ∃ unbound unproven,
      b.balanceUnbound env feeConstants ⟨id, fun l => .refl l⟩ (.object m) {} 0 = .ok unbound ∧
      b.balanceUnproven env feeConstants ⟨id, fun l => .refl l⟩ (.object m) {} 0 = .ok unproven ∧
      unbound.success = true ∧ unproven.success = true ∧
      (¬ ∃ base sides, InPlaceBalanced env "balancing_fee_unshielded" unbound base sides) ∧
      ¬ ∃ base sides, InPlaceBalanced env "total_fee" unproven base sides := by
  refine ⟨_, _, rfl, rfl, rfl, rfl, ?_, ?_⟩
  · rintro ⟨base, sides, hb⟩
    cases hb.transactions
    exact absurd hb.conserved (by decide)
  · rintro ⟨base, sides, hb⟩
    cases hb.transactions
    exact absurd hb.conserved (by decide)

end MidnightSdk.Wallet
