import MidnightSdk.Library.Json
import MidnightSdk.Library.Words
import MidnightSdk.Util.Hex

/-!
# Transactions as the balancer reads them

Fees, entry counts, totals and hashes of the JSON transactions. A side of a
transaction (its inputs or its outputs) is an array of entries with an amount,
or an object from tokens to amounts; totals are 64-bit.
-/

namespace MidnightSdk.Wallet

open Cpp Words

/-! ## Fees -/

/-- The fee parameters. A zero dust threshold would let empty change through. -/
structure FeeConstants where
  baseTxSize : UInt64
  perInputSize : UInt64
  perOutputSize : UInt64
  perProofSize : UInt64
  feePerByte : UInt64
  minDustOutput : UInt64
  dust_pos : 0 < minDustOutput

/-- The values of the source. -/
def feeConstants : FeeConstants := ⟨64, 96, 80, 128, 1, 1000, by decide⟩

def FeeConstants.calculateTxFee (fc : FeeConstants) (inputCount outputCount : UInt64)
    (needsProof : Bool) : UInt64 :=
  let fee := fc.baseTxSize
  let fee := fee + inputCount * fc.perInputSize
  let fee := fee + outputCount * fc.perOutputSize
  let fee := if needsProof then fee + fc.perProofSize else fee
  fee * fc.feePerByte

def FeeConstants.calculateFee (fc : FeeConstants) (inputCount outputCount : UInt64)
    (needsProof : Bool) : UInt64 :=
  fc.calculateTxFee inputCount outputCount needsProof

/-- The fee with nothing reduced to 64 bits. -/
def FeeConstants.exactFee (fc : FeeConstants) (inputCount outputCount : Nat) (needsProof : Bool) :
    Nat :=
  (fc.baseTxSize.toNat + inputCount * fc.perInputSize.toNat +
    outputCount * fc.perOutputSize.toNat + if needsProof then fc.perProofSize.toNat else 0) *
      fc.feePerByte.toNat

theorem toNat_calculateFee (fc : FeeConstants) (inputCount outputCount : UInt64) (needsProof : Bool) :
    (fc.calculateFee inputCount outputCount needsProof).toNat =
      fc.exactFee inputCount.toNat outputCount.toNat needsProof % 2 ^ 64 := by
  unfold FeeConstants.calculateFee FeeConstants.calculateTxFee FeeConstants.exactFee
  cases needsProof <;> simp [UInt64.toNat_add, UInt64.toNat_mul, Nat.add_mod, Nat.mul_mod]

def safeAdd (a b : UInt64) : Throws UInt64 :=
  let result := a + b
  if result < a then .error (.overflowError "Fee calculation overflow") else .ok result

theorem safeAdd_eq {a b c : UInt64} (h : safeAdd a b = .ok c) : c = a + b := by
  simp only [safeAdd] at h
  split at h
  · cases h
  · exact (Except.ok.inj h).symm

/-- A successful addition is exact. -/
theorem safeAdd_ok {a b c : UInt64} (h : safeAdd a b = .ok c) : c.toNat = a.toNat + b.toNat := by
  simp only [safeAdd] at h
  split at h
  · cases h
  · rename_i hlt
    cases h
    have := a.toNat_lt
    have := b.toNat_lt
    rw [UInt64.lt_iff_toNat_lt, UInt64.toNat_add] at hlt
    rw [UInt64.toNat_add]
    omega

/-! ## Sides of a transaction -/

/-- The number of entries of a side; an object with no amounts counts as one. -/
def countSide (key : String) (tx : Json) : UInt64 :=
  match tx.find? key with
  | some (.array xs) => UInt64.ofNat xs.length
  | some (.object fields) =>
    let count := UInt64.ofNat (fields.countP fun p => p.2.isNumber)
    if count > 0 then count else 1
  | _ => 0

def countInputs (tx : Json) : UInt64 := countSide "inputs" tx

def countOutputs (tx : Json) : UInt64 := countSide "outputs" tx

def extractTotal (key : String) (tx : Json) : Throws UInt64 :=
  match tx.find? key with
  | some (.array xs) =>
    xs.foldlM (fun total entry => do return total + (← entry.valueUInt64 "amount" 0)) 0
  | some (.object fields) =>
    fields.foldlM
      (fun total p => if p.2.isNumber then do return total + (← p.2.getUInt64) else return total) 0
  | _ => .ok 0

def extractTotalFromInputs (tx : Json) : Throws UInt64 := extractTotal "inputs" tx

def extractTotalFromOutputs (tx : Json) : Throws UInt64 := extractTotal "outputs" tx

def FeeConstants.estimateFeeFromTx (fc : FeeConstants) (tx : Json) : Throws UInt64 := do
  let needsProof ← tx.valueBool "needs_proof" false
  return fc.calculateFee (countInputs tx) (countOutputs tx) needsProof

/-! ## Hashing -/

/-- What lies outside the balancer: the JSON printer, SHA-256, and whether a
logger is installed. -/
structure Env where
  dump : Json → List UInt8
  cryptoHashSha256 : List UInt8 → List UInt8
  logger : Bool

def Env.hashTransaction (env : Env) (tx : Json) : String :=
  String.ofList (Util.bytesToHex (env.cryptoHashSha256 (env.dump tx)))

/-! ## Amounts over the integers -/

/-- The amounts an array side lists. -/
def entryAmounts (xs : List Json) : Throws (List UInt64) := xs.mapM (·.valueUInt64 "amount" 0)

/-- The amounts an object side lists; members that are not numbers are skipped. -/
def memberAmounts (fields : Json.Fields) : Throws (List UInt64) :=
  (fields.filter fun p => p.2.isNumber).mapM fun p => p.2.getUInt64

/-- The amounts a side lists, in order. -/
def sideAmounts (key : String) (tx : Json) : Throws (List UInt64) :=
  match tx.find? key with
  | some (.array xs) => entryAmounts xs
  | some (.object fields) => memberAmounts fields
  | _ => .ok []

/-- The exact sum of a side. -/
def exactTotal (key : String) (tx : Json) : Nat :=
  match sideAmounts key tx with
  | .ok xs => exactSum xs
  | .error _ => 0

/-- The total of a side as the code extracts it, zero if it cannot. -/
def totalOf (key : String) (tx : Json) : Nat :=
  match extractTotal key tx with
  | .ok total => total.toNat
  | .error _ => 0

/-- A fee recorded in a transaction, zero if there is none. -/
def recordedFee (key : String) (tx : Json) : Nat :=
  match tx.valueUInt64 key 0 with
  | .ok fee => fee.toNat
  | .error _ => 0

def feeOf (tx : Json) : Nat := recordedFee "fee" tx

def asString : Json → Option String
  | .string s => some s
  | _ => none

def txHash? (tx : Json) : Option String := (tx.find? "tx_hash").bind asString

theorem sideAmounts_congr {key : String} {t u : Json} (h : t.find? key = u.find? key) :
    sideAmounts key t = sideAmounts key u := by simp only [sideAmounts, h]

theorem exactTotal_congr {key : String} {t u : Json} (h : t.find? key = u.find? key) :
    exactTotal key t = exactTotal key u := by simp only [exactTotal, sideAmounts_congr h]

theorem recordedFee_congr {key : String} {m n : Json.Fields}
    (h : Json.lookup key m = Json.lookup key n) :
    recordedFee key (.object m) = recordedFee key (.object n) := by
  simp only [recordedFee, Json.valueUInt64, Json.value, h]

theorem recordedFee_eq {key : String} {m : Json.Fields} {fee : UInt64}
    (h : Json.lookup key m = some (.unsigned fee)) : recordedFee key (.object m) = fee.toNat := by
  simp only [recordedFee, Json.valueUInt64, Json.value, h, Json.getUInt64]

theorem entryAmounts_append (xs ys : List Json) :
    entryAmounts (xs ++ ys) = do return (← entryAmounts xs) ++ (← entryAmounts ys) :=
  List.mapM_append

theorem foldlM_entries (xs : List Json) (total : UInt64) :
    xs.foldlM (fun total entry => do return total + (← entry.valueUInt64 "amount" 0)) total =
      (entryAmounts xs).map fun ys => ys.foldl (· + ·) total := by
  induction xs generalizing total with
  | nil => rfl
  | cons x xs ih =>
    rw [List.foldlM_cons, entryAmounts, List.mapM_cons]
    cases hx : x.valueUInt64 "amount" 0 with
    | error e => rfl
    | ok a =>
      change List.foldlM _ (total + a) xs = _
      rw [ih, entryAmounts]
      cases xs.mapM (·.valueUInt64 "amount" 0) <;> rfl

theorem foldlM_members (fields : Json.Fields) (total : UInt64) :
    fields.foldlM
        (fun total p => if p.2.isNumber then do return total + (← p.2.getUInt64) else return total)
        total =
      (memberAmounts fields).map fun ys => ys.foldl (· + ·) total := by
  induction fields generalizing total with
  | nil => rfl
  | cons p fields ih =>
    rw [List.foldlM_cons, memberAmounts, List.filter_cons]
    cases hp : p.2.isNumber with
    | false =>
      change List.foldlM _ total fields = _
      rw [ih]
      rfl
    | true =>
      simp only [↓reduceIte, List.mapM_cons]
      cases hx : p.2.getUInt64 with
      | error e => rfl
      | ok a =>
        change List.foldlM _ (total + a) fields = _
        rw [ih, memberAmounts]
        cases (fields.filter fun p => p.2.isNumber).mapM fun p => p.2.getUInt64 <;> rfl

/-- The total the code extracts is the 64-bit sum of the listed amounts. -/
theorem extractTotal_eq (key : String) (tx : Json) :
    extractTotal key tx = (sideAmounts key tx).map wrapSum := by
  unfold extractTotal sideAmounts
  split
  · exact foldlM_entries _ 0
  · exact foldlM_members _ 0
  · rfl

theorem extractTotal_ok {key : String} {tx : Json} {t : UInt64} (h : extractTotal key tx = .ok t) :
    t.toNat = exactTotal key tx % 2 ^ 64 := by
  rw [extractTotal_eq] at h
  unfold exactTotal
  cases hs : sideAmounts key tx with
  | error e => simp [hs, Except.map] at h
  | ok xs =>
    simp only [hs, Except.map, Except.ok.injEq] at h
    rw [← h, toNat_wrapSum]

end MidnightSdk.Wallet
