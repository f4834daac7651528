import MidnightSdk.Library.Cpp
import MidnightSdk.Library.Words

/-!
# Coins and the improvement pass

The coin record the wallet and the balancer share, and the pass both run after
accumulating coins: replace the largest selected coin by the first unselected
one that lowers the waste.
-/

namespace MidnightSdk.Wallet

open Words

structure UtxoWithMeta where
  utxoHash : String
  outputIndex : UInt32 := 0
  amount : UInt64 := 0
  tokenType : String := "NIGHT"
  txHash : String := ""
  receiverAddress : String := ""
  ctime : Int := 0
  registeredForDust : Bool := false
  deriving DecidableEq, Repr

def amounts (coins : List UtxoWithMeta) : List UInt64 := coins.map (·.amount)

@[simp] theorem amounts_append (xs ys : List UtxoWithMeta) :
    amounts (xs ++ ys) = amounts xs ++ amounts ys := List.map_append

/-- What the coins are worth, over the integers. -/
def worth (coins : List UtxoWithMeta) : Nat := exactSum (amounts coins)

@[simp] theorem worth_nil : worth [] = 0 := rfl

@[simp] theorem worth_cons (c : UtxoWithMeta) (coins : List UtxoWithMeta) :
    worth (c :: coins) = c.amount.toNat + worth coins := exactSum_cons _ _

@[simp] theorem worth_append (xs ys : List UtxoWithMeta) : worth (xs ++ ys) = worth xs + worth ys := by
  simp [worth]

theorem worth_subperm {xs ys : List UtxoWithMeta} (h : xs.Subperm ys) : worth xs ≤ worth ys := by
  obtain ⟨zs, hp, hs⟩ := h
  exact exactSum_subperm ⟨amounts zs, hp.map _, hs.map _⟩

theorem worth_perm {xs ys : List UtxoWithMeta} (h : xs.Perm ys) : worth xs = worth ys :=
  exactSum_perm (h.map _)

/-- `total > target ? total - target : 0` -/
def wasteOver (total target : UInt64) : UInt64 := if total > target then total - target else 0

def amountAt (coins : List UtxoWithMeta) (i : Nat) : UInt64 := (coins[i]?.map (·.amount)).getD 0

/-- The index of the largest coin, the first one among equals. -/
def largestIdx (selected : List UtxoWithMeta) : Nat :=
  (List.range' 1 (selected.length - 1)).foldl
    (fun largest i => if amountAt selected i > amountAt selected largest then i else largest) 0

/-- The locals of a selection loop: the coins taken, their running total and
how far it lies above the target. -/
structure Tally where
  selected : List UtxoWithMeta
  total : UInt64
  waste : UInt64
  deriving Repr

/-- The total after exchanging the largest selected coin for another. -/
def Tally.exchanged (t : Tally) (c : UtxoWithMeta) : UInt64 :=
  t.total - amountAt t.selected (largestIdx t.selected) + c.amount

/-- A candidate the pass accepts: not selected yet, and lowering the waste. -/
def Tally.improvedBy (t : Tally) (target : UInt64) (c : UtxoWithMeta) : Bool :=
  !t.selected.any (·.utxoHash == c.utxoHash) && wasteOver (t.exchanged c) target < t.waste

/-- The improvement pass: the first candidate that lowers the waste replaces
the largest selected coin. -/
def Tally.improve (t : Tally) (target : UInt64) (candidates : List UtxoWithMeta) : Tally :=
  match candidates.find? (t.improvedBy target) with
  | some c =>
    { selected := t.selected.set (largestIdx t.selected) c
      total := t.exchanged c
      waste := wasteOver (t.exchanged c) target }
  | none => t

/-- With every candidate already selected the pass changes nothing. -/
theorem Tally.improve_self (t : Tally) (target : UInt64) : t.improve target t.selected = t := by
  have none_left : t.selected.find? (t.improvedBy target) = none := by
    rw [List.find?_eq_none]
    intro c hc
    have : t.selected.any (·.utxoHash == c.utxoHash) = true :=
      List.any_eq_true.mpr ⟨c, hc, by simp⟩
    simp [improvedBy, this]
  simp [improve, none_left]

end MidnightSdk.Wallet
