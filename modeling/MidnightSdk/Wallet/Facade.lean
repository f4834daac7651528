import MidnightSdk.Wallet.Coins

/-!
# The state of the wallet facade

The unshielded part of the wallet: the coins it can spend, the coins waiting in
a submitted transaction, and a map of balances that the writers maintain.
-/

namespace MidnightSdk.Wallet

structure SyncProgress where
  appliedId : UInt64 := 0
  highestTransactionId : UInt64 := 0
  isConnected : Bool := false
  deriving DecidableEq, Repr

abbrev Balances := List (String × UInt64)

def Balances.find? (token : String) : Balances → Option UInt64
  | [] => none
  | (t, amount) :: rest => if t = token then some amount else Balances.find? token rest

/-- `balances[token] = amount` -/
def Balances.assign (token : String) (amount : UInt64) (balances : Balances) : Balances :=
  (token, amount) :: balances.filter fun p => p.1 ≠ token

structure UnshieldedWalletState where
  address : String := ""
  balances : Balances := []
  availableCoins : List UtxoWithMeta := []
  pendingCoins : List UtxoWithMeta := []
  synced : Bool := false
  progress : SyncProgress := {}
  deriving Repr

def UnshieldedWalletState.nightBalance (s : UnshieldedWalletState) : UInt64 :=
  (Balances.find? "NIGHT" s.balances).getD 0

inductive CoinSelectionStrategy where
  | largestFirst
  | smallestFirst
  | randomImprove
  deriving DecidableEq, Repr

structure WalletFacade where
  unshielded : UnshieldedWalletState
  coinStrategy : CoinSelectionStrategy := .largestFirst
  deriving Repr

@[simp] theorem Balances.find?_assign (token : String) (amount : UInt64) (balances : Balances) :
    Balances.find? token (Balances.assign token amount balances) = some amount := by
  simp [Balances.find?, Balances.assign]

end MidnightSdk.Wallet
