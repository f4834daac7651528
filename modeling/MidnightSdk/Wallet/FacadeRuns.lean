import Mathlib.Data.List.Nodup
import MidnightSdk.Library.Runs
import MidnightSdk.Wallet.Facade

/-!
# Writers of the wallet state

Three writers change the coins and the NIGHT balance: events of the
subscription recompute the balance, an HTTP scan overwrites it with what it
scanned, and reverting a transfer leaves it alone. None of them checks whether
a coin is already there.
-/

namespace MidnightSdk.Wallet

open Words Runs

/-! ## The writers -/

structure UtxoEvent where
  txHash : String
  outputIndex : UInt32 := 0
  amount : UInt64 := 0
  tokenType : String := "NIGHT"
  registeredForDustGeneration : Bool := false
  deriving DecidableEq, Repr

structure UnshieldedTxEvent where
  transactionId : UInt64 := 0
  created : List UtxoEvent := []
  spent : List UtxoEvent := []
  deriving DecidableEq, Repr

/-- An output as the block scan returns it. -/
structure Utxo where
  txHash : String
  outputIndex : UInt32
  value : UInt64 := 0
  tokenType : String := "NIGHT"
  registeredForDustGeneration : Bool := false
  deriving DecidableEq, Repr

structure TransferResult where
  inputsUsed : List UtxoWithMeta := []
  deriving DecidableEq, Repr

def utxoHashOf (txHash : String) (outputIndex : UInt32) : String :=
  txHash ++ ":" ++ toString outputIndex.toNat

def UtxoEvent.toMeta (now : Int) (utxo : UtxoEvent) : UtxoWithMeta where
  utxoHash := utxoHashOf utxo.txHash utxo.outputIndex
  outputIndex := utxo.outputIndex
  amount := utxo.amount
  tokenType := if utxo.tokenType.isEmpty then "NIGHT" else utxo.tokenType
  txHash := utxo.txHash
  ctime := now
  registeredForDust := utxo.registeredForDustGeneration

def Utxo.toMeta (now : Int) (utxo : Utxo) : UtxoWithMeta where
  utxoHash := utxoHashOf utxo.txHash utxo.outputIndex
  outputIndex := utxo.outputIndex
  amount := utxo.value
  tokenType := if utxo.tokenType.isEmpty then "NIGHT" else utxo.tokenType
  txHash := utxo.txHash
  ctime := now
  registeredForDust := utxo.registeredForDustGeneration

/-- The loops that add up the NIGHT coins. -/
def totalNight (coins : List UtxoWithMeta) : UInt64 :=
  coins.foldl (fun total c => if c.tokenType = "NIGHT" then total + c.amount else total) 0

def removeHash (hash : String) (coins : List UtxoWithMeta) : List UtxoWithMeta :=
  coins.filter fun m => m.utxoHash ≠ hash

def UnshieldedWalletState.onUtxo (s : UnshieldedWalletState) (now : Int) (evt : UnshieldedTxEvent) :
    UnshieldedWalletState :=
  let available := s.availableCoins ++ evt.created.map (UtxoEvent.toMeta now)
  let available := evt.spent.foldl
    (fun coins utxo => removeHash (utxoHashOf utxo.txHash utxo.outputIndex) coins) available
  { s with
    availableCoins := available
    balances := Balances.assign "NIGHT" (totalNight available) s.balances
    progress :=
      if evt.transactionId > 0 then { s.progress with appliedId := evt.transactionId } else s.progress }

/-- The outputs come with the block they were found in, in the order the
workers returned them. -/
def UnshieldedWalletState.httpScan (s : UnshieldedWalletState) (now : Int) (tip : UInt32)
    (allUtxos : List (UInt32 × Utxo)) : UnshieldedWalletState :=
  let scanned := allUtxos.map fun p => p.2.toMeta now
  let appliedId := match allUtxos.getLast? with
    | some last => last.1.toUInt64
    | none => tip.toUInt64
  { s with
    availableCoins := s.availableCoins ++ scanned
    balances := Balances.assign "NIGHT" (totalNight scanned) s.balances
    synced := true
    progress := { s.progress with appliedId, isConnected := true } }

def UnshieldedWalletState.revertTransaction (s : UnshieldedWalletState) (txResult : TransferResult) :
    UnshieldedWalletState :=
  txResult.inputsUsed.foldl (fun s input =>
    { s with
      pendingCoins := removeHash input.utxoHash s.pendingCoins
      availableCoins := s.availableCoins ++ [input] }) s

/-- A change of the wallet state. -/
inductive Change where
  | event (now : Int) (evt : UnshieldedTxEvent)
  | scan (now : Int) (tip : UInt32) (allUtxos : List (UInt32 × Utxo))
  | revert (txResult : TransferResult)
  deriving DecidableEq, Repr

def UnshieldedWalletState.apply (s : UnshieldedWalletState) : Change → UnshieldedWalletState
  | .event now evt => s.onUtxo now evt
  | .scan now tip allUtxos => s.httpScan now tip allUtxos
  | .revert txResult => s.revertTransaction txResult

/-! ## What the state should say -/

def hashes (coins : List UtxoWithMeta) : List String := coins.map (·.utxoHash)

/-- What the NIGHT coins are worth, over the integers. -/
def nightWorth (coins : List UtxoWithMeta) : Nat :=
  worth (coins.filter fun c => c.tokenType = "NIGHT")

/-- Every coin is available once, none is also pending, and the balance is what
the available coins are worth. -/
structure Consistent (s : UnshieldedWalletState) : Prop where
  distinct : (hashes s.availableCoins).Nodup
  disjoint : (hashes s.availableCoins).Disjoint (hashes s.pendingCoins)
  balance : s.nightBalance.toNat = nightWorth s.availableCoins

theorem consistent_empty (address : String) : Consistent { address } :=
  ⟨List.nodup_nil, List.disjoint_nil_left _, rfl⟩

/-- The coins an event does not spend. -/
def unspent (evt : UnshieldedTxEvent) (coins : List UtxoWithMeta) : List UtxoWithMeta :=
  coins.filter fun m => m.utxoHash ∉ evt.spent.map fun u => utxoHashOf u.txHash u.outputIndex

/-- The coins are distinct, and none of them is among those kept. -/
structure Fresh (kept coins : List UtxoWithMeta) : Prop where
  distinct : (hashes coins).Nodup
  disjoint : (hashes kept).Disjoint (hashes coins)

/-- When a change keeps the state consistent: what it appends is new, and the
balance it leaves is not short of it. A scan may only overwrite a balance of
zero, and a revert may only return coins that carry no NIGHT. -/
def Keeps (s : UnshieldedWalletState) : Change → Prop
  | .event now evt =>
    let created := unspent evt (evt.created.map (UtxoEvent.toMeta now))
    let kept := unspent evt s.availableCoins
    Fresh kept created ∧ (hashes created).Disjoint (hashes s.pendingCoins) ∧
      nightWorth kept + nightWorth created < 2 ^ 64
  | .scan now _ allUtxos =>
    let scanned := allUtxos.map fun p => p.2.toMeta now
    Fresh s.availableCoins scanned ∧ (hashes scanned).Disjoint (hashes s.pendingCoins) ∧
      nightWorth s.availableCoins = 0 ∧ nightWorth scanned < 2 ^ 64
  | .revert txResult =>
    Fresh s.availableCoins txResult.inputsUsed ∧ nightWorth txResult.inputsUsed = 0

@[simp] theorem hashes_append (xs ys : List UtxoWithMeta) : hashes (xs ++ ys) = hashes xs ++ hashes ys :=
  List.map_append

@[simp] theorem nightWorth_append (xs ys : List UtxoWithMeta) :
    nightWorth (xs ++ ys) = nightWorth xs + nightWorth ys := by
  simp [nightWorth]

/-- The loops compute the worth of the NIGHT coins in 64 bits. -/
theorem toNat_totalNight (coins : List UtxoWithMeta) :
    (totalNight coins).toNat = nightWorth coins % 2 ^ 64 := by
  have sum : totalNight coins = wrapSum (amounts (coins.filter fun c => c.tokenType = "NIGHT")) := by
    simp [totalNight, wrapSum, amounts, List.foldl_map, List.foldl_filter]
  rw [sum, toNat_wrapSum]
  rfl

theorem unspent_append (evt : UnshieldedTxEvent) (xs ys : List UtxoWithMeta) :
    unspent evt (xs ++ ys) = unspent evt xs ++ unspent evt ys := List.filter_append ..

theorem hashes_unspent_sublist (evt : UnshieldedTxEvent) (coins : List UtxoWithMeta) :
    (hashes (unspent evt coins)).Sublist (hashes coins) :=
  List.filter_sublist.map _

/-- Removing hashes one by one leaves the coins with none of them. -/
theorem foldl_removeHash (removed : List String) (coins : List UtxoWithMeta) :
    removed.foldl (fun coins hash => removeHash hash coins) coins =
      coins.filter fun m => m.utxoHash ∉ removed := by
  induction removed generalizing coins with
  | nil => simp
  | cons hash removed ih =>
    rw [List.foldl_cons, ih, removeHash, List.filter_filter]
    apply List.filter_congr
    intro m _
    by_cases h : m.utxoHash = hash <;> simp [h]

theorem onUtxo_available (s : UnshieldedWalletState) (now : Int) (evt : UnshieldedTxEvent) :
    (s.onUtxo now evt).availableCoins = unspent evt s.availableCoins ++
      unspent evt (evt.created.map (UtxoEvent.toMeta now)) := by
  rw [← unspent_append, unspent, ← foldl_removeHash, List.foldl_map]
  rfl

theorem revert_eq (s : UnshieldedWalletState) (txResult : TransferResult) :
    s.revertTransaction txResult =
      { s with
        pendingCoins := s.pendingCoins.filter fun m => m.utxoHash ∉ hashes txResult.inputsUsed
        availableCoins := s.availableCoins ++ txResult.inputsUsed } := by
  unfold UnshieldedWalletState.revertTransaction
  rw [← foldl_removeHash]
  generalize txResult.inputsUsed = inputs
  induction inputs generalizing s with
  | nil => simp [hashes]
  | cons input inputs ih =>
    rw [List.foldl_cons, ih]
    simp [hashes]

/-! ## One change -/

/-- Appending keeps the coins distinct exactly when what is appended is fresh. -/
theorem nodup_append_iff {kept coins : List UtxoWithMeta} (h : (hashes kept).Nodup) :
    (hashes (kept ++ coins)).Nodup ↔ Fresh kept coins := by
  rw [hashes_append, List.nodup_append']
  constructor
  · rintro ⟨-, hcoins, hdisjoint⟩
    exact ⟨hcoins, hdisjoint⟩
  · rintro ⟨hcoins, hdisjoint⟩
    exact ⟨h, hcoins, hdisjoint⟩

theorem disjoint_append_iff {kept coins : List UtxoWithMeta} {pending : List String}
    (h : (hashes kept).Disjoint pending) :
    (hashes (kept ++ coins)).Disjoint pending ↔ (hashes coins).Disjoint pending := by
  rw [hashes_append, List.disjoint_append_left]
  exact ⟨fun hd => hd.2, fun hd => ⟨h, hd⟩⟩

theorem event_consistent_iff {s : UnshieldedWalletState} (hs : Consistent s) (now : Int)
    (evt : UnshieldedTxEvent) : Consistent (s.onUtxo now evt) ↔ Keeps s (.event now evt) := by
  have sub := hashes_unspent_sublist evt s.availableCoins
  have distinct : (hashes (unspent evt s.availableCoins)).Nodup := hs.distinct.sublist sub
  have disjoint : (hashes (unspent evt s.availableCoins)).Disjoint (hashes s.pendingCoins) :=
    List.disjoint_of_subset_left sub.subset hs.disjoint
  have available := onUtxo_available s now evt
  have balance : (s.onUtxo now evt).nightBalance =
      totalNight (s.onUtxo now evt).availableCoins := by
    simp [UnshieldedWalletState.onUtxo, UnshieldedWalletState.nightBalance]
  have fits (x : Nat) : x % 2 ^ 64 = x ↔ x < 2 ^ 64 := by omega
  constructor
  · rintro ⟨hdistinct, hdisjoint, hbalance⟩
    rw [available] at hdistinct hdisjoint hbalance
    rw [balance, available, toNat_totalNight, fits, nightWorth_append] at hbalance
    exact ⟨(nodup_append_iff distinct).mp hdistinct, (disjoint_append_iff disjoint).mp hdisjoint, hbalance⟩
  · rintro ⟨fresh, hpending, hfits⟩
    refine ⟨?_, ?_, ?_⟩
    · rw [available]
      exact (nodup_append_iff distinct).mpr fresh
    · rw [available]
      exact (disjoint_append_iff disjoint).mpr hpending
    · rw [balance, available, toNat_totalNight, fits, nightWorth_append]
      exact hfits

theorem scan_consistent_iff {s : UnshieldedWalletState} (hs : Consistent s) (now : Int) (tip : UInt32)
    (allUtxos : List (UInt32 × Utxo)) :
    Consistent (s.httpScan now tip allUtxos) ↔ Keeps s (.scan now tip allUtxos) := by
  have balance : (s.httpScan now tip allUtxos).nightBalance =
      totalNight (allUtxos.map fun p => p.2.toMeta now) := by
    simp [UnshieldedWalletState.httpScan, UnshieldedWalletState.nightBalance]
  have overwritten (held scanned : Nat) :
      scanned % 2 ^ 64 = held + scanned ↔ held = 0 ∧ scanned < 2 ^ 64 := by omega
  constructor
  · rintro ⟨hdistinct, hdisjoint, hbalance⟩
    rw [balance, toNat_totalNight] at hbalance
    exact ⟨(nodup_append_iff hs.distinct).mp hdistinct, (disjoint_append_iff hs.disjoint).mp hdisjoint,
      (overwritten _ _).mp (hbalance.trans (nightWorth_append _ _))⟩
  · rintro ⟨fresh, hpending, hfits⟩
    refine ⟨(nodup_append_iff hs.distinct).mpr fresh, (disjoint_append_iff hs.disjoint).mpr hpending, ?_⟩
    rw [balance, toNat_totalNight]
    exact ((overwritten _ _).mpr hfits).trans (nightWorth_append _ _).symm

theorem revert_consistent_iff {s : UnshieldedWalletState} (hs : Consistent s)
    (txResult : TransferResult) :
    Consistent (s.revertTransaction txResult) ↔ Keeps s (.revert txResult) := by
  have held := hs.balance
  rw [revert_eq]
  constructor
  · rintro ⟨hdistinct, -, hbalance⟩
    refine ⟨(nodup_append_iff hs.distinct).mp hdistinct, ?_⟩
    rw [nightWorth_append] at hbalance
    change s.nightBalance.toNat = _ at hbalance
    omega
  · rintro ⟨fresh, hzero⟩
    refine ⟨(nodup_append_iff hs.distinct).mpr fresh, ?_, ?_⟩
    · intro hash havailable hpending
      obtain ⟨p, hp, rfl⟩ := List.mem_map.mp hpending
      obtain ⟨hheld, hkept⟩ := List.mem_filter.mp hp
      rw [hashes_append] at havailable
      rcases List.mem_append.mp havailable with hold | hnew
      · exact hs.disjoint hold (List.mem_map_of_mem hheld)
      · exact of_decide_eq_true hkept hnew
    · change s.nightBalance.toNat = _
      rw [nightWorth_append]
      omega

theorem apply_consistent_iff (s : UnshieldedWalletState) (change : Change) (hs : Consistent s) :
    Consistent (s.apply change) ↔ Keeps s change := by
  cases change with
  | event now evt => exact event_consistent_iff hs now evt
  | scan now tip allUtxos => exact scan_consistent_iff hs now tip allUtxos
  | revert txResult => exact revert_consistent_iff hs txResult

/-- **The wallet state stays consistent exactly in runs whose changes are new.**
Nothing rejects a coin that is already there, and only events recompute the
balance, so each change must bring fresh coins and leave the balance right. -/
theorem consistent_run_iff {s : UnshieldedWalletState} (hs : Consistent s) (changes : List Change) :
    (∀ reached, reached <+: changes → Consistent (run UnshieldedWalletState.apply s reached)) ↔
      EveryStep UnshieldedWalletState.apply Keeps s changes :=
  every_state_iff apply_consistent_iff hs

/-- A coin is received, then spent for another one. -/
theorem consistent_run_spend :
    let received : Change := .event 0 { transactionId := 1, created := [{ txHash := "a", amount := 5 }] }
    let spent : Change := .event 0
      { transactionId := 2, created := [{ txHash := "b", amount := 3 }], spent := [{ txHash := "a" }] }
    ∀ reached, reached <+: [received, spent] →
      Consistent (run UnshieldedWalletState.apply {} reached) := by
  apply (consistent_run_iff (consistent_empty "") _).mpr
  exact ⟨⟨⟨by decide, List.disjoint_nil_left _⟩, List.disjoint_nil_right _, by decide⟩,
    ⟨⟨by decide, List.disjoint_nil_left _⟩, List.disjoint_nil_right _, by decide⟩, trivial⟩

/-- An event delivered twice lists its coin twice. -/
theorem redelivery_duplicates :
    let received : Change := .event 0 { transactionId := 1, created := [{ txHash := "a", amount := 5 }] }
    ¬ Consistent (run UnshieldedWalletState.apply {} [received, received]) := by
  intro received h
  exact absurd h.distinct (by decide)

end MidnightSdk.Wallet
