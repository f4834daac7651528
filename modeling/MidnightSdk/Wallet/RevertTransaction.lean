import MidnightSdk.Wallet.FacadeRuns

/-!
# Reverting a transfer

A revert drops the inputs from the pending coins by their hash and appends them to
the available ones without looking. That moves them as long as none of them is
available already, and a second revert of the same transfer appends them again.
-/

namespace MidnightSdk.Wallet

/-- The inputs of a transfer went from the pending coins to the available ones:
each of them is available once, none is pending, and every other coin stays. -/
structure Moved (before after : UnshieldedWalletState) (inputs : List UtxoWithMeta) : Prop where
  once : ∀ input ∈ inputs,
    after.availableCoins.filter (fun m => m.utxoHash = input.utxoHash) = [input]
  available : after.availableCoins.filter (fun m => m.utxoHash ∉ hashes inputs) =
    before.availableCoins.filter fun m => m.utxoHash ∉ hashes inputs
  pending : after.pendingCoins = before.pendingCoins.filter fun m => m.utxoHash ∉ hashes inputs

/-- A revert moves the inputs, and a second one changes nothing. -/
structure RevertLaw (s : UnshieldedWalletState) (txResult : TransferResult) : Prop where
  moved : Moved s (s.revertTransaction txResult) txResult.inputsUsed
  again : (s.revertTransaction txResult).revertTransaction txResult = s.revertTransaction txResult

theorem mem_hashes {coins : List UtxoWithMeta} {m : UtxoWithMeta} (h : m ∈ coins) :
    m.utxoHash ∈ hashes coins :=
  List.mem_map_of_mem h

/-- No coin of the list has this hash. -/
theorem filter_hash_eq_nil {coins : List UtxoWithMeta} {hash : String} :
    coins.filter (fun m => m.utxoHash = hash) = [] ↔ hash ∉ hashes coins := by
  simp [hashes, List.filter_eq_nil_iff]

/-- Among coins with distinct hashes one is found by its hash. -/
theorem filter_hash_eq_singleton {coins : List UtxoWithMeta} (h : (hashes coins).Nodup)
    {input : UtxoWithMeta} (hin : input ∈ coins) :
    coins.filter (fun m => m.utxoHash = input.utxoHash) = [input] := by
  induction coins with
  | nil => cases hin
  | cons m coins ih =>
    have hnew : m.utxoHash ∉ hashes coins := (List.nodup_cons.mp h).1
    have hrest : (hashes coins).Nodup := (List.nodup_cons.mp h).2
    rcases List.mem_cons.mp hin with rfl | hin
    · rw [List.filter_cons_of_pos (by simp), filter_hash_eq_nil.mpr hnew]
    · have other : m.utxoHash ≠ input.utxoHash := by
        intro same
        rw [same] at hnew
        exact hnew (mem_hashes hin)
      rw [List.filter_cons_of_neg (by simpa using other)]
      exact ih hrest hin

/-- Where every coin is found alone by its hash, the hashes are distinct. -/
theorem nodup_of_filter_hash {coins : List UtxoWithMeta}
    (h : ∀ input ∈ coins, (coins.filter fun m => m.utxoHash = input.utxoHash).length ≤ 1) :
    (hashes coins).Nodup := by
  induction coins with
  | nil => exact List.nodup_nil
  | cons m coins ih =>
    apply List.nodup_cons.mpr
    constructor
    · have alone := h m (List.mem_cons_self ..)
      rw [List.filter_cons_of_pos (by simp), List.length_cons] at alone
      have nothing : coins.filter (fun other => other.utxoHash = m.utxoHash) = [] :=
        List.length_eq_zero_iff.mp (by omega)
      exact filter_hash_eq_nil.mp nothing
    · apply ih
      intro input hin
      refine Nat.le_trans ?_ (h input (List.mem_cons_of_mem m hin))
      exact ((List.sublist_cons_self m coins).filter _).length_le

/-- **When a revert moves its inputs**: their hashes are distinct, and none of them
is available already. -/
theorem moved_iff_fresh (s : UnshieldedWalletState) (txResult : TransferResult) :
    Moved s (s.revertTransaction txResult) txResult.inputsUsed ↔
      Fresh s.availableCoins txResult.inputsUsed := by
  have available : (s.revertTransaction txResult).availableCoins =
      s.availableCoins ++ txResult.inputsUsed := by rw [revert_eq]
  constructor
  · intro moved
    have found {input : UtxoWithMeta} (hin : input ∈ txResult.inputsUsed) :=
      moved.once input hin
    simp only [available, List.filter_append] at found
    constructor
    · apply nodup_of_filter_hash
      intro input hin
      have total := congrArg List.length (found hin)
      rw [List.length_append, List.length_singleton] at total
      omega
    · intro hash hold hnew
      obtain ⟨input, hin, rfl⟩ := List.mem_map.mp hnew
      have itself : input ∈ txResult.inputsUsed.filter fun m => m.utxoHash = input.utxoHash :=
        List.mem_filter.mpr ⟨hin, by simp⟩
      have total := congrArg List.length (found hin)
      have some := List.length_pos_of_mem itself
      rw [List.length_append, List.length_singleton] at total
      refine filter_hash_eq_nil.mp (List.length_eq_zero_iff.mp ?_) hold
      omega
  · intro fresh
    refine ⟨?_, ?_, by rw [revert_eq]⟩
    · intro input hin
      have old : input.utxoHash ∉ hashes s.availableCoins := fun hold =>
        fresh.disjoint hold (mem_hashes hin)
      rw [available, List.filter_append, filter_hash_eq_nil.mpr old,
        filter_hash_eq_singleton fresh.distinct hin, List.nil_append]
    · have none : txResult.inputsUsed.filter (fun m => m.utxoHash ∉ hashes txResult.inputsUsed) =
          [] := by
        apply List.filter_eq_nil_iff.mpr
        intro m hm
        simpa using mem_hashes hm
      rw [available, List.filter_append, none, List.append_nil]

/-- A second revert appends the inputs once more. -/
theorem revert_again_iff (s : UnshieldedWalletState) (txResult : TransferResult) :
    (s.revertTransaction txResult).revertTransaction txResult = s.revertTransaction txResult ↔
      txResult.inputsUsed = [] := by
  rw [revert_eq, revert_eq]
  constructor
  · intro same
    have longer := congrArg (·.availableCoins.length) same
    simp only [List.length_append] at longer
    exact List.length_eq_zero_iff.mp (by omega)
  · intro nothing
    rw [nothing]
    simp [hashes]

/-- **Which transfers keep to the law.** Only one without inputs; and the first
revert by itself moves the inputs as long as they are fresh. -/
theorem revertLaw_iff (s : UnshieldedWalletState) (txResult : TransferResult) :
    (RevertLaw s txResult ↔ txResult.inputsUsed = []) ∧
      (Moved s (s.revertTransaction txResult) txResult.inputsUsed ↔
        Fresh s.availableCoins txResult.inputsUsed) := by
  refine ⟨?_, moved_iff_fresh s txResult⟩
  constructor
  · intro law
    exact (revert_again_iff s txResult).mp law.again
  · intro nothing
    refine ⟨(moved_iff_fresh s txResult).mpr ?_, (revert_again_iff s txResult).mpr nothing⟩
    rw [nothing]
    exact ⟨List.nodup_nil, List.disjoint_nil_right _⟩

/-- One pending coin, reverted twice, is available twice. -/
theorem revert_twice_duplicates :
    let coin : UtxoWithMeta := UtxoEvent.toMeta 0 { txHash := "a", outputIndex := 0, amount := 5 }
    let s : UnshieldedWalletState := { pendingCoins := [coin] }
    ((s.revertTransaction ⟨[coin]⟩).revertTransaction ⟨[coin]⟩).availableCoins = [coin, coin] ∧
      ¬RevertLaw s ⟨[coin]⟩ := by
  intro coin s
  refine ⟨rfl, ?_⟩
  intro law
  exact List.cons_ne_nil _ _ ((revert_again_iff s ⟨[coin]⟩).mp law.again)

end MidnightSdk.Wallet
