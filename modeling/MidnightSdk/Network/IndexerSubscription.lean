import Mathlib.Data.String.Basic
import MidnightSdk.Library.Differences
import MidnightSdk.Library.OrderedMap
import MidnightSdk.Library.Stoull
import MidnightSdk.Network.IndexerClient
import MidnightSdk.UtxoTransactions.Outpoints
import MidnightSdk.Wallet.Coins

/-!
# Following the outputs by polling

Each poll asks for the state of the wallet, and for its outputs only when their number
has changed; what is new and what is gone since they were last asked for is called back.
A subscriber holds the outputs there are as long as no two states in a row have
different outputs of the same number.
-/

namespace MidnightSdk.Network

open Cpp Wallet

/-! ## Outputs by their names -/

/-- `tx_hash + ":" + std::to_string(output_index)` -/
def utxoHash (txHash : String) (outputIndex : UInt32) : String :=
  txHash ++ ":" ++ toString outputIndex.toNat

/-- The output as it is called back; the clock's reading is left out. -/
def metaOf (utxo : Utxo) : UtxoWithMeta where
  utxoHash := utxoHash utxo.txHash utxo.outputIndex
  outputIndex := utxo.outputIndex
  amount := utxo.value
  tokenType := if utxo.tokenType = "" then "NIGHT" else utxo.tokenType
  txHash := utxo.txHash

abbrev Outpoint : Type := String × UInt32

def outpoint (coin : UtxoWithMeta) : Outpoint := (coin.txHash, coin.outputIndex)

def outpointsOf (utxos : List Utxo) : Set Outpoint :=
  {p | p ∈ utxos.map fun utxo => (utxo.txHash, utxo.outputIndex)}

/-- Outputs, each under its own name. -/
structure KnownUtxos extends OrderedMap String UtxoWithMeta where
  named : ∀ e ∈ entries, e.1 = utxoHash e.2.txHash e.2.outputIndex

namespace KnownUtxos

def none : KnownUtxos := { OrderedMap.empty with named := nofun }

/-- The map of the outputs there are. -/
def current (utxos : List Utxo) : KnownUtxos :=
  { OrderedMap.ofEntries (utxos.map fun u => (utxoHash u.txHash u.outputIndex, metaOf u)) with
    named := by
      intro e he
      obtain ⟨utxo, -, rfl⟩ := List.mem_map.mp (OrderedMap.mem_ofEntries he)
      rfl }

def outpoints (known : KnownUtxos) : Set Outpoint :=
  {p | known.contains (utxoHash p.1 p.2) = true}

end KnownUtxos

theorem utxoHash_inj {p q : Outpoint} : utxoHash p.1 p.2 = utxoHash q.1 q.2 ↔ p = q := by
  let input (r : Outpoint) : UtxoTransactions.UtxoInput :=
    { outpoint := r.1.toList, outputIndex := r.2 }
  have text (r : Outpoint) : (utxoHash r.1 r.2).toList = (input r).outpointKey := by
    simp [utxoHash, input, UtxoTransactions.UtxoInput.outpointKey, UtxoTransactions.decimal]
  rw [← String.toList_inj, text, text, UtxoTransactions.outpointKey_inj, String.toList_inj,
    Prod.ext_iff]

theorem KnownUtxos.mem_without (known other : KnownUtxos) (p : Outpoint) :
    p ∈ (known.without other.toOrderedMap).map outpoint ↔ p ∈ known.outpoints \ other.outpoints := by
  simp only [List.mem_map, OrderedMap.mem_without, Set.mem_sdiff, KnownUtxos.outpoints,
    Set.mem_ofPred_eq, Bool.not_eq_true]
  constructor
  · rintro ⟨coin, ⟨key, hmem, hother⟩, rfl⟩
    have name := known.named _ hmem
    simp only at name
    rw [name] at hmem hother
    exact ⟨OrderedMap.contains_iff.mpr ⟨coin, hmem⟩, hother⟩
  · rintro ⟨hknown, hother⟩
    obtain ⟨coin, hmem⟩ := OrderedMap.contains_iff.mp hknown
    have name := (utxoHash_inj (q := outpoint coin)).mp (known.named _ hmem)
    exact ⟨coin, ⟨_, hmem, hother⟩, name.symm⟩

theorem KnownUtxos.without_nodup (known other : KnownUtxos) :
    ((known.without other.toOrderedMap).map outpoint).Nodup := by
  apply List.Nodup.of_map fun p : Outpoint => utxoHash p.1 p.2
  have names : ((known.without other.toOrderedMap).map outpoint).map
      (fun p => utxoHash p.1 p.2) =
      (known.entries.filter fun e => !other.contains e.1).map Prod.fst := by
    rw [OrderedMap.without, List.map_map, List.map_map]
    apply List.map_congr_left
    intro e he
    exact (known.named e (List.mem_filter.mp he).1).symm
  rw [names]
  exact known.keys_nodup.sublist (List.filter_sublist.map Prod.fst)

theorem KnownUtxos.outpoints_none : KnownUtxos.none.outpoints = ∅ :=
  Set.eq_empty_iff_forall_notMem.mpr fun _ h => Bool.false_ne_true h

theorem KnownUtxos.outpoints_current (utxos : List Utxo) :
    (KnownUtxos.current utxos).outpoints = outpointsOf utxos := by
  ext p
  simp only [KnownUtxos.outpoints, KnownUtxos.current, OrderedMap.contains_ofEntries,
    outpointsOf, Set.mem_ofPred_eq, List.map_map, List.mem_map, Function.comp_apply]
  apply exists_congr
  intro utxo
  exact and_congr_right fun _ => @utxoHash_inj (utxo.txHash, utxo.outputIndex) p

/-! ## Polling -/

inductive Notice where
  | balance (tokenType : String) (newBalance : UInt64)
  | unshieldedTx (created spent : List UtxoWithMeta)

structure IndexerSubscription where
  lastState : WalletState := {}
  lastKnownBalance : UInt64 := 0
  lastUtxoCount : UInt64 := 0
  lastKnownUtxos : KnownUtxos := .none

/-- What is called back of two maps; nothing when they have the same outputs. -/
def txNotices (known current : KnownUtxos) : List Notice :=
  let created := current.without known.toOrderedMap
  let spent := known.without current.toOrderedMap
  if created.isEmpty && spent.isEmpty then [] else [.unshieldedTx created spent]

/-- One round of `poll_loop`: the subscription after it, and what it calls back. The
outputs are only asked for where the number has changed. -/
def poll (queryWalletState : Throws WalletState) (queryUtxos : Throws (List Utxo))
    (sub : IndexerSubscription) : IndexerSubscription × List Notice :=
  match queryWalletState with
  | .error _ => (sub, [])
  | .ok ws =>
    let newBalance := (Stoull.stoull 10 ws.unshieldedBalance.toList).toOption.getD 0
    let balanceNotices :=
      if newBalance ≠ sub.lastKnownBalance then [Notice.balance "NIGHT" newBalance] else []
    let told := { sub with lastState := ws, lastKnownBalance := newBalance }
    if ws.availableUtxoCount ≠ sub.lastUtxoCount then
      match queryUtxos with
      | .error _ => (told, balanceNotices)
      | .ok utxos =>
        let current := KnownUtxos.current utxos
        ({ told with lastUtxoCount := ws.availableUtxoCount, lastKnownUtxos := current },
          balanceNotices ++ txNotices sub.lastKnownUtxos current)
    else (told, balanceNotices)

/-! ## Subscribers -/

namespace Notice

def created : Notice → List Outpoint
  | balance _ _ => []
  | unshieldedTx created _ => created.map outpoint

def spent : Notice → List Outpoint
  | balance _ _ => []
  | unshieldedTx _ spent => spent.map outpoint

/-- What a subscriber does with a notice. -/
def apply (held : Set Outpoint) (notice : Notice) : Set Outpoint :=
  Differences.change held {p | p ∈ notice.created} {p | p ∈ notice.spent}

end Notice

/-- One round with a wallet that is served as it is. -/
def pollServed (address : String) (utxos : List Utxo) (sub : IndexerSubscription) :
    IndexerSubscription × List Notice :=
  poll (.ok (walletStateFromUtxos address utxos)) (.ok utxos) sub

section Served

variable (address : String) (served : ℕ → List Utxo)

/-- The subscription after some rounds. -/
def subscription : ℕ → IndexerSubscription
  | 0 => {}
  | n + 1 => (pollServed address (served n) (subscription n)).1

def noticesAt (n : ℕ) : List Notice :=
  (pollServed address (served n) (subscription address served n)).2

/-- What a subscriber holds after some rounds. -/
def heldAfter : ℕ → Set Outpoint
  | 0 => ∅
  | n + 1 => (noticesAt address served n).foldl Notice.apply (heldAfter n)

def createdAt (n : ℕ) : List Outpoint := (noticesAt address served n).flatMap Notice.created

def spentAt (n : ℕ) : List Outpoint := (noticesAt address served n).flatMap Notice.spent

/-- What was served last, nothing before the first round. -/
def servedLast : ℕ → List Utxo
  | 0 => []
  | n + 1 => served n

end Served

/-! ## What a round tells -/

/-- Notices tell what two maps do not have in common. -/
structure Tells (known next : KnownUtxos) (notices : List Notice) : Prop where
  created : notices.flatMap Notice.created = (next.without known.toOrderedMap).map outpoint
  spent : notices.flatMap Notice.spent = (known.without next.toOrderedMap).map outpoint
  applied : ∀ held, notices.foldl Notice.apply held =
    Differences.change held (next.outpoints \ known.outpoints) (known.outpoints \ next.outpoints)

theorem Tells.nothing (known : KnownUtxos) : Tells known known [] where
  created := by simp [OrderedMap.without_self]
  spent := by simp [OrderedMap.without_self]
  applied held := by simp [Differences.change]

theorem Tells.balance {known next : KnownUtxos} {notices : List Notice}
    (h : Tells known next notices) (tokenType : String) (newBalance : UInt64) :
    Tells known next (.balance tokenType newBalance :: notices) where
  created := h.created
  spent := h.spent
  applied held := by
    have unmoved : Notice.apply held (.balance tokenType newBalance) = held := by
      simp [Notice.apply, Notice.created, Notice.spent, Differences.change]
    rw [List.foldl_cons, unmoved, h.applied]

theorem Tells.transaction (known next : KnownUtxos) : Tells known next (txNotices known next) := by
  have created : {p | p ∈ (next.without known.toOrderedMap).map outpoint} =
      next.outpoints \ known.outpoints := Set.ext fun p => next.mem_without known p
  have spent : {p | p ∈ (known.without next.toOrderedMap).map outpoint} =
      known.outpoints \ next.outpoints := Set.ext fun p => known.mem_without next p
  unfold txNotices
  dsimp only
  split
  · rename_i none
    rw [Bool.and_eq_true, List.isEmpty_iff, List.isEmpty_iff] at none
    refine ⟨by rw [none.1]; rfl, by rw [none.2]; rfl, fun held => ?_⟩
    rw [← created, ← spent, none.1, none.2]
    simp [Differences.change]
  · refine ⟨List.append_nil _, List.append_nil _, fun held => ?_⟩
    rw [← created, ← spent]
    rfl

theorem pollServed_known (address : String) (utxos : List Utxo) (sub : IndexerSubscription) :
    (pollServed address utxos sub).1.lastKnownUtxos =
      if (walletStateFromUtxos address utxos).availableUtxoCount = sub.lastUtxoCount then
        sub.lastKnownUtxos
      else KnownUtxos.current utxos := by
  simp only [pollServed, poll, ne_eq, ite_not]
  split <;> rfl

theorem pollServed_count (address : String) (utxos : List Utxo) (sub : IndexerSubscription) :
    (pollServed address utxos sub).1.lastUtxoCount =
      (walletStateFromUtxos address utxos).availableUtxoCount := by
  simp only [pollServed, poll, ne_eq, ite_not]
  split
  · rename_i same
    exact same.symm
  · rfl

theorem pollServed_tells (address : String) (utxos : List Utxo) (sub : IndexerSubscription) :
    Tells sub.lastKnownUtxos (pollServed address utxos sub).1.lastKnownUtxos
      (pollServed address utxos sub).2 := by
  simp only [pollServed, poll]
  split
  · split
    · exact (Tells.transaction _ _).balance _ _
    · exact Tells.transaction _ _
  · split
    · exact (Tells.nothing _).balance _ _
    · exact Tells.nothing _

/-! ## Following -/

section Following

variable (address : String) (served : ℕ → List Utxo)

/-- The number of outputs as it is compared. -/
def countOf (utxos : List Utxo) : UInt64 := (UInt32.ofNat utxos.length).toUInt64

def knownAfter (n : ℕ) : KnownUtxos := (subscription address served n).lastKnownUtxos

theorem noticesAt_tells (n : ℕ) :
    Tells (knownAfter address served n) (knownAfter address served (n + 1))
      (noticesAt address served n) :=
  pollServed_tells address (served n) (subscription address served n)

theorem lastUtxoCount_eq (n : ℕ) :
    (subscription address served n).lastUtxoCount = countOf (servedLast served n) := by
  cases n with
  | zero => rfl
  | succ n => exact pollServed_count address (served n) (subscription address served n)

theorem knownAfter_succ (n : ℕ) :
    knownAfter address served (n + 1) =
      if countOf (servedLast served (n + 1)) = countOf (servedLast served n) then
        knownAfter address served n
      else KnownUtxos.current (servedLast served (n + 1)) := by
  rw [← lastUtxoCount_eq address served n]
  exact pollServed_known address (served n) (subscription address served n)

/-- The outputs known are a copy of those served, renewed when their number changes. -/
theorem knownAfter_renewed :
    Differences.Renewed (fun n => outpointsOf (servedLast served n))
      (fun n => countOf (servedLast served n)) fun n => (knownAfter address served n).outpoints where
  start := KnownUtxos.outpoints_none.trans (by simp [outpointsOf, servedLast])
  same n h := by rw [knownAfter_succ, if_pos h]
  changed n h := by rw [knownAfter_succ, if_neg h, KnownUtxos.outpoints_current]

theorem heldAfter_eq (n : ℕ) :
    heldAfter address served n = (knownAfter address served n).outpoints := by
  apply Differences.follower_eq
  · exact KnownUtxos.outpoints_none.symm
  · intro n
    exact (noticesAt_tells address served n).applied (heldAfter address served n)

theorem mem_createdAt {n : ℕ} {p : Outpoint} :
    p ∈ createdAt address served n ↔
      p ∈ (knownAfter address served (n + 1)).outpoints \ (knownAfter address served n).outpoints := by
  rw [createdAt, (noticesAt_tells address served n).created, KnownUtxos.mem_without]

theorem mem_spentAt {n : ℕ} {p : Outpoint} :
    p ∈ spentAt address served n ↔
      p ∈ (knownAfter address served n).outpoints \ (knownAfter address served (n + 1)).outpoints := by
  rw [spentAt, (noticesAt_tells address served n).spent, KnownUtxos.mem_without]

/-- A round names no output twice. -/
theorem createdAt_nodup (n : ℕ) : (createdAt address served n).Nodup := by
  rw [createdAt, (noticesAt_tells address served n).created]
  exact KnownUtxos.without_nodup _ _

/-- A subscriber holds the outputs served after every round, and no output is reported
created again before it is reported spent. -/
structure Follows : Prop where
  exact : ∀ n, heldAfter address served (n + 1) = outpointsOf (served n)
  once : ∀ n, (createdAt address served n).Nodup
  spentBetween : ∀ i j, i < j → ∀ p ∈ createdAt address served i, p ∈ createdAt address served j →
    ∃ k, i < k ∧ k < j ∧ p ∈ spentAt address served k

/-- **When a subscriber follows.** A subscriber holds what is served exactly where two
states in a row with the same number of outputs have the same outputs. -/
theorem follows_iff :
    Follows address served ↔
      ∀ n, countOf (servedLast served (n + 1)) = countOf (servedLast served n) →
        outpointsOf (servedLast served (n + 1)) = outpointsOf (servedLast served n) := by
  have renewed := knownAfter_renewed address served
  rw [← renewed.upToDate_iff]
  constructor
  · intro follows n
    cases n with
    | zero => exact renewed.start
    | succ n => exact (heldAfter_eq address served (n + 1)).symm.trans (follows.exact n)
  · intro upToDate
    refine ⟨fun n => ?_, createdAt_nodup address served, ?_⟩
    · exact (heldAfter_eq address served (n + 1)).trans (upToDate (n + 1))
    · intro i j hij p hi hj
      obtain ⟨k, hik, hkj, hk⟩ := @Differences.removed_between _
        (fun n => (knownAfter address served n).outpoints) p i j hij
        ((mem_createdAt address served).mp hi) ((mem_createdAt address served).mp hj)
      exact ⟨k, hik, hkj, (mem_spentAt address served).mpr hk⟩

end Following

/-! ## One output for another -/

def fiveFrom (txHash : String) : Utxo where
  txHash
  outputIndex := 0
  address := "mn_addr"
  amountCommitment := ""
  value := 5
  tokenType := ""
  blockHeight := 1
  ctime := 0
  initialNonce := ""
  registeredForDustGeneration := false

/-- One output is there at first, and ever after another one. -/
def replaced : ℕ → List Utxo
  | 0 => [fiveFrom "0xa1"]
  | _ + 1 => [fiveFrom "0xb2"]

/-- The second output is never called back. -/
theorem not_follows_replaced : ¬ Follows "mn_addr" replaced := by
  intro h
  have served : ("0xb2", 0) ∈ heldAfter "mn_addr" replaced 2 := by
    rw [h.exact 1]
    exact List.mem_singleton_self _
  have missing : (knownAfter "mn_addr" replaced 2).contains (utxoHash "0xb2" 0) = false := by rfl
  rw [heldAfter_eq] at served
  exact Bool.false_ne_true (missing.symm.trans served)

end MidnightSdk.Network
