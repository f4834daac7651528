import MidnightSdk.Library.FinalizingChain
import MidnightSdk.Library.Runs
import MidnightSdk.MonitoringFinality.Rpc
import MidnightSdk.Network.NodeWaits

/-!
# Transactions taken for included

Four waits report a transaction as included or final because the pending pool does not
show it, two of them only once the finalized height has grown. Whether a report is right
is a matter of the chain, which none of them looks at.
-/

namespace MidnightSdk.MonitoringFinality

open Cpp Network Runs

inductive TransactionStatus where
  | inMempool
  | inBlock
  | finalizedConfirmed
  | reorganizedOut
  deriving DecidableEq, Repr

structure TransactionStatusUpdate where
  transactionHash : String
  blockHeight : UInt32 := 0
  status : TransactionStatus := .inMempool
  deriving DecidableEq, Repr

section
variable {ρ : Type} (answers : ρ → NodeAnswers)

/-- The pool does not show the transaction, and more is final than at the start. -/
def takenForFinal (txHash : String) (finalizedStart : UInt32) (node : NodeAnswers) : Bool :=
  !isTxInPendingExtrinsics node txHash && getFinalizedHeightFromRpc node > finalizedStart

/-- `TransactionMonitor::monitor_transaction`: the updates, each with its round. The loop
has 90 rounds; `monitoring` says whether the monitor is still on behind them. -/
def monitorTransaction (txHash : String) (start : NodeAnswers) (monitoring : Bool)
    (rounds : List ρ) : List (TransactionStatusUpdate × Option ρ) :=
  let finalizedAtStart := getFinalizedHeightFromRpc start
  ({ transactionHash := txHash }, none) ::
    match (rounds.take 90).find? fun round => takenForFinal txHash finalizedAtStart (answers round) with
    | some round =>
      let blockHeight := getFinalizedHeightFromRpc (answers round)
      [({ transactionHash := txHash, blockHeight, status := .inBlock }, some round),
        ({ transactionHash := txHash, blockHeight, status := .finalizedConfirmed }, some round)]
    | none =>
      if !monitoring then []
      else [({ transactionHash := txHash, status := .reorganizedOut }, none)]

/-- `FinalityAwaiter::wait_for_tx_finality`: the round in which it returns true, if one
does so in time. -/
def waitForTxFinality (txHash : String) (start : NodeAnswers) (rounds : List ρ) : Option ρ :=
  let finalizedStart := getFinalizedHeightFromRpc start
  rounds.find? fun round => takenForFinal txHash finalizedStart (answers round)

end

/-! ## Rounds at a node -/

/-- A round at a node: what it answers, and its chain, each block as the hashes of its
transactions. -/
structure Round where
  node : NodeAnswers
  chain : FinalizingChain (List String)

def Included (txHash : String) (chain : FinalizingChain (List String)) : Prop :=
  ∃ block ∈ chain.blocks, txHash ∈ block

def Finalized (txHash : String) (chain : FinalizingChain (List String)) : Prop :=
  ∃ block ∈ chain.final, txHash ∈ block

theorem Finalized.included {txHash : String} {chain : FinalizingChain (List String)}
    (h : Finalized txHash chain) : Included txHash chain :=
  let ⟨block, hfinal, hmem⟩ := h
  ⟨block, FinalizingChain.mem_blocks_of_final hfinal, hmem⟩

theorem Finalized.later {txHash : String} {chain later : FinalizingChain (List String)}
    (h : Finalized txHash chain) (hlater : chain.Finalizes later) : Finalized txHash later :=
  let ⟨block, hfinal, hmem⟩ := h
  ⟨block, hlater.mem hfinal, hmem⟩

/-- What is reported, of a transaction that is monitored or waited for, in the rounds. -/
structure FinalityReportsRight (txHash : String) (start : NodeAnswers) (rounds : List Round) :
    Prop where
  monitor : ∀ monitoring update round,
    (update, some round) ∈ monitorTransaction Round.node txHash start monitoring rounds →
      (update.status = .inBlock → Included txHash round.chain) ∧
      (update.status = .finalizedConfirmed → Finalized txHash round.chain)
  awaiter : ∀ round, waitForTxFinality Round.node txHash start rounds = some round →
    Finalized txHash round.chain

/-- An update that is no beginning and no end comes from the first round that takes the
transaction for final. -/
theorem mem_monitorTransaction {txHash : String} {start : NodeAnswers} {monitoring : Bool}
    {rounds : List Round} {update : TransactionStatusUpdate} {round : Round}
    (h : (update, some round) ∈ monitorTransaction Round.node txHash start monitoring rounds) :
    round ∈ rounds ∧
      takenForFinal txHash (getFinalizedHeightFromRpc start) round.node = true := by
  unfold monitorTransaction at h
  dsimp only at h
  rcases List.mem_cons.mp h with heq | h
  · cases heq
  · split at h
    · rename_i found hfound
      have same : round = found := by
        simp only [List.mem_cons, Prod.mk.injEq, Option.some.injEq, List.not_mem_nil,
          or_false] at h
        exact h.elim And.right And.right
      rw [same]
      have passes := List.find?_some hfound
      exact ⟨List.mem_of_mem_take (List.mem_of_find?_eq_some hfound), passes⟩
    · split at h
      · cases h
      · simp at h

/-- The transaction is final, unless the pool shows it or nothing more became final. -/
def FinalUnlessPending (txHash : String) (start : NodeAnswers) (round : Round) : Prop :=
  isTxInPendingExtrinsics round.node txHash = true ∨
    getFinalizedHeightFromRpc round.node ≤ getFinalizedHeightFromRpc start ∨
    Finalized txHash round.chain

theorem finalUnlessPending_iff {txHash : String} {start : NodeAnswers} {round : Round} :
    FinalUnlessPending txHash start round ↔
      (takenForFinal txHash (getFinalizedHeightFromRpc start) round.node = true →
        Finalized txHash round.chain) := by
  unfold FinalUnlessPending takenForFinal
  cases isTxInPendingExtrinsics round.node txHash with
  | true => simp
  | false =>
    simp only [Bool.false_eq_true, false_or, Bool.not_false, Bool.true_and, decide_eq_true_eq,
      gt_iff_lt, ← UInt32.not_lt]
    exact Decidable.imp_iff_not_or.symm

theorem finalityReportsRight_iff (txHash : String) (start : NodeAnswers) {rounds : List Round}
    (hchain : rounds.Pairwise fun p q => p.chain.Finalizes q.chain) :
    FinalityReportsRight txHash start rounds ↔
      ∀ round ∈ rounds, FinalUnlessPending txHash start round := by
  have onward : rounds.Pairwise fun p q => Finalized txHash p.chain → Finalized txHash q.chain :=
    hchain.imp fun hpq hfinal => hfinal.later hpq
  have first := @find?_right_iff Round
    (fun round => takenForFinal txHash (getFinalizedHeightFromRpc start) round.node) _ _ onward
  simp only [finalUnlessPending_iff]
  constructor
  · intro h
    exact first.mp h.awaiter
  · intro h
    refine ⟨fun monitoring update round hupdate => ?_, first.mpr h⟩
    obtain ⟨hmem, hpasses⟩ := mem_monitorTransaction hupdate
    have hfinal := h round hmem hpasses
    exact ⟨fun _ => hfinal.included, fun _ => hfinal⟩

/-- The transaction is final, unless looking into the pool fails or shows it. -/
def FinalUnlessShown (txHash : String) (round : Round) : Prop :=
  poolShows round.node txHash ≠ .ok false ∨ Finalized txHash round.chain

theorem waitForFinalization_right_iff (txHash : String) {rounds : List Round}
    (hchain : rounds.Pairwise fun p q => p.chain.Finalizes q.chain) :
    (∀ round, waitForFinalization Round.node txHash rounds = some round →
      Finalized txHash round.chain) ↔ ∀ round ∈ rounds, FinalUnlessShown txHash round := by
  have onward : rounds.Pairwise fun p q => Finalized txHash p.chain → Finalized txHash q.chain :=
    hchain.imp fun hpq hfinal => hfinal.later hpq
  have exempt (round : Round) : FinalUnlessShown txHash round ↔
      (poolMisses round.node txHash = true → Finalized txHash round.chain) := by
    unfold FinalUnlessShown poolMisses
    cases poolShows round.node txHash with
    | error e => simp
    | ok found => cases found <;> simp
  simp only [exempt]
  exact find?_right_iff onward

/-- Once the pool has shown the transaction, it does so until a block has it, as far as
it is answered. -/
def IncludedUnlessShown (txId : String) (rounds : List Round) : Prop :=
  ∀ before round after, rounds = before ++ round :: after →
    (∃ earlier ∈ before, pendingAt earlier.node txId = some true) →
      pendingAt round.node txId ≠ some false ∨ Included txId round.chain

/-- The loop returns true in a round whose pool does not show what was seen before. -/
theorem confirmationLoop_eq_some {txId : String} {maxBlocks : UInt32} {startHeight : UInt64}
    {seen : Bool} {rounds : List Round} {round : Round}
    (h : confirmationLoop Round.node txId maxBlocks startHeight seen rounds = some round) :
    ∃ before after, rounds = before ++ round :: after ∧
      pendingAt round.node txId = some false ∧
      (seen = true ∨ ∃ earlier ∈ before, pendingAt earlier.node txId = some true) := by
  induction rounds generalizing seen with
  | nil => cases h
  | cons first rest ih =>
    rw [confirmationLoop] at h
    split at h
    · rename_i gone
      cases h
      rw [Bool.and_eq_true, decide_eq_true_eq] at gone
      exact ⟨[], rest, rfl, gone.1, Or.inl gone.2⟩
    · split at h
      · cases h
      · obtain ⟨before, after, rfl, hgone, hseen⟩ := ih h
        refine ⟨first :: before, after, rfl, hgone, ?_⟩
        rcases hseen with hseen | ⟨earlier, hmem, hshown⟩
        · rw [Bool.or_eq_true, decide_eq_true_eq] at hseen
          exact hseen.imp_right fun hshown => ⟨first, List.mem_cons_self .., hshown⟩
        · exact Or.inr ⟨earlier, List.mem_cons_of_mem first hmem, hshown⟩

theorem waitForConfirmation_right (txId : String) (maxBlocks : UInt32) (start : NodeAnswers)
    {rounds : List Round} (h : IncludedUnlessShown txId rounds) {round : Round}
    (hround : waitForConfirmation Round.node txId maxBlocks start rounds = some round) :
    Included txId round.chain := by
  unfold waitForConfirmation at hround
  split at hround
  · cases hround
  dsimp only at hround
  obtain ⟨before, after, hrounds, hgone, hseen⟩ := confirmationLoop_eq_some hround
  have shown := hseen.resolve_left nofun
  have part : ∃ after', rounds = before ++ round :: after' := by
    split at hrounds
    · exact ⟨after, hrounds⟩
    · refine ⟨after ++ rounds.drop maxBlocks.toNat, ?_⟩
      rw [← List.cons_append, ← List.append_assoc, ← hrounds, List.take_append_drop]
  obtain ⟨after', hrounds'⟩ := part
  exact (h before round after' hrounds' shown).resolve_left fun hne => hne hgone

/-- **When reports are right.** While the chain finalizes its blocks, the monitor and the
awaiter are right exactly when the transaction is final in every round whose pool does
not show it after more became final; the wait for finalization exactly when it is final
in every round whose pool is read and does not show it. The wait for confirmation is
right when a block has the transaction in every round whose pool no longer shows it. -/
theorem inclusion_reports_right (txHash : String) (start : NodeAnswers) (maxBlocks : UInt32)
    (rounds : List Round) (hchain : rounds.Pairwise fun p q => p.chain.Finalizes q.chain) :
    (FinalityReportsRight txHash start rounds ↔
      ∀ round ∈ rounds, FinalUnlessPending txHash start round) ∧
    ((∀ round, waitForFinalization Round.node txHash rounds = some round →
        Finalized txHash round.chain) ↔ ∀ round ∈ rounds, FinalUnlessShown txHash round) ∧
    (IncludedUnlessShown txHash rounds →
      ∀ round, waitForConfirmation Round.node txHash maxBlocks start rounds = some round →
        Included txHash round.chain) :=
  ⟨finalityReportsRight_iff txHash start hchain, waitForFinalization_right_iff txHash hchain,
    fun h _ => waitForConfirmation_right txHash maxBlocks start h⟩

/-! ## A transaction that is dropped -/

/-- A node whose pool holds some texts, with a block final at a height. -/
def nodeAt (height : String) (pool : List Json) : NodeAnswers
  | "author_pendingExtrinsics", _ => .ok (.array pool)
  | "chain_getFinalizedHead", _ => .ok (.string "0xb0")
  | "chain_getHeader", _ => .ok (.object [("number", .string height)])
  | _, _ => .error "Method not found"

def emptyChain (length : Nat) : FinalizingChain (List String) :=
  ⟨List.replicate length [], length, by simp⟩

/-- The transaction is pending while block five is final; then it is dropped, and block
six becomes final without it. -/
def dropped : List Round :=
  [⟨nodeAt "0x5" [.string "0xaabbccddee"], emptyChain 6⟩, ⟨nodeAt "0x6" [], emptyChain 7⟩]

theorem dropped_finalizes : dropped.Pairwise fun p q => p.chain.Finalizes q.chain := by
  refine .cons ?_ (.cons nofun .nil)
  intro next hmem
  obtain rfl := List.mem_singleton.mp hmem
  exact ⟨[[]], rfl⟩

theorem inclusion_reports_right_dropped :
    (FinalityReportsRight "0xaabbccddee" (nodeAt "0x5" []) dropped ↔
      ∀ round ∈ dropped, FinalUnlessPending "0xaabbccddee" (nodeAt "0x5" []) round) ∧
    ((∀ round, waitForFinalization Round.node "0xaabbccddee" dropped = some round →
        Finalized "0xaabbccddee" round.chain) ↔
      ∀ round ∈ dropped, FinalUnlessShown "0xaabbccddee" round) ∧
    (IncludedUnlessShown "0xaabbccddee" dropped →
      ∀ round, waitForConfirmation Round.node "0xaabbccddee" 0 (nodeAt "0x5" []) dropped =
        some round → Included "0xaabbccddee" round.chain) :=
  inclusion_reports_right "0xaabbccddee" (nodeAt "0x5" []) 0 dropped dropped_finalizes

/-- The chain finalizes its blocks, none of them has the transaction, and all four report
it. -/
theorem dropped_reported :
    dropped.Pairwise (fun p q => p.chain.Finalizes q.chain) ∧
      (∀ round ∈ dropped, ¬ Included "0xaabbccddee" round.chain) ∧
      ¬ FinalityReportsRight "0xaabbccddee" (nodeAt "0x5" []) dropped ∧
      (waitForTxFinality Round.node "0xaabbccddee" (nodeAt "0x5" []) dropped).isSome = true ∧
      (waitForFinalization Round.node "0xaabbccddee" dropped).isSome = true ∧
      (waitForConfirmation Round.node "0xaabbccddee" 0 (nodeAt "0x5" []) dropped).isSome =
        true := by
  have absent : ∀ round ∈ dropped, ¬ Included "0xaabbccddee" round.chain := by
    unfold Included
    decide
  refine ⟨dropped_finalizes, absent, fun h => ?_, by decide, by decide, by decide⟩
  have reported : waitForTxFinality Round.node "0xaabbccddee" (nodeAt "0x5" []) dropped =
      some ⟨nodeAt "0x6" [], emptyChain 7⟩ := rfl
  exact absent _ (by simp [dropped]) (h.awaiter _ reported).included

end MidnightSdk.MonitoringFinality
