import MidnightSdk.Library.FinalizingChain
import MidnightSdk.Library.Runs
import MidnightSdk.MonitoringFinality.Rpc

/-!
# Reorganisations

The monitor remembers the best block and its height from one poll to the next, and
reports a reorganisation when another block is best at no greater height. What it takes
for the best block is the finalized head, which is never replaced.
-/

namespace MidnightSdk.MonitoringFinality

open Cpp Network Runs

structure ReorgEvent where
  forkHeight : UInt32
  oldBlockHash : String
  newBlockHash : String
  blocksReorganized : UInt32
  deriving DecidableEq, Repr

structure BlockMonitor where
  lastBestBlock : String := ""
  lastBestHeight : UInt32 := 0
  deriving DecidableEq, Repr

def getBestBlockHash (node : NodeAnswers) : String :=
  match rpcCall node "chain_getFinalizedHead" (.array []) with
  | .ok (.string hash) => hash
  | .ok _ =>
    match rpcCall node "chain_getBlockHash" (.array []) with
    | .ok (.string hash) => hash
    | _ => ""
  | .error _ => ""

def getBestBlockHeight (node : NodeAnswers) : UInt32 :=
  match rpcCall node "chain_getHeader" (.array []) with
  | .ok header => parseBlockHeight header
  | .error _ => 0

namespace BlockMonitor

/-- The monitor after a poll, and its report. -/
def detectReorg (monitor : BlockMonitor) (node : NodeAnswers) : BlockMonitor × Option ReorgEvent :=
  let currentBest := getBestBlockHash node
  let currentHeight := getBestBlockHeight node
  let current : BlockMonitor := { lastBestBlock := currentBest, lastBestHeight := currentHeight }
  if monitor.lastBestBlock = "" then (current, none)
  else if currentBest ≠ "" ∧ currentBest ≠ monitor.lastBestBlock ∧
      currentHeight ≤ monitor.lastBestHeight then
    (current, some {
      forkHeight := if monitor.lastBestHeight > 1 then monitor.lastBestHeight - 1 else 0
      oldBlockHash := monitor.lastBestBlock
      newBlockHash := currentBest
      blocksReorganized := 1 })
  else if currentBest ≠ "" then (current, none)
  else (monitor, none)

theorem detectReorg_isSome_iff (monitor : BlockMonitor) (node : NodeAnswers) :
    (monitor.detectReorg node).2.isSome = true ↔
      monitor.lastBestBlock ≠ "" ∧ getBestBlockHash node ≠ "" ∧
        getBestBlockHash node ≠ monitor.lastBestBlock ∧
        getBestBlockHeight node ≤ monitor.lastBestHeight := by
  simp only [detectReorg]
  split
  · simp [*]
  · split
    · simp [*]
    · rename_i recorded quiet
      split <;> simp [recorded, quiet]

/-- What is recorded after a poll was recorded before, or is what the poll read. -/
theorem detectReorg_records (monitor : BlockMonitor) (node : NodeAnswers) :
    (monitor.detectReorg node).1.lastBestBlock = monitor.lastBestBlock ∨
      (monitor.detectReorg node).1.lastBestBlock = getBestBlockHash node := by
  simp only [detectReorg]
  split
  · exact Or.inr rfl
  · split
    · exact Or.inr rfl
    · split
      · exact Or.inr rfl
      · exact Or.inl rfl

end BlockMonitor

/-! ## Polls of a chain -/

/-- One poll of a node that does not lie, with its chain when the poll ends: the head it
names, if it does, is one of the final blocks. -/
structure ChainPoll where
  node : NodeAnswers
  chain : FinalizingChain String
  head : ∀ answer, node "chain_getFinalizedHead" (.array []) = .ok answer →
    ∃ hash ∈ chain.final, hash ≠ "" ∧ answer = .string hash

/-- The states a node serves one after the other. -/
def Serves (polls : List ChainPoll) : Prop := polls.Pairwise fun p q => p.chain.Finalizes q.chain

theorem ChainPoll.hash_final (poll : ChainPoll) :
    getBestBlockHash poll.node = "" ∨ getBestBlockHash poll.node ∈ poll.chain.final := by
  unfold getBestBlockHash
  cases hcall : rpcCall poll.node "chain_getFinalizedHead" (.array []) with
  | error e => exact Or.inl rfl
  | ok answer =>
    obtain ⟨hash, hfinal, -, rfl⟩ := poll.head answer (rpcCall_eq_ok.mp hcall)
    exact Or.inr hfinal

/-- A report at a poll says that the recorded block is off the chain, and there is one
whenever it is, with no better block than recorded. -/
def ReportsRight (monitor : BlockMonitor) (poll : ChainPoll) : Prop :=
  ((monitor.detectReorg poll.node).2.isSome = true →
    monitor.lastBestBlock ∉ poll.chain.blocks) ∧
  (monitor.lastBestBlock ≠ "" → monitor.lastBestBlock ∉ poll.chain.blocks →
    poll.chain.blocks.length ≤ monitor.lastBestHeight.toNat + 1 →
      (monitor.detectReorg poll.node).2.isSome = true)

/-- When the head read is another one than recorded, the best height read has grown. -/
def Advances (monitor : BlockMonitor) (poll : ChainPoll) : Prop :=
  monitor.lastBestBlock ≠ "" → getBestBlockHash poll.node ≠ "" →
    getBestBlockHash poll.node ≠ monitor.lastBestBlock →
    monitor.lastBestHeight < getBestBlockHeight poll.node

theorem reportsRight_iff {monitor : BlockMonitor} {poll : ChainPoll}
    (h : monitor.lastBestBlock = "" ∨ monitor.lastBestBlock ∈ poll.chain.final) :
    ReportsRight monitor poll ↔ Advances monitor poll := by
  unfold ReportsRight Advances
  rw [BlockMonitor.detectReorg_isSome_iff]
  rcases h with hnone | hfinal
  · simp [hnone]
  · have onChain := FinalizingChain.mem_blocks_of_final hfinal
    simp only [onChain, not_true_eq_false, false_implies, implies_true, and_true, imp_false]
    constructor
    · intro quiet recorded read other
      exact UInt32.not_le.mp fun low => quiet ⟨recorded, read, other, low⟩
    · rintro advances ⟨recorded, read, other, low⟩
      exact UInt32.not_le.mpr (advances recorded read other) low

/-- The monitor from one poll to the next. -/
def afterPoll (monitor : BlockMonitor) (poll : ChainPoll) : BlockMonitor :=
  (monitor.detectReorg poll.node).1

/-- What is recorded is final, and stays so. -/
theorem everyStep_reportsRight_iff {polls : List ChainPoll} (hserves : Serves polls)
    {monitor : BlockMonitor}
    (hmonitor : ∀ next ∈ polls,
      monitor.lastBestBlock = "" ∨ monitor.lastBestBlock ∈ next.chain.final) :
    EveryStep afterPoll ReportsRight monitor polls ↔ EveryStep afterPoll Advances monitor polls := by
  induction polls generalizing monitor with
  | nil => rfl
  | cons first rest ih =>
    obtain ⟨finalizes, hrest⟩ := List.pairwise_cons.mp hserves
    obtain ⟨now, later⟩ := List.forall_mem_cons.mp hmonitor
    refine and_congr (reportsRight_iff now) (ih hrest ?_)
    intro next hmem
    rcases monitor.detectReorg_records first.node with hkept | hread
    · rw [afterPoll, hkept]
      exact later next hmem
    · rw [afterPoll, hread]
      exact first.hash_final.imp_right fun hfinal => (finalizes next hmem).mem hfinal

/-- **When reports are right.** Over the states a node serves, every report is right
exactly when the best height has grown at every poll that reads another finalized head. -/
theorem detectReorg_right_iff (polls : List ChainPoll) (hserves : Serves polls) :
    EveryStep afterPoll ReportsRight {} polls ↔ EveryStep afterPoll Advances {} polls :=
  everyStep_reportsRight_iff hserves fun _ _ => Or.inl rfl

/-! ## A chain that only finalizes -/

/-- Three blocks, of which the first ones are final. -/
def threeBlocks (finalized : Nat) (h : finalized ≤ 3) : FinalizingChain String :=
  ⟨["0xb0", "0xb1", "0xb2"], finalized, h⟩

/-- The best block stays the third one while the head goes from the first to the second. -/
def headAt (hash : String) : NodeAnswers
  | "chain_getFinalizedHead", _ => .ok (.string hash)
  | "chain_getHeader", .array [] => .ok (.object [("number", .string "0x2")])
  | _, _ => .error "Method not found"

def headGoesOn : List ChainPoll :=
  [{ node := headAt "0xb0"
     chain := threeBlocks 1 (by decide)
     head := by
      rintro answer ⟨⟩
      exact ⟨"0xb0", by decide, by decide, rfl⟩ },
   { node := headAt "0xb1"
     chain := threeBlocks 2 (by decide)
     head := by
      rintro answer ⟨⟩
      exact ⟨"0xb1", by decide, by decide, rfl⟩ }]

theorem serves_headGoesOn : Serves headGoesOn := by
  refine .cons ?_ (.cons nofun .nil)
  intro next hmem
  obtain rfl := List.mem_singleton.mp hmem
  exact ⟨["0xb1"], rfl⟩

theorem detectReorg_right_iff_headGoesOn :
    EveryStep afterPoll ReportsRight {} headGoesOn ↔ EveryStep afterPoll Advances {} headGoesOn :=
  detectReorg_right_iff headGoesOn serves_headGoesOn

/-- Nothing is replaced, and a reorganisation is reported. -/
theorem not_reportsRight_headGoesOn :
    Serves headGoesOn ∧ ¬ EveryStep afterPoll ReportsRight {} headGoesOn := by
  refine ⟨serves_headGoesOn, ?_⟩
  rintro ⟨-, ⟨sound, -⟩, -⟩
  exact sound (by decide) (by decide)

end MidnightSdk.MonitoringFinality
