import MidnightSdk.Library.CountedLoop
import MidnightSdk.MonitoringFinality.BlockMonitor
import MidnightSdk.Network.IndexerClient

/-!
# Ranges of blocks

Two loops go over the blocks from one height to another: the scan of the indexer, and the
history of the node's block hashes. Heights have 32 bits and the bound belongs to the
range, so a range up to the largest height has no end of its own; and the scan asks for
heights as signed numbers.
-/

namespace MidnightSdk.MonitoringFinality

open Cpp Network CountedLoop

/-! ## The scan -/

/-- `static_cast<int>(h)`, as the query has it. -/
def queryHeight (h : UInt32) : Int32 := h.toInt32

/-- The loop over the heights as far as it has gone, given what the queries return or
throw one after the other: the heights visited, with the outputs found. -/
def scanRounds (address : String) (toBlock : UInt32) :
    Nat → (Nat → Throws Json) → UInt32 → Option (List UInt32 × List Utxo)
  | 0, _, _ => none
  | rounds + 1, answers, h =>
    if h ≤ toBlock then
      match answers 0 with
      | .error _ => some ([h], [])
      | .ok result =>
        let scanned := Kept.each (scanTransaction address h) (transactionList result)
        match scanned.ended with
        | .error _ => some ([h], scanned.items)
        | .ok _ =>
          (scanRounds address toBlock rounds (fun i => answers (i + 1)) (h + 1)).map
            fun (heights, utxos) => (h :: heights, scanned.items ++ utxos)
    else some ([], [])

/-- The scan goes on with what the queries of the visited heights have answered. -/
theorem scanLoop_of_scanRounds {address : String} {toBlock : UInt32} {rounds : Nat}
    {answers : Nat → Throws Json} {h : UInt32} {heights : List UInt32} {utxos : List Utxo}
    (hr : scanRounds address toBlock rounds answers h = some (heights, utxos)) :
    scanLoop address toBlock h ((List.range heights.length).map answers) = some utxos := by
  induction rounds generalizing answers h heights utxos with
  | zero => cases hr
  | succ rounds ih =>
    rw [scanRounds] at hr
    split at hr
    · rename_i inside
      split at hr
      · rename_i failed
        cases hr
        simp only [List.length_singleton, List.range_one, List.map_cons, List.map_nil, scanLoop,
          if_pos inside, failed]
      · rename_i result answered
        simp only at hr
        split at hr
        · rename_i unread
          cases hr
          simp only [List.length_singleton, List.range_one, List.map_cons, List.map_nil, scanLoop,
            if_pos inside, answered, unread]
        · rename_i read
          obtain ⟨⟨later, found⟩, hlater, heq⟩ := Option.map_eq_some_iff.mp hr
          cases heq
          have rest := ih hlater
          simp only [List.length_cons, List.range_succ_eq_map, List.map_cons, List.map_map,
            scanLoop, if_pos inside, answered, read]
          rw [show (answers ∘ Nat.succ) = fun i => answers (i + 1) from rfl, rest]
          rfl
    · rename_i outside
      cases hr
      simp only [List.length_nil, List.range_zero, List.map_nil, scanLoop, if_neg outside]

/-- A query that throws, or an answer that cannot be read, ends the scan. -/
def scanLeaves (address : String) (answers : Nat → Throws Json) : Verdicts := fun i h =>
  match answers i with
  | .error _ => true
  | .ok result =>
    !(Kept.each (scanTransaction address h) (transactionList result)).ended.isOk

theorem scanRounds_heights (address : String) (toBlock : UInt32) (rounds : Nat)
    (answers : Nat → Throws Json) (h : UInt32) :
    (scanRounds address toBlock rounds answers h).map Prod.fst =
      visited toBlock rounds (scanLeaves address answers) h := by
  induction rounds generalizing answers h with
  | zero => rfl
  | succ rounds ih =>
    rw [scanRounds, visited]
    split
    · cases answered : answers 0 with
      | error e => simp [scanLeaves, answered]
      | ok result =>
        cases ended : (Kept.each (scanTransaction address h) (transactionList result)).ended with
        | error e => simp [scanLeaves, answered, ended, Except.isOk, Except.toBool]
        | ok u =>
          have stays : scanLeaves address answers 0 h = false := by
            simp [scanLeaves, answered, ended, Except.isOk, Except.toBool]
          simp only [ended, stays, if_neg Bool.false_ne_true, Option.map_map]
          change _ =
            (visited toBlock rounds (scanLeaves address fun i => answers (i + 1)) (h + 1)).map _
          rw [← ih, Option.map_map]
          rfl
    · rfl

/-- The scan ends, and visits each height of its range once and in increasing order, as
far as it goes. -/
def ScanVisits (address : String) (answers : Nat → Throws Json) (fromBlock toBlock : UInt32) :
    Prop :=
  ∃ rounds heights utxos,
    scanRounds address toBlock rounds answers fromBlock = some (heights, utxos) ∧
      heights.map (·.toNat) =
        upTo (scanLeaves address answers) (numbers fromBlock.toNat toBlock.toNat)

/-- The same of the heights that are asked for. -/
def ScanAsks (address : String) (answers : Nat → Throws Json) (fromBlock toBlock : UInt32) :
    Prop :=
  ∃ rounds heights utxos,
    scanRounds address toBlock rounds answers fromBlock = some (heights, utxos) ∧
      heights.map (fun h => (queryHeight h).toInt) =
        (upTo (scanLeaves address answers) (numbers fromBlock.toNat toBlock.toNat)).map Int.ofNat

theorem exists_scanRounds {address : String} {answers : Nat → Throws Json}
    {fromBlock toBlock : UInt32} {rounds : Nat} {heights : List UInt32} :
    (∃ utxos, scanRounds address toBlock rounds answers fromBlock = some (heights, utxos)) ↔
      visited toBlock rounds (scanLeaves address answers) fromBlock = some heights := by
  rw [← scanRounds_heights, Option.map_eq_some_iff]
  constructor
  · rintro ⟨utxos, h⟩
    exact ⟨_, h, rfl⟩
  · rintro ⟨⟨_, utxos⟩, h, rfl⟩
    exact ⟨utxos, h⟩

theorem scanVisits_iff (address : String) (answers : Nat → Throws Json)
    (fromBlock toBlock : UInt32) :
    ScanVisits address answers fromBlock toBlock ↔ toBlock ≠ maxWord ∨
      LeavesBelow (2 ^ 32) (scanLeaves address answers) fromBlock.toNat toBlock.toNat := by
  rw [← visits_iff]
  constructor
  · rintro ⟨rounds, heights, utxos, hscan, hheights⟩
    exact ⟨rounds, heights, exists_scanRounds.mp ⟨utxos, hscan⟩, hheights⟩
  · rintro ⟨rounds, heights, hvisited, hheights⟩
    obtain ⟨utxos, hscan⟩ := exists_scanRounds.mpr hvisited
    exact ⟨rounds, heights, utxos, hscan, hheights⟩

/-- A height is asked for as it is below half of the words. -/
theorem queryHeight_eq_iff (h : UInt32) (n : Nat) :
    (queryHeight h).toInt = Int.ofNat n ↔ h.toNat = n ∧ n < 2 ^ 31 := by
  have range := h.toNat_lt
  have signed : (queryHeight h).toInt = (h.toNat : Int).bmod (2 ^ 32) := by
    exact BitVec.toInt_eq_toNat_bmod h.toBitVec
  rw [signed, Int.bmod_def]
  change _ = (n : Int) ↔ _
  omega

theorem map_queryHeight_eq_iff (heights : List UInt32) (ns : List Nat) :
    heights.map (fun h => (queryHeight h).toInt) = ns.map Int.ofNat ↔
      heights.map (·.toNat) = ns ∧ ∀ n ∈ ns, n < 2 ^ 31 := by
  induction heights generalizing ns with
  | nil => cases ns <;> simp
  | cons h rest ih =>
    cases ns with
    | nil => simp
    | cons n ns =>
      rw [List.map_cons, List.map_cons, List.map_cons, List.cons.injEq, List.cons.injEq, ih,
        queryHeight_eq_iff, List.forall_mem_cons]
      exact and_and_and_comm

theorem scanAsks_iff (address : String) (answers : Nat → Throws Json)
    (fromBlock toBlock : UInt32) :
    ScanAsks address answers fromBlock toBlock ↔
      toBlock < fromBlock ∨ toBlock.toNat < 2 ^ 31 ∨
        LeavesBelow (2 ^ 31) (scanLeaves address answers) fromBlock.toNat toBlock.toNat := by
  rw [UInt32.lt_iff_toNat_lt, ← upTo_below_iff]
  constructor
  · rintro ⟨rounds, heights, utxos, hscan, hasked⟩
    exact ((map_queryHeight_eq_iff _ _).mp hasked).2
  · intro small
    have ends : ScanVisits address answers fromBlock toBlock := by
      rw [scanVisits_iff]
      have top : maxWord.toNat = 4294967295 := rfl
      have range := fromBlock.toNat_lt
      rcases (upTo_below_iff _ _ _ _).mp small with empty | below | ⟨i, inside, below, hleaves⟩
      · refine .inl fun h => ?_
        rw [h] at empty
        omega
      · refine .inl fun h => ?_
        rw [h] at below
        omega
      · exact .inr ⟨i, inside, by omega, hleaves⟩
    obtain ⟨rounds, heights, utxos, hscan, hheights⟩ := ends
    exact ⟨rounds, heights, utxos, hscan, (map_queryHeight_eq_iff _ _).mpr ⟨hheights, small⟩⟩

/-! ## The history -/

def toHexHeight (height : UInt32) : String :=
  String.ofList ('0' :: 'x' :: Nat.toDigits 16 height.toNat)

def blockHashAt (node : NodeAnswers) (h : UInt32) : Throws Json :=
  rpcCall node "chain_getBlockHash" (.array [.string (toHexHeight h)])

/-- A hash is kept unless it is no text, or an empty one. -/
def keptHash : Json → List String
  | .string hash => if hash = "" then [] else [hash]
  | _ => []

/-- The loop over the heights as far as it has gone, of a node as it answers from one call
to the next: the heights visited, with the hashes or what a call has thrown. -/
def historyRounds (endHeight : UInt32) :
    Nat → (Nat → NodeAnswers) → UInt32 → Option (List UInt32 × Throws (List String))
  | 0, _, _ => none
  | rounds + 1, nodes, h =>
    if h ≤ endHeight then
      match blockHashAt (nodes 0) h with
      | .error e => some ([h], .error e)
      | .ok hash =>
        (historyRounds endHeight rounds (fun i => nodes (i + 1)) (h + 1)).map
          fun (heights, blocks) => (h :: heights, blocks.map (keptHash hash ++ ·))
    else some ([], .ok [])

/-- Zero stands for the latest. -/
def lastHeight (node : NodeAnswers) (endHeight : UInt32) : UInt32 :=
  if endHeight = 0 then getBestBlockHeight node else endHeight

/-- What throws is caught, and nothing is returned. -/
def getBlockHistory (rounds : Nat) (nodes : Nat → NodeAnswers) (startHeight endHeight : UInt32) :
    Option (List UInt32 × Option (List String)) :=
  let last := lastHeight (nodes 0) endHeight
  if last < startHeight then some ([], some [])
  else if last - startHeight > 2048 then some ([], none)
  else
    (historyRounds last rounds (fun i => nodes (i + 1)) startHeight).map
      fun (heights, blocks) => (heights, blocks.toOption)

/-- A call that fails ends the history. -/
def historyLeaves (nodes : Nat → NodeAnswers) : Verdicts := fun i h =>
  !(blockHashAt (nodes (i + 1)) h).isOk

/-- The ranges that are not refused for their size. -/
def Admits (nodes : Nat → NodeAnswers) (startHeight endHeight : UInt32) : Prop :=
  (lastHeight (nodes 0) endHeight).toNat ≤ startHeight.toNat + 2048

/-- The history of an admitted range ends, and visits each height of it once and in
increasing order, as far as it goes. -/
def HistoryVisits (nodes : Nat → NodeAnswers) (startHeight endHeight : UInt32) : Prop :=
  Admits nodes startHeight endHeight →
    ∃ rounds heights blocks,
      getBlockHistory rounds nodes startHeight endHeight = some (heights, blocks) ∧
        heights.map (·.toNat) = upTo (historyLeaves nodes)
          (numbers startHeight.toNat (lastHeight (nodes 0) endHeight).toNat)

theorem historyRounds_heights (last : UInt32) (rounds : Nat) (nodes : Nat → NodeAnswers)
    (h : UInt32) :
    (historyRounds last rounds (fun i => nodes (i + 1)) h).map Prod.fst =
      visited last rounds (historyLeaves nodes) h := by
  induction rounds generalizing nodes h with
  | zero => rfl
  | succ rounds ih =>
    rw [historyRounds, visited]
    split
    · cases answered : blockHashAt (nodes (0 + 1)) h with
      | error e => simp [historyLeaves, answered, Except.isOk, Except.toBool]
      | ok hash =>
        have stays : historyLeaves nodes 0 h = false := by
          simp [historyLeaves, answered, Except.isOk, Except.toBool]
        simp only [stays, if_neg Bool.false_ne_true, Option.map_map]
        change _ = (visited last rounds (historyLeaves fun i => nodes (i + 1)) (h + 1)).map _
        rw [← ih, Option.map_map]
        rfl
    · rfl

/-- The difference does not wrap where it is computed. -/
theorem admits_iff {nodes : Nat → NodeAnswers} {startHeight endHeight : UInt32} :
    Admits nodes startHeight endHeight ↔
      (¬lastHeight (nodes 0) endHeight < startHeight →
        ¬lastHeight (nodes 0) endHeight - startHeight > 2048) := by
  unfold Admits
  generalize lastHeight (nodes 0) endHeight = last
  by_cases empty : last < startHeight
  · have empty' := UInt32.lt_iff_toNat_lt.mp empty
    exact iff_of_true (by omega) fun h => absurd empty h
  · have ordered : startHeight ≤ last := UInt32.not_lt.mp empty
    have difference := UInt32.toNat_sub_of_le last startHeight ordered
    rw [UInt32.le_iff_toNat_le] at ordered
    have size : last - startHeight > 2048 ↔ 2048 < (last - startHeight).toNat :=
      UInt32.lt_iff_toNat_lt
    rw [size, difference]
    constructor
    · intro h _
      omega
    · intro h
      have := h empty
      omega

theorem historyVisits_iff (nodes : Nat → NodeAnswers) (startHeight endHeight : UInt32) :
    HistoryVisits nodes startHeight endHeight ↔
      (Admits nodes startHeight endHeight →
        lastHeight (nodes 0) endHeight ≠ maxWord ∨
          LeavesBelow (2 ^ 32) (historyLeaves nodes) startHeight.toNat
            (lastHeight (nodes 0) endHeight).toNat) := by
  refine imp_congr_right fun admits => ?_
  by_cases empty : lastHeight (nodes 0) endHeight < startHeight
  · have empty' := UInt32.lt_iff_toNat_lt.mp empty
    have none : numbers startHeight.toNat (lastHeight (nodes 0) endHeight).toNat = [] :=
      numbers_of_gt empty'
    refine iff_of_true ⟨1, [], some [], ?_, ?_⟩ (.inl fun h => ?_)
    · simp only [getBlockHistory, if_pos empty]
    · rw [none, upTo, List.map_nil]
    · rw [h] at empty'
      exact absurd empty' (Nat.not_lt.mpr (Nat.le_of_lt_succ startHeight.toNat_lt))
  · have fits := admits_iff.mp admits empty
    rw [← visits_iff, Visits]
    simp only [getBlockHistory, if_neg empty, if_neg fits, ← historyRounds_heights]
    constructor
    · rintro ⟨rounds, heights, blocks, hhistory, hheights⟩
      obtain ⟨⟨visits, kept⟩, hrounds, heq⟩ := Option.map_eq_some_iff.mp hhistory
      cases heq
      exact ⟨rounds, visits, by rw [hrounds]; rfl, hheights⟩
    · rintro ⟨rounds, heights, hvisited, hheights⟩
      obtain ⟨⟨visits, kept⟩, hrounds, rfl⟩ := Option.map_eq_some_iff.mp hvisited
      exact ⟨rounds, visits, kept.toOption, by rw [hrounds]; rfl, hheights⟩

/-! ## Both loops -/

/-- **Where the loops end and visit what they should.** A scan does up to every height but
the largest, or where it is left before; it asks for what it visits below half of the
words. The history does alike in the ranges it admits. -/
theorem blockRanges_iff (address : String) (answers : Nat → Throws Json)
    (nodes : Nat → NodeAnswers) (first last : UInt32) :
    (ScanVisits address answers first last ↔ last ≠ maxWord ∨
      LeavesBelow (2 ^ 32) (scanLeaves address answers) first.toNat last.toNat) ∧
    (ScanAsks address answers first last ↔ last < first ∨ last.toNat < 2 ^ 31 ∨
      LeavesBelow (2 ^ 31) (scanLeaves address answers) first.toNat last.toNat) ∧
    (HistoryVisits nodes first last ↔
      (Admits nodes first last → lastHeight (nodes 0) last ≠ maxWord ∨
        LeavesBelow (2 ^ 32) (historyLeaves nodes) first.toNat
          (lastHeight (nodes 0) last).toNat)) :=
  ⟨scanVisits_iff address answers first last, scanAsks_iff address answers first last,
    historyVisits_iff nodes first last⟩

/-- Nothing that is answered ends a loop up to the largest height: not an indexer that
knows no block, and not a node that names one. -/
theorem not_visits_largest :
    ¬ScanVisits "mn_addr" (fun _ => .ok (.object [])) maxWord maxWord ∧
    ¬ScanAsks "mn_addr" (fun _ => .ok (.object [])) maxWord maxWord ∧
    ¬HistoryVisits (fun _ _ _ => .ok (.string "0xb0")) maxWord maxWord := by
  refine ⟨?_, ?_, ?_⟩
  · rw [scanVisits_iff]
    rintro (differs | ⟨i, -, -, hleaves⟩)
    · exact differs rfl
    · cases hleaves
  · rw [scanAsks_iff]
    rintro (order | small | ⟨i, -, -, hleaves⟩)
    · exact absurd order (by decide)
    · exact absurd small (by decide)
    · cases hleaves
  · rw [historyVisits_iff]
    intro h
    rcases h (by unfold Admits; decide) with differs | ⟨i, -, -, hleaves⟩
    · exact differs rfl
    · cases hleaves

end MidnightSdk.MonitoringFinality
