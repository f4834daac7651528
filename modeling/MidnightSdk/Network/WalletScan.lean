import MidnightSdk.Network.IndexerClient

/-!
# What a scan finds

Blocks as they are on the chain, and as the indexer serves them: each query brings its
block, no block, or fails. The state of a wallet is exact where every block is served
and no number overflows, and nowhere else.
-/

namespace MidnightSdk.Network

open Cpp

/-! ## Blocks -/

structure Output where
  owner : String
  value : Nat
  tokenType : String
  outputIndex : UInt32 := 0
  intentHash : String := ""
  ctime : UInt64 := 0
  initialNonce : String := ""
  registeredForDustGeneration : Bool := false
  spentAtTransaction : Option String := none
  deriving DecidableEq, Repr

structure BlockTransaction where
  hash : String
  outputs : List Output
  deriving DecidableEq, Repr

abbrev Block : Type := List BlockTransaction

/-- The amount is a decimal text, and the spending transaction an object or null. -/
def Output.toJson (out : Output) : Json :=
  .object [
    ("ctime", .unsigned out.ctime),
    ("initialNonce", .string out.initialNonce),
    ("intentHash", .string out.intentHash),
    ("outputIndex", .unsigned out.outputIndex.toUInt64),
    ("owner", .string out.owner),
    ("registeredForDustGeneration", .bool out.registeredForDustGeneration),
    ("spentAtTransaction",
      match out.spentAtTransaction with
      | some hash => .object [("hash", .string hash)]
      | none => .null),
    ("tokenType", .string out.tokenType),
    ("value", .string out.value.repr)]

def BlockTransaction.toJson (tx : BlockTransaction) : Json :=
  .object [
    ("hash", .string tx.hash),
    ("unshieldedCreatedOutputs", .array (tx.outputs.map Output.toJson))]

/-- How the query for a block is answered. -/
inductive Delivery where
  | served
  | missing
  | failed (e : Exception)
  deriving DecidableEq, Repr

def answerOf : Block × Delivery → Throws Json
  | (block, .served) =>
    .ok (.object [("block", .object [("transactions", .array (block.map BlockTransaction.toJson))])])
  | (_, .missing) => .ok (.object [("block", .null)])
  | (_, .failed e) => .error e

/-! ## What there is -/

/-- The address's, and not spent. -/
def Output.isOwn (address : String) (out : Output) : Bool :=
  toLowerCopy out.owner = toLowerCopy address && out.spentAtTransaction.isNone

def Output.isNight (out : Output) : Bool :=
  isNightTokenType out.tokenType || out.tokenType = "NIGHT"

def ownOutputs (address : String) (blocks : List Block) : List Output :=
  blocks.flatMap fun block => block.flatMap fun tx => tx.outputs.filter (Output.isOwn address)

def nightTotal (address : String) (blocks : List Block) : Nat :=
  (((ownOutputs address blocks).filter Output.isNight).map Output.value).sum

/-! ## Reading them -/

theorem fromChars_repr (n : Nat) :
    fromChars n.repr.toList = if n < 2 ^ 64 then some (UInt64.ofNat n) else none := by
  have some : (Nat.toDigits 10 n).isEmpty = false := by simp
  have digits : (Nat.toDigits 10 n).all Char.isDigit = true :=
    List.all_eq_true.mpr fun c hc => Nat.isDigit_of_mem_toDigits (by decide) (by decide) hc
  simp only [fromChars, Nat.toList_repr, some, digits, Nat.ofDigitChars_ten_toDigits,
    Bool.not_false, Bool.true_and, decide_eq_true_eq]

/-- An output as it is kept. -/
def Output.toUtxo (txHash : String) (h : UInt32) (out : Output) : Utxo :=
  { txHash
    outputIndex := out.outputIndex
    address := out.owner
    amountCommitment := out.intentHash
    value := UInt64.ofNat out.value
    tokenType := out.tokenType
    blockHeight := h
    ctime := out.ctime
    initialNonce := out.initialNonce
    registeredForDustGeneration := out.registeredForDustGeneration }

theorem valueString_owner (out : Output) : out.toJson.valueString "owner" "" = .ok out.owner := by
  simp [Json.valueString, Json.value, Output.toJson, Json.lookup, Json.getString]

theorem readOutput_toJson (address txHash : String) (h : UInt32) (out : Output) :
    readOutput address txHash h out.toJson =
      if out.isOwn address then
        if out.value < 2 ^ 64 then .ok (some (out.toUtxo txHash h))
        else .error (.outOfRange ("u128 value does not fit in uint64_t: " ++ out.value.repr))
      else .ok none := by
  have amount : parseU64String (.string out.value.repr) =
      if out.value < 2 ^ 64 then .ok (UInt64.ofNat out.value)
      else .error (.outOfRange ("u128 value does not fit in uint64_t: " ++ out.value.repr)) := by
    simp only [parseU64String, Nat.repr_ne_empty, if_false, fromChars_repr]
    split <;> simp_all
  have spent : (member? "spentAtTransaction" out.toJson).isSome = out.spentAtTransaction.isSome := by
    cases hspent : out.spentAtTransaction <;>
      simp [member?, Output.toJson, Json.lookup, hspent]
  unfold readOutput
  simp only [valueString_owner, bind, Except.bind, spent]
  by_cases hown : toLowerCopy out.owner = toLowerCopy address
  · cases hspent : out.spentAtTransaction with
    | some hash => simp [Output.isOwn, hown, hspent, pure, Except.pure]
    | none =>
      have created : parseU64String (.unsigned out.ctime) = .ok out.ctime := rfl
      by_cases hfits : out.value < 2 ^ 64
      · rw [if_pos hfits] at amount ⊢
        simp [Output.isOwn, hown, hspent, Output.toJson, Json.valueUInt32,
          Json.valueString, Json.valueBool, Json.value, Json.lookup, Json.getUInt32,
          Json.getString, Json.getBool, amount, created, Output.toUtxo, pure, Except.pure]
      · rw [if_neg hfits] at amount ⊢
        simp [Output.isOwn, hown, hspent, Output.toJson, Json.valueUInt32, Json.value,
          Json.lookup, Json.getUInt32, amount]
  · simp [Output.isOwn, hown, pure, Except.pure]

/-! ## Finding them -/

/-- What a loop keeps is what there is, as long as every amount fits; else it throws, and
keeps fewer. -/
structure Finds (kept : Kept Utxo) (outputs : List Output) : Prop where
  counts : kept.Counts outputs.length
  ended_iff : kept.ended = .ok () ↔ ∀ out ∈ outputs, out.value < 2 ^ 64
  items : kept.ended = .ok () → kept.items.map (fun utxo => (isNight utxo, utxo.value)) =
    outputs.map fun out => (out.isNight, UInt64.ofNat out.value)

theorem Finds.nothing : Finds .nothing [] := ⟨.nothing, by simp [Kept.nothing], fun _ => rfl⟩

theorem Finds.andThen {first second : Kept Utxo} {outs outs' : List Output} (h : Finds first outs)
    (h' : Finds second outs') : Finds (first.andThen second) (outs ++ outs') where
  counts := by
    rw [List.length_append]
    exact h.counts.andThen h'.counts
  ended_iff := by rw [Kept.andThen_ended, h.ended_iff, h'.ended_iff, List.forall_mem_append]
  items hended := by
    obtain ⟨hfirst, hsecond⟩ := Kept.andThen_ended.mp hended
    rw [Kept.andThen_items hfirst, List.map_append, List.map_append, h.items hfirst,
      h'.items hsecond]

theorem Finds.each {β : Type} {step : β → Kept Utxo} {outputs : β → List Output} {bs : List β}
    (h : ∀ b ∈ bs, Finds (step b) (outputs b)) : Finds (.each step bs) (bs.flatMap outputs) := by
  induction bs with
  | nil => exact .nothing
  | cons b rest ih =>
    obtain ⟨first, others⟩ := List.forall_mem_cons.mp h
    exact first.andThen (ih others)

theorem readOutput_finds (address txHash : String) (h : UInt32) (out : Output) :
    Finds (.ofStep (readOutput address txHash h out.toJson)) ([out].filter (Output.isOwn address)) := by
  rw [readOutput_toJson]
  cases hown : out.isOwn address with
  | false =>
    simp only [List.filter_cons, hown, Bool.false_eq_true, if_false]
    exact .nothing
  | true =>
    simp only [List.filter_cons, hown, if_true, List.filter_nil]
    split
    · rename_i hfits
      exact ⟨⟨fun _ => rfl, fun hne => absurd rfl hne⟩, by simpa [Kept.ofStep] using hfits,
        fun _ => rfl⟩
    · rename_i hfits
      exact ⟨⟨nofun, fun _ => Nat.one_pos⟩, by simpa [Kept.ofStep] using hfits, nofun⟩

theorem scanTransaction_finds (address : String) (h : UInt32) (tx : BlockTransaction) :
    Finds (scanTransaction address h tx.toJson) (tx.outputs.filter (Output.isOwn address)) := by
  have outputs : member? "unshieldedCreatedOutputs" tx.toJson =
      some (.array (tx.outputs.map Output.toJson)) := by
    simp [member?, BlockTransaction.toJson, Json.lookup]
  have owners : readOwners (tx.outputs.map Output.toJson) = .ok () := by
    induction tx.outputs with
    | nil => rfl
    | cons out rest ih =>
      rw [List.map_cons, readOwners, valueString_owner]
      exact ih
  have block : tx.toJson.find? "block" = none := by
    simp [BlockTransaction.toJson, Json.lookup]
  have hash : tx.toJson.valueString "hash" "" = .ok tx.hash := by
    simp [Json.valueString, Json.value, BlockTransaction.toJson, Json.lookup, Json.getString]
  have each := Finds.each fun out (_ : out ∈ tx.outputs) => readOutput_finds address tx.hash h out
  rw [← List.filter_flatMap, List.flatMap_singleton'] at each
  simpa only [scanTransaction, outputs, Json.elements, owners, appendUtxosFromTransactionJson,
    block, hash, pure, Except.pure, bind, Except.bind, Kept.each_map] using each

theorem transactionList_served (block : Block) :
    transactionList (.object [("block",
      .object [("transactions", .array (block.map BlockTransaction.toJson))])]) =
      block.map BlockTransaction.toJson := by
  simp [transactionList, member?, Json.lookup]

theorem scanBlock_finds (address : String) (h : UInt32) (block : Block) :
    Finds (.each (scanTransaction address h) (block.map BlockTransaction.toJson))
      (block.flatMap fun tx => tx.outputs.filter (Output.isOwn address)) := by
  rw [Kept.each_map]
  exact .each fun tx _ => scanTransaction_finds address h tx

/-- With every block served, the loop ends behind all of them, or where it throws. -/
theorem scanLoop_served {address : String} {toBlock : UInt32} {blocks : List Block} {h : UInt32}
    (hlength : blocks.length = toBlock.toNat + 1 - h.toNat) {utxos : List Utxo}
    (hutxos : scanLoop address toBlock h (blocks.map fun block => answerOf (block, .served)) =
      some utxos) :
    ∃ kept : Kept Utxo, utxos = kept.items ∧ Finds kept (ownOutputs address blocks) := by
  induction blocks generalizing h utxos with
  | nil =>
    rw [List.map_nil, scanLoop] at hutxos
    split at hutxos
    · cases hutxos
    · cases hutxos
      exact ⟨.nothing, rfl, .nothing⟩
  | cons block rest ih =>
    rw [List.length_cons] at hlength
    have within : h ≤ toBlock := by
      rw [UInt32.le_iff_toNat_le]
      omega
    have here := scanBlock_finds address h block
    simp only [List.map_cons, scanLoop, answerOf, if_pos within, transactionList_served] at hutxos
    cases hended : (Kept.each (scanTransaction address h)
        (block.map BlockTransaction.toJson)).ended with
    | error e =>
      have others := Finds.each fun block (_ : block ∈ rest) => scanBlock_finds address 0 block
      simp only [hended, Option.some.injEq] at hutxos
      refine ⟨_, ?_, here.andThen others⟩
      simp only [Kept.andThen, hended, hutxos]
    | ok u =>
      simp only [hended, Option.map_eq_some_iff] at hutxos
      obtain ⟨later, hlater, rfl⟩ := hutxos
      by_cases hlast : h.toNat + 1 < 2 ^ 32
      · have next : (h + 1).toNat = h.toNat + 1 := by
          rw [UInt32.toNat_add, UInt32.toNat_one, Nat.mod_eq_of_lt hlast]
        obtain ⟨kept, rfl, found⟩ := @ih (h + 1) (by omega) later hlater
        refine ⟨_, ?_, here.andThen found⟩
        simp only [Kept.andThen, hended]
      · -- The height starts again from zero, and nothing is left to answer.
        have top := toBlock.toNat_lt
        obtain rfl : rest = [] := List.length_eq_zero_iff.mp (by omega)
        have zero : h + 1 = 0 := by
          apply UInt32.toNat_inj.mp
          rw [UInt32.toNat_add, UInt32.toNat_one, UInt32.toNat_zero]
          omega
        rw [List.map_nil, zero, scanLoop, if_pos UInt32.zero_le] at hlater
        cases hlater

/-- Within the range the loop ends, whatever the queries bring. -/
theorem scanLoop_returns (address : String) {toBlock : UInt32}
    (hto : toBlock.toNat + 1 < 2 ^ 32) {answers : List (Throws Json)} {h : UInt32}
    (hlength : answers.length = toBlock.toNat + 1 - h.toNat) :
    ∃ utxos, scanLoop address toBlock h answers = some utxos := by
  induction answers generalizing h with
  | nil =>
    have above : ¬h ≤ toBlock := by
      rw [UInt32.le_iff_toNat_le]
      simp only [List.length_nil] at hlength
      omega
    exact ⟨[], by rw [scanLoop, if_neg above]⟩
  | cons answer rest ih =>
    rw [List.length_cons] at hlength
    have within : h ≤ toBlock := by
      rw [UInt32.le_iff_toNat_le]
      omega
    have next : (h + 1).toNat = h.toNat + 1 := by
      rw [UInt32.toNat_add, UInt32.toNat_one, Nat.mod_eq_of_lt (by omega)]
    obtain ⟨later, hlater⟩ := @ih (h + 1) (by omega)
    cases answer with
    | error e => exact ⟨[], by simp only [scanLoop, if_pos within]⟩
    | ok result =>
      simp only [scanLoop, if_pos within]
      split
      · exact ⟨_, rfl⟩
      · exact ⟨_, by rw [hlater, Option.map_some]⟩

/-! ## States -/

/-- The amounts kept of the NIGHT outputs are theirs. -/
theorem Finds.night_exactSum {kept : Kept Utxo} {outputs : List Output} (h : Finds kept outputs)
    (hfits : ∀ out ∈ outputs, out.value < 2 ^ 64) :
    Words.exactSum ((kept.items.filter isNight).map Utxo.value) =
      ((outputs.filter Output.isNight).map Output.value).sum := by
  have kept_eq : (kept.items.filter isNight).map Utxo.value =
      ((kept.items.map fun utxo => (isNight utxo, utxo.value)).filter Prod.fst).map Prod.snd := by
    rw [List.filter_map, List.map_map]
    rfl
  have outputs_eq : ((outputs.map fun out => (out.isNight, UInt64.ofNat out.value)).filter
      Prod.fst).map Prod.snd = (outputs.filter Output.isNight).map fun out => UInt64.ofNat out.value := by
    rw [List.filter_map, List.map_map]
    rfl
  rw [kept_eq, h.items (h.ended_iff.mpr hfits), outputs_eq, Words.exactSum, List.map_map]
  apply congrArg List.sum
  apply List.map_congr_left
  intro out hout
  exact UInt64.toNat_ofNat_of_lt' (hfits out (List.mem_filter.mp hout).1)

/-- A state marked as synced has the exact NIGHT balance and number of outputs, and is
not marked so when a block was not served. -/
def ExactOn (address : String) (range : List (Block × Delivery)) (state : WalletState) : Prop :=
  (state.synced = true → state.error = "" →
    state.unshieldedBalance = toString (nightTotal address (range.map Prod.fst)) ∧
    state.availableUtxoCount.toNat = (ownOutputs address (range.map Prod.fst)).length) ∧
  ((∃ block ∈ range, block.2 ≠ .served) → state.synced = false)

/-- Every block is served, and no amount, no total and no count overflows. -/
structure Countable (address : String) (range : List (Block × Delivery)) : Prop where
  served : ∀ block ∈ range, block.2 = .served
  amounts : ∀ out ∈ ownOutputs address (range.map Prod.fst), out.value < 2 ^ 64
  total : nightTotal address (range.map Prod.fst) < 2 ^ 64
  count : (ownOutputs address (range.map Prod.fst)).length < 2 ^ 32

/-- A range that is served is scanned as its blocks. -/
theorem scanned_of_served {address : String} {fromBlock toBlock : UInt32}
    {range : List (Block × Delivery)}
    (hrange : range.length = toBlock.toNat + 1 - fromBlock.toNat)
    (hserved : ∀ block ∈ range, block.2 = .served) {utxos : List Utxo}
    (hutxos : scanLoop address toBlock fromBlock (range.map answerOf) = some utxos) :
    ∃ kept : Kept Utxo, utxos = kept.items ∧
      Finds kept (ownOutputs address (range.map Prod.fst)) := by
  have answers : range.map answerOf =
      (range.map Prod.fst).map fun block => answerOf (block, .served) := by
    rw [List.map_map]
    apply List.map_congr_left
    intro block hmem
    rw [Function.comp_apply, ← hserved block hmem]
  rw [answers] at hutxos
  exact scanLoop_served (by rw [List.length_map, hrange]) hutxos

/-- The count shows every output only where the loop did not throw and the count did not
wrap. -/
theorem Finds.counted {kept : Kept Utxo} {outputs : List Output} (h : Finds kept outputs)
    (hcount : (UInt32.ofNat kept.items.length).toUInt64.toNat = outputs.length) :
    (∀ out ∈ outputs, out.value < 2 ^ 64) ∧ outputs.length < 2 ^ 32 := by
  rw [UInt32.toNat_toUInt64, UInt32.toNat_ofNat'] at hcount
  have below : kept.items.length % 2 ^ 32 ≤ kept.items.length := Nat.mod_le _ _
  have bounded : kept.items.length % 2 ^ 32 < 2 ^ 32 := Nat.mod_lt _ (by decide)
  refine ⟨?_, by omega⟩
  rw [← h.ended_iff]
  by_contra hthrown
  have fewer := h.counts.of_error hthrown
  omega

theorem Finds.count_of_lt {kept : Kept Utxo} {outputs : List Output} (h : Finds kept outputs)
    (hfits : ∀ out ∈ outputs, out.value < 2 ^ 64) (hfew : outputs.length < 2 ^ 32) :
    (UInt32.ofNat kept.items.length).toUInt64.toNat = outputs.length := by
  rw [UInt32.toNat_toUInt64, UInt32.toNat_ofNat', h.counts.of_ok (h.ended_iff.mpr hfits),
    Nat.mod_eq_of_lt hfew]

/-- The balance is that of the outputs exactly where their total fits. -/
theorem Finds.balance_iff {kept : Kept Utxo} {outputs : List Output} (h : Finds kept outputs)
    (hfits : ∀ out ∈ outputs, out.value < 2 ^ 64) :
    toString (totalOf (kept.items.filter isNight)).toNat =
        toString ((outputs.filter Output.isNight).map Output.value).sum ↔
      ((outputs.filter Output.isNight).map Output.value).sum < 2 ^ 64 := by
  rw [Nat.toString_eq_repr, Nat.toString_eq_repr, repr_inj, totalOf, ← h.night_exactSum hfits]
  exact Words.toNat_wrapSum_eq_iff _

/-- Short of the last height there is, a state is returned. -/
theorem queryWalletState_returns (address : String) {fromBlock toBlock : UInt32}
    (hto : toBlock.toNat + 1 < 2 ^ 32) {answers : List (Throws Json)}
    (hanswers : answers.length = toBlock.toNat + 1 - fromBlock.toNat) :
    ∃ state, queryWalletState address fromBlock toBlock answers = some state := by
  obtain ⟨utxos, hutxos⟩ := scanLoop_returns address hto hanswers
  refine ⟨walletStateFromUtxos address utxos, ?_⟩
  simp only [queryWalletState, queryUtxos, scanUtxosInternal, hutxos, Option.map_some]

/-- **When a state is exact.** A state that is returned is exact where every block is
served and nothing overflows, and only there. -/
theorem queryWalletState_exact_iff (address : String) {fromBlock toBlock : UInt32}
    {range : List (Block × Delivery)}
    (hrange : range.length = toBlock.toNat + 1 - fromBlock.toNat) {state : WalletState}
    (hstate : queryWalletState address fromBlock toBlock (range.map answerOf) = some state) :
    ExactOn address range state ↔ Countable address range := by
  obtain ⟨utxos, hutxos, rfl⟩ := Option.map_eq_some_iff.mp hstate
  constructor
  · rintro ⟨hexact, unsynced⟩
    have served : ∀ block ∈ range, block.2 = .served := by
      by_contra hsome
      push Not at hsome
      cases unsynced hsome
    obtain ⟨kept, rfl, found⟩ := scanned_of_served hrange served hutxos
    obtain ⟨balance, count⟩ := hexact rfl rfl
    obtain ⟨amounts, few⟩ := found.counted count
    exact ⟨served, amounts, (found.balance_iff amounts).mp balance, few⟩
  · intro countable
    obtain ⟨kept, rfl, found⟩ := scanned_of_served hrange countable.served hutxos
    refine ⟨fun _ _ => ⟨?_, ?_⟩, ?_⟩
    · exact (found.balance_iff countable.amounts).mpr countable.total
    · exact found.count_of_lt countable.amounts countable.count
    · rintro ⟨block, hmem, hne⟩
      exact absurd (countable.served block hmem) hne

/-! ## A block that is not served -/

/-- Two blocks with an output each, of which the query for the second one fails. -/
def secondFails : List (Block × Delivery) :=
  [([⟨"0x01", [{ owner := "mn_addr", value := 7, tokenType := "" }]⟩], .served),
    ([⟨"0x02", [{ owner := "mn_addr", value := 5, tokenType := "" }]⟩],
      .failed (.runtimeError "timeout"))]

theorem queryWalletState_exact_iff_secondFails :
    ∃ state, queryWalletState "mn_addr" 1 2 (secondFails.map answerOf) = some state ∧
      (ExactOn "mn_addr" secondFails state ↔ Countable "mn_addr" secondFails) :=
  ⟨_, rfl, @queryWalletState_exact_iff "mn_addr" 1 2 secondFails rfl _ rfl⟩

/-- The state is marked as synced, and has only the first output. -/
theorem not_exactOn_secondFails :
    ∃ state, queryWalletState "mn_addr" 1 2 (secondFails.map answerOf) = some state ∧
      state.synced = true ∧ state.error = "" ∧ ¬ ExactOn "mn_addr" secondFails state := by
  obtain ⟨state, hstate, hsynced⟩ : ∃ state,
      queryWalletState "mn_addr" 1 2 (secondFails.map answerOf) = some state ∧
        state.synced = true ∧ state.error = "" := ⟨_, rfl, rfl, rfl⟩
  refine ⟨state, hstate, hsynced.1, hsynced.2, ?_⟩
  rintro ⟨-, unsynced⟩
  rw [unsynced ⟨_, List.mem_cons_of_mem _ (List.mem_singleton_self _), nofun⟩] at hsynced
  cases hsynced.1

end MidnightSdk.Network
