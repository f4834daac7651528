import MidnightSdk.Network.NodeAnswers
import MidnightSdk.Production.Confirmation

/-!
# Waiting for finality

Once the transaction is found, the node is asked round after round for its finalized
head, the header of that head and the block at the transaction's height, until the
deadline. A round is given by what the node answers to each of its queries.
-/

namespace MidnightSdk.Production

open Cpp Network Util

/-- `type_name()` -/
def typeName : Json → String
  | .null => "null"
  | .bool _ => "boolean"
  | .unsigned _ | .integer _ => "number"
  | .string _ => "string"
  | .array _ => "array"
  | .object _ => "object"

/-- `value.get<std::string>()` -/
def stringOrWhat : Json → Except String String
  | .string s => .ok s
  | j => .error ("[json.exception.type_error.302] type must be string, but is " ++ typeName j)

def parseHeaderHeight (header : Json) : UInt64 :=
  match header.find? "number" with
  | none => 0
  | some number => (parseJsonU64 number).toOption.getD 0

def normalizeHash (hash : String) : List Char := (stripHexPrefix hash.toList).map Char.toLower

/-- The canonical hash at the block's height, once that height is final. -/
def canonicalHash (node : NodeAnswers) (blockHeight : UInt64) : Except String (Option String) := do
  let finalizedHash ← node "chain_getFinalizedHead" (.array []) >>= stringOrWhat
  let header ← node "chain_getHeader" (.array [.string finalizedHash])
  if parseHeaderHeight header ≥ blockHeight ∧ blockHeight > 0 then
    let canonical ← node "chain_getBlockHash" (.array [.unsigned blockHeight]) >>= stringOrWhat
    return some canonical
  else return none

/-- One round of the loop: the result, and whether it is returned. -/
def finalityRound (result : ConfirmationResult) (node : NodeAnswers) : ConfirmationResult × Bool :=
  match canonicalHash node result.blockHeight with
  | .error e =>
    ({ result with error := makeError .nodeRpcError "Finalized head query failed" e }, false)
  | .ok none => (result, false)
  | .ok (some canonical) =>
    if normalizeHash canonical = normalizeHash result.blockHash then
      ({ result with success := true }, true)
    else
      ({ result with
        success := false
        error := makeError .finalityTimeout
          "Transaction block is not on the finalized canonical chain" result.blockHash }, true)

/-- The loop over the rounds that start in time. -/
def finalityLoop (transactionHash : String) :
    ConfirmationResult → List NodeAnswers → ConfirmationResult
  | result, [] =>
    { result with
      success := false
      error := makeError .finalityTimeout "Timed out waiting for transaction finality"
        transactionHash }
  | result, node :: rest =>
    match finalityRound result node with
    | (result, true) => result
    | (result, false) => finalityLoop transactionHash result rest

def waitForFinality (transactionHash : String) (polls : List (Except String Json))
    (nodes : List NodeAnswers) : ConfirmationResult :=
  let result := waitForInclusion transactionHash polls
  if !result.success then result else finalityLoop transactionHash result nodes

/-! ## Rounds -/

/-- The rounds made, up to the one that returns. -/
def roundsMade (result : ConfirmationResult) : List NodeAnswers → List NodeAnswers
  | [] => []
  | node :: rest =>
    if (finalityRound result node).2 then [node] else node :: roundsMade result rest

/-- The height the code makes of a header. -/
def ReadHeight (header : Json) (height : Nat) : Prop := (parseHeaderHeight header).toNat = height

/-- In a round, every query succeeds, the height of the finalized header has reached
that of the block, and the block is the canonical one at its height. -/
def FinalIn (height : Json → Nat → Prop) (result : ConfirmationResult) (node : NodeAnswers) : Prop :=
  ∃ head header number canonical,
    node "chain_getFinalizedHead" (.array []) = .ok (.string head) ∧
    node "chain_getHeader" (.array [.string head]) = .ok header ∧
    height header number ∧ result.blockHeight.toNat ≤ number ∧ 0 < result.blockHeight.toNat ∧
    node "chain_getBlockHash" (.array [.unsigned result.blockHeight]) = .ok (.string canonical) ∧
    normalizeHash canonical = normalizeHash result.blockHash

/-- A height in hexadecimal is read as zero: base ten stops at the `x`. -/
theorem parseHeaderHeight_of_hex {header : Json} {height : Nat} (h : HexHeight header height) :
    parseHeaderHeight header = 0 := by
  obtain ⟨text, -, hnumber, -, -, -⟩ := h
  simp only [parseHeaderHeight, hnumber, parseJsonU64, String.toList_ofList,
    Stoull.stoull_ten_of_hex, Except.toOption, Option.getD_some]

theorem not_read_of_hex {result : ConfirmationResult} {node : NodeAnswers}
    (h : FinalIn HexHeight result node) : ¬ FinalIn ReadHeight result node := by
  rintro ⟨head', header', number', -, hhead', hheader', rfl, hreached, hpositive, -, -⟩
  obtain ⟨head, header, number, -, hhead, hheader, hnumber, -, -, -, -⟩ := h
  obtain rfl : head = head' := by simpa [hhead] using hhead'
  obtain rfl : header = header' := by simpa [hheader] using hheader'
  rw [parseHeaderHeight_of_hex hnumber] at hreached
  exact absurd hpositive (Nat.not_lt.mpr hreached)

theorem stringOrWhat_eq_ok {j : Json} {s : String} : stringOrWhat j = .ok s ↔ j = .string s := by
  cases j <;> simp [stringOrWhat]

theorem canonicalHash_eq_some {node : NodeAnswers} {blockHeight : UInt64} {canonical : String} :
    canonicalHash node blockHeight = .ok (some canonical) ↔
      ∃ head header, node "chain_getFinalizedHead" (.array []) = .ok (.string head) ∧
        node "chain_getHeader" (.array [.string head]) = .ok header ∧
        blockHeight ≤ parseHeaderHeight header ∧ 0 < blockHeight ∧
        node "chain_getBlockHash" (.array [.unsigned blockHeight]) = .ok (.string canonical) := by
  have string_iff {answer : Except String Json} {s : String} :
      (answer >>= stringOrWhat) = .ok s ↔ answer = .ok (.string s) := by
    simp only [bind_eq_ok, stringOrWhat_eq_ok, exists_eq_right]
  simp only [canonicalHash, bind_eq_ok, stringOrWhat_eq_ok, exists_eq_right]
  constructor
  · rintro ⟨head, hhead, header, hheader, h⟩
    split at h
    · rename_i reached
      obtain ⟨text, htext, hsome⟩ := bind_eq_ok.mp h
      cases hsome
      exact ⟨head, header, hhead, hheader, reached.1, reached.2, string_iff.mp htext⟩
    · cases h
  · rintro ⟨head, header, hhead, hheader, hreached, hpositive, htext⟩
    refine ⟨head, hhead, header, hheader, ?_⟩
    rw [if_pos ⟨hreached, hpositive⟩]
    exact bind_eq_ok.mpr ⟨canonical, string_iff.mpr htext, rfl⟩

/-- A round returns a success exactly when it finds the block final, as it reads the
height; all it changes is the flag. -/
theorem finalIn_read_iff {result : ConfirmationResult} {node : NodeAnswers} :
    FinalIn ReadHeight result node ↔
      finalityRound result node = ({ result with success := true }, true) := by
  unfold finalityRound
  constructor
  · rintro ⟨head, header, -, canonical, hhead, hheader, rfl, hreached, hpositive, hcanonical, hsame⟩
    have found := canonicalHash_eq_some.mpr ⟨head, header, hhead, hheader,
      UInt64.le_iff_toNat_le.mpr hreached, UInt64.lt_iff_toNat_lt.mpr hpositive, hcanonical⟩
    simp only [found, hsame, if_true]
  · intro h
    split at h
    · cases congrArg Prod.snd h
    · cases congrArg Prod.snd h
    rename_i canonical found
    split at h
    · rename_i hsame
      obtain ⟨head, header, hhead, hheader, hreached, hpositive, hcanonical⟩ :=
        canonicalHash_eq_some.mp found
      exact ⟨head, header, _, canonical, hhead, hheader, rfl, UInt64.le_iff_toNat_le.mp hreached,
        UInt64.lt_iff_toNat_lt.mp hpositive, hcanonical, hsame⟩
    · cases congrArg (·.1.success) h

/-! ## Runs -/

/-- Two results about the same block. -/
def SameBlock (result other : ConfirmationResult) : Prop :=
  other.blockHeight = result.blockHeight ∧ other.blockHash = result.blockHash

theorem SameBlock.finalIn_iff {result other : ConfirmationResult} (h : SameBlock result other)
    {height : Json → Nat → Prop} {node : NodeAnswers} :
    FinalIn height other node ↔ FinalIn height result node := by
  simp only [FinalIn, h.1, h.2]

theorem SameBlock.roundsMade_eq {result other : ConfirmationResult} (h : SameBlock result other)
    (nodes : List NodeAnswers) : roundsMade other nodes = roundsMade result nodes := by
  have flag (node : NodeAnswers) : (finalityRound other node).2 = (finalityRound result node).2 := by
    unfold finalityRound
    rw [h.1, h.2]
    split
    · rfl
    · rfl
    · split <;> rfl
  induction nodes with
  | nil => rfl
  | cons node rest ih => simp only [roundsMade, flag, ih]

/-- A round that does not return changes at most the error. -/
theorem sameBlock_of_goes_on {result next : ConfirmationResult} {node : NodeAnswers}
    (h : finalityRound result node = (next, false)) : SameBlock result next := by
  unfold finalityRound at h
  split at h
  · cases h
    exact ⟨rfl, rfl⟩
  · cases h
    exact ⟨rfl, rfl⟩
  · split at h <;> cases h

theorem success_of_returned {result next : ConfirmationResult} {node : NodeAnswers}
    (h : finalityRound result node = (next, true)) :
    next.success = true ↔ FinalIn ReadHeight result node := by
  rw [finalIn_read_iff]
  constructor
  · intro hsuccess
    unfold finalityRound at h ⊢
    split at h
    · cases h
    · cases h
    · split at h
      · rename_i same
        cases h
        rw [if_pos same]
      · cases h
        cases hsuccess
  · intro hround
    rw [hround] at h
    cases h
    rfl

/-- The loop succeeds exactly when one of the rounds made finds the block final, and this
is the last one. -/
theorem finalityLoop_success_iff (transactionHash : String) (result : ConfirmationResult)
    (nodes : List NodeAnswers) :
    ((finalityLoop transactionHash result nodes).success = true ↔
      ∃ node ∈ roundsMade result nodes, FinalIn ReadHeight result node) ∧
    ∀ node ∈ roundsMade result nodes, FinalIn ReadHeight result node →
      (roundsMade result nodes).getLast? = some node := by
  induction nodes generalizing result with
  | nil => simp [finalityLoop, roundsMade]
  | cons node rest ih =>
    rw [finalityLoop, roundsMade]
    cases hround : finalityRound result node with
    | mk next returned =>
      cases returned with
      | true =>
        simp only [if_true, List.mem_singleton, exists_eq_left, forall_eq, List.getLast?_singleton,
          implies_true, and_true]
        exact success_of_returned hround
      | false =>
        have same := sameBlock_of_goes_on hround
        have unfinished : ¬ FinalIn ReadHeight result node := by
          rw [finalIn_read_iff, hround]
          exact fun h => nomatch congrArg Prod.snd h
        obtain ⟨hiff, hlast⟩ := ih next
        simp only [same.roundsMade_eq, same.finalIn_iff] at hiff hlast
        simp only [Bool.false_eq_true, if_false, List.mem_cons, exists_eq_or_imp, unfinished,
          false_or, hiff, true_and]
        rintro other (rfl | hmem) hfinal
        · exact absurd hfinal unfinished
        · rw [List.getLast?_cons, hlast other hmem hfinal]
          rfl

/-- A failed query leaves an error in whatever the loop returns. -/
theorem finalityLoop_error (transactionHash : String) {result : ConfirmationResult}
    (h : result.error.isSet = true) (nodes : List NodeAnswers) :
    (finalityLoop transactionHash result nodes).error.isSet = true := by
  induction nodes generalizing result with
  | nil => rfl
  | cons node rest ih =>
    have kept : (finalityRound result node).1.error.isSet = true := by
      unfold finalityRound
      split
      · rfl
      · exact h
      · split
        · exact h
        · rfl
    rw [finalityLoop]
    cases hround : finalityRound result node with
    | mk next returned =>
      rw [hround] at kept
      cases returned with
      | true => exact kept
      | false => exact ih kept

/-! ## What a wait says -/

/-- The rounds made in a whole wait: none, unless the transaction is found. -/
def waitRounds (transactionHash : String) (polls : List (Except String Json))
    (nodes : List NodeAnswers) : List NodeAnswers :=
  if (waitForInclusion transactionHash polls).success then
    roundsMade (waitForInclusion transactionHash polls) nodes
  else []

/-- A wait succeeds without an error when its last round finds the block final, and
whenever a round finds it final. -/
def WaitsRight (transactionHash : String) (polls : List (Except String Json))
    (nodes : List NodeAnswers) : Prop :=
  ((waitForFinality transactionHash polls nodes).success = true →
    (∃ node, (waitRounds transactionHash polls nodes).getLast? = some node ∧
      FinalIn HexHeight (waitForInclusion transactionHash polls) node) ∧
    (waitForFinality transactionHash polls nodes).error.isSet = false) ∧
  ((∃ node ∈ waitRounds transactionHash polls nodes,
    FinalIn HexHeight (waitForInclusion transactionHash polls) node) →
      (waitForFinality transactionHash polls nodes).success = true)

/-- **When a wait is right.** It is right exactly when no round made finds the block
final, neither by the hexadecimal height of the header nor by the height made of it. -/
theorem waitsRight_iff (transactionHash : String) (polls : List (Except String Json))
    (nodes : List NodeAnswers) :
    WaitsRight transactionHash polls nodes ↔
      ∀ node ∈ waitRounds transactionHash polls nodes,
        ¬ FinalIn HexHeight (waitForInclusion transactionHash polls) node ∧
        ¬ FinalIn ReadHeight (waitForInclusion transactionHash polls) node := by
  unfold WaitsRight waitRounds waitForFinality
  cases hfound : (waitForInclusion transactionHash polls).success with
  | false => simp [hfound]
  | true =>
    simp only [hfound, Bool.not_true, Bool.false_eq_true, if_false, if_true]
    obtain ⟨hiff, hlast⟩ := finalityLoop_success_iff transactionHash
      (waitForInclusion transactionHash polls) nodes
    constructor
    · rintro ⟨sound, complete⟩ node hmem
      have unread : ¬ FinalIn ReadHeight (waitForInclusion transactionHash polls) node := by
        intro hread
        obtain ⟨⟨last, hgetLast, hhex⟩, -⟩ := sound (hiff.mpr ⟨node, hmem, hread⟩)
        rw [hlast node hmem hread, Option.some.injEq] at hgetLast
        rw [← hgetLast] at hhex
        exact not_read_of_hex hhex hread
      refine ⟨fun hhex => ?_, unread⟩
      obtain ⟨other, hother, hread⟩ := hiff.mp (complete ⟨node, hmem, hhex⟩)
      obtain ⟨⟨last, hgetLast, hhex'⟩, -⟩ := sound (hiff.mpr ⟨other, hother, hread⟩)
      rw [hlast other hother hread, Option.some.injEq] at hgetLast
      rw [← hgetLast] at hhex'
      exact not_read_of_hex hhex' hread
    · intro none
      constructor
      · intro hsuccess
        obtain ⟨node, hmem, hread⟩ := hiff.mp hsuccess
        exact absurd hread (none node hmem).2
      · rintro ⟨node, hmem, hhex⟩
        exact absurd hhex (none node hmem).1

/-! ## A block that is final -/

def finalHash : String := "aaaaaaaaaaaaaaaaaaaaaaaaaaaaaaaaaaaaaaaaaaaaaaaaaaaaaaaaaaaaaaaa"

/-- The indexer shows the transaction in block five. -/
def inBlockFive : Json :=
  .object [("block", .object [("hash", .string "0xb5"), ("height", .unsigned 5)]),
    ("hash", .string finalHash)]

/-- A node that has finalized block sixteen, above that block. -/
def sixteenFinal : NodeAnswers
  | "chain_getFinalizedHead", _ => .ok (.string "0xb16")
  | "chain_getHeader", _ => .ok (.object [("number", .string "0x10")])
  | "chain_getBlockHash", _ => .ok (.string "0xB5")
  | _, _ => .error "Method not found"

/-- The wait ends in a timeout although its round finds the block final. -/
theorem not_waitsRight_sixteenFinal : ¬ WaitsRight finalHash [.ok inBlockFive] [sixteenFinal] := by
  rintro ⟨-, complete⟩
  have timeout : (waitForFinality finalHash [.ok inBlockFive] [sixteenFinal]).success = false := by
    decide
  have final : FinalIn HexHeight (waitForInclusion finalHash [.ok inBlockFive]) sixteenFinal :=
    ⟨"0xb16", _, 16, "0xB5", rfl, rfl, ⟨['1', '0'], [1, 0], rfl, by simp, rfl, rfl⟩, by decide,
      by decide, rfl, by decide⟩
  rw [complete ⟨sixteenFinal, List.mem_singleton_self _, final⟩] at timeout
  cases timeout

end MidnightSdk.Production
