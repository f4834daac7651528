import MidnightSdk.Util.Hex

/-!
# Spellings of an output

An input names the output it spends by a text and an index. Three places look
at the text: the key of the tables takes it as it is, the builder drops an
optional `0x`, and the query to the indexer also drops what follows a colon.
-/

namespace MidnightSdk.UtxoTransactions

open Util

structure UtxoInput where
  outpoint : List Char
  address : String := ""
  outputIndex : UInt32 := 0
  amountCommitment : String := ""
  spendingWitness : String := ""
  deriving DecidableEq, Repr

/-- `std::to_string` -/
def decimal (n : UInt32) : List Char := Nat.toDigits 10 n.toNat

/-- `input.outpoint + ":" + std::to_string(input.output_index)` -/
def UtxoInput.outpointKey (input : UtxoInput) : List Char :=
  input.outpoint ++ ':' :: decimal input.outputIndex

/-- What the builder compares. -/
def UtxoInput.output (input : UtxoInput) : List Char × UInt32 :=
  (stripHexPrefix input.outpoint, input.outputIndex)

/-- The hash the indexer is asked for: up to the first colon. -/
def cleanHash (txHash : List Char) : List Char := (stripHexPrefix txHash).takeWhile (· ≠ ':')

/-- What the indexer is asked for. -/
def UtxoInput.queried (input : UtxoInput) : List Char × UInt32 :=
  (cleanHash input.outpoint, input.outputIndex)

/-! ## Keys -/

theorem decimal_injective {m n : UInt32} (h : decimal m = decimal n) : m = n := by
  have value := congrArg (fun digits => Nat.ofDigitChars 10 digits 0) h
  simp only [decimal, Nat.ofDigitChars_ten_toDigits] at value
  exact UInt32.toNat_inj.mp value

theorem colon_notMem_decimal (n : UInt32) : ':' ∉ decimal n := by
  intro h
  exact absurd (Nat.isDigit_of_mem_toDigits (by decide) (by decide) h) (by decide)

/-- The last colon parts a key. -/
theorem takeWhile_reverse_key {text digits : List Char} (h : ':' ∉ digits) :
    ((text ++ ':' :: digits).reverse.takeWhile (· ≠ ':')) = digits.reverse := by
  have none : ∀ c ∈ digits.reverse, decide (c ≠ ':') = true := by
    intro c hc
    rw [decide_eq_true_eq]
    rintro rfl
    exact h (List.mem_reverse.mp hc)
  rw [List.reverse_append, List.reverse_cons, List.append_assoc, List.singleton_append,
    List.takeWhile_append_of_pos none, List.takeWhile_cons_of_neg (by simp), List.append_nil]

/-- A key determines the text and the index it was made of. -/
theorem outpointKey_inj {a b : UtxoInput} :
    a.outpointKey = b.outpointKey ↔ a.outpoint = b.outpoint ∧ a.outputIndex = b.outputIndex := by
  constructor
  · intro h
    have ends := congrArg (fun key => key.reverse.takeWhile (· ≠ ':')) h
    simp only [UtxoInput.outpointKey] at ends
    rw [takeWhile_reverse_key (colon_notMem_decimal _), takeWhile_reverse_key (colon_notMem_decimal _)]
      at ends
    have index := decimal_injective (List.reverse_injective ends)
    rw [UtxoInput.outpointKey, UtxoInput.outpointKey, index] at h
    exact ⟨List.append_cancel_right h, index⟩
  · rintro ⟨houtpoint, hindex⟩
    rw [UtxoInput.outpointKey, UtxoInput.outpointKey, houtpoint, hindex]

/-- The tables tell at least as many outputs apart as the builder. -/
theorem output_eq_of_key {a b : UtxoInput} (h : a.outpointKey = b.outpointKey) :
    a.output = b.output := by
  obtain ⟨houtpoint, hindex⟩ := outpointKey_inj.mp h
  rw [UtxoInput.output, UtxoInput.output, houtpoint, hindex]

/-- The indexer tells fewer outputs apart than the builder. -/
theorem queried_eq_of_output {a b : UtxoInput} (h : a.output = b.output) : a.queried = b.queried := by
  obtain ⟨houtpoint, hindex⟩ := Prod.mk.inj h
  rw [UtxoInput.queried, UtxoInput.queried, cleanHash, cleanHash, houtpoint, hindex]

end MidnightSdk.UtxoTransactions
