import MidnightSdk.Library.DigitOrder
import MidnightSdk.Util.Hex
import MidnightSdk.Wallet.Addresses

/-!
# Checks of texts

The texts a caller gives are checked for their form only: hex of some size, an
address that decodes, a number that fits.
-/

namespace MidnightSdk.Production.Validation

open Cpp Util Wallet Wallet.Address

/-- The characters of a text, one for each byte. -/
def chars (text : List UInt8) : List Char := text.map fun c => Char.ofNat c.toNat

def normalizedHex (value : List UInt8) : List Char := (stripHexPrefix (chars value)).map Char.toLower

def isFixedHex (value : List UInt8) (bytes : Nat) : Bool :=
  let hex := normalizedHex value
  hex.length == bytes * 2 && isHexString hex

def isTxHash (value : List UInt8) : Bool := isFixedHex value 32

def isContractAddressHex (value : List UInt8) : Bool := isFixedHex value 32

def isTokenTypeHex (value : List UInt8) : Bool := isFixedHex value 32

def isUnshieldedNightAddress (value : List UInt8) : Bool := (decodeUnshielded value).isOk

def isDustAddress (value : List UInt8) : Bool := (decodeDust value).isOk

/-- `std::isdigit` -/
def isDigit (c : UInt8) : Bool := 48 ≤ c && c ≤ 57

def kMaxU128 : List UInt8 := literal "340282366920938463463374607431768211455"

/-- Without the zeros in front, the texts of one length are compared as texts. -/
def isU128Decimal (value : List UInt8) : Bool :=
  if value.isEmpty then false
  else if !value.all isDigit then false
  else
    let normalized := value.dropWhile (· == 48)
    if normalized.isEmpty then true
    else
      normalized.length < kMaxU128.length ||
        (normalized.length == kMaxU128.length && decide (normalized ≤ kMaxU128))

def hasSourceInput (srcUrl : String) (srcFiles : List String) : Bool :=
  srcUrl ≠ "" || !srcFiles.isEmpty

def isWalletSeedOrMnemonic (value : List UInt8) : Bool :=
  let hex := normalizedHex value
  if [32, 64, 128].contains hex.length && isHexString hex then true
  else if !(words value).all (·.all Bech32m.isLower) then false
  else [12, 15, 18, 21, 24].contains (words value).length

/-! ## Numbers below `2 ^ 128` -/

/-- What a text of decimal digits stands for. -/
def decimalNumber (value : List UInt8) : Nat := value.foldl (fun n c => 10 * n + (c.toNat - 48)) 0

theorem isDigit_iff {c : UInt8} : isDigit c = true ↔ 48 ≤ c.toNat ∧ c.toNat ≤ 57 := by
  rw [isDigit, Bool.and_eq_true, decide_eq_true_eq, decide_eq_true_eq, UInt8.le_iff_toNat_le,
    UInt8.le_iff_toNat_le]
  rfl

theorem decimalDigits :
    DigitOrder.Digits 10 (fun c : UInt8 => c.toNat - 48) (fun c => isDigit c = true) where
  lt_base c h := by
    have range := isDigit_iff.mp h
    omega
  lt_iff a b ha hb := by
    have rangeA := isDigit_iff.mp ha
    have rangeB := isDigit_iff.mp hb
    rw [UInt8.lt_iff_toNat_lt]
    omega
  inj a b ha hb h := by
    have rangeA := isDigit_iff.mp ha
    have rangeB := isDigit_iff.mp hb
    exact UInt8.toNat_inj.mp (by omega)

theorem decimalNumber_eq (value : List UInt8) :
    decimalNumber value = DigitOrder.value 10 (fun c : UInt8 => c.toNat - 48) value := by
  rw [decimalNumber, DigitOrder.foldl_eq, Nat.zero_mul, Nat.zero_add]

/-- Among digits the zeros dropped are those that stand for nothing. -/
theorem dropWhile_zeros {value : List UInt8} (h : ∀ c ∈ value, isDigit c = true) :
    value.dropWhile (· == 48) = value.dropWhile fun c => c.toNat - 48 == 0 := by
  induction value with
  | nil => rfl
  | cons c value ih =>
    obtain ⟨here, later⟩ := List.forall_mem_cons.mp h
    have range := isDigit_iff.mp here
    have zero : (c == 48) = (c.toNat - 48 == 0) := by
      rw [Bool.eq_iff_iff, beq_iff_eq, beq_iff_eq, ← UInt8.toNat_inj]
      change c.toNat = 48 ↔ _
      omega
    rw [List.dropWhile_cons, List.dropWhile_cons, zero, ih later]

theorem kMaxU128_eq : kMaxU128 = 51 :: literal "40282366920938463463374607431768211455" := by decide

/-- What is left of digits without the zeros in front stands for the same number, which
is compared with the bound. -/
theorem normalized_iff {value : List UInt8} (h : ∀ c ∈ value, isDigit c = true) :
    decimalNumber value < 2 ^ 128 ↔
      (value.dropWhile (· == 48)).length < kMaxU128.length ∨
        (value.dropWhile (· == 48)).length = kMaxU128.length ∧
          value.dropWhile (· == 48) ≤ kMaxU128 := by
  have bound : DigitOrder.value 10 (fun c : UInt8 => c.toNat - 48) kMaxU128 = 2 ^ 128 - 1 := by
    decide
  have kept : ∀ c ∈ value.dropWhile (· == 48), isDigit c = true :=
    fun c hc => h c ((List.dropWhile_sublist _).subset hc)
  have leading : ∀ c ∈ (value.dropWhile (· == 48)).head?, c.toNat - 48 ≠ 0 := by
    rw [dropWhile_zeros h]
    intro c hc hzero
    have nonzero := List.head?_dropWhile_not (fun c : UInt8 => c.toNat - 48 == 0) value
    rw [Option.mem_def.mp hc] at nonzero
    simp [hzero] at nonzero
  rw [kMaxU128_eq] at bound ⊢
  have allDigits : ∀ c ∈ 51 :: literal "40282366920938463463374607431768211455",
      isDigit c = true := by decide +kernel
  have compared := DigitOrder.value_le_iff decimalDigits kept allDigits leading (by decide)
  rw [← compared, bound, dropWhile_zeros h, DigitOrder.value_dropWhile, ← decimalNumber_eq]
  omega

/-- **The digits are compared as the number they stand for is.** Zeros in front make no
difference, however many there are. -/
theorem isU128Decimal_iff (value : List UInt8) :
    isU128Decimal value = true ↔
      value ≠ [] ∧ (∀ c ∈ value, isDigit c = true) ∧ decimalNumber value < 2 ^ 128 := by
  by_cases hempty : value = []
  · subst hempty
    simp [isU128Decimal]
  have some : value.isEmpty = false := by simpa using hempty
  by_cases hdigits : ∀ c ∈ value, isDigit c = true
  · have all : (!value.all isDigit) = false := by simpa using hdigits
    rw [and_iff_right hempty, and_iff_right hdigits, normalized_iff hdigits, isU128Decimal]
    simp only [some, all, Bool.false_eq_true, if_false]
    by_cases hzeros : value.dropWhile (· == 48) = []
    · simp [hzeros, kMaxU128_eq]
    · have digit : (value.dropWhile (· == 48)).isEmpty = false := by simpa using hzeros
      simp [digit]
  · have all : (!value.all isDigit) = true := by simpa using hdigits
    simp only [isU128Decimal, some, all, Bool.false_eq_true, if_false, if_true, false_iff]
    exact fun h => hdigits h.2.1

end MidnightSdk.Production.Validation
