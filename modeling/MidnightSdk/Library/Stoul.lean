import Mathlib.Algebra.Order.Group.Nat
import MidnightSdk.Library.Cpp
import MidnightSdk.Library.HexText

/-!
# Reading a number the way `strtoul` does

`std::stoul` in base 16: blanks and one sign are passed over, a `0x` counts
only in front of a digit, and reading stops at the first character that is no
digit. Not every text that is read is therefore a number.
-/

namespace MidnightSdk.Stoul

open Cpp HexText

/-- `std::isspace` in the C locale. -/
def isSpace (c : Char) : Bool := [' ', '\t', '\n', '\x0b', '\x0c', '\r'].contains c

def isSign (c : Char) : Bool := ['+', '-'].contains c

def dropSign : List Char → Bool × List Char
  | [] => (false, [])
  | c :: rest => if isSign c then (c == '-', rest) else (false, c :: rest)

def dropPrefix : List Char → List Char
  | '0' :: x :: d :: rest =>
    if (x == 'x' || x == 'X') && (digitValue d).isSome then d :: rest else '0' :: x :: d :: rest
  | text => text

/-- The values of the digits the text starts with. -/
def leadingDigits : List Char → List Nat
  | [] => []
  | c :: rest =>
    match digitValue c with
    | some v => v :: leadingDigits rest
    | none => []

def ofDigits (ds : List Nat) : Nat := ds.foldl (fun n d => 16 * n + d) 0

/-- `std::stoul(text, nullptr, 16)`; a minus sign negates in the unsigned type. -/
def stoul16 (text : List Char) : Throws UInt64 :=
  let (negative, body) := dropSign (text.dropWhile isSpace)
  let ds := leadingDigits (dropPrefix body)
  if ds.isEmpty then .error (.invalidArgument "stoul")
  else if 2 ^ 64 ≤ ofDigits ds then .error (.outOfRange "stoul")
  else .ok (if negative then -UInt64.ofNat (ofDigits ds) else UInt64.ofNat (ofDigits ds))

theorem digitValue_eq_none {c : Char} (h : c ∉ digits) : digitValue c = none := by
  cases hv : digitValue c with
  | none => rfl
  | some v => exact absurd (mem_of_digitValue hv) h

theorem not_digit_of_isSpace {c : Char} (h : isSpace c = true) : c ∉ digits := by
  have all : [' ', '\t', '\n', '\x0b', '\x0c', '\r'].Forall (· ∉ digits) := by decide
  exact List.forall_iff_forall_mem.mp all c (List.contains_iff_mem.mp h)

theorem not_digit_of_isSign {c : Char} (h : isSign c = true) : c ∉ digits ∧ isSpace c = false := by
  have all : ['+', '-'].Forall fun c => c ∉ digits ∧ isSpace c = false := by decide
  exact List.forall_iff_forall_mem.mp all c (List.contains_iff_mem.mp h)

/-! ## Slices of two characters -/

/-- What is made a number of, of two characters: a digit with anything after
it, or a digit behind a blank or a sign. -/
def Readable (hi lo : Char) : Prop :=
  hi ∈ digits ∨ (isSpace hi = true ∨ isSign hi = true) ∧ lo ∈ digits

instance (hi lo : Char) : Decidable (Readable hi lo) :=
  inferInstanceAs (Decidable (hi ∈ digits ∨ (isSpace hi = true ∨ isSign hi = true) ∧ lo ∈ digits))

theorem dropPrefix_short {text : List Char} (h : text.length ≤ 2) : dropPrefix text = text := by
  unfold dropPrefix
  split
  · simp at h
  · rfl

theorem leadingDigits_of_not_mem {c : Char} (h : c ∉ digits) (rest : List Char) :
    leadingDigits (c :: rest) = [] := by
  rw [leadingDigits, digitValue_eq_none h]

theorem dropSign_of_digit {c : Char} (h : c ∈ digits) (rest : List Char) :
    dropSign (c :: rest) = (false, c :: rest) := by
  have unsigned : ¬isSign c = true := fun hs => (not_digit_of_isSign hs).1 h
  rw [dropSign, if_neg unsigned]

theorem isSpace_of_digit {c : Char} (h : c ∈ digits) : isSpace c = false := by
  cases hs : isSpace c with
  | false => rfl
  | true => exact absurd h (not_digit_of_isSpace hs)

/-- Two digits are read as their byte. -/
theorem stoul16_digits {hi lo : Char} {high low : Nat} (hhi : digitValue hi = some high)
    (hlo : digitValue lo = some low) (hhigh : high < 16) (hlow : low < 16) :
    stoul16 [hi, lo] = .ok (UInt64.ofNat (16 * high + low)) := by
  have read : leadingDigits [hi, lo] = [high, low] := by
    simp only [leadingDigits, hhi, hlo]
  have start : [hi, lo].dropWhile isSpace = [hi, lo] := by
    rw [List.dropWhile_cons, isSpace_of_digit (mem_of_digitValue hhi)]
    rfl
  have value : ofDigits [high, low] = 16 * high + low := by simp [ofDigits]
  unfold stoul16
  rw [start, dropSign_of_digit (mem_of_digitValue hhi)]
  dsimp only
  rw [dropPrefix_short (by simp), read, value, if_neg (by simp), if_neg (by omega)]
  rfl

/-- The digits a slice of two starts with, once its blank or sign is passed. -/
theorem exists_leadingDigits_iff (hi lo : Char) :
    leadingDigits (dropPrefix (dropSign ([hi, lo].dropWhile isSpace)).2) ≠ [] ↔ Readable hi lo := by
  have single : leadingDigits [lo] ≠ [] ↔ lo ∈ digits := by
    constructor
    · intro h
      by_contra hlo
      exact h (leadingDigits_of_not_mem hlo [])
    · intro hlo
      obtain ⟨v, -, hv⟩ := digitValue_of_mem hlo
      simp [leadingDigits, hv]
  by_cases hdigit : hi ∈ digits
  · obtain ⟨v, -, hv⟩ := digitValue_of_mem hdigit
    rw [List.dropWhile_cons, isSpace_of_digit hdigit, if_neg (by simp), dropSign_of_digit hdigit,
      dropPrefix_short (by simp)]
    simp [leadingDigits, hv, Readable, hdigit]
  · by_cases hspace : isSpace hi = true
    · rw [List.dropWhile_cons, if_pos hspace]
      by_cases hlo : lo ∈ digits
      · rw [List.dropWhile_cons, isSpace_of_digit hlo, if_neg (by simp), dropSign_of_digit hlo,
          dropPrefix_short (by simp)]
        simpa [Readable, hdigit, hspace] using single
      · have nothing : leadingDigits (dropPrefix (dropSign ([lo].dropWhile isSpace)).2) = [] := by
          by_cases hblank : isSpace lo = true
          · rw [List.dropWhile_cons, if_pos hblank]
            rfl
          · rw [List.dropWhile_cons, if_neg hblank, dropSign]
            split
            · rfl
            · rw [dropPrefix_short (by simp)]
              exact leadingDigits_of_not_mem hlo []
        simp [nothing, Readable, hdigit, hlo]
    · rw [List.dropWhile_cons, if_neg hspace, dropSign]
      by_cases hsign : isSign hi = true
      · rw [if_pos hsign, dropPrefix_short (by simp)]
        simpa [Readable, hdigit, hsign] using single
      · rw [if_neg hsign, dropPrefix_short (by simp), leadingDigits_of_not_mem hdigit]
        simp [Readable, hdigit, hspace, hsign]

theorem leadingDigits_lt (text : List Char) : ∀ v ∈ leadingDigits text, v < 16 := by
  induction text with
  | nil => simp [leadingDigits]
  | cons c rest ih =>
    by_cases hc : c ∈ digits
    · obtain ⟨v, hv, hvalue⟩ := digitValue_of_mem hc
      simpa [leadingDigits, hvalue, hv] using ih
    · simp [leadingDigits_of_not_mem hc]

theorem leadingDigits_length_le (text : List Char) :
    (leadingDigits text).length ≤ text.length := by
  induction text with
  | nil => simp [leadingDigits]
  | cons c rest ih =>
    by_cases hc : c ∈ digits
    · obtain ⟨v, -, hvalue⟩ := digitValue_of_mem hc
      simpa [leadingDigits, hvalue] using ih
    · simp [leadingDigits_of_not_mem hc]

theorem foldl_digits_lt (ds : List Nat) (h : ∀ d ∈ ds, d < 16) (n : Nat) :
    ds.foldl (fun n d => 16 * n + d) n < (n + 1) * 16 ^ ds.length := by
  induction ds generalizing n with
  | nil => simp
  | cons d ds ih =>
    have hd := h d (by simp)
    have grown : (16 * n + d + 1) * 16 ^ ds.length ≤ (16 * (n + 1)) * 16 ^ ds.length :=
      Nat.mul_le_mul_right _ (by omega)
    calc (d :: ds).foldl (fun n d => 16 * n + d) n < (16 * n + d + 1) * 16 ^ ds.length :=
          ih (fun e he => h e (List.mem_cons_of_mem d he)) _
      _ ≤ (16 * (n + 1)) * 16 ^ ds.length := grown
      _ = (n + 1) * 16 ^ (d :: ds).length := by
        rw [List.length_cons, Nat.pow_succ, Nat.mul_comm 16, Nat.mul_assoc, Nat.mul_comm 16]

theorem ofDigits_lt (ds : List Nat) (h : ∀ d ∈ ds, d < 16) : ofDigits ds < 16 ^ ds.length := by
  simpa [ofDigits] using foldl_digits_lt ds h 0

theorem dropSign_length_le (text : List Char) : (dropSign text).2.length ≤ text.length := by
  cases text with
  | nil => simp [dropSign]
  | cons c rest =>
    rw [dropSign]
    split <;> simp

/-- A slice of two is made a number of exactly when it is readable. -/
theorem stoul16_isOk_iff (hi lo : Char) : (∃ v, stoul16 [hi, lo] = .ok v) ↔ Readable hi lo := by
  rw [← exists_leadingDigits_iff]
  unfold stoul16
  generalize hbody : dropSign ([hi, lo].dropWhile isSpace) = signed
  have short : signed.2.length ≤ 2 := by
    rw [← hbody]
    exact Nat.le_trans (dropSign_length_le _) (List.dropWhile_sublist isSpace).length_le
  have bound : ofDigits (leadingDigits (dropPrefix signed.2)) < 2 ^ 64 := by
    rw [dropPrefix_short short]
    calc ofDigits (leadingDigits signed.2) < 16 ^ (leadingDigits signed.2).length :=
          ofDigits_lt _ (leadingDigits_lt _)
      _ ≤ 16 ^ 2 := Nat.pow_le_pow_right (by omega) (Nat.le_trans (leadingDigits_length_le _) short)
      _ ≤ 2 ^ 64 := by omega
  obtain ⟨negative, body⟩ := signed
  by_cases hnone : leadingDigits (dropPrefix body) = []
  · simp [hnone]
  · have some : (leadingDigits (dropPrefix body)).isEmpty = false := by simpa using hnone
    have room : ¬2 ^ 64 ≤ ofDigits (leadingDigits (dropPrefix body)) := Nat.not_le.mpr bound
    simp only [some, Bool.false_eq_true, if_false, if_neg room]
    exact iff_of_true ⟨_, rfl⟩ hnone

end MidnightSdk.Stoul
