import Mathlib.Algebra.BigOperators.Group.List.Basic
import Mathlib.Algebra.Order.Group.Nat

/-!
# Casting out nines

A decimal text and the sum of its digits leave the same remainder when divided by
nine, so no rearrangement of the digits and no zeros more or less change it.
-/

namespace MidnightSdk.DecimalDigits

/-- `c - '0'` -/
def digit (c : Char) : Nat := c.toNat - 48

def digitSum : List Char → Nat
  | [] => 0
  | c :: text => digit c + digitSum text

theorem digit_lt {c : Char} (h : c.isDigit = true) : digit c < 10 := by
  have high := (Char.isDigit_iff_toNat.mp h).2
  change c.toNat ≤ 57 at high
  unfold digit
  omega

/-- A digit is written as the character it was read from. -/
theorem digitChar_digit {c : Char} (h : c.isDigit = true) : Nat.digitChar (digit c) = c := by
  obtain ⟨low, high⟩ := Char.isDigit_iff_toNat.mp h
  change 48 ≤ c.toNat at low
  apply Char.toNat_inj.mp
  rw [Nat.toNat_digitChar_of_lt_ten (digit_lt h), digit]
  omega

theorem ofDigitChars_mod_nine (text : List Char) (init : Nat) :
    Nat.ofDigitChars 10 text init % 9 = (init + digitSum text) % 9 := by
  induction text generalizing init with
  | nil => rfl
  | cons c text ih =>
    have step : Nat.ofDigitChars 10 (c :: text) init =
        Nat.ofDigitChars 10 text (10 * init + digit c) := rfl
    rw [step, ih, digitSum]
    omega

theorem digitSum_toDigits (n : Nat) : digitSum (Nat.toDigits 10 n) % 9 = n % 9 := by
  have nines := ofDigitChars_mod_nine (Nat.toDigits 10 n) 0
  rw [Nat.ofDigitChars_ten_toDigits, Nat.zero_add] at nines
  exact nines.symm

theorem digitSum_append (text later : List Char) :
    digitSum (text ++ later) = digitSum text + digitSum later := by
  induction text with
  | nil => exact (Nat.zero_add _).symm
  | cons c text ih =>
    rw [List.cons_append, digitSum, digitSum, ih]
    omega

theorem digitSum_reverse (text : List Char) : digitSum text.reverse = digitSum text := by
  induction text with
  | nil => rfl
  | cons c text ih =>
    have last : digitSum [c] = digit c := Nat.add_zero _
    rw [List.reverse_cons, digitSum_append, ih, last, digitSum]
    omega

/-- Zeros in front of a text add nothing. -/
theorem digitSum_dropWhile (text : List Char) :
    digitSum (text.dropWhile (· == '0')) = digitSum text := by
  induction text with
  | nil => rfl
  | cons c text ih =>
    by_cases hzero : c = '0'
    · have nothing : digit '0' = 0 := rfl
      rw [List.dropWhile_cons_of_pos (by simp [hzero]), ih, digitSum, hzero, nothing, Nat.zero_add]
    · rw [List.dropWhile_cons_of_neg (by simp [hzero])]

/-- **Numbers written with the same digits**, in any order and with zeros dropped,
agree modulo nine; and there are at most as many digits as before. -/
theorem mod_nine_of_reversed {m n : Nat}
    (h : (Nat.toDigits 10 m).reverse.dropWhile (· == '0') = Nat.toDigits 10 n) :
    n % 9 = m % 9 ∧ (Nat.toDigits 10 n).length ≤ (Nat.toDigits 10 m).length := by
  constructor
  · rw [← digitSum_toDigits n, ← h, digitSum_dropWhile, digitSum_reverse, digitSum_toDigits]
  · have shorter := (List.dropWhile_sublist (· == '0') (l := (Nat.toDigits 10 m).reverse)).length_le
    rwa [h, List.length_reverse] at shorter

theorem toDigits_ne_zeros {n : Nat} (hpos : 0 < n) (k : Nat) :
    Nat.toDigits 10 n ≠ List.replicate k '0' := by
  intro h
  have zeros : ∀ k, Nat.ofDigitChars 10 (List.replicate k '0') 0 = 0 := by
    intro k
    induction k with
    | zero => rfl
    | succ k ih => exact ih
  have value : Nat.ofDigitChars 10 (Nat.toDigits 10 n) 0 = n := Nat.ofDigitChars_ten_toDigits
  rw [h, zeros] at value
  omega

theorem exists_digit_ne_zero {n : Nat} (hpos : 0 < n) : ∃ c ∈ Nat.toDigits 10 n, c ≠ '0' := by
  by_contra none
  apply toDigits_ne_zeros hpos (Nat.toDigits 10 n).length
  apply List.eq_replicate_of_mem
  intro c hc
  by_contra hne
  exact none ⟨c, hc, hne⟩

end MidnightSdk.DecimalDigits
