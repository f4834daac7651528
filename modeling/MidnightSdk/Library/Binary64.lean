import Mathlib.Algebra.Order.Group.Nat
import Mathlib.Data.Nat.Log

/-!
# Whole numbers as doubles

A double holds a whole number as 53 bits times a power of two. Other numbers are rounded
to the nearest one that it holds, and halfway between two to the one with an even last bit.
-/

namespace MidnightSdk.Binary64

/-- What the last of 53 bits counts for, where the first one is the first of the number. -/
def unit (n : Nat) : Nat := 2 ^ (n.log2 - 52)

/-- The number as a double. -/
def round (n : Nat) : Nat :=
  let whole := n / unit n
  let part := n % unit n
  (if unit n < 2 * part ∨ (unit n = 2 * part ∧ whole % 2 = 1) then whole + 1 else whole) * unit n

/-- A double holds the number. -/
def Fits (n : Nat) : Prop := ∃ m k, m < 2 ^ 53 ∧ n = m * 2 ^ k

theorem unit_pos (n : Nat) : 0 < unit n := Nat.two_pow_pos _

theorem fits_iff_unit_dvd {n : Nat} : Fits n ↔ unit n ∣ n := by
  constructor
  · rintro ⟨m, k, hm, hn⟩
    have small : n < 2 ^ (53 + k) := by
      rw [hn, Nat.pow_add]
      exact Nat.mul_lt_mul_of_pos_right hm (Nat.two_pow_pos k)
    rcases Nat.eq_zero_or_pos n with rfl | hpos
    · exact Nat.dvd_zero _
    · have bits : n.log2 < 53 + k := (Nat.log2_lt (by omega)).mpr small
      have powers : unit n ∣ 2 ^ k := Nat.pow_dvd_pow 2 (by omega)
      rw [hn] at powers ⊢
      exact Nat.dvd_trans powers (Nat.dvd_mul_left _ _)
  · rintro ⟨m, hm⟩
    refine ⟨m, n.log2 - 52, ?_, by rw [Nat.mul_comm]; exact hm⟩
    have bits : n < 2 ^ (n.log2 + 1) := Nat.lt_log2_self
    have powers : 2 ^ (n.log2 + 1) ≤ unit n * 2 ^ 53 := by
      rw [unit, ← Nat.pow_add]
      exact Nat.pow_le_pow_right (by decide) (by omega)
    have scaled : unit n * m < unit n * 2 ^ 53 := by
      rw [← hm]
      exact Nat.lt_of_lt_of_le bits powers
    exact Nat.lt_of_mul_lt_mul_left scaled

instance (n : Nat) : Decidable (Fits n) := decidable_of_iff _ fits_iff_unit_dvd.symm

/-- A number is kept as it is exactly where a double holds it. -/
theorem round_eq_self_iff {n : Nat} : round n = n ↔ Fits n := by
  rw [fits_iff_unit_dvd]
  constructor
  · intro h
    have multiple : unit n ∣ round n := Nat.dvd_mul_left _ _
    rwa [h] at multiple
  · intro h
    have exactly : n % unit n = 0 := Nat.mod_eq_zero_of_dvd h
    have below : ¬(unit n < 0 ∨ (unit n = 0 ∧ n / unit n % 2 = 1)) := by
      have := unit_pos n
      omega
    simp only [round, exactly, Nat.mul_zero, if_neg below]
    exact Nat.div_mul_cancel h

theorem fits_of_lt {n : Nat} (h : n < 2 ^ 53) : Fits n := ⟨n, 0, h, by rw [pow_zero, mul_one]⟩

example : round (2 ^ 53 + 1) = 2 ^ 53 ∧ round (2 ^ 53 + 3) = 2 ^ 53 + 4 := by decide

end MidnightSdk.Binary64
