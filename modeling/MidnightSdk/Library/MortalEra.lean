import Mathlib.Algebra.Order.Group.Nat
import Mathlib.Order.Bounds.Defs

/-!
# Mortal eras

A transaction that is valid for a while names a period, which is a power of two,
and a place in it. Both go into 16 bits: the logarithm below, the place above, and
the place is rounded down where it would not fit.
-/

namespace MidnightSdk.MortalEra

structure Era where
  period : Nat
  phase : Nat
  deriving DecidableEq, Repr

/-- What places of a period are counted in. -/
def quantize (period : Nat) : Nat := max 1 (period >>> 12)

/-- The era that 16 bits stand for. -/
def read (e : Nat) : Era where
  period := 2 <<< (e % 16)
  phase := (e >>> 4) * quantize (2 <<< (e % 16))

/-- The first block of the era a block is in. -/
def Era.birth (era : Era) (current : Nat) : Nat :=
  (max current era.phase - era.phase) / era.period * era.period + era.phase

/-- The first block behind it. -/
def Era.death (era : Era) (current : Nat) : Nat := era.birth current + era.period

/-- The era of a period that a block lies in, its place rounded down. -/
def around (period block : Nat) : Era where
  period := period
  phase := block % period / quantize period * quantize period

/-- The 16 bits of the era of `2 ^ k` blocks around a block. -/
def pack (k block : Nat) : Nat := (k - 1) + 16 * (block % 2 ^ k / quantize (2 ^ k))

theorem quantize_pos (period : Nat) : 0 < quantize period := Nat.le_max_left 1 _

/-- Twelve bits hold a place. -/
theorem place_lt (k block : Nat) : block % 2 ^ k / quantize (2 ^ k) < 4096 := by
  have below : block % 2 ^ k < 2 ^ k := Nat.mod_lt _ (Nat.two_pow_pos k)
  have covered : 2 ^ k ≤ quantize (2 ^ k) * 4096 := by
    rw [quantize, Nat.shiftRight_eq_div_pow]
    by_cases small : k ≤ 12
    · have bound : 2 ^ k ≤ 2 ^ 12 := Nat.pow_le_pow_right (by decide) small
      omega
    · have split : 2 ^ k = 2 ^ (k - 12) * 2 ^ 12 := by
        rw [← Nat.pow_add]
        congr 1
        omega
      rw [split, Nat.mul_div_cancel _ (by decide)]
      exact Nat.mul_le_mul_right _ (Nat.le_max_right 1 _)
  exact Nat.div_lt_of_lt_mul (Nat.lt_of_lt_of_le below covered)

theorem pack_lt {k : Nat} (hk : k ≤ 16) (block : Nat) : pack k block < 65536 := by
  have := place_lt k block
  rw [pack]
  omega

/-- **What is packed is read back.** -/
theorem read_pack {k : Nat} (hpos : 1 ≤ k) (hk : k ≤ 16) (block : Nat) :
    read (pack k block) = around (2 ^ k) block := by
  have low : pack k block % 16 = k - 1 := by
    rw [pack]
    omega
  have high : pack k block >>> 4 = block % 2 ^ k / quantize (2 ^ k) := by
    rw [pack, Nat.shiftRight_eq_div_pow]
    omega
  have period : 2 <<< (k - 1) = 2 ^ k := by
    rw [Nat.shiftLeft_eq, ← Nat.pow_succ', Nat.succ_eq_add_one, Nat.sub_add_cancel hpos]
  rw [read, around, low, high, period]

theorem around_phase_le (period block : Nat) : (around period block).phase ≤ block % period :=
  Nat.div_mul_le_self _ _

/-- **A block lies in the era around it.** -/
theorem around_contains {period : Nat} (hpos : 0 < period) (block : Nat) :
    (around period block).phase < period ∧ (around period block).birth block ≤ block ∧
      block < (around period block).death block := by
  have phase : (around period block).phase ≤ block % period := around_phase_le period block
  have below : block % period < period := Nat.mod_lt _ hpos
  have parts : period * (block / period) + block % period = block := Nat.div_add_mod block period
  have birth : (around period block).birth block =
      period * (block / period) + (around period block).phase := by
    have later : max block (around period block).phase = block := by omega
    have since : block - (around period block).phase =
        block % period - (around period block).phase + period * (block / period) := by omega
    have first : (block % period - (around period block).phase) / period = 0 :=
      Nat.div_eq_of_lt (by omega)
    rw [Era.birth, later, since]
    change (_ + period * _) / period * period + _ = _
    rw [Nat.add_mul_div_left _ _ hpos, first, Nat.zero_add, Nat.mul_comm]
  have death : (around period block).death block = (around period block).birth block + period := rfl
  omega

end MidnightSdk.MortalEra
