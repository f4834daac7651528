import Mathlib.Algebra.Order.BigOperators.Group.List
import Mathlib.Algebra.Order.Ring.Nat

/-!
# Sums of machine words

A loop that adds 64-bit words computes the sum modulo 2^64. `exactSum` is the
sum over the integers, `wrapSum` the one the machine holds; the lemmas say
when they agree and how both behave under append, permutation and selection.
-/

namespace MidnightSdk.Words

/-- The sum over the integers. -/
def exactSum (xs : List UInt64) : Nat := (xs.map UInt64.toNat).sum

/-- The sum as a loop over a 64-bit accumulator computes it. -/
def wrapSum (xs : List UInt64) : UInt64 := xs.foldl (· + ·) 0

@[simp] theorem exactSum_nil : exactSum [] = 0 := rfl

@[simp] theorem exactSum_cons (x : UInt64) (xs : List UInt64) :
    exactSum (x :: xs) = x.toNat + exactSum xs := by simp [exactSum]

@[simp] theorem exactSum_append (xs ys : List UInt64) :
    exactSum (xs ++ ys) = exactSum xs + exactSum ys := by simp [exactSum]

theorem exactSum_perm {xs ys : List UInt64} (h : xs.Perm ys) : exactSum xs = exactSum ys :=
  (h.map _).sum_eq

theorem exactSum_subperm {xs ys : List UInt64} (h : xs.Subperm ys) : exactSum xs ≤ exactSum ys := by
  obtain ⟨zs, hp, hs⟩ := h
  rw [← exactSum_perm hp]
  exact (hs.map _).sum_le_sum (by simp)

theorem toNat_foldl_add (xs : List UInt64) (a : UInt64) :
    (xs.foldl (· + ·) a).toNat = (a.toNat + exactSum xs) % 2 ^ 64 := by
  induction xs generalizing a with
  | nil => simp [Nat.mod_eq_of_lt a.toNat_lt]
  | cons x xs ih =>
    rw [List.foldl_cons, ih, UInt64.toNat_add, exactSum_cons]
    omega

/-- The accumulator holds the exact sum modulo 2^64. -/
theorem toNat_wrapSum (xs : List UInt64) : (wrapSum xs).toNat = exactSum xs % 2 ^ 64 := by
  rw [wrapSum, toNat_foldl_add, UInt64.toNat_zero, Nat.zero_add]

theorem toNat_wrapSum_of_lt {xs : List UInt64} (h : exactSum xs < 2 ^ 64) :
    (wrapSum xs).toNat = exactSum xs := by
  rw [toNat_wrapSum, Nat.mod_eq_of_lt h]

theorem toNat_wrapSum_le (xs : List UInt64) : (wrapSum xs).toNat ≤ exactSum xs := by
  rw [toNat_wrapSum]
  exact Nat.mod_le _ _

@[simp] theorem wrapSum_nil : wrapSum [] = 0 := rfl

/-- The accumulator equals the exact sum exactly when the sum fits in a word. -/
theorem toNat_wrapSum_eq_iff (xs : List UInt64) :
    (wrapSum xs).toNat = exactSum xs ↔ exactSum xs < 2 ^ 64 := by
  constructor
  · intro h
    exact h ▸ (wrapSum xs).toNat_lt
  · exact toNat_wrapSum_of_lt

end MidnightSdk.Words
