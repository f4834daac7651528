import MidnightSdk.Library.Words

/-!
# Counters that stop at zero

A word that amounts are added to, and taken off as far as they are there. After some
additions and then some subtractions it holds the exact difference only where there
was enough, and where the additions fit.
-/

namespace MidnightSdk.Tally

open Words

/-- `a > b ? a - b : 0` -/
def takeOff (a b : UInt64) : UInt64 := if a > b then a - b else 0

theorem toNat_takeOff (a b : UInt64) : (takeOff a b).toNat = a.toNat - b.toNat := by
  unfold takeOff
  split
  · rename_i more
    exact UInt64.toNat_sub_of_le a b (UInt64.le_of_lt more)
  · rename_i less
    have enough : a.toNat ≤ b.toNat := UInt64.le_iff_toNat_le.mp (UInt64.not_lt.mp less)
    rw [UInt64.toNat_zero, Nat.sub_eq_zero_of_le enough]

theorem takeOff_zero (a : UInt64) : takeOff a 0 = a := by
  rw [← UInt64.toNat_inj, toNat_takeOff]
  rfl

theorem takeOff_one (a : UInt64) : takeOff a 1 = if a > 0 then a - 1 else 0 := by
  rw [← UInt64.toNat_inj, toNat_takeOff, UInt64.toNat_one]
  split
  · rename_i some
    have enough : 1 ≤ a := by
      rw [UInt64.le_iff_toNat_le]
      exact UInt64.lt_iff_toNat_lt.mp some
    rw [UInt64.toNat_sub_of_le a 1 enough, UInt64.toNat_one]
  · rename_i none
    have zero : a.toNat ≤ 0 := UInt64.le_iff_toNat_le.mp (UInt64.not_lt.mp none)
    rw [Nat.le_zero.mp zero, UInt64.toNat_zero]

theorem toNat_foldl_takeOff (taken : List UInt64) (a : UInt64) :
    (taken.foldl takeOff a).toNat = a.toNat - exactSum taken := by
  induction taken generalizing a with
  | nil => rfl
  | cons b taken ih => rw [List.foldl_cons, ih, toNat_takeOff, exactSum_cons, Nat.sub_sub]

/-- The counter after some additions, and then some subtractions. -/
def after (a : UInt64) (added taken : List UInt64) : UInt64 :=
  taken.foldl takeOff (added.foldl (· + ·) a)

theorem toNat_after (a : UInt64) (added taken : List UInt64) :
    (after a added taken).toNat = (a.toNat + exactSum added) % 2 ^ 64 - exactSum taken := by
  rw [after, toNat_foldl_takeOff, toNat_foldl_add]

/-- There is enough to take off, and what there is fits, or is all taken off. -/
def Covers (held added taken : Int) : Prop :=
  taken ≤ held + added ∧ (held + added < 2 ^ 64 ∨ held + added = taken)

theorem after_exact_iff (a : UInt64) (added taken : List UInt64) :
    ((after a added taken).toNat : Int) = a.toNat + exactSum added - exactSum taken ↔
      Covers a.toNat (exactSum added) (exactSum taken) := by
  rw [toNat_after, Covers]
  omega

/-- Nothing changes behind the additions exactly when nothing is taken off, or there is
nothing to take. -/
theorem after_eq_added_iff (a : UInt64) (added taken : List UInt64) :
    after a added taken = added.foldl (· + ·) a ↔
      exactSum taken = 0 ∨ (a.toNat + exactSum added) % 2 ^ 64 = 0 := by
  rw [← UInt64.toNat_inj, toNat_after, toNat_foldl_add]
  omega

end MidnightSdk.Tally
