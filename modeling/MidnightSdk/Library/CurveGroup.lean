import Mathlib.Data.ZMod.Basic
import Mathlib.GroupTheory.OrderOfElement

/-!
# Curves of prime order

A cyclic group of prime order whose elements, all but zero, have two coordinates
below an odd number. Opposite elements share the first coordinate and no others
do; their second coordinates have different parities. So an element is known by
its first coordinate and one bit.
-/

namespace MidnightSdk

/-- The group, and what a library can do with its elements beside adding them. A first
coordinate that comes with a parity is taken modulo `p`. -/
structure CurveGroup (p n : ℕ) where
  Point : Type
  [group : AddCommGroup Point]
  generator : Point
  affine : Point → Option (ℕ × ℕ)
  ofAffine : ℕ → ℕ → Option Point
  ofCompressed : ℕ → Bool → Option Point
  odd : p % 2 = 1
  prime : n.Prime
  smul_generator_eq_zero (k : ℕ) : k • generator = 0 ↔ n ∣ k
  generated (P : Point) : ∃ k : ℕ, P = k • generator
  affine_eq_none {P : Point} : affine P = none ↔ P = 0
  affine_lt {P : Point} {x y : ℕ} : affine P = some (x, y) → x < p ∧ y < p
  affine_neg {P : Point} {x y : ℕ} : affine P = some (x, y) → affine (-P) = some (x, p - y)
  eq_or_eq_neg {P Q : Point} {x y y' : ℕ} :
    affine P = some (x, y) → affine Q = some (x, y') → Q = P ∨ Q = -P
  ofAffine_eq_some {P : Point} {x y : ℕ} :
    x < p → y < p → (ofAffine x y = some P ↔ affine P = some (x, y))
  ofCompressed_eq_some {P : Point} {x : ℕ} {parity : Bool} :
    ofCompressed x parity = some P ↔ ∃ y, affine P = some (x % p, y) ∧ decide (y % 2 = 1) = parity

namespace CurveGroup

attribute [instance] CurveGroup.group

variable {p n : ℕ} (curve : CurveGroup p n)

/-! ## Multiples -/

theorem smul_mod (k : ℕ) (P : curve.Point) : (k % n) • P = k • P := by
  obtain ⟨d, rfl⟩ := curve.generated P
  have multiple : (n * (k / n)) • d • curve.generator = 0 := by
    rw [smul_smul, curve.smul_generator_eq_zero]
    exact dvd_mul_of_dvd_left (dvd_mul_right n _) d
  calc (k % n) • d • curve.generator
      = (k % n) • d • curve.generator + (n * (k / n)) • d • curve.generator := by
        rw [multiple, add_zero]
    _ = k • d • curve.generator := by rw [← add_smul, Nat.mod_add_div]

theorem smul_generator_inj {k l : ℕ} :
    k • curve.generator = l • curve.generator ↔ (k : ZMod n) = l := by
  have order : addOrderOf curve.generator = n := by
    apply Nat.dvd_antisymm
    · exact addOrderOf_dvd_of_nsmul_eq_zero ((curve.smul_generator_eq_zero n).mpr dvd_rfl)
    · exact (curve.smul_generator_eq_zero _).mp (addOrderOf_nsmul_eq_zero _)
  rw [nsmul_eq_nsmul_iff_modEq, order, ZMod.natCast_eq_natCast_iff]

/-- The opposite of a multiple, as it is computed modulo the order. -/
theorem neg_smul_generator {k l : ℕ} :
    l • curve.generator = -(k • curve.generator) ↔ (l : ZMod n) = -(k : ZMod n) := by
  rw [eq_neg_iff_add_eq_zero, ← add_smul, curve.smul_generator_eq_zero,
    ← ZMod.natCast_eq_zero_iff, Nat.cast_add, eq_neg_iff_add_eq_zero]

theorem smul_generator_ne_zero {k : ℕ} (h : 0 < k) (hlt : k < n) : k • curve.generator ≠ 0 := by
  rw [ne_eq, curve.smul_generator_eq_zero]
  exact Nat.not_dvd_of_pos_of_lt h hlt

/-! ## Coordinates -/

variable {curve} {P Q : curve.Point} {x y y' : ℕ}

theorem exists_affine (h : P ≠ 0) : ∃ x y, curve.affine P = some (x, y) := by
  cases found : curve.affine P with
  | none => exact absurd (curve.affine_eq_none.mp found) h
  | some xy => exact ⟨xy.1, xy.2, rfl⟩

theorem ne_zero_of_affine (h : curve.affine P = some (x, y)) : P ≠ 0 := by
  rintro rfl
  rw [curve.affine_eq_none.mpr rfl] at h
  cases h

/-- No second coordinate is zero. -/
theorem affine_pos (h : curve.affine P = some (x, y)) : 0 < y := by
  have below := (curve.affine_lt (curve.affine_neg h)).2
  have := (curve.affine_lt h).2
  omega

theorem parity_neg (h : curve.affine P = some (x, y)) :
    decide ((p - y) % 2 = 1) = !decide (y % 2 = 1) := by
  have odd := curve.odd
  have := (curve.affine_lt h).2
  rw [← decide_not, decide_eq_decide]
  omega

theorem ne_neg (h : P ≠ 0) : P ≠ -P := by
  obtain ⟨x, y, hP⟩ := exists_affine h
  intro same
  have hneg := curve.affine_neg hP
  rw [← same, hP, Option.some.injEq, Prod.mk.injEq] at hneg
  have odd := curve.odd
  omega

/-- A point is found again from its first coordinate and its parity. -/
theorem ofCompressed_affine (h : curve.affine P = some (x, y)) :
    curve.ofCompressed x (decide (y % 2 = 1)) = some P := by
  rw [curve.ofCompressed_eq_some, Nat.mod_eq_of_lt (curve.affine_lt h).1]
  exact ⟨y, h, rfl⟩

theorem ofCompressed_neg {parity : Bool} (h : curve.ofCompressed x parity = some P) :
    curve.ofCompressed x (!parity) = some (-P) := by
  obtain ⟨y, hP, hparity⟩ := curve.ofCompressed_eq_some.mp h
  rw [curve.ofCompressed_eq_some]
  exact ⟨p - y, curve.affine_neg hP, by rw [parity_neg hP, hparity]⟩

/-- Either parity gives the point or its opposite. -/
theorem ofCompressed_of_affine (h : curve.affine P = some (x, y)) (parity : Bool) :
    curve.ofCompressed x parity = some P ∨ curve.ofCompressed x parity = some (-P) := by
  have found := ofCompressed_affine h
  by_cases same : parity = decide (y % 2 = 1)
  · rw [same]
    exact Or.inl found
  · rw [Bool.eq_not_of_ne same]
    exact Or.inr (ofCompressed_neg found)

/-- Two points have the same first coordinate exactly when they are equal or opposite. -/
theorem same_x_iff (h : curve.affine P = some (x, y)) :
    (∃ y', curve.affine Q = some (x, y')) ↔ Q = P ∨ Q = -P := by
  constructor
  · rintro ⟨y', hQ⟩
    exact curve.eq_or_eq_neg h hQ
  · rintro (rfl | rfl)
    · exact ⟨y, h⟩
    · exact ⟨p - y, curve.affine_neg h⟩

end CurveGroup

end MidnightSdk
