import Mathlib.AlgebraicGeometry.EllipticCurve.Affine.Point
import Mathlib.FieldTheory.Finite.Basic
import Mathlib.GroupTheory.Perm.Cycle.Type
import Mathlib.GroupTheory.SpecificGroups.Cyclic
import MidnightSdk.Library.CurveGroup
import MidnightSdk.Library.PrattPrimes

/-!
# The curves `y ^ 2 = x ^ 3 + b`

Over a prime field, when `-b` is no cube: no point has a zero second coordinate, so
each is known by its first coordinate and a parity. When the prime order of one
point exceeds two thirds of the field, that point generates all of them.

Multiples are computed on three coordinates, without a division.
-/

namespace MidnightSdk.ShortWeierstrass

open WeierstrassCurve

variable {p : ℕ}

/-- `y ^ 2 = x ^ 3 + b` -/
def curve (b : ZMod p) : WeierstrassCurve (ZMod p) := ⟨0, 0, 0, 0, b⟩

variable {b : ZMod p}

theorem equation_iff {x y : ZMod p} : (curve b).toAffine.Equation x y ↔ y ^ 2 = x ^ 3 + b := by
  rw [Affine.equation_iff]
  simp [curve]

theorem negY (x y : ZMod p) : (curve b).toAffine.negY x y = -y := by
  simp [Affine.negY, curve]

theorem addX (x₁ x₂ slope : ZMod p) :
    (curve b).toAffine.addX x₁ x₂ slope = slope ^ 2 - x₁ - x₂ := by
  simp [Affine.addX, curve]

theorem addY (x₁ x₂ y₁ slope : ZMod p) : (curve b).toAffine.addY x₁ x₂ y₁ slope =
    slope * (x₁ - (slope ^ 2 - x₁ - x₂)) - y₁ := by
  rw [Affine.addY, Affine.negAddY, negY, addX]
  ring

/-! ## Points -/

variable [Fact p.Prime]

/-- The assumptions on the prime and on `b`. -/
structure Regular (b : ZMod p) : Prop where
  odd : p % 2 = 1
  no_cube (x : ZMod p) : x ^ 3 + b ≠ 0

/-- What has no third root, by a power of it. -/
theorem no_cube_of_pow (hb : b ≠ 0) (hp : 3 ∣ p - 1) (h : (-b) ^ ((p - 1) / 3) ≠ 1) (x : ZMod p) :
    x ^ 3 + b ≠ 0 := by
  intro root
  have cube : x ^ 3 = -b := eq_neg_of_add_eq_zero_left root
  have nonzero : x ≠ 0 := by
    rintro rfl
    exact hb (by rw [← neg_eq_zero, ← cube, zero_pow (by decide)])
  apply h
  rw [← cube, ← pow_mul, Nat.mul_div_cancel' hp, ZMod.pow_card_sub_one_eq_one nonzero]

theorem two_ne_zero (odd : p % 2 = 1) : (2 : ZMod p) ≠ 0 := by
  intro zero
  have divides : p ∣ 2 := (ZMod.natCast_eq_zero_iff 2 p).mp (mod_cast zero)
  have := Nat.le_of_dvd (by decide) divides
  have := (Fact.out : p.Prime).two_le
  omega

theorem y_ne_zero (regular : Regular b) {x y : ZMod p} (h : y ^ 2 = x ^ 3 + b) : y ≠ 0 := by
  rintro rfl
  exact regular.no_cube x (by rw [← h]; ring)

/-- Every solution is a point. -/
theorem nonsingular (regular : Regular b) {x y : ZMod p} (h : y ^ 2 = x ^ 3 + b) :
    (curve b).toAffine.Nonsingular x y := by
  rw [Affine.nonsingular_iff]
  refine ⟨equation_iff.mpr h, Or.inr ?_⟩
  have hy := y_ne_zero regular h
  have h2 := two_ne_zero regular.odd
  intro same
  apply mul_ne_zero h2 hy
  simp only [curve] at same
  linear_combination same

theorem neg_ne_self (regular : Regular b) {y : ZMod p} (h : y ≠ 0) : y ≠ -y := by
  intro same
  apply mul_ne_zero (two_ne_zero regular.odd) h
  linear_combination same

theorem val_neg {y : ZMod p} (h : y ≠ 0) : (-y).val = p - y.val := by
  have : NeZero y := ⟨h⟩
  exact ZMod.val_neg_of_ne_zero y

/-- Opposite numbers have different parities. -/
theorem parity_neg (regular : Regular b) {y : ZMod p} (h : y ≠ 0) :
    decide ((-y).val % 2 = 1) ≠ decide (y.val % 2 = 1) := by
  have below := ZMod.val_lt y
  have odd := regular.odd
  rw [val_neg h, ne_eq, decide_eq_decide]
  omega

/-- A point is known by its first coordinate and the parity of its second. -/
def compress : (curve b).toAffine.Point → Option (ZMod p × Bool)
  | .zero => none
  | .some x y _ => some (x, decide (y.val % 2 = 1))

theorem compress_injective (regular : Regular b) : Function.Injective (compress (b := b)) := by
  rintro (_ | ⟨x, y, h⟩) (_ | ⟨x', y', h'⟩) same
  · rfl
  · cases same
  · cases same
  · simp only [compress, Option.some.injEq, Prod.mk.injEq] at same
    obtain ⟨rfl, parity⟩ := same
    have eq := equation_iff.mp h.1
    have eq' := equation_iff.mp h'.1
    rcases sq_eq_sq_iff_eq_or_eq_neg.mp (eq.trans eq'.symm) with rfl | rfl
    · rfl
    · exact absurd parity (parity_neg regular (y_ne_zero regular eq'))

theorem finite (regular : Regular b) : Finite (curve b).toAffine.Point :=
  Finite.of_injective _ (compress_injective regular)

theorem card_le (regular : Regular b) : Nat.card (curve b).toAffine.Point ≤ 2 * p + 1 := by
  have bound := Nat.card_le_card_of_injective _ (compress_injective regular)
  rwa [Nat.card_eq_fintype_card (α := Option (ZMod p × Bool)), Fintype.card_option,
    Fintype.card_prod, ZMod.card, Fintype.card_bool, Nat.mul_comm] at bound

/-- No point is its own opposite. -/
theorem eq_zero_of_add_self (regular : Regular b) {P : (curve b).toAffine.Point} (h : P + P = 0) :
    P = 0 := by
  rcases P with _ | ⟨x, y, hP⟩
  · rfl
  · have hy := y_ne_zero regular (equation_iff.mp hP.1)
    rw [Affine.Point.add_self_of_Y_ne (by rw [negY]; exact neg_ne_self regular hy)] at h
    exact absurd h (Affine.Point.some_ne_zero _)

/-- The slope of the tangent. -/
theorem slope_self {x y : ZMod p} (h : y ≠ -y) :
    (curve b).toAffine.slope x x y y = 3 * x ^ 2 / (2 * y) := by
  rw [Affine.slope_of_Y_ne rfl (by rwa [negY]), negY]
  simp [curve, two_mul]

/-! ## The order -/

section

variable {n : ℕ} {G : (curve b).toAffine.Point}

/-- The number of points is a multiple of the order, below its triple, and odd. -/
theorem card_eq (regular : Regular b) (hn : n.Prime) (large : 2 * p + 1 < 3 * n)
    (nonzero : G ≠ 0) (order : n • G = 0) : Nat.card (curve b).toAffine.Point = n := by
  have := finite regular
  have : Fact n.Prime := ⟨hn⟩
  obtain ⟨c, hc⟩ : n ∣ Nat.card (curve b).toAffine.Point := by
    rw [← addOrderOf_eq_prime order nonzero]
    exact addOrderOf_dvd_natCard G
  have bound := card_le regular
  have pos : 0 < Nat.card (curve b).toAffine.Point := Nat.card_pos
  have below : c < 3 := by
    by_contra above
    have := Nat.mul_le_mul_left n (Nat.le_of_not_lt above)
    omega
  have odd : c ≠ 2 := by
    rintro rfl
    obtain ⟨P, hP⟩ := exists_prime_addOrderOf_dvd_card' 2 (Dvd.intro_left n hc.symm)
    have twice : P + P = 0 := by
      rw [← two_nsmul, ← hP, addOrderOf_nsmul_eq_zero]
    rw [eq_zero_of_add_self regular twice, addOrderOf_zero] at hP
    cases hP
  have some_point : c ≠ 0 := by
    rintro rfl
    omega
  obtain rfl : c = 1 := by omega
  rw [hc, Nat.mul_one]

theorem generated (regular : Regular b) (hn : n.Prime) (large : 2 * p + 1 < 3 * n)
    (nonzero : G ≠ 0) (order : n • G = 0) (P : (curve b).toAffine.Point) : ∃ k : ℕ, P = k • G := by
  have := finite regular
  have : Fact n.Prime := ⟨hn⟩
  have multiple : P ∈ AddSubmonoid.multiples G :=
    mem_multiples_of_prime_card (card_eq regular hn large nonzero order) nonzero
  obtain ⟨k, hk⟩ := multiple
  exact ⟨k, hk.symm⟩

end

/-! ## Coordinates as numbers -/

def affine : (curve b).toAffine.Point → Option (ℕ × ℕ)
  | .zero => none
  | .some x y _ => some (x.val, y.val)

theorem affine_injective : Function.Injective (affine (b := b)) := by
  rintro (_ | ⟨x, y, h⟩) (_ | ⟨x', y', h'⟩) same
  · rfl
  · cases same
  · cases same
  · simp only [affine, Option.some.injEq, Prod.mk.injEq] at same
    obtain rfl := ZMod.val_injective p same.1
    obtain rfl := ZMod.val_injective p same.2
    rfl

omit [Fact p.Prime] in
theorem affine_eq_some {P : (curve b).toAffine.Point} {x y : ℕ} (h : affine P = some (x, y)) :
    ∃ (u v : ZMod p) (hP : (curve b).toAffine.Nonsingular u v), P = .some u v hP ∧
      u.val = x ∧ v.val = y := by
  rcases P with _ | ⟨u, v, hP⟩
  · cases h
  · simp only [affine, Option.some.injEq, Prod.mk.injEq] at h
    exact ⟨u, v, hP, rfl, h.1, h.2⟩

theorem affine_neg (regular : Regular b) {P : (curve b).toAffine.Point} {x y : ℕ}
    (h : affine P = some (x, y)) : affine (-P) = some (x, p - y) := by
  obtain ⟨u, v, hP, rfl, rfl, rfl⟩ := affine_eq_some h
  have hv := y_ne_zero regular (equation_iff.mp hP.1)
  rw [Affine.Point.neg_some, affine, negY, val_neg hv]

/-- The point with these coordinates. -/
noncomputable def ofAffine (b : ZMod p) (x y : ℕ) : Option (curve b).toAffine.Point :=
  Function.partialInv affine (some (x, y))

/-- The point with this first coordinate and this parity. -/
noncomputable def ofCompressed (b : ZMod p) (x : ℕ) (parity : Bool) :
    Option (curve b).toAffine.Point :=
  Function.partialInv compress (some ((x : ZMod p), parity))

theorem ofCompressed_eq_some (regular : Regular b) {P : (curve b).toAffine.Point} {x : ℕ}
    {parity : Bool} : ofCompressed b x parity = some P ↔
      ∃ y, affine P = some (x % p, y) ∧ decide (y % 2 = 1) = parity := by
  rw [ofCompressed, (compress_injective regular).isPartialInv P]
  rcases P with _ | ⟨u, v, hP⟩
  · simp [compress, affine]
  · simp only [compress, affine, Option.some.injEq, Prod.mk.injEq, ← ZMod.val_natCast]
    constructor
    · rintro ⟨rfl, rfl⟩
      exact ⟨v.val, ⟨rfl, rfl⟩, rfl⟩
    · rintro ⟨y, ⟨same, rfl⟩, rfl⟩
      exact ⟨ZMod.val_injective p same, rfl⟩

/-- The curve as a group of prime order. -/
noncomputable def group (regular : Regular b) {n : ℕ} (hn : n.Prime) (large : 2 * p + 1 < 3 * n)
    (G : (curve b).toAffine.Point) (nonzero : G ≠ 0) (order : n • G = 0) : CurveGroup p n where
  Point := (curve b).toAffine.Point
  generator := G
  affine := affine
  ofAffine := ofAffine b
  ofCompressed := ofCompressed b
  odd := regular.odd
  prime := hn
  smul_generator_eq_zero k := by
    have : Fact n.Prime := ⟨hn⟩
    rw [← addOrderOf_eq_prime order nonzero, addOrderOf_dvd_iff_nsmul_eq_zero]
  generated := generated regular hn large nonzero order
  affine_eq_none {P} := by
    rcases P with _ | ⟨x, y, h⟩
    · exact ⟨fun _ => rfl, fun _ => rfl⟩
    · simp [affine]
  affine_lt h := by
    obtain ⟨u, v, -, -, rfl, rfl⟩ := affine_eq_some h
    exact ⟨ZMod.val_lt u, ZMod.val_lt v⟩
  affine_neg := affine_neg regular
  eq_or_eq_neg {P Q x y y'} hP hQ := by
    obtain ⟨u, v, hu, rfl, rfl, rfl⟩ := affine_eq_some hP
    obtain ⟨u', v', hu', rfl, same, rfl⟩ := affine_eq_some hQ
    exact Affine.Point.X_eq_iff.mp (ZMod.val_injective p same)
  ofAffine_eq_some _ _ := affine_injective.isPartialInv _ _
  ofCompressed_eq_some := ofCompressed_eq_some regular

/-! ## Multiples -/

/-- Three coordinates of a point `(X / Z ^ 2, Y / Z ^ 3)`. -/
structure Jacobian where
  X : ℕ
  Y : ℕ
  Z : ℕ

namespace Jacobian

def neg (p a : ℕ) : ℕ := p - a % p

theorem cast_neg (a : ℕ) : ((neg p a : ℕ) : ZMod p) = -(a : ZMod p) := by
  rw [neg, Nat.cast_sub (Nat.le_of_lt (Nat.mod_lt a (NeZero.pos p))), ZMod.natCast_self,
    ZMod.natCast_mod, zero_sub]

def Represents (t : Jacobian) (P : (curve b).toAffine.Point) : Prop :=
  (t.Z : ZMod p) ≠ 0 ∧ ∃ x y h, P = .some x y h ∧
    (t.X : ZMod p) = x * (t.Z : ZMod p) ^ 2 ∧ (t.Y : ZMod p) = y * (t.Z : ZMod p) ^ 3

def twice (p : ℕ) (t : Jacobian) : Jacobian :=
  let M := 3 * t.X * t.X % p
  let S := 4 * t.X * t.Y * t.Y % p
  let X := (M * M + 2 * neg p S) % p
  { X := X
    Y := (M * (S + neg p X) + 8 * neg p (t.Y ^ 4)) % p
    Z := 2 * t.Y * t.Z % p }

/-- The sum with the point `(x, y)`. -/
def plus (p : ℕ) (t : Jacobian) (x y : ℕ) : Jacobian :=
  let H := (x * t.Z ^ 2 + neg p t.X) % p
  let r := (y * t.Z ^ 3 + neg p t.Y) % p
  let X := (r * r + neg p (H ^ 3) + 2 * neg p (t.X * H ^ 2)) % p
  { X := X
    Y := (r * (t.X * H ^ 2 + neg p X) + neg p (t.Y * H ^ 3)) % p
    Z := t.Z * H % p }

theorem represents_twice (regular : Regular b) {t : Jacobian} {P : (curve b).toAffine.Point}
    (h : t.Represents P) : (twice p t).Represents (2 • P) := by
  obtain ⟨hZ, x, y, hP, rfl, hX, hY⟩ := h
  have hy := y_ne_zero regular (equation_iff.mp hP.1)
  have h2 := two_ne_zero regular.odd
  have turned := neg_ne_self regular hy
  have apart : y ≠ (curve b).toAffine.negY x y := by rwa [negY]
  have hZ' : ((twice p t).Z : ZMod p) = 2 * t.Y * t.Z := by
    simp [twice]
  refine ⟨?_, _, _, Affine.nonsingular_add hP hP fun same => apart same.2, ?_, ?_, ?_⟩
  · rw [hZ', hY]
    exact mul_ne_zero (mul_ne_zero h2 (mul_ne_zero hy (pow_ne_zero 3 hZ))) hZ
  · rw [two_nsmul, Affine.Point.add_self_of_Y_ne apart]
  · rw [hZ']
    simp only [twice, ZMod.natCast_mod, Nat.cast_add, Nat.cast_mul, Nat.cast_ofNat, cast_neg,
      hX, hY, addX, slope_self turned]
    field_simp
    ring
  · rw [hZ']
    simp only [twice, ZMod.natCast_mod, Nat.cast_add, Nat.cast_mul, Nat.cast_ofNat, cast_neg,
      Nat.cast_pow, hX, hY, addY, slope_self turned]
    field_simp
    ring

theorem represents_plus {t : Jacobian} {P Q : (curve b).toAffine.Point} {x y : ℕ}
    (h : t.Represents P) (hQ : affine Q = some (x, y)) (apart : (plus p t x y).Z ≠ 0) :
    (plus p t x y).Represents (P + Q) := by
  obtain ⟨hZ, u, v, hP, rfl, hX, hY⟩ := h
  obtain ⟨x', y', hQ', rfl, rfl, rfl⟩ := affine_eq_some hQ
  have hZ' : ((plus p t x'.val y'.val).Z : ZMod p) = (x' - u) * t.Z ^ 3 := by
    simp only [plus, ZMod.natCast_mod, Nat.cast_add, Nat.cast_mul, cast_neg, Nat.cast_pow, hX,
      ZMod.natCast_val, ZMod.cast_id]
    ring
  have nonzero : ((plus p t x'.val y'.val).Z : ZMod p) ≠ 0 := by
    rw [ne_eq, ZMod.natCast_eq_zero_iff]
    exact Nat.not_dvd_of_pos_of_lt (Nat.pos_of_ne_zero apart) (Nat.mod_lt _ (NeZero.pos p))
  have differ : u ≠ x' := by
    rintro rfl
    exact nonzero (by rw [hZ', sub_self, zero_mul])
  have differ' := sub_ne_zero.mpr differ
  refine ⟨nonzero, _, _, Affine.nonsingular_add hP hQ' fun same => differ same.1, ?_, ?_, ?_⟩
  · rw [Affine.Point.add_of_X_ne differ]
  · rw [hZ']
    simp only [plus, ZMod.natCast_mod, Nat.cast_add, Nat.cast_mul, Nat.cast_ofNat, cast_neg,
      Nat.cast_pow, hX, hY, addX, Affine.slope_of_X_ne differ, ZMod.natCast_val, ZMod.cast_id]
    field_simp
    ring
  · rw [hZ']
    simp only [plus, ZMod.natCast_mod, Nat.cast_add, Nat.cast_mul, Nat.cast_ofNat, cast_neg,
      Nat.cast_pow, hX, hY, addY, Affine.slope_of_X_ne differ, ZMod.natCast_val, ZMod.cast_id]
    field_simp
    ring

/-- Bit by bit from the top; nothing when a sum would be the point at infinity. -/
def multiple (p x y : ℕ) : (bits k : ℕ) → Option Jacobian
  | 0, _ => none
  | bits + 1, k =>
    if k = 1 then some ⟨x, y, 1⟩
    else
      (multiple p x y bits (k / 2)).bind fun half =>
        if k % 2 = 0 then some (twice p half)
        else if (plus p (twice p half) x y).Z = 0 then none
        else some (plus p (twice p half) x y)

theorem represents_multiple (regular : Regular b) {G : (curve b).toAffine.Point} {x y : ℕ}
    (hG : affine G = some (x, y)) {bits k : ℕ} {t : Jacobian}
    (h : multiple p x y bits k = some t) : t.Represents (k • G) := by
  induction bits generalizing k t with
  | zero => cases h
  | succ bits ih =>
    rw [multiple] at h
    split at h
    · rename_i one
      subst one
      cases h
      obtain ⟨u, v, hP, rfl, rfl, rfl⟩ := affine_eq_some hG
      exact ⟨by simp, u, v, hP, one_nsmul _, by simp, by simp⟩
    · obtain ⟨half, hhalf, h⟩ := Option.bind_eq_some_iff.mp h
      have doubled := represents_twice regular (ih hhalf)
      rw [← mul_nsmul', ← Nat.mul_comm] at doubled
      split at h
      · cases h
        rwa [show k / 2 * 2 = k by omega] at doubled
      · split at h
        · cases h
        · rename_i apart
          cases h
          have sum := represents_plus doubled hG apart
          rwa [← succ_nsmul, show k / 2 * 2 + 1 = k by omega] at sum

/-- Whether `k` times the point `(gx, gy)` is `(x, y)`. -/
def isMultiple (p gx gy k x y : ℕ) : Bool :=
  match multiple p gx gy 256 k with
  | none => false
  | some t => x < p && y < p && t.X % p == x * t.Z ^ 2 % p && t.Y % p == y * t.Z ^ 3 % p

theorem affine_of_isMultiple (regular : Regular b) {G : (curve b).toAffine.Point}
    {gx gy k x y : ℕ} (hG : affine G = some (gx, gy)) (h : isMultiple p gx gy k x y = true) :
    affine (k • G) = some (x, y) := by
  rw [isMultiple] at h
  split at h
  · cases h
  · rename_i t found
    simp only [Bool.and_eq_true, decide_eq_true_eq, beq_iff_eq] at h
    obtain ⟨⟨⟨hx, hy⟩, sameX⟩, sameY⟩ := h
    obtain ⟨hZ, u, v, hP, point, hX, hY⟩ := represents_multiple regular hG found
    rw [← ZMod.natCast_eq_natCast_iff', hX, Nat.cast_mul, Nat.cast_pow] at sameX
    rw [← ZMod.natCast_eq_natCast_iff', hY, Nat.cast_mul, Nat.cast_pow] at sameY
    have first := mul_right_cancel₀ (pow_ne_zero 2 hZ) sameX
    have second := mul_right_cancel₀ (pow_ne_zero 3 hZ) sameY
    rw [point, affine, first, second, ZMod.val_cast_of_lt hx, ZMod.val_cast_of_lt hy]

end Jacobian

end MidnightSdk.ShortWeierstrass
