import Mathlib.Tactic.NormNum.Prime
import MidnightSdk.Library.ShortWeierstrass

/-!
# secp256k1

The curve `y ^ 2 = x ^ 3 + 7`. The field and the order are certified primes, no x
coordinate has a zero y, and the generator has the order it should have.
-/

namespace MidnightSdk.Crypto.Secp256k1

open ShortWeierstrass

/-- The prime of the field. -/
def fieldPrime : ℕ := 0xFFFFFFFFFFFFFFFFFFFFFFFFFFFFFFFFFFFFFFFFFFFFFFFFFFFFFFFEFFFFFC2F

/-- The order of the group. -/
def order : ℕ := 0xFFFFFFFFFFFFFFFFFFFFFFFFFFFFFFFEBAAEDCE6AF48A03BBFD25E8CD0364141

def generatorX : ℕ := 0x79BE667EF9DCBBAC55A06295CE870B07029BFCDB2DCE28D959F2815B16F81798

def generatorY : ℕ := 0x483ADA7726A3C4655DA4FBFC0E1108A8FD17B448A68554199C47D08FFB10D4B8

/-! ## Primes -/

def smallPrimes : List ℕ := [
  2, 3, 5, 7, 11, 17, 29, 31, 41, 53, 59, 97, 109, 149, 293, 461, 631, 797, 971, 1373, 1627, 1871,
  2011, 2621, 2657, 2731, 4051, 4423, 5323, 7723, 9349, 13441, 16699, 20113, 24809, 28181, 41201,
  85831, 96557, 120233]

theorem smallPrimes_prime : ∀ q ∈ smallPrimes, q.Prime := by
  norm_num [smallPrimes]

def certificates : List Pratt := [
  ⟨1206781, 10, [2, 2, 3, 5, 20113]⟩,
  ⟨7240687, 3, [2, 3, 1206781]⟩,
  ⟨107590001, 3, [2, 2, 2, 2, 5, 5, 5, 5, 7, 29, 53]⟩,
  ⟨255515944373312847190720520512484175977, 3, [2, 2, 2, 7, 7, 11, 1627, 2657, 4423, 41201, 96557,
    7240687, 107590001]⟩,
  ⟨13331831, 13, [2, 5, 971, 1373]⟩,
  ⟨173378833005251801, 6, [2, 2, 2, 5, 5, 2621, 24809, 13331831]⟩,
  ⟨22149492674086928081353, 5, [2, 2, 2, 3, 5323, 173378833005251801]⟩,
  ⟨132896956044521568488119, 6, [2, 3, 22149492674086928081353]⟩,
  ⟨205115282021455665897114700593932402728804164701536103180137503955397371, 10, [2, 3, 5, 29, 29,
    31, 7723, 132896956044521568488119, 255515944373312847190720520512484175977]⟩,
  ⟨fieldPrime, 3, [2, 3, 7, 13441,
    205115282021455665897114700593932402728804164701536103180137503955397371]⟩,
  ⟨44706919, 6, [2, 3, 797, 9349]⟩,
  ⟨174723607534414371449, 3, [2, 2, 2, 17, 59, 4051, 120233, 44706919]⟩,
  ⟨4681609, 23, [2, 2, 2, 3, 97, 2011]⟩,
  ⟨107361793816595537, 3, [2, 2, 2, 2, 16699, 85831, 4681609]⟩,
  ⟨305873, 3, [2, 2, 2, 2, 7, 2731]⟩,
  ⟨1627771, 3, [2, 3, 5, 29, 1871]⟩,
  ⟨297159362677, 2, [2, 2, 3, 3, 11, 461, 1627771]⟩,
  ⟨545358713, 5, [2, 2, 2, 41, 59, 28181]⟩,
  ⟨29047611873442575647497758179, 2, [2, 293, 305873, 545358713, 297159362677]⟩,
  ⟨341948486974166000522343609283189, 2, [2, 2, 3, 3, 3, 109, 29047611873442575647497758179]⟩,
  ⟨order, 7, [2, 2, 2, 2, 2, 2, 3, 149, 631, 107361793816595537, 174723607534414371449,
    341948486974166000522343609283189]⟩]

theorem certificates_prime : ∀ q ∈ certificates.map Pratt.modulus, q.Prime :=
  Pratt.all_prime smallPrimes_prime (by decide +kernel)

theorem fieldPrime_prime : fieldPrime.Prime := certificates_prime fieldPrime (by decide)

theorem order_prime : order.Prime := certificates_prime order (by decide)

instance : Fact fieldPrime.Prime := ⟨fieldPrime_prime⟩

theorem order_lt : order < 256 ^ 32 := by decide

theorem fieldPrime_lt : fieldPrime < 256 ^ 32 := by decide

/-! ## The curve -/

theorem regular : Regular (7 : ZMod fieldPrime) where
  odd := by decide
  no_cube := by
    have above : 1 < fieldPrime := by decide
    have below : (fieldPrime - 1) / 3 < 2 ^ 256 := by decide
    have power : powMod fieldPrime 256 (fieldPrime - 7) ((fieldPrime - 1) / 3) ≠ 1 := by
      decide +kernel
    have seven : (7 : ZMod fieldPrime) ≠ 0 := by decide
    have opposite : ((fieldPrime - 7 : ℕ) : ZMod fieldPrime) = -7 := by
      rw [Nat.cast_sub (by decide), ZMod.natCast_self, zero_sub, Nat.cast_ofNat]
    apply no_cube_of_pow seven (by decide)
    rw [← opposite, ne_eq, pow_eq_one_iff above below]
    exact power

theorem generator_on_curve :
    (generatorY : ZMod fieldPrime) ^ 2 = (generatorX : ZMod fieldPrime) ^ 3 + 7 := by
  have same : (generatorY ^ 2) % fieldPrime = (generatorX ^ 3 + 7) % fieldPrime := by
    decide
  rw [← ZMod.natCast_eq_natCast_iff'] at same
  simpa using same

def generator : (ShortWeierstrass.curve (7 : ZMod fieldPrime)).toAffine.Point :=
  .some generatorX generatorY (nonsingular regular generator_on_curve)

theorem affine_generator : affine generator = some (generatorX, generatorY) := by
  rw [generator, affine, ZMod.val_cast_of_lt (by decide),
    ZMod.val_cast_of_lt (by decide)]

/-- One below the order gives the opposite of the generator. -/
theorem generator_order : order • generator = 0 := by
  have last : affine ((order - 1) • generator) = some (generatorX, fieldPrime - generatorY) :=
    Jacobian.affine_of_isMultiple regular affine_generator (by decide +kernel)
  have opposite : (order - 1) • generator = -generator :=
    affine_injective (last.trans (affine_neg regular affine_generator).symm)
  have whole : order = order - 1 + 1 := by decide
  rw [whole, succ_nsmul, opposite, neg_add_cancel]

/-- **secp256k1 is a group of prime order** with the coordinates that are used of it. -/
noncomputable def curve : CurveGroup fieldPrime order :=
  ShortWeierstrass.group regular order_prime (by decide) generator
    (WeierstrassCurve.Affine.Point.some_ne_zero _) generator_order

/-- A multiple of the generator, by computation. -/
theorem affine_smul {k x y : ℕ}
    (h : Jacobian.isMultiple fieldPrime generatorX generatorY k x y = true) :
    curve.affine (k • curve.generator) = some (x, y) :=
  Jacobian.affine_of_isMultiple regular affine_generator h

/-- Coordinates have 32 bytes at most. -/
theorem affine_fits {curve : CurveGroup fieldPrime order} {P : curve.Point} {x y : ℕ}
    (h : curve.affine P = some (x, y)) : x < 256 ^ 32 ∧ y < 256 ^ 32 := by
  obtain ⟨hx, hy⟩ := curve.affine_lt h
  exact ⟨Nat.lt_trans hx fieldPrime_lt, Nat.lt_trans hy fieldPrime_lt⟩

end MidnightSdk.Crypto.Secp256k1
